/-
  Isolation of failing rules.

  With isolation, annotating a node adds what its rule finds and nothing else,
  whatever the host does: a fault, and the host's breaking off at any question,
  only means that nothing is found. `annotateTree_isolated` says this of one
  node and of the nodes below a node: `contribution` is read off the rule of a
  node alone, `contributions` follows the numbering of types through the nodes.
-/
import ScriptCheck.Host.Table
import ScriptCheck.Proofs.Annotation.Runs
import ScriptCheck.Proofs.Syntax.Preorder

namespace ScriptCheck.Checker

/-! ## What a node contributes -/

/-- What the rule of a node reports, and nothing if it faults or the host breaks off. -/
def contribution (c : Checker) (i : NodeId) (types : Interner) : List Diagnostic :=
  match ((c.check i).exec types).1 with
  | .ok (.ok found) => found.toList
  | .ok (.error _) => []
  | .error _ => []

/-- What is numbered when the rule of a node has ended or broken off. -/
def typesAfter (c : Checker) (i : NodeId) (types : Interner) : Interner :=
  ((c.check i).exec types).2

/-- What nodes contribute, one after the other. -/
def contributions (c : Checker) : List NodeId → Interner → List (List Diagnostic)
  | [], _ => []
  | i :: rest, types => c.contribution i types :: c.contributions rest (c.typesAfter i types)

/-- What is numbered after the rules of nodes, one after the other. -/
def typesAfterAll (c : Checker) (nodes : List NodeId) (types : Interner) : Interner :=
  nodes.foldl (fun types i => c.typesAfter i types) types

/-- The rule of a node ends with a fault, or the host breaks off. -/
def Fails (c : Checker) (i : NodeId) (types : Interner) : Prop :=
  (∃ f, ((c.check i).exec types).1 = .ok (.error f)) ∨ ∃ p, ((c.check i).exec types).1 = .error p

/-- Annotating a node does not break off: failing rules are isolated, or this one does not fail so
    badly. -/
def Survives (c : Checker) (i : NodeId) (types : Interner) : Prop :=
  c.isolate = true ∨ ∃ result, ((c.check i).exec types).1 = .ok result

/-- Where `R` relates the numberings, the rule of a node does the same in two checkers, and `R`
    relates the numberings afterwards. -/
def AlikeAt (c other : Checker) (R : Interner → Interner → Prop) (i : NodeId) : Prop :=
  ∀ types types', R types types' →
    ((c.check i).exec types).1 = ((other.check i).exec types').1 ∧
      R (c.typesAfter i types) (other.typesAfter i types')

section

variable {c other : Checker} {i n root : NodeId} {types : Interner}

theorem length_contribution_le (c : Checker) (i : NodeId) (types : Interner) :
    (c.contribution i types).length ≤ 1 := by
  unfold contribution
  split
  · next found _ => cases found <;> simp
  · simp
  · simp

theorem Fails.contribution_eq_nil (h : c.Fails i types) : c.contribution i types = [] := by
  unfold contribution
  obtain ⟨f, hf⟩ | ⟨p, hp⟩ := h
  · rw [hf]
  · rw [hp]

/-! ## What rules find arrives as it is -/

/-- Collectors report errors and warnings in the way that rules make them. -/
theorem covers_replayed (c : Checker) : c.Covers fun d => d.replayed = d := by
  constructor
  · intro node message args highlight fixes _
    apply finds_errorAt
    intro text
    rfl
  · intro node message args fixes _
    apply finds_warningAt
    intro text
    rfl

theorem finds_replayed_checkCall (c : Checker) (i : NodeId) (method : SymbolId) (name : String) :
    Rule.Finds (fun d => d.replayed = d) (c.checkCall i method name) := by
  refine Rule.finds_bind fun signature => ?_
  cases signature with
  | none => exact Rule.finds_none
  | some signature =>
    dsimp only
    split
    · exact Rule.finds_none
    refine Rule.finds_bind fun arguments => ?_
    cases arguments with
    | none => exact Rule.finds_none
    | some arguments =>
      refine Rule.finds_bind fun world => ?_
      split
      · exact Rule.finds_none
      refine Rule.finds_bind fun node => ?_
      cases node with
      | none => exact Rule.finds_throw _
      | some node =>
        apply finds_warningAt
        intro text
        rfl

/-- What a rule finds is reported as it is. -/
theorem finds_replayed (c : Checker) (i : NodeId) :
    Rule.Finds (fun d => d.replayed = d) (c.check i) := by
  have h : c.Covers fun d => d.replayed = d := c.covers_replayed
  refine Rule.finds_bind fun subject => ?_
  cases subject with
  | typeReference data => exact h.finds_checkTypeReference i data
  | valueReference data =>
    dsimp only [checkValueReference]
    split
    · exact Rule.finds_none
    refine Rule.finds_bind fun resolution => ?_
    split
    · exact h.warning _ _ _ _ nofun
    · refine Rule.finds_bind fun kind => ?_
      split
      · exact c.finds_replayed_checkCall i _ _
      · exact Rule.finds_none
    · split
      · exact h.finds_reportUnresolved i _
      · exact Rule.finds_none
  | typeDecl data => exact h.finds_checkTypeDecl i data
  | variableLike data => exact h.finds_checkVariable i data
  | assignment left operator right => exact h.finds_checkAssignment left operator right
  | legacyFor => exact h.error _ _ _ _ _ nofun
  | other => exact Rule.finds_none

/-! ## One node -/

/-- Unless annotation breaks off, the rule of a node has an outcome. -/
theorem Survives.exec_outcome (hc : c.Survives i types) :
    ∃ result, (c.outcome i).exec types = (.ok result, c.typesAfter i types) ∧
      (reported result).diagnostics = c.contribution i types := by
  unfold outcome typesAfter contribution Survives at *
  unfold Rule.exec at *
  cases hrun : Check.exec (ExceptT.run (c.check i)) types with
  | mk result types' =>
    rw [hrun] at hc
    by_cases hiso : c.isolate = true
    · rw [if_pos hiso]
      unfold checkIsolated
      rw [Check.exec_tryCatch, hrun]
      cases result with
      | error p => exact ⟨_, rfl, rfl⟩
      | ok result =>
        cases result with
        | error f => exact ⟨_, rfl, rfl⟩
        | ok found => exact ⟨_, rfl, rfl⟩
    · rw [if_neg hiso, hrun]
      obtain ⟨result, rfl⟩ := hc.resolve_left hiso
      cases result with
      | error f => exact ⟨_, rfl, rfl⟩
      | ok found => exact ⟨_, rfl, rfl⟩

/-- What a node contributes arrives as it is. -/
theorem map_replayed_contribution (c : Checker) (i : NodeId) (types : Interner) :
    (c.contribution i types).map Diagnostic.replayed = c.contribution i types := by
  unfold contribution
  cases h : (c.check i).exec types with
  | mk result types' =>
    cases result with
    | error p => rfl
    | ok result =>
      cases result with
      | error f => rfl
      | ok found =>
        cases found with
        | none => rfl
        | some d =>
          have hd : d.replayed = d := c.finds_replayed i _ _ _ h
          exact congrArg (fun d => [d]) hd

/-- Annotating a node appends what the node contributes. -/
theorem Survives.exec_annotate (hc : c.Survives i types) (sink : Collector) :
    (c.annotate i sink).exec types =
      (.ok ⟨sink.diagnostics ++ c.contribution i types⟩, c.typesAfter i types) := by
  obtain ⟨result, hrun, hreported⟩ := hc.exec_outcome
  have hsink : ((reported result).forward sink).2 =
      ⟨sink.diagnostics ++ c.contribution i types⟩ := by
    have hlist := Collector.diagnostics_forward (reported result) sink
    rw [hreported, map_replayed_contribution] at hlist
    exact congrArg Collector.mk hlist
  unfold annotate
  rw [Check.exec_bind, hrun]
  exact congrArg (fun s => (Except.ok s, c.typesAfter i types)) hsink

/-- If annotating a node adds a single diagnostic, the rule of the node found it. -/
theorem exec_check_of_annotate {sink : Collector} {d : Diagnostic}
    (h : ((c.annotate i sink).exec types).1 = .ok ⟨sink.diagnostics ++ [d]⟩) :
    (c.check i).exec types = (.ok (.ok (some d)), c.typesAfter i types) := by
  have hsurvives : c.Survives i types := by
    by_cases hc : c.isolate = true
    · exact Or.inl hc
    · -- Without isolation annotation would have broken off with the rule.
      refine Or.inr ?_
      unfold annotate outcome at h
      rw [if_neg hc, Check.exec_bind] at h
      unfold Rule.exec
      cases hrun : Check.exec (ExceptT.run (c.check i)) types with
      | mk result types' =>
        cases result with
        | ok result => exact ⟨result, rfl⟩
        | error p =>
          rw [hrun] at h
          cases h
  have hone : c.contribution i types = [d] := by
    rw [hsurvives.exec_annotate] at h
    have hlist := congrArg Collector.diagnostics (Except.ok.inj h)
    exact List.append_cancel_left hlist
  have hresult : ((c.check i).exec types).1 = .ok (.ok (some d)) := by
    unfold contribution at hone
    split at hone
    · next found hfound =>
      rw [hfound]
      cases found with
      | none => cases hone
      | some d' =>
        cases hone
        rfl
    · cases hone
    · cases hone
  exact Prod.ext hresult rfl

/-- A diagnostic that the rule of a node finds is what annotating the node adds. -/
theorem exec_annotate_of_check {d : Diagnostic} {last : Interner}
    (h : (c.check i).exec types = (.ok (.ok (some d)), last)) (sink : Collector) :
    (c.annotate i sink).exec types = (.ok ⟨sink.diagnostics ++ [d]⟩, last) := by
  have hsurvives : c.Survives i types := Or.inr ⟨_, congrArg Prod.fst h⟩
  rw [hsurvives.exec_annotate]
  unfold contribution typesAfter
  rw [h]
  rfl

/-! ## Many nodes -/

/-- Annotating nodes one after the other appends what they contribute, in order, if nothing breaks
    off as long as the numbering is one of those in `I`, and rules keep to these. -/
theorem exec_foldlM_annotate {I : Interner → Prop}
    (hstep : ∀ i types, I types → c.Survives i types ∧ I (c.typesAfter i types))
    (nodes : List NodeId) (sink : Collector) {types : Interner} (hi : I types) :
    (nodes.foldlM (fun sink i => c.annotate i sink) sink).exec types =
      (.ok ⟨sink.diagnostics ++ (c.contributions nodes types).flatten⟩,
        c.typesAfterAll nodes types) := by
  induction nodes generalizing sink types with
  | nil =>
    rw [List.foldlM_nil, Check.exec_pure, contributions, List.flatten_nil, List.append_nil]
    rfl
  | cons i rest ih =>
    obtain ⟨hsurvives, hnext⟩ := hstep i types hi
    rw [List.foldlM_cons, Check.exec_bind, hsurvives.exec_annotate]
    dsimp only
    rw [ih _ hnext, contributions, List.flatten_cons, List.append_assoc]
    rfl

/-- Where two checkers do the same at all nodes but one, and what they do there leaves related
    numberings, only that node contributes something else. -/
theorem getElem?_contributions {R : Interner → Interner → Prop}
    (hsame : ∀ i, i ≠ n → c.AlikeAt other R i)
    (hleft : ∀ types types', R types types' →
      R (c.typesAfter n types) (other.typesAfter n types'))
    {nodes : List NodeId} {types types' : Interner} (hr : R types types') {k : Nat}
    (hk : nodes[k]? ≠ some n) :
    (c.contributions nodes types)[k]? = (other.contributions nodes types')[k]? := by
  induction nodes generalizing types types' k with
  | nil => rfl
  | cons i rest ih =>
    -- Both at `n` and elsewhere, what is left behind is related.
    have hnext : R (c.typesAfter i types) (other.typesAfter i types') := by
      by_cases hi : i = n
      · subst hi
        exact hleft _ _ hr
      · exact (hsame i hi _ _ hr).2
    rw [contributions, contributions]
    cases k with
    | zero =>
      have hi : i ≠ n := fun h => hk (congrArg some h)
      have hfirst : c.contribution i types = other.contribution i types' := by
        unfold contribution
        rw [(hsame i hi _ _ hr).1]
      rw [List.getElem?_cons_zero, List.getElem?_cons_zero, hfirst]
    | succ k =>
      rw [List.getElem?_cons_succ] at hk
      rw [List.getElem?_cons_succ, List.getElem?_cons_succ]
      exact ih hnext hk

/-- With isolation, a failing rule touches nothing but what its own node contributes.

    - Annotating a node appends to the collector what the rule of the node reports, which is one
      diagnostic at most, and nothing if the rule faults or the host breaks off.
    - Annotating the nodes below a node appends what each of them contributes, a node before its
      parts and parts in their order.
    - If the rule of one node ends in another way, such as by a fault or by breaking off, and the
      others make no difference between the numberings it may leave, they contribute the same. -/
theorem annotateTree_isolated (hc : c.isolate = true) (ht : c.tree.Descends) :
    (∀ i sink types,
      (c.annotate i sink).exec types =
          (.ok ⟨sink.diagnostics ++ c.contribution i types⟩, c.typesAfter i types) ∧
        (c.contribution i types).length ≤ 1 ∧
        (c.Fails i types → c.contribution i types = [])) ∧
    (∀ root sink types,
      (c.annotateTree root sink).exec types =
        (.ok ⟨sink.diagnostics ++ (c.contributions (c.tree.preorder root) types).flatten⟩,
          c.typesAfterAll (c.tree.preorder root) types)) ∧
    (∀ root, c.tree.preorder root =
      if root < c.tree.size then root :: (c.tree.children root).flatMap c.tree.preorderOf
      else []) ∧
    ∀ (other : Checker) (R : Interner → Interner → Prop) (n root : NodeId),
      (∀ i, i ≠ n → c.AlikeAt other R i) →
      (∀ types types', R types types' → R (c.typesAfter n types) (other.typesAfter n types')) →
      ∀ types types', R types types' → ∀ k : Nat, (c.tree.preorder root)[k]? ≠ some n →
        (c.contributions (c.tree.preorder root) types)[k]? =
          (other.contributions (c.tree.preorder root) types')[k]? := by
  refine ⟨fun i sink types => ?_, fun root sink types => ?_, fun root => ?_, ?_⟩
  · have hsurvives : c.Survives i types := Or.inl hc
    exact ⟨hsurvives.exec_annotate sink, length_contribution_le c i types,
      fun h => h.contribution_eq_nil⟩
  · exact exec_foldlM_annotate (I := fun _ => True) (fun _ _ _ => ⟨Or.inl hc, trivial⟩) _ sink
      trivial
  · split
    · next h => exact ht.preorder_eq h
    · next h => exact Tree.preorder_eq_nil (Nat.le_of_not_lt h)
  · intro other R n root hsame hleft types types' hr k hk
    exact getElem?_contributions hsame hleft hr hk

end

/-! ## A host that breaks off -/

/-- A file that uses `x` and then has a loop with three clauses. -/
def loopTree : Tree :=
  .ofNodes
    [(.reference .value ⟨none, some "x", default⟩, .none),
      (.legacyForClause none none none, .none),
      (.sourceFile ⟨"loop", none, [], [some 0, some 1]⟩, .none)]

theorem loopTree_descends : loopTree.Descends :=
  ((Tree.built_ofNodes _).wellShaped (by decide +kernel)).descends

/-- The file is checked by a host that finds `x` out of reach, or breaks off where it is told to. -/
def loopChecker (breaks : List ((Question × Nat) × Panic)) : Checker :=
  ⟨loopTree, .standard,
    HostTable.host ⟨.resolved [(0, .inaccessible 7)], [], [], [], [], [], [], [], breaks⟩ .builtIn,
    true⟩

/-- The host that breaks off when it is asked what `x` is. -/
def breakingChecker : Checker := loopChecker [((.resolve, 0), .silent)]

/-- What is said about the loop. -/
def loopFinding : Diagnostic :=
  .error ⟨some 1, default⟩
    ⟨Message.code .legacyFor, Message.key .legacyFor, [], Wording.builtIn .legacyFor []⟩ .generic []

theorem alikeAt_breakingChecker {i : NodeId} (hi : i ≠ 0) :
    breakingChecker.AlikeAt (loopChecker []) Eq i := by
  rintro types _ rfl
  -- Only node 0 is something that the host is asked about.
  have hrun : (breakingChecker.check i).exec types = ((loopChecker []).check i).exec types := by
    match i, hi with
    | 1, _ => rfl
    | 2, _ => rfl
    | i + 3, _ => rfl
  exact ⟨congrArg Prod.fst hrun, congrArg Prod.snd hrun⟩

/-- The host breaks off at `x`, about which another host would have had something to say. The loop
    after it gets its error all the same. -/
theorem annotateTree_breakingChecker :
    breakingChecker.Fails 0 .initial ∧
    (breakingChecker.annotateTree 2 .empty).exec .initial = (.ok ⟨[loopFinding]⟩, .initial) ∧
    ((loopChecker []).contributions [2, 0, 1] .initial).map List.length = [0, 1, 1] ∧
    (breakingChecker.contributions [2, 0, 1] .initial).map List.length = [0, 0, 1] ∧
    (breakingChecker.contributions [2, 0, 1] .initial)[2]? =
      ((loopChecker []).contributions [2, 0, 1] .initial)[2]? := by
  have horder : breakingChecker.tree.preorder 2 = [2, 0, 1] := by decide +kernel
  obtain ⟨_, hbelow, _, hothers⟩ :=
    annotateTree_isolated (c := breakingChecker) rfl loopTree_descends
  have hfails : breakingChecker.Fails 0 .initial := Or.inr ⟨_, rfl⟩
  have hleft : ∀ types types' : Interner, types = types' →
      breakingChecker.typesAfter 0 types = (loopChecker []).typesAfter 0 types' := by
    rintro types _ rfl
    rfl
  have hloop := hothers (loopChecker []) Eq 0 2 (fun i hi => alikeAt_breakingChecker hi) hleft
    .initial .initial rfl 2
  rw [horder] at hloop
  refine ⟨hfails, ?_, ?_, ?_, hloop (by decide)⟩
  · rw [hbelow, horder]
    rfl
  · rfl
  · rfl

end ScriptCheck.Checker
