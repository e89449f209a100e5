/-
  Annotation does not depend on what was annotated before.

  Annotating a script numbers types on the way, so what a rule runs on depends
  on the nodes that were annotated earlier. The host of a script answers alike
  on twins, and so every rule comes to the same end on them. One of the twins
  may be the numbering from which annotation started: each node always says
  what it would have said first.
-/
import ScriptCheck.Proofs.Annotation.Isolation
import ScriptCheck.Proofs.Script.File
import ScriptCheck.Proofs.Typing.Agreement

namespace ScriptCheck

open Typing (Equal)

section

variable {base : Interner} {α β γ δ : Type} {w : Twins base}

/-! ## Answers -/

namespace Check

/-- On either of the twins the host has an answer, these are related by `R`, and the twins grow. -/
def Agree (R : Twins base → α → β → Prop) (w : Twins base) (m : Check α) (m' : Check β) : Prop :=
  ∃ w' a b, w.Extends w' ∧ m.exec w.left = (.ok a, w'.left) ∧
    m'.exec w.right = (.ok b, w'.right) ∧ R w' a b

/-- The computation agrees with itself on all twins. -/
def Steady (base : Interner) (R : Twins base → α → α → Prop) (m : Check α) : Prop :=
  ∀ w, Agree R w m m

variable {R : Twins base → α → α → Prop}

theorem steady_pure (a : α) : Steady base Equal (pure a) :=
  fun w => ⟨w, a, a, Twins.Extends.refl w, rfl, rfl, rfl⟩

/-- Answers from typing agree if typing does. -/
theorem steady_answer {typing : Typing α} (h : Typing.Steady base R typing) {unknown : α}
    (hunknown : ∀ w, R w unknown unknown) : Steady base R (typing.answer unknown) := by
  intro w
  unfold Agree
  rw [exec_answer, exec_answer]
  obtain ⟨hl, hr⟩ | ⟨w', a, b, hw, hl, hr, hab⟩ := h w
  · rw [hl, hr]
    exact ⟨w, _, _, Twins.Extends.refl w, rfl, rfl, hunknown w⟩
  · rw [hl, hr]
    exact ⟨w', a, b, hw, rfl, rfl, hab⟩

end Check

/-- Every answer of the host is the same on twins. -/
structure Host.Steady (base : Interner) (h : Host) : Prop where
  resolve : ∀ i, Check.Steady base Equal (h.resolve i)
  symbolKind : ∀ symbol, Check.Steady base Equal (h.symbolKind symbol)
  expressionType : ∀ i,
    Check.Steady base (fun w => Option.Rel w.Same) (h.expressionType i)
  declaredType : ∀ i, Check.Steady base (fun w => Option.Rel w.Same) (h.declaredType i)
  signature : ∀ symbol,
    Check.Steady base (fun w => Option.Rel w.SameSignature) (h.signature symbol)
  argumentTypes : ∀ i,
    Check.Steady base (fun w => Option.Rel (List.Forall₂ (Option.Rel w.Same)))
      (h.argumentTypes i)
  argumentsNode : ∀ i, Check.Steady base Equal (h.argumentsNode i)
  importFixes : ∀ i, Check.Steady base Equal (h.importFixes i)
  wording : ∀ message args, Check.Steady base Equal (h.wording message args)

/-- The host of a script answers the same on twins. -/
theorem TypedScript.steady_host {s : TypedScript} (he : s.environment.Interned base)
    (fixes : NodeId → List Fix) (wording : Wording) : (s.host fixes wording).Steady base where
  resolve i := Check.steady_answer (steady_resolve he i) fun _ => rfl
  symbolKind _ := Check.steady_pure _
  expressionType i := by
    cases i with
    | none => exact fun w => ⟨w, _, _, Twins.Extends.refl w, rfl, rfl, .none⟩
    | some i => exact Check.steady_answer (steady_typeOf he i) fun _ => .none
  declaredType i := Check.steady_answer (steady_declaredType he i) fun _ => .none
  signature symbol := Check.steady_answer (steady_signatureOf he symbol) fun _ => .none
  argumentTypes i := Check.steady_answer (steady_argumentTypes he i) fun _ => .none
  argumentsNode _ := Check.steady_pure _
  importFixes _ := Check.steady_pure _
  wording _ _ := Check.steady_pure _

/-! ## Rules -/

namespace Rule

/-- On either of the twins the rule ends with the same diagnostic, or with none, or with the same
    fault, and the twins grow. -/
def Agree (w : Twins base) (m m' : Rule (Option Diagnostic)) : Prop :=
  ∃ w' result, w.Extends w' ∧ m.exec w.left = (.ok result, w'.left) ∧
    m'.exec w.right = (.ok result, w'.right)

/-- The rule agrees with itself on all twins. -/
def Steady (base : Interner) (m : Rule (Option Diagnostic)) : Prop :=
  ∀ w : Twins base, Agree w m m

theorem agree_pure (w : Twins base) (found : Option Diagnostic) :
    Agree w (pure found) (pure found) :=
  ⟨w, .ok found, Twins.Extends.refl w, rfl, rfl⟩

theorem agree_throw (w : Twins base) (f : Fault) : Agree w (throw f) (throw f) :=
  ⟨w, .error f, Twins.Extends.refl w, rfl, rfl⟩

/-- After related answers, the rule goes on on grown twins. -/
theorem agree_ask_bind {R : Twins base → α → β → Prop} {m : Check α} {m' : Check β}
    {f : α → Rule (Option Diagnostic)} {g : β → Rule (Option Diagnostic)}
    (hm : Check.Agree R w m m') (hf : ∀ w' a b, w.Extends w' → R w' a b → Agree w' (f a) (g b)) :
    Agree w (ask m >>= f) (ask m' >>= g) := by
  obtain ⟨w', a, b, hw, hl, hr, hab⟩ := hm
  obtain ⟨w'', result, hw', hfl, hgr⟩ := hf w' a b hw hab
  unfold Agree
  rw [exec_ask_bind, exec_ask_bind, hl, hr]
  exact ⟨w'', result, hw.trans hw', hfl, hgr⟩

/-- After an answer that does not depend on the numbering, the rule goes on. -/
theorem steady_ask_bind {m : Check α} {f : α → Rule (Option Diagnostic)}
    (hm : Check.Steady base Equal m) (hf : ∀ a, Steady base (f a)) :
    Steady base (ask m >>= f) := by
  intro w
  apply agree_ask_bind (hm w)
  rintro w' a _ _ rfl
  exact hf a w'

end Rule

end

namespace Checker

variable {base : Interner} {c : Checker}

theorem steady_errorAt (hc : c.host.Steady base) (node : Part) (message : Message)
    (args : List String) (highlight : Highlight) (fixes : List Fix) :
    Rule.Steady base (c.errorAt node message args highlight fixes) := by
  unfold errorAt rendered
  simp only [bind_assoc, pure_bind]
  exact Rule.steady_ask_bind (hc.wording message args) fun _ _ => Rule.agree_pure _ _

theorem steady_warningAt (hc : c.host.Steady base) (node : Part) (message : Message)
    (args : List String) (fixes : List Fix) :
    Rule.Steady base (c.warningAt node message args fixes) := by
  unfold warningAt rendered
  simp only [bind_assoc, pure_bind]
  exact Rule.steady_ask_bind (hc.wording message args) fun _ _ => Rule.agree_pure _ _

/-- What follows on the knowledge about types agrees if it does for the two worlds. -/
theorem agree_typeWorld_bind {w : Twins base} {f g : TypeWorld → Rule (Option Diagnostic)}
    (hf : Rule.Agree w (f (w.leftWorld c.hierarchy)) (g (w.rightWorld c.hierarchy))) :
    Rule.Agree w (c.typeWorld >>= f) (c.typeWorld >>= g) := by
  obtain ⟨w', result, hw, hl, hr⟩ := hf
  unfold Rule.Agree
  rw [exec_typeWorld_bind, exec_typeWorld_bind]
  exact ⟨w', result, hw, hl, hr⟩

/-- Values of the same types are let through alike, or get the same warning. -/
theorem agree_checkFits (hh : c.hierarchy.Interned base) (hc : c.host.Steady base)
    {w : Twins base} {target target' source source' : TypeId} (ht : w.Same target target')
    (hs : w.Same source source') (node : Part) :
    Rule.Agree w (c.checkFits target source node) (c.checkFits target' source' node) := by
  apply agree_typeWorld_bind
  rw [ht.isAssignable hh hs, Twins.types_leftWorld, Twins.types_rightWorld, hs.text, ht.text]
  split
  · exact Rule.agree_pure w none
  · exact steady_warningAt hc _ _ _ _ w

theorem steady_checkAssignment (hh : c.hierarchy.Interned base) (hc : c.host.Steady base)
    (left : Part) (operator : AssignOp) (right : Part) :
    Rule.Steady base (c.checkAssignment left operator right) := by
  intro w
  unfold checkAssignment
  split
  · exact Rule.agree_pure w none
  apply Rule.agree_ask_bind (hc.expressionType left w)
  intro w' target target' _ ht
  cases ht with
  | none => exact Rule.agree_pure w' none
  | some ht =>
    apply Rule.agree_ask_bind (hc.expressionType right w')
    intro w'' source source' hw hs
    cases hs with
    | none => exact Rule.agree_pure w'' none
    | some hs => exact agree_checkFits hh hc (ht.mono hw) hs right

theorem steady_checkVariable (hh : c.hierarchy.Interned base) (hc : c.host.Steady base)
    (i : NodeId) (data : Variable) : Rule.Steady base (c.checkVariable i data) := by
  intro w
  unfold checkVariable
  cases data.initial with
  | none => exact Rule.agree_pure w none
  | some initial =>
    apply Rule.agree_ask_bind (hc.expressionType initial w)
    intro w' source source' _ hs
    cases hs with
    | none => exact Rule.agree_pure w' none
    | some hs =>
      apply Rule.agree_ask_bind (hc.declaredType i w')
      intro w'' target target' hw ht
      cases ht with
      | none => exact Rule.agree_pure w'' none
      | some ht => exact agree_checkFits hh hc ht (hs.mono hw) initial

theorem steady_checkCall (hh : c.hierarchy.Interned base) (hc : c.host.Steady base) (i : NodeId)
    (method : SymbolId) (name : String) : Rule.Steady base (c.checkCall i method name) := by
  intro w
  apply Rule.agree_ask_bind (hc.signature method w)
  intro w' signature signature' _ hs
  cases hs with
  | none => exact Rule.agree_pure w' none
  | @some signature signature' hs =>
    dsimp only
    rw [hs.builder]
    split
    · exact Rule.agree_pure w' none
    apply Rule.agree_ask_bind (hc.argumentTypes i w')
    intro w'' args args' hw ha
    cases ha with
    | none => exact Rule.agree_pure w'' none
    | some ha =>
      -- The signature was found before the arguments were typed, on twins that grew since.
      apply agree_typeWorld_bind
      rw [(hs.mono hw).isApplicable hh ha]
      split
      · exact Rule.agree_pure w'' none
      apply Rule.agree_ask_bind (hc.argumentsNode i w'')
      rintro v node _ _ rfl
      cases node with
      | none => exact Rule.agree_throw v _
      | some arguments => exact steady_warningAt hc _ _ _ _ v

theorem steady_reportUnresolved (hc : c.host.Steady base) (i : NodeId) (name : String) :
    Rule.Steady base (c.reportUnresolved i name) := by
  unfold reportUnresolved
  split
  · exact steady_errorAt hc _ _ _ _ _
  split
  · exact Rule.steady_ask_bind (hc.importFixes i) fun _ => steady_warningAt hc _ _ _ _
  · exact fun w => Rule.agree_pure w none

theorem steady_checkValueReference (hh : c.hierarchy.Interned base) (hc : c.host.Steady base)
    (i : NodeId) (data : Reference) : Rule.Steady base (c.checkValueReference i data) := by
  unfold checkValueReference
  split
  · exact fun w => Rule.agree_pure w none
  apply Rule.steady_ask_bind (hc.resolve i)
  intro resolution
  -- The name is out of reach, stands for something, or for nothing.
  split
  · exact steady_warningAt hc _ _ _ _
  · apply Rule.steady_ask_bind (hc.symbolKind _)
    intro kind
    split
    · exact steady_checkCall hh hc i _ _
    · exact fun w => Rule.agree_pure w none
  · split
    · exact steady_reportUnresolved hc i _
    · exact fun w => Rule.agree_pure w none

theorem steady_checkTypeReference (hc : c.host.Steady base) (i : NodeId) (data : Reference) :
    Rule.Steady base (c.checkTypeReference i data) := by
  unfold checkTypeReference
  split
  · exact fun w => Rule.agree_pure w none
  apply Rule.steady_ask_bind (hc.resolve i)
  intro resolution
  split
  · exact Rule.steady_ask_bind (hc.importFixes i) fun _ => steady_errorAt hc _ _ _ _ _
  · exact steady_errorAt hc _ _ _ _ _
  · exact fun w => Rule.agree_pure w none

theorem steady_checkTypeDecl (hc : c.host.Steady base) (i : NodeId) (data : TypeDecl) :
    Rule.Steady base (c.checkTypeDecl i data) := by
  unfold checkTypeDecl
  split
  · exact steady_errorAt hc _ _ _ _ _
  · exact fun w => Rule.agree_pure w none

/-- The rule of a node ends the same on twins. -/
theorem steady_check (hh : c.hierarchy.Interned base) (hc : c.host.Steady base) (i : NodeId) :
    Rule.Steady base (c.check i) := by
  unfold check
  cases Subject.ofNode c.tree i with
  | error f => exact fun w => Rule.agree_throw w f
  | ok subject =>
    cases subject with
    | typeReference data => exact steady_checkTypeReference hc i data
    | valueReference data => exact steady_checkValueReference hh hc i data
    | typeDecl data => exact steady_checkTypeDecl hc i data
    | variableLike data => exact steady_checkVariable hh hc i data
    | assignment left operator right => exact steady_checkAssignment hh hc left operator right
    | legacyFor => exact steady_errorAt hc _ _ _ _ _
    | other => exact fun w => Rule.agree_pure w none

/-! ## Annotation -/

/-- The numberings that annotation may lead to from a numbering. -/
def Later (base types : Interner) : Prop := types.Grown ∧ base.Extends types

/-- On a later numbering the rule of a node ends, leaves a still later one, and reports what it
    would have reported at first. -/
theorem contribution_eq_of_later (hg : base.Grown) (hh : c.hierarchy.Interned base)
    (hc : c.host.Steady base) (i : NodeId) {types : Interner} (ht : Later base types) :
    c.Survives i types ∧ Later base (c.typesAfter i types) ∧
      c.contribution i types = c.contribution i base := by
  -- The left twin is the later numbering, and the right one is the first itself.
  let w : Twins base := ⟨types, base, ht.1, hg, ht.2, Interner.Extends.refl base⟩
  obtain ⟨w', result, _, hl, hr⟩ := steady_check hh hc i w
  -- So both runs end alike, and without the host breaking off.
  have hlater : (c.check i).exec types = (.ok result, w'.left) := hl
  have hfirst : (c.check i).exec base = (.ok result, w'.right) := hr
  refine ⟨Or.inr ⟨result, ?_⟩, ⟨?_, ?_⟩, ?_⟩
  · rw [hlater]
  · unfold typesAfter
    rw [hlater]
    exact w'.left_grown
  · unfold typesAfter
    rw [hlater]
    exact w'.left_extends
  · unfold contribution
    rw [hlater, hfirst]

section

variable (hg : base.Grown) (hh : c.hierarchy.Interned base) (hc : c.host.Steady base)

include hg hh hc

/-- What nodes contribute one after the other is what each would have contributed first. -/
theorem contributions_eq_of_later (nodes : List NodeId) {types : Interner}
    (ht : Later base types) :
    c.contributions nodes types = nodes.map (c.contribution · base) ∧
      Later base (c.typesAfterAll nodes types) := by
  induction nodes generalizing types with
  | nil => exact ⟨rfl, ht⟩
  | cons i rest ih =>
    obtain ⟨_, hnext, hsame⟩ := contribution_eq_of_later hg hh hc i ht
    obtain ⟨hrest, hlast⟩ := ih hnext
    rw [contributions, hsame, hrest]
    exact ⟨rfl, hlast⟩

/-- Collecting what is said about the nodes below a node. -/
theorem exec_collectTree_of_later (root : NodeId) {types : Interner} (ht : Later base types) :
    ∃ after, Later base after ∧ (c.collectTree root).exec types =
      (.ok ((c.tree.preorder root).flatMap (c.contribution · base)), after) := by
  obtain ⟨hsame, hlast⟩ := contributions_eq_of_later hg hh hc (c.tree.preorder root) ht
  have hrun := exec_foldlM_annotate (I := Later base)
    (fun i types ht => ⟨(contribution_eq_of_later hg hh hc i ht).1,
      (contribution_eq_of_later hg hh hc i ht).2.1⟩) (c.tree.preorder root) .empty ht
  refine ⟨_, hlast, ?_⟩
  unfold collectTree annotateTree
  rw [Check.exec_bind, hrun, hsame]
  rfl

/-- A sequence of calls: each of them adds what its node would have contributed first. -/
theorem exec_mapM_annotate_of_later (calls : List (NodeId × Collector)) {types : Interner}
    (ht : Later base types) :
    ∃ after, Later base after ∧
      (calls.mapM fun call => c.annotate call.1 call.2).exec types =
        (.ok (calls.map fun call => ⟨call.2.diagnostics ++ c.contribution call.1 base⟩),
          after) := by
  induction calls generalizing types with
  | nil => exact ⟨types, ht, rfl⟩
  | cons call rest ih =>
    obtain ⟨hsurvives, hnext, hsame⟩ := contribution_eq_of_later hg hh hc call.1 ht
    obtain ⟨after, hafter, hrest⟩ := ih hnext
    refine ⟨after, hafter, ?_⟩
    rw [List.mapM_cons, Check.exec_bind, hsurvives.exec_annotate]
    dsimp only
    rw [Check.exec_bind, hrest, hsame]
    rfl

end

end Checker

/-- What the rules of a script say about a node does not depend on which nodes were annotated
    before, nor on how often, as long as the library and the hierarchy use numbered types only:
    there is one list of diagnostics for each node, and every call of every sequence of calls adds
    the list of its node. In particular, collecting twice gives the same list. -/
theorem TypedScript.annotate_independent (s : TypedScript) (hierarchy : Hierarchy)
    (options : Options) (fixes : NodeId → List Fix) (wording : Wording) {types : Interner}
    (hg : types.Grown) (he : s.environment.Interned types) (hh : hierarchy.Interned types) :
    ∃ findings : NodeId → List Diagnostic, ∀ calls : List (NodeId × Collector), ∃ after,
      (calls.mapM fun call =>
          (s.checker hierarchy options fixes wording).annotate call.1 call.2).exec types =
        (.ok (calls.map fun call => ⟨call.2.diagnostics ++ findings call.1⟩), after) ∧
      ∀ root, ∃ last,
        (do
          let first ← (s.checker hierarchy options fixes wording).collectTree root
          let second ← (s.checker hierarchy options fixes wording).collectTree root
          return (first, second) : Check (List Diagnostic × List Diagnostic)).exec after =
        (.ok ((s.tree.preorder root).flatMap findings, (s.tree.preorder root).flatMap findings),
          last) := by
  let c : Checker := s.checker hierarchy options fixes wording
  have hc : c.host.Steady types := s.steady_host he fixes wording
  refine ⟨(c.contribution · types), fun calls => ?_⟩
  obtain ⟨after, hafter, hcalls⟩ := Checker.exec_mapM_annotate_of_later hg hh hc calls
    ⟨hg, Interner.Extends.refl types⟩
  refine ⟨after, hcalls, fun root => ?_⟩
  obtain ⟨middle, hmiddle, hfirst⟩ := Checker.exec_collectTree_of_later hg hh hc root hafter
  obtain ⟨last, _, hsecond⟩ := Checker.exec_collectTree_of_later hg hh hc root hmiddle
  refine ⟨last, ?_⟩
  rw [Check.exec_bind, hfirst]
  dsimp only
  rw [Check.exec_bind, hsecond]
  rfl

/-! ## Two variables of types of their own -/

/-- A file with two classes and two variables, each an array of one of the classes that a string is
    assigned to. -/
def arraysTree : Tree :=
  .ofNodes
    [(.identifier "Foo", .none),
      (.typeDecl ⟨.classType, some 0, [], [], none⟩, .none),
      (.reference .type ⟨none, some "Foo", default⟩, .none),
      (.arrayType (some 2), .none),
      (.identifier "a", .none),
      (.literal .string "s", .none),
      (.variableLike .localVariable ⟨some 4, some 3, some 5, false⟩, .none),
      (.identifier "Bar", .none),
      (.typeDecl ⟨.classType, some 7, [], [], none⟩, .none),
      (.reference .type ⟨none, some "Bar", default⟩, .none),
      (.arrayType (some 9), .none),
      (.identifier "b", .none),
      (.literal .string "s", .none),
      (.variableLike .localVariable ⟨some 11, some 10, some 12, false⟩, .none),
      (.sourceFile ⟨"arrays", none, [], [some 1, some 8, some 6, some 13]⟩, .none)]

/-- The file without a library. -/
def arrays : TypedScript := ⟨.ofFile .empty arraysTree 14 [], .empty⟩

/-- The checker of the file. -/
def arraysChecker : Checker :=
  arrays.checker .standard .standard (fun _ => []) .builtIn

theorem interned_standard : Hierarchy.standard.Interned .initial := by
  have hfixed : ∀ entry ∈ Hierarchy.standard.entries, entry.1.isFixed = true ∧
      ∀ parent ∈ entry.2, parent.isFixed = true := by
    decide +kernel
  intro entry hm
  obtain ⟨hclass, hparents⟩ := hfixed entry hm
  exact ⟨Interner.interned_initial hclass,
    fun parent hp => Interner.interned_initial (hparents parent hp)⟩

/-- The two variables get the same warnings in either order, although the order decides how their
    types are numbered. -/
theorem annotate_arrays :
    ((arraysChecker.annotate 6 .empty).exec .initial).2 ≠
      ((arraysChecker.annotate 13 .empty).exec .initial).2 ∧
    ∃ a b : List Diagnostic, a.length = 1 ∧ b.length = 1 ∧
      (([(6, .empty), (13, .empty), (6, ⟨b⟩)].mapM fun call =>
        arraysChecker.annotate call.1 call.2).exec .initial).1 = .ok [⟨a⟩, ⟨b⟩, ⟨b ++ a⟩] ∧
      (([(13, ⟨a⟩), (6, .empty)].mapM fun call =>
        arraysChecker.annotate call.1 call.2).exec .initial).1 = .ok [⟨a ++ b⟩, ⟨a⟩] := by
  obtain ⟨findings, hcalls⟩ := arrays.annotate_independent .standard .standard (fun _ => [])
    .builtIn .start ⟨nofun, nofun⟩ interned_standard
  have hlength : (findings 6).length = 1 ∧ (findings 13).length = 1 := by
    have hrun : (([(6, .empty), (13, .empty)].mapM fun call =>
        arraysChecker.annotate call.1 call.2).exec .initial).1.toOption.map
          (List.map Collector.length) = some [1, 1] := by
      decide +kernel
    obtain ⟨after, hboth, _⟩ := hcalls [(6, .empty), (13, .empty)]
    have hboth' := congrArg (fun result => result.1.toOption.map (List.map Collector.length)) hboth
    have hlist := Option.some.inj (hrun.symm.trans hboth')
    obtain ⟨ha, hb⟩ := List.cons.inj hlist
    exact ⟨ha.symm, (List.cons.inj hb).1.symm⟩
  refine ⟨by decide +kernel, findings 6, findings 13, hlength.1, hlength.2, ?_, ?_⟩
  · obtain ⟨after, hrun, _⟩ := hcalls [(6, .empty), (13, .empty), (6, ⟨findings 13⟩)]
    exact congrArg Prod.fst hrun
  · obtain ⟨after, hrun, _⟩ := hcalls [(13, ⟨findings 6⟩), (6, .empty)]
    exact congrArg Prod.fst hrun

end ScriptCheck
