/-
  Where faults come from.

  A rule ends with a fault in two places: where the kind of a node asks for data
  that the node does not hold, and where a call has no argument list to put a
  warning at. `faults_check_cases` says that there is no third one, whatever the
  host.

  Both places are guarded by code elsewhere. A tree that was built by additions
  holds for every node what its kind asks for, and the usual host reads the types
  of arguments and the place of their list from the same call. So neither fault
  occurs as long as the arguments of every call are an argument list
  (`annotate_faultless`).
-/
import ScriptCheck.Proofs.Annotation.Isolation
import ScriptCheck.Proofs.Annotation.Reports

namespace ScriptCheck

/-! ## Runs with a fault -/

namespace Rule

variable {α β : Type} {types : Interner} {f : Fault}

/-- The run ends with a fault. -/
def Faults (run : Rule α) (types : Interner) (f : Fault) : Prop :=
  ∃ types', run.exec types = (.ok (.error f), types')

/-- No run ends with a fault. -/
def Faultless (run : Rule α) : Prop := ∀ types f, ¬Faults run types f

theorem faultless_pure (a : α) : Faultless (pure a) := by
  rintro types f ⟨_, h⟩
  cases h

theorem eq_of_faults_throw {g : Fault} (h : Faults (throw g : Rule α) types f) : f = g := by
  obtain ⟨_, h⟩ := h
  cases h
  rfl

/-- Questions are no faults: the fault comes after the answer. -/
theorem faults_ask_bind {question : Check α} {next : α → Rule β}
    (h : Faults (ask question >>= next) types f) :
    ∃ answer types', question.Gives types answer types' ∧ Faults (next answer) types' f := by
  obtain ⟨last, h⟩ := h
  obtain ⟨answer, types', hanswer, h⟩ := exists_answer_of_exec h
  exact ⟨answer, types', hanswer, last, h⟩

theorem faultless_ask_bind {question : Check α} {next : α → Rule β}
    (hnext : ∀ answer, Faultless (next answer)) : Faultless (ask question >>= next) := by
  intro types f h
  obtain ⟨answer, types', _, h⟩ := faults_ask_bind h
  exact hnext answer types' f h

end Rule

namespace Checker

variable {c : Checker} {i : NodeId} {types : Interner} {f : Fault}

theorem faults_typeWorld_bind {next : TypeWorld → Rule (Option Diagnostic)}
    (h : Rule.Faults (c.typeWorld >>= next) types f) :
    Rule.Faults (next ⟨types, c.hierarchy⟩) types f := by
  unfold Rule.Faults at h
  rw [exec_typeWorld_bind] at h
  exact h

theorem faultless_errorAt (node : Part) (message : Message) (args : List String)
    (highlight : Highlight) (fixes : List Fix) :
    (c.errorAt node message args highlight fixes).Faultless := by
  unfold errorAt rendered
  simp only [bind_assoc, pure_bind]
  exact Rule.faultless_ask_bind fun text => Rule.faultless_pure _

theorem faultless_warningAt (node : Part) (message : Message) (args : List String)
    (fixes : List Fix) : (c.warningAt node message args fixes).Faultless := by
  unfold warningAt rendered
  simp only [bind_assoc, pure_bind]
  exact Rule.faultless_ask_bind fun text => Rule.faultless_pure _

/-! ## Rules without faults -/

theorem faultless_checkFits (target source : TypeId) (node : Part) :
    (c.checkFits target source node).Faultless := by
  intro types f h
  have h := faults_typeWorld_bind h
  split at h
  · exact Rule.faultless_pure _ _ _ h
  · exact faultless_warningAt _ _ _ _ _ _ h

theorem faultless_checkAssignment (left : Part) (operator : AssignOp) (right : Part) :
    (c.checkAssignment left operator right).Faultless := by
  unfold checkAssignment
  split
  · exact Rule.faultless_pure _
  refine Rule.faultless_ask_bind fun target => ?_
  cases target with
  | none => exact Rule.faultless_pure _
  | some target =>
    refine Rule.faultless_ask_bind fun source => ?_
    cases source with
    | none => exact Rule.faultless_pure _
    | some source => exact faultless_checkFits _ _ _

theorem faultless_checkVariable (i : NodeId) (data : Variable) :
    (c.checkVariable i data).Faultless := by
  unfold checkVariable
  cases data.initial with
  | none => exact Rule.faultless_pure _
  | some initial =>
    refine Rule.faultless_ask_bind fun source => ?_
    cases source with
    | none => exact Rule.faultless_pure _
    | some source =>
      refine Rule.faultless_ask_bind fun target => ?_
      cases target with
      | none => exact Rule.faultless_pure _
      | some target => exact faultless_checkFits _ _ _

theorem faultless_checkTypeDecl (i : NodeId) (data : TypeDecl) :
    (c.checkTypeDecl i data).Faultless := by
  unfold checkTypeDecl
  split
  · exact faultless_errorAt _ _ _ _ _
  · exact Rule.faultless_pure _

theorem faultless_reportUnresolved (i : NodeId) (name : String) :
    (c.reportUnresolved i name).Faultless := by
  unfold reportUnresolved
  split
  · exact faultless_errorAt _ _ _ _ _
  split
  · exact Rule.faultless_ask_bind fun fixes => faultless_warningAt _ _ _ _
  · exact Rule.faultless_pure _

theorem faultless_checkTypeReference (i : NodeId) (data : Reference) :
    (c.checkTypeReference i data).Faultless := by
  unfold checkTypeReference
  cases data.name? with
  | none => exact Rule.faultless_pure _
  | some name =>
    refine Rule.faultless_ask_bind fun resolution => ?_
    cases resolution with
    | unresolved => exact Rule.faultless_ask_bind fun fixes => faultless_errorAt _ _ _ _ _
    | inaccessible symbol => exact faultless_errorAt _ _ _ _ _
    | accessible symbol => exact Rule.faultless_pure _

/-! ## Faults of rules -/

/-- The host knows the types of the arguments a reference is called with, but not where they
    stand. -/
def Misplaces (c : Checker) (i : NodeId) : Prop :=
  ∃ arguments types₁ types₂ types₃ types₄,
    (c.host.argumentTypes i).Gives types₁ (some arguments) types₂ ∧
      (c.host.argumentsNode i).Gives types₃ none types₄

theorem faults_checkCall {method : SymbolId} {name : String}
    (h : (c.checkCall i method name).Faults types f) :
    f = .missingArguments (some i) ∧ c.Misplaces i := by
  unfold checkCall at h
  obtain ⟨_ | signature, types₁, _, h⟩ := Rule.faults_ask_bind h
  · exact absurd h (Rule.faultless_pure _ _ _)
  dsimp only at h
  split at h
  · exact absurd h (Rule.faultless_pure _ _ _)
  obtain ⟨_ | arguments, types₂, harguments, h⟩ := Rule.faults_ask_bind h
  · exact absurd h (Rule.faultless_pure _ _ _)
  have h := faults_typeWorld_bind h
  split at h
  · exact absurd h (Rule.faultless_pure _ _ _)
  obtain ⟨_ | list, types₃, hlist, h⟩ := Rule.faults_ask_bind h
  · exact ⟨Rule.eq_of_faults_throw h, _, _, _, _, _, harguments, hlist⟩
  · exact absurd h (faultless_warningAt _ _ _ _ _ _)

theorem faults_checkValueReference {data : Reference}
    (h : (c.checkValueReference i data).Faults types f) :
    f = .missingArguments (some i) ∧ c.Misplaces i := by
  unfold checkValueReference at h
  cases hname : data.name? with
  | none =>
    rw [hname] at h
    exact absurd h (Rule.faultless_pure _ _ _)
  | some name =>
    rw [hname] at h
    obtain ⟨resolution, types₁, _, h⟩ := Rule.faults_ask_bind h
    cases resolution with
    | inaccessible symbol => exact absurd h (faultless_warningAt _ _ _ _ _ _)
    | accessible symbol =>
      obtain ⟨kind, types₂, _, h⟩ := Rule.faults_ask_bind h
      split at h
      · exact faults_checkCall h
      · exact absurd h (Rule.faultless_pure _ _ _)
    | unresolved =>
      dsimp only at h
      split at h
      · exact absurd h (faultless_reportUnresolved _ _ _ _)
      · exact absurd h (Rule.faultless_pure _ _ _)

/-- The rule of a node ends with a fault only if the node does not hold what its kind asks for, or
    if a call has arguments and no list of them. -/
theorem faults_check_cases (h : (c.check i).Faults types f) :
    Subject.ofNode c.tree i = .error f ∨ (f = .missingArguments (some i) ∧ c.Misplaces i) := by
  unfold check at h
  cases hsubject : Subject.ofNode c.tree i with
  | error g =>
    rw [hsubject] at h
    obtain rfl := Rule.eq_of_faults_throw h
    exact Or.inl rfl
  | ok subject =>
    rw [hsubject] at h
    cases subject with
    | typeReference data => exact absurd h (faultless_checkTypeReference _ _ _ _)
    | valueReference data => exact Or.inr (faults_checkValueReference h)
    | typeDecl data => exact absurd h (faultless_checkTypeDecl _ _ _ _)
    | variableLike data => exact absurd h (faultless_checkVariable _ _ _ _)
    | assignment left operator right => exact absurd h (faultless_checkAssignment _ _ _ _ _)
    | legacyFor => exact absurd h (faultless_errorAt _ _ _ _ _ _ _)
    | other => exact absurd h (Rule.faultless_pure _ _ _)

end Checker

/-! ## Trees and hosts without faults -/

/-- The rules find the data that they need at every node of a tree built by additions. -/
theorem Subject.exists_of_built {t : Tree} (ht : t.Built) (i : NodeId) :
    ∃ subject, Subject.ofNode t i = .ok subject := by
  unfold ofNode
  split
  · exact ⟨_, rfl⟩
  next kind hkind =>
  split
  · exact ⟨_, rfl⟩
  split
  · exact ⟨_, rfl⟩
  next hchecked =>
  have hmem : kind ∈ checkedKinds := by simpa using hchecked
  have hne : kind ≠ .unknown := by
    rintro rfl
    exact absurd hmem (by decide)
  obtain ⟨form, hform, rfl⟩ := ht.form?_of_kind? hkind hne
  rw [hform]
  cases form with
  | reference role data => cases role <;> exact ⟨_, rfl⟩
  | typeDecl | variableLike | assignment => exact ⟨_, rfl⟩
  | collection role elements =>
    cases role <;> simp [Form.kind, CollectionRole.kind, checkedKinds] at hmem
  | _ => simp [Form.kind, checkedKinds] at hmem

/-- The arguments of every call are an argument list. -/
def Tree.CallsTakeLists (t : Tree) : Prop :=
  ∀ i callee arguments, t.form? i = some (.call callee arguments) →
    ∃ list, arguments = some list ∧ t.kind? list = some .argumentList

namespace TypedScript

variable {s : TypedScript} {i : NodeId} {hierarchy : Hierarchy} {options : Options}
  {fixes : NodeId → List Fix} {wording : Wording}

/-- The host of a script answers every question. -/
theorem returns_host (s : TypedScript) (fixes : NodeId → List Fix) (wording : Wording) :
    (s.host fixes wording).Returns := by
  have hanswer : ∀ {α : Type} (typing : Typing α) (unknown : α),
      (typing.answer unknown).Returns := by
    intro α typing unknown types
    unfold Check.Gives
    rw [Check.exec_answer]
    cases typing.run types with
    | none => exact ⟨_, _, rfl⟩
    | some result => exact ⟨_, _, rfl⟩
  refine ⟨fun _ => hanswer _ _, fun _ => Check.returns_pure _, fun part => ?_, fun _ => hanswer _ _,
    fun _ => hanswer _ _, fun _ => hanswer _ _, fun _ => Check.returns_pure _,
    fun _ => Check.returns_pure _, fun _ _ => Check.returns_pure _⟩
  cases part with
  | none => exact Check.returns_pure _
  | some i => exact hanswer _ _

/-- Arguments have types only where a reference is called. -/
theorem exists_callOf?_of_argumentTypes {types types' : Interner}
    {arguments : List (Option TypeId)}
    (h : (s.argumentTypes i).run.run types = some (some arguments, types')) :
    ∃ list, s.callOf? i = some list := by
  unfold argumentTypes at h
  cases hcall : s.callOf? i with
  | none =>
    rw [hcall] at h
    cases h
  | some list => exact ⟨list, rfl⟩

/-- Where the arguments of calls are argument lists, a reference that is called has a place for its
    arguments. -/
theorem exists_argumentsNode?_of_callOf? (hcalls : s.tree.CallsTakeLists) {list : Part}
    (h : s.callOf? i = some list) : ∃ node, s.argumentsNode? i = some node := by
  obtain ⟨node, rfl, hkind⟩ :
      ∃ node, list = some node ∧ s.tree.kind? node = some .argumentList := by
    unfold callOf? at h
    obtain ⟨parent, _, h⟩ := Option.bind_eq_some_iff.mp h
    obtain ⟨form, hform, h⟩ := Option.bind_eq_some_iff.mp h
    cases form with
    | call callee arguments =>
      dsimp only at h
      split at h
      · cases h
        exact hcalls parent callee _ hform
      · cases h
    | _ => cases h
  refine ⟨node, ?_⟩
  unfold argumentsNode?
  rw [h]
  exact Option.filter_eq_some_iff.mpr ⟨rfl, Tree.isOneOf_singleton_iff.mpr hkind⟩

/-- The usual host misplaces no arguments: their types and their place come from the same call. -/
theorem not_misplaces (hcalls : s.tree.CallsTakeLists) :
    ¬(s.checker hierarchy options fixes wording).Misplaces i := by
  rintro ⟨arguments, types₁, types₂, types₃, types₄, htypes, hplace⟩
  have hrun : (s.argumentTypes i).run.run types₁ = some (some arguments, types₂) :=
    Check.run_of_exec_answer htypes nofun
  obtain ⟨list, hcall⟩ := exists_callOf?_of_argumentTypes hrun
  obtain ⟨node, hnode⟩ := exists_argumentsNode?_of_callOf? hcalls hcall
  have hanswer : (pure ((s.argumentsNode? i).map some) : Check (Option Part)).Gives types₃ none
    types₄ := hplace
  rw [hnode] at hanswer
  cases hanswer

/-- On a tree that was built by additions, and whose calls have argument lists, no rule ends with a
    fault. -/
theorem check_faultless (ht : s.tree.Built) (hcalls : s.tree.CallsTakeLists) (i : NodeId) :
    ((s.checker hierarchy options fixes wording).check i).Faultless := by
  intro types f h
  rcases Checker.faults_check_cases h with hnode | ⟨_, hmisplaces⟩
  · obtain ⟨subject, hsubject⟩ := Subject.exists_of_built ht i
    cases hsubject.symm.trans hnode
  · exact not_misplaces hcalls hmisplaces

end TypedScript

/-- A rule that ends without a fault is annotated with what it finds, isolated or not. -/
theorem Checker.exec_annotate_of_found {c : Checker} {i : NodeId} {types types' : Interner}
    {found : Option Diagnostic} (h : (c.check i).exec types = (.ok (.ok found), types'))
    (sink : Collector) :
    (c.outcome i).exec types = (.ok (.ok found), types') ∧
      (c.annotate i sink).exec types = (.ok ⟨sink.diagnostics ++ found.toList⟩, types') := by
  have hrun : Check.exec (c.check i).run types = (.ok (.ok found), types') := h
  have hsurvives : c.Survives i types := Or.inr ⟨_, congrArg Prod.fst h⟩
  constructor
  · unfold outcome checkIsolated
    split
    · rw [Check.exec_tryCatch, hrun]
    · exact hrun
  · rw [hsurvives.exec_annotate]
    unfold contribution typesAfter
    rw [h]

/-- The checker of a session is that of a bound script on the tree it was set up with. -/
theorem Setup.checker_start (setup : Setup) (types : Interner) :
    ∃ typed : TypedScript, typed.tree = setup.tree ∧ ∃ hierarchy fixes,
      (setup.start types).1.checker = typed.checker hierarchy setup.options fixes setup.wording :=
  ⟨_, rfl, _, _, rfl⟩

/-- A session on a tree that was built by additions, and whose calls have argument lists, annotates
    every node without a fault: the rule of the node ends, and what it finds is reported. -/
theorem annotate_faultless (setup : Setup) (ht : setup.tree.Built)
    (hcalls : setup.tree.CallsTakeLists) (first types : Interner) (i : NodeId) (sink : Collector) :
    ∃ found types',
      ((setup.start first).1.checker.outcome i).exec types = (.ok (.ok found), types') ∧
        ((setup.start first).1.checker.annotate i sink).exec types =
          (.ok ⟨sink.diagnostics ++ found.toList⟩, types') := by
  obtain ⟨typed, htree, hierarchy, fixes, hchecker⟩ := setup.checker_start first
  rw [← htree] at ht hcalls
  rw [hchecker]
  obtain ⟨result, types', hrun⟩ := Checker.ends_check
    (c := typed.checker hierarchy setup.options fixes setup.wording)
    (typed.returns_host fixes setup.wording) i types
  cases result with
  | error f => exact absurd ⟨types', hrun⟩ (TypedScript.check_faultless ht hcalls i types f)
  | ok found => exact ⟨found, types', Checker.exec_annotate_of_found hrun sink⟩

/-- A class with a method `f(int a)` and a method that calls `f("x")`. -/
def callTree : Tree :=
  .ofNodes
    [(.primitiveType .int, .none),
      (.identifier "a", .none),
      (.variableLike .parameter ⟨some 1, some 0, none, false⟩, .none),
      (.identifier "f", .none),
      (.method ⟨some 3, none, [some 2], none⟩, .none),
      (.reference .value ⟨none, some "f", default⟩, .none),
      (.literal .string "x", .none),
      (.argumentList [some 6], .none),
      (.call (some 5) (some 7), .none),
      (.block [some 8], .none),
      (.identifier "g", .none),
      (.method ⟨some 10, none, [], some 9⟩, .none),
      (.classBody [some 4, some 11], .none),
      (.identifier "A", .none),
      (.typeDecl ⟨.classType, some 13, [], [], some 12⟩, .none),
      (.sourceFile ⟨"call", none, [], [some 14]⟩, .none)]

/-- The class without a library. -/
def callSetup : Setup :=
  ⟨callTree, [15], .empty, .standard, .builtIn, .standard, false, false⟩

/-- The only call of the class has an argument list. -/
theorem callTree_callsTakeLists : callTree.CallsTakeLists := by
  intro i callee arguments hform
  have hbuilt : callTree.Built := Tree.built_ofNodes _
  have honly : ∀ j < callTree.size, callTree.kind? j = some .call → j = 8 := by decide +kernel
  obtain rfl := honly i (Tree.lt_size_of_form? hform) (hbuilt.kind?_of_form? hform)
  have hcall : callTree.form? 8 = some (.call (some 5) (some 7)) := by decide +kernel
  rw [hcall] at hform
  cases hform
  exact ⟨7, rfl, by decide +kernel⟩

theorem annotate_faultless_call :
    callTree.Built ∧ callTree.CallsTakeLists ∧ ∃ found types',
      ((callSetup.start .initial).1.checker.outcome 5).exec .initial =
          (.ok (.ok found), types') ∧
        ((callSetup.start .initial).1.checker.annotate 5 .empty).exec .initial =
          (.ok ⟨found.toList⟩, types') := by
  have hbuilt : callTree.Built := Tree.built_ofNodes _
  exact ⟨hbuilt, callTree_callsTakeLists,
    annotate_faultless callSetup hbuilt callTree_callsTakeLists .initial .initial 5 .empty⟩

/-- The call does not fit, so the rule does ask where to put a warning. -/
example : (((callSetup.start .initial).1.checker.annotate 5 .empty).exec .initial).1.toOption.map
    (·.diagnostics.map (·.message.key)) = some [Message.cannotApplyMethod.key] := by
  decide +kernel

end ScriptCheck
