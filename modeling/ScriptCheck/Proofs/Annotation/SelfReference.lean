/-
  The type of `this`.

  Inside a type, `this` stands for the type (`lookup_this`), and typing takes it
  for any other name of a type that is used as a value: an object of the class
  `java.lang.Class`, whatever the type is. So a variable that starts as `this` is
  warned about unless its own type takes such objects, even if it is declared
  with the type around it. `typeOf_this` says both.
-/
import ScriptCheck.Proofs.Annotation.Isolation
import ScriptCheck.Proofs.Script.ClassHierarchy
import ScriptCheck.Proofs.Script.LexicalScoping

namespace ScriptCheck

namespace Script

variable {s : Script} {root r body type : NodeId} {id : SymbolId} {name : String}
  {inner : List NodeId}

/-! ## Names without a dot -/

/-- What a plain name stands for does not depend on the types of values. -/
theorem lookupWithin_of_isValueName {m : Type → Type} [Monad m]
    (receiver : NodeId → m (Option SymbolId)) (hr : s.tree.IsValueName r name) :
    s.lookupWithin receiver (qualifierLimit + 1) r = pure (s.top.lookup r) := by
  rw [lookup_of_isValueName hr]
  obtain ⟨data, hform, hqualifier, hname⟩ := hr
  exact lookupVia_value hform hname hqualifier

theorem resolveWith_of_isValueName {m : Type → Type} [Monad m] [LawfulMonad m]
    (receiver : NodeId → m (Option SymbolId)) (hr : s.tree.IsValueName r name) :
    s.resolveWith receiver r = pure (s.resolve r) := by
  unfold resolve resolveWith
  rw [lookupWithin_of_isValueName receiver hr, lookupWithin_of_isValueName _ hr, pure_bind,
    pure_bind]
  unfold Resolution.ofSearch
  cases s.top.lookup r with
  | none => rfl
  | some symbol => exact pure_bind _ _

/-- `this` stands for the type around it, unless a scope further inside offers it. -/
theorem lookup_this (ht : s.tree.WellShaped) (hc : s.Covered) (hr : s.tree.IsValueName r "this")
    (hpath : s.tree.PathTo r body inner) (hbody : s.tree.isOneOf [.classBody] body = true)
    (hparent : s.tree.parent? body = some type) (hid : s.symbolOf? type = some id)
    (hnone : ∀ before x after, inner = before ++ x :: after → ∀ other,
      ¬s.Offers "this" (s.argumentCount? r) (s.passesBody before) (before.getLastD r) x other) :
    s.top.lookup r = some id := by
  refine lookup_of_offered ht hc hr hpath ?_ hnone
  unfold offered?
  rw [if_pos hbody, hparent, Option.bind_some, hid, Option.bind_some]
  rfl

end Script

namespace TypedScript

variable {s : TypedScript} {r : NodeId} {name : String} {types : Interner}

theorem run_resolve_of_isValueName (hr : s.tree.IsValueName r name) (types : Interner) :
    (s.resolve r).run types = some (s.script.resolve r, types) := by
  unfold resolve resolveVia
  rw [Script.resolveWith_of_isValueName _ hr]
  rfl

/-- A plain name has the type that its symbol gives it. -/
theorem typeOf_of_isValueName (ht : s.tree.Built) (hr : s.tree.IsValueName r name) :
    s.typeOf r =
      match (s.script.top.lookup r).bind s.script.symbols.get? with
      | some symbol => s.symbolType symbol
      | none => failure := by
  have hresolve : ∀ type, s.resolveVia type r = pure (s.script.resolve r) := fun type =>
    Script.resolveWith_of_isValueName _ hr
  obtain ⟨data, hform, -⟩ := hr
  obtain ⟨budget, hbudget⟩ : ∃ budget, s.budget = budget + 1 :=
    Nat.exists_eq_succ_of_ne_zero (Nat.mul_ne_zero (Nat.succ_ne_zero _) (Nat.succ_ne_zero _))
  have hkind : s.tree.kind? r = some .reference := ht.kind?_of_form? hform
  unfold typeOf
  rw [hbudget, typeWithin, if_neg (Nat.not_lt_zero _), hkind, hform]
  simp only [hresolve]
  rw [← Script.symbol?_resolve]
  rfl

/-- The name of a type that is used as a value is typed as an object of `java.lang.Class`. -/
theorem run_typeOf_of_type (ht : s.tree.Built) (hr : s.tree.IsValueName r name) {id : SymbolId}
    {symbol : Symbol} (hlookup : s.script.top.lookup r = some id)
    (hget : s.script.symbols.get? id = some symbol) (hkind : symbol.kind = .type)
    (types : Interner) :
    (s.typeOf r).run.run types =
      some (some (types.named "java.lang.Class").1, (types.named "java.lang.Class").2) := by
  rw [typeOf_of_isValueName ht hr, hlookup, Option.bind_some, hget]
  dsimp only
  unfold symbolType
  rw [hkind]
  rfl

end TypedScript

/-! ## Variables -/

theorem Subject.ofNode_variableLike {t : Tree} {v : NodeId} {role : VariableRole} {data : Variable}
    (ht : t.Built) (hform : t.form? v = some (.variableLike role data)) :
    Subject.ofNode t v = .ok (.variableLike data) := by
  unfold ofNode
  rw [ht.kind?_of_form? hform, hform]
  cases role <;> rfl

namespace Checker

variable {c : Checker} {v x : NodeId} {role : VariableRole} {data : Variable} {source : TypeId}
  {types middle : Interner}

/-- The rule of a variable whose initial value has a known type goes on from that type. -/
theorem exec_check_variable (ht : c.tree.Built)
    (hform : c.tree.form? v = some (.variableLike role data)) (hinitial : data.initial = some x)
    (hsource : (c.host.expressionType x).exec types = (.ok (some source), middle)) :
    (c.check v).exec types =
      match (c.host.declaredType v).exec middle with
      | (.ok (some target), last) => (c.checkFits target source (some x)).exec last
      | (.ok none, last) => (.ok (.ok none), last)
      | (.error p, last) => (.error p, last) := by
  have hcheck : c.check v = c.checkVariable v data := by
    unfold check
    rw [Subject.ofNode_variableLike ht hform]
    rfl
  rw [hcheck]
  unfold checkVariable
  rw [hinitial]
  dsimp only
  rw [Rule.exec_ask_bind, hsource]
  dsimp only
  rw [Rule.exec_ask_bind]
  cases (c.host.declaredType v).exec middle with
  | mk result last =>
    cases result with
    | error p => rfl
    | ok target => cases target <;> rfl

/-- The rule warns about a value that does not go into its target. -/
theorem exec_checkFits {target : TypeId} (node : Part) {text : String}
    (hno : TypeWorld.isAssignable ⟨types, c.hierarchy⟩ target source = false)
    (htext : c.host.wording .cannotAssign [types.text source, types.text target] = pure text) :
    ∃ d, (c.checkFits target source node).exec types = (.ok (.ok (some d)), types) ∧
      d.message.key = Message.cannotAssign.key ∧ d.anchor.node = node := by
  refine ⟨.warning (c.anchor node) ⟨Message.code .cannotAssign, Message.key .cannotAssign,
    [types.text source, types.text target], text⟩ [], ?_, rfl, rfl⟩
  unfold checkFits
  rw [exec_typeWorld_bind, if_neg (by rw [hno]; decide)]
  unfold warningAt rendered
  rw [htext]
  rfl

end Checker

namespace TypedScript

variable {s : TypedScript} {r v : NodeId} {role : VariableRole} {data : Variable}
  {source : TypeId} {types middle : Interner}

/-- A variable whose initial value has a known type is warned about if its own type is known too and
    does not take the value. -/
theorem annotate_variable_iff (ht : s.tree.Built)
    (hform : s.tree.form? v = some (.variableLike role data)) (hinitial : data.initial = some r)
    (hsource : (s.typeOf r).run.run types = some (some source, middle)) (hierarchy : Hierarchy)
    (options : Options) (fixes : NodeId → List Fix) (wording : Wording) (sink : Collector) :
    (∃ d, (((s.checker hierarchy options fixes wording).annotate v sink).exec types).1 =
          .ok ⟨sink.diagnostics ++ [d]⟩ ∧
        d.message.key = Message.cannotAssign.key ∧ d.anchor.node = some r) ↔
      ∃ target last, (s.declaredType v).run.run middle = some (some target, last) ∧
        TypeWorld.isAssignable ⟨last, hierarchy⟩ target source = false := by
  have hanswer : ((s.checker hierarchy options fixes wording).host.expressionType (some r)).exec
      types = (.ok (some source), middle) := by
    show Check.exec ((s.typeOf r).run.answer none) types = _
    rw [Check.exec_answer, hsource]
  have hrule := Checker.exec_check_variable (c := s.checker hierarchy options fixes wording) ht
    hform hinitial hanswer
  constructor
  · rintro ⟨d, hreport, -⟩
    have hcheck := Checker.exec_check_of_annotate hreport
    rw [hrule] at hcheck
    split at hcheck
    · next target last htarget =>
      refine ⟨target, last, Check.run_of_exec_answer htarget nofun, ?_⟩
      unfold Checker.checkFits at hcheck
      rw [Checker.exec_typeWorld_bind] at hcheck
      split at hcheck
      · cases hcheck
      · next hno => exact Bool.not_eq_true _ ▸ hno
    · cases hcheck
    · cases hcheck
  · rintro ⟨target, last, htarget, hno⟩
    have hdeclared : ((s.checker hierarchy options fixes wording).host.declaredType v).exec
        middle = (.ok (some target), last) := by
      show Check.exec ((s.declaredType v).run.answer none) middle = _
      rw [Check.exec_answer, htarget]
    obtain ⟨d, hd, hkey, hnode⟩ :=
      Checker.exec_checkFits (c := s.checker hierarchy options fixes wording) (some r) hno rfl
    rw [hdeclared] at hrule
    exact ⟨d, congrArg Prod.fst (Checker.exec_annotate_of_check (hrule.trans hd) sink), hkey, hnode⟩

/-! ## The type of `this` -/

/-- `this` stands for the type around it, but whatever that is, it is typed as an object of
    `java.lang.Class`. This is the type that it stands for only if it is `java.lang.Class` itself. A
    variable that starts as `this` is warned about if and only if its own type is known and does not
    take objects of `java.lang.Class`. -/
theorem typeOf_this {lib : SymbolTable} {t : Tree} {root body type : NodeId}
    {imports : List String} {inner : List NodeId} {id : SymbolId} (hlib : lib.Grown)
    (ht : t.WellShaped) (hs : s.script = .ofFile lib t root imports)
    (hr : t.IsValueName r "this") (hpath : t.PathTo r body inner)
    (hbody : t.isOneOf [.classBody] body = true) (hparent : t.parent? body = some type)
    (hkind : t.isOneOf [.typeDeclaration] type = true) (hid : s.script.symbolOf? type = some id)
    (hnone : ∀ before x after, inner = before ++ x :: after → ∀ other,
      ¬s.script.Offers "this" (s.script.argumentCount? r) (s.script.passesBody before)
        (before.getLastD r) x other)
    (hg : types.Grown) :
    ∃ symbol, s.script.symbols.get? id = some symbol ∧ symbol.kind = .type ∧
      (∃ resolution, (s.resolve r).run types = some (resolution, types) ∧
        resolution.symbol? = some id) ∧
      (s.typeOf r).run.run types =
        some (some (types.named "java.lang.Class").1, (types.named "java.lang.Class").2) ∧
      ((types.named "java.lang.Class").1 =
          ((types.named "java.lang.Class").2.named symbol.qualifiedName).1 ↔
        symbol.qualifiedName = "java.lang.Class") ∧
      ∀ v role data, t.form? v = some (.variableLike role data) → data.initial = some r →
        ∀ hierarchy options fixes wording sink,
          (∃ d, (((s.checker hierarchy options fixes wording).annotate v sink).exec types).1 =
                .ok ⟨sink.diagnostics ++ [d]⟩ ∧
              d.message.key = Message.cannotAssign.key ∧ d.anchor.node = some r) ↔
            ∃ target last,
              (s.declaredType v).run.run (types.named "java.lang.Class").2 =
                some (some target, last) ∧
              TypeWorld.isAssignable ⟨last, hierarchy⟩ target (types.named "java.lang.Class").1 =
                false := by
  have htree : s.tree = t := congrArg Script.tree hs
  subst htree
  have hsound : Binding.Sound s.tree root s.script.binding := by
    rw [hs]
    exact Binding.bindFile_sound hlib.consistent s.tree root
  have hcovered : s.script.Covered := by
    rw [hs]
    exact Script.covered_ofFile hlib ht
  -- Resolution ends at the type, and typing goes by the kind of its symbol alone.
  have hlookup : s.script.top.lookup r = some id :=
    Script.lookup_this ht hcovered hr hpath hbody hparent hid hnone
  obtain ⟨symbol, hget, hk⟩ := Script.hasKind_of_typeDeclaration hsound ht.built hid hkind
  have hk : symbol.kind = .type := List.mem_singleton.mp hk
  have htype := run_typeOf_of_type ht.built hr hlookup hget hk types
  refine ⟨symbol, hget, hk, ⟨_, run_resolve_of_isValueName hr types, ?_⟩, htype, ?_, ?_⟩
  · exact (Script.symbol?_resolve _ r).trans hlookup
  · exact hg.fst_named_eq_iff.trans eq_comm
  · intro v role data hform hinitial hierarchy options fixes wording sink
    exact annotate_variable_iff ht.built hform hinitial htype hierarchy options fixes wording sink

/-! ## A class with a field for itself -/

/-- A file with the class `Foo`, which has a field `Foo self = this`. -/
def selfTree : Tree :=
  .ofNodes
    [(.identifier "Foo", .none),
      (.reference .type ⟨none, some "Foo", default⟩, .none),
      (.identifier "self", .none),
      (.reference .value ⟨none, some "this", default⟩, .none),
      (.variableLike .field ⟨some 2, some 1, some 3, false⟩, .none),
      (.classBody [some 4], .none),
      (.typeDecl ⟨.classType, some 0, [], [], some 5⟩, .none),
      (.sourceFile ⟨"self", none, [], [some 6]⟩, .none)]

/-- A library that has the root class and `java.lang.Class`. -/
def selfLibrary : SymbolTable :=
  ((SymbolTable.empty.addType "java.lang.Object" .none []).1.addType "java.lang.Class" .none []).1

/-- The class on top of the library. -/
def selfScript : TypedScript := ⟨.ofFile selfLibrary selfTree 7 [], .empty⟩

/-- The hierarchy that the classes enter, and what is numbered then. -/
def selfWorld : Hierarchy × Interner := selfScript.script.registerHierarchy .standard .initial

/-- The checker of the class. -/
def selfChecker : Checker := selfScript.checker selfWorld.1 .standard (fun _ => []) .builtIn

/-- Only the field lies between `this` and the body of `Foo`, and it offers nothing. -/
theorem not_offers_selfScript {count : Option Nat} {before after : List NodeId} {x : NodeId}
    {inType : Bool} (hsplit : [4] = before ++ x :: after) (other : SymbolId) :
    ¬selfScript.script.Offers "this" count inType (before.getLastD 3) x other := by
  obtain ⟨rfl, rfl⟩ : before = [] ∧ x = 4 := by
    cases before with
    | nil => exact ⟨rfl, (List.cons.inj hsplit).1.symm⟩
    | cons _ before => cases before <;> cases hsplit
  intro hoffers
  cases hoffers with
  | localVariable hlast => cases hlast.mem
  | parameter hm => cases hm
  | it hform => cases hform
  | loopVariable hform => cases hform
  | member hbody => cases hbody
  | method hform => cases hform

/-- In `Foo`, `this` is typed as an object of `java.lang.Class`, so the field is warned about. -/
theorem typeOf_this_selfScript :
    (selfScript.typeOf 3).run.run selfWorld.2 =
      some (some (selfWorld.2.named "java.lang.Class").1,
        (selfWorld.2.named "java.lang.Class").2) ∧
    ∃ d, ((selfChecker.annotate 4 .empty).exec selfWorld.2).1 = .ok ⟨[d]⟩ ∧
      d.message.key = Message.cannotAssign.key ∧ d.anchor.node = some 3 := by
  have hlib : selfLibrary.Grown := (SymbolTable.Grown.start.type _ _ _).type _ _ _
  have hshape : selfTree.WellShaped := (Tree.built_ofNodes _).wellShaped (by decide +kernel)
  have hpath : selfTree.PathTo 3 5 [4] := ⟨[6, 7], by decide +kernel⟩
  have hid : selfScript.script.symbolOf? 6 = some 5 := by decide +kernel
  have hstart : ((Hierarchy.standard, .initial) : Hierarchy × Interner).2.Grown := .start
  have hgrown : selfWorld.2.Grown :=
    (Script.foldl_registerClass selfScript.script.classes hstart).1
  obtain ⟨_, _, _, _, htype, _, hvariables⟩ := typeOf_this (s := selfScript) hlib hshape rfl
    ⟨_, rfl, rfl, rfl⟩ hpath (by decide +kernel) (by decide +kernel) (by decide +kernel) hid
    (fun before x after hsplit => not_offers_selfScript hsplit) hgrown
  have hdeclared : (selfScript.declaredType 4).run.run (selfWorld.2.named "java.lang.Class").2 =
      some (some 36, selfWorld.2) := by
    decide +kernel
  have hno : TypeWorld.isAssignable ⟨selfWorld.2, selfWorld.1⟩ 36
      (selfWorld.2.named "java.lang.Class").1 = false := by
    decide +kernel
  exact ⟨htype, (hvariables 4 _ _ rfl rfl selfWorld.1 .standard (fun _ => []) .builtIn .empty).mpr
    ⟨36, _, hdeclared, hno⟩⟩

/-- The declared type of the field is the class that `this` stands for, but not its type, and the
    assignment is warned about. -/
theorem this_notAssignable :
    selfTree.IsValueName 3 "this" ∧ selfTree.PathTo 3 5 [4] ∧ selfTree.parent? 5 = some 6 ∧
    selfScript.script.resolve 3 = .accessible 5 ∧ selfScript.script.symbolOf? 6 = some 5 ∧
    (selfScript.script.symbols.get? 5).map Symbol.qualifiedName = some "Foo" ∧
    ((selfScript.declaredType 4).run.run selfWorld.2).map Prod.fst =
      some (some (selfWorld.2.named "Foo").1) ∧
    ((selfScript.typeOf 3).run.run selfWorld.2).map Prod.fst ≠
      some (some (selfWorld.2.named "Foo").1) ∧
    ((selfChecker.annotateTree 7 .empty).exec selfWorld.2).1.toOption.map
        (·.diagnostics.map fun d => (d.message.key, d.anchor.node)) =
      some [(Message.cannotAssign.key, some 3)] := by
  refine ⟨⟨_, rfl, rfl, rfl⟩, ⟨[6, 7], ?_⟩, ?_, ?_, ?_, ?_, ?_, ?_, ?_⟩
  all_goals decide +kernel

end TypedScript

end ScriptCheck
