/-
  Arities and signatures of declared methods.

  Binding counts the parameters of a method when it enters the symbol, and typing
  reads them once more when it is asked for the signature. `DeclaredAs` says what
  typing makes of them. From it follows that the arity accepts whatever number of
  arguments the signature takes, and that both say the same where no parameter is
  typed (`signatureOf_goes_with_arity`).

  Two things have to be known of the computations that read a signature: they
  leave the numbers alone that are there (`Typing.Gives`), and they come to an
  end where no node lies below itself (`Typing.Ends`).
-/
import ScriptCheck.Proofs.Binding.Declarations
import ScriptCheck.Proofs.Script.File
import ScriptCheck.Proofs.Syntax.Preorder
import ScriptCheck.Proofs.Typing.Agreement
import ScriptCheck.Proofs.Typing.Signatures

namespace ScriptCheck

namespace Typing

variable {α β γ : Type}

/-! ## What computations give -/

/-- Whatever the computation comes to, from whatever numbering, has the property in the numbering
    that is left, which continues the one before. -/
def Gives (P : Interner → α → Prop) (m : Typing α) : Prop :=
  ∀ types a types', types.Grown → m.run types = some (a, types') →
    types'.Grown ∧ types.Extends types' ∧ P types' a

variable {P : Interner → α → Prop} {Q : Interner → β → Prop}

theorem gives_pure {a : α} (h : ∀ types, P types a) : Gives P (pure a) := by
  intro types a' types' hg hrun
  cases hrun
  exact ⟨hg, .refl types, h types⟩

/-- What follows may use what is known about the first result. -/
theorem Gives.bind {m : Typing α} {f : α → Typing β} (hm : Gives P m)
    (hf : ∀ a, Gives (fun types b => ∀ i : Interner, i.Extends types → P i a → Q types b) (f a)) :
    Gives Q (m >>= f) := by
  intro types b types' hg hrun
  rw [StateT.run_bind] at hrun
  obtain ⟨⟨a, middle⟩, hfirst, hnext⟩ := Option.bind_eq_some_iff.mp hrun
  obtain ⟨hg', hx, hp⟩ := hm _ _ _ hg hfirst
  obtain ⟨hg'', hx', hq⟩ := hf a _ _ _ hg' hnext
  exact ⟨hg'', hx.trans hx', hq middle hx' hp⟩

/-- A computation that agrees with itself on twins only adds to the numbering. -/
theorem gives_of_steady {m : Typing α} {R : ∀ {base : Interner}, Twins base → α → α → Prop}
    (hm : ∀ base, Steady base R m) : Gives (fun _ _ => True) m := by
  intro types a types' hg hrun
  let w : Twins types := ⟨types, types, hg, hg, .refl types, .refl types⟩
  rcases hm types w with ⟨hnone, _⟩ | ⟨w', b, _, hw, hsome, _⟩
  · rw [show m.run types = none from hnone] at hrun
    cases hrun
  · obtain ⟨rfl, rfl⟩ := Prod.mk.inj (Option.some.inj (hrun.symm.trans hsome))
    exact ⟨w'.left_grown, hw.1, trivial⟩

/-- What is computed one after the other has a property, one by one, that outlasts growth. -/
theorem gives_mapM {R : Interner → γ → α → Prop}
    (mono : ∀ {i j x a}, i.Extends j → R i x a → R j x a) {f : γ → Typing α}
    (hf : ∀ x, Gives (fun types => R types x) (f x)) (xs : List γ) :
    Gives (fun types => List.Forall₂ (R types) xs) (xs.mapM f) := by
  induction xs with
  | nil =>
    rw [List.mapM_nil]
    exact gives_pure fun _ => .nil
  | cons x xs ih =>
    rw [List.mapM_cons]
    refine (hf x).bind fun a => ?_
    refine ih.bind fun as => gives_pure fun types i hi has j hj ha => ?_
    exact .cons (mono hj ha) (has.imp fun _ _ h => mono hi h)

/-! ## Computations that end -/

/-- The computation does not run out of budget, whatever the numbering. -/
def Ends (m : Typing α) : Prop := ∀ types, ∃ result, m.run types = some result

theorem ends_pure (a : α) : Ends (pure a) := fun _ => ⟨_, rfl⟩

theorem Ends.bind {m : Typing α} {f : α → Typing β} (hm : Ends m) (hf : ∀ a, Ends (f a)) :
    Ends (m >>= f) := by
  intro types
  obtain ⟨⟨a, middle⟩, hfirst⟩ := hm types
  obtain ⟨result, hnext⟩ := hf a middle
  refine ⟨result, ?_⟩
  rw [StateT.run_bind, hfirst]
  exact hnext

/-- A computation of something that may be unknown ends if both of its parts do. -/
theorem Ends.bind_run {m : Inference α} {f : α → Inference β} (hm : Ends m.run)
    (hf : ∀ a, Ends (f a).run) : Ends (m >>= f).run := by
  rw [OptionT.run_bind]
  refine Ends.bind hm fun found => ?_
  cases found with
  | none => exact ends_pure none
  | some a => exact hf a

theorem Ends.run_lift {m : Typing α} (hm : Ends m) :
    Ends (OptionT.lift m : Inference α).run := by
  rw [OptionT.run_lift]
  exact hm.bind fun a => ends_pure (some a)

theorem ends_mapM {f : γ → Typing α} (hf : ∀ x, Ends (f x)) (xs : List γ) :
    Ends (xs.mapM f) := by
  induction xs with
  | nil =>
    rw [List.mapM_nil]
    exact ends_pure []
  | cons x xs ih =>
    rw [List.mapM_cons]
    exact (hf x).bind fun a => ih.bind fun as => ends_pure (a :: as)

end Typing

/-! ## Parameters -/

/-- What typing makes of a declared parameter: it may be left out if it has an initial value;
    without a type it takes anything, or an array of objects if it takes all that is left. -/
structure Parameter.DeclaredAs (types : Interner) (v : Variable) (p : Parameter) : Prop where
  optional : p.optional = v.initial.isSome
  untyped : v.type = none → v.varargs = false → p.type = none
  rest : v.type = none → v.varargs = true →
    ∃ t, p.type = some t ∧ types.element? t = some TypeId.object

/-- What typing makes of the declaration of a method. -/
structure Signature.DeclaredAs (types : Interner) (declared : List Variable) (s : Signature) :
    Prop where
  parameters : List.Forall₂ (Parameter.DeclaredAs types) declared s.parameters
  varargs : s.varargs = (declared.getLast?.map Variable.varargs).getD false
  builder : s.builder = false

section

variable {i j : Interner} {v : Variable} {p : Parameter} {declared : List Variable}
  {s : Signature}

theorem Parameter.DeclaredAs.mono (he : i.Extends j) (h : p.DeclaredAs i v) :
    p.DeclaredAs j v := by
  refine ⟨h.optional, h.untyped, fun ht hv => ?_⟩
  obtain ⟨t, hp, helement⟩ := h.rest ht hv
  exact ⟨t, hp, he.element? helement⟩

theorem Signature.DeclaredAs.writtenWith (h : s.DeclaredAs i declared) :
    s.WrittenWith declared := by
  refine ⟨?_, h.varargs⟩
  rw [← List.forall₂_eq_eq_eq, List.forall₂_map_left_iff, List.forall₂_map_right_iff]
  exact h.parameters.flip.imp fun p v hp => hp.optional

/-- What is declared without a type, and takes no more than one argument, takes anything. -/
theorem Parameter.untyped_of_forall₂ {parameters : List Parameter}
    (h : List.Forall₂ (Parameter.DeclaredAs i) declared parameters)
    (hv : ∀ v ∈ declared, v.type = none ∧ v.varargs = false) : ∀ p ∈ parameters, p.type = none := by
  induction h with
  | nil => exact fun p hp => absurd hp List.not_mem_nil
  | cons hfirst _ ih =>
    intro p hp
    rcases List.mem_cons.mp hp with rfl | hp
    · obtain ⟨ht, hclosed⟩ := hv _ List.mem_cons_self
      exact hfirst.untyped ht hclosed
    · exact ih (fun v hm => hv v (List.mem_cons_of_mem _ hm)) p hp

/-- Lists that are related one by one have related last entries. -/
theorem forall₂_getLast? {α β : Type} {R : α → β → Prop} {xs : List α} {ys : List β}
    (h : List.Forall₂ R xs ys) {y : β} (hy : ys.getLast? = some y) :
    ∃ x, xs.getLast? = some x ∧ R x y := by
  induction h with
  | nil => cases hy
  | cons hfirst hrest ih =>
    cases hrest with
    | nil => exact ⟨_, rfl, Option.some.inj hy ▸ hfirst⟩
    | cons hsecond hrest =>
      rw [List.getLast?_cons_cons] at hy ⊢
      exact ih hy

/-- A method none of whose parameters is typed asks nothing of the types of arguments. -/
theorem Signature.DeclaredAs.lax (h : s.DeclaredAs i declared)
    (hlast : ∀ v ∈ declared.dropLast, v.varargs = false) (huntyped : ∀ v ∈ declared, v.type = none)
    {w : TypeWorld} (hw : i.Extends w.types) : s.Lax w := by
  constructor
  · split
    · have hfront : List.Forall₂ (Parameter.DeclaredAs i) declared.dropLast
          s.parameters.dropLast := by
        rw [List.dropLast_eq_take, List.dropLast_eq_take, h.parameters.length_eq]
        exact List.forall₂_take _ h.parameters
      exact Parameter.untyped_of_forall₂ hfront fun v hm =>
        ⟨huntyped v (List.dropLast_subset _ hm), hlast v hm⟩
    · next hv =>
      have hall := forall_varargs_eq_false hlast (h.varargs ▸ Bool.eq_false_iff.mpr hv)
      exact Parameter.untyped_of_forall₂ h.parameters fun v hm => ⟨huntyped v hm, hall v hm⟩
  · -- The last parameter takes what is left as an array of objects.
    intro hv last hp rest
    obtain ⟨v, hdeclared, hparameter⟩ := forall₂_getLast? h.parameters hp
    have hopen : v.varargs = true := by
      have heq := h.varargs
      rw [hdeclared] at heq
      exact heq.symm.trans hv
    obtain ⟨t, ht, helement⟩ := hparameter.rest
      (huntyped v (List.mem_of_getLast? hdeclared)) hopen
    exact Parameter.fitRest_of_object w ht (hw.element? helement) rest

end

namespace TypedScript

open Typing (Gives Ends)

variable {s : TypedScript} {i id : Nat} {data : Method}

/-! ## Numbers stay -/

theorem gives_variableType (s : TypedScript) (v : Variable) :
    Gives (fun _ _ => True) (s.variableType v).run :=
  Typing.gives_of_steady fun _ => s.steady_variableType v

theorem gives_parameterOf (s : TypedScript) (v : Variable) :
    Gives (fun types p => p.DeclaredAs types v) (s.parameterOf v) := by
  by_cases htype : v.type = none
  · cases hv : v.varargs with
    | false =>
      have hnone : s.parameterOf v = pure ⟨none, v.initial.isSome⟩ := by
        unfold parameterOf
        rw [htype, hv]
        rfl
      rw [hnone]
      exact Typing.gives_pure fun _ =>
        ⟨rfl, fun _ _ => rfl, fun _ h => absurd (hv.symm.trans h) nofun⟩
    | true =>
      intro types p types' hg hrun
      have harray : (s.parameterOf v).run types =
          some (⟨some (types.array TypeId.object).1, v.initial.isSome⟩,
            (types.array TypeId.object).2) := by
        unfold parameterOf variableType
        rw [htype, hv]
        rfl
      rw [harray] at hrun
      obtain ⟨rfl, rfl⟩ := Prod.mk.inj (Option.some.inj hrun)
      refine ⟨hg.ask _, Interner.extends_intern types _, rfl,
        fun _ h => absurd (hv.symm.trans h) nofun, fun _ _ => ⟨_, rfl, ?_⟩⟩
      unfold Interner.element?
      rw [show (types.array TypeId.object).2.lookup? (types.array TypeId.object).1 =
        some (.array TypeId.object) from Interner.lookup?_intern types _]
  · have hsome : s.parameterOf v =
        (s.variableType v).run >>= fun type => pure ⟨type, v.initial.isSome⟩ := by
      unfold parameterOf
      rw [if_pos (by simp [Option.isSome_iff_ne_none.mpr htype])]
    rw [hsome]
    exact (s.gives_variableType v).bind fun _ => Typing.gives_pure fun _ _ _ _ =>
      ⟨rfl, fun h => absurd h htype, fun h => absurd h htype⟩

/-- The type that a method is declared to return. -/
def resultOf (s : TypedScript) (data : Method) : Typing (Option TypeId) :=
  match data.result with
  | some type => (s.denoted type).run
  | none => pure none

/-- A declared method always has a signature: its parameters are read, and then its result. -/
theorem run_declaredSignature (hdata : s.tree.methodAt? i = some data) :
    (s.declaredSignature i).run =
      (Binding.parametersOf s.tree data).mapM s.parameterOf >>= fun parameters =>
        s.resultOf data >>= fun result =>
          pure (some ⟨parameters, result,
            ((Binding.parametersOf s.tree data).getLast?.map Variable.varargs).getD false,
            false⟩) := by
  unfold declaredSignature resultOf
  rw [hdata]
  dsimp only
  rw [Typing.mapM_lift]
  cases data.result <;>
    simp only [OptionT.run_bind, OptionT.run_lift, Option.elimM, bind_assoc, pure_bind,
      Option.elim_some, OptionT.run_pure]

theorem gives_declaredSignature (hdata : s.tree.methodAt? i = some data) :
    Gives (fun types found => ∀ signature, found = some signature →
        signature.DeclaredAs types (Binding.parametersOf s.tree data))
      (s.declaredSignature i).run := by
  rw [run_declaredSignature hdata]
  have hresult : Gives (fun _ _ => True) (s.resultOf data) := by
    unfold resultOf
    split
    · next type _ => exact Typing.gives_of_steady fun _ => s.steady_denoted type
    · exact Typing.gives_pure fun _ => trivial
  have hparameters := Typing.gives_mapM (R := fun types v p => Parameter.DeclaredAs types v p)
    Parameter.DeclaredAs.mono s.gives_parameterOf (Binding.parametersOf s.tree data)
  refine hparameters.bind fun parameters => hresult.bind fun result => Typing.gives_pure ?_
  -- The parameters were read first, and numbers that were given out then still stand.
  intro types middle hmiddle _ first hfirst hparameters signature hs
  obtain rfl := Option.some.inj hs
  exact ⟨hparameters.imp fun _ _ h => h.mono hfirst, rfl, rfl⟩

/-! ## Reading a signature ends -/

/-- The denoted type of a node is found within a budget that is greater than its number by two. -/
theorem ends_denotedWithin (h : s.tree.Descends) {budget : Nat} {i : Nat}
    (hb : i + 1 < budget ∨ (s.tree.size ≤ i ∧ 0 < budget)) :
    Ends (s.denotedWithin budget i).run := by
  induction budget generalizing i with
  | zero => omega
  | succ budget ih =>
    rw [denotedWithin]
    split
    · exact Typing.ends_pure _
    · next element hform =>
      -- The element stands before the array, or it is missing.
      have hpart : some element ∈ s.tree.children i := by
        rw [Tree.children_of_form? hform]
        exact List.mem_cons_self
      have hi : i < s.tree.size := Tree.lt_size_of_form? hform
      refine Typing.Ends.bind_run (ih ?_) fun t => Typing.Ends.run_lift fun types => ⟨_, rfl⟩
      rcases Nat.lt_or_ge element s.tree.size with hsize | hsize
      · have hlt := h hpart hsize
        exact Or.inl (by omega)
      · exact Or.inr (by omega)
    · split
      · split
        · exact Typing.Ends.run_lift fun types => ⟨_, rfl⟩
        · exact Typing.ends_pure none
      · exact Typing.ends_pure none
    · exact Typing.ends_pure none

theorem ends_denoted (h : s.tree.Descends) (i : Nat) : Ends (s.denoted i).run := by
  refine ends_denotedWithin h ?_
  unfold budget
  have hmul : (s.tree.size + 1) * 2 ≤ (s.tree.size + 1) * (qualifierLimit + 2) :=
    Nat.mul_le_mul_left _ (by omega)
  by_cases hi : i < s.tree.size
  · exact Or.inl (by omega)
  · exact Or.inr ⟨by omega, by omega⟩

theorem ends_variableType (h : s.tree.Descends) (v : Variable) : Ends (s.variableType v).run := by
  have hrest : ∀ declared : TypeId,
      Ends (if v.varargs then liftM (Typing.arrayType declared) else pure declared :
        Inference TypeId).run := by
    intro declared
    split
    · exact Typing.Ends.run_lift fun types => ⟨_, rfl⟩
    · exact Typing.ends_pure _
  unfold variableType
  dsimp only
  split
  · next type _ => exact (ends_denoted h type).bind_run hrest
  · exact Typing.Ends.bind_run (Typing.ends_pure _) hrest

theorem ends_parameterOf (h : s.tree.Descends) (v : Variable) : Ends (s.parameterOf v) := by
  unfold parameterOf
  dsimp only
  split
  · exact (ends_variableType h v).bind fun type => Typing.ends_pure _
  · exact Typing.ends_pure _

/-- Where nodes stand behind their parts, every declared method has a signature. -/
theorem exists_declaredSignature (h : s.tree.Descends) (hdata : s.tree.methodAt? i = some data)
    (types : Interner) : ∃ signature types',
      (s.declaredSignature i).run.run types = some (some signature, types') := by
  have hresult : Ends (s.resultOf data) := by
    unfold resultOf
    split
    · exact ends_denoted h _
    · exact Typing.ends_pure none
  rw [run_declaredSignature hdata]
  obtain ⟨⟨parameters, middle⟩, hp⟩ :=
    Typing.ends_mapM (ends_parameterOf h) (Binding.parametersOf s.tree data) types
  obtain ⟨⟨result, last⟩, hr⟩ := hresult middle
  rw [StateT.run_bind, hp]
  exact ⟨_, last, congrArg (Option.bind · _) hr⟩

/-! ## Signatures and arities -/

/-- The symbol of a declared method has the arity of its parameters. -/
theorem exists_symbol_of_method {lib : SymbolTable} {t : Tree} {root : NodeId} (hlib : lib.Grown)
    {imports : List String} (hdata : t.methodAt? i = some data)
    (hid : (Script.ofFile lib t root imports).symbolOf? i = some id) :
    ∃ symbol, (Script.ofFile lib t root imports).symbols.get? id = some symbol ∧
      symbol.kind = .method ∧ symbol.declaration = some i ∧
      symbol.arity = some (Arity.ofParameters (Binding.parametersOf t data)) ∧
      symbol.flags.isBuilder = false := by
  have hsound := Binding.bindFile_sound hlib.consistent t root
  obtain ⟨symbol, hget, hdeclared⟩ :=
    hsound.declared (Binding.mem_declared_of_symbolOf? hid)
  have hkind : symbol.kind = .method := by
    obtain ⟨form, hform, hk⟩ := hdeclared.form
    unfold Tree.methodAt? at hdata
    rw [hform] at hdata
    cases form with
    | method _ => exact (Option.some.inj hk).symm
    | _ => cases hdata
  have hdeclaration := hdeclared.declaration (by rw [hkind]; nofun)
  obtain ⟨data', hdata', harity, hflag⟩ :=
    Binding.knowsMethods_bindFile hlib t root id symbol hget hkind i hdeclaration
  obtain rfl : data' = data := Option.some.inj (hdata'.symm.trans hdata)
  exact ⟨symbol, hget, hkind, hdeclaration, harity, hflag⟩

/-- If the environment does not know a method, its signature is that of its declaration. -/
theorem signatureOf_eq_declaredSignature {symbol : Symbol}
    (hget : s.script.symbols.get? id = some symbol) (hkind : symbol.kind = .method)
    (hdeclaration : symbol.declaration = some i) (hflag : symbol.flags.isBuilder = false)
    (henv : s.environment.signature? id = none) : s.signatureOf id = s.declaredSignature i := by
  unfold signatureOf
  rw [hget]
  dsimp only
  rw [henv, hdeclaration, hflag, if_neg (by simp [Symbol.isMethod, hkind])]
  simp only [Bool.or_false]
  exact bind_pure _

/-- The arity with which a method is bound goes with the signature that it is declared with, if only
    its last parameter takes more than one argument: the signature takes no number of arguments
    that the arity does not accept, and takes whatever the arity accepts if no parameter is typed.
    There is a signature wherever nodes stand behind their parts. -/
theorem signatureOf_goes_with_arity {lib : SymbolTable} {t : Tree} {root : NodeId}
    {imports : List String} (hlib : lib.Grown) (hs : s.script = .ofFile lib t root imports)
    (hdata : t.methodAt? i = some data) (hid : s.script.symbolOf? i = some id)
    (henv : s.environment.signature? id = none)
    (hlast : ∀ v ∈ (Binding.parametersOf t data).dropLast, v.varargs = false)
    {types : Interner} (ht : types.Grown) :
    ∃ arity, (s.script.symbols.get? id).bind Symbol.arity = some arity ∧
      (t.Descends → ∃ signature types',
        (s.signatureOf id).run.run types = some (some signature, types')) ∧
      ∀ signature types', (s.signatureOf id).run.run types = some (some signature, types') →
        (∀ (world : TypeWorld) (known : List TypeId),
          signature.isApplicable world (known.map some) = true →
            arity.accepts known.length = true) ∧
        ((∀ v ∈ Binding.parametersOf t data, v.type = none) → ∀ world : TypeWorld,
          types'.Extends world.types → ∀ known : List TypeId,
            signature.isApplicable world (known.map some) = arity.accepts known.length) := by
  have htree : s.tree = t := congrArg Script.tree hs
  subst htree
  rw [hs] at hid
  obtain ⟨symbol, hget, hkind, hdeclaration, harity, hflag⟩ :=
    exists_symbol_of_method hlib hdata hid
  rw [← hs] at hget
  rw [signatureOf_eq_declaredSignature hget hkind hdeclaration hflag henv, hget]
  refine ⟨_, harity, fun h => exists_declaredSignature h hdata types,
    fun signature types' hrun => ?_⟩
  obtain ⟨_, _, hdeclared⟩ := gives_declaredSignature hdata types _ types' ht hrun
  have hsignature := hdeclared signature rfl
  have hwritten := hsignature.writtenWith
  refine ⟨fun world known h => ?_, fun huntyped world hw known => ?_⟩
  · exact hwritten.accepts (signature.admits_of_isApplicable hsignature.builder h)
  · have hlax := hsignature.lax hlast huntyped hw
    rw [Signature.isApplicable_eq_fits hsignature.builder, Bool.eq_iff_iff, hlax.fits_iff,
      hwritten.accepts_iff hlast]

/-- A class with a method `f(a, b = 1, c...)` whose parameters have no types. -/
def openTree : Tree :=
  .ofNodes
    [(.identifier "a", .none),
      (.variableLike .parameter ⟨some 0, none, none, false⟩, .none),
      (.identifier "b", .none),
      (.literal .integer "1", .none),
      (.variableLike .parameter ⟨some 2, none, some 3, false⟩, .none),
      (.identifier "c", .none),
      (.variableLike .parameter ⟨some 5, none, none, true⟩, .none),
      (.identifier "f", .none),
      (.method ⟨some 7, none, [some 1, some 4, some 6], none⟩, .none),
      (.classBody [some 8], .none),
      (.identifier "C", .none),
      (.typeDecl ⟨.classType, some 10, [], [], some 9⟩, .none),
      (.sourceFile ⟨"open", none, [], [some 11]⟩, .none)]

/-- The class without a library. -/
def openScript : TypedScript := ⟨.ofFile .empty openTree 12 [], .empty⟩

theorem openTree_descends : openTree.Descends :=
  ((Tree.built_ofNodes _).wellShaped (by decide +kernel)).descends

/-- The method takes any arguments as long as there is one at least. -/
theorem signatureOf_openScript :
    ∃ signature types',
      (openScript.signatureOf 2).run.run .initial = some (some signature, types') ∧
      ∀ world : TypeWorld, types'.Extends world.types → ∀ known : List TypeId,
        signature.isApplicable world (known.map some) = decide (1 ≤ known.length) := by
  have hscript : openScript.script = .ofFile .empty openTree 12 [] := rfl
  have hmethod : openTree.methodAt? 8 = some ⟨some 7, none, [some 1, some 4, some 6], none⟩ := rfl
  have hsymbol : openScript.script.symbolOf? 8 = some 2 := by decide +kernel
  obtain ⟨arity, harity, hsome, hall⟩ := signatureOf_goes_with_arity .start hscript hmethod hsymbol
    rfl (by decide +kernel) .start
  obtain ⟨signature, types', hrun⟩ := hsome openTree_descends
  refine ⟨signature, types', hrun, fun world hw known => ?_⟩
  have hopen : openScript.script.symbols.get? 2 >>= Symbol.arity = some ⟨1, 3, true⟩ := by
    decide +kernel
  obtain rfl : arity = ⟨1, 3, true⟩ := Option.some.inj (harity.symm.trans hopen)
  rw [(hall signature types' hrun).2 (by decide +kernel) world hw known]
  unfold Arity.accepts
  simp

end TypedScript

end ScriptCheck
