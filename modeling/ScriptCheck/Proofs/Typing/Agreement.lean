/-
  Typing does not depend on the numbering.

  A computation that numbers types is run on both of two twins. `Agree` says
  that the runs come to related results on twins that grew further, or that
  both run out of budget. It is kept by composition, so every function that
  types a script agrees with itself: the types that it finds are the same, and
  whatever is no type is equal.
-/
import ScriptCheck.Proofs.Types.TwinWorlds
import ScriptCheck.Typing

namespace ScriptCheck

section

variable {base : Interner} {α β γ δ : Type} {w : Twins base}

/-! ## Agreement of computations -/

namespace Typing

/-- Run on either of the twins, the computations come to results that `R` relates, on twins that
    grew out of these; or both run out of budget. -/
def Agree (R : Twins base → α → β → Prop) (w : Twins base) (m : Typing α) (m' : Typing β) :
    Prop :=
  (m.run w.left = none ∧ m'.run w.right = none) ∨
    ∃ w' a b, w.Extends w' ∧ m.run w.left = some (a, w'.left) ∧
      m'.run w.right = some (b, w'.right) ∧ R w' a b

/-- The computation agrees with itself on all twins. -/
def Steady (base : Interner) (R : Twins base → α → α → Prop) (m : Typing α) : Prop :=
  ∀ w, Agree R w m m

/-- Results that are no types are equal. -/
def Equal (_ : Twins base) (a b : α) : Prop := a = b

variable {R : Twins base → α → β → Prop} {S : Twins base → γ → δ → Prop}

theorem agree_pure {a : α} {b : β} (h : R w a b) : Agree R w (pure a) (pure b) :=
  Or.inr ⟨w, a, b, Twins.Extends.refl w, rfl, rfl, h⟩

theorem agree_exhausted : Agree R w exhausted exhausted := Or.inl ⟨rfl, rfl⟩

/-- What follows goes on from related results, on grown twins. -/
theorem Agree.bind {m : Typing α} {m' : Typing β} {f : α → Typing γ} {g : β → Typing δ}
    (hm : Agree R w m m')
    (hf : ∀ w' a b, w.Extends w' → R w' a b → Agree S w' (f a) (g b)) :
    Agree S w (m >>= f) (m' >>= g) := by
  unfold Agree
  rw [StateT.run_bind, StateT.run_bind]
  obtain ⟨hl, hr⟩ | ⟨w', a, b, hw, hl, hr, hab⟩ := hm
  · rw [hl, hr]
    exact Or.inl ⟨rfl, rfl⟩
  · rw [hl, hr]
    obtain hnone | ⟨w'', c, d, hw', hc, hd, hcd⟩ := hf w' a b hw hab
    · exact Or.inl hnone
    · exact Or.inr ⟨w'', c, d, hw.trans hw', hc, hd, hcd⟩

theorem agree_classType (name : String) :
    Agree Twins.Same w (classType name) (classType name) :=
  Or.inr ⟨w.ask _ _, _, _, w.extends_ask _ _, rfl, rfl, Twins.same_ask nofun⟩

theorem agree_arrayType {a b : TypeId} (h : w.Same a b) :
    Agree Twins.Same w (arrayType a) (arrayType b) :=
  Or.inr ⟨w.ask _ _, _, _, w.extends_ask _ _, rfl, rfl, h.ask_array⟩

/-- Computing one thing after the other, the results are related one by one. -/
theorem agree_mapM {R : Twins base → α → α → Prop}
    (hR : ∀ w w' a b, w.Extends w' → R w a b → R w' a b) {f : γ → Typing α} {xs : List γ}
    (hf : ∀ x ∈ xs, Steady base R (f x)) (w : Twins base) :
    Agree (fun w => List.Forall₂ (R w)) w (xs.mapM f) (xs.mapM f) := by
  induction xs generalizing w with
  | nil =>
    rw [List.mapM_nil]
    exact agree_pure .nil
  | cons x xs ih =>
    rw [List.mapM_cons]
    apply (hf x List.mem_cons_self w).bind
    intro w' a b _ hab
    apply (ih (fun x hx => hf x (List.mem_cons_of_mem _ hx)) w').bind
    intro w'' as bs hw hrest
    exact agree_pure (.cons (hR w' w'' a b hw hab) hrest)

/-! ### Agreement of a computation with itself -/

theorem steady_pure (a : α) : Steady base Equal (pure a) := fun _ => agree_pure rfl

/-- What does not depend on the numbering can be computed first. -/
theorem Steady.bind {S : Twins base → γ → γ → Prop} {m : Typing α} {f : α → Typing γ}
    (hm : Steady base Equal m) (hf : ∀ a, Steady base S (f a)) : Steady base S (m >>= f) := by
  intro w
  apply (hm w).bind
  rintro w' a _ _ rfl
  exact hf a w'

end Typing

namespace Inference

/-- The computations agree on what they find, and on whether they find something. -/
def Agree (R : Twins base → α → β → Prop) (w : Twins base) (m : Inference α)
    (m' : Inference β) : Prop :=
  Typing.Agree (fun w => Option.Rel (R w)) w m.run m'.run

/-- The computation agrees with itself on all twins. -/
def Steady (base : Interner) (R : Twins base → α → α → Prop) (m : Inference α) : Prop :=
  ∀ w, Agree R w m m

variable {R : Twins base → α → β → Prop} {S : Twins base → γ → δ → Prop}

theorem agree_pure {a : α} {b : β} (h : R w a b) : Agree R w (pure a) (pure b) :=
  Typing.agree_pure (.some h)

theorem agree_failure : Agree R w failure failure := Typing.agree_pure .none

theorem agree_lift {m : Typing α} {m' : Typing β} (h : Typing.Agree R w m m') :
    Agree R w (OptionT.lift m) (OptionT.lift m') := by
  unfold Agree
  rw [OptionT.run_lift, OptionT.run_lift]
  exact h.bind fun w' a b _ hab => Typing.agree_pure (.some hab)

theorem Agree.bind {m : Inference α} {m' : Inference β} {f : α → Inference γ}
    {g : β → Inference δ} (hm : Agree R w m m')
    (hf : ∀ w' a b, w.Extends w' → R w' a b → Agree S w' (f a) (g b)) :
    Agree S w (m >>= f) (m' >>= g) := by
  unfold Agree
  rw [OptionT.run_bind, OptionT.run_bind]
  apply Typing.Agree.bind hm
  intro w' a b hw hab
  cases hab with
  | none => exact Typing.agree_pure .none
  | some hab => exact hf w' _ _ hw hab

/-! ### Agreement of a computation with itself -/

variable {R : Twins base → α → α → Prop} {S : Twins base → γ → γ → Prop}

theorem steady_failure : Steady base R (failure : Inference α) := fun _ => agree_failure

theorem steady_pure {a : α} (h : ∀ w, R w a a) : Steady base R (pure a) := fun w => agree_pure (h w)

theorem steady_lift {m : Typing α} (h : Typing.Steady base R m) : Steady base R (OptionT.lift m) :=
  fun w => agree_lift (h w)

theorem Steady.bind {m : Inference α} {f : α → Inference γ} (hm : Steady base R m)
    (hf : ∀ w a b, R w a b → Agree S w (f a) (f b)) : Steady base S (m >>= f) :=
  fun w => (hm w).bind fun w' a b _ hab => hf w' a b hab

/-- What does not depend on the numbering can be computed first. -/
theorem steady_lift_bind {m : Typing α} {f : α → Inference γ}
    (hm : Typing.Steady base Typing.Equal m) (hf : ∀ a, Steady base S (f a)) :
    Steady base S (OptionT.lift m >>= f) := by
  intro w
  apply (agree_lift (hm w)).bind
  rintro w' a _ _ rfl
  exact hf a w'

end Inference

end

namespace TypedScript

open Typing (Equal)

variable {base : Interner} {s : TypedScript}

/-! ## Declarations -/

theorem steady_denotedWithin (s : TypedScript) (budget : Nat) (i : NodeId) :
    Inference.Steady base Twins.Same (s.denotedWithin budget i) := by
  induction budget generalizing i with
  | zero => exact Inference.steady_lift fun _ => Typing.agree_exhausted
  | succ budget ih =>
    rw [denotedWithin]
    split
    · next keyword _ =>
      refine Inference.steady_pure fun w => w.same_of_fixed ?_
      cases keyword <;> decide
    · next element _ =>
      apply (ih element).bind
      intro w a b hab
      exact Inference.agree_lift (Typing.agree_arrayType hab)
    · split
      · split
        · exact Inference.steady_lift fun _ => Typing.agree_classType _
        · exact Inference.steady_failure
      · exact Inference.steady_failure
    · exact Inference.steady_failure

theorem steady_denoted (s : TypedScript) (i : NodeId) :
    Inference.Steady base Twins.Same (s.denoted i) :=
  s.steady_denotedWithin s.budget i

theorem steady_variableType (s : TypedScript) (data : Variable) :
    Inference.Steady base Twins.Same (s.variableType data) := by
  have hrest : ∀ (w : Twins base) (a b : TypeId), w.Same a b → Inference.Agree Twins.Same w
      (if data.varargs then liftM (Typing.arrayType a) else pure a : Inference TypeId)
      (if data.varargs then liftM (Typing.arrayType b) else pure b : Inference TypeId) := by
    intro w a b hab
    split
    · exact Inference.agree_lift (Typing.agree_arrayType hab)
    · exact Inference.agree_pure hab
  unfold variableType
  dsimp only
  split
  · next type _ => exact (s.steady_denoted type).bind hrest
  · exact (Inference.steady_pure fun w => w.same_of_fixed (by decide)).bind hrest

theorem steady_declarationType (s : TypedScript) (i : NodeId) :
    Inference.Steady base Twins.Same (s.declarationType i) := by
  unfold declarationType
  split
  · exact s.steady_variableType _
  · exact Inference.steady_failure

theorem same_of_type? (he : s.environment.Interned base) {symbol : SymbolId} {type : TypeId}
    (h : s.environment.type? symbol = some type) (w : Twins base) : w.Same type type :=
  w.same_of_interned (forall_of_lookup he.1 h)

theorem steady_declaredType (he : s.environment.Interned base) (i : NodeId) :
    Inference.Steady base Twins.Same (s.declaredType i) := by
  unfold declaredType
  split
  · next type h =>
    obtain ⟨symbol, _, hsymbol⟩ := Option.bind_eq_some_iff.mp h
    exact Inference.steady_pure (same_of_type? he hsymbol)
  · exact s.steady_declarationType i

theorem steady_parameterOf (s : TypedScript) (data : Variable) :
    Typing.Steady base Twins.SameParameter (s.parameterOf data) := by
  have hrest : ∀ (w : Twins base) (a b : Option TypeId), Option.Rel w.Same a b →
      Typing.Agree Twins.SameParameter w (pure ⟨a, data.initial.isSome⟩)
        (pure ⟨b, data.initial.isSome⟩) :=
    fun w a b hab => Typing.agree_pure ⟨hab, rfl⟩
  intro w
  unfold parameterOf
  dsimp only
  split
  · exact Typing.Agree.bind (s.steady_variableType data w) fun w' a b _ => hrest w' a b
  · exact hrest w none none .none

theorem steady_declaredSignature (s : TypedScript) (i : NodeId) :
    Inference.Steady base Twins.SameSignature (s.declaredSignature i) := by
  unfold declaredSignature
  split
  · exact Inference.steady_failure
  · next data _ =>
    intro w
    dsimp only
    rw [Typing.mapM_lift]
    -- First the parameters, then the result.
    apply (Inference.agree_lift (Typing.agree_mapM (R := Twins.SameParameter)
      (fun _ _ _ _ hw hp => hp.mono hw) (fun v _ => s.steady_parameterOf v) w)).bind
    intro w' ps qs _ hps
    refine (Inference.agree_lift (R := fun w => Option.Rel w.Same) ?_).bind ?_
    · cases data.result with
      | none => exact Typing.agree_pure .none
      | some type => exact s.steady_denoted type w'
    · intro w'' a b hw hab
      exact Inference.agree_pure
        ⟨hps.imp fun _ _ hp => Twins.SameParameter.mono hp hw, hab, rfl, rfl⟩

theorem sameSignature_of_signature? (he : s.environment.Interned base) {symbol : SymbolId}
    {signature : Signature} (h : s.environment.signature? symbol = some signature)
    (w : Twins base) : w.SameSignature signature signature :=
  w.sameSignature_of_interned (forall_of_lookup he.2 h)

theorem steady_signatureOf (he : s.environment.Interned base) (method : SymbolId) :
    Inference.Steady base Twins.SameSignature (s.signatureOf method) := by
  have hrest : ∀ (builder : Bool) (w : Twins base) (a b : Signature), w.SameSignature a b →
      Inference.Agree Twins.SameSignature w
        (pure { a with builder := a.builder || builder } : Inference Signature)
        (pure { b with builder := b.builder || builder } : Inference Signature) := by
    intro builder w a b hab
    exact Inference.agree_pure
      ⟨hab.parameters, hab.result, hab.varargs, congrArg (· || builder) hab.builder⟩
  unfold signatureOf
  split
  · exact Inference.steady_failure
  split
  · exact Inference.steady_failure
  dsimp only
  split
  · next h => exact (Inference.steady_pure (sameSignature_of_signature? he h)).bind (hrest _)
  split
  · next i _ => exact (s.steady_declaredSignature i).bind (hrest _)
  · exact Inference.steady_failure.bind (hrest _)

/-! ## References -/

/-- Where the receivers of members do not depend on the numbering, nor does what stands in front of
    a dot. -/
theorem steady_qualifierVia {resolve receiver : NodeId → Typing (Option SymbolId)}
    (hresolve : ∀ i, Typing.Steady base Equal (resolve i))
    (hreceiver : ∀ i, Typing.Steady base Equal (receiver i)) (qualifier : NodeId) :
    Typing.Steady base Equal (s.script.qualifierVia resolve receiver qualifier) := by
  have htype : Typing.Steady base Equal
      (do return (← receiver qualifier).map Qualifier.type) :=
    (hreceiver qualifier).bind fun _ => Typing.steady_pure _
  unfold Script.qualifierVia
  split
  · apply (hresolve qualifier).bind
    intro found
    cases found with
    | none => exact Typing.steady_pure _
    | some id =>
      dsimp only
      split
      · exact Typing.steady_pure _
      split
      · exact Typing.steady_pure _
      · exact Typing.steady_pure _
      · exact htype
  · exact htype

theorem steady_lookupWithin {receiver : NodeId → Typing (Option SymbolId)}
    (hreceiver : ∀ i, Typing.Steady base Equal (receiver i)) (n : Nat)
    (reference : NodeId) :
    Typing.Steady base Equal (s.script.lookupWithin receiver n reference) := by
  induction n generalizing reference with
  | zero => exact Typing.steady_pure _
  | succ n ih =>
    rw [Script.lookupWithin]
    unfold Script.lookupVia
    dsimp only
    split
    · split
      · exact Typing.steady_pure _
      -- Only a name behind a dot asks anything.
      split
      · exact (steady_qualifierVia ih hreceiver _).bind fun _ => Typing.steady_pure _
      · exact Typing.steady_pure _
      · exact Typing.steady_pure _
    · exact Typing.steady_pure _

/-- The class that a type is looked up in is the same for the same type. -/
theorem steady_receiverClass (s : TypedScript) {type : Inference TypeId}
    (htype : Inference.Steady base Twins.Same type) :
    Typing.Steady base Equal (s.receiverClass type) := by
  intro w
  apply Typing.Agree.bind (htype w)
  intro w' a b _ hab
  cases hab with
  | none => exact Typing.agree_pure rfl
  | some hab =>
    have hclass := hab.boxed.className?
    refine Or.inr ⟨w', _, _, Twins.Extends.refl w', rfl, rfl, ?_⟩
    exact congrArg (Option.bind · s.script.symbols.type?) hclass

/-- What a reference stands for does not depend on the numbering, if the types in front of dots are
    the same. -/
theorem steady_resolveVia (s : TypedScript) {type : NodeId → Inference TypeId}
    (htype : ∀ i, Inference.Steady base Twins.Same (type i)) (reference : NodeId) :
    Typing.Steady base Equal (s.resolveVia type reference) := by
  unfold resolveVia Script.resolveWith
  apply (steady_lookupWithin (fun i => s.steady_receiverClass (htype i)) _ reference).bind
  intro found
  cases found with
  | none => exact Typing.steady_pure _
  | some symbol => exact Typing.steady_pure _

/-! ## Expressions -/

/-- The results of the same signatures are the same. -/
theorem agree_result {w : Twins base} {a b : Signature} (h : w.SameSignature a b) :
    Inference.Agree Twins.Same w
      (match a.result with | some type => pure type | none => failure : Inference TypeId)
      (match b.result with | some type => pure type | none => failure : Inference TypeId) := by
  obtain ⟨_, result, _, _⟩ := a
  obtain ⟨_, result', _, _⟩ := b
  obtain ⟨_, hr, _, _⟩ := h
  cases hr with
  | none => exact Inference.agree_failure
  | some hr => exact Inference.agree_pure hr

theorem steady_symbolType (he : s.environment.Interned base) (symbol : Symbol) :
    Inference.Steady base Twins.Same (s.symbolType symbol) := by
  unfold symbolType
  split
  -- Fields, local variables and parameters.
  case h_1 | h_2 | h_3 =>
    split
    · next h => exact Inference.steady_pure (same_of_type? he h)
    · split
      · exact s.steady_declarationType _
      · exact Inference.steady_failure
  -- Methods, types and packages.
  · exact (steady_signatureOf he symbol.id).bind fun w a b hab => agree_result hab
  · exact Inference.steady_lift fun _ => Typing.agree_classType _
  · exact Inference.steady_failure

theorem steady_typeWithin (he : s.environment.Interned base) (budget depth : Nat) (i : NodeId) :
    Inference.Steady base Twins.Same (s.typeWithin budget depth i) := by
  induction budget generalizing depth i with
  | zero => exact Inference.steady_lift fun _ => Typing.agree_exhausted
  | succ budget ih =>
    have hresolve : ∀ reference, Typing.Steady base Equal
        (s.resolveVia (s.typeWithin budget 0) reference) :=
      s.steady_resolveVia (ih 0)
    rw [typeWithin]
    split
    · exact Inference.steady_failure
    split
    -- Lists, maps and closures, then literals: their types are fixed.
    · next type h =>
      refine Inference.steady_pure fun w => w.same_of_fixed ?_
      obtain ⟨kind, _, hkind⟩ := Option.bind_eq_some_iff.mp h
      cases kind <;> cases hkind <;> decide
    · next kind _ _ _ =>
      refine Inference.steady_pure fun w => w.same_of_fixed ?_
      cases kind <;> decide
    -- Parentheses, casts, new objects and assignments: the type is that of a part.
    · exact ih _ _
    · exact s.steady_denoted _
    · exact s.steady_denoted _
    · split
      · exact ih _ _
      · exact Inference.steady_failure
    -- References and calls: what they stand for does not depend on the numbering.
    · apply Inference.steady_lift_bind (hresolve i)
      intro resolution
      split
      · exact steady_symbolType he _
      · exact Inference.steady_failure
    · split
      · apply Inference.steady_lift_bind (hresolve _)
        intro resolution
        split
        · exact (steady_signatureOf he _).bind fun w a b hab => agree_result hab
        · exact Inference.steady_failure
      · exact Inference.steady_failure
    · exact Inference.steady_failure

theorem steady_typeOf (he : s.environment.Interned base) (i : NodeId) :
    Inference.Steady base Twins.Same (s.typeOf i) :=
  steady_typeWithin he s.budget 0 i

theorem steady_resolve (he : s.environment.Interned base) (reference : NodeId) :
    Typing.Steady base Equal (s.resolve reference) :=
  s.steady_resolveVia (steady_typeOf he) reference

theorem steady_argumentTypes (he : s.environment.Interned base) (reference : NodeId) :
    Inference.Steady base (fun w => List.Forall₂ (Option.Rel w.Same))
      (s.argumentTypes reference) := by
  unfold argumentTypes
  split
  · exact Inference.steady_failure
  · refine Inference.steady_lift fun w => Typing.agree_mapM (R := fun w => Option.Rel w.Same)
      (fun _ _ _ _ hw hab => Twins.rel_same_mono hab hw) (fun argument _ => ?_) w
    cases argument with
    | none => exact fun w => Typing.agree_pure .none
    | some i => exact steady_typeOf he i

end TypedScript

end ScriptCheck
