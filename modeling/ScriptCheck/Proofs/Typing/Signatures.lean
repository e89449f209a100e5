/-
  What is known about the signature of a method.

  `Yields` says that whatever a computation finds has a property, from any
  numbering. With it, the signature of a declared method is seen to be written
  with the parameters of the declaration, so that a method takes no number of
  arguments that its arity does not accept (`accepts_of_mayTake`). For a method
  whose signature the environment gives, `FitsArity` has to be known.
-/
import Mathlib.Data.List.Forall2
import ScriptCheck.Proofs.Binding.Methods
import ScriptCheck.Proofs.Types.ArgumentCounts
import ScriptCheck.Typing

namespace ScriptCheck

section

variable {α β γ : Type}

/-! ## What computations find -/

/-- What is found one after the other is related, one by one, to what it is found for. -/
theorem Typing.forall₂_of_run_mapM {R : γ → α → Prop} {f : γ → Typing α} {xs : List γ}
    (hf : ∀ x types a types', (f x).run types = some (a, types') → R x a) {found : List α}
    {types types' : Interner} (h : (xs.mapM f).run types = some (found, types')) :
    List.Forall₂ R xs found := by
  induction xs generalizing found types types' with
  | nil =>
    cases h
    exact .nil
  | cons x xs ih =>
    rw [List.mapM_cons, StateT.run_bind] at h
    obtain ⟨⟨a, middle⟩, ha, h⟩ := Option.bind_eq_some_iff.mp h
    rw [StateT.run_bind] at h
    obtain ⟨⟨rest, last⟩, hrest, h⟩ := Option.bind_eq_some_iff.mp h
    cases h
    exact .cons (hf _ _ _ _ ha) (ih hrest)

namespace Inference

/-- Whatever the computation finds, from whatever numbering, has the property. -/
def Yields (P : α → Prop) (m : Inference α) : Prop :=
  ∀ types a types', m.run.run types = some (some a, types') → P a

variable {P : α → Prop} {Q : β → Prop}

theorem yields_pure {a : α} (h : P a) : Yields P (pure a) := by
  intro types a' types' hrun
  cases hrun
  exact h

theorem yields_failure : Yields P failure := by
  intro types a types' hrun
  cases hrun

/-- What follows may use what is known about the first result. -/
theorem Yields.bind {m : Inference α} {f : α → Inference β} (hm : Yields P m)
    (hf : ∀ a, P a → Yields Q (f a)) : Yields Q (m >>= f) := by
  intro types b types' hrun
  rw [OptionT.run_bind, Option.elimM, StateT.run_bind] at hrun
  obtain ⟨⟨found, middle⟩, hfirst, hnext⟩ := Option.bind_eq_some_iff.mp hrun
  cases found with
  | none => cases hnext
  | some a => exact hf a (hm _ _ _ hfirst) _ _ _ hnext

theorem yields_lift {m : Typing α}
    (h : ∀ types a types', m.run types = some (a, types') → P a) : Yields P (OptionT.lift m) := by
  intro types a types' hrun
  rw [OptionT.run_lift, StateT.run_bind] at hrun
  obtain ⟨⟨a', middle⟩, hfirst, hnext⟩ := Option.bind_eq_some_iff.mp hrun
  cases hnext
  exact h _ _ _ hfirst

end Inference

end

namespace TypedScript

variable {s : TypedScript} {method : SymbolId}

/-! ## Declared signatures -/

theorem optional_of_parameterOf (data : Variable) (types : Interner) (p : Parameter)
    (types' : Interner) (h : (s.parameterOf data).run types = some (p, types')) :
    data.initial.isSome = p.optional := by
  unfold parameterOf at h
  dsimp only at h
  split at h
  · rw [StateT.run_bind] at h
    obtain ⟨⟨type, middle⟩, _, hnext⟩ := Option.bind_eq_some_iff.mp h
    cases hnext
    rfl
  · cases h
    rfl

/-- The signature that a method is declared with is written with its parameters. -/
theorem yields_declaredSignature {i : NodeId} {data : Method}
    (hdata : s.tree.methodAt? i = some data) :
    Inference.Yields
      (fun signature => signature.builder = false ∧
        signature.WrittenWith (Binding.parametersOf s.tree data))
      (s.declaredSignature i) := by
  unfold declaredSignature
  rw [hdata]
  dsimp only
  rw [Typing.mapM_lift]
  have hparameters : Inference.Yields
      (List.Forall₂ (fun (v : Variable) (p : Parameter) => v.initial.isSome = p.optional)
        (Binding.parametersOf s.tree data))
      (OptionT.lift ((Binding.parametersOf s.tree data).mapM s.parameterOf)) :=
    Inference.yields_lift fun _ _ _ h => Typing.forall₂_of_run_mapM optional_of_parameterOf h
  refine hparameters.bind fun parameters hp => ?_
  have hresult : ∀ m : Inference (Option TypeId), Inference.Yields (fun _ => True) m :=
    fun _ _ _ _ _ => trivial
  refine (hresult _).bind fun result _ => Inference.yields_pure ⟨rfl, ⟨?_, rfl⟩⟩
  show parameters.map Parameter.optional = _
  rw [← List.forall₂_eq_eq_eq, List.forall₂_map_left_iff, List.forall₂_map_right_iff]
  exact hp.flip.imp fun p v h => h.symm

/-! ## Signatures and arities -/

/-- What the environment says about the method goes with its arity: the method is no builder, and no
    number of arguments is admitted that the arity does not accept. -/
def FitsArity (s : TypedScript) (method : SymbolId) : Prop :=
  ∀ signature symbol, s.environment.signature? method = some signature →
    s.script.symbols.get? method = some symbol →
      signature.builder = false ∧ symbol.flags.isBuilder = false ∧
        ∀ count, signature.Admits count → symbol.accepts count = true

/-- The method has a known signature, and some numbering and hierarchy let it take the arguments. -/
def MayTake (s : TypedScript) (method : SymbolId) (arguments : List TypeId) : Prop :=
  ∃ types signature types' world,
    (s.signatureOf method).run.run types = some (some signature, types') ∧
      signature.isApplicable world (arguments.map some) = true

/-- A known signature is no builder's, and admits only what the arity of the method accepts. -/
theorem yields_signatureOf (hm : s.script.symbols.KnowsMethods s.tree)
    (hfits : s.FitsArity method) :
    Inference.Yields
      (fun signature => signature.builder = false ∧
        ∀ count, signature.Admits count → s.script.symbols.accepts method count = true)
      (s.signatureOf method) := by
  unfold signatureOf
  cases hget : s.script.symbols.get? method with
  | none => exact Inference.yields_failure
  | some symbol =>
    have haccepts : ∀ count, s.script.symbols.accepts method count = symbol.accepts count := by
      intro count
      unfold SymbolTable.accepts
      rw [hget]
      rfl
    dsimp only
    split
    · exact Inference.yields_failure
    next hmethod =>
    have hkind : symbol.kind = .method := by simpa [Symbol.isMethod] using hmethod
    split
    · next signature henv =>
      obtain ⟨hb, hflag, hadmits⟩ := hfits signature symbol henv hget
      refine Inference.yields_pure ⟨?_, fun count h => (haccepts count).trans (hadmits count h)⟩
      show (signature.builder || symbol.flags.isBuilder) = false
      rw [hb, hflag]
      rfl
    · split
      · next i hi =>
        -- The signature and the arity are both read off the declaration.
        obtain ⟨data, hdata, harity, hflag⟩ := hm method symbol hget hkind i hi
        refine (yields_declaredSignature hdata).bind fun signature ⟨hb, hwritten⟩ =>
          Inference.yields_pure ⟨?_, fun count h => ?_⟩
        · show (signature.builder || symbol.flags.isBuilder) = false
          rw [hb, hflag]
          rfl
        · rw [haccepts]
          unfold Symbol.accepts
          rw [harity]
          exact hwritten.accepts h
      · exact Inference.yields_failure

/-- A method takes no number of arguments that its arity does not accept. -/
theorem accepts_of_mayTake (hm : s.script.symbols.KnowsMethods s.tree)
    (hfits : s.FitsArity method) {arguments : List TypeId} (h : s.MayTake method arguments) :
    s.script.symbols.accepts method arguments.length = true := by
  obtain ⟨types, signature, types', world, hrun, htakes⟩ := h
  obtain ⟨hb, hadmits⟩ := yields_signatureOf hm hfits _ _ _ hrun
  exact hadmits _ (signature.admits_of_isApplicable hb htakes)

end TypedScript

end ScriptCheck
