/-
  How many arguments a signature admits.

  Whatever the types are, a call fits a signature only if the signature admits
  the number of its arguments: enough for the parameters without defaults, and
  no more than there are parameters, unless the last one takes all that are
  left. The arity of a method written in a script accepts every number that the
  signature it is declared with admits, and no other if only the last parameter
  takes more than one argument. A signature that asks nothing of the types takes
  every call with a number of arguments that it admits (`Lax.fits_iff`).
-/
import ScriptCheck.Symbol.Basic
import ScriptCheck.Types.Signature

namespace ScriptCheck

/-- Whether a call with so many arguments can fit the signature. -/
def Signature.Admits (s : Signature) (count : Nat) : Prop :=
  if s.varargs then
    match s.parameters.getLast? with
    | some _ => Parameter.requiredCount s.parameters.dropLast ≤ count
    | none => count = 0
  else Parameter.requiredCount s.parameters ≤ count ∧ count ≤ s.parameters.length

section

variable {w : TypeWorld} {s : Signature}

/-! ## Calls that fit -/

theorem Parameter.requiredCount_le_of_fitOpen {fixed : List Parameter} {last : Parameter}
    {arguments : List TypeId} (h : fitOpen w fixed last arguments = true) :
    requiredCount fixed ≤ arguments.length := by
  unfold fitOpen at h
  obtain ⟨kept, hkept, _⟩ := List.any_eq_true.mp h
  obtain ⟨hlow, hhigh⟩ := List.mem_range'_1.mp hkept
  omega

/-- A call that fits has a number of arguments that the signature admits. -/
theorem Signature.admits_of_fits {arguments : List TypeId} (h : s.fits w arguments = true) :
    s.Admits arguments.length := by
  unfold Signature.fits at h
  unfold Signature.Admits
  split
  · next hv =>
    rw [if_pos hv] at h
    cases hlast : s.parameters.getLast? with
    | none =>
      rw [hlast] at h
      exact List.length_eq_zero_iff.mpr (List.isEmpty_iff.mp h)
    | some last =>
      rw [hlast] at h
      exact Parameter.requiredCount_le_of_fitOpen h
  · next hv =>
    rw [if_neg hv] at h
    unfold Parameter.fitFixed at h
    rw [Bool.and_eq_true, Bool.and_eq_true, decide_eq_true_iff, decide_eq_true_iff] at h
    exact h.1

/-- All arguments are known if every single one is. -/
theorem mapM_id_eq_some_iff {α : Type _} {entries : List (Option α)} {known : List α} :
    entries.mapM id = some known ↔ entries = known.map some := by
  induction entries generalizing known with
  | nil => cases known <;> simp
  | cons entry rest ih =>
    rw [List.mapM_cons]
    cases entry with
    | none => cases known <;> simp
    | some a =>
      cases hrest : rest.mapM id with
      | none =>
        have hnone : ∀ known : List α, rest ≠ known.map some := by
          intro known heq
          have hsome := ih.mpr heq
          rw [hrest] at hsome
          cases hsome
        cases known <;> simp [hnone]
      | some others =>
        have hothers : rest = others.map some := ih.mp hrest
        cases known with
        | nil => simp
        | cons b known => simp [hothers, List.map_inj_right]

/-- A call is turned away only by a signature that is no builder's, and only if all its arguments
    are known. -/
theorem Signature.isApplicable_eq_false_iff {arguments : List (Option TypeId)} :
    s.isApplicable w arguments = false ↔
      s.builder = false ∧ ∃ known, arguments = known.map some ∧ s.fits w known = false := by
  unfold Signature.isApplicable
  rw [Bool.or_eq_false_iff]
  refine and_congr_right fun _ => ?_
  cases h : arguments.mapM id with
  | none =>
    refine ⟨nofun, fun ⟨known, heq, _⟩ => ?_⟩
    rw [mapM_id_eq_some_iff.mpr heq] at h
    cases h
  | some known =>
    have heq : arguments = known.map some := mapM_id_eq_some_iff.mp h
    refine ⟨fun hf => ⟨known, heq, hf⟩, ?_⟩
    rintro ⟨known', heq', hf⟩
    rw [mapM_id_eq_some_iff.mpr heq'] at h
    cases h
    exact hf

/-- A signature that is no builder's only takes known arguments in a number that it admits. -/
theorem Signature.admits_of_isApplicable (hb : s.builder = false) {known : List TypeId}
    (h : s.isApplicable w (known.map some) = true) : s.Admits known.length := by
  have hfits : s.fits w known = true := by
    cases hf : s.fits w known with
    | true => rfl
    | false =>
      have hno := isApplicable_eq_false_iff.mpr ⟨hb, known, rfl, hf⟩
      rw [hno] at h
      cases h
  exact admits_of_fits hfits

/-! ## Calls that any arguments fit -/

namespace Parameter

/-- What is kept was there. -/
theorem mem_of_mem_dropFirst {count : Nat} {parameters : List Parameter} {p : Parameter}
    (h : p ∈ dropFirst count parameters) : p ∈ parameters := by
  fun_induction dropFirst count parameters with
  | case1 => exact h
  | case2 count q rest _ ih => exact List.mem_cons_of_mem _ (ih h)
  | case3 count q rest _ ih =>
    rcases List.mem_cons.mp h with rfl | h
    · exact List.mem_cons_self
    · exact List.mem_cons_of_mem _ (ih h)

theorem mem_of_mem_dropLast {count : Nat} {parameters : List Parameter} {p : Parameter}
    (h : p ∈ dropLast count parameters) : p ∈ parameters :=
  List.mem_reverse.mp (mem_of_mem_dropFirst (List.mem_reverse.mp h))

/-- Parameters without types take anything. -/
theorem takeAll_of_untyped (w : TypeWorld) {parameters : List Parameter}
    (h : ∀ p ∈ parameters, p.type = none) (arguments : List TypeId) :
    takeAll w parameters arguments = true := by
  unfold takeAll
  rw [List.all_eq_true]
  rintro ⟨p, argument⟩ hm
  show p.takes w argument = true
  unfold takes
  rw [h p (List.of_mem_zip hm).1]
  rfl

/-- An array of objects takes all that is left. -/
theorem fitRest_of_object (w : TypeWorld) {last : Parameter} {t : TypeId}
    (ht : last.type = some t) (he : w.types.element? t = some TypeId.object)
    (rest : List TypeId) : fitRest w last rest = true := by
  have hobject : ∀ source, w.isAssignable TypeId.object source = true := by
    intro source
    unfold TypeWorld.isAssignable
    split
    · rfl
    · rw [if_neg (by decide)]
      simp
  unfold fitRest
  rw [ht, Option.bind_some, he, Bool.or_eq_true]
  exact Or.inr (List.all_eq_true.mpr fun source _ => hobject source)

end Parameter

/-- The signature asks nothing of the types of arguments: its parameters have no types, and the one
    that takes all arguments that are left takes any. -/
structure Signature.Lax (w : TypeWorld) (s : Signature) : Prop where
  untyped : ∀ p ∈ if s.varargs then s.parameters.dropLast else s.parameters, p.type = none
  rest : s.varargs = true → ∀ last, s.parameters.getLast? = some last → ∀ rest,
    Parameter.fitRest w last rest = true

/-- Then a call fits if the number of its arguments is admitted. -/
theorem Signature.Lax.fits_iff (h : s.Lax w) {arguments : List TypeId} :
    s.fits w arguments = true ↔ s.Admits arguments.length := by
  refine ⟨admits_of_fits, fun hadmits => ?_⟩
  have htakes : ∀ count, Parameter.takeAll w (Parameter.dropLast count
      (if s.varargs then s.parameters.dropLast else s.parameters)) arguments = true :=
    fun count => Parameter.takeAll_of_untyped w
      (fun p hp => h.untyped p (Parameter.mem_of_mem_dropLast hp)) arguments
  unfold Signature.Admits at hadmits
  unfold Signature.fits
  by_cases hv : s.varargs = true
  · rw [if_pos hv] at hadmits htakes ⊢
    cases hlast : s.parameters.getLast? with
    | none =>
      rw [hlast] at hadmits
      exact List.isEmpty_iff.mpr (List.length_eq_zero_iff.mp hadmits)
    | some last =>
      rw [hlast] at hadmits
      -- It is enough to keep the parameters that need an argument.
      have hrequired : Parameter.requiredCount s.parameters.dropLast ≤
          s.parameters.dropLast.length := List.countP_le_length
      refine List.any_eq_true.mpr ⟨Parameter.requiredCount s.parameters.dropLast, ?_, ?_⟩
      · rw [List.mem_range'_1]
        omega
      · rw [Bool.and_eq_true]
        exact ⟨htakes _, h.rest hv last hlast _⟩
  · rw [if_neg hv] at hadmits htakes ⊢
    unfold Parameter.fitFixed
    rw [Bool.and_eq_true, Bool.and_eq_true, decide_eq_true_iff, decide_eq_true_iff]
    exact ⟨hadmits, htakes _⟩

/-- A call of known arguments is judged by whether it fits, unless a builder is called. -/
theorem Signature.isApplicable_eq_fits (hb : s.builder = false) (known : List TypeId) :
    s.isApplicable w (known.map some) = s.fits w known := by
  unfold Signature.isApplicable
  rw [hb, Bool.false_or, mapM_id_eq_some_iff.mpr rfl]

end

/-! ## Declared methods -/

/-- The signature is written with the declared as parameters: what has an initial value may be left
    out, and the last one decides whether more is taken. -/
structure Signature.WrittenWith (s : Signature) (declared : List Variable) : Prop where
  optional : s.parameters.map Parameter.optional = declared.map fun v => v.initial.isSome
  varargs : s.varargs = (declared.getLast?.map Variable.varargs).getD false

section

variable {s : Signature} {declared : List Variable}

/-- What needs an argument has no default. -/
theorem countP_needsArgument_le (declared : List Variable) :
    declared.countP Arity.needsArgument ≤ declared.countP fun v => v.initial.isNone := by
  refine List.countP_mono_left fun v _ hv => ?_
  unfold Arity.needsArgument at hv
  rw [Bool.and_eq_true] at hv
  exact hv.1

/-- What has no default needs an argument, unless it takes all that are left. -/
theorem countP_needsArgument_eq (h : ∀ v ∈ declared, v.varargs = false) :
    declared.countP Arity.needsArgument = declared.countP fun v => v.initial.isNone := by
  refine List.countP_congr fun v hv => ?_
  unfold Arity.needsArgument
  rw [h v hv]
  exact iff_of_eq (congrArg (· = true) (Bool.and_true _))

/-- A last parameter that takes all that are left needs no argument. -/
theorem countP_needsArgument_dropLast
    (h : (declared.getLast?.map Variable.varargs).getD false = true) :
    declared.countP Arity.needsArgument = declared.dropLast.countP Arity.needsArgument := by
  rcases declared.eq_nil_or_concat with rfl | ⟨front, last, rfl⟩
  · cases h
  · rw [List.concat_eq_append] at h ⊢
    rw [List.getLast?_concat] at h
    have hneeds : [last].countP Arity.needsArgument = 0 := by
      simp [Arity.needsArgument, show last.varargs = true from h]
    rw [List.countP_append, hneeds, List.dropLast_concat, Nat.add_zero]

/-- As many parameters need an argument as are declared without an initial value. -/
theorem requiredCount_eq {parameters : List Parameter}
    (h : parameters.map Parameter.optional = declared.map fun v => v.initial.isSome) :
    Parameter.requiredCount parameters = declared.countP fun v => v.initial.isNone := by
  have hparameters : Parameter.requiredCount parameters =
      (parameters.map Parameter.optional).countP (!·) := by
    rw [List.countP_map]
    rfl
  have hvariables : declared.countP (fun v => v.initial.isNone) =
      (declared.map fun v => v.initial.isSome).countP (!·) := by
    rw [List.countP_map]
    refine List.countP_congr fun v _ => ?_
    cases hi : v.initial <;> simp [hi]
  rw [hparameters, hvariables, h]

/-- What the signature admits can be read off the declared parameters. -/
theorem Signature.WrittenWith.admits_iff (hs : s.WrittenWith declared) {count : Nat} :
    s.Admits count ↔
      if s.varargs then (declared.dropLast.countP fun v => v.initial.isNone) ≤ count
      else (declared.countP fun v => v.initial.isNone) ≤ count ∧ count ≤ declared.length := by
  have hlength : s.parameters.length = declared.length := by
    have hl := congrArg List.length hs.optional
    rwa [List.length_map, List.length_map] at hl
  unfold Signature.Admits
  split
  · next hv =>
    have hfront : s.parameters.dropLast.map Parameter.optional =
        declared.dropLast.map fun v => v.initial.isSome := by
      rw [List.map_dropLast, hs.optional, List.map_dropLast]
    rw [← requiredCount_eq hfront]
    cases hp : s.parameters.getLast? with
    | some _ => exact Iff.rfl
    | none =>
      -- A signature without parameters is not open.
      rw [List.getLast?_eq_none_iff.mp hp, List.length_nil] at hlength
      rw [hs.varargs, List.length_eq_zero_iff.mp hlength.symm] at hv
      cases hv
  · rw [requiredCount_eq hs.optional, hlength]

/-- The arity of a method accepts whatever number of arguments its own signature admits. -/
theorem Signature.WrittenWith.accepts (hs : s.WrittenWith declared) {count : Nat}
    (h : s.Admits count) : (Arity.ofParameters declared).accepts count = true := by
  rw [hs.admits_iff] at h
  unfold Arity.accepts Arity.ofParameters
  rw [Bool.and_eq_true, Bool.or_eq_true, decide_eq_true_iff, decide_eq_true_iff]
  dsimp only
  rw [← hs.varargs]
  by_cases hv : s.varargs = true
  · rw [if_pos hv] at h
    rw [countP_needsArgument_dropLast (hs.varargs ▸ hv)]
    exact ⟨Nat.le_trans (countP_needsArgument_le _) h, Or.inl hv⟩
  · rw [if_neg hv] at h
    exact ⟨Nat.le_trans (countP_needsArgument_le _) h.1, Or.inr h.2⟩

/-- If the last parameter does not take all that are left, none does. -/
theorem forall_varargs_eq_false (hfront : ∀ v ∈ declared.dropLast, v.varargs = false)
    (hclosed : (declared.getLast?.map Variable.varargs).getD false = false) :
    ∀ v ∈ declared, v.varargs = false := by
  rcases declared.eq_nil_or_concat with rfl | ⟨front, last, rfl⟩
  · exact fun v hm => absurd hm List.not_mem_nil
  · rw [List.concat_eq_append] at hfront hclosed ⊢
    rw [List.dropLast_concat] at hfront
    rw [List.getLast?_concat] at hclosed
    intro v hm
    rcases List.mem_append.mp hm with hm | hm
    · exact hfront v hm
    · rw [List.mem_singleton.mp hm]
      exact hclosed

/-- It accepts nothing else if only the last parameter takes more than one argument. -/
theorem Signature.WrittenWith.accepts_iff (hs : s.WrittenWith declared)
    (hlast : ∀ v ∈ declared.dropLast, v.varargs = false) {count : Nat} :
    (Arity.ofParameters declared).accepts count = true ↔ s.Admits count := by
  refine ⟨fun h => ?_, hs.accepts⟩
  rw [hs.admits_iff]
  unfold Arity.accepts Arity.ofParameters at h
  rw [Bool.and_eq_true, Bool.or_eq_true, decide_eq_true_iff, decide_eq_true_iff] at h
  dsimp only at h
  rw [← hs.varargs] at h
  by_cases hv : s.varargs = true
  · rw [if_pos hv, ← countP_needsArgument_eq hlast,
      ← countP_needsArgument_dropLast (hs.varargs ▸ hv)]
    exact h.1
  · have hall := forall_varargs_eq_false hlast (hs.varargs ▸ Bool.eq_false_iff.mpr hv)
    rw [if_neg hv, ← countP_needsArgument_eq hall]
    exact ⟨h.1, h.2.resolve_left hv⟩

end

end ScriptCheck
