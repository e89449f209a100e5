/-
  Assignments between arrays.

  Arrays go into arrays element by element. `fitsElement_step` opens both sides
  once, `fitsElement_opened` any number of times, and what is then left decides:
  classes must be related, the rest of an array goes into the root class and
  into the two interfaces that arrays have, and nothing else fits.
  `isAssignable_arrays_iff` says so for arrays of up to as many dimensions as
  are opened at all. Where only one side is an array, the other side is asked
  whether it may hold one or be held (`isAssignable_of_class_of_array`,
  `isAssignable_of_array_of_class`).
-/
import ScriptCheck.Proofs.Types.Interning
import ScriptCheck.Types.Assignability
import ScriptCheck.Types.Written

namespace ScriptCheck

namespace Interner

/-- What is left of a type after its arrays are opened so many times. -/
def opened? (i : Interner) : Nat → TypeId → Option TypeId
  | 0, t => some t
  | n + 1, t => (i.element? t).bind (i.opened? n)

/-- A number stands for a type that is no array. -/
def IsBase (i : Interner) (t : TypeId) : Prop :=
  ∃ type, i.lookup? t = some type ∧ ∀ element, type ≠ .array element

variable {i j : Interner} {t s : TypeId}

/-! ## Opening arrays -/

theorem exists_element?_of_opened? {n : Nat} {array : TypeId}
    (h : i.opened? (n + 1) array = some t) :
    ∃ element, i.element? array = some element ∧ i.opened? n element = some t :=
  Option.bind_eq_some_iff.mp h

/-- Equal arrays leave equal types. -/
theorem ne_of_opened? {n : Nat} {array other : TypeId} (h : i.opened? n array = some t)
    (ho : i.opened? n other = some s) (hne : t ≠ s) : array ≠ other := by
  rintro rfl
  exact hne (Option.some.inj (h.symm.trans ho))

/-- Opening arrays can be interrupted. -/
theorem opened?_add (i : Interner) (m n : Nat) (t : TypeId) :
    i.opened? (m + n) t = (i.opened? m t).bind (i.opened? n) := by
  induction m generalizing t with
  | zero => rw [Nat.zero_add, opened?, Option.bind_some]
  | succ m ih =>
    have hrest : i.opened? (m + n) = fun t => (i.opened? m t).bind (i.opened? n) := funext ih
    rw [Nat.succ_add, opened?, opened?, hrest, Option.bind_assoc]

/-- Opened fewer times than it can be, an array is still an array. -/
theorem exists_array_of_opened? {m n : Nat} (hlt : m < n) {array : TypeId}
    (h : i.opened? n array = some t) :
    ∃ inner element, i.opened? m array = some inner ∧ i.element? inner = some element := by
  obtain ⟨d, rfl⟩ := Nat.exists_eq_add_of_lt hlt
  rw [Nat.add_assoc, opened?_add] at h
  obtain ⟨inner, hinner, hrest⟩ := Option.bind_eq_some_iff.mp h
  obtain ⟨element, helement, -⟩ := exists_element?_of_opened? hrest
  exact ⟨inner, element, hinner, helement⟩

theorem Extends.opened? (he : i.Extends j) {n : Nat} {array : TypeId}
    (h : i.opened? n array = some t) : j.opened? n array = some t := by
  induction n generalizing array with
  | zero => exact h
  | succ n ih =>
    obtain ⟨element, harray, hrest⟩ := exists_element?_of_opened? h
    rw [Interner.opened?, he.element? harray, Option.bind_some]
    exact ih hrest

/-- Arrays with the same elements are the same. -/
theorem Grown.element?_inj (hi : i.Grown) {element : TypeId} (ht : i.element? t = some element)
    (hs : i.element? s = some element) : t = s :=
  hi.eq_of_lookup? (element?_eq_some_iff.mp ht) (element?_eq_some_iff.mp hs)

theorem Grown.opened?_inj (hi : i.Grown) {n : Nat} {base : TypeId}
    (ht : i.opened? n t = some base) (hs : i.opened? n s = some base) : t = s := by
  induction n generalizing t s with
  | zero => exact (Option.some.inj ht).trans (Option.some.inj hs).symm
  | succ n ih =>
    obtain ⟨t', ht', htrest⟩ := exists_element?_of_opened? ht
    obtain ⟨s', hs', hsrest⟩ := exists_element?_of_opened? hs
    have heq : t' = s' := ih htrest hsrest
    exact hi.element?_inj ht' (heq ▸ hs')

/-! ## Asking for arrays -/

theorem Grown.arrays (hi : i.Grown) (t : TypeId) (n : Nat) : (i.arrays t n).2.Grown := by
  induction n with
  | zero => exact hi
  | succ n ih => exact ih.ask (.array (i.arrays t n).1)

theorem extends_arrays (i : Interner) (t : TypeId) (n : Nat) : i.Extends (i.arrays t n).2 := by
  induction n with
  | zero => exact Extends.refl i
  | succ n ih => exact ih.trans (extends_intern _ (.array (i.arrays t n).1))

/-- An array that was asked for can be opened as often as it has dimensions. -/
theorem opened?_arrays (i : Interner) (t : TypeId) (n : Nat) :
    (i.arrays t n).2.opened? n (i.arrays t n).1 = some t := by
  induction n with
  | zero => rfl
  | succ n ih =>
    have harray : (i.arrays t (n + 1)).2.lookup? (i.arrays t (n + 1)).1 =
        some (.array (i.arrays t n).1) := lookup?_intern _ _
    have hkept : (i.arrays t n).2.Extends (i.arrays t (n + 1)).2 := extends_intern _ _
    rw [opened?, element?_eq_some_iff.mpr harray, Option.bind_some]
    exact hkept.opened? ih

/-! ## Arrays and other types -/

theorem IsBase.element?_eq_none (h : i.IsBase t) : i.element? t = none := by
  obtain ⟨type, hl, hbase⟩ := h
  cases he : i.element? t with
  | none => rfl
  | some element =>
    have harray : i.lookup? t = some (.array element) := element?_eq_some_iff.mp he
    exact absurd (Option.some.inj (hl.symm.trans harray)) (hbase element)

theorem IsBase.ne_of_element? (h : i.IsBase t) {element : TypeId}
    (hs : i.element? s = some element) : t ≠ s := by
  rintro rfl
  rw [h.element?_eq_none] at hs
  cases hs

theorem IsBase.of_isClass (h : i.isClass t = true) : i.IsBase t := by
  obtain ⟨name, hl⟩ := exists_lookup?_of_isClass h
  exact ⟨_, hl, fun _ hn => by cases hn⟩

theorem IsBase.extends (h : i.IsBase t) (he : i.Extends j) : j.IsBase t := by
  obtain ⟨type, hl, hbase⟩ := h
  exact ⟨type, he _ _ hl, hbase⟩

/-- The number of an array is not fixed. -/
theorem Grown.isFixed_of_element? (hi : i.Grown) {element : TypeId}
    (h : i.element? t = some element) : t.isFixed = false := by
  rw [Bool.eq_false_iff]
  intro hfixed
  obtain ⟨type, hm, hl⟩ := exists_of_isFixed hfixed
  have harray : type = .array element :=
    Option.some.inj ((hi.extends_initial t type hl).symm.trans (element?_eq_some_iff.mp h))
  exact ne_array_of_mem_fixedTypes hm element harray

theorem Grown.ne_of_element? (hi : i.Grown) {element fixed : TypeId}
    (h : i.element? t = some element) (hfixed : fixed.isFixed = true) : t ≠ fixed := by
  rintro rfl
  exact absurd hfixed (Bool.eq_false_iff.mp (hi.isFixed_of_element? h))

theorem Grown.isNumericClass_of_element? (hi : i.Grown) {element : TypeId}
    (h : i.element? t = some element) : t.isNumericClass = false := by
  have hfixed : ∀ fixed ∈ TypeId.numericClasses, fixed.isFixed = true := by decide
  rw [TypeId.isNumericClass, Bool.eq_false_iff, Ne, List.contains_iff_mem]
  exact fun hm => hi.ne_of_element? h (hfixed t hm) rfl

/-- Arrays are no numbers. -/
theorem Grown.isNumeric_of_element? (hi : i.Grown) {element : TypeId}
    (h : i.element? t = some element) : i.isNumeric t = false := by
  unfold isNumeric primitive?
  rw [hi.isNumericClass_of_element? h, element?_eq_some_iff.mp h]
  rfl

/-- Arrays are no classes. -/
theorem isClass_of_element? {element : TypeId} (h : i.element? t = some element) :
    i.isClass t = false := by
  unfold isClass className?
  rw [element?_eq_some_iff.mp h]
  rfl

/-- A fixed class is a class. -/
theorem Grown.exists_lookup?_of_mem_fixedClasses (hi : i.Grown)
    (h : t ∈ fixedClasses.map Prod.fst) : ∃ name, i.lookup? t = some (.named name) := by
  obtain ⟨c, hc, rfl⟩ := List.mem_map.mp h
  exact ⟨c.2, hi.keepsFixed.named c hc⟩

theorem isClass_iff : i.isClass t = true ↔ ∃ name, i.lookup? t = some (.named name) := by
  refine ⟨exists_lookup?_of_isClass, ?_⟩
  rintro ⟨name, hl⟩
  unfold isClass className?
  rw [hl]
  rfl

end Interner

namespace TypeWorld

section

variable {i : Interner} {h : Hierarchy} {target source t s : TypeId}

/-! ## What is left of the cascade for arrays -/

/-- An array takes other arrays by their elements, and what is no array by itself. -/
theorem isAssignable_of_array (hi : i.Grown) (ht : i.element? target = some t) {type : Ty}
    (hl : i.lookup? source = some type) (hnull : source ≠ TypeId.null)
    (hvoid : source ≠ TypeId.void) (hne : target ≠ source) :
    (TypeWorld.mk i h).isAssignable target source =
      match type with
      | .array s => (TypeWorld.mk i h).fitsElement hierarchyLimit t s
      | _ => (TypeWorld.mk i h).fitsArray source := by
  -- All that the cascade asks about before it comes to arrays is fixed types.
  have htv : target ≠ TypeId.void := hi.ne_of_element? ht (by decide)
  have hto : target ≠ TypeId.object := hi.ne_of_element? ht (by decide)
  have hts : target ≠ TypeId.string := hi.ne_of_element? ht (by decide)
  have htb : target ≠ TypeId.boolean := hi.ne_of_element? ht (by decide)
  have htw : target ≠ TypeId.boxedBoolean := hi.ne_of_element? ht (by decide)
  unfold isAssignable
  simp only [hne, htv, hto, hts, htb, htw, hnull, hvoid, hl, Interner.element?_eq_some_iff.mp ht,
    hi.isNumeric_of_element? ht, if_false, decide_false, Bool.or_false, Bool.false_eq_true]
  cases type <;> rfl

/-- Between different arrays the elements decide. -/
theorem isAssignable_of_element? (hi : i.Grown) (ht : i.element? target = some t)
    (hs : i.element? source = some s) (hne : target ≠ source) :
    (TypeWorld.mk i h).isAssignable target source =
      (TypeWorld.mk i h).fitsElement hierarchyLimit t s :=
  isAssignable_of_array hi ht (Interner.element?_eq_some_iff.mp hs)
    (hi.ne_of_element? hs (by decide)) (hi.ne_of_element? hs (by decide)) hne

/-- An array takes a class if it takes what the class may hold. -/
theorem isAssignable_of_array_of_class (hi : i.Grown) (ht : i.element? target = some t)
    (hs : i.isClass source = true) :
    (TypeWorld.mk i h).isAssignable target source = (TypeWorld.mk i h).fitsArray source := by
  obtain ⟨name, hl⟩ := Interner.exists_lookup?_of_isClass hs
  have hnull : source ≠ TypeId.null :=
    hi.ne_of_isClass ⟨.null, rfl, fun _ hn => by cases hn⟩ hs
  have hvoid : source ≠ TypeId.void := hi.ne_typeId_of_isClass hs .void
  have hne : target ≠ source := ((Interner.IsBase.of_isClass hs).ne_of_element? ht).symm
  exact isAssignable_of_array hi ht hl hnull hvoid hne

/-- An array is no number, nor does it hold one. -/
theorem fitsNumber_of_array (hi : i.Grown) (hs : i.element? source = some s) :
    (TypeWorld.mk i h).fitsNumber target source = false := by
  have hstring : source ≠ TypeId.string := hi.ne_of_element? hs (by decide)
  have hgString : source ≠ TypeId.gString := hi.ne_of_element? hs (by decide)
  unfold fitsNumber
  simp only [hi.isNumeric_of_element? hs, Interner.isClass_of_element? hs, hstring, hgString,
    decide_false, Bool.or_false, Bool.and_false, Bool.false_and]

/-- A class that is not numeric takes an array if it takes everything or arrays. -/
theorem isAssignable_of_class_of_array (hi : i.Grown) (ht : i.isClass target = true)
    (hs : i.element? source = some s) (hobj : target ≠ TypeId.object) :
    (TypeWorld.mk i h).isAssignable target source =
      (!target.isNumericClass &&
        (target = TypeId.string || target = TypeId.boxedBoolean ||
          (TypeWorld.mk i h).takesArray target)) := by
  obtain ⟨name, hlt⟩ := Interner.exists_lookup?_of_isClass ht
  have hne : target ≠ source := (Interner.IsBase.of_isClass ht).ne_of_element? hs
  have htv : target ≠ TypeId.void := hi.ne_typeId_of_isClass ht .void
  have htb : target ≠ TypeId.boolean := hi.ne_typeId_of_isClass ht .boolean
  have hsn : source ≠ TypeId.null := hi.ne_of_element? hs (by decide)
  have hsv : source ≠ TypeId.void := hi.ne_of_element? hs (by decide)
  unfold isAssignable
  simp only [hne, htv, htb, hsn, hsv, hobj, hlt, Interner.element?_eq_some_iff.mp hs,
    Interner.isNumeric_of_isClass ht, fitsNumber_of_array hi hs, if_false, decide_false,
    Bool.or_false, Bool.false_eq_true]
  cases target.isNumericClass with
  | true => rfl
  | false =>
    rw [if_neg Bool.false_ne_true, Bool.not_false, Bool.true_and]
    cases hany : decide (target = TypeId.string) || decide (target = TypeId.boxedBoolean) with
    | true => rfl
    | false => rfl

/-! ## Opening both sides -/

/-- Arrays of different numbers are judged by their elements. -/
theorem fitsElement_step (ht : i.element? target = some t) (hs : i.element? source = some s)
    (hne : target ≠ source) (budget : Nat) :
    (TypeWorld.mk i h).fitsElement (budget + 1) target source =
      (TypeWorld.mk i h).fitsElement budget t s := by
  rw [fitsElement, if_neg hne]
  simp only [Interner.element?_eq_some_iff.mp ht, Interner.element?_eq_some_iff.mp hs]

/-- Arrays that can both be opened so many times are judged by what is left. -/
theorem fitsElement_opened {k : Nat} (ht : i.opened? k target = some t)
    (hs : i.opened? k source = some s) (hne : t ≠ s) (budget : Nat) :
    (TypeWorld.mk i h).fitsElement (budget + k) target source =
      (TypeWorld.mk i h).fitsElement budget t s := by
  induction k generalizing target source with
  | zero =>
    obtain rfl : target = t := Option.some.inj ht
    obtain rfl : source = s := Option.some.inj hs
    rfl
  | succ k ih =>
    obtain ⟨t', ht', htrest⟩ := Interner.exists_element?_of_opened? ht
    obtain ⟨s', hs', hsrest⟩ := Interner.exists_element?_of_opened? hs
    have hdiffer : target ≠ source := Interner.ne_of_opened? ht hs hne
    calc (TypeWorld.mk i h).fitsElement (budget + k + 1) target source
        = (TypeWorld.mk i h).fitsElement (budget + k) t' s' := fitsElement_step ht' hs' hdiffer _
      _ = (TypeWorld.mk i h).fitsElement budget t s := ih htrest hsrest

/-- Different arrays that can both be opened so many times are judged by what is left, if the
    search is not cut off before. -/
theorem isAssignable_opened (hi : i.Grown) {k : Nat} (ht : i.opened? (k + 1) target = some t)
    (hs : i.opened? (k + 1) source = some s) (hne : t ≠ s) (hk : k ≤ hierarchyLimit) :
    (TypeWorld.mk i h).isAssignable target source =
      (TypeWorld.mk i h).fitsElement (hierarchyLimit - k) t s := by
  obtain ⟨t', ht', htrest⟩ := Interner.exists_element?_of_opened? ht
  obtain ⟨s', hs', hsrest⟩ := Interner.exists_element?_of_opened? hs
  have hdiffer : target ≠ source := Interner.ne_of_opened? ht hs hne
  calc (TypeWorld.mk i h).isAssignable target source
      = (TypeWorld.mk i h).fitsElement hierarchyLimit t' s' :=
        isAssignable_of_element? hi ht' hs' hdiffer
    _ = (TypeWorld.mk i h).fitsElement (hierarchyLimit - k + k) t' s' := by
        rw [Nat.sub_add_cancel hk]
    _ = (TypeWorld.mk i h).fitsElement (hierarchyLimit - k) t s :=
        fitsElement_opened htrest hsrest hne _

/-! ## What is left -/

/-- Different elements that are no arrays fit if both are classes, one of them unknown or above
    the other, or the target the root class. -/
theorem fitsElement_base_iff (ht : i.IsBase t) (hs : i.IsBase s) (hne : t ≠ s) (budget : Nat) :
    (TypeWorld.mk i h).fitsElement (budget + 1) t s = true ↔
      i.isClass t = true ∧ i.isClass s = true ∧
        (t = TypeId.object ∨ (TypeWorld.mk i h).areRelated t s = true) := by
  obtain ⟨type, hlt, htbase⟩ := ht
  obtain ⟨type', hls, hsbase⟩ := hs
  rw [fitsElement, if_neg hne]
  simp only [hlt, hls, Interner.isClass_iff]
  cases type with
  | array element => exact absurd rfl (htbase element)
  | primitive p => simp
  | null => simp
  | named name =>
    cases type' with
    | array element => exact absurd rfl (hsbase element)
    | primitive p => simp
    | null => simp
    | named other => simp

/-- An element that is no array takes an array only as the root class or as one of the interfaces
    of arrays. -/
theorem fitsElement_array_iff (hi : i.Grown) (ht : i.IsBase t) (hs : i.element? source = some s)
    (budget : Nat) :
    (TypeWorld.mk i h).fitsElement (budget + 1) t source = true ↔
      t = TypeId.object ∨ t = TypeId.cloneable ∨ t = TypeId.serializable := by
  have hne : t ≠ source := ht.ne_of_element? hs
  -- The three are classes, so a target that is none is none of them.
  have hclass : t = TypeId.object ∨ t = TypeId.cloneable ∨ t = TypeId.serializable →
      ∃ name, i.lookup? t = some (.named name) := by
    rintro (rfl | rfl | rfl) <;> exact hi.exists_lookup?_of_mem_fixedClasses (by decide)
  have hls : i.lookup? source = some (.array s) := Interner.element?_eq_some_iff.mp hs
  obtain ⟨type, hlt, hbase⟩ := ht
  rw [fitsElement, if_neg hne]
  simp only [hlt, hls] at hclass ⊢
  cases type with
  | array element => exact absurd rfl (hbase element)
  | named name => simp only [Bool.or_eq_true, decide_eq_true_eq, or_assoc]
  | primitive p =>
    refine iff_of_false Bool.false_ne_true fun hthree => ?_
    obtain ⟨name, hname⟩ := hclass hthree
    cases hname
  | null =>
    refine iff_of_false Bool.false_ne_true fun hthree => ?_
    obtain ⟨name, hname⟩ := hclass hthree
    cases hname

/-- An element that is an array takes nothing but arrays. -/
theorem fitsElement_of_array (ht : i.element? target = some t) (hs : i.IsBase s) (budget : Nat) :
    (TypeWorld.mk i h).fitsElement (budget + 1) target s = false := by
  have hne : target ≠ s := (hs.ne_of_element? ht).symm
  obtain ⟨type, hls, hbase⟩ := hs
  rw [fitsElement, if_neg hne]
  simp only [Interner.element?_eq_some_iff.mp ht, hls]
  cases type with
  | array element => exact absurd rfl (hbase element)
  | named name => rfl
  | primitive p => rfl
  | null => rfl

/-! ## Arrays of any number of dimensions -/

/-- What an array takes that is not the same array: arrays of as many dimensions over a class that
    is related to its own or unknown, and, as an array of the root class, of `Cloneable` or of
    `Serializable`, everything with more dimensions. -/
theorem isAssignable_arrays_iff (hi : i.Grown) {m n : Nat} (hT : i.opened? m target = some t)
    (hS : i.opened? n source = some s) (ht : i.IsBase t) (hs : i.IsBase s) (hm : 1 ≤ m)
    (hml : m ≤ hierarchyLimit) (hn : 1 ≤ n) (hnl : n ≤ hierarchyLimit) (hne : target ≠ source) :
    (TypeWorld.mk i h).isAssignable target source = true ↔
      (m = n ∧ i.isClass t = true ∧ i.isClass s = true ∧
        (t = TypeId.object ∨ h.isKnown t = false ∨ h.isKnown s = false ∨
          h.isDerivedFrom s t = true ∨ h.isDerivedFrom t s = true)) ∨
      (m < n ∧ (t = TypeId.object ∨ t = TypeId.cloneable ∨ t = TypeId.serializable)) := by
  obtain ⟨m, rfl⟩ := Nat.exists_eq_add_of_le' hm
  obtain ⟨n, rfl⟩ := Nat.exists_eq_add_of_le' hn
  have hbudget : ∀ k, k + 1 ≤ hierarchyLimit → ∃ budget, hierarchyLimit - k = budget + 1 :=
    fun k hk => Nat.exists_eq_add_of_le' (Nat.le_sub_of_add_le' hk)
  rcases Nat.lt_trichotomy m n with hlt | rfl | hlt
  case inl =>
    -- The source is still an array when the target is opened to its base.
    obtain ⟨inner, element, hinner, helement⟩ :=
      Interner.exists_array_of_opened? (Nat.succ_lt_succ hlt) hS
    obtain ⟨budget, hb⟩ := hbudget m hml
    rw [isAssignable_opened hi hT hinner (ht.ne_of_element? helement) (Nat.le_of_succ_le hml), hb,
      fitsElement_array_iff hi ht helement]
    have hdims : m + 1 ≠ n + 1 := Nat.ne_of_lt (Nat.succ_lt_succ hlt)
    simp only [hdims, Nat.succ_lt_succ hlt, false_and, false_or, true_and]
  case inr.inl =>
    have hbases : t ≠ s := by
      rintro rfl
      exact hne (hi.opened?_inj hT hS)
    obtain ⟨budget, hb⟩ := hbudget m hml
    rw [isAssignable_opened hi hT hS hbases (Nat.le_of_succ_le hml), hb,
      fitsElement_base_iff ht hs hbases]
    simp only [areRelated, Bool.or_eq_true, Bool.not_eq_true', or_assoc, true_and,
      Nat.lt_irrefl, false_and, or_false]
  case inr.inr =>
    obtain ⟨inner, element, hinner, helement⟩ :=
      Interner.exists_array_of_opened? (Nat.succ_lt_succ hlt) hT
    obtain ⟨budget, hb⟩ := hbudget n hnl
    rw [isAssignable_opened hi hinner hS (hs.ne_of_element? helement).symm
      (Nat.le_of_succ_le hnl), hb, fitsElement_of_array helement hs]
    have hdims : m + 1 ≠ n + 1 := Nat.ne_of_gt (Nat.succ_lt_succ hlt)
    have hless : ¬m + 1 < n + 1 := Nat.not_lt_of_gt (Nat.succ_lt_succ hlt)
    simp only [hdims, hless, false_and, or_false, Bool.false_eq_true]

end

/-! ## As deep as arrays are opened -/

/-- A class under as many dimensions as arrays are opened, with the number of that array. -/
def deepest : TypeId × Interner :=
  (Interner.initial.named "app.Foo").2.arrays 35 hierarchyLimit

/-- The root class under one dimension less, with the number of that array. -/
def objects : TypeId × Interner := deepest.2.arrays TypeId.object (hierarchyLimit - 1)

/-- The array of objects takes the one that has a dimension more, which does not take it back. -/
theorem isAssignable_objects_deepest :
    (TypeWorld.mk objects.2 .standard).isAssignable objects.1 deepest.1 = true ∧
      (TypeWorld.mk objects.2 .standard).isAssignable deepest.1 objects.1 = false := by
  have hfoo : (Interner.initial.named "app.Foo").2.Grown := .ask .start _
  have hgrown : objects.2.Grown := (hfoo.arrays 35 hierarchyLimit).arrays _ _
  have hkept : deepest.2.Extends objects.2 := Interner.extends_arrays _ _ _
  have hT : objects.2.opened? (hierarchyLimit - 1) objects.1 = some TypeId.object :=
    Interner.opened?_arrays _ _ _
  have hS : objects.2.opened? hierarchyLimit deepest.1 = some 35 :=
    hkept.opened? (Interner.opened?_arrays _ _ _)
  have hroot : objects.2.IsBase TypeId.object := by
    obtain ⟨_, hl⟩ := hgrown.exists_lookup?_of_mem_fixedClasses (t := TypeId.object) (by decide)
    exact ⟨_, hl, fun _ hn => by cases hn⟩
  have hclass : (Interner.initial.named "app.Foo").2.IsBase 35 := .of_isClass (by decide +kernel)
  have hbase : objects.2.IsBase 35 :=
    hclass.extends ((Interner.extends_arrays _ _ _).trans hkept)
  have hne : objects.1 ≠ deepest.1 := by
    intro heq
    obtain ⟨inner, element, hinner, helement⟩ :=
      Interner.exists_array_of_opened? (by decide : hierarchyLimit - 1 < hierarchyLimit) hS
    rw [← heq, hT] at hinner
    exact hroot.ne_of_element? helement (Option.some.inj hinner)
  constructor
  · exact (isAssignable_arrays_iff hgrown hT hS hroot hbase (by decide) (by decide) (by decide)
      (by decide) hne).mpr (Or.inr ⟨by decide, Or.inl rfl⟩)
  · rw [Bool.eq_false_iff, Ne, isAssignable_arrays_iff hgrown hS hT hbase hroot (by decide)
      (by decide) (by decide) (by decide) hne.symm]
    rintro (⟨hdims, -⟩ | ⟨hless, -⟩)
    · exact absurd hdims (by decide)
    · exact absurd hless (by decide)

end TypeWorld

end ScriptCheck
