/-
  Assignments that an unknown class takes part in.

  About a class that the hierarchy does not know nothing can be said, so nothing
  should be turned away because of it. Without arrays on both sides this holds,
  but for numeric classes that are unknown themselves
  (`isAssignable_iff_of_meetsUnknown`). Under dimensions that both sides have it
  holds between classes only: arrays that are elements go into no class but the
  root class and the interfaces of arrays, and take no class, and nobody asks
  whether the class is known (`fitsElement_iff_of_meetsUnknown`).
  `isAssignable_iff_not_overlooks` puts both together, and `foos_refuse_grid` is
  an assignment that is refused.
-/
import ScriptCheck.Proofs.Types.ArrayAssignability
import ScriptCheck.Proofs.Types.ClassAssignability

namespace ScriptCheck

namespace Hierarchy

/-- Nothing leads up from a class that is not known. -/
theorem isDerivedFrom_of_unknown {h : Hierarchy} {child : TypeId} (hu : h.isKnown child = false)
    (ancestor : TypeId) : h.isDerivedFrom child ancestor = decide (child = ancestor) := by
  have hparents : h.parentsOf child = [] := by
    unfold isKnown at hu
    unfold parentsOf
    rw [Option.isSome_eq_false_iff, Option.isNone_iff_eq_none] at hu
    rw [hu]
    rfl
  have hsearch : h.reaches ancestor hierarchyLimit [child] [] = false := by
    show h.reaches ancestor (255 + 1) [child] [] = false
    simp only [reaches, hparents, List.contains_nil, List.reverse_nil, List.append_nil,
      Bool.false_eq_true, if_false]
  unfold isDerivedFrom
  rw [hu, hsearch, Bool.and_false, Bool.or_false, Bool.or_false]

end Hierarchy

namespace TypeWorld

/-- A class that the hierarchy does not know. -/
def IsUnknown (w : TypeWorld) (t : TypeId) : Prop :=
  w.types.isClass t = true ∧ w.hierarchy.isKnown t = false

/-- A class or an array. -/
def IsReference (w : TypeWorld) (t : TypeId) : Prop :=
  w.types.isClass t = true ∨ ∃ element, w.types.element? t = some element

/-- On one side is an unknown class and on the other one a class or an array. -/
def MeetsUnknown (w : TypeWorld) (target source : TypeId) : Prop :=
  (w.IsUnknown target ∧ w.IsReference source) ∨ (w.IsUnknown source ∧ w.IsReference target)

/-- What makes a numeric class refuse another type although it is unknown itself: the other one is
    neither numeric nor read as a character nor an unknown class. -/
structure Miscounts (w : TypeWorld) (target source : TypeId) : Prop where
  numeric : target.isNumericClass = true
  unknown : w.hierarchy.isKnown target = false
  other : source.isNumericClass = false
  text : ¬(target = TypeId.character ∧ (source = TypeId.string ∨ source = TypeId.gString))
  known : w.types.isClass source = true → w.hierarchy.isKnown source = true

/-- The assignments that are refused although an unknown class takes part. The number is how many
    dimensions the two sides have in common, and the types are what is left without these. -/
inductive Overlooks (w : TypeWorld) : Nat → TypeId → TypeId → Prop
  /-- A numeric class refuses what is known to be no number. -/
  | number {t s : TypeId} (miscounts : w.Miscounts t s) : Overlooks w 0 t s
  /-- Arrays of a class turn away arrays with more dimensions. -/
  | classes {shared : Nat} {t s element : TypeId} (within : shared < hierarchyLimit)
      (array : w.types.element? s = some element)
      (other : ¬(t = TypeId.object ∨ t = TypeId.cloneable ∨ t = TypeId.serializable)) :
      Overlooks w (shared + 1) t s
  /-- Arrays turn away arrays of a class with fewer dimensions. -/
  | arrays {shared : Nat} {t s element : TypeId} (within : shared < hierarchyLimit)
      (array : w.types.element? t = some element) : Overlooks w (shared + 1) t s

section

variable {i : Interner} {h : Hierarchy} {target source t s : TypeId}

/-! ## No dimension in common -/

/-- An unknown class may be a collection, which arrays take. -/
theorem fitsArray_of_isUnknown (hs : (TypeWorld.mk i h).IsUnknown source) :
    (TypeWorld.mk i h).fitsArray source = true := by
  obtain ⟨hclass, hunknown⟩ := hs
  unfold fitsArray
  simp only [hclass, hunknown, Bool.not_false, Bool.true_or, Bool.and_true]

/-- An unknown class may be one that arrays are turned into. -/
theorem takesArray_of_isUnknown (ht : (TypeWorld.mk i h).IsUnknown target) :
    (TypeWorld.mk i h).takesArray target = true := by
  obtain ⟨hclass, hunknown⟩ := ht
  unfold takesArray
  simp only [hclass, hunknown, Bool.not_false, Bool.or_true, Bool.true_or, Bool.and_true]

/-- Classes one of which is unknown are related. -/
theorem areRelated_of_unknown (hu : h.isKnown target = false ∨ h.isKnown source = false) :
    (TypeWorld.mk i h).areRelated target source = true := by
  unfold areRelated
  rcases hu with hu | hu <;> simp only [hu, Bool.not_false, Bool.or_true, Bool.true_or]

/-- An unknown numeric class takes numbers, strings if it is `Character`, and what is unknown
    itself. -/
theorem fitsNumber_iff_of_unknown (ht : i.isClass target = true) (hs : i.isClass source = true)
    (hu : h.isKnown target = false) (hne : target ≠ source) :
    (TypeWorld.mk i h).fitsNumber target source = true ↔
      source.isNumericClass = true ∨
        ((target = TypeId.char ∨ target = TypeId.character) ∧
          (source = TypeId.string ∨ source = TypeId.gString)) ∨
        h.isKnown source = false := by
  unfold fitsNumber
  simp only [Interner.isNumeric_of_isClass hs, Interner.boxed_of_isClass ht, hs,
    Hierarchy.isDerivedFrom_of_unknown hu, hne, Bool.or_eq_true, Bool.and_eq_true,
    decide_eq_true_eq, decide_false, Bool.or_false, Bool.true_and, Bool.not_eq_true', or_assoc]

theorem overlooks_zero_iff {w : TypeWorld} : w.Overlooks 0 target source ↔
    w.Miscounts target source := by
  refine ⟨?_, .number⟩
  rintro ⟨miscounts⟩
  exact miscounts

/-- A numeric class takes another class, one of them unknown, unless it miscounts it. -/
theorem fitsNumber_iff_not_miscounts (hi : i.Grown) (ht : i.isClass target = true)
    (hs : i.isClass source = true) (hnum : target.isNumericClass = true) (hne : target ≠ source)
    (hu : h.isKnown target = false ∨ h.isKnown source = false) :
    (TypeWorld.mk i h).fitsNumber target source = true ↔
      ¬(TypeWorld.mk i h).Miscounts target source := by
  have hchar : target ≠ TypeId.char := hi.ne_typeId_of_isClass ht .char
  rcases Bool.eq_false_or_eq_true (h.isKnown target) with hk | hk
  · have hsource : h.isKnown source = false :=
      hu.resolve_left fun hn => absurd hk (Bool.eq_false_iff.mp hn)
    refine iff_of_true ?_ fun hm => absurd hk (Bool.eq_false_iff.mp hm.unknown)
    unfold fitsNumber
    simp only [hs, hsource, Bool.not_false, Bool.true_or, Bool.and_true, Bool.or_true]
  · rw [fitsNumber_iff_of_unknown ht hs hk hne]
    constructor
    · rintro (hn | hc | hsource) hm
      · exact absurd hn (Bool.eq_false_iff.mp hm.other)
      · exact hm.text ⟨hc.1.resolve_left hchar, hc.2⟩
      · exact absurd (hm.known hs) (Bool.eq_false_iff.mp hsource)
    · intro hm
      by_contra hno
      rw [not_or, not_or, Bool.not_eq_true, Bool.not_eq_false] at hno
      obtain ⟨hother, htext, hsource⟩ := hno
      exact hm ⟨hnum, hk, hother, fun hc => htext ⟨.inr hc.1, hc.2⟩, fun _ => hsource⟩

/-- Of two classes one of which is unknown, the target takes the source unless it miscounts it. -/
theorem isAssignable_iff_of_classes (hi : i.Grown) (ht : i.isClass target = true)
    (hs : i.isClass source = true) (hu : h.isKnown target = false ∨ h.isKnown source = false) :
    (TypeWorld.mk i h).isAssignable target source = true ↔
      ¬(TypeWorld.mk i h).Miscounts target source := by
  by_cases hne : target = source
  · subst hne
    refine iff_of_true (isAssignable_self _ target) fun hm => ?_
    exact absurd hm.numeric (Bool.eq_false_iff.mp hm.other)
  by_cases hobj : target = TypeId.object
  · subst hobj
    exact iff_of_true (isAssignable_object _ source) fun hm => absurd hm.numeric (by decide)
  rw [isAssignable_of_isClass hi ht hs hne hobj]
  by_cases hnum : target.isNumericClass = true
  · rw [if_pos hnum]
    exact fitsNumber_iff_not_miscounts hi ht hs hnum hne hu
  · rw [if_neg hnum]
    refine iff_of_true ?_ fun hm => hnum hm.numeric
    split
    · rfl
    · exact fitsClass_of_areRelated hs (areRelated_of_unknown hu)

/-- An array is refused by an unknown numeric class, but by no other unknown class. -/
theorem isAssignable_iff_of_class_of_array (hi : i.Grown)
    (ht : (TypeWorld.mk i h).IsUnknown target) (hs : i.element? source = some s) :
    (TypeWorld.mk i h).isAssignable target source = true ↔
      ¬(TypeWorld.mk i h).Miscounts target source := by
  by_cases hobj : target = TypeId.object
  · subst hobj
    exact iff_of_true (isAssignable_object _ source) fun hm => absurd hm.numeric (by decide)
  rw [isAssignable_of_class_of_array hi ht.1 hs hobj, takesArray_of_isUnknown ht, Bool.or_true,
    Bool.and_true, Bool.not_eq_true']
  constructor
  · exact fun hnum hm => absurd hm.numeric (Bool.eq_false_iff.mp hnum)
  · intro hm
    by_contra hnum
    rw [Bool.not_eq_false] at hnum
    have hclass : i.isClass source = false := Interner.isClass_of_element? hs
    have hstring : source ≠ TypeId.string := hi.ne_of_element? hs (by decide)
    have hgString : source ≠ TypeId.gString := hi.ne_of_element? hs (by decide)
    refine hm ⟨hnum, ht.2, hi.isNumericClass_of_element? hs, ?_, ?_⟩
    · rintro ⟨-, htext | htext⟩
      · exact hstring htext
      · exact hgString htext
    · exact fun hyes => absurd hyes (Bool.eq_false_iff.mp hclass)

/-- Without a dimension in common an unknown class is overlooked by numeric classes only. -/
theorem isAssignable_iff_of_meetsUnknown (hi : i.Grown)
    (hu : (TypeWorld.mk i h).MeetsUnknown target source) :
    (TypeWorld.mk i h).isAssignable target source = true ↔
      ¬(TypeWorld.mk i h).Miscounts target source := by
  rcases hu with ⟨ht, hs | ⟨s, hs⟩⟩ | ⟨hs, ht | ⟨t, ht⟩⟩
  · exact isAssignable_iff_of_classes hi ht.1 hs (.inl ht.2)
  · exact isAssignable_iff_of_class_of_array hi ht hs
  · exact isAssignable_iff_of_classes hi ht hs.1 (.inr hs.2)
  · rw [isAssignable_of_array_of_class hi ht hs.1]
    refine iff_of_true (fitsArray_of_isUnknown hs) fun hm => ?_
    exact absurd hm.numeric (Bool.eq_false_iff.mp (hi.isNumericClass_of_element? ht))

/-! ## Dimensions in common -/

/-- Different arrays with more dimensions in common than are opened are taken. -/
theorem isAssignable_of_cut (hi : i.Grown) {k : Nat} (hT : i.opened? (k + 1) target = some t)
    (hS : i.opened? (k + 1) source = some s) (hne : t ≠ s) (hk : hierarchyLimit ≤ k) :
    (TypeWorld.mk i h).isAssignable target source = true := by
  obtain ⟨d, rfl⟩ := Nat.exists_eq_add_of_le hk
  rw [Nat.add_right_comm, Interner.opened?_add] at hT hS
  obtain ⟨t', hT', htrest⟩ := Option.bind_eq_some_iff.mp hT
  obtain ⟨s', hS', hsrest⟩ := Option.bind_eq_some_iff.mp hS
  have hdiffer : t' ≠ s' := Interner.ne_of_opened? htrest hsrest hne
  rw [isAssignable_opened hi hT' hS' hdiffer (Nat.le_refl _), Nat.sub_self]
  unfold fitsElement
  split <;> rfl

/-- Under dimensions in common two classes are never refused for an unknown one, and a class and
    an array are compared as if both were known. -/
theorem fitsElement_iff_of_meetsUnknown (hi : i.Grown)
    (hu : (TypeWorld.mk i h).MeetsUnknown t s) (hne : t ≠ s) {k budget : Nat}
    (hk : k < hierarchyLimit) :
    (TypeWorld.mk i h).fitsElement (budget + 1) t s = true ↔
      ¬(TypeWorld.mk i h).Overlooks (k + 1) t s := by
  have hclasses : i.isClass t = true → i.isClass s = true →
      (h.isKnown t = false ∨ h.isKnown s = false) →
      ((TypeWorld.mk i h).fitsElement (budget + 1) t s = true ↔
        ¬(TypeWorld.mk i h).Overlooks (k + 1) t s) := by
    intro ht hs hunknown
    have hrelated : (TypeWorld.mk i h).areRelated t s = true := areRelated_of_unknown hunknown
    have htbase : i.IsBase t := .of_isClass ht
    have hsbase : i.IsBase s := .of_isClass hs
    refine iff_of_true ?_ ?_
    · exact (fitsElement_base_iff htbase hsbase hne budget).mpr ⟨ht, hs, Or.inr hrelated⟩
    · rintro (_ | ⟨-, harray, -⟩ | ⟨-, harray⟩)
      · exact hsbase.ne_of_element? harray rfl
      · exact htbase.ne_of_element? harray rfl
  rcases hu with ⟨ht, hs | ⟨element, hs⟩⟩ | ⟨hs, ht | ⟨element, ht⟩⟩
  case inl.inl => exact hclasses ht.1 hs (.inl ht.2)
  case inr.inl => exact hclasses ht hs.1 (.inr hs.2)
  case inl.inr =>
    have htbase : i.IsBase t := .of_isClass ht.1
    rw [fitsElement_array_iff hi htbase hs]
    constructor
    · rintro hthree (_ | ⟨-, -, hother⟩ | ⟨-, harray⟩)
      · exact hother hthree
      · exact htbase.ne_of_element? harray rfl
    · intro hno
      by_contra hother
      exact hno (.classes hk hs hother)
  case inr.inr =>
    rw [fitsElement_of_array ht (.of_isClass hs.1)]
    exact iff_of_false Bool.false_ne_true fun hno => hno (.arrays hk ht)

/-- The dimensions that both sides have are stripped. If then an unknown class meets a class or an
    array, the target takes the source except in the cases that `Overlooks` lists. -/
theorem isAssignable_iff_not_overlooks (hi : i.Grown) {shared : Nat}
    (hT : i.opened? shared target = some t) (hS : i.opened? shared source = some s)
    (hu : (TypeWorld.mk i h).MeetsUnknown t s) :
    (TypeWorld.mk i h).isAssignable target source = true ↔
      ¬(TypeWorld.mk i h).Overlooks shared t s := by
  cases shared with
  | zero =>
    obtain rfl : target = t := Option.some.inj hT
    obtain rfl : source = s := Option.some.inj hS
    rw [overlooks_zero_iff]
    exact isAssignable_iff_of_meetsUnknown hi hu
  | succ k =>
    by_cases hne : t = s
    · subst hne
      -- Equal remains are one unknown class, so that the sides were equal to begin with.
      have hbase : i.IsBase t := .of_isClass (hu.elim (·.1.1) (·.1.1))
      obtain rfl : target = source := hi.opened?_inj hT hS
      refine iff_of_true (isAssignable_self _ target) ?_
      rintro (_ | ⟨-, harray, -⟩ | ⟨-, harray⟩) <;> exact hbase.ne_of_element? harray rfl
    rcases Nat.lt_or_ge k hierarchyLimit with hk | hk
    · obtain ⟨budget, hb⟩ := Nat.exists_eq_add_of_le' (Nat.sub_pos_of_lt hk)
      rw [isAssignable_opened hi hT hS hne (Nat.le_of_lt hk), hb]
      exact fitsElement_iff_of_meetsUnknown hi hu hne hk
    · refine iff_of_true (isAssignable_of_cut hi hT hS hne hk) ?_
      rintro (_ | ⟨hwithin, -, -⟩ | ⟨hwithin, -⟩) <;> exact Nat.not_lt_of_ge hk hwithin

end

/-! ## Arrays of an unknown class and arrays of arrays -/

/-- The types of a program that writes `Foo[]` and `int[][]`. -/
def gridTypes : Interner :=
  Interner.initial.run [.named "app.Foo", .array 35, .array TypeId.int, .array 37]

/-- The number of the class. -/
def foo : TypeId := 35

/-- The number of the array of that class. -/
def foos : TypeId := 36

/-- The number of the array of arrays. -/
def grid : TypeId := 38

/-- The standard classes are known, and `app.Foo` is not. -/
def gridWorld : TypeWorld := ⟨gridTypes, .standard⟩

theorem isUnknown_foo : gridWorld.IsUnknown foo :=
  ⟨by decide +kernel, by decide +kernel⟩

/-- Outside of arrays the unknown class takes `int[][]`, as elements neither takes the other. -/
theorem foo_takes_grid_but_foos_not :
    gridWorld.isAssignable foo grid = true ∧ gridWorld.isAssignable foos grid = false ∧
      gridWorld.isAssignable grid foos = false := by
  have hgrown : gridTypes.Grown := Interner.Grown.start.run _
  have hgrid : gridTypes.element? grid = some 37 := by decide +kernel
  have hrow : gridTypes.element? 37 = some TypeId.int := by decide +kernel
  have hfoos : gridTypes.opened? 1 foos = some foo := by decide +kernel
  have hrows : gridTypes.opened? 1 grid = some 37 := by decide +kernel
  have hlimit : 0 < hierarchyLimit := by decide
  have hself : ∀ t, gridTypes.opened? 0 t = some t := fun _ => rfl
  refine ⟨?_, ?_, ?_⟩
  · refine (isAssignable_iff_not_overlooks hgrown (hself foo) (hself grid)
      (.inl ⟨isUnknown_foo, .inr ⟨37, hgrid⟩⟩)).mpr ?_
    rintro ⟨miscounts⟩
    exact absurd miscounts.numeric (by decide)
  · rw [Bool.eq_false_iff]
    intro htaken
    exact (isAssignable_iff_not_overlooks hgrown hfoos hrows
      (.inl ⟨isUnknown_foo, .inr ⟨_, hrow⟩⟩)).mp htaken (.classes hlimit hrow (by decide))
  · rw [Bool.eq_false_iff]
    intro htaken
    exact (isAssignable_iff_not_overlooks hgrown hrows hfoos
      (.inr ⟨isUnknown_foo, .inr ⟨_, hrow⟩⟩)).mp htaken (.arrays hlimit hrow)

/-- An unknown class can be grounds for refusal: `Foo[]` does not take `int[][]`. -/
theorem foos_refuse_grid :
    ¬∀ (i : Interner) (h : Hierarchy), i.Grown → ∀ (shared : Nat) (target source t s : TypeId),
      target ≠ TypeId.void → i.opened? shared target = some t → i.opened? shared source = some s →
      (TypeWorld.mk i h).MeetsUnknown t s →
      (TypeWorld.mk i h).isAssignable target source = true := by
  intro hall
  have hrow : gridTypes.element? 37 = some TypeId.int := by decide +kernel
  have hyes := hall gridTypes .standard (Interner.Grown.start.run _) 1 foos grid foo 37
    (by decide) (by decide +kernel) (by decide +kernel) (.inl ⟨isUnknown_foo, .inr ⟨_, hrow⟩⟩)
  have hno : (TypeWorld.mk gridTypes .standard).isAssignable foos grid = false := by decide +kernel
  rw [hno] at hyes
  cases hyes

end TypeWorld

end ScriptCheck
