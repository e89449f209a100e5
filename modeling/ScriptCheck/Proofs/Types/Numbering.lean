/-
  What numbering types keeps.

  Interners are only ever made by asking the initial one for the numbers of
  types. On such an interner a type has one number at most, the fixed types
  have theirs, and a number that was given out is kept. So it does not matter
  when a type is asked for: `fst_intern_of_extends` says that an early answer
  and a late one agree.
-/
import ScriptCheck.Types.Interner

namespace ScriptCheck.Interner

/-- The interners that asking for numbers leads to. -/
inductive Grown : Interner → Prop
  | start : Grown initial
  | ask {i : Interner} (h : Grown i) (type : Ty) : Grown (i.intern type).2

/-- Every number of one interner stands for the same type in another. -/
def Extends (i j : Interner) : Prop :=
  ∀ t type, i.lookup? t = some type → j.lookup? t = some type

theorem Extends.refl (i : Interner) : i.Extends i := fun _ _ h => h

theorem Extends.trans {i j k : Interner} (hij : i.Extends j) (hjk : j.Extends k) :
    i.Extends k :=
  fun t type h => hjk t type (hij t type h)

theorem extends_intern (i : Interner) (type : Ty) : i.Extends (i.intern type).2 :=
  fun _ _ h => lookup?_intern_of_lookup? h type

/-- The fixed types stand in their order. -/
theorem lookup?_initial (t : TypeId) : initial.lookup? t = fixedTypes[t]? :=
  List.getElem?_toArray

/-- The fixed types keep their numbers. -/
theorem Grown.extends_initial {i : Interner} (h : i.Grown) : initial.Extends i := by
  induction h with
  | start => exact Extends.refl initial
  | ask _ type ih => exact ih.trans (extends_intern _ type)

/-! ## One number for each type -/

/-- No type is listed twice. -/
theorem Grown.nodup {i : Interner} (h : i.Grown) : i.types.toList.Nodup := by
  induction h with
  | start => decide
  | @ask i _ type ih =>
    unfold intern
    split
    · exact ih
    · next hn =>
      have hnew : type ∉ i.types := Array.idxOf?_eq_none_iff.mp hn
      rw [Array.toList_push, List.nodup_append]
      refine ⟨ih, by simp, ?_⟩
      intro known hk other ho heq
      rw [List.mem_singleton] at ho
      rw [heq, ho] at hk
      exact hnew (Array.mem_toList_iff.mp hk)

/-- Structurally equal types share one number. -/
theorem Grown.eq_of_lookup? {i : Interner} (h : i.Grown) {a b : TypeId} {type : Ty}
    (ha : i.lookup? a = some type) (hb : i.lookup? b = some type) : a = b := by
  -- Numbers are places in a list without repetitions.
  have hlt : a < i.types.toList.length := (Array.getElem?_eq_some_iff.mp ha).choose
  unfold lookup? at ha hb
  rw [← Array.getElem?_toList] at ha hb
  exact (List.getElem?_inj hlt h.nodup).mp (ha.trans hb.symm)

/-- The number of a type that has one. -/
theorem Grown.fst_intern_of_lookup? {i : Interner} (h : i.Grown) {t : TypeId} {type : Ty}
    (ht : i.lookup? t = some type) : (i.intern type).1 = t := by
  have hs : (i.intern type).2.lookup? (i.intern type).1 = some type := lookup?_intern i type
  exact (h.ask type).eq_of_lookup? hs (lookup?_intern_of_lookup? ht type)

/-- It does not matter when a type is asked for: an interner that knows at least the answer of an
    earlier one gives the same number. -/
theorem fst_intern_of_extends {i j : Interner} (hj : j.Grown) {type : Ty}
    (he : (i.intern type).2.Extends j) : (i.intern type).1 = (j.intern type).1 := by
  have hs : (i.intern type).2.lookup? (i.intern type).1 = some type := lookup?_intern i type
  exact (hj.fst_intern_of_lookup? (he _ _ hs)).symm

/-- Different types have different numbers. -/
theorem fst_intern_inj {i : Interner} (h : i.Grown) {a b : Ty}
    (heq : (i.intern a).1 = (i.intern b).1)
    (hb : ∃ t, i.lookup? t = some b) : a = b := by
  obtain ⟨t, ht⟩ := hb
  have hbt : (i.intern b).1 = t := h.fst_intern_of_lookup? ht
  have ha : (i.intern a).2.lookup? t = some a := by
    rw [← hbt, ← heq]
    exact lookup?_intern i a
  have hb' : (i.intern a).2.lookup? t = some b := lookup?_intern_of_lookup? ht a
  exact Option.some.inj (ha.symm.trans hb')

/-! ## Classes -/

/-- Classes share their numbers only if they share their names. -/
theorem Grown.fst_named_eq_iff {i : Interner} (hi : i.Grown) {a b : String} :
    (i.named a).1 = ((i.named a).2.named b).1 ↔ a = b := by
  have hgrown : (i.named a).2.Grown := hi.ask _
  have hknown : (i.named a).2.lookup? (i.named a).1 = some (.named a) := lookup?_intern i _
  have hself : ((i.named a).2.named a).1 = (i.named a).1 := hgrown.fst_intern_of_lookup? hknown
  constructor
  · intro h
    have heq : ((i.named a).2.intern (.named b)).1 = ((i.named a).2.intern (.named a)).1 :=
      h.symm.trans hself.symm
    have htypes : Ty.named b = .named a := fst_intern_inj hgrown heq ⟨_, hknown⟩
    exact (Ty.named.inj htypes).symm
  · rintro rfl
    exact hself.symm

/-- A class is none of the primitives. -/
theorem primitive?_of_isClass {i : Interner} {t : TypeId} (h : i.isClass t = true) :
    i.primitive? t = none := by
  unfold isClass className? at h
  unfold primitive?
  split at h
  · next hl => rw [hl]
  · cases h

/-- A class wraps itself. -/
theorem boxed_of_isClass {i : Interner} {t : TypeId} (h : i.isClass t = true) :
    i.boxed t = t := by
  unfold boxed
  rw [primitive?_of_isClass h]
  rfl

/-- A class is numeric only as one of the fixed numeric classes. -/
theorem isNumeric_of_isClass {i : Interner} {t : TypeId} (h : i.isClass t = true) :
    i.isNumeric t = t.isNumericClass := by
  unfold isNumeric
  rw [primitive?_of_isClass h]
  exact Bool.or_false _

/-- What a class stands for. -/
theorem exists_lookup?_of_isClass {i : Interner} {t : TypeId} (h : i.isClass t = true) :
    ∃ name, i.lookup? t = some (.named name) := by
  unfold isClass className? at h
  split at h
  · next name hl => exact ⟨name, hl⟩
  · cases h

/-- The number of a fixed type that is no class stands for no class. -/
theorem Grown.ne_of_isClass {i : Interner} (hi : i.Grown) {t fixed : TypeId}
    (hf : ∃ type, initial.lookup? fixed = some type ∧ ∀ name, type ≠ .named name)
    (h : i.isClass t = true) : t ≠ fixed := by
  rintro rfl
  obtain ⟨type, hl, hn⟩ := hf
  obtain ⟨name, hname⟩ := exists_lookup?_of_isClass h
  have hfix : i.lookup? t = some type := hi.extends_initial _ _ hl
  exact hn name (Option.some.inj (hfix.symm.trans hname))

/-- The number of a primitive stands for no class. -/
theorem Grown.ne_typeId_of_isClass {i : Interner} (hi : i.Grown) {t : TypeId}
    (h : i.isClass t = true) (p : Primitive) : t ≠ p.typeId := by
  have hl : initial.lookup? p.typeId = some (.primitive p) :=
    (lookup?_initial p.typeId).trans (fixedTypes_typeId p)
  exact hi.ne_of_isClass ⟨_, hl, fun _ hn => by cases hn⟩ h

/-! ## Arrays -/

/-- A number has elements if it stands for an array of them. -/
theorem element?_eq_some_iff {i : Interner} {t element : TypeId} :
    i.element? t = some element ↔ i.lookup? t = some (.array element) := by
  unfold element?
  constructor
  · intro h
    split at h
    · next hl => rw [hl, Option.some.inj h]
    · cases h
  · intro h
    rw [h]

/-- A fixed number stands for one of the fixed types from the start. -/
theorem exists_of_isFixed {t : TypeId} (h : TypeId.isFixed t = true) :
    ∃ type ∈ fixedTypes, initial.lookup? t = some type := by
  have hlt : t < fixedTypes.length := by
    rw [length_fixedTypes]
    exact of_decide_eq_true h
  exact ⟨fixedTypes[t], List.getElem_mem hlt,
    (lookup?_initial t).trans (List.getElem?_eq_getElem hlt)⟩

/-- The elements of an array stay what they are. -/
theorem Extends.element? {i j : Interner} (he : i.Extends j) {t element : TypeId}
    (h : i.element? t = some element) : j.element? t = some element :=
  element?_eq_some_iff.mpr (he t _ (element?_eq_some_iff.mp h))

end ScriptCheck.Interner
