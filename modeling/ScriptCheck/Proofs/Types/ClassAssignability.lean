/-
  Assignments between classes of one line of descent.

  A value should go into a variable of a class above its own, and of a class
  below its own it may be one. `isAssignable_iff_of_derives` says when that is
  so: always, unless the variable is of one of the fixed numeric classes. These
  take the classes above them, but of those below them only the ones that are
  fixed numeric classes too. A class that a program derives from `Number` is
  turned away, which `number_turns_subclass_away` shows.
-/
import ScriptCheck.Proofs.Types.Derivation
import ScriptCheck.Proofs.Types.Numbering
import ScriptCheck.Types.Assignability

namespace ScriptCheck.TypeWorld

/-- The reasons for which a numeric class does not take a value of another class: the other one is
    no fixed numeric class, is not read as a character and is not above the numeric class. -/
def TurnsAway (h : Hierarchy) (target source : TypeId) : Prop :=
  target.isNumericClass = true ∧ source.isNumericClass = false ∧
    ¬(target = TypeId.character ∧ (source = TypeId.string ∨ source = TypeId.gString)) ∧
    ¬h.Derives target source

/-- Every value goes where a value of its own type is expected. -/
theorem isAssignable_self (w : TypeWorld) (t : TypeId) : w.isAssignable t t = true := by
  unfold isAssignable
  rw [if_pos rfl]

/-- Everything goes into the root class. -/
theorem isAssignable_object (w : TypeWorld) (source : TypeId) :
    w.isAssignable TypeId.object source = true := by
  have hv : ¬TypeId.object = TypeId.void := by decide
  unfold isAssignable
  simp only [hv, if_false, decide_true, Bool.or_true, if_true, ite_self]

section

variable {i : Interner} {h : Hierarchy} {target source : TypeId}

/-! ## What is left of the cascade for classes -/

/-- Between different classes, the root class apart, a fixed numeric class asks for a number,
    strings and `Boolean` take everything, and any other class asks the hierarchy. -/
theorem isAssignable_of_isClass (hi : i.Grown) (ht : i.isClass target = true)
    (hs : i.isClass source = true) (hne : target ≠ source) (hobj : target ≠ TypeId.object) :
    (TypeWorld.mk i h).isAssignable target source =
      if target.isNumericClass then (TypeWorld.mk i h).fitsNumber target source
      else if target = TypeId.string ∨ target = TypeId.boxedBoolean then true
      else (TypeWorld.mk i h).fitsClass target source := by
  have htv : target ≠ TypeId.void := hi.ne_typeId_of_isClass ht .void
  have htb : target ≠ TypeId.boolean := hi.ne_typeId_of_isClass ht .boolean
  have hsv : source ≠ TypeId.void := hi.ne_typeId_of_isClass hs .void
  have hsn : source ≠ TypeId.null := hi.ne_of_isClass ⟨.null, rfl, fun _ hn => by cases hn⟩ hs
  obtain ⟨targetName, hlt⟩ := Interner.exists_lookup?_of_isClass ht
  obtain ⟨sourceName, hls⟩ := Interner.exists_lookup?_of_isClass hs
  unfold isAssignable
  simp only [hne, htv, hsn, hsv, hobj, htb, hlt, hls, Interner.isNumeric_of_isClass ht, if_false,
    decide_false, Bool.or_false, Bool.or_eq_true, decide_eq_true_eq, Bool.false_eq_true]

/-- A fixed numeric class takes the fixed numeric classes, strings if it is `Character`, what is
    unknown and what is above it. -/
theorem fitsNumber_iff_of_isClass (ht : i.isClass target = true) (hs : i.isClass source = true)
    (known : h.isKnown source = true) (hset : h.Settled) :
    (TypeWorld.mk i h).fitsNumber target source = true ↔
      source.isNumericClass = true ∨
        ((target = TypeId.char ∨ target = TypeId.character) ∧
          (source = TypeId.string ∨ source = TypeId.gString)) ∨
        h.Derives target source := by
  unfold fitsNumber
  simp only [Interner.isNumeric_of_isClass hs, Interner.boxed_of_isClass ht, hs, known,
    Bool.or_eq_true, Bool.and_eq_true, decide_eq_true_eq, Bool.not_true, Bool.false_or,
    Bool.true_and, Hierarchy.isDerivedFrom_iff (hset target source), or_assoc]

/-- A class that is not numeric takes every class that it is related to. -/
theorem fitsClass_of_areRelated (hs : i.isClass source = true)
    (hrel : (TypeWorld.mk i h).areRelated target source = true) :
    (TypeWorld.mk i h).fitsClass target source = true := by
  have hboxed : (TypeWorld.mk i h).types.boxed source = source := Interner.boxed_of_isClass hs
  unfold fitsClass
  simp only [hboxed, hrel, Bool.or_true]

/-- A class that is not numeric takes every class above or below it. -/
theorem fitsClass_of_derives (hs : i.isClass source = true) (hset : h.Settled)
    (hrel : h.Derives source target ∨ h.Derives target source) :
    (TypeWorld.mk i h).fitsClass target source = true := by
  refine fitsClass_of_areRelated hs ?_
  unfold areRelated
  rcases hrel with hd | hd
  · have hup := (Hierarchy.isDerivedFrom_iff (hset source target)).mpr hd
    rw [Bool.or_eq_true, Bool.or_eq_true]
    exact Or.inl (Or.inr hup)
  · have hdown := (Hierarchy.isDerivedFrom_iff (hset target source)).mpr hd
    rw [Bool.or_eq_true]
    exact Or.inr hdown

/-! ## Up and down the hierarchy -/

/-- Between known classes one of which derives from the other, an assignment is possible unless a
    fixed numeric class turns the other one away. -/
theorem isAssignable_iff_of_derives (hi : i.Grown) (hset : h.Settled)
    (ht : i.isClass target = true) (hs : i.isClass source = true)
    (targetKnown : h.isKnown target = true) (sourceKnown : h.isKnown source = true)
    (hrel : h.Derives source target ∨ h.Derives target source) :
    (TypeWorld.mk i h).isAssignable target source = true ↔ ¬TurnsAway h target source := by
  -- The cascade settles equal classes and the root class before it asks anything else.
  by_cases hne : target = source
  · subst hne
    exact iff_of_true (isAssignable_self _ target) fun hn => hn.2.2.2 (Or.inl rfl)
  by_cases hobj : target = TypeId.object
  · subst hobj
    exact iff_of_true (isAssignable_object _ source) fun hn => absurd hn.1 (by decide)
  rw [isAssignable_of_isClass hi ht hs hne hobj]
  have hchar : target ≠ TypeId.char := hi.ne_typeId_of_isClass ht .char
  by_cases hnum : target.isNumericClass = true
  · rw [if_pos hnum, fitsNumber_iff_of_isClass ht hs sourceKnown hset]
    unfold TurnsAway
    simp only [hnum, hchar, false_or, true_and, not_and, Classical.not_not]
    constructor
    · rintro (hn | hc | hd) hns hnc
      · rw [hns] at hn
        cases hn
      · exact absurd hc.2 (hnc hc.1)
      · exact hd
    · intro hall
      by_cases hn : source.isNumericClass = true
      · exact Or.inl hn
      by_cases hc : target = TypeId.character ∧ (source = TypeId.string ∨ source = TypeId.gString)
      · exact Or.inr (Or.inl hc)
      · refine Or.inr (Or.inr (hall (by simpa using hn) fun h1 h2 => hc ⟨h1, h2⟩))
  · rw [if_neg hnum]
    refine iff_of_true ?_ fun hn => hnum hn.1
    split
    · rfl
    · exact fitsClass_of_derives hs hset hrel

end

/-! ## A class below `Number` -/

/-- The types of a program that has a class of its own. -/
def moneyTypes : Interner := (Interner.initial.named "app.Money").2

/-- The number of that class. -/
def money : TypeId := 35

/-- The hierarchy in which the class derives from `Number`. -/
def moneyHierarchy : Hierarchy := Hierarchy.standard.addParents money [TypeId.number]

theorem settled_moneyHierarchy : moneyHierarchy.Settled :=
  Hierarchy.settled_of_parentEntries_lt (by decide)

/-- Downwards, from `Number` to the class below it, an assignment is possible. -/
theorem isAssignable_money_number :
    moneyHierarchy.Derives money TypeId.number ∧
      (TypeWorld.mk moneyTypes moneyHierarchy).isAssignable money TypeId.number = true := by
  have hrel : moneyHierarchy.Derives money TypeId.number :=
    Hierarchy.derives_of_isDerivedFrom (by decide)
  have hiff : (TypeWorld.mk moneyTypes moneyHierarchy).isAssignable money TypeId.number = true ↔
      ¬TurnsAway moneyHierarchy money TypeId.number :=
    isAssignable_iff_of_derives (.ask .start _) settled_moneyHierarchy (by decide +kernel)
      (by decide +kernel) (by decide) (by decide) (Or.inr hrel)
  exact ⟨hrel, hiff.mpr fun hn => absurd hn.1 (by decide)⟩

/-- Not every assignment up the hierarchy is possible: `Number` turns away a class that a program
    derives from it. -/
theorem number_turns_subclass_away :
    ¬∀ (i : Interner) (h : Hierarchy), i.Grown → h.Settled → ∀ target source,
      i.isClass target = true → i.isClass source = true → h.isKnown target = true →
      h.isKnown source = true → (h.Derives source target ∨ h.Derives target source) →
      (TypeWorld.mk i h).isAssignable target source = true := by
  intro hall
  have hrel : moneyHierarchy.Derives money TypeId.number :=
    Hierarchy.derives_of_isDerivedFrom (by decide)
  have hyes := hall moneyTypes moneyHierarchy (.ask .start _) settled_moneyHierarchy
    TypeId.number money (by decide +kernel) (by decide +kernel) (by decide) (by decide)
    (Or.inl hrel)
  have hno : (TypeWorld.mk moneyTypes moneyHierarchy).isAssignable TypeId.number money = false := by
    decide +kernel
  rw [hno] at hyes
  cases hyes

end ScriptCheck.TypeWorld
