/-
  Primitives and the classes that wrap them.

  The cascade of assignability asks a primitive and a class different questions,
  so that a value and its wrapper could be treated differently. As targets they
  never are: both take everything that `fitsNumber` takes, or everything if they
  are truth values. As sources they differ in two places only, which are the
  ones that ask the hierarchy about a class but refuse a primitive without
  asking: an array takes a wrapper that is a collection, and a number takes
  `Boolean` if the class of numbers is one.

  `isAssignable_source_iff` says that there are no others, and
  `isAssignable_boxed` that a primitive and its wrapper are treated alike as
  long as no wrapper is a collection and no class of numbers derives from
  `Boolean`.
-/
import ScriptCheck.Proofs.Types.Acyclicity
import ScriptCheck.Proofs.Types.ArrayAssignability
import ScriptCheck.Proofs.Types.ClassAssignability

namespace ScriptCheck

namespace Hierarchy

/-- The hierarchies that the standard one grows to when classes and supertypes are added. -/
inductive Grown : Hierarchy → Prop
  | start : Grown standard
  | addClass {h : Hierarchy} (hh : Grown h) (cls : TypeId) : Grown (h.addClass cls)
  | addParents {h : Hierarchy} (hh : Grown h) (cls : TypeId) (parents : List TypeId) :
    Grown (h.addParents cls parents)

theorem grows_addClass (h : Hierarchy) (cls : TypeId) : h.Grows (h.addClass cls) :=
  grows_addParents h cls []

theorem Grown.grows {h : Hierarchy} (hh : h.Grown) : standard.Grows h := by
  induction hh with
  | start => exact Grows.refl standard
  | addClass _ cls ih => exact ih.trans (grows_addClass _ cls)
  | addParents _ cls parents ih => exact ih.trans (grows_addParents _ cls parents)

/-- Everything but `void` is wrapped by a class that is known from the start. -/
theorem Grown.isKnown_of_boxed? {h : Hierarchy} (hh : h.Grown) {p : Primitive} {wrapper : TypeId}
    (hw : p.boxed? = some wrapper) : h.isKnown wrapper = true := by
  have hstart : standard.isKnown wrapper = true := by
    cases p <;> cases hw <;> decide
  exact hh.grows.isKnown hstart

end Hierarchy

namespace Primitive

variable {p : Primitive} {wrapper : TypeId}

theorem exists_boxed? (hp : p ≠ .void) : ∃ wrapper, p.boxed? = some wrapper := by
  cases p with
  | void => exact absurd rfl hp
  | _ => exact ⟨_, rfl⟩

/-- Neither a primitive that is wrapped nor its wrapper is one of the types asked for first. -/
theorem ne_of_boxed? (hw : p.boxed? = some wrapper) : ∀ t ∈ [p.typeId, wrapper],
    t ≠ TypeId.void ∧ t ≠ TypeId.null ∧ t ≠ TypeId.object := by
  cases p <;> cases hw <;> decide

theorem mem_fixedClasses_of_boxed? (hw : p.boxed? = some wrapper) :
    wrapper ∈ fixedClasses.map Prod.fst := by
  cases p <;> cases hw <;> decide

/-- A wrapper is one of the numeric classes if it wraps numbers. -/
theorem isNumericClass_of_boxed? (hw : p.boxed? = some wrapper) :
    wrapper.isNumericClass = p.isNumeric := by
  cases p <;> cases hw <;> rfl

theorem isNumericClass_typeId (p : Primitive) : p.typeId.isNumericClass = false := by
  cases p <;> rfl

/-- What is wrapped and is no number is a truth value. -/
theorem eq_boolean_of_boxed? (hw : p.boxed? = some wrapper) (hn : p.isNumeric = false) :
    p = .boolean ∧ wrapper = TypeId.boxedBoolean := by
  cases p with
  | boolean => exact ⟨rfl, (Option.some.inj hw).symm⟩
  | void => cases hw
  | _ => cases hn

/-- Characters are wrapped by `Character` and nothing else is. -/
theorem isChar_iff_of_boxed? (hw : p.boxed? = some wrapper) :
    (p.typeId = TypeId.char ∨ p.typeId = TypeId.character) ↔
      (wrapper = TypeId.char ∨ wrapper = TypeId.character) := by
  cases p <;> cases hw <;> decide

end Primitive

namespace Interner

variable {i : Interner} {p : Primitive} {wrapper : TypeId}

theorem Grown.primitive?_typeId (hi : i.Grown) (p : Primitive) :
    i.primitive? p.typeId = some p := by
  unfold primitive?
  rw [hi.keepsFixed.primitive p]

/-- A primitive is wrapped by its class under any interner. -/
theorem Grown.boxed_typeId (hi : i.Grown) (hw : p.boxed? = some wrapper) :
    i.boxed p.typeId = wrapper := by
  unfold boxed
  rw [hi.primitive?_typeId p, Option.bind_some, hw]
  rfl

theorem Grown.isNumeric_typeId (hi : i.Grown) (p : Primitive) :
    i.isNumeric p.typeId = p.isNumeric := by
  unfold isNumeric
  rw [hi.primitive?_typeId p, p.isNumericClass_typeId]
  rfl

theorem Grown.isClass_typeId (hi : i.Grown) (p : Primitive) : i.isClass p.typeId = false := by
  unfold isClass className?
  rw [hi.keepsFixed.primitive p]
  rfl

theorem Grown.isClass_of_boxed? (hi : i.Grown) (hw : p.boxed? = some wrapper) :
    i.isClass wrapper = true :=
  isClass_iff.mpr (hi.exists_lookup?_of_mem_fixedClasses (Primitive.mem_fixedClasses_of_boxed? hw))

theorem Grown.isNumeric_of_boxed? (hi : i.Grown) (hw : p.boxed? = some wrapper) :
    i.isNumeric wrapper = p.isNumeric :=
  (isNumeric_of_isClass (hi.isClass_of_boxed? hw)).trans (Primitive.isNumericClass_of_boxed? hw)

theorem primitive?_eq_some_iff {t : TypeId} :
    i.primitive? t = some p ↔ i.lookup? t = some (.primitive p) := by
  unfold primitive?
  constructor
  · intro h
    split at h
    · next hl => rw [hl, Option.some.inj h]
    · cases h
  · intro h
    rw [h]

/-- A numeric type is a primitive that holds numbers, or one of the numeric classes. -/
theorem Grown.numeric_cases (hi : i.Grown) {t : TypeId} (hn : i.isNumeric t = true) :
    (∃ (q : Primitive) (wrapper : TypeId), t = q.typeId ∧ q.isNumeric = true ∧
        q.boxed? = some wrapper) ∨
      (i.isClass t = true ∧ t.isNumericClass = true) := by
  have hfixed : ∀ c ∈ TypeId.numericClasses, c ∈ fixedClasses.map Prod.fst := by decide
  unfold isNumeric at hn
  rcases Bool.or_eq_true_iff.mp hn with hclass | hprimitive
  · have hmem : t ∈ TypeId.numericClasses := List.contains_iff_mem.mp hclass
    exact .inr ⟨isClass_iff.mpr (hi.exists_lookup?_of_mem_fixedClasses (hfixed t hmem)), hclass⟩
  · obtain ⟨q, hq, hqn⟩ := (Option.any_eq_true _ _).mp hprimitive
    have hl : i.lookup? t = some (.primitive q) := primitive?_eq_some_iff.mp hq
    obtain ⟨wrapper, hw⟩ := Primitive.exists_boxed? (p := q) (by rintro rfl; cases hqn)
    exact .inl ⟨q, wrapper, hi.eq_of_lookup? hl (hi.keepsFixed.primitive q), hqn, hw⟩

/-- The class by which a numeric type is compared is one of the numeric classes. -/
theorem Grown.isNumericClass_boxed (hi : i.Grown) {t : TypeId} (hn : i.isNumeric t = true) :
    (i.boxed t).isNumericClass = true := by
  rcases hi.numeric_cases hn with ⟨q, wrapper, rfl, hq, hw⟩ | ⟨hclass, hnum⟩
  · rw [hi.boxed_typeId hw, Primitive.isNumericClass_of_boxed? hw, hq]
  · rw [boxed_of_isClass hclass, hnum]

end Interner

namespace TypeWorld

section

variable {i : Interner} {h : Hierarchy} {p : Primitive} {wrapper target source : TypeId}

/-! ## As targets -/

/-- A numeric target asks one question of everything that has a type. -/
theorem isAssignable_of_isNumeric (hi : i.Grown) (hn : i.isNumeric target = true) :
    (TypeWorld.mk i h).isAssignable target source =
      (source = TypeId.null || source = TypeId.void || (i.lookup? source).isNone ||
        (TypeWorld.mk i h).fitsNumber target source) := by
  obtain ⟨type, hl, hv, ho⟩ : ∃ type, i.lookup? target = some type ∧ target ≠ TypeId.void ∧
      target ≠ TypeId.object := by
    rcases hi.numeric_cases hn with ⟨q, wrapper, rfl, -, hw⟩ | ⟨hclass, hnum⟩
    · obtain ⟨hv, -, ho⟩ := Primitive.ne_of_boxed? hw q.typeId List.mem_cons_self
      exact ⟨_, hi.keepsFixed.primitive q, hv, ho⟩
    · obtain ⟨name, hl⟩ := Interner.exists_lookup?_of_isClass hclass
      refine ⟨_, hl, hi.ne_typeId_of_isClass hclass .void, ?_⟩
      rintro rfl
      cases hnum
  by_cases hne : target = source
  · subst hne
    have hself : (TypeWorld.mk i h).fitsNumber target target = true := by
      unfold fitsNumber
      simp only [hn, Bool.true_or]
    rw [isAssignable_self, hself, Bool.or_true]
  · unfold isAssignable
    simp only [hne, hv, ho, hn, hl, if_false, if_true, decide_false, Bool.or_false]
    cases hnone : decide (source = TypeId.null) || decide (source = TypeId.void) with
    | true => rfl
    | false => cases hs : i.lookup? source <;> rfl

/-- Everything is a truth value, also wrapped. -/
theorem isAssignable_truth (hi : i.Grown)
    (ht : target = TypeId.boolean ∨ target = TypeId.boxedBoolean) :
    (TypeWorld.mk i h).isAssignable target source = true := by
  have hv : target ≠ TypeId.void := by
    rcases ht with rfl | rfl <;> decide
  have hnum : i.isNumeric target = false := by
    rcases ht with rfl | rfl
    · exact hi.isNumeric_typeId .boolean
    · exact hi.isNumeric_of_boxed? (p := .boolean) rfl
  have hall : (target = TypeId.string || target = TypeId.boolean ||
      target = TypeId.boxedBoolean) = true := by
    rcases ht with rfl | rfl <;> decide
  unfold isAssignable
  simp only [hv, hnum, hall, if_false, if_true, Bool.false_eq_true]
  split
  · rfl
  · split
    · rfl
    · split <;> rfl

/-- A primitive that holds numbers and its wrapper take the same numbers. -/
theorem fitsNumber_target (hi : i.Grown) (hw : p.boxed? = some wrapper) :
    (TypeWorld.mk i h).fitsNumber p.typeId source =
      (TypeWorld.mk i h).fitsNumber wrapper source := by
  have hself : i.boxed wrapper = wrapper := Interner.boxed_of_isClass (hi.isClass_of_boxed? hw)
  unfold fitsNumber
  simp only [hi.boxed_typeId hw, hself, ← Bool.decide_or, Primitive.isChar_iff_of_boxed? hw]

theorem isAssignable_target (hi : i.Grown) (hw : p.boxed? = some wrapper) :
    (TypeWorld.mk i h).isAssignable p.typeId source =
      (TypeWorld.mk i h).isAssignable wrapper source := by
  cases hnum : p.isNumeric with
  | true =>
    have hpn : i.isNumeric p.typeId = true := (hi.isNumeric_typeId p).trans hnum
    have hwn : i.isNumeric wrapper = true := (hi.isNumeric_of_boxed? hw).trans hnum
    rw [isAssignable_of_isNumeric hi hpn, isAssignable_of_isNumeric hi hwn, fitsNumber_target hi hw]
  | false =>
    obtain ⟨rfl, rfl⟩ := Primitive.eq_boolean_of_boxed? hw hnum
    exact (isAssignable_truth hi (.inl rfl)).trans (isAssignable_truth hi (.inr rfl)).symm

/-! ## As sources -/

/-- No number is a truth value. -/
theorem fitsNumber_boolean (hi : i.Grown) :
    (TypeWorld.mk i h).fitsNumber target TypeId.boolean = false := by
  have hnum : i.isNumeric TypeId.boolean = false := hi.isNumeric_typeId .boolean
  have hclass : i.isClass TypeId.boolean = false := hi.isClass_typeId .boolean
  have htext : ¬(TypeId.boolean = TypeId.string ∨ TypeId.boolean = TypeId.gString) := by decide
  unfold fitsNumber
  simp only [hnum, hclass, ← Bool.decide_or, htext, decide_false, Bool.and_false, Bool.false_and,
    Bool.or_false]

/-- A wrapped truth value may be a number of a class below `Boolean`. -/
theorem fitsNumber_boxedBoolean (hi : i.Grown) (hh : h.Grown) :
    (TypeWorld.mk i h).fitsNumber target TypeId.boxedBoolean =
      h.isDerivedFrom (i.boxed target) TypeId.boxedBoolean := by
  have hw : Primitive.boolean.boxed? = some TypeId.boxedBoolean := rfl
  have hnum : i.isNumeric TypeId.boxedBoolean = false := hi.isNumeric_of_boxed? hw
  have hclass : i.isClass TypeId.boxedBoolean = true := hi.isClass_of_boxed? hw
  have hknown : h.isKnown TypeId.boxedBoolean = true := hh.isKnown_of_boxed? hw
  have htext : ¬(TypeId.boxedBoolean = TypeId.string ∨ TypeId.boxedBoolean = TypeId.gString) := by
    decide
  unfold fitsNumber
  simp only [hnum, hclass, hknown, ← Bool.decide_or, htext, decide_false, Bool.and_false,
    Bool.not_true, Bool.false_or, Bool.true_and]

/-- No array comes from a primitive. -/
theorem fitsArray_typeId (hi : i.Grown) (p : Primitive) :
    (TypeWorld.mk i h).fitsArray p.typeId = false := by
  unfold fitsArray
  simp only [hi.isClass_typeId p, Bool.false_and]

/-- An array comes from a wrapper only as from a collection. -/
theorem fitsArray_of_boxed? (hi : i.Grown) (hh : h.Grown) (hw : p.boxed? = some wrapper) :
    (TypeWorld.mk i h).fitsArray wrapper = h.isDerivedFrom wrapper TypeId.collection := by
  have hclass : i.isClass wrapper = true := hi.isClass_of_boxed? hw
  have hknown : h.isKnown wrapper = true := hh.isKnown_of_boxed? hw
  obtain ⟨hobject, hcloneable, hserializable⟩ : wrapper ≠ TypeId.object ∧
      wrapper ≠ TypeId.cloneable ∧ wrapper ≠ TypeId.serializable := by
    cases p <;> cases hw <;> decide
  unfold fitsArray
  simp only [hclass, hknown, hobject, hcloneable, hserializable, decide_false, Bool.or_false,
    Bool.not_true, Bool.false_or, Bool.true_and]

/-- What is no number takes classes as it takes what they wrap. -/
theorem fitsClass_source (hi : i.Grown) (hw : p.boxed? = some wrapper) :
    (TypeWorld.mk i h).fitsClass target p.typeId =
      (TypeWorld.mk i h).fitsClass target wrapper := by
  have hself : i.boxed wrapper = wrapper := Interner.boxed_of_isClass (hi.isClass_of_boxed? hw)
  unfold fitsClass
  simp only [hi.boxed_typeId hw, hself]

/-- What is neither a number nor an array takes a primitive and its wrapper alike. -/
theorem isAssignable_source_of_other (hi : i.Grown) (hw : p.boxed? = some wrapper)
    (hn : i.isNumeric target = false) (harray : i.element? target = none) :
    (TypeWorld.mk i h).isAssignable target p.typeId =
      (TypeWorld.mk i h).isAssignable target wrapper := by
  -- Into a target that is one of the two, both go.
  by_cases hpne : target = p.typeId
  · rw [hpne, isAssignable_self, isAssignable_target hi hw, isAssignable_self]
  by_cases hwne : target = wrapper
  · rw [hwne, isAssignable_self, ← isAssignable_target hi hw, isAssignable_self]
  have happart := Primitive.ne_of_boxed? hw
  obtain ⟨hpv, hpn, -⟩ := happart p.typeId List.mem_cons_self
  obtain ⟨hwv, hwn, -⟩ := happart wrapper (List.mem_cons_of_mem _ List.mem_cons_self)
  obtain ⟨name, hlw⟩ := Interner.exists_lookup?_of_isClass (hi.isClass_of_boxed? hw)
  have hlp : i.lookup? p.typeId = some (.primitive p) := hi.keepsFixed.primitive p
  unfold isAssignable
  simp only [hpne, hwne, hpv, hpn, hwv, hwn, hlp, hlw, hn, if_false, decide_false, Bool.false_or,
    Bool.false_eq_true]
  cases hl : i.lookup? target with
  | none => rfl
  | some type =>
    cases type with
    | array element =>
      rw [Interner.element?_eq_some_iff.mpr hl] at harray
      cases harray
    | primitive q => rfl
    | null => simp only [fitsClass_source hi hw]
    | named other => simp only [fitsClass_source hi hw]

/-- A number takes a primitive and not its wrapper, or the other way around, only if its class
    derives from `Boolean`. -/
theorem isAssignable_source_iff_of_isNumeric (hi : i.Grown) (hh : h.Grown)
    (hw : p.boxed? = some wrapper) (hn : i.isNumeric target = true) :
    (TypeWorld.mk i h).isAssignable target p.typeId =
        (TypeWorld.mk i h).isAssignable target wrapper ↔
      ¬(p = .boolean ∧ h.isDerivedFrom (i.boxed target) TypeId.boxedBoolean = true) := by
  have happart := Primitive.ne_of_boxed? hw
  obtain ⟨hpv, hpn, -⟩ := happart p.typeId List.mem_cons_self
  obtain ⟨hwv, hwn, -⟩ := happart wrapper (List.mem_cons_of_mem _ List.mem_cons_self)
  obtain ⟨name, hlw⟩ := Interner.exists_lookup?_of_isClass (hi.isClass_of_boxed? hw)
  have hlp : i.lookup? p.typeId = some (.primitive p) := hi.keepsFixed.primitive p
  simp only [isAssignable_of_isNumeric hi hn, hpv, hpn, hwv, hwn, hlp, hlw, decide_false,
    Option.isNone_some, Bool.false_or]
  cases hnum : p.isNumeric with
  | true =>
    have hboth : (TypeWorld.mk i h).fitsNumber target p.typeId =
        (TypeWorld.mk i h).fitsNumber target wrapper := by
      unfold fitsNumber
      simp only [hi.isNumeric_typeId p, hi.isNumeric_of_boxed? hw, hnum, Bool.true_or]
    refine iff_of_true hboth ?_
    rintro ⟨rfl, -⟩
    cases hnum
  | false =>
    obtain ⟨rfl, rfl⟩ := Primitive.eq_boolean_of_boxed? hw hnum
    have hflag : (TypeWorld.mk i h).fitsNumber target Primitive.boolean.typeId = false :=
      fitsNumber_boolean hi
    rw [hflag, fitsNumber_boxedBoolean hi hh, eq_comm, Bool.eq_false_iff]
    simp only [true_and]

/-- The two places in which a target may take a wrapper and not the primitive. -/
theorem isAssignable_source_iff (hi : i.Grown) (hh : h.Grown) (hw : p.boxed? = some wrapper) :
    (TypeWorld.mk i h).isAssignable target p.typeId =
        (TypeWorld.mk i h).isAssignable target wrapper ↔
      ¬((i.element? target).isSome = true ∧ h.isDerivedFrom wrapper TypeId.collection = true) ∧
      ¬(p = .boolean ∧ i.isNumeric target = true ∧
        h.isDerivedFrom (i.boxed target) TypeId.boxedBoolean = true) := by
  cases hnum : i.isNumeric target with
  | true =>
    have harray : i.element? target = none := by
      by_contra hsome
      obtain ⟨t, ht⟩ := Option.ne_none_iff_exists'.mp hsome
      rw [hi.isNumeric_of_element? ht] at hnum
      cases hnum
    rw [isAssignable_source_iff_of_isNumeric hi hh hw hnum, harray]
    simp only [Option.isSome_none, Bool.false_eq_true, false_and, not_false_eq_true, true_and]
  | false =>
    cases harray : i.element? target with
    | none =>
      refine iff_of_true (isAssignable_source_of_other hi hw hnum harray) ⟨?_, ?_⟩
      · exact fun hboth => absurd hboth.1 (by decide)
      · exact fun hall => absurd hall.2.1 (by decide)
    | some t =>
      obtain ⟨hv, hn, -⟩ := Primitive.ne_of_boxed? hw p.typeId List.mem_cons_self
      have hlp : i.lookup? p.typeId = some (.primitive p) := hi.keepsFixed.primitive p
      have hbase : i.IsBase p.typeId := ⟨_, hlp, fun _ heq => by cases heq⟩
      have hprimitive : (TypeWorld.mk i h).isAssignable target p.typeId = false :=
        (isAssignable_of_array hi harray hlp hn hv (hbase.ne_of_element? harray).symm).trans
          (fitsArray_typeId hi p)
      rw [hprimitive, isAssignable_of_array_of_class hi harray (hi.isClass_of_boxed? hw),
        fitsArray_of_boxed? hi hh hw, eq_comm, Bool.eq_false_iff]
      simp only [Option.isSome_some, true_and, Bool.false_eq_true, false_and, and_false,
        not_false_eq_true, and_true]

/-- A hierarchy in which `BigDecimal` derives from `Boolean` lets it take the class and not the
    primitive. -/
example :
    let w : TypeWorld := ⟨.initial, Hierarchy.standard.addParents TypeId.bigDecimal
      [TypeId.boxedBoolean]⟩
    w.isAssignable TypeId.bigDecimal TypeId.boxedBoolean = true ∧
      w.isAssignable TypeId.bigDecimal TypeId.boolean = false := by
  decide +kernel

/-- A primitive and the class that wraps it take the same values. They also go into the same targets
    as long as no wrapper is a collection and no class of numbers derives from `Boolean`. -/
theorem isAssignable_boxed (hi : i.Grown) (hh : h.Grown) (hp : p ≠ .void) :
    ∃ wrapper, p.boxed? = some wrapper ∧ i.boxed p.typeId = wrapper ∧
      (∀ source, (TypeWorld.mk i h).isAssignable p.typeId source =
        (TypeWorld.mk i h).isAssignable wrapper source) ∧
      ((∀ (q : Primitive) (c : TypeId), q.boxed? = some c →
          h.isDerivedFrom c TypeId.collection = false) →
        (∀ c, c.isNumericClass = true → h.isDerivedFrom c TypeId.boxedBoolean = false) →
        ∀ target, (TypeWorld.mk i h).isAssignable target p.typeId =
          (TypeWorld.mk i h).isAssignable target wrapper) := by
  obtain ⟨wrapper, hw⟩ := Primitive.exists_boxed? hp
  refine ⟨wrapper, hw, hi.boxed_typeId hw, fun source => isAssignable_target hi hw, ?_⟩
  intro hcollection hflag target
  refine (isAssignable_source_iff hi hh hw).mpr ⟨?_, ?_⟩
  · rintro ⟨-, hderived⟩
    rw [hcollection p wrapper hw] at hderived
    cases hderived
  · rintro ⟨-, hn, hderived⟩
    rw [hflag _ (hi.isNumericClass_boxed hn)] at hderived
    cases hderived

/-- A program that derives a class from `Number` leaves `int` and `Integer` alike. -/
theorem isAssignable_int_integer_money :
    (∀ source, (TypeWorld.mk moneyTypes moneyHierarchy).isAssignable TypeId.int source =
        (TypeWorld.mk moneyTypes moneyHierarchy).isAssignable TypeId.integer source) ∧
      ∀ target, (TypeWorld.mk moneyTypes moneyHierarchy).isAssignable target TypeId.int =
        (TypeWorld.mk moneyTypes moneyHierarchy).isAssignable target TypeId.integer := by
  have hgrown : moneyHierarchy.Grown := .addParents .start money [TypeId.number]
  have hcollection : ∀ (q : Primitive) (c : TypeId), q.boxed? = some c →
      moneyHierarchy.isDerivedFrom c TypeId.collection = false := by
    intro q c hq
    cases q <;> cases hq <;> decide +kernel
  have hnumbers : ∀ c ∈ TypeId.numericClasses,
      moneyHierarchy.isDerivedFrom c TypeId.boxedBoolean = false := by
    decide +kernel
  obtain ⟨wrapper, hw, -, htargets, hsources⟩ :=
    isAssignable_boxed (p := .int) (i := moneyTypes) (.ask .start _) hgrown (by decide)
  obtain rfl : TypeId.integer = wrapper := Option.some.inj hw
  exact ⟨htargets, hsources hcollection fun c hc => hnumbers c (List.contains_iff_mem.mp hc)⟩

end

end TypeWorld

end ScriptCheck
