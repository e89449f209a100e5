/-
  Two numberings that grew out of one.

  The numbers that types get depend on the order in which they are asked for.
  Twins are two numberings that continue the same one; `Same` relates a number
  of the left one to a number of the right one if both stand for the same type,
  where arrays are compared by their elements. The relation matches numbers one
  to one, is kept as the twins grow, and leaves alone what was numbered before.
-/
import ScriptCheck.Proofs.Types.Numbering

namespace ScriptCheck

namespace Interner

/-- A number stands for a type, and so does, if it is an array, that of its elements. -/
inductive Interned (i : Interner) : TypeId → Prop
  | leaf {t : TypeId} {type : Ty} (h : i.lookup? t = some type) (hleaf : ∀ e, type ≠ .array e) :
    Interned i t
  | array {t element : TypeId} (h : i.lookup? t = some (.array element))
    (helement : Interned i element) : Interned i t

/-- A number of `i` and a number of `j` stand for the same type. -/
inductive Same (i j : Interner) : TypeId → TypeId → Prop
  | leaf {a b : TypeId} {type : Ty} (ha : i.lookup? a = some type) (hb : j.lookup? b = some type)
    (hleaf : ∀ e, type ≠ .array e) : Same i j a b
  | array {a b c d : TypeId} (ha : i.lookup? a = some (.array c))
    (hb : j.lookup? b = some (.array d)) (helement : Same i j c d) : Same i j a b

section

variable {i j i' j' : Interner} {a b c d t : TypeId}

theorem Same.symm (h : Same i j a b) : Same j i b a := by
  induction h with
  | leaf ha hb hleaf => exact .leaf hb ha hleaf
  | array ha hb _ ih => exact .array hb ha ih

theorem Same.mono (hi : i.Extends i') (hj : j.Extends j') (h : Same i j a b) :
    Same i' j' a b := by
  induction h with
  | leaf ha hb hleaf => exact .leaf (hi _ _ ha) (hj _ _ hb) hleaf
  | array ha hb _ ih => exact .array (hi _ _ ha) (hj _ _ hb) ih

theorem Interned.same (hi : i.Extends i') (hj : i.Extends j') (h : i.Interned t) :
    Same i' j' t t := by
  induction h with
  | leaf h hleaf => exact .leaf (hi _ _ h) (hj _ _ h) hleaf
  | array h _ ih => exact .array (hi _ _ h) (hj _ _ h) ih

/-- A type of the left numbering has one number in the right one. -/
theorem Same.right_unique (hj : j.Grown) (hb : Same i j a b) (hc : Same i j a c) : b = c := by
  -- `a` stands for one type only, so both relations hold for the same reason.
  induction hb generalizing c with
  | leaf ha hb hleaf =>
    cases hc with
    | leaf ha' hc _ =>
      rw [ha] at ha'
      cases ha'
      exact hj.eq_of_lookup? hb hc
    | array ha' _ _ =>
      rw [ha] at ha'
      cases ha'
      exact absurd rfl (hleaf _)
  | array ha hb _ ih =>
    cases hc with
    | leaf ha' _ hleaf =>
      rw [ha] at ha'
      cases ha'
      exact absurd rfl (hleaf _)
    | array ha' hc helement =>
      rw [ha] at ha'
      cases ha'
      have hd := ih helement
      subst hd
      exact hj.eq_of_lookup? hb hc

/-- The fixed types are numbered from the start, and none of them is an array. -/
theorem interned_initial (h : t.isFixed = true) : initial.Interned t := by
  obtain ⟨type, hm, hl⟩ := exists_of_isFixed h
  exact .leaf hl (ne_array_of_mem_fixedTypes hm)

end

end Interner

/-- Two numberings that continue the same one. -/
structure Twins (base : Interner) where
  left : Interner
  right : Interner
  left_grown : left.Grown
  right_grown : right.Grown
  left_extends : base.Extends left
  right_extends : base.Extends right

namespace Twins

variable {base : Interner}

/-- The numbers stand for the same type. -/
def Same (w : Twins base) (a b : TypeId) : Prop := Interner.Same w.left w.right a b

/-- Both numberings were continued. -/
def Extends (w w' : Twins base) : Prop := w.left.Extends w'.left ∧ w.right.Extends w'.right

/-- The twins after each was asked for a type. -/
def ask (w : Twins base) (x y : Ty) : Twins base :=
  ⟨(w.left.intern x).2, (w.right.intern y).2, .ask w.left_grown x, .ask w.right_grown y,
    w.left_extends.trans (Interner.extends_intern w.left x),
    w.right_extends.trans (Interner.extends_intern w.right y)⟩

variable {w w' w'' : Twins base} {a b c d t : TypeId}

theorem Extends.refl (w : Twins base) : w.Extends w :=
  ⟨Interner.Extends.refl w.left, Interner.Extends.refl w.right⟩

theorem Extends.trans (h : w.Extends w') (h' : w'.Extends w'') : w.Extends w'' :=
  ⟨h.1.trans h'.1, h.2.trans h'.2⟩

theorem extends_ask (w : Twins base) (x y : Ty) : w.Extends (w.ask x y) :=
  ⟨Interner.extends_intern w.left x, Interner.extends_intern w.right y⟩

/-- What stands for the same type goes on to do so. -/
theorem Same.mono (h : w.Same a b) (hw : w.Extends w') : w'.Same a b :=
  Interner.Same.mono hw.1 hw.2 h

/-- So does what is the same as far as it is known. -/
theorem rel_same_mono {x y : Option TypeId} (h : Option.Rel w.Same x y) (hw : w.Extends w') :
    Option.Rel w'.Same x y := by
  cases h with
  | none => exact .none
  | some h => exact .some (h.mono hw)

/-- The numbers that two equal types get stand for the same type. -/
theorem same_ask {type : Ty} (hleaf : ∀ e, type ≠ .array e) :
    (w.ask type type).Same (w.left.intern type).1 (w.right.intern type).1 :=
  .leaf (Interner.lookup?_intern w.left type) (Interner.lookup?_intern w.right type) hleaf

/-- Arrays of the same type are the same. -/
theorem Same.ask_array (h : w.Same a b) :
    (w.ask (.array a) (.array b)).Same (w.left.array a).1 (w.right.array b).1 :=
  .array (Interner.lookup?_intern w.left _) (Interner.lookup?_intern w.right _)
    (h.mono (extends_ask w _ _))

/-- What was numbered before the twins parted is left alone. -/
theorem same_of_interned (w : Twins base) (h : base.Interned t) : w.Same t t :=
  h.same w.left_extends w.right_extends

/-- The fixed types are left alone. -/
theorem same_of_fixed (w : Twins base) (h : t.isFixed = true) : w.Same t t :=
  (Interner.interned_initial h).same w.left_grown.extends_initial w.right_grown.extends_initial

/-- Types have one number on each side. -/
theorem Same.eq_iff (h : w.Same a b) (h' : w.Same c d) : a = c ↔ b = d := by
  constructor
  · rintro rfl
    exact Interner.Same.right_unique w.right_grown h h'
  · rintro rfl
    exact Interner.Same.right_unique w.left_grown (Interner.Same.symm h) (Interner.Same.symm h')

theorem Same.beq_eq (h : w.Same a b) (h' : w.Same c d) : (a == c) = (b == d) := by
  rw [Bool.eq_iff_iff, beq_iff_eq, beq_iff_eq]
  exact h.eq_iff h'

/-- A fixed type is on both sides or on none. -/
theorem Same.eq_fixed_iff (h : w.Same a b) (ht : t.isFixed = true) : a = t ↔ b = t :=
  h.eq_iff (w.same_of_fixed ht)

/-- What is in a list of numbers that are left alone is so on both sides. -/
theorem Same.mem_iff (h : w.Same a b) {ts : List TypeId} (hts : ∀ t ∈ ts, w.Same t t) :
    a ∈ ts ↔ b ∈ ts := by
  constructor
  · intro ha
    have hb : b = a := ((h.eq_iff (hts a ha)).mp rfl)
    exact hb ▸ ha
  · intro hb
    have ha : a = b := ((h.eq_iff (hts b hb)).mpr rfl)
    exact ha ▸ hb

/-! ## What is the same about the same type -/

/-- The two types are equal as far as they can be read, and elements of arrays are the same. -/
inductive Alike (w : Twins base) : Ty → Ty → Prop
  | primitive (kind : Primitive) : Alike w (.primitive kind) (.primitive kind)
  | null : Alike w .null .null
  | named (qualifiedName : String) : Alike w (.named qualifiedName) (.named qualifiedName)
  | array {a b : TypeId} (h : w.Same a b) : Alike w (.array a) (.array b)

/-- What two numbers of the same type stand for. -/
theorem Same.exists_alike (h : w.Same a b) :
    ∃ x y, w.left.lookup? a = some x ∧ w.right.lookup? b = some y ∧ w.Alike x y := by
  cases h with
  | @leaf _ _ type ha hb hleaf =>
    refine ⟨type, type, ha, hb, ?_⟩
    cases type with
    | primitive kind => exact .primitive kind
    | null => exact .null
    | named name => exact .named name
    | array e => exact absurd rfl (hleaf e)
  | array ha hb helement => exact ⟨_, _, ha, hb, .array helement⟩

theorem Same.className? (h : w.Same a b) : w.left.className? a = w.right.className? b := by
  obtain ⟨x, y, hx, hy, hxy⟩ := h.exists_alike
  unfold Interner.className?
  rw [hx, hy]
  cases hxy <;> rfl

theorem Same.isClass (h : w.Same a b) : w.left.isClass a = w.right.isClass b :=
  congrArg Option.isSome h.className?

theorem Same.primitive? (h : w.Same a b) : w.left.primitive? a = w.right.primitive? b := by
  obtain ⟨x, y, hx, hy, hxy⟩ := h.exists_alike
  unfold Interner.primitive?
  rw [hx, hy]
  cases hxy <;> rfl

theorem Same.isNumeric (h : w.Same a b) : w.left.isNumeric a = w.right.isNumeric b := by
  have hfixed : ∀ t ∈ TypeId.numericClasses, w.Same t t := by
    intro t ht
    exact w.same_of_fixed (by revert t; decide)
  have hclass : a.isNumericClass = b.isNumericClass := by
    unfold TypeId.isNumericClass
    rw [List.contains_eq_mem, List.contains_eq_mem, decide_eq_decide]
    exact h.mem_iff hfixed
  unfold Interner.isNumeric
  rw [hclass, h.primitive?]

/-- Wrapping keeps what is the same. -/
theorem Same.boxed (h : w.Same a b) : w.Same (w.left.boxed a) (w.right.boxed b) := by
  unfold Interner.boxed
  rw [h.primitive?]
  cases hp : (w.right.primitive? b).bind Primitive.boxed? with
  | none => exact h
  | some wrapper =>
    refine w.same_of_fixed ?_
    obtain ⟨p, _, hw⟩ := Option.bind_eq_some_iff.mp hp
    show wrapper.isFixed = true
    cases p <;> cases hw <;> decide

/-- The elements of the same array are the same. -/
theorem Same.element? (h : w.Same a b) :
    Option.Rel w.Same (w.left.element? a) (w.right.element? b) := by
  obtain ⟨x, y, hx, hy, hxy⟩ := h.exists_alike
  unfold Interner.element?
  rw [hx, hy]
  cases hxy with
  | array helement => exact .some helement
  | _ => exact .none

/-- The same type has the same text. -/
theorem Same.text (h : w.Same a b) : w.left.text a = w.right.text b := by
  have hwithin : ∀ (budget : Nat) {a b : TypeId}, w.Same a b →
      w.left.textWithin budget a = w.right.textWithin budget b := by
    intro budget
    induction budget with
    | zero =>
      intro a b h
      obtain ⟨x, y, hx, hy, hxy⟩ := h.exists_alike
      rw [Interner.textWithin, Interner.textWithin, hx, hy]
      cases hxy <;> rfl
    | succ budget ih =>
      intro a b h
      obtain ⟨x, y, hx, hy, hxy⟩ := h.exists_alike
      rw [Interner.textWithin, Interner.textWithin, hx, hy]
      cases hxy with
      | array helement => exact congrArg (· ++ "[]") (ih helement)
      | _ => rfl
  exact hwithin hierarchyLimit h

end Twins

end ScriptCheck
