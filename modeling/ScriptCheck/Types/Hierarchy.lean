/-
  Hierarchies of classes.

  A hierarchy holds the direct supertypes of classes. A class with an entry is
  known, even if it has no supertypes; about the others nothing can be said.
  Everything known derives from the root class, whether or not a chain of
  supertypes leads there. The search for a chain gives up after a fixed number
  of steps.
-/
import ScriptCheck.Limits
import ScriptCheck.Types.Basic

namespace ScriptCheck

/-- The known classes with their direct supertypes. -/
structure Hierarchy where
  entries : List (TypeId × List TypeId)
deriving DecidableEq, Repr

namespace Hierarchy

/-- The hierarchy that knows nothing. -/
def empty : Hierarchy := ⟨[]⟩

/-- The direct supertypes of a class, if it is known. -/
def supertypes? (h : Hierarchy) (cls : TypeId) : Option (List TypeId) :=
  h.entries.lookup cls

/-- Whether a class is known. -/
def isKnown (h : Hierarchy) (cls : TypeId) : Bool := (h.supertypes? cls).isSome

/-- The direct supertypes of a class. -/
def parentsOf (h : Hierarchy) (cls : TypeId) : List TypeId := (h.supertypes? cls).getD []

/-- Gives a class its direct supertypes in place of what was known. -/
def set (h : Hierarchy) (cls : TypeId) (parents : List TypeId) : Hierarchy :=
  ⟨(cls, parents) :: h.entries.filter (·.1 ≠ cls)⟩

/-- Makes a class known. -/
def addClass (h : Hierarchy) (cls : TypeId) : Hierarchy := h.set cls (h.parentsOf cls)

/-- The direct supertypes of `cls` after one more. What is there already, and the class itself, is
    not added. -/
def withParent (cls : TypeId) (known : List TypeId) (parent : TypeId) : List TypeId :=
  if parent = cls || known.contains parent then known else known ++ [parent]

/-- Adds direct supertypes to a class, which becomes known. -/
def addParents (h : Hierarchy) (cls : TypeId) (parents : List TypeId) : Hierarchy :=
  h.set cls (parents.foldl (withParent cls) (h.parentsOf cls))

/-! ## What is known after a change -/

theorem lookup_filter_of_ne (entries : List (TypeId × List TypeId)) {cls other : TypeId}
    (h : other ≠ cls) : (entries.filter (·.1 ≠ cls)).lookup other = entries.lookup other := by
  induction entries with
  | nil => rfl
  | cons entry rest ih =>
    obtain ⟨name, parents⟩ := entry
    by_cases hc : name = cls
    · rw [List.filter_cons_of_neg (by simpa using hc), ih, List.lookup_cons,
        beq_false_of_ne (hc ▸ h)]
    · rw [List.filter_cons_of_pos (by simpa using hc), List.lookup_cons, List.lookup_cons, ih]

@[simp] theorem supertypes?_set_self (h : Hierarchy) (cls : TypeId) (parents : List TypeId) :
    (h.set cls parents).supertypes? cls = some parents :=
  List.lookup_cons_self

@[simp] theorem supertypes?_set_of_ne (h : Hierarchy) {cls other : TypeId} (hne : other ≠ cls)
    (parents : List TypeId) : (h.set cls parents).supertypes? other = h.supertypes? other := by
  unfold set supertypes?
  rw [List.lookup_cons, beq_false_of_ne hne]
  exact lookup_filter_of_ne h.entries hne

/-- What is known stays known, and the class that changed is known too. -/
@[simp] theorem isKnown_set (h : Hierarchy) (cls other : TypeId) (parents : List TypeId) :
    (h.set cls parents).isKnown other = (decide (other = cls) || h.isKnown other) := by
  unfold isKnown
  by_cases hne : other = cls
  · rw [hne, supertypes?_set_self, decide_eq_true rfl]
    rfl
  · rw [supertypes?_set_of_ne h hne, decide_eq_false hne, Bool.false_or]

@[simp] theorem parentsOf_set_self (h : Hierarchy) (cls : TypeId) (parents : List TypeId) :
    (h.set cls parents).parentsOf cls = parents := by
  unfold parentsOf
  rw [supertypes?_set_self]
  rfl

@[simp] theorem parentsOf_set_of_ne (h : Hierarchy) {cls other : TypeId} (hne : other ≠ cls)
    (parents : List TypeId) : (h.set cls parents).parentsOf other = h.parentsOf other := by
  unfold parentsOf
  rw [supertypes?_set_of_ne h hne]

/-- Making a class known adds no supertypes. -/
@[simp] theorem parentsOf_addClass (h : Hierarchy) (cls other : TypeId) :
    (h.addClass cls).parentsOf other = h.parentsOf other := by
  unfold addClass
  by_cases hne : other = cls
  · rw [hne, parentsOf_set_self]
  · rw [parentsOf_set_of_ne h hne]

theorem mem_withParent {cls : TypeId} {known : List TypeId} {parent other : TypeId} :
    other ∈ withParent cls known parent ↔ other ∈ known ∨ (other = parent ∧ other ≠ cls) := by
  unfold withParent
  by_cases hc : parent = cls
  · simp [hc]
  · by_cases hk : parent ∈ known
    · rw [if_pos (by simp [hk])]
      refine ⟨Or.inl, fun ho => ho.elim id fun ho => ?_⟩
      rw [ho.1]
      exact hk
    · rw [if_neg (by simp [hc, hk]), List.mem_append, List.mem_singleton]
      refine or_congr_right ⟨fun ho => ⟨ho, ?_⟩, And.left⟩
      rw [ho]
      exact hc

theorem mem_foldl_withParent {cls : TypeId} {parents known : List TypeId} {other : TypeId} :
    other ∈ parents.foldl (withParent cls) known ↔
      other ∈ known ∨ (other ∈ parents ∧ other ≠ cls) := by
  induction parents generalizing known with
  | nil => simp
  | cons parent rest ih =>
    rw [List.foldl_cons, ih, mem_withParent, List.mem_cons, or_assoc, or_and_right]

/-- The supertypes of a class after others were added: the old ones and the new ones, but never the
    class itself. -/
theorem mem_parentsOf_addParents (h : Hierarchy) (cls : TypeId) (parents : List TypeId)
    (parent : TypeId) :
    parent ∈ (h.addParents cls parents).parentsOf cls ↔
      parent ∈ h.parentsOf cls ∨ (parent ∈ parents ∧ parent ≠ cls) := by
  unfold addParents
  rw [parentsOf_set_self]
  exact mem_foldl_withParent

/-- Searches depth first for a class that has `ancestor` as a direct supertype: takes at most
    `budget` classes from the stack and opens those that were not taken before. -/
def reaches (h : Hierarchy) (ancestor : TypeId) : Nat → List TypeId → List TypeId → Bool
  | budget + 1, current :: stack, taken =>
    if taken.contains current then h.reaches ancestor budget stack taken
    else if (h.parentsOf current).contains ancestor then true
    else
      h.reaches ancestor budget ((h.parentsOf current).reverse ++ stack) (current :: taken)
  | _, _, _ => false

/-- Whether a class is another one or derives from it. -/
def isDerivedFrom (h : Hierarchy) (child ancestor : TypeId) : Bool :=
  child = ancestor || (ancestor = TypeId.object && h.isKnown child) ||
    h.reaches ancestor hierarchyLimit [child] []

/-- Whether a class may not become a supertype of `child`, since it derives from it. -/
def closesCycle (h : Hierarchy) (child parent : TypeId) : Bool := h.isDerivedFrom parent child

/-! ## The standard classes -/

/-- The standard classes in the order in which they become known. -/
def standardEntries : List (TypeId × List TypeId) :=
  open TypeId in
  [(object, []), (serializable, []), (cloneable, []), (comparable, []), (charSequence, []),
    (iterable, []), (map, []), (number, [serializable])] ++
  ([boxedByte, boxedShort, integer, boxedLong, boxedFloat, boxedDouble, bigInteger,
    bigDecimal].map fun n => (n, [number, comparable])) ++
  [(boxedBoolean, [serializable, comparable]),
    (character, [serializable, comparable]),
    (string, [charSequence, comparable, serializable]),
    (gString, [charSequence, comparable, serializable]),
    (closure, [cloneable, serializable]),
    (collection, [iterable]),
    (list, [collection]),
    (arrayList, [list, cloneable, serializable]),
    (linkedHashMap, [map, cloneable, serializable])]

/-- The hierarchy of the standard classes. -/
def standard : Hierarchy :=
  standardEntries.foldl (fun h entry => h.addParents entry.1 entry.2) empty

end Hierarchy

end ScriptCheck
