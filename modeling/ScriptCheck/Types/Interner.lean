/-
  Numbering of types.

  An interner gives every type that is asked for a number, the same one each
  time. It starts with the fixed types and only ever grows: what a number
  stands for never changes.

  A number is a natural number where 32 bits are meant, so fewer than 2^32
  types are assumed: `intern` never runs out of numbers.
-/
import ScriptCheck.Limits
import ScriptCheck.Types.Basic

namespace ScriptCheck

/-- The types that have a number; each stands at its own. -/
structure Interner where
  types : Array Ty
deriving DecidableEq, Repr

namespace Interner

/-- The interner that knows the fixed types. -/
def initial : Interner := ⟨fixedTypes.toArray⟩

instance : Inhabited Interner := ⟨initial⟩

/-- How many types there are. -/
def size (i : Interner) : Nat := i.types.size

/-- The type that a number stands for. -/
def lookup? (i : Interner) (t : TypeId) : Option Ty := i.types[t]?

/-- The number of a type, which is the next one if the type is new. -/
def intern (i : Interner) (type : Ty) : TypeId × Interner :=
  match i.types.idxOf? type with
  | some t => (t, i)
  | none => (i.size, ⟨i.types.push type⟩)

/-- A type that has a number is found at that number. -/
theorem lookup?_of_idxOf? {i : Interner} {type : Ty} {t : TypeId}
    (h : i.types.idxOf? type = some t) : i.lookup? t = some type := by
  rw [Array.idxOf?_eq_map_finIdxOf?_val, Option.map_eq_some_iff] at h
  obtain ⟨k, hk, rfl⟩ := h
  have hv := (Array.finIdxOf?_eq_some_iff.mp hk).1
  exact (Array.getElem?_eq_getElem k.isLt).trans (congrArg some hv)

/-- The number of a type stands for that type. -/
@[simp] theorem lookup?_intern (i : Interner) (type : Ty) :
    (i.intern type).2.lookup? (i.intern type).1 = some type := by
  unfold intern
  split
  · next h => exact lookup?_of_idxOf? h
  · exact Array.getElem?_push_size

/-- What a number stands for never changes. -/
theorem lookup?_intern_of_lookup? {i : Interner} {t : TypeId} {known : Ty}
    (h : i.lookup? t = some known) (type : Ty) :
    (i.intern type).2.lookup? t = some known := by
  unfold intern
  split
  · exact h
  · have ht : t < i.types.size := (Array.getElem?_eq_some_iff.mp h).choose
    exact (Array.getElem?_push_lt ht).trans (Array.getElem?_eq_getElem ht ▸ h)

/-- The number of a class. -/
def named (i : Interner) (qualifiedName : String) : TypeId × Interner :=
  i.intern (.named qualifiedName)

/-- The number of an array type. -/
def array (i : Interner) (element : TypeId) : TypeId × Interner := i.intern (.array element)

/-- What the elements of an array are. -/
def element? (i : Interner) (t : TypeId) : Option TypeId :=
  match i.lookup? t with
  | some (.array element) => some element
  | _ => none

/-- The primitive that a number stands for. -/
def primitive? (i : Interner) (t : TypeId) : Option Primitive :=
  match i.lookup? t with
  | some (.primitive p) => some p
  | _ => none

/-- The qualified name of a class. -/
def className? (i : Interner) (t : TypeId) : Option String :=
  match i.lookup? t with
  | some (.named name) => some name
  | _ => none

/-- Whether a number stands for a class. -/
def isClass (i : Interner) (t : TypeId) : Bool := (i.className? t).isSome

/-- Whether values of the type are numbers. -/
def isNumeric (i : Interner) (t : TypeId) : Bool :=
  t.isNumericClass || (i.primitive? t).any Primitive.isNumeric

/-- The class that wraps a primitive; any other type stays as it is. -/
def boxed (i : Interner) (t : TypeId) : TypeId := ((i.primitive? t).bind Primitive.boxed?).getD t

/-! ## Text -/

/-- The text of a type, where arrays are opened at most `budget` times. -/
def textWithin (i : Interner) (budget : Nat) (t : TypeId) : String :=
  match i.lookup? t with
  | some (.primitive p) => p.keyword
  | some .null => "null"
  | some (.named name) => name
  | some (.array element) =>
    match budget with
    | 0 => "?"
    | budget + 1 => i.textWithin budget element ++ "[]"
  | none => "<type " ++ toString t ++ ">"

/-- A type as it is written in messages. -/
def text (i : Interner) (t : TypeId) : String := i.textWithin hierarchyLimit t

end Interner

end ScriptCheck
