/-
  Written types.

  A type is written as a primitive's keyword, as `null` or as the qualified
  name of a class, followed by a pair of brackets for every array dimension.
  Nothing that checks a script reads such a text. Reading is here as the left
  inverse of `Interner.text`: a text that can be read back tells its type apart
  from all others, and that is how `Proofs/Types/TypeTexts` shows it.
-/
import ScriptCheck.Types.Interner

namespace ScriptCheck

/-- How many pairs of brackets a reversed text begins with, and what comes after them. -/
def splitDimensions : List Char → Nat × List Char
  | ']' :: '[' :: front =>
    let (dimensions, base) := splitDimensions front
    (dimensions + 1, base)
  | base => (0, base)

/-- The primitive with a keyword. -/
def Primitive.ofKeyword? (keyword : String) : Option Primitive :=
  Primitive.all.find? (·.keyword = keyword)

/-- Keywords tell primitives apart. -/
@[simp] theorem Primitive.ofKeyword?_keyword (p : Primitive) : ofKeyword? p.keyword = some p := by
  cases p <;> decide

/-- What a text without brackets writes. -/
def Ty.ofBase (base : String) : Ty :=
  match Primitive.ofKeyword? base with
  | some p => .primitive p
  | none => if base = "null" then .null else .named base

namespace Interner

/-- The number of an array of arrays, so many deep; each of them is numbered, the inner first. -/
def arrays (i : Interner) (element : TypeId) : Nat → TypeId × Interner
  | 0 => (element, i)
  | dimensions + 1 =>
    let (inner, i) := i.arrays element dimensions
    i.array inner

/-- The number of a written type. -/
def ofText (i : Interner) (written : String) : TypeId × Interner :=
  let (dimensions, base) := splitDimensions written.toList.reverse
  let (element, i) := i.intern (.ofBase (String.ofList base.reverse))
  i.arrays element dimensions

end Interner

end ScriptCheck
