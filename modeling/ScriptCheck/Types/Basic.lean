/-
  Types.

  A type is a primitive, the type of `null`, a class known by its qualified
  name, or an array of another type. Types are written as numbers: structurally
  equal types share one number, and those every script needs have fixed ones.
-/
import ScriptCheck.Syntax.Kind

namespace ScriptCheck

/-- The number of a type. -/
abbrev TypeId := Nat

/-- What a type is. -/
inductive Ty
  | primitive (kind : Primitive)
  /-- The type of the literal `null`. -/
  | null
  /-- A class, by its qualified name. -/
  | named (qualifiedName : String)
  | array (element : TypeId)
deriving DecidableEq, Repr, Inhabited

namespace TypeId

/-! ### Fixed numbers: the primitives and the type of `null` -/

def boolean : TypeId := 0
def char : TypeId := 1
def byte : TypeId := 2
def short : TypeId := 3
def int : TypeId := 4
def long : TypeId := 5
def float : TypeId := 6
def double : TypeId := 7
def void : TypeId := 8
def null : TypeId := 9

/-! ### Fixed numbers: classes, whose names are in `fixedClasses` -/

def object : TypeId := 10
def string : TypeId := 11
def gString : TypeId := 12
def boxedBoolean : TypeId := 13
def character : TypeId := 14
def boxedByte : TypeId := 15
def boxedShort : TypeId := 16
def integer : TypeId := 17
def boxedLong : TypeId := 18
def boxedFloat : TypeId := 19
def boxedDouble : TypeId := 20
def number : TypeId := 21
def bigInteger : TypeId := 22
def bigDecimal : TypeId := 23
def closure : TypeId := 24
def collection : TypeId := 25
def list : TypeId := 26
def map : TypeId := 27
def arrayList : TypeId := 28
def linkedHashMap : TypeId := 29
def cloneable : TypeId := 30
def serializable : TypeId := 31
def charSequence : TypeId := 32
def comparable : TypeId := 33
def iterable : TypeId := 34

/-! ### What a number alone tells -/

/-- The first number that is not fixed. -/
def firstFree : TypeId := 35

/-- Whether a number is fixed. -/
def isFixed (t : TypeId) : Bool := t < firstFree

/-- The classes whose values are numbers. -/
def numericClasses : List TypeId :=
  [character, boxedByte, boxedShort, integer, boxedLong, boxedFloat, boxedDouble, number,
    bigInteger, bigDecimal]

/-- Whether a class has numbers for values. -/
def isNumericClass (t : TypeId) : Bool := numericClasses.contains t

end TypeId

namespace Primitive

/-- Every primitive, in the order of their numbers. -/
def all : List Primitive :=
  [.boolean, .char, .byte, .short, .int, .long, .float, .double, .void]

/-- Whether values are numbers; a character widens to one. -/
def isNumeric (p : Primitive) : Bool := p ≠ .boolean && p ≠ .void

/-- The word a primitive is written with. -/
def keyword : Primitive → String
  | .boolean => "boolean"
  | .char => "char"
  | .byte => "byte"
  | .short => "short"
  | .int => "int"
  | .long => "long"
  | .float => "float"
  | .double => "double"
  | .void => "void"

/-- The number of a primitive. -/
def typeId : Primitive → TypeId
  | .boolean => TypeId.boolean
  | .char => TypeId.char
  | .byte => TypeId.byte
  | .short => TypeId.short
  | .int => TypeId.int
  | .long => TypeId.long
  | .float => TypeId.float
  | .double => TypeId.double
  | .void => TypeId.void

/-- The class that wraps a primitive; nothing wraps `void`. -/
def boxed? : Primitive → Option TypeId
  | .boolean => some TypeId.boxedBoolean
  | .char => some TypeId.character
  | .byte => some TypeId.boxedByte
  | .short => some TypeId.boxedShort
  | .int => some TypeId.integer
  | .long => some TypeId.boxedLong
  | .float => some TypeId.boxedFloat
  | .double => some TypeId.boxedDouble
  | .void => none

end Primitive

/-- The classes with fixed numbers, in the order of these. -/
def fixedClasses : List (TypeId × String) :=
  [(TypeId.object, "java.lang.Object"),
    (TypeId.string, "java.lang.String"),
    (TypeId.gString, "groovy.lang.GString"),
    (TypeId.boxedBoolean, "java.lang.Boolean"),
    (TypeId.character, "java.lang.Character"),
    (TypeId.boxedByte, "java.lang.Byte"),
    (TypeId.boxedShort, "java.lang.Short"),
    (TypeId.integer, "java.lang.Integer"),
    (TypeId.boxedLong, "java.lang.Long"),
    (TypeId.boxedFloat, "java.lang.Float"),
    (TypeId.boxedDouble, "java.lang.Double"),
    (TypeId.number, "java.lang.Number"),
    (TypeId.bigInteger, "java.math.BigInteger"),
    (TypeId.bigDecimal, "java.math.BigDecimal"),
    (TypeId.closure, "groovy.lang.Closure"),
    (TypeId.collection, "java.util.Collection"),
    (TypeId.list, "java.util.List"),
    (TypeId.map, "java.util.Map"),
    (TypeId.arrayList, "java.util.ArrayList"),
    (TypeId.linkedHashMap, "java.util.LinkedHashMap"),
    (TypeId.cloneable, "java.lang.Cloneable"),
    (TypeId.serializable, "java.io.Serializable"),
    (TypeId.charSequence, "java.lang.CharSequence"),
    (TypeId.comparable, "java.lang.Comparable"),
    (TypeId.iterable, "java.lang.Iterable")]

/-- The types with fixed numbers, in the order of these. -/
def fixedTypes : List Ty :=
  Primitive.all.map Ty.primitive ++ [.null] ++ fixedClasses.map fun c => .named c.2

/-- There are as many fixed types as fixed numbers. -/
theorem length_fixedTypes : fixedTypes.length = TypeId.firstFree := rfl

/-- A primitive stands at its number. -/
theorem fixedTypes_typeId (p : Primitive) : fixedTypes[p.typeId]? = some (.primitive p) := by
  cases p <;> rfl

/-- None of the fixed types is an array. -/
theorem ne_array_of_mem_fixedTypes {type : Ty} (h : type ∈ fixedTypes) (element : TypeId) :
    type ≠ .array element := by
  intro harray
  subst harray
  revert h
  simp [fixedTypes]

end ScriptCheck
