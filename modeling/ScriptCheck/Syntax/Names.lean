/-
  Written names of what nodes carry.
-/
import ScriptCheck.Syntax.Kind
import ScriptCheck.Text.Named

namespace ScriptCheck

instance : Named Kind := ⟨Kind.all.map fun k => (k.name, k)⟩

instance : Named TypeDeclKind :=
  ⟨[("Class", .classType), ("Interface", .interfaceType), ("Enum", .enumType),
    ("Trait", .traitType)]⟩

instance : Named AssignOp :=
  ⟨[("Assign", .assign), ("PlusAssign", .plus), ("MinusAssign", .minus), ("StarAssign", .star),
    ("SlashAssign", .slash), ("PercentAssign", .percent), ("PowerAssign", .power),
    ("ShiftLeftAssign", .shiftLeft), ("ShiftRightAssign", .shiftRight), ("AndAssign", .and),
    ("OrAssign", .or), ("XorAssign", .xor), ("ElvisAssign", .elvis)]⟩

instance : Named Primitive :=
  ⟨[("Boolean", .boolean), ("Char", .char), ("Byte", .byte), ("Short", .short), ("Int", .int),
    ("Long", .long), ("Float", .float), ("Double", .double), ("Void", .void)]⟩

instance : Named LiteralKind :=
  ⟨[("Integer", .integer), ("Long", .long), ("Decimal", .decimal), ("Double", .double),
    ("Float", .float), ("String", .string), ("GString", .gString), ("True", .true),
    ("False", .false), ("Null", .null)]⟩

/-! ## Names tell members apart -/

@[simp] theorem Kind.ofName?_nameOf (k : Kind) : ofName? (nameOf k) = some k := by
  cases k <;> decide

@[simp] theorem TypeDeclKind.ofName?_nameOf (k : TypeDeclKind) : ofName? (nameOf k) = some k := by
  cases k <;> decide

@[simp] theorem AssignOp.ofName?_nameOf (op : AssignOp) : ofName? (nameOf op) = some op := by
  cases op <;> decide

@[simp] theorem Primitive.ofName?_nameOf (p : Primitive) : ofName? (nameOf p) = some p := by
  cases p <;> decide

@[simp] theorem LiteralKind.ofName?_nameOf (k : LiteralKind) : ofName? (nameOf k) = some k := by
  cases k <;> decide

namespace Modifiers

/-- The names of the modifiers that are set. -/
def names (m : Modifiers) : List String :=
  namesOfSet [("STATIC", m.isStatic), ("PUBLIC", m.isPublic), ("PRIVATE", m.isPrivate),
    ("PROTECTED", m.isProtected), ("FINAL", m.isFinal), ("ABSTRACT", m.isAbstract)]

/-- The modifiers whose names are listed. -/
def ofNames (names : List String) : Modifiers :=
  ⟨names.contains "STATIC", names.contains "PUBLIC", names.contains "PRIVATE",
    names.contains "PROTECTED", names.contains "FINAL", names.contains "ABSTRACT"⟩

/-- The names say which modifiers are set. -/
@[simp] theorem ofNames_names (m : Modifiers) : ofNames m.names = m := by
  obtain ⟨a, b, c, d, e, f⟩ := m
  cases a <;> cases b <;> cases c <;> cases d <;> cases e <;> cases f <;> decide

end Modifiers

end ScriptCheck
