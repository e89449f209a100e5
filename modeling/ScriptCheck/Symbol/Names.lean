/-
  Written names of what symbols carry.
-/
import ScriptCheck.Symbol.Basic
import ScriptCheck.Text.Named

namespace ScriptCheck

instance : Named SymbolKind :=
  ⟨[("Package", .package), ("Class", .type), ("Method", .method), ("Field", .field),
    ("Variable", .variableSymbol), ("Parameter", .parameter)]⟩

/-- Names tell kinds apart. -/
@[simp] theorem SymbolKind.ofName?_nameOf (k : SymbolKind) : ofName? (nameOf k) = some k := by
  cases k <;> decide

namespace SymbolFlags

/-- The names of the flags that are set. -/
def names (f : SymbolFlags) : List String :=
  namesOfSet [("STATIC", f.isStatic), ("PRIVATE", f.isPrivate), ("PROTECTED", f.isProtected),
    ("PACKAGE_PRIVATE", f.isPackagePrivate), ("BUILDER_METHOD", f.isBuilder),
    ("VARARGS", f.isVarargs), ("INTERFACE", f.isInterface)]

/-- The flags whose names are listed. -/
def ofNames (names : List String) : SymbolFlags :=
  ⟨names.contains "STATIC", names.contains "PRIVATE", names.contains "PROTECTED",
    names.contains "PACKAGE_PRIVATE", names.contains "BUILDER_METHOD", names.contains "VARARGS",
    names.contains "INTERFACE"⟩

/-- The names say which flags are set. -/
@[simp] theorem ofNames_names (f : SymbolFlags) : ofNames f.names = f := by
  obtain ⟨a, b, c, d, e, g, h⟩ := f
  cases a <;> cases b <;> cases c <;> cases d <;> cases e <;> cases g <;> cases h <;> decide

end SymbolFlags

end ScriptCheck
