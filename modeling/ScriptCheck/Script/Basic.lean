/-
  Bound scripts.

  A script is a tree together with the symbols it declares and the imports it
  has without writing them. This module holds the simple questions about it:
  what the file imports, which types stand around a place, and whether a
  reference is called.
-/
import ScriptCheck.Binding

namespace ScriptCheck

/-- The imports that a script has without declaring them, unless told otherwise. -/
def standardImports : List String :=
  ["java.lang.*", "java.util.*", "java.io.*", "java.net.*", "groovy.lang.*", "groovy.util.*",
    "java.math.BigInteger", "java.math.BigDecimal"]

/-- A tree with its symbols. -/
structure Script where
  tree : Tree
  binding : Binding
  /-- The imports that need not be declared; those that end in `.*` are on demand. -/
  implicitImports : List String

namespace Script

/-- The symbols that the script can see. -/
def symbols (s : Script) : SymbolTable := s.binding.symbols

/-- The symbol that a node declares. -/
def symbolOf? (s : Script) (declaration : NodeId) : Option SymbolId :=
  s.binding.symbolOf? declaration

/-- The file that was bound. -/
def file? (s : Script) : Option SourceFile :=
  match s.binding.root.bind s.tree.form? with
  | some (.sourceFile file) => some file
  | _ => none

/-- The statements of the file. -/
def statements (s : Script) : List Part := (s.file?.map SourceFile.statements).getD []

/-- The imports of the file, less the parts that are none. -/
def imports (s : Script) : List Import :=
  ((s.file?.map SourceFile.imports).getD []).filterMap fun part =>
    match part.bind s.tree.form? with
    | some (.importing data) => some data
    | _ => none

/-- The types around a place, the innermost first. -/
def enclosingTypes (s : Script) (site : NodeId) : List SymbolId :=
  ((s.tree.ancestors site).filter (s.tree.isOneOf [.typeDeclaration])).filterMap s.symbolOf?

/-- How many arguments stand in an argument list; anything else holds none. -/
def argumentsIn (s : Script) (list : Part) : Nat :=
  ((list.bind s.tree.argumentListAt?).map List.length).getD 0

/-- How many arguments a reference is called with, if it is called. -/
def argumentCount? (s : Script) (reference : NodeId) : Option Nat := do
  match ← s.tree.form? (← s.tree.parent? reference) with
  | .call callee arguments =>
    if callee = some reference then return s.argumentsIn arguments else failure
  | _ => failure

end Script

end ScriptCheck
