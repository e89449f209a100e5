/-
  Imports that would help.

  A reference that stands for nothing may lack an import. Candidates are the
  types of that name that stand directly in a package, other than the default
  package and the one of the script, and that are visible outside of it.
-/
import ScriptCheck.Diagnostic.Basic
import ScriptCheck.Script.Basic

namespace ScriptCheck.Script

/-- The qualified name under which a type can be imported, if it can. -/
def importable? (s : Script) (type : SymbolId) : Option String := do
  let symbol ← s.symbols.get? type
  let owner ← s.symbols.get? (← symbol.owner)
  let package := s.symbols.packageNameOf type
  if owner.kind ≠ .package || symbol.flags.isPrivate || symbol.flags.isPackagePrivate then none
  else if package = "" || package = s.binding.filePackage then none
  else some symbol.qualifiedName

/-- The imports that could make a reference stand for something, each once. -/
def importFixes (s : Script) (reference : NodeId) : List Fix :=
  match (s.tree.referenceAt? reference).bind Reference.name? with
  | none => []
  | some name =>
    (((s.symbols.typesNamed name).filterMap s.importable?).eraseDups).map Fix.addImport

end ScriptCheck.Script
