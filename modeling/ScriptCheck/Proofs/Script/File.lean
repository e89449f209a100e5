/-
  Scripts of one file.
-/
import ScriptCheck.Proofs.Binding.Declarations
import ScriptCheck.Script.Basic

namespace ScriptCheck.Script

/-- The script that binding a file on top of a library leads to. -/
def ofFile (lib : SymbolTable) (t : Tree) (root : NodeId) (implicitImports : List String) :
    Script :=
  ⟨t, (Binding.ofLibraries lib).bindFile t root, implicitImports⟩

section

variable {lib : SymbolTable} {t : Tree} {root : NodeId} {imports : List String}

theorem filePackage_ofFile {file : SourceFile} (hfile : t.form? root = some (.sourceFile file)) :
    (ofFile lib t root imports).binding.filePackage = Binding.packageName t file :=
  (Binding.extends_bindFile hfile _).filePackage

end

end ScriptCheck.Script
