/-
  Options of a check.

  Options can be read from JSON; what the text leaves out has its usual value.
-/
import ScriptCheck.Json.Reader
import ScriptCheck.Script.Basic

namespace ScriptCheck

/-- How a script is checked. -/
structure Options where
  /-- The imports that need not be declared; those that end in `.*` are on demand. -/
  implicitImports : List String
  /-- Whether a rule that fails is kept from stopping the others. -/
  isolate : Bool
deriving DecidableEq, Repr

namespace Options

/-- The usual options. -/
def standard : Options := ⟨standardImports, true⟩

instance : Inhabited Options := ⟨standard⟩

/-- The keys of the options, in their order. -/
def keys : List String := ["default_imports", "isolate_rule_panics"]

/-- Reads options from an object with any of the keys, or from an array in their order. -/
def reader : Json.Reader Options := do
  let (options, _) ← Json.Reader.record keys
    (fun key options => do
      if key = "default_imports" then
        return { options with implicitImports := ← Json.Reader.list Json.Reader.string }
      else
        return { options with isolate := ← Json.Reader.boolean })
    standard
  return options

/-- The options that a JSON text writes. -/
def parse (text : String) : Except Json.Flaw Options := Json.parse reader text

/-- A bound tree under the imports of the options. -/
def script (options : Options) (tree : Tree) (binding : Binding) : Script :=
  ⟨tree, binding, options.implicitImports⟩

end Options

end ScriptCheck
