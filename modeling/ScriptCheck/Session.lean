/-
  Checking a bound script.

  The usual host answers from a script with the types of its libraries. It
  never breaks off. A session puts everything together: it binds the files of
  a tree on top of a library, enters the classes into a hierarchy and sets up
  the checker.
-/
import ScriptCheck.Annotate
import ScriptCheck.Library
import ScriptCheck.Message.Bundle
import ScriptCheck.Options
import ScriptCheck.Script.Imports
import ScriptCheck.Script.Inheritance
import ScriptCheck.Typing

namespace ScriptCheck

/-- The outcome of typing as an answer of a host; if the budget runs out, nothing is known. -/
def Typing.answer (typing : Typing α) (unknown : α) : Check α := do
  let types ← getThe Interner
  match typing.run types with
  | some (answer, types) =>
    set types
    return answer
  | none => return unknown

namespace TypedScript

/-- The host that answers from the script. -/
def host (s : TypedScript) (fixes : NodeId → List Fix) (wording : Wording) : Host where
  resolve reference := (s.resolve reference).answer .unresolved
  symbolKind symbol := return (s.script.symbols.get? symbol).map Symbol.kind
  expressionType expression :=
    match expression with
    | some i => (s.typeOf i).run.answer none
    | none => return none
  declaredType i := (s.declaredType i).run.answer none
  signature method := (s.signatureOf method).run.answer none
  argumentTypes reference := (s.argumentTypes reference).run.answer none
  argumentsNode reference := return (s.argumentsNode? reference).map some
  importFixes reference := return fixes reference
  wording message args := return wording message args

/-- The checker of a script. -/
def checker (s : TypedScript) (hierarchy : Hierarchy) (options : Options)
    (fixes : NodeId → List Fix) (wording : Wording) : Checker :=
  ⟨s.tree, hierarchy, s.host fixes wording, options.isolate⟩

end TypedScript

/-- What a session starts from. -/
structure Setup where
  tree : Tree
  /-- The files, bound one after the other; the last one counts as the file of the script. -/
  roots : List NodeId
  library : Library
  options : Options
  wording : Wording
  /-- The hierarchy before the classes of the script enter it. -/
  hierarchy : Hierarchy
  /-- Whether the classes of the script enter the hierarchy. -/
  registers : Bool
  /-- Whether missing imports are offered as repairs. -/
  offersImports : Bool

/-- A bound script with its hierarchy and its checker. -/
structure Session where
  typed : TypedScript
  hierarchy : Hierarchy
  checker : Checker

/-- Starts a session; entering the classes into the hierarchy numbers types. -/
def Setup.start (setup : Setup) (types : Interner) : Session × Interner :=
  let binding := setup.roots.foldl (·.bindFile setup.tree ·) (.ofLibraries setup.library.symbols)
  let script := setup.options.script setup.tree binding
  let (hierarchy, types) :=
    if setup.registers then script.registerHierarchy setup.hierarchy types
    else (setup.hierarchy, types)
  let typed : TypedScript := ⟨script, setup.library.environment⟩
  let fixes := if setup.offersImports then script.importFixes else fun _ => []
  (⟨typed, hierarchy, typed.checker hierarchy setup.options fixes setup.wording⟩, types)

end ScriptCheck
