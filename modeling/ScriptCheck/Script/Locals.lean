/-
  Names of values inside a script.

  A name that stands for a value is looked for in the scopes around it, from
  the inside out: blocks, methods, closures, loops, type bodies and the file.
  A local variable is seen only by what comes after it, so the search remembers
  from which part of a scope it comes. The statements of the file are not seen
  from inside a type.
-/
import ScriptCheck.Script.Basic

namespace ScriptCheck.Script

/-- The last variable called `name` that is declared among the statements before `child`. -/
def declaredBefore? (s : Script) (statements : List Part) (child : NodeId) (name : String) :
    Option SymbolId :=
  (statements.takeWhile (· ≠ some child)).reverse.findSome? fun statement => do
    let i ← statement
    if s.tree.isOneOf [.variableDeclaration] i && s.tree.declaredName? i = some name then
      s.symbolOf? i
    else none

/-- The symbol of a part that declares `name`. -/
def declares? (s : Script) (name : String) (part : Part) : Option SymbolId := do
  let i ← part
  if s.tree.declaredName? i = some name then s.symbolOf? i else none

/-- The first parameter called `name`. -/
def parameter? (s : Script) (parameters : List Part) (name : String) : Option SymbolId :=
  parameters.findSome? (s.declares? name)

/-- The variable of a loop header, if it is called `name`. -/
def loopVariable? (s : Script) (clause : Part) (name : String) : Option SymbolId :=
  match clause.bind s.tree.form? with
  | some (.forInClause iterated _) => s.declares? name iterated
  | some (.legacyForClause initial _ _) => s.declares? name initial
  | _ => none

/-- The methods called `name` among the statements of a file. -/
def scriptMethods (s : Script) (statements : List Part) (name : String) : List SymbolId :=
  statements.filterMap fun statement => do
    let i ← statement
    if s.tree.isOneOf [.methodDeclaration] i then s.declares? name statement else none

/-- What a single scope offers under a name to its part `child`. `inType` says whether a type body
    lies between the scope and the place of the name; `ofType` and `ofMethods` look into a type and
    choose among methods. -/
def offered? (s : Script) (ofType : SymbolId → Option SymbolId)
    (ofMethods : List SymbolId → Option SymbolId) (name : String) (inType : Bool)
    (child scope : NodeId) : Option SymbolId :=
  if s.tree.isOneOf [.classBody] scope then
    ((s.tree.parent? scope).bind s.symbolOf?).bind ofType
  else
    match s.tree.form? scope with
    | some (.block statements) => s.declaredBefore? statements child name
    | some (.method data) => s.parameter? data.parameters name
    | some (.closure parameters _) =>
      if parameters.isEmpty && name = "it" then s.binding.implicitOf? scope
      else s.parameter? parameters name
    | some (.forStatement clause _) => s.loopVariable? clause name
    | some (.sourceFile file) =>
      if inType then none
      else
        s.declaredBefore? file.statements child name <|>
          ofMethods (s.scriptMethods file.statements name)
    | _ => none

/-- Asks the scopes one after the other; the way up ends at a node that is missing. -/
def searchScopes (s : Script) (offer : Bool → NodeId → NodeId → Option SymbolId) :
    Bool → NodeId → List NodeId → Option SymbolId
  | _, _, [] => none
  | inType, child, scope :: outer =>
    match s.tree.kind? scope with
    | none => none
    | some kind =>
      offer inType child scope <|>
        searchScopes s offer (inType || kind = .classBody) scope outer

end ScriptCheck.Script
