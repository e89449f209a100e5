/-
  Rules.

  Every node is subject to one rule at most, chosen by its kind. A rule asks
  the host what it needs to know, in a fixed order and no further than
  necessary, and ends with at most one diagnostic or with a fault.

  - Assignments with `=` and initial values: the value has to fit.
  - Type declarations: none may stand in the body of another one.
  - References to types: they have to stand for something that may be used.
  - References to values: they may not stand for what must not be used, and
    a method has to take the arguments it is called with. A simple name that
    stands for nothing is an error in static members, and elsewhere worth a
    warning where something is looked up in it.
  - Loops with three clauses are not part of the language.
-/
import ScriptCheck.Host
import ScriptCheck.Syntax.Walk

namespace ScriptCheck

/-- What a node is to the rules. -/
inductive Subject
  | typeReference (data : Reference)
  | valueReference (data : Reference)
  | typeDecl (data : TypeDecl)
  /-- A field, parameter or local variable. -/
  | variableLike (data : Variable)
  | assignment (left : Part) (operator : AssignOp) (right : Part)
  | legacyFor
  | other
deriving DecidableEq, Repr

namespace Subject

/-- The kinds whose rules need to know what the node holds. -/
def checkedKinds : List Kind :=
  [.typeReference, .reference, .typeDeclaration, .variableDeclaration, .fieldDeclaration,
    .parameter, .assignment]

/-- What a node is to the rules; a node that is missing is nothing to them. -/
def ofNode (t : Tree) (i : NodeId) : Except Fault Subject :=
  match t.kind? i with
  | none => .ok .other
  | some kind =>
    if kind = .legacyForClause then .ok .legacyFor
    else if !checkedKinds.contains kind then .ok .other
    else
      match t.form? i with
      | some (.reference .type data) => .ok (.typeReference data)
      | some (.reference .value data) => .ok (.valueReference data)
      | some (.typeDecl data) => .ok (.typeDecl data)
      | some (.variableLike _ data) => .ok (.variableLike data)
      | some (.assignment left operator right) => .ok (.assignment left operator right)
      | _ => .error (.malformedNode (some i) kind)

end Subject

/-- What the rules work on: a tree, a hierarchy of classes and a host. -/
structure Checker where
  tree : Tree
  hierarchy : Hierarchy
  host : Host
  /-- Whether a rule that fails is kept from stopping the others. -/
  isolate : Bool

/-- A run of a rule, which may end with a fault. -/
abbrev Rule := ExceptT Fault Check

/-- A question to the host. -/
def ask (question : Check α) : Rule α := ExceptT.lift question

namespace Checker

/-- The place of a node; where there is no node, its range is unknown. -/
def anchor (c : Checker) (node : Part) : Anchor :=
  ⟨node, (node.bind c.tree.span?).getD Span.unknown⟩

/-- A message in the host's wording. -/
def rendered (c : Checker) (message : Message) (args : List String) : Rule RenderedMessage := do
  return ⟨message.code, message.key, args, ← ask (c.host.wording message args)⟩

/-- Ends a rule with an error. -/
def errorAt (c : Checker) (node : Part) (message : Message) (args : List String)
    (highlight : Highlight) (fixes : List Fix) : Rule (Option Diagnostic) := do
  return some (.error (c.anchor node) (← c.rendered message args) highlight fixes)

/-- Ends a rule with a warning. -/
def warningAt (c : Checker) (node : Part) (message : Message) (args : List String)
    (fixes : List Fix) : Rule (Option Diagnostic) := do
  return some (.warning (c.anchor node) (← c.rendered message args) fixes)

/-- What is known about types at this point of a run. -/
def typeWorld (c : Checker) : Rule TypeWorld := do
  return ⟨← ask (getThe Interner), c.hierarchy⟩

/-! ## Values that have to fit -/

/-- Warns at `node` if a value of type `source` does not go into `target`. -/
def checkFits (c : Checker) (target source : TypeId) (node : Part) :
    Rule (Option Diagnostic) := do
  let world ← c.typeWorld
  if world.isAssignable target source then return none
  else
    c.warningAt node .cannotAssign [world.types.text source, world.types.text target] []

/-- The rule for assignments; operators that read the target first are not checked. -/
def checkAssignment (c : Checker) (left : Part) (operator : AssignOp) (right : Part) :
    Rule (Option Diagnostic) := do
  if !operator.isSimple then return none
  match ← ask (c.host.expressionType left) with
  | none => return none
  | some target =>
    match ← ask (c.host.expressionType right) with
    | none => return none
    | some source => c.checkFits target source right

/-- The rule for variables: an initial value has to fit the declared type. -/
def checkVariable (c : Checker) (i : NodeId) (data : Variable) : Rule (Option Diagnostic) := do
  match data.initial with
  | none => return none
  | some initial =>
    match ← ask (c.host.expressionType initial) with
    | none => return none
    | some source =>
      match ← ask (c.host.declaredType i) with
      | none => return none
      | some target => c.checkFits target source initial

/-! ## Type declarations -/

/-- The rule for type declarations: the error stands at the name, if the name is there. -/
def checkTypeDecl (c : Checker) (i : NodeId) (data : TypeDecl) : Rule (Option Diagnostic) := do
  if (c.tree.parent? i).any (c.tree.isOneOf [.classBody]) then
    let name := data.name.filter (· < c.tree.size)
    c.errorAt (name.or (some i)) .innerClass [] .generic []
  else return none

/-! ## References -/

/-- Warns at the argument list if a method does not take the arguments it is called with. Builders
    take anything, and nothing is said where the signature is unknown or nothing is called. -/
def checkCall (c : Checker) (i : NodeId) (method : SymbolId) (name : String) :
    Rule (Option Diagnostic) := do
  match ← ask (c.host.signature method) with
  | none => return none
  | some signature =>
    if signature.builder then return none
    match ← ask (c.host.argumentTypes i) with
    | none => return none
    | some types =>
      if signature.isApplicable (← c.typeWorld) types then return none
      match ← ask (c.host.argumentsNode i) with
      | none => throw (.missingArguments (some i))
      | some arguments => c.warningAt arguments .cannotApplyMethod [name] []

/-- Whether the nearest method or field around a node is static. -/
def isInStaticMember (c : Checker) (i : NodeId) : Bool :=
  (c.tree.ancestorOf? i [.methodDeclaration, .fieldDeclaration]).any fun member =>
    (c.tree.modifiers member).isStatic

/-- What is said about a simple name that stands for nothing. -/
def reportUnresolved (c : Checker) (i : NodeId) (name : String) : Rule (Option Diagnostic) := do
  if c.isInStaticMember i then
    c.errorAt (some i) .cannotResolve [name] .unknownSymbol []
  else if (c.tree.parent? i).any (c.tree.isOneOf [.reference]) then
    let fixes ← ask (c.host.importFixes i)
    c.warningAt (some i) .cannotResolve [name] fixes
  else return none

/-- The rule for references to values. -/
def checkValueReference (c : Checker) (i : NodeId) (data : Reference) :
    Rule (Option Diagnostic) := do
  match data.name? with
  | none => return none
  | some name =>
    match ← ask (c.host.resolve i) with
    | .inaccessible _ => c.warningAt (some i) .cannotAccess [name] []
    | .accessible symbol =>
      if (← ask (c.host.symbolKind symbol)) = some .method then c.checkCall i symbol name
      else return none
    | .unresolved =>
      if data.qualifier.isNone then c.reportUnresolved i name else return none

/-- The rule for references to types. -/
def checkTypeReference (c : Checker) (i : NodeId) (data : Reference) :
    Rule (Option Diagnostic) := do
  match data.name? with
  | none => return none
  | some name =>
    match ← ask (c.host.resolve i) with
    | .unresolved =>
      let fixes ← ask (c.host.importFixes i)
      c.errorAt (some i) .cannotResolve [name] .unknownSymbol fixes
    | .inaccessible _ => c.errorAt (some i) .cannotAccess [name] .generic []
    | .accessible _ => return none

/-! ## The rule of a node -/

/-- Runs the rule of a node. -/
def check (c : Checker) (i : NodeId) : Rule (Option Diagnostic) := do
  match ← MonadExcept.ofExcept (Subject.ofNode c.tree i) with
  | .typeReference data => c.checkTypeReference i data
  | .valueReference data => c.checkValueReference i data
  | .typeDecl data => c.checkTypeDecl i data
  | .variableLike data => c.checkVariable i data
  | .assignment left operator right => c.checkAssignment left operator right
  | .legacyFor => c.errorAt (some i) .legacyFor [] .generic []
  | .other => return none

end Checker

end ScriptCheck
