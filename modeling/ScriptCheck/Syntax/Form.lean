/-
  Forms of syntax nodes.

  The form of a node is its kind together with what the node holds: names,
  operators and the nodes it is made of. Parts that may be missing are optional
  node references; lists keep a missing part in its place.

  `Form.children` lists the parts in source order, as a tree is walked
  downwards; `Form.adopted` lists them in the order in which a new node becomes
  their parent. The two orders differ, but both name every part.
-/
import ScriptCheck.Span
import ScriptCheck.Syntax.Kind

namespace ScriptCheck

/-- The number of a node in its tree. -/
abbrev NodeId := Nat

/-- A part that may be missing. -/
abbrev Part := Option NodeId

/-- The number that stands for a missing part where a number has to be written: the largest one of
    32 bits. -/
def Part.missing : Nat := 0xFFFFFFFF

/-- The number that is written for a part. -/
def Part.number (part : Part) : Nat := part.getD missing

/-- The part that a written number means. -/
def Part.ofNumber (n : Nat) : Part := if n = missing then none else some n

/-- The parts of a whole file. -/
structure SourceFile where
  file : String
  package : Part
  imports : List Part
  statements : List Part
deriving DecidableEq, Repr, Inhabited

/-- What an import says: its dotted path without a trailing `.*`, and its variant. -/
structure Import where
  path : String
  onDemand : Bool
  isStatic : Bool
  alias? : Option String
deriving DecidableEq, Repr, Inhabited

/-- The parts of a type declaration. -/
structure TypeDecl where
  kind : TypeDeclKind
  name : Part
  extended : List Part
  implemented : List Part
  body : Part
deriving DecidableEq, Repr, Inhabited

/-- The parts of a method; without a result type it returns anything. -/
structure Method where
  name : Part
  result : Part
  parameters : List Part
  body : Part
deriving DecidableEq, Repr, Inhabited

/-- The parts of a field, a parameter or a local variable; without a type it holds anything. -/
structure Variable where
  name : Part
  type : Part
  initial : Part
  /-- Whether the variable is a parameter that takes all arguments that are left. -/
  varargs : Bool
deriving DecidableEq, Repr, Inhabited

/-- What sort of variable a declaration declares. -/
inductive VariableRole
  | field
  | parameter
  | localVariable
deriving DecidableEq, Repr, Inhabited

/-- A name with what it is looked up in; an unfinished reference lacks the name. -/
structure Reference where
  qualifier : Part
  name : Option String
  nameSpan : Span
deriving DecidableEq, Repr, Inhabited

/-- The name of a reference, unless it is missing or empty. -/
def Reference.name? (r : Reference) : Option String := r.name.filter (· ≠ "")

/-- What a reference is expected to stand for. -/
inductive ReferenceRole
  | value
  | type
deriving DecidableEq, Repr, Inhabited

/-- The two sorts of collection literal; entries of a map are keys and values in turn. -/
inductive CollectionRole
  | list
  | map
deriving DecidableEq, Repr, Inhabited

/-- What a node is and what it holds. -/
inductive Form
  | sourceFile (data : SourceFile)
  | package (name : String)
  | importing (data : Import)
  | typeDecl (data : TypeDecl)
  | classBody (members : List Part)
  | method (data : Method)
  | variableLike (role : VariableRole) (data : Variable)
  | block (statements : List Part)
  | expressionStatement (expression : Part)
  | assignment (left : Part) (operator : AssignOp) (right : Part)
  | reference (role : ReferenceRole) (data : Reference)
  | primitiveType (keyword : Primitive)
  | arrayType (element : Part)
  | call (callee arguments : Part)
  | creation (type arguments : Part)
  | argumentList (arguments : List Part)
  | literal (kind : LiteralKind) (text : String)
  | collection (role : CollectionRole) (elements : List Part)
  | parenthesized (expression : Part)
  | cast (expression type : Part)
  | closure (parameters : List Part) (body : Part)
  | forStatement (clause body : Part)
  | legacyForClause (initial condition update : Part)
  | forInClause (iterated iterable : Part)
  | identifier (text : String)
  | unknown
deriving DecidableEq, Repr, Inhabited

/-- The kind of a declaration of a variable. -/
def VariableRole.kind : VariableRole → Kind
  | .field => .fieldDeclaration
  | .parameter => .parameter
  | .localVariable => .variableDeclaration

/-- The kind of a reference. -/
def ReferenceRole.kind : ReferenceRole → Kind
  | .value => .reference
  | .type => .typeReference

/-- The kind of a collection literal. -/
def CollectionRole.kind : CollectionRole → Kind
  | .list => .listLiteral
  | .map => .mapLiteral

namespace Form

/-- The kind of a node of this form. -/
def kind : Form → Kind
  | .sourceFile _ => .sourceFile
  | .package _ => .packageDeclaration
  | .importing _ => .importDeclaration
  | .typeDecl _ => .typeDeclaration
  | .classBody _ => .classBody
  | .method _ => .methodDeclaration
  | .variableLike role _ => role.kind
  | .block _ => .block
  | .expressionStatement _ => .expressionStatement
  | .assignment .. => .assignment
  | .reference role _ => role.kind
  | .primitiveType _ => .primitiveType
  | .arrayType _ => .arrayType
  | .call .. => .call
  | .creation .. => .creation
  | .argumentList _ => .argumentList
  | .literal .. => .literal
  | .collection role _ => role.kind
  | .parenthesized _ => .parenthesized
  | .cast .. => .cast
  | .closure .. => .closure
  | .forStatement .. => .forStatement
  | .legacyForClause .. => .legacyForClause
  | .forInClause .. => .forInClause
  | .identifier _ => .identifier
  | .unknown => .unknown

/-- The same parts as a node of kind `k` holds them, for a kind kept in the same store. -/
def ofKind (k : Kind) : Form → Form
  | .variableLike role data =>
    match k with
    | .fieldDeclaration => .variableLike .field data
    | .parameter => .variableLike .parameter data
    | .variableDeclaration => .variableLike .localVariable data
    | _ => .variableLike role data
  | .reference role data =>
    match k with
    | .reference => .reference .value data
    | .typeReference => .reference .type data
    | _ => .reference role data
  | .collection role elements =>
    match k with
    | .listLiteral => .collection .list elements
    | .mapLiteral => .collection .map elements
    | _ => .collection role elements
  | form => form

/-- A node of the form's own kind holds the form itself. -/
@[simp] theorem ofKind_kind (f : Form) : f.ofKind f.kind = f := by
  cases f with
  | variableLike role data => cases role <;> rfl
  | reference role data => cases role <;> rfl
  | collection role elements => cases role <;> rfl
  | _ => rfl

/-- A single part that is missing is left out. -/
def single (part : Part) : List Part :=
  match part with
  | some node => [some node]
  | none => []

/-- The parts of a node in source order. Missing parts stand in lists only. -/
def children : Form → List Part
  | .sourceFile data => single data.package ++ data.imports ++ data.statements
  | .typeDecl data => single data.name ++ data.extended ++ data.implemented ++ single data.body
  | .classBody members => members
  | .method data => single data.result ++ single data.name ++ data.parameters ++ single data.body
  | .variableLike _ data => single data.type ++ single data.name ++ single data.initial
  | .block statements => statements
  | .expressionStatement expression => single expression
  | .assignment left _ right => single left ++ single right
  | .reference _ data => single data.qualifier
  | .arrayType element => single element
  | .call callee arguments => single callee ++ single arguments
  | .creation type arguments => single type ++ single arguments
  | .argumentList arguments => arguments
  | .collection _ elements => elements
  | .parenthesized expression => single expression
  | .cast expression type => single expression ++ single type
  | .closure parameters body => parameters ++ single body
  | .forStatement clause body => single clause ++ single body
  | .legacyForClause initial condition update =>
    single initial ++ single condition ++ single update
  | .forInClause iterated iterable => single iterated ++ single iterable
  | .package _ | .importing _ | .primitiveType _ | .literal .. | .identifier _ | .unknown => []

/-- The parts that a new node becomes the parent of, one after the other. -/
def adopted : Form → List Part
  | .sourceFile data => [data.package] ++ data.imports ++ data.statements
  | .typeDecl data => [data.name] ++ data.extended ++ data.implemented ++ [data.body]
  | .classBody members => members
  | .method data => [data.name, data.result] ++ data.parameters ++ [data.body]
  | .variableLike _ data => [data.name, data.type, data.initial]
  | .block statements => statements
  | .expressionStatement expression => [expression]
  | .assignment left _ right => [left, right]
  | .reference _ data => [data.qualifier]
  | .arrayType element => [element]
  | .call callee arguments => [callee, arguments]
  | .creation type arguments => [type, arguments]
  | .argumentList arguments => arguments
  | .collection _ elements => elements
  | .parenthesized expression => [expression]
  | .cast expression type => [expression, type]
  | .closure parameters body => parameters ++ [body]
  | .forStatement clause body => [clause, body]
  | .legacyForClause initial condition update => [initial, condition, update]
  | .forInClause iterated iterable => [iterated, iterable]
  | .package _ | .importing _ | .primitiveType _ | .literal .. | .identifier _ | .unknown => []

@[simp] theorem mem_single {c : NodeId} {part : Part} : some c ∈ single part ↔ some c = part := by
  cases part with
  | none => exact iff_of_false List.not_mem_nil nofun
  | some d => exact List.mem_singleton

/-- What a new node becomes the parent of is what its parts are, in another order at most. -/
theorem mem_adopted {c : NodeId} (form : Form) :
    some c ∈ form.adopted ↔ some c ∈ form.children := by
  cases form with
  | method data =>
    simp only [adopted, children, List.mem_append, List.mem_cons, mem_single, List.not_mem_nil,
      or_false]
    rw [or_comm (a := some c = data.name)]
  | variableLike role data =>
    simp only [adopted, children, List.mem_append, List.mem_cons, mem_single, List.not_mem_nil,
      or_false]
    rw [or_left_comm, or_assoc]
  | _ => simp [adopted, children]

end Form

end ScriptCheck
