/-
  Kinds of syntax nodes.

  A script is a tree of nodes, and the kind of a node says what it is. Besides
  the kinds this module holds the small closed sets that nodes carry:
  modifiers, flavours of type declarations, assignment operators, keywords of
  primitive types and flavours of literals.
-/

namespace ScriptCheck

/-- What a node is. -/
inductive Kind
  | sourceFile
  | packageDeclaration
  | importDeclaration
  /-- A class, interface, enum or trait. -/
  | typeDeclaration
  | classBody
  | methodDeclaration
  | fieldDeclaration
  | parameter
  | block
  /-- A local variable. -/
  | variableDeclaration
  | expressionStatement
  | assignment
  /-- A name that stands for a value, perhaps qualified (`a.b`). -/
  | reference
  /-- A name that stands for a type or a package, perhaps qualified. -/
  | typeReference
  | primitiveType
  | arrayType
  | call
  /-- A `new` expression. -/
  | creation
  | argumentList
  | literal
  | listLiteral
  | mapLiteral
  | parenthesized
  | cast
  | closure
  | forStatement
  /-- The header `(init; condition; update)` of a loop. -/
  | legacyForClause
  /-- The header `(x in xs)` of a loop. -/
  | forInClause
  | identifier
  /-- Text that could not be made sense of. -/
  | unknown
deriving DecidableEq, Repr, Inhabited

namespace Kind

/-- Every kind, in the order of their declaration. -/
def all : List Kind :=
  [.sourceFile, .packageDeclaration, .importDeclaration, .typeDeclaration, .classBody,
    .methodDeclaration, .fieldDeclaration, .parameter, .block, .variableDeclaration,
    .expressionStatement, .assignment, .reference, .typeReference, .primitiveType, .arrayType,
    .call, .creation, .argumentList, .literal, .listLiteral, .mapLiteral, .parenthesized, .cast,
    .closure, .forStatement, .legacyForClause, .forInClause, .identifier, .unknown]

/-- How many kinds there are. -/
def count : Nat := 30

/-- No kind is left out. -/
theorem mem_all (k : Kind) : k ∈ all := by cases k <;> decide

/-- The name a kind goes by in messages. -/
def name : Kind → String
  | .sourceFile => "SourceFile"
  | .packageDeclaration => "PackageDeclaration"
  | .importDeclaration => "ImportDeclaration"
  | .typeDeclaration => "TypeDeclaration"
  | .classBody => "ClassBody"
  | .methodDeclaration => "MethodDeclaration"
  | .fieldDeclaration => "FieldDeclaration"
  | .parameter => "Parameter"
  | .block => "Block"
  | .variableDeclaration => "VariableDeclaration"
  | .expressionStatement => "ExpressionStatement"
  | .assignment => "AssignmentExpression"
  | .reference => "ReferenceExpression"
  | .typeReference => "TypeOrPackageReference"
  | .primitiveType => "PrimitiveType"
  | .arrayType => "ArrayType"
  | .call => "CallExpression"
  | .creation => "NewExpression"
  | .argumentList => "ArgumentList"
  | .literal => "Literal"
  | .listLiteral => "ListLiteral"
  | .mapLiteral => "MapLiteral"
  | .parenthesized => "ParenthesizedExpression"
  | .cast => "CastExpression"
  | .closure => "ClosureExpression"
  | .forStatement => "ForStatement"
  | .legacyForClause => "LegacyForClause"
  | .forInClause => "ForInClause"
  | .identifier => "Identifier"
  | .unknown => "Unknown"

/-- The kind under whose name the data of a node is kept. Fields, parameters and local variables
    look alike and are kept together, and so are the two sorts of reference and the two sorts of
    collection literal. -/
def store : Kind → Kind
  | .parameter | .variableDeclaration => .fieldDeclaration
  | .typeReference => .reference
  | .mapLiteral => .listLiteral
  | k => k

/-- A store is kept under its own name. -/
@[simp] theorem store_store (k : Kind) : k.store.store = k.store := by cases k <;> rfl

end Kind

/-- The modifiers of a declaration. -/
structure Modifiers where
  isStatic : Bool
  isPublic : Bool
  isPrivate : Bool
  isProtected : Bool
  isFinal : Bool
  isAbstract : Bool
deriving DecidableEq, Repr

namespace Modifiers

/-- No modifier at all. -/
def none : Modifiers := ⟨false, false, false, false, false, false⟩

instance : Inhabited Modifiers := ⟨none⟩

end Modifiers

/-- Flavours of type declarations. -/
inductive TypeDeclKind
  | classType
  | interfaceType
  | enumType
  | traitType
deriving DecidableEq, Repr, Inhabited

/-- Operators that store a value. -/
inductive AssignOp
  | assign
  | plus
  | minus
  | star
  | slash
  | percent
  | power
  | shiftLeft
  | shiftRight
  | and
  | or
  | xor
  | elvis
deriving DecidableEq, Repr, Inhabited

/-- Plain `=`; every other operator reads the target before it writes it. -/
def AssignOp.isSimple (op : AssignOp) : Bool := op = .assign

/-- Types that are no classes. -/
inductive Primitive
  | boolean
  | char
  | byte
  | short
  | int
  | long
  | float
  | double
  | void
deriving DecidableEq, Repr, Inhabited

/-- Flavours of literals. -/
inductive LiteralKind
  | integer
  | long
  /-- A fraction without a suffix, exact in this language. -/
  | decimal
  | double
  | float
  | string
  /-- A string with embedded expressions. -/
  | gString
  | true
  | false
  | null
deriving DecidableEq, Repr, Inhabited

end ScriptCheck
