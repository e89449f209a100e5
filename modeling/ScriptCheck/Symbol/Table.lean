/-
  Symbol tables.

  A table numbers symbols in the order in which they are added and never drops
  one. Packages and types are looked up by qualified name, types also by simple
  name, and members by owner and name. For each of these look-ups there is an
  index beside the list of symbols, and whatever adds a symbol files it where
  it belongs. Adding a package or type whose qualified name is there already
  gives back the symbol that is there, so each qualified name stands for one
  package and one type at most.

  A symbol's number is a natural number where 32 bits are meant, so fewer than
  2^32 symbols are assumed: `push` never runs out of numbers.
-/
import ScriptCheck.Limits
import ScriptCheck.Symbol.Index
import ScriptCheck.Text.Dotted

namespace ScriptCheck

/-- The symbols that are known, by number, with their indexes. -/
structure SymbolTable where
  symbols : Array Symbol
  /-- The packages by qualified name. -/
  packages : List (String × SymbolId)
  /-- The types by qualified name. -/
  types : List (String × SymbolId)
  /-- All that has an owner and is no package, by owner and name. -/
  members : Index (SymbolId × String)
  /-- The types by simple name. -/
  typeNames : Index String
deriving Repr, Inhabited

namespace SymbolTable

/-- The table without symbols. -/
def empty : SymbolTable := ⟨#[], [], [], .empty, .empty⟩

/-- How many symbols there are. -/
def size (t : SymbolTable) : Nat := t.symbols.size

/-- The symbol with the given number. -/
def get? (t : SymbolTable) (id : SymbolId) : Option Symbol := t.symbols[id]?

/-! ## Look-ups -/

/-- The package with the given qualified name. -/
def package? (t : SymbolTable) (qualifiedName : String) : Option SymbolId :=
  t.packages.lookup qualifiedName

/-- The type with the given qualified name. -/
def type? (t : SymbolTable) (qualifiedName : String) : Option SymbolId :=
  t.types.lookup qualifiedName

/-- The types with the given simple name, in the order in which they were added. -/
def typesNamed (t : SymbolTable) (name : String) : List SymbolId := t.typeNames.under name

/-- The members of `owner` with the given name, in the order in which they were added. Packages are
    nobody's members. -/
def membersNamed (t : SymbolTable) (owner : SymbolId) (name : String) : List SymbolId :=
  t.members.under (owner, name)

/-- Whether a symbol is there and is a type. -/
def isType (t : SymbolTable) (id : SymbolId) : Bool := (t.get? id).any Symbol.isType

/-- Whether a symbol is there and can be called with `count` arguments. -/
def accepts (t : SymbolTable) (id : SymbolId) (count : Nat) : Bool :=
  (t.get? id).any (·.accepts count)

/-! ## Growth -/

/-- A symbol of which nothing but its name, kind, flags and owner is known. -/
def plain (name : String) (kind : SymbolKind) (flags : SymbolFlags) (owner : Option SymbolId) :
    Symbol where
  id := 0
  name := name
  kind := kind
  flags := flags
  owner := owner
  qualifiedName := name
  declaration := none
  supertypes := []
  arity := none

/-- Files a symbol among the members of its owner, unless it is a package. -/
def fileMember (members : Index (SymbolId × String)) (s : Symbol) (id : SymbolId) :
    Index (SymbolId × String) :=
  match s.owner with
  | some owner => if s.kind = .package then members else members.file (owner, s.name) id
  | none => members

/-- Adds a symbol under the next number. -/
def push (t : SymbolTable) (s : Symbol) : SymbolTable × SymbolId :=
  ({ t with
      symbols := t.symbols.push { s with id := t.size }
      members := fileMember t.members s t.size },
    t.size)

/-- Adds a package under its qualified name. -/
def pushPackage (t : SymbolTable) (s : Symbol) : SymbolTable × SymbolId :=
  let (t, id) := t.push s
  ({ t with packages := (s.qualifiedName, id) :: t.packages }, id)

/-- Adds a type under its names. -/
def pushType (t : SymbolTable) (s : Symbol) : SymbolTable × SymbolId :=
  let (t, id) := t.push s
  ({ t with
      types := (s.qualifiedName, id) :: t.types
      typeNames := t.typeNames.file s.name id },
    id)

@[simp] theorem get?_push_self (t : SymbolTable) (s : Symbol) :
    (t.push s).1.get? (t.push s).2 = some { s with id := t.size } :=
  Array.getElem?_push_size

/-- A new symbol changes nothing about the old ones. -/
theorem get?_push_of_lt (t : SymbolTable) (s : Symbol) {id : SymbolId} (h : id < t.size) :
    (t.push s).1.get? id = t.get? id := by
  change (t.symbols.push { s with id := t.size })[id]? = t.symbols[id]?
  rw [Array.getElem?_push_lt h, Array.getElem?_eq_getElem h]

/-- A package is a symbol like any other. -/
@[simp] theorem get?_pushPackage (t : SymbolTable) (s : Symbol) (id : SymbolId) :
    (t.pushPackage s).1.get? id = (t.push s).1.get? id := rfl

/-- A type is a symbol like any other. -/
@[simp] theorem get?_pushType (t : SymbolTable) (s : Symbol) (id : SymbolId) :
    (t.pushType s).1.get? id = (t.push s).1.get? id := rfl

/-- The package of the given name, which is added inside `owner` if it is new. -/
def ensurePackage (t : SymbolTable) (owner : Option SymbolId) (qualifiedName : String) :
    SymbolTable × SymbolId :=
  match t.package? qualifiedName with
  | some id => (t, id)
  | none =>
    t.pushPackage { plain (Dotted.last qualifiedName) .package .none owner with
      qualifiedName := qualifiedName }

/-- Adds a package with all packages that enclose it. The empty name is the default package. -/
def addPackage (t : SymbolTable) (qualifiedName : String) : SymbolTable × SymbolId :=
  let (t, owner) := (Dotted.enclosing qualifiedName).foldl
    (fun (t, owner) outer =>
      let (t, id) := t.ensurePackage owner outer
      (t, some id))
    (t, none)
  t.ensurePackage owner qualifiedName

/-- The type of the given qualified name, which is added if it is new. -/
def ensureType (t : SymbolTable) (name qualifiedName : String) (flags : SymbolFlags)
    (owner : Option SymbolId) (declaration : Part) : SymbolTable × SymbolId :=
  match t.type? qualifiedName with
  | some id => (t, id)
  | none =>
    t.pushType { plain name .type flags owner with
      qualifiedName := qualifiedName, declaration := declaration }

/-- Changes the direct supertypes of a symbol. -/
def setSupertypes (t : SymbolTable) (id : SymbolId) (supertypes : List String) : SymbolTable :=
  { t with symbols := t.symbols.modify id fun s => { s with supertypes := supertypes } }

/-- Adds a library type with its package and its direct supertypes. If a type of that name is
    there, only its supertypes change. -/
def addType (t : SymbolTable) (qualifiedName : String) (flags : SymbolFlags)
    (supertypes : List String) : SymbolTable × SymbolId :=
  let (package, name) := (Dotted.splitLast? qualifiedName).getD ("", qualifiedName)
  let (t, owner) := t.addPackage package
  let (t, id) := t.ensureType name qualifiedName flags (some owner) none
  (t.setSupertypes id supertypes, id)

/-- Adds a type inside another one. -/
def addNestedType (t : SymbolTable) (outer : SymbolId) (name : String) (flags : SymbolFlags)
    (declaration : Part) : SymbolTable × SymbolId :=
  let qualifiedName :=
    match t.get? outer with
    | some s => s.qualifiedName ++ "." ++ name
    | none => name
  t.ensureType name qualifiedName flags (some outer) declaration

/-- Adds a field of a type. -/
def addField (t : SymbolTable) (owner : SymbolId) (name : String) (flags : SymbolFlags) :
    SymbolTable × SymbolId :=
  t.push (plain name .field flags (some owner))

/-- Marks what takes any number of arguments. -/
def markVarargs (flags : SymbolFlags) (arity : Option Arity) : SymbolFlags :=
  if arity.any Arity.varargs then { flags with isVarargs := true } else flags

/-- Adds a method of a type. -/
def addMethod (t : SymbolTable) (owner : SymbolId) (name : String) (flags : SymbolFlags)
    (arity : Arity) : SymbolTable × SymbolId :=
  t.push { plain name .method (markVarargs flags (some arity)) (some owner) with
    arity := some arity }

/-- Adds what a node of the script declares, unless it is a type. -/
def addDeclared (t : SymbolTable) (name : String) (kind : SymbolKind) (flags : SymbolFlags)
    (owner : Option SymbolId) (declaration : NodeId) (arity : Option Arity) :
    SymbolTable × SymbolId :=
  t.push { plain name kind (markVarargs flags arity) owner with
    declaration := some declaration, arity := arity }

/-! ## Owners -/

/-- The first `budget` symbols on the way from a symbol through its owners. -/
def ownersFrom (t : SymbolTable) : Nat → Option SymbolId → List Symbol
  | 0, _ => []
  | _ + 1, none => []
  | budget + 1, some id =>
    match t.get? id with
    | some s => s :: t.ownersFrom budget s.owner
    | none => []

/-- A symbol, its owner, the owner of that, and so on. -/
def owners (t : SymbolTable) (id : SymbolId) : List Symbol :=
  t.ownersFrom (hierarchyLimit + 1) (some id)

/-- The qualified name of the package that a symbol lives in; the default package has none. -/
def packageNameOf (t : SymbolTable) (id : SymbolId) : String :=
  (((t.owners id).find? (·.kind = .package)).map Symbol.qualifiedName).getD ""

/-- The outermost type around a symbol, which is the symbol itself for a type inside no other. -/
def outermostType? (t : SymbolTable) (id : SymbolId) : Option SymbolId :=
  (((t.owners id).filter Symbol.isType).getLast?).map Symbol.id

end SymbolTable

end ScriptCheck
