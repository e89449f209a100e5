/-
  Binding of a script.

  Binding walks through a script and enters what it declares into the symbol
  table of the libraries: types, methods, fields, parameters and local
  variables. It remembers which node declared which symbol, and which symbol
  stands for the parameter `it` that a closure without parameters has.
-/
import ScriptCheck.Symbol.Table
import ScriptCheck.Syntax.Walk

namespace ScriptCheck

/-- The symbols of a script on top of those of its libraries. -/
structure Binding where
  symbols : SymbolTable
  /-- The symbol of each declaring node, the latest entry first. -/
  declared : List (NodeId × SymbolId)
  /-- The symbol `it` of each closure without parameters, the latest entry first. -/
  implicit : List (NodeId × SymbolId)
  /-- The package of the script; the default package has no name. -/
  filePackage : String
  /-- The node of the whole file. -/
  root : Part
deriving Repr, Inhabited

namespace Binding

/-- Nothing but libraries. -/
def ofLibraries (symbols : SymbolTable) : Binding := ⟨symbols, [], [], "", none⟩

/-- The symbol that a node declares. -/
def symbolOf? (b : Binding) (declaration : NodeId) : Option SymbolId :=
  b.declared.lookup declaration

/-- The symbol `it` of a closure. -/
def implicitOf? (b : Binding) (closure : NodeId) : Option SymbolId := b.implicit.lookup closure

/-- Enters a method or variable under the name that its node gives it, if it gives one. -/
def declare (b : Binding) (t : Tree) (i : NodeId) (kind : SymbolKind) (owner : Option SymbolId)
    (arity : Option Arity) : Binding :=
  match t.declaredName? i with
  | none => b
  | some name =>
    let flags := SymbolFlags.ofModifiers (t.modifiers i)
    let (symbols, id) := b.symbols.addDeclared name kind flags owner i arity
    { b with symbols := symbols, declared := (i, id) :: b.declared }

/-- Whether declarations of this flavour declare interfaces. -/
def isInterface : TypeDeclKind → Bool
  | .interfaceType | .traitType => true
  | .classType | .enumType => false

/-- Enters a type inside the type around it, or else inside the package. -/
def declareType (b : Binding) (t : Tree) (package : SymbolId) (outer : Option SymbolId)
    (i : NodeId) (data : TypeDecl) : Binding × Option SymbolId :=
  match data.name.bind t.textAt? with
  | none => (b, none)
  | some name =>
    let flags := { SymbolFlags.ofModifiers (t.modifiers i) with
      isInterface := isInterface data.kind }
    let (symbols, id) :=
      match outer with
      | some outer => b.symbols.addNestedType outer name flags (some i)
      | none =>
        b.symbols.ensureType name (Dotted.within b.filePackage name) flags (some package) (some i)
    ({ b with symbols := symbols, declared := (i, id) :: b.declared }, some id)

/-- The parameters of a method, less the parts that are no variables. -/
def parametersOf (t : Tree) (data : Method) : List Variable :=
  data.parameters.filterMap (·.bind t.variableAt?)

/-- Enters what a single node declares inside `outer`; returns the type around its parts. -/
def declareNode (b : Binding) (t : Tree) (package : SymbolId) (outer : Option SymbolId)
    (i : NodeId) : Form → Binding × Option SymbolId
  | .typeDecl data =>
    let (b, id) := b.declareType t package outer i data
    -- The members of a type without a name belong to the type around it.
    (b, id.or outer)
  | .method data =>
    (b.declare t i .method outer (some (Arity.ofParameters (parametersOf t data))), outer)
  | .variableLike .field _ => (b.declare t i .field outer none, outer)
  | .variableLike .parameter _ => (b.declare t i .parameter none none, outer)
  | .variableLike .localVariable _ => (b.declare t i .variableSymbol none none, outer)
  | .closure [] _ =>
    let (symbols, id) := b.symbols.addDeclared "it" .parameter .none none i none
    ({ b with symbols := symbols, implicit := (i, id) :: b.implicit }, outer)
  | _ => (b, outer)

/-- Enters what a node and the nodes at most `budget` levels below it declare, parents first. -/
def bindWithin (t : Tree) (package : SymbolId) : Nat → Option SymbolId → Binding → Part → Binding
  | budget + 1, outer, b, some i =>
    match t.form? i with
    | none => b
    | some form =>
      let (b, inner) := b.declareNode t package outer i form
      form.children.foldl (bindWithin t package budget inner) b
  | _, _, b, _ => b

/-- Binds the file at `root`; a node that is no file changes nothing. -/
def bindFile (b : Binding) (t : Tree) (root : NodeId) : Binding :=
  match t.form? root with
  | some (.sourceFile file) =>
    let name :=
      match file.package.bind t.form? with
      | some (.package name) => name
      | _ => ""
    let (symbols, package) := b.symbols.addPackage name
    let b := { b with symbols := symbols, filePackage := name, root := some root }
    file.statements.foldl (bindWithin t package t.size none) b
  | _ => b

end Binding

end ScriptCheck
