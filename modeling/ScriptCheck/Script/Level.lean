/-
  Lookups by depth.

  To look up a qualified name, its qualifier has to be looked up; to find a
  member, the supertypes of a type; and to find those, the names in its
  declaration. All of these can lead in a circle. Each such step therefore goes
  one level down, and the lowest level knows nothing. A `Level` holds the three
  lookups of one depth, and `levelAbove` builds them from those one step
  further down.

  Only a value in front of a dot needs more than names: its type. A lookup that
  is given a way to find such types is a computation in the monad of that way;
  a level's own lookup does without.
-/
import ScriptCheck.Script.Locals
import ScriptCheck.Script.Members
import ScriptCheck.Script.TypeName

namespace ScriptCheck

/-- Finds the member of a type that a name means, called with so many arguments or not at all. -/
abbrev MemberSearch := SymbolId → String → Option Nat → Option SymbolId

/-- The lookups of one depth. -/
structure Level where
  /-- What a reference stands for. -/
  lookup : NodeId → Option SymbolId
  /-- The direct supertypes of a type. -/
  supertypes : Supertypes
  /-- The member of a type that a name means. -/
  member : MemberSearch

/-- What stands in front of a dot. -/
inductive Qualifier
  | package (qualifiedName : String)
  | type (id : SymbolId)
deriving DecidableEq, Repr

namespace Script

/-- The direct supertypes of a type: those its library names, those its declaration names, and the
    root class if there are no others. -/
def directSupertypes (s : Script) (lookup : NodeId → Option SymbolId) : Supertypes := fun type =>
  match s.symbols.get? type with
  | none => []
  | some symbol =>
    let named := symbol.supertypes.filterMap s.symbols.type?
    let clauses :=
      match symbol.declaration.bind s.tree.typeDeclAt? with
      | some data => data.extended ++ data.implemented
      | none => []
    let declared := clauses.filterMap fun clause =>
      (clause.bind lookup).filter fun parent => parent ≠ type && s.symbols.isType parent
    match named ++ declared with
    | [] => ((s.symbols.type? "java.lang.Object").filter (· ≠ type)).toList
    | parents => parents

/-- What a name stands for directly inside a type body. -/
def classScopeMember (supertypes : Supertypes) (member : MemberSearch) : MemberSearch :=
  fun type name count =>
    if name = "this" then some type
    else if name = "super" then (supertypes type).head?
    else member type name count

/-- A member that a static import brings in under a name. -/
def staticImport? (s : Script) (member : MemberSearch) (name : String) (count : Option Nat) :
    Option SymbolId :=
  s.imports.findSome? fun data =>
    if !data.isStatic then none
    else if data.onDemand then do
      member (← s.symbols.type? data.path) name count
    else do
      let (outer, imported) ← Dotted.splitLast? data.path
      if data.alias?.getD imported = name then
        member (← s.symbols.type? outer) imported count
      else none

/-- What a simple name stands for in value position, types aside. `inScope` finds members right
    inside a type body, `member` those that are imported. -/
def lookupValue (s : Script) (inScope member : MemberSearch) (reference : NodeId) (name : String)
    (count : Option Nat) : Option SymbolId :=
  s.searchScopes
      (s.offered? (inScope · name count) (s.pickOverload · count) name)
      false reference (s.tree.ancestors reference) <|>
    s.staticImport? member name count

/-- What a node in front of a dot stands for. `resolve` looks up names, and `receiver` finds the
    type of a value. -/
def qualifierVia [Monad m] (s : Script) (resolve receiver : NodeId → m (Option SymbolId))
    (qualifier : NodeId) : m (Option Qualifier) := do
  if s.tree.isOneOf [.reference, .typeReference] qualifier then
    match ← resolve qualifier with
    | none => return none
    | some id =>
      match s.symbols.get? id with
      | none => return none
      | some symbol =>
        match symbol.kind with
        | .package => return some (.package symbol.qualifiedName)
        | .type => return some (.type id)
        | _ => return (← receiver qualifier).map .type
  else
    return (← receiver qualifier).map .type

/-- What a name stands for behind a dot. -/
def insideQualifier (s : Script) (member : MemberSearch) (name : String) (count : Option Nat) :
    Qualifier → Option SymbolId
  | .package outer =>
    s.symbols.type? (outer ++ "." ++ name) <|> s.symbols.package? (outer ++ "." ++ name)
  | .type id => member id name count

/-- Looks a reference up, given the lookup of qualifiers and the types of values before a dot. -/
def lookupVia [Monad m] (s : Script) (inScope member : MemberSearch)
    (resolve receiver : NodeId → m (Option SymbolId)) (reference : NodeId) :
    m (Option SymbolId) := do
  match s.tree.form? reference with
  | some (.reference role data) =>
    match data.name? with
    | none => return none
    | some name =>
      let count := s.argumentCount? reference
      match data.qualifier, role with
      | some qualifier, _ =>
        let found ← s.qualifierVia resolve receiver qualifier
        return found.bind (s.insideQualifier member name count)
      | none, .type => return s.lookupType reference name
      | none, .value =>
        return s.lookupValue inScope member reference name count <|> s.lookupType reference name
  | _ => return none

/-- The lookups one step above others. -/
def levelAbove (s : Script) (below : Level) : Level :=
  let supertypes := s.directSupertypes below.lookup
  let member := s.memberWith below.supertypes
  let inScope := classScopeMember supertypes member
  { lookup := fun reference => Id.run
      (s.lookupVia inScope below.member (fun q => pure (below.lookup q)) (fun _ => pure none)
        reference)
    supertypes := supertypes
    member := member }

/-- The lookups with so many levels to go; with none left nothing is found. -/
def level (s : Script) : Nat → Level
  | 0 => ⟨fun _ => none, fun _ => [], fun _ _ _ => none⟩
  | n + 1 => s.levelAbove (s.level n)

/-- The lookups of a depth. -/
def levelAt (s : Script) (depth : Nat) : Level := s.level (qualifierLimit + 1 - depth)

/-- The lookups of the outermost depth. -/
def top (s : Script) : Level := s.levelAt 0

/-- Looks a reference up with `n` levels to go, where `receiver` finds the types of values. -/
def lookupWithin [Monad m] (s : Script) (receiver : NodeId → m (Option SymbolId)) :
    Nat → NodeId → m (Option SymbolId)
  | 0, _ => return none
  | n + 1, reference =>
    let below := s.level n
    let here := s.levelAbove below
    s.lookupVia (classScopeMember here.supertypes here.member) below.member
      (s.lookupWithin receiver n) receiver reference

/-! ## Levels -/

/-- Without types of values, the lookup with `n` levels to go is that of level `n`. -/
theorem lookupWithin_none (s : Script) (n : Nat) :
    (s.lookupWithin (fun _ => pure none) n : NodeId → Id (Option SymbolId)) =
      fun reference => pure ((s.level n).lookup reference) := by
  induction n with
  | zero => rfl
  | succ n ih =>
    funext reference
    rw [lookupWithin, ih]
    rfl

end Script

end ScriptCheck
