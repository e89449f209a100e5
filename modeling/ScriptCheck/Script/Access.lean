/-
  Access and resolution.

  What is private may be used inside the same outermost type, what is protected
  in the same package and in subclasses, and what is private to a package only
  there. Resolving a reference finds the symbol it stands for and says whether
  it may be used at that place.
-/
import ScriptCheck.Resolution
import ScriptCheck.Script.Level

namespace ScriptCheck.Script

/-- The direct supertypes of a type. -/
def supertypesOf (s : Script) : Supertypes := s.top.supertypes

/-- The member of a type that a name means. -/
def findMember (s : Script) (type : SymbolId) (name : String) (count : Option Nat)
    (depth : Nat) : Option SymbolId :=
  (s.levelAt depth).member type name count

/-- Whether a type is another one or inherits from it. -/
def isSubclass (s : Script) (type ancestor : SymbolId) : Bool :=
  (lineage s.supertypesOf type).contains ancestor

/-- Whether a symbol may be used at a place. -/
def isAccessible (s : Script) (symbol : SymbolId) (site : NodeId) : Bool :=
  match s.symbols.get? symbol with
  | none => true
  | some target =>
    match target.kind with
    | .package | .variableSymbol | .parameter => true
    | .type | .method | .field =>
      let samePackage : Bool := s.symbols.packageNameOf symbol = s.binding.filePackage
      if target.flags.isPrivate then
        let declaredIn := s.symbols.outermostType? symbol
        declaredIn.isSome && declaredIn = (s.enclosingTypes site).getLast?
      else if target.flags.isProtected then
        samePackage ||
          match target.owner.filter s.symbols.isType with
          | some owner => (s.enclosingTypes site).any (s.isSubclass · owner)
          | none => false
      else if target.flags.isPackagePrivate then samePackage
      else true

/-- What a reference stands for, where `receiver` finds the types of values in front of a dot. -/
def resolveWith [Monad m] (s : Script) (receiver : NodeId → m (Option SymbolId))
    (reference : NodeId) : m Resolution := do
  let found ← s.lookupWithin receiver (qualifierLimit + 1) reference
  Resolution.ofSearch found fun symbol => pure (s.isAccessible symbol reference)

/-- What a reference stands for as far as names alone tell. -/
def resolve (s : Script) (reference : NodeId) : Resolution :=
  Id.run (s.resolveWith (fun _ => pure none) reference)

/-- Names alone resolve to what the outermost level finds. -/
theorem symbol?_resolve (s : Script) (reference : NodeId) :
    (s.resolve reference).symbol? = s.top.lookup reference := by
  unfold resolve resolveWith
  rw [lookupWithin_none]
  exact Resolution.symbol?_ofSearch _ _

end ScriptCheck.Script
