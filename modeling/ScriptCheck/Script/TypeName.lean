/-
  Names of types.

  A simple name in type position is looked for in seven places, one after the
  other: the types around it and those nested in them, the types of the file,
  the imports of single types, the package of the file, the imports on demand,
  the imports that need not be declared, and last the packages. The first place
  that knows the name decides.
-/
import ScriptCheck.Script.Basic

namespace ScriptCheck.Script

/-- The type of the given name that is declared right inside another one. -/
def nestedType? (s : Script) (outer : SymbolId) (name : String) : Option SymbolId :=
  (s.symbols.membersNamed outer name).find? s.symbols.isType

/-- A type around the place, or one nested in it. -/
def enclosingType? (s : Script) (site : NodeId) (name : String) : Option SymbolId :=
  (s.enclosingTypes site).findSome? fun outer =>
    if (s.symbols.get? outer).any (·.name = name) then some outer else s.nestedType? outer name

/-- A type that is a statement of the file. -/
def fileType? (s : Script) (name : String) : Option SymbolId :=
  s.statements.findSome? fun statement => do
    let i ← statement
    if s.tree.isOneOf [.typeDeclaration] i && s.tree.declaredName? i = some name then
      s.symbolOf? i
    else none

/-- The simple name that the import of a single thing brings in. -/
def importedName (data : Import) : String := data.alias?.getD (Dotted.last data.path)

/-- A type that is imported by itself. -/
def importedType? (s : Script) (name : String) : Option SymbolId :=
  s.imports.findSome? fun data =>
    if !data.onDemand && !data.isStatic && importedName data = name then
      s.symbols.type? data.path
    else none

/-- A type in the package of the file. -/
def packageType? (s : Script) (name : String) : Option SymbolId :=
  s.symbols.type? (Dotted.within s.binding.filePackage name)

/-- A type inside something that is imported on demand. -/
def onDemandType? (s : Script) (name : String) : Option SymbolId :=
  s.imports.findSome? fun data =>
    if data.onDemand then s.symbols.type? (data.path ++ "." ++ name) else none

/-- A type that is imported without a declaration. -/
def implicitType? (s : Script) (name : String) : Option SymbolId :=
  s.implicitImports.findSome? fun path =>
    match Dotted.onDemand? path with
    | some outer => s.symbols.type? (outer ++ "." ++ name)
    | none => if Dotted.last path = name then s.symbols.type? path else none

/-- What a simple name stands for in type position at a place: a type or a package. -/
def lookupType (s : Script) (site : NodeId) (name : String) : Option SymbolId :=
  s.enclosingType? site name <|> s.fileType? name <|> s.importedType? name <|>
    s.packageType? name <|> s.onDemandType? name <|> s.implicitType? name <|>
    s.symbols.package? name

end ScriptCheck.Script
