/-
  Two scripts that differ in the name of a variable.

  `Renames` relates a script to the one in which a variable and some references
  have another name. The lemmas of the frame say that whatever looks at types,
  members and places has the same answer in both: they go through the questions
  about a script from the simple ones to the access to a symbol.
-/
import ScriptCheck.Proofs.Binding.Renaming
import ScriptCheck.Proofs.Script.Levels
import ScriptCheck.Proofs.Script.Scopes

namespace ScriptCheck.Script

/-- The second script is the first one with the chosen nodes called `name`, and of what they declare
    only the variable declared at `d` has another name for it. -/
structure Renames (s s' : Script) (chosen : NodeId → Bool) (name : String) (d : NodeId) :
    Prop where
  tree : s.tree.RenamesVariable s'.tree chosen name d
  binding : s'.binding = s.binding.renamed d name
  implicitImports : s'.implicitImports = s.implicitImports

section

variable {s s' : Script} {chosen : NodeId → Bool} {name : String} {d root : NodeId}

/-! ## Places and imports -/

theorem Renames.symbols (h : s.Renames s' chosen name d) :
    s'.symbols = s.symbols.renamed d name := by
  unfold Script.symbols
  rw [h.binding]
  rfl

/-- Every node has the symbol that it had. -/
theorem Renames.symbolOf? (h : s.Renames s' chosen name d) : s'.symbolOf? = s.symbolOf? := by
  funext i
  unfold Script.symbolOf?
  rw [h.binding]
  rfl

theorem Renames.file? (h : s.Renames s' chosen name d) : s'.file? = s.file? := by
  have hroot : s'.binding.root = s.binding.root := by
    rw [h.binding]
    rfl
  unfold Script.file?
  rw [hroot]
  cases s.binding.root with
  | none => rfl
  | some i =>
    rw [Option.bind_some, Option.bind_some]
    have hi := h.tree.recalled i
    generalize s.tree.form? i = held, s'.tree.form? i = now at hi
    cases hi <;> rfl

theorem Renames.statements (h : s.Renames s' chosen name d) : s'.statements = s.statements := by
  unfold Script.statements
  rw [h.file?]

theorem Renames.imports (h : s.Renames s' chosen name d) : s'.imports = s.imports := by
  unfold Script.imports
  rw [h.file?]
  refine List.filterMap_congr fun part _ => ?_
  cases part with
  | none => rfl
  | some i =>
    rw [Option.bind_some, Option.bind_some]
    have hi := h.tree.recalled i
    generalize s.tree.form? i = held, s'.tree.form? i = now at hi
    cases hi <;> rfl

theorem Renames.enclosingTypes (h : s.Renames s' chosen name d) (site : NodeId) :
    s'.enclosingTypes site = s.enclosingTypes site := by
  unfold Script.enclosingTypes
  rw [h.tree.ancestors, h.tree.isOneOf, h.symbolOf?]

theorem Renames.argumentsIn (h : s.Renames s' chosen name d) (list : Part) :
    s'.argumentsIn list = s.argumentsIn list := by
  unfold Script.argumentsIn
  rw [show s'.tree.argumentListAt? = s.tree.argumentListAt? from funext h.tree.argumentListAt?]

theorem Renames.argumentCount? (h : s.Renames s' chosen name d) (reference : NodeId) :
    s'.argumentCount? reference = s.argumentCount? reference := by
  unfold Script.argumentCount?
  rw [h.tree.parent?]
  cases s.tree.parent? reference with
  | none => rfl
  | some call =>
    dsimp only [Option.bind_eq_bind, Option.bind_some]
    have hi := h.tree.recalled call
    generalize s.tree.form? call = held, s'.tree.form? call = now at hi
    cases hi with
    | same =>
      cases held with
      | none => rfl
      | some form =>
        cases form with
        | call callee arguments =>
          dsimp only [Option.bind_some]
          rw [h.argumentsIn]
        | _ => rfl
    | identifier text => rfl
    | reference role data => rfl

/-! ## Types -/

theorem Renames.isType (h : s.Renames s' chosen name d) : s'.symbols.isType = s.symbols.isType := by
  funext id
  rw [h.symbols, SymbolTable.isType_renamed]

theorem Renames.type? (h : s.Renames s' chosen name d) : s'.symbols.type? = s.symbols.type? := by
  rw [h.symbols]
  rfl

theorem Renames.package? (h : s.Renames s' chosen name d) :
    s'.symbols.package? = s.symbols.package? := by
  rw [h.symbols]
  rfl

theorem Renames.filePackage (h : s.Renames s' chosen name d) :
    s'.binding.filePackage = s.binding.filePackage := by
  rw [h.binding]
  rfl

theorem Renames.nestedType? (h : s.Renames s' chosen name d) (outer : SymbolId) (type : String) :
    s'.nestedType? outer type = s.nestedType? outer type := by
  unfold Script.nestedType?
  rw [h.isType, h.symbols]
  rfl

/-- The types around a place keep their names. -/
theorem Renames.enclosingType? (h : s.Renames s' chosen name d)
    (hs : Binding.Sound s.tree root s.binding) (ht : s.tree.Built) (site : NodeId)
    (type : String) : s'.enclosingType? site type = s.enclosingType? site type := by
  unfold Script.enclosingType?
  rw [h.enclosingTypes]
  refine findSome?_congr fun outer hm => ?_
  -- The symbol of a type declaration is no variable, so it has the name that it had.
  obtain ⟨symbol, hget, hk⟩ :=
    SymbolTable.isType_iff.mp (isType_of_mem_enclosingTypes hs ht.edited hm)
  have hne : symbol.kind ≠ .variableSymbol := hk ▸ nofun
  rw [h.symbols, SymbolTable.get?_renamed_of_kind_ne hget hne, hget, h.nestedType?]

theorem Renames.fileType? (h : s.Renames s' chosen name d) (type : String) :
    s'.fileType? type = s.fileType? type := by
  unfold Script.fileType?
  rw [h.statements]
  refine findSome?_congr fun statement _ => ?_
  cases statement with
  | none => rfl
  | some i =>
    dsimp only [Option.bind_eq_bind, Option.bind_some]
    rw [h.tree.isOneOf, h.symbolOf?, h.tree.declaredName?]
    -- Only the variable has another name, and it is not asked for its name here.
    by_cases hi : i = d
    · have hkind : s.tree.isOneOf [.typeDeclaration] i = false := by
        unfold Tree.isOneOf
        rw [hi, h.tree.kind]
        rfl
      rw [hkind]
      rfl
    · rw [if_neg hi]

/-- A name in type position stands for the same thing. -/
theorem Renames.lookupType (h : s.Renames s' chosen name d)
    (hs : Binding.Sound s.tree root s.binding) (ht : s.tree.Built) (site : NodeId)
    (type : String) : s'.lookupType site type = s.lookupType site type := by
  unfold Script.lookupType importedType? packageType? onDemandType? implicitType?
  rw [h.enclosingType? hs ht, h.fileType?, h.imports, h.implicitImports, h.type?, h.package?,
    h.filePackage]

/-! ## Members -/

/-- Members are no variables, so they are found under their names as before. -/
theorem Renames.inherited (h : s.Renames s' chosen name d) (supertypes : Supertypes)
    (kinds : List SymbolKind) : s'.inherited supertypes kinds = s.inherited supertypes kinds := by
  have hkinds : (fun m => (s'.symbols.get? m).any (kinds.contains ·.kind)) =
      fun m => (s.symbols.get? m).any (kinds.contains ·.kind) := by
    funext m
    rw [h.symbols, SymbolTable.get?_renamed]
    cases s.symbols.get? m with
    | none => rfl
    | some symbol =>
      rw [Option.map_some, Option.any_some, Option.any_some, Symbol.kind_renamed]
  funext type member
  unfold Script.inherited
  rw [hkinds, h.symbols]
  rfl

theorem Renames.accepts (h : s.Renames s' chosen name d) :
    s'.symbols.accepts = s.symbols.accepts := by
  funext id count
  rw [h.symbols, SymbolTable.accepts_renamed]

theorem Renames.pickOverload (h : s.Renames s' chosen name d) :
    s'.pickOverload = s.pickOverload := by
  unfold Script.pickOverload
  rw [h.accepts]

theorem Renames.memberWith (h : s.Renames s' chosen name d) : s'.memberWith = s.memberWith := by
  funext supertypes type member count
  unfold Script.memberWith Script.accessor? Script.fields Script.methods
  rw [h.inherited, h.inherited, h.pickOverload, h.accepts]

/-- The supertypes of a type are the same if the names in its declaration stand for the same. -/
theorem Renames.directSupertypes (h : s.Renames s' chosen name d)
    {lookup lookup' : NodeId → Option SymbolId}
    (hlookup : ∀ c data i, s.tree.typeDeclAt? c = some data →
      some i ∈ data.extended ++ data.implemented → lookup' i = lookup i) :
    s'.directSupertypes lookup' = s.directSupertypes lookup := by
  funext type
  unfold Script.directSupertypes
  rw [h.isType, h.type?, h.symbols, SymbolTable.get?_renamed]
  cases s.symbols.get? type with
  | none => rfl
  | some symbol =>
    dsimp only [Option.map_some]
    rw [Symbol.supertypes_renamed, Symbol.declaration_renamed,
      show s'.tree.typeDeclAt? = s.tree.typeDeclAt? from funext h.tree.typeDeclAt?]
    cases hdecl : symbol.declaration.bind s.tree.typeDeclAt? with
    | none => rfl
    | some data =>
      obtain ⟨c, _, hc⟩ := Option.bind_eq_some_iff.mp hdecl
      have hclauses : ∀ clause ∈ data.extended ++ data.implemented,
          clause.bind lookup' = clause.bind lookup := by
        intro clause hm
        cases clause with
        | none => rfl
        | some i => exact hlookup c data i hc hm
      dsimp only
      rw [List.filterMap_congr fun clause hm => congrArg (Option.filter _) (hclauses clause hm)]

theorem Renames.staticImport? (h : s.Renames s' chosen name d) (member : MemberSearch)
    (asked : String) (count : Option Nat) :
    s'.staticImport? member asked count = s.staticImport? member asked count := by
  unfold Script.staticImport?
  rw [h.imports, h.type?]

theorem Renames.insideQualifier (h : s.Renames s' chosen name d) (member : MemberSearch)
    (asked : String) (count : Option Nat) :
    s'.insideQualifier member asked count = s.insideQualifier member asked count := by
  funext qualifier
  unfold Script.insideQualifier
  rw [h.type?, h.package?]

theorem Renames.asQualifier (h : s.Renames s' chosen name d) (id : SymbolId) :
    s'.asQualifier id = s.asQualifier id := by
  unfold Script.asQualifier
  rw [h.symbols, SymbolTable.get?_renamed]
  cases s.symbols.get? id with
  | none => rfl
  | some symbol =>
    dsimp only [Option.map_some]
    rw [Symbol.kind_renamed]
    cases hk : symbol.kind with
    | package => rw [Symbol.renamed_of_kind_ne (hk ▸ nofun)]
    | _ => rfl

/-! ## Access -/

/-- What may be used where stays the same with the supertypes. -/
theorem Renames.isAccessible (h : s.Renames s' chosen name d)
    (hsuper : s'.supertypesOf = s.supertypesOf) (id : SymbolId) (site : NodeId) :
    s'.isAccessible id site = s.isAccessible id site := by
  have hsubclass : s'.isSubclass = s.isSubclass := by
    unfold Script.isSubclass
    rw [hsuper]
  unfold Script.isAccessible
  rw [hsubclass, h.isType, h.enclosingTypes, h.filePackage, h.symbols, SymbolTable.get?_renamed]
  cases s.symbols.get? id with
  | none => rfl
  | some symbol =>
    dsimp only [Option.map_some]
    rw [Symbol.kind_renamed, Symbol.flags_renamed, Symbol.owner_renamed,
      SymbolTable.packageNameOf_renamed, SymbolTable.outermostType?_renamed]

end

end ScriptCheck.Script
