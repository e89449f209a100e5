/-
  Members that static imports bring in.

  A static import leads a name to a type, under the name that is imported from
  there (`staticSource?`). What the name can mean in the type are fields, nested
  types, methods and, unless it is called, methods that read a property, of the
  type itself or of what it inherits from. `meanings` has them in the order in
  which they are preferred. The first import that leads to any of them decides,
  and it brings in the first one (`staticImport?_eq_some`).

  Nowhere it is asked whether a member is static. An import therefore brings in
  static members only if it finds no others: `isStatic_of_staticImport` says so
  of a lookup at any depth, and `instance_field_imported` has a field of an
  instance that is found in this way.
-/
import ScriptCheck.Proofs.Script.PropertyAccess

namespace ScriptCheck.Script

/-- The type in which a name is looked up because of an import, and the name that it has there. -/
def staticSource? (s : Script) (data : Import) (name : String) : Option (SymbolId × String) :=
  if !data.isStatic then none
  else if data.onDemand then do
    return (← s.symbols.type? data.path, name)
  else do
    let (outer, imported) ← Dotted.splitLast? data.path
    if data.alias?.getD imported = name then do
      return (← s.symbols.type? outer, imported)
    else none

/-- What a name can mean in a type, called with so many arguments or not at all, in the order in
    which a search at `depth` prefers it. -/
def meanings (s : Script) (type : SymbolId) (name : String) (count : Option Nat) (depth : Nat) :
    List SymbolId :=
  match count with
  | some n =>
    (s.overloads type name depth).filter (s.symbols.accepts · n) ++ s.overloads type name depth ++
      s.fieldsNamed type name depth
  | none =>
    s.fieldsNamed type name depth ++ s.accessors type name depth ++ s.overloads type name depth

/-- The names under which the members stand that a name can mean. -/
def memberNames (name : String) : Option Nat → List String
  | some _ => [name]
  | none => name :: ["get", "is"].map (· ++ String.ofList (Uppercase.capitalize name.toList))

/-- Whether a type and what it inherits from have no fields and methods for a name that are not
    static. -/
def OnlyStatic (s : Script) (type : SymbolId) (name : String) (count : Option Nat) (depth : Nat) :
    Prop :=
  ∀ owner ∈ lineage (s.levelAt (depth + 1)).supertypes type,
    ∀ declared ∈ memberNames name count, ∀ m ∈ s.symbols.membersNamed owner declared,
      ∀ symbol ∈ s.symbols.get? m, symbol.kind ∈ [.field, .method] → symbol.isStatic = true

instance (s : Script) (type : SymbolId) (name : String) (count : Option Nat) (depth : Nat) :
    Decidable (s.OnlyStatic type name count depth) :=
  inferInstanceAs (Decidable (∀ _ ∈ _, _))

/-- A value without a dot in front of it that means nothing in the scopes around it, so that a
    lookup at `depth` finds what the static imports bring in. -/
structure StaticallyImported (s : Script) (r : NodeId) (name : String) (depth : Nat)
    (id : SymbolId) : Prop where
  plain : ∃ data : Reference, s.tree.form? r = some (.reference .value data) ∧
    data.name? = some name ∧ data.qualifier = none
  unscoped : s.searchScopes
    (s.offered? (classScopeMember (s.levelAt depth).supertypes (s.levelAt depth).member · name
      (s.argumentCount? r)) (s.pickOverload · (s.argumentCount? r)) name)
    false r (s.tree.ancestors r) = none
  found : s.staticImport? (s.levelAt (depth + 1)).member name (s.argumentCount? r) = some id

section

variable {s : Script} {type id m : SymbolId} {name : String} {count : Option Nat} {depth : Nat}
  {data : Import}

/-! ## What a name can mean -/

/-- Among overloads the ones that accept the arguments are preferred. -/
theorem pickOverload_eq_head? (s : Script) (candidates : List SymbolId) (n : Nat) :
    s.pickOverload candidates (some n) =
      (candidates.filter (s.symbols.accepts · n) ++ candidates).head? := by
  rw [List.head?_append, List.head?_filter, Option.or_eq_orElse]
  rfl

/-- A name means the first of what it can mean. -/
theorem findMember_eq_head?_meanings (hd : depth ≤ qualifierLimit) :
    s.findMember type name count depth = (s.meanings type name count depth).head? := by
  cases count with
  | none => exact findMember_eq_head? hd
  | some n =>
    rw [findMember_eq, if_pos hd, memberWith, meanings, List.head?_append, Option.or_eq_orElse,
      ← pickOverload_eq_head?]
    rfl

/-- What is inherited under a name is a member of a type of the lineage. -/
theorem exists_owner_of_mem_inherited {supertypes : Supertypes} {kinds : List SymbolKind}
    (h : m ∈ s.inherited supertypes kinds type name) :
    ∃ owner ∈ lineage supertypes type, m ∈ s.symbols.membersNamed owner name := by
  obtain ⟨owner, ho, hm⟩ := List.mem_flatMap.mp h
  exact ⟨owner, ho, (List.mem_filter.mp hm).1⟩

/-- What a name can mean is inherited under one of the names that belong to it. -/
theorem exists_inherited_of_mem_meanings (h : m ∈ s.meanings type name count depth) :
    ∃ declared ∈ memberNames name count, ∃ kinds,
      m ∈ s.inherited (s.levelAt (depth + 1)).supertypes kinds type declared := by
  cases count with
  | some n =>
    have hname : name ∈ memberNames name (some n) := List.mem_singleton_self name
    simp only [meanings, List.mem_append, List.mem_filter] at h
    rcases h with (⟨hm, -⟩ | hm) | hm
    · exact ⟨name, hname, _, hm⟩
    · exact ⟨name, hname, _, hm⟩
    · exact ⟨name, hname, _, hm⟩
  | none =>
    have hname : name ∈ memberNames name none := List.mem_cons_self
    simp only [meanings, List.mem_append] at h
    rcases h with (hm | hm) | hm
    · exact ⟨name, hname, _, hm⟩
    · obtain ⟨-, -, verb, hverb, hreader⟩ := mem_accessors_iff.mp hm
      exact ⟨_, List.mem_cons_of_mem _ (List.mem_map_of_mem hverb), _, hreader⟩
    · exact ⟨name, hname, _, hm⟩

/-! ## What an import brings in -/

/-- A static import brings in the member that the name means at its source. -/
theorem staticImport?_eq_findSome? (s : Script) (member : MemberSearch) (name : String)
    (count : Option Nat) :
    s.staticImport? member name count = s.imports.findSome? fun data =>
      (s.staticSource? data name).bind fun source => member source.1 source.2 count := by
  unfold staticImport?
  congr 1
  funext data
  unfold staticSource?
  split
  · rfl
  split
  · cases s.symbols.type? data.path <;> rfl
  · cases Dotted.splitLast? data.path with
    | none => rfl
    | some split =>
      dsimp only [Option.bind_eq_bind, Option.bind_some]
      split
      · cases s.symbols.type? split.1 <;> rfl
      · rfl

/-- The first import that leads to anything decides, and brings in the first that the name can mean
    there. -/
theorem staticImport?_eq_some
    (h : s.staticImport? (s.levelAt depth).member name count = some id) :
    depth ≤ qualifierLimit ∧ ∃ before data after type imported,
      s.imports = before ++ data :: after ∧
      s.staticSource? data name = some (type, imported) ∧
      (s.meanings type imported count depth).head? = some id ∧
      ∀ other ∈ before, ∀ source, s.staticSource? other name = some source →
        s.meanings source.1 source.2 count depth = [] := by
  rw [staticImport?_eq_findSome?] at h
  obtain ⟨before, data, after, himports, hfound, hbefore⟩ := List.findSome?_eq_some_iff.mp h
  obtain ⟨⟨type, imported⟩, hsource, hmember⟩ := Option.bind_eq_some_iff.mp hfound
  -- Below the limit of depths no member is found.
  have hd : depth ≤ qualifierLimit := by
    by_contra hd
    have hnone := findMember_eq s type imported count depth
    rw [if_neg hd] at hnone
    exact absurd (hmember.symm.trans hnone) nofun
  refine ⟨hd, before, data, after, type, imported, himports, hsource, ?_, ?_⟩
  · rw [← findMember_eq_head?_meanings hd]
    exact hmember
  · intro other hm source hother
    have hnone := hbefore other hm
    rw [hother, Option.bind_some] at hnone
    rw [← List.head?_eq_none_iff, ← findMember_eq_head?_meanings hd]
    exact hnone

/-! ## References -/

/-- A lookup of a statically imported name finds what is imported. -/
theorem StaticallyImported.lookupWithin {r : NodeId} (h : s.StaticallyImported r name depth id)
    (receiver : NodeId → Id (Option SymbolId)) :
    Id.run (s.lookupWithin receiver (qualifierLimit + 1 - depth) r) = some id := by
  obtain ⟨⟨data, hform, hname, hq⟩, hunscoped, hfound⟩ := h
  have hd : depth ≤ qualifierLimit := Nat.le_of_succ_le (staticImport?_eq_some hfound).1
  have hbelow : s.levelAt (depth + 1) = s.level (qualifierLimit - depth) := by
    unfold levelAt
    rw [Nat.add_sub_add_right]
  have hhere : s.levelAt depth = s.levelAbove (s.level (qualifierLimit - depth)) := by
    unfold levelAt
    rw [Nat.succ_sub hd, level]
  rw [Nat.succ_sub hd, Script.lookupWithin, run_lookupVia_value hform hname hq, ← hhere, ← hbelow,
    lookupValue, hunscoped, hfound]
  rfl

/-- A value without a dot that is found through the static imports is the first that its name can
    mean where the first import leads to that leads to anything. It is a member, and a static one
    if it is a field or a method and there are no others but static ones. -/
theorem isStatic_of_staticImport {r : NodeId} (h : s.StaticallyImported r name depth id)
    (receiver : NodeId → Id (Option SymbolId)) :
    Id.run (s.lookupWithin receiver (qualifierLimit + 1 - depth) r) = some id ∧
      ∃ symbol, s.symbols.get? id = some symbol ∧ symbol.kind ∈ [.field, .type, .method] ∧
        ∃ before data after type imported,
          s.imports = before ++ data :: after ∧
          s.staticSource? data name = some (type, imported) ∧
          (s.meanings type imported (s.argumentCount? r) (depth + 1)).head? = some id ∧
          (∀ other ∈ before, ∀ source, s.staticSource? other name = some source →
            s.meanings source.1 source.2 (s.argumentCount? r) (depth + 1) = []) ∧
          (s.OnlyStatic type imported (s.argumentCount? r) (depth + 1) →
            symbol.kind ∈ [.field, .method] → symbol.isStatic = true) := by
  have hkind : s.HasKind [.field, .type, .method] id := by
    refine hasKind_of_staticImport? (fun hm => ?_) h.found
    rw [← findMember, findMember_eq] at hm
    split at hm
    · exact hasKind_of_memberWith hm
    · cases hm
  obtain ⟨symbol, hget, hk⟩ := hkind
  obtain ⟨-, before, data, after, type, imported, himports, hsource, hfirst, hbefore⟩ :=
    staticImport?_eq_some h.found
  refine ⟨h.lookupWithin receiver, symbol, hget, hk, before, data, after, type, imported, himports,
    hsource, hfirst, hbefore, fun honly hmember => ?_⟩
  obtain ⟨declared, hdeclared, kinds, hm⟩ :=
    exists_inherited_of_mem_meanings (List.mem_of_mem_head? hfirst)
  obtain ⟨owner, ho, hm⟩ := exists_owner_of_mem_inherited hm
  exact honly owner ho declared hdeclared id hm symbol hget hmember

end

/-! ## A field of an instance -/

/-- A class with a static method `max` and a field `count` that is not static. -/
def utilLibrary : SymbolTable :=
  let t := (SymbolTable.empty.addType "lib.Util" .none []).1
  let t := (t.addMethod 1 "max" { SymbolFlags.none with isStatic := true } (.fixed 0)).1
  (t.addField 1 "count" .none).1

theorem utilLibrary_grown : utilLibrary.Grown :=
  .field (.method (.type .start _ _ _) _ _ _ _) _ _ _

/-- A file that imports the method as `most` and everything else of the class on demand, calls the
    one and reads the field. -/
def utilTree : Tree :=
  .ofNodes
    [(.importing ⟨"lib.Util.max", false, true, some "most"⟩, .none),
      (.importing ⟨"lib.Util", true, true, none⟩, .none),
      (.reference .value ⟨none, some "most", default⟩, .none),
      (.argumentList [], .none),
      (.call (some 2) (some 3), .none),
      (.expressionStatement (some 4), .none),
      (.reference .value ⟨none, some "count", default⟩, .none),
      (.expressionStatement (some 6), .none),
      (.sourceFile ⟨"util", none, [some 0, some 1], [some 5, some 7]⟩, .none)]

/-- The file on top of the library. -/
def util : Script := ofFile utilLibrary utilTree 8 []

theorem staticallyImported_util :
    util.StaticallyImported 2 "most" 0 2 ∧ util.StaticallyImported 6 "count" 0 3 :=
  ⟨⟨⟨_, rfl, rfl, rfl⟩, by decide +kernel, by decide +kernel⟩,
    ⟨_, rfl, rfl, rfl⟩, by decide +kernel, by decide +kernel⟩

/-- The method that is called is static, since neither import has anything else for the name. -/
theorem resolve_most_static :
    (util.resolve 2).symbol? = some 2 ∧
      ∃ symbol, util.symbols.get? 2 = some symbol ∧ symbol.isStatic = true := by
  have honlyStatic : ∀ data ∈ util.imports, ∀ source ∈ util.staticSource? data "most",
      util.OnlyStatic source.1 source.2 (util.argumentCount? 2) 1 := by
    decide +kernel
  have hmethod : ∀ symbol ∈ util.symbols.get? 2, symbol.kind = .method := by decide +kernel
  obtain ⟨hfound, symbol, hget, -, before, data, after, type, imported, himports, hsource, -, -,
    hstatic⟩ := isStatic_of_staticImport staticallyImported_util.1 (fun _ => pure none)
  have hdata : data ∈ util.imports := himports ▸ List.mem_append_right before List.mem_cons_self
  refine ⟨(symbol?_resolveWith util _ 2).trans hfound, symbol, hget, ?_⟩
  refine hstatic (honlyStatic data hdata (type, imported) hsource) ?_
  rw [hmethod symbol hget]
  decide

/-- A static import brings in a field that is not static, and the file may use it. -/
theorem instance_field_imported :
    util.resolve 6 = .accessible 3 ∧
    ¬∀ (lib : SymbolTable) (t : Tree) (root : NodeId) (imports : List String) (r : NodeId)
      (name : String) (id : SymbolId) (symbol : Symbol), lib.Grown → t.Built →
      (ofFile lib t root imports).StaticallyImported r name 0 id →
      (ofFile lib t root imports).symbols.get? id = some symbol →
      symbol.kind ∈ [.field, .method] → symbol.isStatic = true := by
  refine ⟨by decide +kernel, fun hall => ?_⟩
  have hfield : ∃ symbol, util.symbols.get? 3 = some symbol ∧ symbol.kind = .field ∧
      symbol.isStatic = false := by
    refine ⟨_, rfl, ?_⟩
    decide +kernel
  obtain ⟨symbol, hget, hk, hno⟩ := hfield
  have hstatic : symbol.isStatic = true :=
    hall utilLibrary utilTree 8 [] 6 "count" 3 symbol utilLibrary_grown (Tree.built_ofNodes _)
      staticallyImported_util.2 hget (by rw [hk]; decide)
  rw [hno] at hstatic
  cases hstatic

end ScriptCheck.Script
