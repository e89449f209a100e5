/-
  Names in type position.

  Where a type is written, a simple name and a name in a package stand for
  types and packages only. A name in a type does not: it is searched for like
  any other member, so that it can end on a field or a method, and a field that
  is declared before a nested type of its name hides it.
  `findMember_eq_some_iff_of_isType` says when the search for a member ends on a
  given type, and `resolveWith_typeReference` what a written type resolves to.
-/
import ScriptCheck.Proofs.Script.Lineage
import ScriptCheck.Proofs.Script.PropertyAccess

namespace ScriptCheck.Script

/-- Whether a symbol is a field or a type. -/
def isFieldOrType (s : Script) (id : SymbolId) : Bool :=
  (s.symbols.get? id).any (([.field, .type] : List SymbolKind).contains ·.kind)

section

variable {s : Script} {type id nested : SymbolId} {name : String} {count : Option Nat} {depth : Nat}

/-! ## Types among members -/

/-- What is called a method is no type. -/
theorem isType_ne_true_of_mem_overloads (h : id ∈ s.overloads type name depth) :
    s.symbols.isType id ≠ true := by
  intro htype
  have hmethod : s.HasKind [.method] id := hasKind_of_mem_inherited h
  exact hmethod.disjoint (hasKind_of_isType htype) (by decide)

/-- Among candidates there is always one to pick. -/
theorem eq_nil_of_pickOverload {candidates : List SymbolId}
    (h : s.pickOverload candidates count = none) : candidates = [] := by
  have hfirst : candidates.head? = none := ((Option.orElse_eq_none _ _).mp h).2
  exact List.head?_eq_none_iff.mp hfirst

/-- The search for a member ends on a type if no method answers the call and the type is the first
    among the fields and nested types. -/
theorem findMember_eq_some_iff_of_isType (hd : depth ≤ qualifierLimit)
    (htype : s.symbols.isType id = true) :
    s.findMember type name count depth = some id ↔
      (count = none ∨ s.overloads type name depth = []) ∧
        (s.fieldsNamed type name depth).head? = some id := by
  cases count with
  | none =>
    rw [findMember_eq_head? hd, List.append_assoc]
    simp only [true_or, true_and]
    cases hfields : s.fieldsNamed type name depth with
    | cons first rest => rfl
    | nil =>
      -- What reads a property is a method too.
      rw [List.nil_append]
      refine iff_of_false (fun hhead => ?_) (fun h => by cases h)
      rcases List.mem_append.mp (List.mem_of_mem_head? hhead) with hm | hm
      · obtain ⟨-, -, verb, -, hverb⟩ := mem_accessors_iff.mp hm
        exact isType_ne_true_of_mem_overloads hverb htype
      · exact isType_ne_true_of_mem_overloads hm htype
  | some n =>
    rw [findMember_eq, if_pos hd]
    show (s.pickOverload (s.overloads type name depth) (some n) <|>
      (s.fieldsNamed type name depth).head?) = some id ↔ _
    constructor
    · intro h
      rcases eq_some_of_orElse h with hm | ⟨hnone, hf⟩
      · exact absurd htype (isType_ne_true_of_mem_overloads (mem_of_pickOverload hm))
      · exact ⟨.inr (eq_nil_of_pickOverload hnone), hf⟩
    · rintro ⟨hn | hn, hf⟩
      · cases hn
      · rw [hn]
        exact hf

/-! ## Nested types and fields of the same name -/

theorem isFieldOrType_iff : s.isFieldOrType id = true ↔ s.HasKind [.field, .type] id :=
  hasKind_iff.symm

/-- What is no field and still among the fields and nested types is a nested type. -/
theorem isFieldOrType_of_not_field (h : ¬s.HasKind [.field] id) :
    s.isFieldOrType id = s.symbols.isType id := by
  rw [Bool.eq_iff_iff, isFieldOrType_iff]
  constructor
  · rintro ⟨symbol, hget, hkind⟩
    have hfield : symbol.kind ≠ .field :=
      fun hf => h ⟨symbol, hget, List.mem_singleton.mpr hf⟩
    refine SymbolTable.isType_iff.mpr ⟨symbol, hget, ?_⟩
    simpa only [List.mem_cons, hfield, false_or, List.not_mem_nil, or_false] using hkind
  · exact fun htype => (hasKind_of_isType htype).mono (by decide)

/-- If a type declares fields or nested types of a name, the first of them is the nearest. -/
theorem head?_fieldsNamed (hmem : id ∈ s.symbols.membersNamed type name)
    (hid : s.isFieldOrType id = true) :
    (s.fieldsNamed type name depth).head? =
      (s.symbols.membersNamed type name).find? s.isFieldOrType := by
  obtain ⟨rest, hrest⟩ := exists_lineage_eq_cons (s.levelAt (depth + 1)).supertypes type
  have hfound : (s.symbols.membersNamed type name).filter s.isFieldOrType ≠ [] :=
    List.ne_nil_of_mem (List.mem_filter.mpr ⟨hmem, hid⟩)
  unfold fieldsNamed fields inherited
  rw [hrest, List.flatMap_cons, ← List.head?_filter]
  exact List.head?_append_of_ne_nil _ hfound

/-- A nested type is the first among the fields and nested types of its name exactly if no field of
    that name is declared before it in the same type. -/
theorem head?_fieldsNamed_iff (hnested : s.nestedType? type name = some nested) :
    (s.fieldsNamed type name depth).head? = some nested ↔
      ∃ before after, s.symbols.membersNamed type name = before ++ nested :: after ∧
        ∀ m ∈ before, ¬s.HasKind [.field] m := by
  have htype : s.symbols.isType nested = true := List.find?_some hnested
  have hmember : s.isFieldOrType nested = true :=
    isFieldOrType_iff.mpr ((hasKind_of_isType htype).mono (by decide))
  rw [head?_fieldsNamed (List.mem_of_find?_eq_some hnested) hmember]
  constructor
  · intro h
    obtain ⟨-, before, after, hsplit, hbefore⟩ := List.find?_eq_some_iff_append.mp h
    refine ⟨before, after, hsplit, fun m hm hfield => ?_⟩
    have hno := hbefore m hm
    rw [isFieldOrType_iff.mpr (hfield.mono (by decide))] at hno
    cases hno
  · rintro ⟨before, after, hsplit, hbefore⟩
    -- Without fields, the first of both is the first type.
    have hsame : before.filter s.isFieldOrType = before.filter s.symbols.isType :=
      List.filter_congr fun m hm => isFieldOrType_of_not_field (hbefore m hm)
    unfold nestedType? at hnested
    rw [hsplit, List.find?_append, List.find?_cons_of_pos htype, ← List.head?_filter] at hnested
    rw [hsplit, List.find?_append, List.find?_cons_of_pos hmember, ← List.head?_filter, hsame]
    exact hnested

end

/-! ## What a written type resolves to -/

section

variable {s : Script} {root r qualifier : NodeId} {data : Reference} {name : String}
  {receiver : NodeId → Id (Option SymbolId)} {id type : SymbolId}

/-- What is found in a package is a type or a package. -/
theorem hasKind_of_insidePackage (hs : s.symbols.Consistent) {member : MemberSearch}
    {count : Option Nat} {outer : String}
    (h : s.insideQualifier member name count (.package outer) = some id) :
    s.HasKind [.type, .package] id := by
  rcases eq_some_of_orElse h with h | ⟨_, h⟩
  · exact hasKind_of_type? hs h
  · obtain ⟨symbol, hget, hk, _⟩ := hs.get?_of_package? h
    exact ⟨symbol, hget, by rw [hk]; decide⟩

/-- A written type that is no name in a type resolves to types and packages only. -/
theorem hasKind_of_typeReference (hs : Binding.Sound s.tree root s.binding) (ht : s.tree.Built)
    (hform : s.tree.form? r = some (.reference .type data)) (hname : data.name? = some name)
    (houtside : ∀ q C, data.qualifier = some q → s.qualifierOf? receiver q ≠ some (.type C))
    (h : (Id.run (s.resolveWith receiver r)).symbol? = some id) :
    s.HasKind [.type, .package] id := by
  cases hq : data.qualifier with
  | none =>
    rw [symbol?_resolveWith, lookupWithin, run_lookupVia_type hform hname hq] at h
    exact hasKind_of_lookupType hs ht h
  | some q =>
    rw [symbol?_resolveWith_qualified hform hname hq] at h
    obtain ⟨found, hfound, hid⟩ := Option.bind_eq_some_iff.mp h
    cases found with
    | package outer => exact hasKind_of_insidePackage hs.consistent hid
    | type C => exact absurd hfound (houtside q C hq)

/-- A member is a type if it is a type or a package. -/
theorem isType_of_findMember {count : Option Nat} {depth : Nat}
    (h : s.findMember type name count depth = some id) (hkind : s.HasKind [.type, .package] id) :
    s.symbols.isType id = true := by
  rw [findMember_eq] at h
  split at h
  case isFalse => cases h
  obtain ⟨symbol, hget, hmember⟩ := hasKind_of_memberWith h
  obtain ⟨other, hget', hk⟩ := hkind
  obtain rfl : symbol = other := Option.some.inj (hget.symm.trans hget')
  refine SymbolTable.isType_iff.mpr ⟨symbol, hget, ?_⟩
  revert hmember hk
  cases symbol.kind <;> decide

end

/-- A written type resolves to types and packages only if it is no name in a type. A name in a type
    resolves to a type exactly if no method of the name answers a call and the type is the first
    among the fields and nested types of that name; to the type that is nested right inside, exactly
    if no field of the name is declared before it. -/
theorem resolveWith_typeReference {lib : SymbolTable} {t : Tree} {root : NodeId}
    {imports : List String} {s : Script} (hlib : lib.Grown) (ht : t.Built)
    (hs : s = ofFile lib t root imports) {r : NodeId} {data : Reference} {name : String}
    (hform : s.tree.form? r = some (.reference .type data)) (hname : data.name? = some name)
    (receiver : NodeId → Id (Option SymbolId)) :
    ((∀ q C, data.qualifier = some q → s.qualifierOf? receiver q ≠ some (.type C)) →
      ∀ id, (Id.run (s.resolveWith receiver r)).symbol? = some id →
        s.HasKind [.type, .package] id) ∧
    ∀ q C, data.qualifier = some q → s.qualifierOf? receiver q = some (.type C) →
      (∀ id, ((Id.run (s.resolveWith receiver r)).symbol? = some id ∧
          s.HasKind [.type, .package] id) ↔
        (s.symbols.isType id = true ∧
          (s.argumentCount? r = none ∨ s.overloads C name 1 = []) ∧
          (s.fieldsNamed C name 1).head? = some id)) ∧
      ∀ nested, s.nestedType? C name = some nested →
        ((Id.run (s.resolveWith receiver r)).symbol? = some nested ↔
          (s.argumentCount? r = none ∨ s.overloads C name 1 = []) ∧
          ∃ before after, s.symbols.membersNamed C name = before ++ nested :: after ∧
            ∀ m ∈ before, ¬s.HasKind [.field] m) := by
  have hsound : Binding.Sound s.tree root s.binding := by
    rw [hs]
    exact Binding.bindFile_sound hlib.consistent t root
  have hbuilt : s.tree.Built := by
    rw [hs]
    exact ht
  have hd : 1 ≤ qualifierLimit := by decide
  refine ⟨fun houtside id => hasKind_of_typeReference hsound hbuilt hform hname houtside, ?_⟩
  intro q C hq hC
  have hsymbol := symbol?_resolveWith_of_type hform hname hq hC
  rw [hsymbol]
  constructor
  · intro id
    constructor
    · rintro ⟨hfound, hkind⟩
      have htype : s.symbols.isType id = true := isType_of_findMember hfound hkind
      exact ⟨htype, (findMember_eq_some_iff_of_isType hd htype).mp hfound⟩
    · rintro ⟨htype, hfirst⟩
      exact ⟨(findMember_eq_some_iff_of_isType hd htype).mpr hfirst,
        (hasKind_of_isType htype).mono (by decide)⟩
  · intro nested hnested
    have htype : s.symbols.isType nested = true := List.find?_some hnested
    rw [findMember_eq_some_iff_of_isType hd htype, head?_fieldsNamed_iff hnested]

/-! ## A class with a field and a nested class of one name -/

/-- A file with a class `Foo` that has fields `count` and `Bar` and nested classes `Bar` and `Baz`,
    and a class `User` with fields of the types `Foo.count`, `Foo.Bar` and `Foo.Baz`. -/
def nestingTree : Tree :=
  .ofNodes
    [(.identifier "count", .none),
      (.variableLike .field ⟨some 0, none, none, false⟩, .none),
      (.identifier "Bar", .none),
      (.variableLike .field ⟨some 2, none, none, false⟩, .none),
      (.identifier "Bar", .none),
      (.classBody [], .none),
      (.typeDecl ⟨.classType, some 4, [], [], some 5⟩, .none),
      (.identifier "Baz", .none),
      (.classBody [], .none),
      (.typeDecl ⟨.classType, some 7, [], [], some 8⟩, .none),
      (.classBody [some 1, some 3, some 6, some 9], .none),
      (.identifier "Foo", .none),
      (.typeDecl ⟨.classType, some 11, [], [], some 10⟩, .none),
      (.reference .type ⟨none, some "Foo", default⟩, .none),
      (.reference .type ⟨some 13, some "count", default⟩, .none),
      (.identifier "a", .none),
      (.variableLike .field ⟨some 15, some 14, none, false⟩, .none),
      (.reference .type ⟨none, some "Foo", default⟩, .none),
      (.reference .type ⟨some 17, some "Bar", default⟩, .none),
      (.identifier "b", .none),
      (.variableLike .field ⟨some 19, some 18, none, false⟩, .none),
      (.reference .type ⟨none, some "Foo", default⟩, .none),
      (.reference .type ⟨some 21, some "Baz", default⟩, .none),
      (.identifier "c", .none),
      (.variableLike .field ⟨some 23, some 22, none, false⟩, .none),
      (.classBody [some 16, some 20, some 24], .none),
      (.identifier "User", .none),
      (.typeDecl ⟨.classType, some 26, [], [], some 25⟩, .none),
      (.sourceFile ⟨"nesting", none, [], [some 12, some 27]⟩, .none)]

/-- The file without a library. -/
def nesting : Script := ofFile .empty nestingTree 28 []

theorem form?_nestingTree :
    nestingTree.form? 14 = some (.reference .type ⟨some 13, some "count", default⟩) ∧
      nestingTree.form? 18 = some (.reference .type ⟨some 17, some "Bar", default⟩) ∧
      nestingTree.form? 22 = some (.reference .type ⟨some 21, some "Baz", default⟩) := by
  decide +kernel

/-- All of them are names in `Foo`. -/
theorem qualifierOf?_nesting : ∀ q ∈ [13, 17, 21],
    nesting.qualifierOf? (fun _ => pure none) q = some (.type 1) := by
  decide +kernel

/-- `Foo` is a type and `Foo.Baz` the nested class, but `Foo.Bar` is not the nested class, because
    the field comes first, and `Foo.count` is no type. -/
theorem resolve_nesting :
    ((nesting.resolve 13).symbol? = some 1 ∧ nesting.HasKind [.type, .package] 1) ∧
      (nesting.resolve 22).symbol? = some 5 ∧ (nesting.resolve 18).symbol? ≠ some 4 ∧
      ((nesting.resolve 14).symbol? = some 2 ∧ ¬nesting.HasKind [.type, .package] 2) := by
  obtain ⟨hcount, hbar, hbaz⟩ := form?_nestingTree
  have hbuilt : nestingTree.Built := Tree.built_ofNodes _
  have hmembers : nesting.symbols.membersNamed 1 "Bar" = [3, 4] ∧
      nesting.symbols.membersNamed 1 "Baz" = [5] := by
    decide +kernel
  refine ⟨?_, ?_, ?_, ?_⟩
  · have hfoo : nestingTree.form? 13 = some (.reference .type ⟨none, some "Foo", default⟩) := by
      decide +kernel
    have hfound : (nesting.resolve 13).symbol? = some 1 := by decide +kernel
    obtain ⟨h, -⟩ := resolveWith_typeReference (s := nesting) .start hbuilt rfl hfoo rfl
      (fun _ => pure none)
    exact ⟨hfound, h (fun _ _ hq => by cases hq) 1 hfound⟩
  · have hnested : nesting.nestedType? 1 "Baz" = some 5 := by decide +kernel
    have huncalled : nesting.argumentCount? 22 = none := by decide +kernel
    obtain ⟨-, h⟩ := resolveWith_typeReference (s := nesting) .start hbuilt rfl hbaz rfl
      (fun _ => pure none)
    exact ((h 21 1 rfl (qualifierOf?_nesting 21 (by decide))).2 5 hnested).mpr
      ⟨.inl huncalled, [], [], hmembers.2, nofun⟩
  · have hnested : nesting.nestedType? 1 "Bar" = some 4 := by decide +kernel
    have hfield : nesting.HasKind [.field] 3 := by decide +kernel
    obtain ⟨-, h⟩ := resolveWith_typeReference (s := nesting) .start hbuilt rfl hbar rfl
      (fun _ => pure none)
    intro hfound
    obtain ⟨-, before, after, hsplit, hbefore⟩ :=
      ((h 17 1 rfl (qualifierOf?_nesting 17 (by decide))).2 4 hnested).mp hfound
    rw [hmembers.1] at hsplit
    cases before with
    | nil => cases hsplit
    | cons first rest =>
      obtain rfl : 3 = first := (List.cons.inj hsplit).1
      exact hbefore 3 List.mem_cons_self hfield
  · have hfound : (nesting.resolve 14).symbol? = some 2 := by decide +kernel
    have hno : ¬nesting.symbols.isType 2 = true := by decide +kernel
    obtain ⟨-, h⟩ := resolveWith_typeReference (s := nesting) .start hbuilt rfl hcount rfl
      (fun _ => pure none)
    refine ⟨hfound, fun hkind => hno ?_⟩
    exact (((h 13 1 rfl (qualifierOf?_nesting 13 (by decide))).1 2).mp ⟨hfound, hkind⟩).1

/-- In type position a name can stand for a field, also where a nested class has the name. -/
theorem written_type_ends_on_field :
    (¬∀ (lib : SymbolTable) (t : Tree) (root : NodeId) (imports : List String) (r : NodeId)
      (data : Reference) (receiver : NodeId → Id (Option SymbolId)) (id : SymbolId), lib.Grown →
      t.WellShaped → t.form? r = some (.reference .type data) →
      (Id.run ((ofFile lib t root imports).resolveWith receiver r)).symbol? = some id →
      (ofFile lib t root imports).HasKind [.type, .package] id) ∧
    (¬∀ (lib : SymbolTable) (t : Tree) (root : NodeId) (imports : List String) (r q : NodeId)
      (data : Reference) (name : String) (receiver : NodeId → Id (Option SymbolId))
      (type nested : SymbolId), lib.Grown → t.WellShaped →
      t.form? r = some (.reference .type data) → data.name? = some name →
      data.qualifier = some q →
      (ofFile lib t root imports).qualifierOf? receiver q = some (.type type) →
      (ofFile lib t root imports).nestedType? type name = some nested →
      (Id.run ((ofFile lib t root imports).resolveWith receiver r)).symbol? = some nested) := by
  obtain ⟨hcount, hbar, -⟩ := form?_nestingTree
  have hshape : nestingTree.WellShaped := (Tree.built_ofNodes _).wellShaped (by decide +kernel)
  have hfields : (nesting.resolve 14).symbol? = some 2 ∧ (nesting.resolve 18).symbol? = some 3 := by
    decide +kernel
  constructor
  · intro hall
    have hno : ¬nesting.HasKind [.type, .package] 2 := by decide +kernel
    exact hno (hall .empty nestingTree 28 [] 14 _ (fun _ => pure none) 2 .start hshape hcount
      hfields.1)
  · intro hall
    have hnested : nesting.nestedType? 1 "Bar" = some 4 := by decide +kernel
    have hyes : (nesting.resolve 18).symbol? = some 4 :=
      hall .empty nestingTree 28 [] 18 17 _ _ (fun _ => pure none) 1 4 .start hshape hbar rfl rfl
        (qualifierOf?_nesting 17 (by decide)) hnested
    rw [hfields.2] at hyes
    cases hyes

end ScriptCheck.Script
