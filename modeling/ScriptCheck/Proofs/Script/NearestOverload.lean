/-
  The nearest overload.

  A call means a method that accepts its arguments and is declared as few steps
  to supertypes away as possible. The search lists the methods of a name in the
  order of the lineage, so this is the order of the lineage (`pairwise_lineage`)
  once more: the first overload that fits is declared by a type of the lineage,
  and no type before that one declares an overload that fits
  (`exists_first_declaring`). `findMember_call` puts this together with what is
  found if no overload fits. No method is listed twice, whether types have
  supertypes in common or inherit from themselves, as every member has one owner
  (`nodup_inherited`).
-/
import ScriptCheck.Proofs.Binding.Growth
import ScriptCheck.Proofs.Script.LineageOrder
import ScriptCheck.Proofs.Script.PropertyAccess
import ScriptCheck.Proofs.Symbol.Indexes

namespace ScriptCheck

/-- A list holds all that a type inherits from and the type itself, each once, and none after one
    that is farther away. -/
structure Supertypes.ListsByDistance (supertypes : Supertypes) (type : SymbolId)
    (types : List SymbolId) : Prop where
  nodup : types.Nodup
  mem_iff : ∀ {t}, t ∈ types ↔ ∃ n, supertypes.Leads type n t
  ordered : types.Pairwise (supertypes.NoFarther type)

theorem listsByDistance_lineage {supertypes : Supertypes} {type : SymbolId}
    (hq : (lineageQueue supertypes type).length ≤ hierarchyLimit) :
    supertypes.ListsByDistance type (lineage supertypes type) where
  nodup := nodup_lineage supertypes type
  mem_iff := mem_lineage_iff_leads hq
  ordered := pairwise_lineage supertypes type

/-- Whatever steps lead to, the fewest steps lead to as well. -/
theorem Supertypes.exists_least {supertypes : Supertypes} {type t : SymbolId}
    (h : ∃ n, supertypes.Leads type n t) :
    ∃ n, supertypes.Leads type n t ∧ ∀ m, supertypes.Leads type m t → n ≤ m := by
  classical
  exact ⟨Nat.find h, Nat.find_spec h, fun m hm => Nat.find_min' h hm⟩

namespace SymbolTable

/-- The members of a name are listed once. -/
theorem Filed.nodup_membersNamed {t : SymbolTable} (h : t.Filed) (owner : SymbolId)
    (name : String) : (t.membersNamed owner name).Nodup :=
  (h.membersNamed owner name).ascending.imp Nat.ne_of_lt

/-- A member has one owner. -/
theorem Filed.owner_unique {t : SymbolTable} (h : t.Filed) {owner other id : SymbolId}
    {name : String} (hm : id ∈ t.membersNamed owner name)
    (ho : id ∈ t.membersNamed other name) : owner = other := by
  obtain ⟨s, hs, -, howner, -⟩ := (h.membersNamed owner name).mem_iff.mp hm
  obtain ⟨s', hs', -, hother, -⟩ := (h.membersNamed other name).mem_iff.mp ho
  obtain rfl : s = s' := Option.some.inj (hs.symm.trans hs')
  exact Option.some.inj (howner.symm.trans hother)

end SymbolTable

/-- However many files were bound, members are listed where they belong. -/
theorem Binding.Bound.filed {b : Binding} (h : b.Bound) : b.symbols.Filed :=
  h.steps.induct SymbolTable.filed_empty SymbolTable.Filed.step

namespace Script

/-- A type declares a method of a name that accepts so many arguments. -/
structure DeclaresFor (s : Script) (owner : SymbolId) (name : String) (count : Nat)
    (id : SymbolId) : Prop where
  member : id ∈ s.symbols.membersNamed owner name
  method : s.HasKind [.method] id
  accepts : s.symbols.accepts id count = true

section

variable {s : Script} {type id owner : SymbolId} {name : String} {depth count : Nat}

/-- Neither a supertype in common nor a circle of supertypes lists a member twice. -/
theorem nodup_inherited (hs : s.symbols.Filed) (supertypes : Supertypes) (kinds : List SymbolKind)
    (type : SymbolId) (name : String) : (s.inherited supertypes kinds type name).Nodup := by
  unfold inherited
  rw [List.nodup_flatMap]
  refine ⟨fun t _ => (hs.nodup_membersNamed t name).filter _, ?_⟩
  refine (nodup_lineage supertypes type).imp fun {a b} hne x hxa hxb => ?_
  exact hne (hs.owner_unique (List.mem_filter.mp hxa).1 (List.mem_filter.mp hxb).1)

/-- The first overload that fits is declared by a type of the lineage, and no type before that one
    declares an overload that fits. -/
theorem exists_first_declaring {supertypes : Supertypes}
    (h : (s.methods supertypes type name).find? (s.symbols.accepts · count) = some id) :
    ∃ owner before after, lineage supertypes type = before ++ owner :: after ∧
      s.DeclaresFor owner name count id ∧
      ∀ t ∈ before, ∀ other, ¬s.DeclaresFor t name count other := by
  unfold methods inherited at h
  rw [List.find?_flatMap, List.findSome?_eq_some_iff] at h
  obtain ⟨before, owner, after, hsplit, hfound, hbefore⟩ := h
  have hmem := List.mem_filter.mp (List.mem_of_find?_eq_some hfound)
  have haccepts : s.symbols.accepts id count = true := by simpa using List.find?_some hfound
  refine ⟨owner, before, after, hsplit, ⟨hmem.1, hasKind_iff.mpr hmem.2, haccepts⟩, ?_⟩
  rintro t ht other ⟨hm, hkind, hfits⟩
  have hno := List.find?_eq_none.mp (hbefore t ht) other
    (List.mem_filter.mpr ⟨hm, hasKind_iff.mp hkind⟩)
  exact hno hfits

/-- The first overload that fits is declared no farther away than any other. -/
theorem exists_nearest {supertypes : Supertypes}
    (hl : supertypes.ListsByDistance type (lineage supertypes type))
    (h : (s.methods supertypes type name).find? (s.symbols.accepts · count) = some id) :
    ∃ owner n, supertypes.Leads type n owner ∧ s.DeclaresFor owner name count id ∧
      ∀ other t m, supertypes.Leads type m t → s.DeclaresFor t name count other → n ≤ m := by
  obtain ⟨owner, before, after, hsplit, hdeclares, hbefore⟩ := exists_first_declaring h
  have howner : owner ∈ lineage supertypes type :=
    hsplit ▸ List.mem_append_right _ List.mem_cons_self
  obtain ⟨n, hn, hleast⟩ := Supertypes.exists_least (hl.mem_iff.mp howner)
  refine ⟨owner, n, hn, hdeclares, fun other t m hm ht => ?_⟩
  have hlater : t = owner ∨ t ∈ after := by
    have hin : t ∈ lineage supertypes type := hl.mem_iff.mpr ⟨m, hm⟩
    rw [hsplit, List.mem_append, List.mem_cons] at hin
    exact hin.resolve_left fun hb => hbefore t hb other ht
  rcases hlater with rfl | hafter
  · exact hleast m hm
  · have hordered := hl.ordered
    rw [hsplit, List.pairwise_append] at hordered
    obtain ⟨k, hk, hk'⟩ := List.rel_of_pairwise_cons hordered.2.1 hafter m hm
    exact Nat.le_trans (hleast k hk') hk

/-- An overload is declared by a type that the search comes to. -/
theorem mem_overloads_iff_leads
    (hq : (lineageQueue (s.levelAt (depth + 1)).supertypes type).length ≤ hierarchyLimit) :
    id ∈ s.overloads type name depth ↔
      ∃ owner n, (s.levelAt (depth + 1)).supertypes.Leads type n owner ∧
        id ∈ s.symbols.membersNamed owner name ∧ s.HasKind [.method] id := by
  have hkind : (∃ symbol, s.symbols.get? id = some symbol ∧ symbol.kind = .method) ↔
      s.HasKind [.method] id := by
    unfold HasKind
    simp only [List.mem_singleton]
  rw [mem_overloads_iff, hkind]
  constructor
  · rintro ⟨owner, howner, hm⟩
    obtain ⟨n, hn⟩ := (mem_lineage_iff_leads hq).mp howner
    exact ⟨owner, n, hn, hm⟩
  · rintro ⟨owner, n, hn, hm⟩
    exact ⟨owner, (mem_lineage_iff_leads hq).mpr ⟨n, hn⟩, hm⟩

/-- A call means the first overload that fits, the first overload if none does, and a field or a
    nested type if there are no overloads. -/
theorem findMember_call_eq (hd : depth ≤ qualifierLimit) :
    s.findMember type name (some count) depth =
      ((s.overloads type name depth).find? (s.symbols.accepts · count) <|>
        (s.overloads type name depth ++ s.fieldsNamed type name depth).head?) := by
  rw [findMember_eq, if_pos hd, memberWith, pickOverload, Option.bind_some, List.head?_append,
    Option.or_eq_orElse]
  unfold overloads fieldsNamed
  cases (s.methods (s.levelAt (depth + 1)).supertypes type name).find?
    (s.symbols.accepts · count) <;> rfl

/-- What a call finds in a type whose supertypes fit into the search: a method that accepts the
    arguments and is declared as near as any that does, or, if there is none, the first method of
    the name in the order of the search, or, if there is none either, the first field or nested
    type. The search lists each type that it can come to and each method once. -/
theorem findMember_call (hs : s.binding.Bound) (hd : depth ≤ qualifierLimit)
    (hq : (lineageQueue (s.levelAt (depth + 1)).supertypes type).length ≤ hierarchyLimit) :
    let supertypes := (s.levelAt (depth + 1)).supertypes
    (supertypes.ListsByDistance type (lineage supertypes type) ∧
        (s.overloads type name depth).Nodup ∧ (s.fieldsNamed type name depth).Nodup ∧
        ∀ id, id ∈ s.overloads type name depth ↔ ∃ owner n, supertypes.Leads type n owner ∧
          id ∈ s.symbols.membersNamed owner name ∧ s.HasKind [.method] id) ∧
      ((∃ other t m, supertypes.Leads type m t ∧ s.DeclaresFor t name count other) →
        ∃ id owner n, s.findMember type name (some count) depth = some id ∧
          supertypes.Leads type n owner ∧ s.DeclaresFor owner name count id ∧
          ∀ other t m, supertypes.Leads type m t → s.DeclaresFor t name count other → n ≤ m) ∧
      ((∀ other t m, supertypes.Leads type m t → ¬s.DeclaresFor t name count other) →
        s.findMember type name (some count) depth =
          (s.overloads type name depth ++ s.fieldsNamed type name depth).head?) := by
  intro supertypes
  have hl : supertypes.ListsByDistance type (lineage supertypes type) :=
    listsByDistance_lineage hq
  refine ⟨⟨hl, nodup_inherited hs.filed _ _ _ _, nodup_inherited hs.filed _ _ _ _,
    fun id => mem_overloads_iff_leads hq⟩, ?_, ?_⟩
  · rintro ⟨other, t, m, hm, ht⟩
    have hother : other ∈ s.overloads type name depth :=
      (mem_overloads_iff_leads hq).mpr ⟨t, m, hm, ht.member, ht.method⟩
    obtain ⟨id, hid⟩ : ∃ id, (s.overloads type name depth).find? (s.symbols.accepts · count) =
        some id :=
      Option.isSome_iff_exists.mp (List.find?_isSome.mpr ⟨other, hother, ht.accepts⟩)
    obtain ⟨owner, n, hn, hdeclares, hleast⟩ := exists_nearest hl hid
    refine ⟨id, owner, n, ?_, hn, hdeclares, hleast⟩
    rw [findMember_call_eq hd, hid]
    rfl
  · intro hnone
    have hno : (s.overloads type name depth).find? (s.symbols.accepts · count) = none := by
      refine List.find?_eq_none.mpr fun other hother haccepts => ?_
      obtain ⟨t, m, hm, hmember, hmethod⟩ := (mem_overloads_iff_leads hq).mp hother
      exact hnone other t m hm ⟨hmember, hmethod, haccepts⟩
    rw [findMember_call_eq hd, hno]
    rfl

end

/-! ## Supertypes in a diamond that closes a circle -/

/-- A library with classes `A`, `B`, `C` and `D`, where `A` inherits from `D` through both `B` and
    `C`, and `D` from `A`. All have a method `run`, which takes two arguments in `A`, one in `B` and
    none in `C` and `D`. -/
def diamondLibrary : SymbolTable :=
  let t := (SymbolTable.empty.addType "A" .none ["B", "C"]).1
  let t := (t.addType "B" .none ["D"]).1
  let t := (t.addType "C" .none ["D"]).1
  let t := (t.addType "D" .none ["A"]).1
  let t := (t.addMethod 4 "run" .none (.fixed 0)).1
  let t := (t.addMethod 3 "run" .none (.fixed 0)).1
  let t := (t.addMethod 2 "run" .none (.fixed 1)).1
  (t.addMethod 1 "run" .none (.fixed 2)).1

/-- The tree of a file without statements. -/
def diamondTree : Tree := .ofNodes [(.sourceFile ⟨"diamond", none, [], []⟩, .none)]

/-- The file on top of the library. -/
def diamond : Script := ofFile diamondLibrary diamondTree 0 []

theorem diamondLibrary_grown : diamondLibrary.Grown :=
  .method (.method (.method (.method (.type (.type (.type (.type .start _ _ _) _ _ _) _ _ _)
    _ _ _) _ _ _ _) _ _ _ _) _ _ _ _) _ _ _ _

theorem diamond_bound : diamond.binding.Bound :=
  .file (.libraries diamondLibrary_grown) diamondTree 0

/-- A call of `A.run` without arguments means the method of `C`, which is nearer than that of `D`
    although it was added later. Each of the four methods is listed once. -/
theorem findMember_diamond :
    diamond.overloads 1 "run" 0 = [8, 7, 6, 5] ∧
      ∃ id owner n, diamond.findMember 1 "run" (some 0) 0 = some id ∧
        (diamond.levelAt 1).supertypes.Leads 1 n owner ∧
        diamond.DeclaresFor owner "run" 0 id ∧
        ∀ other t m, (diamond.levelAt 1).supertypes.Leads 1 m t →
          diamond.DeclaresFor t "run" 0 other → n ≤ m := by
  have hq : (lineageQueue (diamond.levelAt 1).supertypes 1).length ≤ hierarchyLimit := by
    decide +kernel
  have hfits : diamond.DeclaresFor 3 "run" 0 6 :=
    ⟨by decide +kernel, by decide +kernel, by decide +kernel⟩
  have hstep : (diamond.levelAt 1).supertypes.Leads 1 1 3 := .up .here (by decide +kernel)
  obtain ⟨-, hnearest, -⟩ := findMember_call diamond_bound (by decide) hq
  exact ⟨by decide +kernel, hnearest ⟨6, 3, 1, hstep, hfits⟩⟩

end Script

end ScriptCheck
