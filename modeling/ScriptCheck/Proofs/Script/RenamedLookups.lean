/-
  Lookups after a renaming.

  When a variable and the names that stand for it get a fresh name, each lookup
  finds what it found. A name that stands for the variable finds it under its new
  name, whichever depth it is looked up at (`lookup_of_standsFor`). Any other name
  finds the same if what it asks about is the same one step further down
  (`lookup_of_not_standsFor`), so that an induction over the depths leads to
  `Renaming.resolve`.

  What is looked up further down is cut off earlier. Whether a name stands for the
  variable may depend on that, but the names to be changed are those that stand for
  it at the top. `Renamable` therefore asks that the depth does not matter.
-/
import ScriptCheck.Proofs.Script.LexicalScoping
import ScriptCheck.Proofs.Script.RenamedScopes
import ScriptCheck.Proofs.Symbol.Indexes

namespace ScriptCheck

namespace Tree

/-- Whether a node is a plain name in value position. -/
def isPlainValue (t : Tree) (i : NodeId) : Bool :=
  match t.form? i with
  | some (.reference .value data) => data.qualifier.isNone
  | _ => false

/-- What stands in front of the dot of a reference. -/
def qualifier? (t : Tree) (i : NodeId) : Part := (t.referenceAt? i).bind Reference.qualifier

/-- What stands in the clauses of types. -/
def clauses (t : Tree) : List NodeId :=
  (List.range t.size).flatMap fun i =>
    ((t.typeDeclAt? i).elim [] fun data => data.extended ++ data.implemented).flatMap Option.toList

/-- The nodes that can be looked up at a depth: at first any node, and one step further down what
    stands in front of a dot there and what stands in the clauses of types. -/
def askedAt (t : Tree) : Nat → List NodeId
  | 0 => List.range t.size
  | depth + 1 => (t.askedAt depth).filterMap t.qualifier? ++ t.clauses

section

variable {t : Tree} {i r : Nat}

theorem isPlainValue_iff : t.isPlainValue i = true ↔
    ∃ data, t.form? i = some (.reference .value data) ∧ data.qualifier = none := by
  unfold isPlainValue
  constructor
  · intro h
    split at h
    · next data hform => exact ⟨data, hform, Option.isNone_iff_eq_none.mp h⟩
    · cases h
  · rintro ⟨data, hform, hq⟩
    rw [hform]
    exact Option.isNone_iff_eq_none.mpr hq

theorem mem_clauses {data : TypeDecl} (h : t.typeDeclAt? r = some data)
    (hm : some i ∈ data.extended ++ data.implemented) : i ∈ t.clauses := by
  have hlt : r < t.size := by
    unfold typeDeclAt? at h
    split at h
    · next hform => exact lt_size_of_form? hform
    · cases h
  refine List.mem_flatMap.mpr ⟨r, List.mem_range.mpr hlt, ?_⟩
  rw [h]
  exact List.mem_flatMap.mpr ⟨some i, hm, Option.mem_toList.mpr rfl⟩

theorem mem_askedAt_of_qualifier {depth : Nat} (hr : r ∈ t.askedAt depth)
    (hq : t.qualifier? r = some i) : i ∈ t.askedAt (depth + 1) :=
  List.mem_append_left _ (List.mem_filterMap.mpr ⟨r, hr, hq⟩)

theorem mem_askedAt_of_clause (depth : Nat) (hi : i ∈ t.clauses) : i ∈ t.askedAt (depth + 1) :=
  List.mem_append_right _ hi

end

end Tree

namespace Script

/-- Whether a plain name stands for the variable declared at `d`. -/
def standsFor (s : Script) (d r : NodeId) : Bool :=
  s.tree.isPlainValue r && (s.symbolOf? d).isSome && (s.resolve r).symbol? = s.symbolOf? d

/-- Whether a plain name is found to be the variable declared at `d` when it is looked up so
    deep. -/
def findsAt (s : Script) (d : NodeId) (depth : Nat) (r : NodeId) : Bool :=
  s.tree.isPlainValue r && (s.symbolOf? d).isSome && (s.levelAt depth).lookup r = s.symbolOf? d

/-- Whether a renaming of the variable declared at `d` changes the text of a node: that of its name,
    and the names that stand for it. -/
def renames (s : Script) (d i : NodeId) : Bool :=
  s.standsFor d i || (s.tree.namePart d = some i && (s.tree.textAt? i).isSome)

/-- The methods that can read the property `name`. -/
def accessorNames (name : String) : List String :=
  ["get", "is"].map (· ++ String.ofList (Uppercase.capitalize name.toList))

/-- A name that nothing in a script is called. -/
structure Fresh (s : Script) (name : String) : Prop where
  notReserved : name ∉ ["", "it", "this", "super"]
  text : ∀ i < s.tree.size, s.tree.textAt? i ≠ some name
  reference : ∀ i < s.tree.size, (s.tree.referenceAt? i).bind Reference.name ≠ some name
  symbol : ∀ symbol ∈ s.symbols.symbols.toList, symbol.name ≠ name
  accessor : ∀ symbol ∈ s.symbols.symbols.toList, symbol.kind = .method →
    symbol.name ∉ accessorNames name

instance (s : Script) (name : String) : Decidable (s.Fresh name) :=
  decidable_of_iff
    (name ∉ ["", "it", "this", "super"] ∧ (∀ i < s.tree.size, s.tree.textAt? i ≠ some name) ∧
      (∀ i < s.tree.size, (s.tree.referenceAt? i).bind Reference.name ≠ some name) ∧
      (∀ symbol ∈ s.symbols.symbols.toList, symbol.name ≠ name) ∧
      ∀ symbol ∈ s.symbols.symbols.toList, symbol.kind = .method →
        symbol.name ∉ accessorNames name)
    ⟨fun ⟨hreserved, htext, hreference, hsymbol, haccessor⟩ =>
      ⟨hreserved, htext, hreference, hsymbol, haccessor⟩,
      fun h => ⟨h.notReserved, h.text, h.reference, h.symbol, h.accessor⟩⟩

/-- What a variable needs to be renamed: it is never called `this`, by which a type body that is
    part of it would call it, and no limit of depth decides whether a name stands for it. -/
structure Renamable (s : Script) (d : NodeId) : Prop where
  neverThis : ∀ r body, s.standsFor d r = true → s.tree.IsValueName r "this" →
    body ∈ s.tree.ancestors r → s.tree.kind? body = some .classBody → s.tree.parent? body ≠ some d
  anyDepth : ∀ depth ≤ qualifierLimit, ∀ i ∈ s.tree.askedAt depth,
    s.findsAt d depth i = s.standsFor d i

section

variable {s s' : Script} {u : Tree} {name : String} {d r root : Nat} {id : SymbolId}

/-! ## Names that stand for a variable -/

theorem standsFor_iff : s.standsFor d r = true ↔
    s.tree.isPlainValue r = true ∧ ∃ id, s.symbolOf? d = some id ∧ s.top.lookup r = some id := by
  unfold standsFor
  rw [Bool.and_eq_true, Bool.and_eq_true, symbol?_resolve, decide_eq_true_iff, and_assoc]
  refine and_congr_right fun _ => ?_
  cases s.symbolOf? d <;> simp

theorem findsAt_iff {depth : Nat} : s.findsAt d depth r = true ↔ s.tree.isPlainValue r = true ∧
    ∃ id, s.symbolOf? d = some id ∧ (s.levelAt depth).lookup r = some id := by
  unfold findsAt
  rw [Bool.and_eq_true, Bool.and_eq_true, decide_eq_true_iff, and_assoc]
  refine and_congr_right fun _ => ?_
  cases s.symbolOf? d <;> simp

/-- Of all declarations, only the variable gets another name. -/
theorem renamesVariable_of_renamed (ht : s.tree.WellShaped)
    (hd : s.tree.kind? d = some .variableDeclaration)
    (h : s.tree.Renamed u (s.renames d) name) :
    s.tree.RenamesVariable u (s.renames d) name d := by
  refine ⟨h, hd, fun i => ?_⟩
  rw [Tree.declaredName?_eq_bind, Tree.declaredName?_eq_bind, h.namePart]
  cases hpart : s.tree.namePart i with
  | none => exact (ite_self _).symm
  | some part =>
    rw [Option.bind_some, Option.bind_some, h.textAt?]
    cases htext : s.tree.textAt? part with
    | none => exact (ite_self _).symm
    | some text =>
      -- The name of a declaration is an identifier, and what stands for a variable is not.
      have hplain : s.standsFor d part = false := by
        refine Bool.eq_false_iff.mpr fun hstands => ?_
        obtain ⟨data, hform', _⟩ := Tree.isPlainValue_iff.mp (standsFor_iff.mp hstands).1
        unfold Tree.textAt? at htext
        rw [hform'] at htext
        cases htext
      have hchosen : s.renames d part = decide (s.tree.namePart d = some part) := by
        unfold renames
        rw [hplain, htext]
        simp
      rw [Option.map_some, hchosen]
      by_cases hi : i = d
      · rw [if_pos hi, ← hi, hpart]
        simp
      · -- No two declarations share the node of their name.
        have hother : s.tree.namePart d ≠ some part := by
          intro hname
          exact hi (ht.part_unique (Tree.lt_size_of_textAt? htext)
            (Tree.mem_children_of_namePart hpart) (Tree.mem_children_of_namePart hname))
        rw [if_neg hi]
        simp [hother]

/-! ## Fresh names -/

theorem Fresh.declaredName? (h : s.Fresh name) (i : NodeId) :
    s.tree.declaredName? i ≠ some name := by
  intro hname
  rw [Tree.declaredName?_eq_bind] at hname
  obtain ⟨part, _, htext⟩ := Option.bind_eq_some_iff.mp hname
  exact h.text part (Tree.lt_size_of_textAt? htext) htext

/-- Nothing of a name is inherited if no symbol of such a kind has the name. -/
theorem inherited_eq_nil (hfiled : s.symbols.Filed) {kinds : List SymbolKind} {member : String}
    (hnone : ∀ symbol ∈ s.symbols.symbols.toList, symbol.kind ∈ kinds → symbol.name ≠ member)
    (supertypes : Supertypes) (type : SymbolId) :
    s.inherited supertypes kinds type member = [] := by
  refine List.eq_nil_iff_forall_not_mem.mpr fun id hm => ?_
  obtain ⟨symbol, hget, hk⟩ := hasKind_of_mem_inherited hm
  obtain ⟨t, _, hmember⟩ := List.mem_flatMap.mp hm
  obtain ⟨symbol', hget', _, _, hname⟩ :=
    (hfiled.membersNamed t member).mem_iff.mp (List.mem_filter.mp hmember).1
  obtain rfl : symbol = symbol' := Option.some.inj (hget.symm.trans hget')
  have hsymbol : symbol ∈ s.symbols.symbols.toList :=
    Array.mem_toList_iff.mpr (SymbolTable.mem_symbols_iff.mpr ⟨id, hget⟩)
  exact hnone symbol hsymbol hk hname

/-- No type has a member of a fresh name. -/
theorem Fresh.memberWith (h : s.Fresh name) (hfiled : s.symbols.Filed) (supertypes : Supertypes)
    (type : SymbolId) (count : Option Nat) : s.memberWith supertypes type name count = none := by
  have hfields : s.fields supertypes type name = [] :=
    inherited_eq_nil hfiled (fun symbol hm _ => h.symbol symbol hm) supertypes type
  have hmethods : s.methods supertypes type name = [] :=
    inherited_eq_nil hfiled (fun symbol hm _ => h.symbol symbol hm) supertypes type
  have haccessor : s.accessor? supertypes type name = none := by
    unfold accessor?
    split
    · rfl
    · rw [List.findSome?_eq_none_iff]
      intro verb hverb
      have hnone : s.methods supertypes type
          (verb ++ String.ofList (Uppercase.capitalize name.toList)) = [] := by
        refine inherited_eq_nil hfiled (fun symbol hm hk hname => ?_) supertypes type
        exact h.accessor symbol hm (List.mem_singleton.mp hk)
          (List.mem_map.mpr ⟨verb, hverb, hname.symm⟩)
      rw [hnone]
      rfl
  unfold Script.memberWith
  rw [hfields, hmethods, haccessor]
  cases count <;> rfl

/-- So it stands for nothing inside a type body. -/
theorem Fresh.classScopeMember (h : s.Fresh name) (hfiled : s.symbols.Filed)
    (supertypes above : Supertypes) (type : SymbolId) (count : Option Nat) :
    classScopeMember above (s.memberWith supertypes) type name count = none := by
  have hthis : name ≠ "this" := fun heq => h.notReserved (by simp [heq])
  have hsuper : name ≠ "super" := fun heq => h.notReserved (by simp [heq])
  unfold Script.classScopeMember
  rw [if_neg hthis, if_neg hsuper, h.memberWith hfiled]

/-! ## Lookups before and after -/

/-- Where a plain name that stands for the variable is: after it, in the block around it. -/
def SeenInBlock (s : Script) (d r : NodeId) : Prop :=
  ∃ scope statements inner, s.tree.form? scope = some (.block statements) ∧
    s.tree.PathTo r scope inner ∧
    some d ∈ s.tree.statementsBefore scope (inner.getLastD r)

/-- What is known of a script with a variable that gets a fresh name, and of the script that comes
    out. -/
structure Renaming (s s' : Script) (root : NodeId) (name : String) (d : NodeId) : Prop where
  renames : s.Renames s' (s.renames d) name d
  sound : Binding.Sound s.tree root s.binding
  wellShaped : s.tree.WellShaped
  filed : s.symbols.Filed
  fresh : s.Fresh name
  seen : ∀ r, s.standsFor d r = true → s.SeenInBlock d r

theorem renames_reference {role : ReferenceRole} {data : Reference}
    (hform : s.tree.form? r = some (.reference role data)) :
    s.renames d r = s.standsFor d r := by
  have htext : s.tree.textAt? r = none := by
    unfold Tree.textAt?
    rw [hform]
  unfold renames
  rw [htext]
  simp

section

variable (h : s.Renaming s' root name d) {below below' : Level}

include h

/-- A name that stands for the variable still does, however deep it is looked up. -/
theorem Renaming.lookup_of_standsFor (hr : s.standsFor d r = true) :
    (s'.levelAbove below').lookup r = s.symbolOf? d := by
  obtain ⟨hplain, id, hid, _⟩ := standsFor_iff.mp hr
  obtain ⟨data, hform, hq⟩ := Tree.isPlainValue_iff.mp hplain
  obtain ⟨scope, statements, inner, hscope, hpath, hbefore⟩ := h.seen r hr
  have hform' : s'.tree.form? r =
      some (.reference .value { data with name := some name }) := by
    rw [h.renames.tree.form?, hform, Option.map_some]
    unfold Tree.renameAt
    rw [renames_reference hform, hr]
    rfl
  have hname' : Reference.name? { data with name := some name } = some name := by
    have hne : name ≠ "" := fun heq => h.fresh.notReserved (by simp [heq])
    unfold Reference.name?
    simp [hne]
  have hnamed : (s.tree.declaredName? d).isSome = true := by
    obtain ⟨_, _, hd⟩ := h.sound.declared (Binding.mem_declared_of_symbolOf? hid)
    exact Option.isSome_iff_exists.mpr hd.isNamed
  have hit : name ≠ "it" := fun heq => h.fresh.notReserved (by simp [heq])
  have hmember : ∀ type, classScopeMember (s'.levelAbove below').supertypes
      (s'.levelAbove below').member type name (s'.argumentCount? r) = none := by
    intro type
    show classScopeMember _ (s'.memberWith below'.supertypes) type name _ = none
    rw [h.renames.memberWith]
    exact h.fresh.classScopeMember h.filed _ _ type _
  rw [lookup_levelAbove_value hform' hname' hq,
    h.renames.lookupValue_name h.fresh.declaredName? h.wellShaped hit hmember hscope hpath hbefore
      hnamed hid, hid]
  rfl

section

variable (hmember : below'.member = below.member)
  (hsupertypes : below'.supertypes = below.supertypes)
  (hclauses : ∀ i ∈ s.tree.clauses, below'.lookup i = below.lookup i)

include hclauses in
theorem Renaming.supertypes_levelAbove :
    (s'.levelAbove below').supertypes = (s.levelAbove below).supertypes :=
  h.renames.directSupertypes fun _ _ i hc hm => hclauses i (Tree.mem_clauses hc hm)

include hsupertypes in
theorem Renaming.member_levelAbove :
    (s'.levelAbove below').member = (s.levelAbove below).member := by
  show s'.memberWith below'.supertypes = s.memberWith below.supertypes
  rw [h.renames.memberWith, hsupertypes]

theorem Renaming.qualifierBelow {qualifier : NodeId}
    (hqualifier : below'.lookup qualifier = below.lookup qualifier) :
    s'.qualifierBelow below' qualifier = s.qualifierBelow below qualifier := by
  unfold Script.qualifierBelow
  rw [h.renames.tree.isOneOf, hqualifier, funext h.renames.asQualifier]

include hmember hsupertypes hclauses in
/-- A name that stands for something else still does, if the lookups below agree. -/
theorem Renaming.lookup_of_not_standsFor (hr : s.standsFor d r = false)
    (hqualifier : ∀ i, s.tree.qualifier? r = some i → below'.lookup i = below.lookup i)
    (hother : s.tree.isPlainValue r = true → ∀ id, s.symbolOf? d = some id →
      (s.levelAbove below).lookup r ≠ some id) :
    (s'.levelAbove below').lookup r = (s.levelAbove below).lookup r := by
  by_cases hreference : ∃ role data, s.tree.form? r = some (.reference role data)
  · obtain ⟨role, data, hform⟩ := hreference
    have hdata : s.tree.referenceAt? r = some data := by
      unfold Tree.referenceAt?
      rw [hform]
    have hform' : s'.tree.form? r = some (.reference role data) := by
      rw [h.renames.tree.form?, hform, Option.map_some]
      unfold Tree.renameAt
      rw [renames_reference hform, hr]
      rfl
    cases hname : data.name? with
    | none => rw [lookup_levelAbove_unnamed hform' hname, lookup_levelAbove_unnamed hform hname]
    | some asked =>
      have hcount := h.renames.argumentCount? r
      cases hq : data.qualifier with
      | some qualifier =>
        have hpart : s.tree.qualifier? r = some qualifier := by
          unfold Tree.qualifier?
          rw [hdata]
          exact hq
        rw [lookup_levelAbove_qualified hform' hname hq, lookup_levelAbove_qualified hform hname hq,
          h.qualifierBelow (hqualifier qualifier hpart), hcount, hmember, h.renames.insideQualifier]
      | none =>
        cases role with
        | type =>
          rw [lookup_levelAbove_type hform' hname hq, lookup_levelAbove_type hform hname hq]
          exact h.renames.lookupType h.sound h.wellShaped.built r asked
        | value =>
          have hne : asked ≠ name := by
            rintro rfl
            refine h.fresh.reference r (Tree.lt_size_of_form? hform) ?_
            rw [hdata]
            exact Option.eq_some_of_filter_eq_some hname
          refine SameUnless.eq (z := s.symbolOf? d) ?_
            (hother (Tree.isPlainValue_iff.mpr ⟨data, hform, hq⟩))
          rw [lookup_levelAbove_value hform' hname hq, lookup_levelAbove_value hform hname hq,
            h.supertypes_levelAbove hclauses, h.member_levelAbove hsupertypes, hcount, hmember,
            h.renames.lookupType h.sound h.wellShaped.built]
          exact (h.renames.lookupValue hne r _).orElse (.refl _)
  · have hreference' : ∀ role data, s'.tree.form? r ≠ some (.reference role data) := by
      intro role data hform
      have hi := h.renames.tree.recalled r
      rw [hform] at hi
      generalize s.tree.form? r = held at hi hreference
      cases hi with
      | same => exact hreference ⟨role, data, rfl⟩
      | reference _ old => exact hreference ⟨role, old, rfl⟩
    rw [lookup_levelAbove_of_not_reference hreference', lookup_levelAbove_of_not_reference
      fun role data hform => hreference ⟨role, data, hform⟩]

end

/-- The lookups of every depth agree on what is looked up there. -/
theorem Renaming.level (hd : s.Renamable d) {n : Nat} (hn : n ≤ qualifierLimit + 1) :
    (s'.level n).member = (s.level n).member ∧ (s'.level n).supertypes = (s.level n).supertypes ∧
      ∀ i ∈ s.tree.askedAt (qualifierLimit + 1 - n),
        (s'.level n).lookup i = (s.level n).lookup i := by
  induction n with
  | zero => exact ⟨rfl, rfl, fun _ _ => rfl⟩
  | succ n ih =>
    obtain ⟨hmember, hsupertypes, hlookup⟩ := ih (Nat.le_of_succ_le hn)
    -- What is looked up one step further down is what this level asks about.
    have hdepth : qualifierLimit + 1 - n = qualifierLimit + 1 - (n + 1) + 1 := by omega
    rw [hdepth] at hlookup
    have hclauses : ∀ i ∈ s.tree.clauses, (s'.level n).lookup i = (s.level n).lookup i :=
      fun i hi => hlookup i (Tree.mem_askedAt_of_clause _ hi)
    refine ⟨h.member_levelAbove hsupertypes, h.supertypes_levelAbove hclauses, fun i hi => ?_⟩
    have hlevel : s.levelAt (qualifierLimit + 1 - (n + 1)) = s.levelAbove (s.level n) := by
      unfold levelAt
      rw [Nat.sub_sub_self hn]
      rfl
    -- The names that change are chosen at the top; `Renamable` says that they are the same here.
    have halike := hd.anyDepth _ (by omega) i hi
    show (s'.levelAbove (s'.level n)).lookup i = (s.levelAbove (s.level n)).lookup i
    cases hstands : s.standsFor d i with
    | true =>
      obtain ⟨_, id, hid, hfound⟩ := findsAt_iff.mp (halike.trans hstands)
      rw [h.lookup_of_standsFor hstands, ← hlevel, hfound, hid]
    | false =>
      refine h.lookup_of_not_standsFor hmember hsupertypes hclauses hstands
        (fun j hj => hlookup j (Tree.mem_askedAt_of_qualifier hi hj)) fun hplain id hid hfound => ?_
      have hfinds := findsAt_iff.mpr ⟨hplain, id, hid, hlevel ▸ hfound⟩
      rw [halike, hstands] at hfinds
      cases hfinds

/-- Every name stands for the same thing. -/
theorem Renaming.lookup (hd : s.Renamable d) (r : NodeId) : s'.top.lookup r = s.top.lookup r := by
  by_cases hr : r < s.tree.size
  · obtain ⟨_, _, hlookup⟩ := h.level hd (Nat.le_refl (qualifierLimit + 1))
    rw [Nat.sub_self] at hlookup
    exact hlookup r (List.mem_range.mpr hr)
  · have hnone : s.tree.form? r = none := Tree.form?_eq_none (Nat.le_of_not_lt hr)
    have hnone' : s'.tree.form? r = none := by
      rw [h.renames.tree.form?, hnone]
      rfl
    have hlookup : s.top.lookup r = none :=
      lookup_levelAbove_of_not_reference fun _ _ hform => by
        rw [hnone] at hform
        cases hform
    have hlookup' : s'.top.lookup r = none :=
      lookup_levelAbove_of_not_reference fun _ _ hform => by
        rw [hnone'] at hform
        cases hform
    rw [hlookup, hlookup']

/-- It may be used at the same places, too. -/
theorem Renaming.resolve (hd : s.Renamable d) (r : NodeId) : s'.resolve r = s.resolve r := by
  have hsuper : s'.supertypesOf = s.supertypesOf :=
    (h.level hd (Nat.le_refl (qualifierLimit + 1))).2.1
  unfold Script.resolve resolveWith
  rw [lookupWithin_none, lookupWithin_none]
  show Id.run (Resolution.ofSearch (s'.top.lookup r) _) =
    Id.run (Resolution.ofSearch (s.top.lookup r) _)
  rw [h.lookup hd]
  refine congrArg (fun mayUse : SymbolId → Id Bool =>
    Id.run (Resolution.ofSearch (s.top.lookup r) mayUse)) (funext fun id => ?_)
  exact congrArg pure (h.renames.isAccessible hsuper id r)

end

end

end Script

end ScriptCheck
