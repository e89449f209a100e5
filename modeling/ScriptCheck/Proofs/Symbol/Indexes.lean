/-
  What the look-ups of a library say.

  A table answers from its indexes, which each operation keeps in its own way.
  `Indexed` compares the answers with the symbols themselves: a symbol is found
  under its number and under its names, those of one name come in the order in
  which they were added, and packages lie in the packages that their names say.
  `Grown.indexed` says so of every table that the operations lead to, whether or
  not the owners that they were given exist. Each single step keeps it.
-/
import ScriptCheck.Proofs.Symbol.Steps

namespace ScriptCheck.SymbolTable

/-- A list holds the numbers of all symbols that fulfil a condition, in ascending order. -/
structure Lists (t : SymbolTable) (ids : List SymbolId) (p : Symbol → Prop) : Prop where
  ascending : ids.Pairwise (· < ·)
  mem_iff : ∀ {i}, i ∈ ids ↔ ∃ s, t.get? i = some s ∧ p s

/-- The symbols that `typesNamed` is about. -/
def IsTypeNamed (name : String) (s : Symbol) : Prop := s.kind = .type ∧ s.name = name

/-- The symbols that `membersNamed` is about. -/
def IsMemberNamed (owner : SymbolId) (name : String) (s : Symbol) : Prop :=
  s.kind ≠ .package ∧ s.owner = some owner ∧ s.name = name

/-- The answers of a table agree with its symbols. -/
structure Indexed (t : SymbolTable) : Prop where
  get?_id : ∀ i < t.size, ∃ s, t.get? i = some s ∧ s.id = i
  type?_iff : ∀ q i,
    t.type? q = some i ↔ ∃ s, t.get? i = some s ∧ s.kind = .type ∧ s.qualifiedName = q
  package?_iff : ∀ q i,
    t.package? q = some i ↔ ∃ s, t.get? i = some s ∧ s.kind = .package ∧ s.qualifiedName = q
  typesNamed : ∀ name, t.Lists (t.typesNamed name) (IsTypeNamed name)
  membersNamed : ∀ owner name, t.Lists (t.membersNamed owner name) (IsMemberNamed owner name)
  /-- A package lies in the package of the name before its last dot, which was there first. -/
  package_owner : ∀ i s outer last, t.get? i = some s → s.kind = .package →
    '.' ∉ last.toList → s.qualifiedName = outer ++ "." ++ last →
      ∃ p, t.package? outer = some p ∧ s.owner = some p ∧ p < i

section

variable {t u : SymbolTable} {new : Symbol} {ids ids' : List SymbolId} {p : Symbol → Prop}

/-! ## Names and members -/

/-- A list of all symbols of a kind stays one if it takes up a new symbol of that kind. -/
theorem Lists.grow (h : t.Lists ids p) (hget : ∀ i, u.get? i = (t.push new).1.get? i)
    (hids : (p { new with id := t.size } ∧ ids' = ids ++ [t.size]) ∨
      (¬p { new with id := t.size } ∧ ids' = ids)) : u.Lists ids' p := by
  have hnew : u.get? t.size = some { new with id := t.size } :=
    (hget t.size).trans (get?_push_self t new)
  have hold : ∀ {i s}, t.get? i = some s → u.get? i = some s := fun {i s} hi =>
    (hget i).trans (extends_push t new i s hi)
  have hcases : ∀ {i s}, u.get? i = some s →
      (i = t.size ∧ s = { new with id := t.size }) ∨ t.get? i = some s := by
    intro i s hi
    rw [hget] at hi
    exact get?_push_cases hi
  rcases hids with ⟨hp, rfl⟩ | ⟨hp, rfl⟩
  · constructor
    · -- The new number is greater than all that are listed.
      rw [List.pairwise_append]
      refine ⟨h.ascending, List.pairwise_singleton _ _, fun i hi j hj => ?_⟩
      obtain ⟨s, hs, _⟩ := h.mem_iff.mp hi
      rw [List.mem_singleton.mp hj]
      exact lt_size_of_get? hs
    · intro i
      rw [List.mem_append, List.mem_singleton, h.mem_iff]
      constructor
      · rintro (⟨s, hs, hps⟩ | rfl)
        · exact ⟨s, hold hs, hps⟩
        · exact ⟨_, hnew, hp⟩
      · rintro ⟨s, hs, hps⟩
        rcases hcases hs with ⟨hi, _⟩ | hs
        · exact Or.inr hi
        · exact Or.inl ⟨s, hs, hps⟩
  · refine ⟨h.ascending, fun {i} => h.mem_iff.trans ⟨?_, ?_⟩⟩
    · rintro ⟨s, hs, hps⟩
      exact ⟨s, hold hs, hps⟩
    · rintro ⟨s, hs, hps⟩
      rcases hcases hs with ⟨_, rfl⟩ | hs
      · exact absurd hps hp
      · exact ⟨s, hs, hps⟩

/-- A new symbol enters the members of its owner, unless it is a package. -/
theorem membersNamed_push (t : SymbolTable) (new : Symbol) (owner : SymbolId) (name : String) :
    (IsMemberNamed owner name { new with id := t.size } ∧
        (t.push new).1.membersNamed owner name = t.membersNamed owner name ++ [t.size]) ∨
      (¬IsMemberNamed owner name { new with id := t.size } ∧
        (t.push new).1.membersNamed owner name = t.membersNamed owner name) := by
  unfold IsMemberNamed
  show (_ ∧ (fileMember t.members new t.size).under (owner, name) = _) ∨
    (_ ∧ (fileMember t.members new t.size).under (owner, name) = _)
  unfold fileMember
  split
  · next other ho =>
    split
    · next hk => exact Or.inr ⟨fun h => h.1 hk, rfl⟩
    · next hk =>
      by_cases hkey : (owner, name) = (other, new.name)
      · obtain ⟨rfl, rfl⟩ := Prod.mk.inj hkey
        exact Or.inl ⟨⟨hk, ho, rfl⟩, Index.under_file_self _ _ _⟩
      · refine Or.inr ⟨fun ⟨_, hother, hname⟩ => hkey ?_, Index.under_file_of_ne _ hkey _⟩
        rw [Option.some.inj (hother.symm.trans ho), ← hname]
  · next hnone =>
    refine Or.inr ⟨fun ⟨_, ho, _⟩ => ?_, rfl⟩
    rw [hnone] at ho
    cases ho

/-- A new type enters the types of its simple name. -/
theorem typesNamed_pushType (t : SymbolTable) (hk : new.kind = .type) (name : String) :
    (IsTypeNamed name { new with id := t.size } ∧
        (t.pushType new).1.typesNamed name = t.typesNamed name ++ [t.size]) ∨
      (¬IsTypeNamed name { new with id := t.size } ∧
        (t.pushType new).1.typesNamed name = t.typesNamed name) := by
  by_cases hname : name = new.name
  · subst hname
    exact Or.inl ⟨⟨hk, rfl⟩, Index.under_file_self _ _ _⟩
  · exact Or.inr ⟨fun h => hname h.2.symm, Index.under_file_of_ne _ hname _⟩

/-- The indexes of names hold what there is. -/
structure Filed (t : SymbolTable) : Prop where
  typesNamed : ∀ name, t.Lists (t.typesNamed name) (IsTypeNamed name)
  membersNamed : ∀ owner name, t.Lists (t.membersNamed owner name) (IsMemberNamed owner name)

theorem filed_empty : empty.Filed := by
  have hnil : ∀ p : Symbol → Prop, empty.Lists [] p := fun p =>
    ⟨.nil, fun {i} => ⟨fun h => absurd h List.not_mem_nil, fun ⟨s, hs, _⟩ => by cases hs⟩⟩
  exact ⟨fun _ => hnil _, fun _ _ => hnil _⟩

/-- What is no type enters no index of types. -/
theorem Filed.grow_plain (h : t.Filed) (hget : ∀ i, u.get? i = (t.push new).1.get? i)
    (htypes : ∀ name, u.typesNamed name = t.typesNamed name)
    (hmembers : ∀ owner name, u.membersNamed owner name = (t.push new).1.membersNamed owner name)
    (hk : new.kind ≠ .type) : u.Filed := by
  refine ⟨fun name => (h.typesNamed name).grow hget (Or.inr ⟨fun hp => hk hp.1, htypes name⟩),
    fun owner name => (h.membersNamed owner name).grow hget ?_⟩
  rw [hmembers]
  exact membersNamed_push t new owner name

/-- Supertypes are no matter of any index. -/
theorem Lists.setSupertypes (h : t.Lists ids p) (hp : ∀ s names, p { s with supertypes := names } ↔
    p s) (id : SymbolId) (names : List String) : (t.setSupertypes id names).Lists ids p := by
  refine ⟨h.ascending, fun {i} => h.mem_iff.trans ?_⟩
  rw [get?_setSupertypes]
  split
  · constructor
    · rintro ⟨s, hs, hps⟩
      exact ⟨_, by rw [hs]; rfl, (hp s names).mpr hps⟩
    · rintro ⟨s, hs, hps⟩
      obtain ⟨old, ho, rfl⟩ := Option.map_eq_some_iff.mp hs
      exact ⟨old, ho, (hp old names).mp hps⟩
  · exact Iff.rfl

/-- Every step files what it adds. -/
theorem Filed.step (h : t.Filed) (hstep : Step t u) : u.Filed := by
  cases hstep with
  | plain hk => exact h.grow_plain (fun _ => rfl) (fun _ => rfl) (fun _ _ => rfl) hk.1
  | package hk hnew he =>
    exact h.grow_plain (get?_pushPackage t _) (fun _ => rfl) (fun _ _ => rfl) (hk ▸ nofun)
  | @type new hk hnew hlast =>
    have hget := get?_pushType t new
    exact ⟨fun name => (h.typesNamed name).grow hget (typesNamed_pushType t hk name),
      fun owner name => (h.membersNamed owner name).grow hget (membersNamed_push t new owner name)⟩
  | supertypes id names =>
    exact ⟨fun name => (h.typesNamed name).setSupertypes (fun _ _ => Iff.rfl) id names,
      fun owner name => (h.membersNamed owner name).setSupertypes (fun _ _ => Iff.rfl) id names⟩

/-! ## Simple names -/

/-- Types go by the last parts of their qualified names, unless their own names have dots. -/
def SimplyNamed (t : SymbolTable) : Prop :=
  ∀ i s, t.get? i = some s → s.kind = .type → '.' ∉ s.name.toList →
    Dotted.last s.qualifiedName = s.name

theorem simplyNamed_empty : empty.SimplyNamed := fun _ _ hs => by cases hs

/-- Every step names types like that. -/
theorem SimplyNamed.step (h : t.SimplyNamed) (hstep : Step t u) : u.SimplyNamed := by
  intro i s hs hks hdot
  cases hstep with
  | plain hk => exact h i s (get?_of_push_of_type hk.1 hs hks) hks hdot
  | package hk hnew he =>
    rw [get?_pushPackage] at hs
    exact h i s (get?_of_push_of_type (hk ▸ nofun) hs hks) hks hdot
  | type hk hnew hlast =>
    rw [get?_pushType] at hs
    rcases get?_push_cases hs with ⟨_, rfl⟩ | hs
    · exact hlast hdot
    · exact h i s hs hks hdot
  | supertypes id names =>
    rw [get?_setSupertypes] at hs
    split at hs
    · obtain ⟨old, hold, rfl⟩ := Option.map_eq_some_iff.mp hs
      exact h i old hold hks hdot
    · exact h i s hs hks hdot

/-! ## Packages -/

/-- Packages lie where their names say. -/
def PackagesNested (t : SymbolTable) : Prop :=
  ∀ i s outer last, t.get? i = some s → s.kind = .package → '.' ∉ last.toList →
    s.qualifiedName = outer ++ "." ++ last →
      ∃ p, t.package? outer = some p ∧ s.owner = some p ∧ p < i

/-- A new symbol that is no package leaves the packages alone. -/
theorem PackagesNested.grow_plain (h : t.PackagesNested)
    (hget : ∀ i, u.get? i = (t.push new).1.get? i) (hpackages : u.packages = t.packages)
    (hk : new.kind ≠ .package) : u.PackagesNested := by
  intro i s outer last hs hks hlast hq
  rw [hget] at hs
  have hlookup : u.package? outer = t.package? outer := by
    unfold package?
    rw [hpackages]
  rw [hlookup]
  rcases get?_push_cases hs with ⟨_, rfl⟩ | hs
  · exact absurd hks hk
  · exact h i s outer last hs hks hlast hq

/-- A new package is enclosed by a package that was there before. -/
theorem PackagesNested.package (h : t.PackagesNested) (ht : t.Consistent)
    (hnew : t.package? new.qualifiedName = none) (he : t.Enclosed new) :
    (t.pushPackage new).1.PackagesNested := by
  intro i s outer last hs hks hlast hq
  -- The new name is none of the names that are found already.
  have hkept : ∀ {q id}, t.package? q = some id →
      (t.pushPackage new).1.package? q = some id := fun hid =>
    (lookup_cons_iff hnew).mpr (Or.inl hid)
  rw [get?_pushPackage] at hs
  rcases get?_push_cases hs with ⟨rfl, rfl⟩ | hs
  · obtain ⟨p, hp, howner⟩ := he.inside outer last hlast hq
    obtain ⟨package, hget, _⟩ := ht.get?_of_package? hp
    exact ⟨p, hkept hp, howner, lt_size_of_get? hget⟩
  · obtain ⟨p, hp, howner, hlt⟩ := h i s outer last hs hks hlast hq
    exact ⟨p, hkept hp, howner, hlt⟩

/-- Every step keeps the packages nested. -/
theorem PackagesNested.step (h : t.PackagesNested) (ht : t.Consistent) (hstep : Step t u) :
    u.PackagesNested := by
  cases hstep with
  | plain hk => exact h.grow_plain (fun _ => rfl) rfl hk.2
  | package hk hnew he => exact h.package ht hnew he
  | type hk hnew hlast => exact h.grow_plain (get?_pushType t _) rfl (hk ▸ nofun)
  | supertypes id names =>
    intro i s outer last hs hks hlast hq
    obtain ⟨old, hold, _, hkind, hname, howner⟩ := get?_setSupertypes_cases hs
    rw [howner]
    exact h i old outer last hold (hkind ▸ hks) hlast (hname ▸ hq)

/-! ## Every library -/

/-- In every table that the operations lead to, the answers agree with the symbols. -/
theorem Grown.indexed (h : t.Grown) : t.Indexed := by
  have hc : t.Consistent := h.consistent
  have hall : t.Consistent ∧ t.Filed ∧ t.PackagesNested := by
    refine h.induct (P := fun t => t.Consistent ∧ t.Filed ∧ t.PackagesNested) ?_ ?_
    · exact ⟨consistent_empty, filed_empty, fun i s _ _ hs => by cases hs⟩
    · rintro t u ⟨ht, hf, hp⟩ hstep
      exact ⟨ht.step hstep, hf.step hstep, hp.step ht hstep⟩
  obtain ⟨_, hf, hp⟩ := hall
  refine ⟨fun i hi => ?_, fun q i => hc.named?_iff (Or.inl rfl),
    fun q i => hc.named?_iff (Or.inr rfl), hf.typesNamed, hf.membersNamed, hp⟩
  have hget : t.get? i = some t.symbols[i] := Array.getElem?_eq_getElem hi
  exact ⟨_, hget, hc.id_eq hget⟩

end

/-! ## A table whose owners are not there -/

/-- A type in a package, a type and two methods of owners that are not there, and a second method of
    the same name. -/
def scattered : SymbolTable :=
  let t := (empty.addType "app.model.Item" .none []).1
  let t := (t.addNestedType 40 "Item" .none none).1
  let t := (t.addMethod 50 "run" .none (.fixed 0)).1
  let t := (t.addMethod 50 "run" .none (.fixed 2)).1
  (t.addPackage "app.view").1

theorem scattered_grown : scattered.Grown :=
  .package (.method (.method (.nestedType (.type .start _ _ _) _ _ _ _) _ _ _ _) _ _ _ _) _

/-- The answers agree with the symbols here too: both types, both methods, and the outer package. -/
theorem indexed_scattered :
    (scattered.typesNamed "Item" = [2, 3] ∧ scattered.membersNamed 50 "run" = [4, 5] ∧
        scattered.package? "app.view" = some 6 ∧ scattered.package? "app" = some 0) ∧
      scattered.Indexed :=
  ⟨by decide +kernel, scattered_grown.indexed⟩

end ScriptCheck.SymbolTable
