/-
  What growing tables of symbols keep.

  A symbol is found under its own number, a qualified name stands for one
  package and one type at most, and packages lie in packages only. `Consistent`
  says so, and everything that adds symbols keeps it. `Extends` is the frame:
  binding adds symbols and leaves those that are there as they are.
-/
import ScriptCheck.Symbol.Table

namespace ScriptCheck.SymbolTable

/-- The tables that a library can have. -/
inductive Grown : SymbolTable → Prop
  | start : Grown empty
  | package {t : SymbolTable} (h : Grown t) (qualifiedName : String) :
    Grown (t.addPackage qualifiedName).1
  | type {t : SymbolTable} (h : Grown t) (qualifiedName : String) (flags : SymbolFlags)
    (supertypes : List String) : Grown (t.addType qualifiedName flags supertypes).1
  | nestedType {t : SymbolTable} (h : Grown t) (outer : SymbolId) (name : String)
    (flags : SymbolFlags) (declaration : Part) :
    Grown (t.addNestedType outer name flags declaration).1
  | field {t : SymbolTable} (h : Grown t) (owner : SymbolId) (name : String)
    (flags : SymbolFlags) : Grown (t.addField owner name flags).1
  | method {t : SymbolTable} (h : Grown t) (owner : SymbolId) (name : String)
    (flags : SymbolFlags) (arity : Arity) : Grown (t.addMethod owner name flags arity).1

/-- Whether a symbol is there and is a package. -/
def IsPackage (t : SymbolTable) (id : SymbolId) : Prop :=
  ∃ s, t.get? id = some s ∧ s.kind = .package

/-- What a qualified name stands for as a name of a package or of a type; nothing else is looked up
    by its qualified name. -/
def named? (t : SymbolTable) (kind : SymbolKind) (qualifiedName : String) : Option SymbolId :=
  match kind with
  | .package => t.package? qualifiedName
  | .type => t.type? qualifiedName
  | _ => none

/-- Whether a symbol is there, is of a kind and has a qualified name. -/
def HasName (t : SymbolTable) (kind : SymbolKind) (qualifiedName : String) (id : SymbolId) : Prop :=
  ∃ s, t.get? id = some s ∧ s.kind = kind ∧ s.qualifiedName = qualifiedName

/-- What holds of every table. -/
structure Consistent (t : SymbolTable) : Prop where
  /-- A symbol knows its own number. -/
  id_eq : ∀ {i s}, t.get? i = some s → s.id = i
  /-- The indexes of qualified names hold what there is. -/
  named?_iff : ∀ {kind q i}, kind = .type ∨ kind = .package →
    (t.named? kind q = some i ↔ t.HasName kind q i)
  /-- Packages lie in packages. -/
  owner_package : ∀ {i s owner}, t.get? i = some s → s.kind = .package →
    s.owner = some owner → t.IsPackage owner

/-- Every symbol of one table is in another under the same number. -/
def Extends (t u : SymbolTable) : Prop := ∀ i s, t.get? i = some s → u.get? i = some s

section

variable {t u v : SymbolTable} {i : SymbolId} {s : Symbol}

/-! ## Extension -/

theorem Extends.refl (t : SymbolTable) : t.Extends t := fun _ _ h => h

theorem Extends.trans (htu : t.Extends u) (huv : u.Extends v) : t.Extends v :=
  fun i s h => huv i s (htu i s h)

theorem IsPackage.mono (h : t.IsPackage i) (he : t.Extends u) : u.IsPackage i := by
  obtain ⟨s, hs, hk⟩ := h
  exact ⟨s, he i s hs, hk⟩

theorem isType_iff : t.isType i = true ↔ ∃ s, t.get? i = some s ∧ s.kind = .type := by
  unfold isType Symbol.isType
  rw [Option.any_eq_true]
  simp only [decide_eq_true_eq]

theorem lt_size_of_get? (h : t.get? i = some s) : i < t.size :=
  (Array.getElem?_eq_some_iff.mp h).choose

theorem get?_push (t : SymbolTable) (new : Symbol) (i : SymbolId) :
    (t.push new).1.get? i = if i = t.size then some { new with id := t.size } else t.get? i :=
  Array.getElem?_push

theorem extends_push (t : SymbolTable) (new : Symbol) : t.Extends (t.push new).1 := by
  intro i s h
  rw [get?_push_of_lt t new (lt_size_of_get? h)]
  exact h

/-- A symbol of a table that grew by one is the new one or was there. -/
theorem get?_push_cases {new : Symbol} (h : (t.push new).1.get? i = some s) :
    (i = t.size ∧ s = { new with id := t.size }) ∨ t.get? i = some s := by
  rw [get?_push] at h
  split at h
  · next hi => exact Or.inl ⟨hi, (Option.some.inj h).symm⟩
  · exact Or.inr h

/-- A symbol that is no type is none of the types. -/
theorem get?_of_push_of_type {new : Symbol} (hne : new.kind ≠ .type)
    (h : (t.push new).1.get? i = some s) (hk : s.kind = .type) : t.get? i = some s := by
  rcases get?_push_cases h with ⟨_, rfl⟩ | hold
  · exact absurd hk hne
  · exact hold

/-- What has a name in a table that grew by one is the new symbol or had it before. -/
theorem hasName_push {new : Symbol} {kind : SymbolKind} {q : String} :
    (t.push new).1.HasName kind q i ↔
      t.HasName kind q i ∨ (i = t.size ∧ new.kind = kind ∧ new.qualifiedName = q) := by
  constructor
  · rintro ⟨s, h, hk, hq⟩
    rcases get?_push_cases h with ⟨hi, rfl⟩ | h
    · exact Or.inr ⟨hi, hk, hq⟩
    · exact Or.inl ⟨s, h, hk, hq⟩
  · rintro (⟨s, h, hk, hq⟩ | ⟨rfl, hk, hq⟩)
    · exact ⟨s, extends_push t new i s h, hk, hq⟩
    · exact ⟨_, get?_push_self t new, hk, hq⟩

/-! ## Look-ups by qualified name -/

theorem package?_eq_named? (t : SymbolTable) (q : String) : t.package? q = t.named? .package q :=
  rfl

theorem type?_eq_named? (t : SymbolTable) (q : String) : t.type? q = t.named? .type q := rfl

theorem mem_symbols_iff : s ∈ t.symbols ↔ ∃ i, t.get? i = some s := Array.mem_iff_getElem?

/-- What a look-up finds is a symbol of that kind and name. -/
theorem Consistent.get?_of_named? (ht : t.Consistent) {kind : SymbolKind} {q : String}
    (h : t.named? kind q = some i) :
    ∃ s, t.get? i = some s ∧ s.kind = kind ∧ s.qualifiedName = q := by
  have hk : kind = .type ∨ kind = .package := by
    unfold named? at h
    split at h
    · exact Or.inr rfl
    · exact Or.inl rfl
    · cases h
  exact (ht.named?_iff hk).mp h

theorem Consistent.get?_of_type? (ht : t.Consistent) {q : String} (h : t.type? q = some i) :
    ∃ s, t.get? i = some s ∧ s.kind = .type ∧ s.qualifiedName = q :=
  ht.get?_of_named? ((type?_eq_named? t q).symm.trans h)

theorem Consistent.get?_of_package? (ht : t.Consistent) {q : String} (h : t.package? q = some i) :
    ∃ s, t.get? i = some s ∧ s.kind = .package ∧ s.qualifiedName = q :=
  ht.get?_of_named? ((package?_eq_named? t q).symm.trans h)

/-- Types and packages are found under their qualified names. -/
theorem Consistent.named?_of_get? (ht : t.Consistent) (h : t.get? i = some s)
    (hk : s.kind = .type ∨ s.kind = .package) : t.named? s.kind s.qualifiedName = some i :=
  (ht.named?_iff hk).mpr ⟨s, h, rfl, rfl⟩

theorem Consistent.type?_of_get? (ht : t.Consistent) (h : t.get? i = some s) (hk : s.kind = .type)
    {q : String} (hq : s.qualifiedName = q) : t.type? q = some i :=
  (type?_eq_named? t q).trans ((ht.named?_iff (Or.inl rfl)).mpr ⟨s, h, hk, hq⟩)

/-- A qualified name stands for one package and one type at most. -/
theorem Consistent.unique (ht : t.Consistent) {j : SymbolId} {a b : Symbol}
    (ha : t.get? i = some a) (hb : t.get? j = some b) (hkind : a.kind = b.kind)
    (hk : a.kind = .type ∨ a.kind = .package) (hname : a.qualifiedName = b.qualifiedName) :
    i = j := by
  have hi : t.named? a.kind a.qualifiedName = some i := ht.named?_of_get? ha hk
  have hj : t.named? a.kind a.qualifiedName = some j :=
    (ht.named?_iff hk).mpr ⟨b, hb, hkind.symm, hname.symm⟩
  exact Option.some.inj (hi.symm.trans hj)

/-! ## Growth -/

theorem consistent_empty : empty.Consistent := by
  refine ⟨fun h => ?_, fun hk => ⟨fun h => ?_, fun ⟨s, h, _⟩ => ?_⟩, fun h => ?_⟩
  · cases h
  · rcases hk with rfl | rfl <;> cases h
  · cases h
  · cases h

/-- One more symbol does no harm if the indexes of qualified names take it up and a package lies in
    a package. -/
theorem Consistent.grow (ht : t.Consistent) {new : Symbol}
    (hget : ∀ i, u.get? i = (t.push new).1.get? i)
    (hnamed : ∀ {kind q i}, kind = .type ∨ kind = .package → (u.named? kind q = some i ↔
      t.named? kind q = some i ∨ (i = t.size ∧ new.kind = kind ∧ new.qualifiedName = q)))
    (howner : new.kind = .package → ∀ owner, new.owner = some owner → t.IsPackage owner) :
    u.Consistent := by
  refine ⟨?_, ?_, ?_⟩
  · intro i s h
    rw [hget] at h
    rcases get?_push_cases h with ⟨rfl, rfl⟩ | h
    · rfl
    · exact ht.id_eq h
  · intro kind q i hk
    unfold HasName
    rw [hnamed hk, ht.named?_iff hk, hget]
    exact hasName_push.symm
  · intro i s owner h hk ho
    have hp : t.IsPackage owner := by
      rw [hget] at h
      rcases get?_push_cases h with ⟨rfl, rfl⟩ | h
      · exact howner hk owner ho
      · exact ht.owner_package h hk ho
    obtain ⟨p, hp, hpk⟩ := hp.mono (extends_push t new)
    exact ⟨p, (hget owner).trans hp, hpk⟩

/-- What is neither a type nor a package can always be added. -/
theorem Consistent.push_plain (ht : t.Consistent) {new : Symbol}
    (hk : new.kind ≠ .type ∧ new.kind ≠ .package) : (t.push new).1.Consistent := by
  refine ht.grow (fun _ => rfl) (fun {kind q i} hkind => ?_) fun h => absurd h hk.2
  have hnew : ¬(i = t.size ∧ new.kind = kind ∧ new.qualifiedName = q) := by
    rintro ⟨_, rfl, _⟩
    exact hkind.elim hk.1 hk.2
  exact (or_iff_left hnew).symm

/-- The latest entry of an index is found under its name, and the others as before. -/
theorem lookup_cons_eq (names : List (String × SymbolId)) (new q : String) (id : SymbolId) :
    ((new, id) :: names).lookup q = if q = new then some id else names.lookup q := by
  rw [List.lookup_cons]
  by_cases hq : q = new
  · rw [if_pos hq, hq, beq_self_eq_true]
  · rw [if_neg hq, beq_false_of_ne hq]

/-- If its name is new, it takes nothing away. -/
theorem lookup_cons_iff {names : List (String × SymbolId)} {new q : String} {id : SymbolId}
    (hnew : names.lookup new = none) :
    ((new, id) :: names).lookup q = some i ↔ names.lookup q = some i ∨ (i = id ∧ new = q) := by
  rw [lookup_cons_eq]
  by_cases hq : q = new
  · rw [if_pos hq, hq, hnew]
    simp [eq_comm]
  · rw [if_neg hq]
    simp [Ne.symm hq]

/-- A package does no harm if its name is new and it lies in a package. -/
theorem Consistent.pushPackage (ht : t.Consistent) {new : Symbol} (hk : new.kind = .package)
    (hnew : t.package? new.qualifiedName = none)
    (howner : ∀ owner, new.owner = some owner → t.IsPackage owner) :
    (t.pushPackage new).1.Consistent := by
  refine ht.grow (get?_pushPackage t new) (fun {kind q i} hkind => ?_) fun _ => howner
  rcases hkind with rfl | rfl
  · rw [hk]
    simp only [reduceCtorEq, false_and, and_false, or_false]
    rfl
  · rw [hk, eq_self_iff_true, true_and]
    exact lookup_cons_iff hnew

/-- A type does no harm if its qualified name is new. -/
theorem Consistent.pushType (ht : t.Consistent) {new : Symbol} (hk : new.kind = .type)
    (hnew : t.type? new.qualifiedName = none) : (t.pushType new).1.Consistent := by
  have hpackage : new.kind ≠ .package := hk ▸ nofun
  refine ht.grow (get?_pushType t new) (fun {kind q i} hkind => ?_) fun h => absurd h hpackage
  rcases hkind with rfl | rfl
  · rw [hk, eq_self_iff_true, true_and]
    exact lookup_cons_iff hnew
  · rw [hk]
    simp only [reduceCtorEq, false_and, and_false, or_false]
    rfl

theorem extends_pushPackage (t : SymbolTable) (new : Symbol) :
    t.Extends (t.pushPackage new).1 := extends_push t new

theorem extends_pushType (t : SymbolTable) (new : Symbol) : t.Extends (t.pushType new).1 :=
  extends_push t new

/-- Looking for a package gives one of that name, new or not. -/
theorem ensurePackage_spec (ht : t.Consistent) {owner : Option SymbolId}
    (ho : ∀ o, owner = some o → t.IsPackage o) (q : String) :
    (t.ensurePackage owner q).1.Consistent ∧ t.Extends (t.ensurePackage owner q).1 ∧
      (t.ensurePackage owner q).1.IsPackage (t.ensurePackage owner q).2 := by
  unfold ensurePackage
  rw [package?_eq_named?]
  cases hn : t.named? .package q with
  | some id =>
    obtain ⟨s, hs, hk, _⟩ := ht.get?_of_named? hn
    exact ⟨ht, Extends.refl t, s, hs, hk⟩
  | none =>
    refine ⟨ht.pushPackage rfl hn fun o hown => ho o hown, extends_pushPackage t _, ?_⟩
    exact ⟨_, get?_push_self t _, rfl⟩

/-- Looks for a package inside the last one. -/
def nestPackage (state : SymbolTable × Option SymbolId) (q : String) :
    SymbolTable × Option SymbolId :=
  ((state.1.ensurePackage state.2 q).1, some (state.1.ensurePackage state.2 q).2)

/-- Adding a package looks for the packages around it, from the outside in. -/
theorem addPackage_eq (t : SymbolTable) (q : String) : t.addPackage q =
    ((Dotted.enclosing q).foldl nestPackage (t, none)).1.ensurePackage
      ((Dotted.enclosing q).foldl nestPackage (t, none)).2 q := rfl

theorem foldl_nestPackage_spec (names : List String) {state : SymbolTable × Option SymbolId}
    (hc : state.1.Consistent) (ho : ∀ o, state.2 = some o → state.1.IsPackage o) :
    (names.foldl nestPackage state).1.Consistent ∧
      state.1.Extends (names.foldl nestPackage state).1 ∧
      ∀ o, (names.foldl nestPackage state).2 = some o →
        (names.foldl nestPackage state).1.IsPackage o := by
  induction names generalizing state with
  | nil => exact ⟨hc, Extends.refl _, ho⟩
  | cons name rest ih =>
    obtain ⟨hc', he, hp⟩ := ensurePackage_spec hc ho name
    have hlast : ∀ o, (nestPackage state name).2 = some o →
        (nestPackage state name).1.IsPackage o := fun o h => Option.some.inj h ▸ hp
    obtain ⟨hl, hel, hol⟩ := ih hc' hlast
    exact ⟨hl, he.trans hel, hol⟩

/-- Adding a package adds packages. -/
theorem addPackage_spec (ht : t.Consistent) (q : String) :
    (t.addPackage q).1.Consistent ∧ t.Extends (t.addPackage q).1 ∧
      (t.addPackage q).1.IsPackage (t.addPackage q).2 := by
  have hnone : ∀ o, (none : Option SymbolId) = some o → t.IsPackage o := nofun
  obtain ⟨hc, he, ho⟩ := foldl_nestPackage_spec (Dotted.enclosing q)
    (show (t, (none : Option SymbolId)).1.Consistent from ht) hnone
  obtain ⟨hc', he', hp⟩ := ensurePackage_spec hc ho q
  rw [addPackage_eq]
  exact ⟨hc', he.trans he', hp⟩

theorem get?_ensurePackage_cases {owner : Option SymbolId} {q : String}
    (h : (t.ensurePackage owner q).1.get? i = some s) :
    t.get? i = some s ∨ s.kind = .package := by
  unfold ensurePackage at h
  split at h
  · exact Or.inl h
  · rcases get?_push_cases h with ⟨_, rfl⟩ | h
    · exact Or.inr rfl
    · exact Or.inl h

theorem get?_foldl_nestPackage_cases (names : List String)
    {state : SymbolTable × Option SymbolId}
    (h : (names.foldl nestPackage state).1.get? i = some s) :
    state.1.get? i = some s ∨ s.kind = .package := by
  induction names generalizing state with
  | nil => exact Or.inl h
  | cons name rest ih =>
    rcases ih h with h | h
    · exact get?_ensurePackage_cases h
    · exact Or.inr h

/-- What adding a package adds is packages only. -/
theorem get?_addPackage_cases {q : String} (h : (t.addPackage q).1.get? i = some s) :
    t.get? i = some s ∨ s.kind = .package := by
  rw [addPackage_eq] at h
  rcases get?_ensurePackage_cases h with h | h
  · exact get?_foldl_nestPackage_cases _ h
  · exact Or.inr h

/-- Looking for a type gives the one that is there, or adds one. -/
theorem ensureType_cases (t : SymbolTable) (name q : String) (flags : SymbolFlags)
    (owner : Option SymbolId) (declaration : Part) :
    (∃ id, t.type? q = some id ∧ t.ensureType name q flags owner declaration = (t, id)) ∨
      (t.type? q = none ∧ t.ensureType name q flags owner declaration =
        t.pushType { plain name .type flags owner with
          qualifiedName := q, declaration := declaration }) := by
  unfold ensureType
  cases h : t.type? q with
  | some id => exact Or.inl ⟨id, rfl, rfl⟩
  | none => exact Or.inr ⟨rfl, rfl⟩

/-- What looking for a type adds is that type, which knows its declaration. -/
theorem get?_ensureType_cases {name q : String} {flags : SymbolFlags} {owner : Option SymbolId}
    {declaration : Part}
    (h : (t.ensureType name q flags owner declaration).1.get? i = some s) :
    t.get? i = some s ∨ (i = (t.ensureType name q flags owner declaration).2 ∧ s.kind = .type ∧
      s.declaration = declaration) := by
  rcases ensureType_cases t name q flags owner declaration with ⟨_, _, heq⟩ | ⟨_, heq⟩
  · rw [heq] at h
    exact Or.inl h
  · rw [heq, get?_pushType] at h
    rw [heq]
    rcases get?_push_cases h with ⟨rfl, rfl⟩ | hold
    · exact Or.inr ⟨rfl, rfl, rfl⟩
    · exact Or.inl hold

/-- The type that was looked for is there afterwards. -/
theorem get?_ensureType (ht : t.Consistent) (name q : String) (flags : SymbolFlags)
    (owner : Option SymbolId) (declaration : Part) :
    ∃ s, (t.ensureType name q flags owner declaration).1.get?
        (t.ensureType name q flags owner declaration).2 = some s ∧
      s.kind = .type ∧ s.qualifiedName = q := by
  rcases ensureType_cases t name q flags owner declaration with ⟨id, hid, h⟩ | ⟨_, h⟩
  · rw [h]
    exact ht.get?_of_type? hid
  · rw [h]
    exact ⟨_, get?_push_self t _, rfl, rfl⟩

theorem get?_setSupertypes (t : SymbolTable) (id : SymbolId) (names : List String)
    (i : SymbolId) : (t.setSupertypes id names).get? i =
      if id = i then (t.get? i).map fun s => { s with supertypes := names } else t.get? i :=
  Array.getElem?_modify ..

/-- Changing supertypes changes no kind, name, number or owner. -/
theorem get?_setSupertypes_cases {id : SymbolId} {names : List String}
    (h : (t.setSupertypes id names).get? i = some s) :
    ∃ old, t.get? i = some old ∧ s.id = old.id ∧ s.kind = old.kind ∧
      s.qualifiedName = old.qualifiedName ∧ s.owner = old.owner := by
  rw [get?_setSupertypes] at h
  split at h
  · obtain ⟨old, ho, rfl⟩ := Option.map_eq_some_iff.mp h
    exact ⟨old, ho, rfl, rfl, rfl, rfl⟩
  · exact ⟨s, h, rfl, rfl, rfl, rfl⟩

theorem Consistent.setSupertypes (ht : t.Consistent) (id : SymbolId) (names : List String) :
    (t.setSupertypes id names).Consistent := by
  -- What was there is there with other supertypes, which neither names nor owners depend on.
  have hkept : ∀ {i s}, t.get? i = some s →
      ∃ s', (t.setSupertypes id names).get? i = some s' ∧ s'.kind = s.kind ∧
        s'.qualifiedName = s.qualifiedName := by
    intro i s h
    refine ⟨if id = i then { s with supertypes := names } else s, ?_, ?_, ?_⟩
    · rw [get?_setSupertypes, h]
      split <;> rfl
    · split <;> rfl
    · split <;> rfl
  refine ⟨?_, ?_, ?_⟩
  · intro i s h
    obtain ⟨old, ho, hid, _⟩ := get?_setSupertypes_cases h
    rw [hid]
    exact ht.id_eq ho
  · intro kind q i hk
    refine (ht.named?_iff hk).trans ⟨fun ⟨s, h, hkind, hq⟩ => ?_, fun ⟨s, h, hkind, hq⟩ => ?_⟩
    · obtain ⟨s', h', hkind', hq'⟩ := hkept h
      exact ⟨s', h', hkind'.trans hkind, hq'.trans hq⟩
    · obtain ⟨old, ho, _, hkind', hq', _⟩ := get?_setSupertypes_cases h
      exact ⟨old, ho, hkind'.symm.trans hkind, hq'.symm.trans hq⟩
  · intro i s owner h hk ho
    obtain ⟨old, hold, _, hkind, _, hown⟩ := get?_setSupertypes_cases h
    obtain ⟨p, hp, hpk⟩ := ht.owner_package hold (hkind ▸ hk) (hown ▸ ho)
    obtain ⟨p', hp', hpk', _⟩ := hkept hp
    exact ⟨p', hp', hpk'.trans hpk⟩

end

end ScriptCheck.SymbolTable
