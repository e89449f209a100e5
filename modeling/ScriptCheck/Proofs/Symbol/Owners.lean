/-
  Qualified names and owners.

  The qualified name of a type is put together from texts when the type is
  added. Its package and the outermost type around it are found later, by two
  walks of bounded length from owner to owner. `WellOwned` are the tables in
  which members and nested types were given to types that were there. In such a
  table every type lies in a package or in an earlier type, and its own name
  stands behind the name of that one (`NamedByOwner`). Each operation keeps
  this, and gives back types instead of adding them anew, so that it does not
  matter whether a name is one of a package too.

  `TypePath` lists the types from an outermost one to one inside of it. It is
  what both walks pass on their way to the package, if it is no longer than
  they are, and the dotted names along it are the qualified name.
-/
import ScriptCheck.Proofs.Symbol.Steps

namespace ScriptCheck.SymbolTable

/-- The tables that come about if whatever is given an owner is given a type that is there, and no
    class has a name that begins with a dot. -/
inductive WellOwned : SymbolTable → Prop
  | start : WellOwned empty
  | package {t : SymbolTable} (h : WellOwned t) (qualifiedName : String) :
    WellOwned (t.addPackage qualifiedName).1
  | type {t : SymbolTable} (h : WellOwned t) {qualifiedName : String}
    (hq : qualifiedName.toList.head? ≠ some '.') (flags : SymbolFlags)
    (supertypes : List String) : WellOwned (t.addType qualifiedName flags supertypes).1
  | nestedType {t : SymbolTable} (h : WellOwned t) {outer : SymbolId}
    (ho : t.isType outer = true) (name : String) (flags : SymbolFlags) (declaration : Part) :
    WellOwned (t.addNestedType outer name flags declaration).1
  | field {t : SymbolTable} (h : WellOwned t) {owner : SymbolId} (ho : t.isType owner = true)
    (name : String) (flags : SymbolFlags) : WellOwned (t.addField owner name flags).1
  | method {t : SymbolTable} (h : WellOwned t) {owner : SymbolId} (ho : t.isType owner = true)
    (name : String) (flags : SymbolFlags) (arity : Arity) :
    WellOwned (t.addMethod owner name flags arity).1

/-- So many owner links lead from a symbol to another one. -/
inductive OwnerLinks (t : SymbolTable) : SymbolId → Nat → Symbol → Prop
  | here {id : SymbolId} {s : Symbol} (hget : t.get? id = some s) : OwnerLinks t id 0 s
  | up {id owner : SymbolId} {n : Nat} {s top : Symbol} (hget : t.get? id = some s)
    (ho : s.owner = some owner) (h : OwnerLinks t owner n top) : OwnerLinks t id (n + 1) top

/-- The types from one to another inside of it, each of which owns the next one. -/
inductive TypePath (t : SymbolTable) (outermost : SymbolId) : List Symbol → SymbolId → Prop
  | here {s : Symbol} (hget : t.get? outermost = some s) (hk : s.kind = .type) :
    TypePath t outermost [s] outermost
  | inside {types : List Symbol} {owner id : SymbolId} {s : Symbol}
    (h : TypePath t outermost types owner) (hget : t.get? id = some s) (hk : s.kind = .type)
    (ho : s.owner = some owner) : TypePath t outermost (types ++ [s]) id

/-- Whether a symbol lies directly in a package. -/
def LiesIn (t : SymbolTable) (id : SymbolId) (package : Symbol) : Prop :=
  ∃ s owner, t.get? id = some s ∧ s.owner = some owner ∧ t.get? owner = some package ∧
    package.kind = .package

/-- What a type with a name of its own is called inside a package or inside another type. -/
def IsNameInside (o : Symbol) (name qualifiedName : String) : Prop :=
  (o.kind = .package ∧ qualifiedName = Dotted.within o.qualifiedName name) ∨
    (o.kind = .type ∧ qualifiedName = o.qualifiedName ++ "." ++ name)

/-- A symbol is owned by a package or a type that was there before, and is called as it is called
    inside of it. -/
structure NamedByOwner (t : SymbolTable) (i : SymbolId) (s : Symbol) (owner : SymbolId)
    (o : Symbol) : Prop where
  owner_eq : s.owner = some owner
  lt : owner < i
  get?_owner : t.get? owner = some o
  name : IsNameInside o s.name s.qualifiedName

/-- All types are named by their owners. -/
def TypesNamedByOwners (t : SymbolTable) : Prop :=
  ∀ i s, t.get? i = some s → s.kind = .type → ∃ owner o, t.NamedByOwner i s owner o

section

variable {t u : SymbolTable} {i id owner outermost : SymbolId} {s o first package : Symbol}
  {types : List Symbol} {budget n : Nat} {q name : String}

/-! ## What each operation keeps -/

theorem NamedByOwner.mono (h : t.NamedByOwner i s owner o) (he : t.Extends u) :
    u.NamedByOwner i s owner o :=
  { h with get?_owner := he owner o h.get?_owner }

/-- Types stay named by their owners if each one that is added is. -/
theorem TypesNamedByOwners.extend (h : t.TypesNamedByOwners) (he : t.Extends u)
    (hnew : ∀ i s, u.get? i = some s → s.kind = .type →
      t.get? i = some s ∨ ∃ owner o, t.NamedByOwner i s owner o) : u.TypesNamedByOwners := by
  intro i s hget hk
  have hnamed : ∃ owner o, t.NamedByOwner i s owner o := by
    rcases hnew i s hget hk with hold | hnamed
    · exact h i s hold hk
    · exact hnamed
  obtain ⟨owner, o, hnamed⟩ := hnamed
  exact ⟨owner, o, hnamed.mono he⟩

theorem TypesNamedByOwners.push (h : t.TypesNamedByOwners) {new : Symbol}
    (hk : new.kind ≠ .type) : (t.push new).1.TypesNamedByOwners :=
  h.extend (extends_push t new) fun _ _ hget hks => .inl (get?_of_push_of_type hk hget hks)

theorem TypesNamedByOwners.addPackage (h : t.TypesNamedByOwners) (hc : t.Consistent)
    (q : String) : (t.addPackage q).1.TypesNamedByOwners := by
  refine h.extend (addPackage_spec hc q).2.1 fun i s hget hk => ?_
  rcases get?_addPackage_cases hget with hold | hpackage
  · exact .inl hold
  · rw [hk] at hpackage
    cases hpackage

/-- A type that is looked for is given back as it is, or is added behind its owner. -/
theorem TypesNamedByOwners.ensureType (h : t.TypesNamedByOwners)
    (ho : t.get? owner = some o) (hname : IsNameInside o name q) (flags : SymbolFlags)
    (declaration : Part) :
    (t.ensureType name q flags (some owner) declaration).1.TypesNamedByOwners := by
  rcases ensureType_cases t name q flags (some owner) declaration with ⟨_, _, heq⟩ | ⟨_, heq⟩
  · rw [heq]
    exact h
  · rw [heq]
    refine h.extend (extends_pushType t _) fun i s hget _ => ?_
    rw [get?_pushType] at hget
    rcases get?_push_cases hget with ⟨rfl, rfl⟩ | hold
    · exact .inr ⟨owner, o, rfl, lt_size_of_get? ho, ho, hname⟩
    · exact .inl hold

/-- Supertypes are no matter of names and owners. -/
theorem TypesNamedByOwners.setSupertypes (h : t.TypesNamedByOwners) (id : SymbolId)
    (names : List String) : (t.setSupertypes id names).TypesNamedByOwners := by
  intro i s hget hk
  -- A symbol of the table is one that was there, with these supertypes or with its own.
  have hsame : ∃ old, t.get? i = some old ∧ old.kind = s.kind ∧ old.owner = s.owner ∧
      old.qualifiedName = s.qualifiedName ∧ old.name = s.name := by
    rw [get?_setSupertypes] at hget
    split at hget
    · obtain ⟨old, hold, rfl⟩ := Option.map_eq_some_iff.mp hget
      exact ⟨old, hold, rfl, rfl, rfl, rfl⟩
    · exact ⟨s, hget, rfl, rfl, rfl, rfl⟩
  obtain ⟨old, hold, hkind, howner, hqualified, hname⟩ := hsame
  obtain ⟨owner, o, hnamed⟩ := h i old hold (hkind.trans hk)
  refine ⟨owner, if id = owner then { o with supertypes := names } else o,
    howner ▸ hnamed.owner_eq, hnamed.lt, ?_, ?_⟩
  · rw [get?_setSupertypes, hnamed.get?_owner]
    split <;> rfl
  · rw [← hqualified, ← hname]
    split <;> exact hnamed.name

theorem TypesNamedByOwners.addType (h : t.TypesNamedByOwners) (hc : t.Consistent)
    (hq : q.toList.head? ≠ some '.') (flags : SymbolFlags) (supertypes : List String) :
    (t.addType q flags supertypes).1.TypesNamedByOwners := by
  obtain ⟨front, last, hcut⟩ :
      ∃ front last, (Dotted.splitLast? q).getD ("", q) = (front, last) := ⟨_, _, rfl⟩
  obtain ⟨package, hget, hk, hname⟩ :=
    (addPackage_spec hc front).1.get?_of_package? (package?_addPackage t front)
  have hinside : IsNameInside package last q :=
    .inl ⟨hk, hname ▸ Dotted.eq_within_of_splitLast? hq hcut⟩
  unfold SymbolTable.addType
  rw [hcut]
  exact ((h.addPackage hc front).ensureType hget hinside flags none).setSupertypes _ _

theorem TypesNamedByOwners.addNestedType (h : t.TypesNamedByOwners)
    (ho : t.isType owner = true) (name : String) (flags : SymbolFlags) (declaration : Part) :
    (t.addNestedType owner name flags declaration).1.TypesNamedByOwners := by
  obtain ⟨o, hget, hk⟩ := isType_iff.mp ho
  unfold SymbolTable.addNestedType
  rw [hget]
  exact h.ensureType hget (.inr ⟨hk, rfl⟩) flags declaration

/-! ## Every table of this kind -/

theorem WellOwned.grown (h : t.WellOwned) : t.Grown := by
  induction h with
  | start => exact .start
  | package _ q ih => exact ih.package q
  | type _ _ flags supertypes ih => exact ih.type _ flags supertypes
  | nestedType _ _ name flags declaration ih => exact ih.nestedType _ name flags declaration
  | field _ _ name flags ih => exact ih.field _ name flags
  | method _ _ name flags arity ih => exact ih.method _ name flags arity

theorem WellOwned.typesNamedByOwners (h : t.WellOwned) : t.TypesNamedByOwners := by
  induction h with
  | start => exact fun _ _ hget => by cases hget
  | package h q ih => exact ih.addPackage h.grown.consistent q
  | type h hq flags supertypes ih => exact ih.addType h.grown.consistent hq flags supertypes
  | nestedType _ ho name flags declaration ih => exact ih.addNestedType ho name flags declaration
  | field _ _ name flags ih => exact ih.push nofun
  | method _ _ name flags arity ih => exact ih.push nofun

/-! ## The way to the package -/

theorem TypePath.ne_nil (h : t.TypePath outermost types id) : types ≠ [] := by
  cases h with
  | here => exact List.cons_ne_nil _ _
  | inside => exact List.append_ne_nil_of_right_ne_nil _ (List.cons_ne_nil _ _)

/-- A path ends in a type. -/
theorem TypePath.kind_of_get? (h : t.TypePath outermost types id) (hget : t.get? id = some s) :
    s.kind = .type := by
  cases h with
  | here hget' hk => exact Option.some.inj (hget'.symm.trans hget) ▸ hk
  | inside _ hget' hk _ => exact Option.some.inj (hget'.symm.trans hget) ▸ hk

/-- A path starts with its outermost type. -/
theorem TypePath.head?_eq (h : t.TypePath outermost types id)
    (hfirst : t.get? outermost = some first) : types.head? = some first := by
  induction h with
  | here hget _ => exact congrArg some (Option.some.inj (hget.symm.trans hfirst))
  | inside _ _ _ _ ih =>
    rw [List.head?_append, ih]
    rfl

theorem TypePath.kind (h : t.TypePath outermost types id) : ∀ s ∈ types, s.kind = .type := by
  induction h with
  | here _ hk =>
    intro s hs
    rw [List.mem_singleton.mp hs]
    exact hk
  | inside _ _ hk _ ih =>
    intro s hs
    rcases List.mem_append.mp hs with hs | hs
    · exact ih s hs
    · rw [List.mem_singleton.mp hs]
      exact hk

/-- Every type lies at the end of a path that starts in a package, and the path spells its qualified
    name. -/
theorem TypesNamedByOwners.exists_path (h : t.TypesNamedByOwners) (hget : t.get? id = some s)
    (hk : s.kind = .type) :
    ∃ outermost types package, t.TypePath outermost types id ∧ t.LiesIn outermost package ∧
      s.qualifiedName =
        Dotted.within package.qualifiedName (".".intercalate (types.map Symbol.name)) := by
  -- Owners were there before, so the induction is on the number of the type.
  induction id using Nat.strongRecOn generalizing s with
  | ind id ih =>
    obtain ⟨owner, o, hnamed⟩ := h id s hget hk
    rcases hnamed.name with ⟨hpackage, hname⟩ | ⟨htype, hname⟩
    · refine ⟨id, [s], o, .here hget hk,
        ⟨s, owner, hget, hnamed.owner_eq, hnamed.get?_owner, hpackage⟩, ?_⟩
      rw [hname, List.map_singleton, String.intercalate_singleton]
    · obtain ⟨outermost, types, package, hpath, hlies, hspelled⟩ :=
        ih owner hnamed.lt hnamed.get?_owner htype
      have hne : types.map Symbol.name ≠ [] := fun hnil =>
        hpath.ne_nil (List.map_eq_nil_iff.mp hnil)
      refine ⟨outermost, types ++ [s], package, hpath.inside hget hk hnamed.owner_eq, hlies, ?_⟩
      rw [hname, hspelled, List.map_append, List.map_singleton,
        String.intercalate_append_of_ne_nil hne (List.cons_ne_nil _ _),
        String.intercalate_singleton]
      unfold Dotted.within
      split
      · rfl
      · simp only [String.append_assoc]

/-- Each type of the path takes one owner link. -/
theorem TypePath.length_le (h : t.TypePath outermost types id) (hlies : t.LiesIn outermost package)
    {top : Symbol} (hlinks : t.OwnerLinks id n top)
    (htop : top.owner = none ∨ top.kind = .package) : types.length ≤ n := by
  -- A type that has an owner is not where the links end.
  have hzero : ∀ {id s owner}, t.get? id = some s → s.kind = .type → s.owner = some owner →
      ¬t.OwnerLinks id 0 top := by
    rintro id s owner hget hk ho ⟨hget'⟩
    obtain rfl := Option.some.inj (hget.symm.trans hget')
    rcases htop with hnone | hpackage
    · rw [ho] at hnone
      cases hnone
    · rw [hk] at hpackage
      cases hpackage
  induction h generalizing n with
  | here hget hk =>
    obtain ⟨first, owner, hfirst, ho, _⟩ := hlies
    obtain rfl := Option.some.inj (hget.symm.trans hfirst)
    cases n with
    | zero => exact absurd hlinks (hzero hget hk ho)
    | succ n => exact Nat.le_add_left 1 n
  | inside _ hget hk ho ih =>
    cases hlinks with
    | here hget' => exact absurd (.here hget') (hzero hget hk ho)
    | up hget' ho' hrest =>
      obtain rfl := Option.some.inj (hget.symm.trans hget')
      obtain rfl := Option.some.inj (ho.symm.trans ho')
      rw [List.length_append]
      exact Nat.succ_le_succ (ih hrest)

/-! ## The two walks -/

/-- Above a package there are no types. -/
theorem filter_isType_ownersFrom (hc : t.Consistent) (budget : Nat) (h : t.IsPackage id) :
    (t.ownersFrom budget (some id)).filter Symbol.isType = [] := by
  induction budget generalizing id with
  | zero => rfl
  | succ budget ih =>
    obtain ⟨p, hp, hk⟩ := h
    have htype : ¬p.isType = true := by
      unfold Symbol.isType
      rw [hk]
      decide
    rw [ownersFrom, hp]
    dsimp only
    rw [List.filter_cons_of_neg htype]
    cases ho : p.owner with
    | none => cases budget <;> rfl
    | some owner => exact ih (hc.owner_package hp hk ho)

/-- A walk over the owners passes a path from its end to its start. -/
theorem TypePath.ownersFrom_eq (h : t.TypePath outermost types id)
    (hfirst : t.get? outermost = some first) (budget : Nat) :
    t.ownersFrom (types.length + budget) (some id) =
      types.reverse ++ t.ownersFrom budget first.owner := by
  induction h with
  | here hget _ =>
    obtain rfl := Option.some.inj (hget.symm.trans hfirst)
    rw [List.length_singleton, Nat.add_comm, ownersFrom, hget]
    rfl
  | inside _ hget _ ho ih =>
    rw [List.length_append, List.length_singleton, Nat.add_right_comm, ownersFrom, hget]
    dsimp only
    rw [ho, ih, List.reverse_append]
    rfl

/-- The first package on the way is the one in which the path starts. -/
theorem TypePath.find?_ownersFrom (h : t.TypePath outermost types id)
    (hlies : t.LiesIn outermost package) (hb : types.length < budget) :
    (t.ownersFrom budget (some id)).find? (·.kind = .package) = some package := by
  obtain ⟨first, owner, hfirst, ho, hpackage, hk⟩ := hlies
  obtain ⟨left, rfl⟩ := Nat.exists_eq_add_of_lt hb
  have hnone : types.reverse.find? (·.kind = .package) = none := by
    rw [List.find?_eq_none]
    intro s hs
    rw [h.kind s (List.mem_reverse.mp hs)]
    decide
  rw [Nat.add_assoc, h.ownersFrom_eq hfirst, List.find?_append, hnone, Option.none_or, ho,
    ownersFrom, hpackage]
  dsimp only
  exact List.find?_cons_of_pos (decide_eq_true hk)

/-- The last type on the way is the one with which the path starts. -/
theorem TypePath.getLast?_ownersFrom (h : t.TypePath outermost types id) (hc : t.Consistent)
    (hlies : t.LiesIn outermost package) (hb : types.length ≤ budget) :
    (((t.ownersFrom budget (some id)).filter Symbol.isType).getLast?).map Symbol.id =
      some outermost := by
  obtain ⟨first, owner, hfirst, ho, hpackage, hk⟩ := hlies
  obtain ⟨left, rfl⟩ := Nat.exists_eq_add_of_le hb
  have htypes : types.reverse.filter Symbol.isType = types.reverse :=
    List.filter_eq_self.mpr fun s hs =>
      decide_eq_true (h.kind s (List.mem_reverse.mp hs))
  rw [h.ownersFrom_eq hfirst, List.filter_append, htypes, ho,
    filter_isType_ownersFrom hc _ ⟨package, hpackage, hk⟩, List.append_nil, List.getLast?_reverse,
    h.head?_eq hfirst, Option.map_some, hc.id_eq hfirst]

theorem TypePath.packageNameOf (h : t.TypePath outermost types id)
    (hlies : t.LiesIn outermost package) (hb : types.length ≤ hierarchyLimit) :
    t.packageNameOf id = package.qualifiedName := by
  unfold SymbolTable.packageNameOf owners
  rw [h.find?_ownersFrom hlies (Nat.lt_succ_of_le hb)]
  rfl

theorem TypePath.outermostType? (h : t.TypePath outermost types id) (hc : t.Consistent)
    (hlies : t.LiesIn outermost package) (hb : types.length ≤ hierarchyLimit + 1) :
    t.outermostType? id = some outermost :=
  h.getLast?_ownersFrom hc hlies hb

/-- What belongs to a type at the end of a path lives in the package in which the path starts. -/
theorem TypePath.packageNameOf_member (h : t.TypePath outermost types id) (hc : t.Consistent)
    (hlies : t.LiesIn outermost package) (hb : types.length < hierarchyLimit)
    (hget : t.get? i = some s) (ho : s.owner = some id) :
    t.packageNameOf i = package.qualifiedName := by
  -- A package would lie in a package, and the owner is a type.
  have hne : s.kind ≠ .package := by
    intro hks
    obtain ⟨p, hp, hkp⟩ := hc.owner_package hget hks ho
    rw [h.kind_of_get? hp] at hkp
    cases hkp
  unfold SymbolTable.packageNameOf owners
  rw [ownersFrom, hget]
  dsimp only
  rw [ho, List.find?_cons_of_neg (by simpa using hne), h.find?_ownersFrom hlies hb]
  rfl

/-- The outermost type around it is the one with which the path starts. -/
theorem TypePath.outermostType?_member (h : t.TypePath outermost types id) (hc : t.Consistent)
    (hlies : t.LiesIn outermost package) (hb : types.length ≤ hierarchyLimit)
    (hget : t.get? i = some s) (ho : s.owner = some id) :
    t.outermostType? i = some outermost := by
  obtain ⟨last, hlast, hid⟩ := Option.map_eq_some_iff.mp (h.getLast?_ownersFrom hc hlies hb)
  unfold SymbolTable.outermostType? owners
  rw [ownersFrom, hget]
  dsimp only
  rw [ho, List.filter_cons]
  -- A nested type is on the way itself, but not the last one.
  split
  · rw [List.getLast?_cons, hlast]
    exact congrArg some hid
  · rw [hlast]
    exact congrArg some hid

end

/-- In a well-owned table the qualified name of a type spells its owners: it is the name of the
    package that the type lives in, and behind it the simple names of the types from the outermost
    one down to it, with dots between them. This is so for every type from which 255 owner links at
    most lead to a symbol without owner, or at least to a package. Fields, methods and types inside
    such a type live in the same package, and in the same outermost type. -/
theorem WellOwned.qualifiedName_spells_path {t : SymbolTable} (h : t.WellOwned) {id : SymbolId}
    {s top : Symbol} {n : Nat} (hget : t.get? id = some s) (hk : s.kind = .type)
    (hlinks : t.OwnerLinks id n top) (htop : top.owner = none ∨ top.kind = .package)
    (hn : n < hierarchyLimit) :
    ∃ outermost types, t.outermostType? id = some outermost ∧ t.TypePath outermost types id ∧
      s.qualifiedName =
        Dotted.within (t.packageNameOf id) (".".intercalate (types.map Symbol.name)) ∧
      ∀ i member, t.get? i = some member → member.owner = some id →
        t.packageNameOf i = t.packageNameOf id ∧ t.outermostType? i = t.outermostType? id := by
  have hc : t.Consistent := h.grown.consistent
  obtain ⟨outermost, types, package, hpath, hlies, hspelled⟩ :=
    h.typesNamedByOwners.exists_path hget hk
  have hb : types.length < hierarchyLimit :=
    Nat.lt_of_le_of_lt (hpath.length_le hlies hlinks htop) hn
  have hpackage : t.packageNameOf id = package.qualifiedName :=
    hpath.packageNameOf hlies (Nat.le_of_lt hb)
  have houtermost : t.outermostType? id = some outermost :=
    hpath.outermostType? hc hlies (Nat.le_succ_of_le (Nat.le_of_lt hb))
  refine ⟨outermost, types, houtermost, hpath, hpackage.symm ▸ hspelled,
    fun i member hmember ho => ⟨?_, ?_⟩⟩
  · rw [hpackage]
    exact hpath.packageNameOf_member hc hlies hb hmember ho
  · rw [houtermost]
    exact hpath.outermostType?_member hc hlies (Nat.le_of_lt hb) hmember ho

/-! ## A type whose name is the name of a package too -/

/-- A type in a package, with a type and its method inside. A class of the qualified name of the
    inner type is registered too, and with it a package called like the outer type. -/
def shelf : SymbolTable :=
  let t := (empty.addType "store.Shelf" .none []).1
  let t := (t.addNestedType 1 "Box" .none none).1
  let t := (t.addType "store.Shelf.Box" .none ["store.Crate"]).1
  (t.addMethod 2 "open" .none (.fixed 0)).1

theorem shelf_wellOwned : shelf.WellOwned :=
  .method (.type (.nestedType (.type .start (by decide) _ _) (by decide +kernel) _ _ _)
    (by decide) _ _) (by decide +kernel) _ _ _

/-- The inner type lives in `store`, and not in the package that is called like the type around it.
    So does its method. -/
theorem qualifiedName_box :
    (shelf.type? "store.Shelf.Box" = some 2 ∧ shelf.package? "store.Shelf" = some 3) ∧
      (∃ box types, shelf.get? 2 = some box ∧ shelf.TypePath 1 types 2 ∧
        box.qualifiedName = Dotted.within "store" (".".intercalate (types.map Symbol.name))) ∧
      shelf.packageNameOf 4 = "store" ∧ shelf.outermostType? 4 = some 1 := by
  have hsymbols : (shelf.get? 2).map (fun s => (s.kind, s.owner)) = some (.type, some 1) ∧
      (shelf.get? 1).map Symbol.owner = some (some 0) ∧
      (shelf.get? 0).map Symbol.owner = some none ∧
      (shelf.get? 4).map Symbol.owner = some (some 2) := by
    decide +kernel
  have hwalks : shelf.packageNameOf 2 = "store" ∧ shelf.outermostType? 2 = some 1 := by
    decide +kernel
  simp only [Option.map_eq_some_iff, Prod.mk.injEq] at hsymbols
  obtain ⟨⟨box, hbox, hk, hboxOwner⟩, ⟨outer, houter, houterOwner⟩, ⟨store, hstore, hnone⟩,
    ⟨method, hmethod, hmethodOwner⟩⟩ := hsymbols
  have hlinks : shelf.OwnerLinks 2 2 store :=
    .up hbox hboxOwner (.up houter houterOwner (.here hstore))
  obtain ⟨outermost, types, houtermost, hpath, hname, hmembers⟩ :=
    shelf_wellOwned.qualifiedName_spells_path hbox hk hlinks (.inl hnone) (by decide)
  obtain ⟨hpackage, hmember⟩ := hmembers 4 method hmethod hmethodOwner
  obtain rfl : 1 = outermost := Option.some.inj (hwalks.2.symm.trans houtermost)
  exact ⟨by decide +kernel, ⟨box, types, hbox, hpath, hwalks.1 ▸ hname⟩,
    hpackage.trans hwalks.1, hmember.trans hwalks.2⟩

end ScriptCheck.SymbolTable
