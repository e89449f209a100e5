/-
  The frame of a table.

  Whatever adds symbols keeps those that are there, what qualified names stand
  for, and the lists of types and members by name, which may only go on at
  their ends (`KeptBy`). So a class that was registered is found from then on,
  and with it the packages that its name says it is in.

  Registering a class under a new name adds the class, and those of the packages
  around it that are not there yet, and nothing else: `gainsType_addType` says
  what the look-ups of the table answer then. The new class is a member of a
  package, so that no type gets a member.
-/
import ScriptCheck.Proofs.Symbol.Indexes

namespace ScriptCheck.SymbolTable

/-- The names of the packages that a class with a qualified name lies in. -/
def packageNames (q : String) : List String :=
  Dotted.enclosing ((Dotted.splitLast? q).getD ("", q)).1 ++
    [((Dotted.splitLast? q).getD ("", q)).1]

/-! ## What is kept -/

/-- All that one table answers is answered by another one, and its lists only go on. -/
structure KeptBy (t u : SymbolTable) : Prop where
  symbols : t.Extends u
  type? : ∀ q id, t.type? q = some id → u.type? q = some id
  package? : ∀ q id, t.package? q = some id → u.package? q = some id
  typesNamed : ∀ name, t.typesNamed name <+: u.typesNamed name
  membersNamed : ∀ owner name, t.membersNamed owner name <+: u.membersNamed owner name

theorem KeptBy.refl (t : SymbolTable) : t.KeptBy t where
  symbols := Extends.refl t
  type? _ _ h := h
  package? _ _ h := h
  typesNamed _ := List.prefix_rfl
  membersNamed _ _ := List.prefix_rfl

theorem KeptBy.trans {t u v : SymbolTable} (htu : t.KeptBy u) (huv : u.KeptBy v) :
    t.KeptBy v where
  symbols := htu.symbols.trans huv.symbols
  type? q id h := huv.type? q id (htu.type? q id h)
  package? q id h := huv.package? q id (htu.package? q id h)
  typesNamed name := (htu.typesNamed name).trans (huv.typesNamed name)
  membersNamed owner name := (htu.membersNamed owner name).trans (huv.membersNamed owner name)

section

variable {new : Symbol}

theorem keptBy_push (t : SymbolTable) (new : Symbol) : t.KeptBy (t.push new).1 where
  symbols := extends_push t new
  type? _ _ h := h
  package? _ _ h := h
  typesNamed _ := List.prefix_rfl
  membersNamed owner name := by
    rcases membersNamed_push t new owner name with ⟨_, h⟩ | ⟨_, h⟩
    · rw [h]
      exact List.prefix_append _ _
    · exact h.symm ▸ List.prefix_rfl

/-- A package hides none of those that are found, since its name is new. -/
theorem keptBy_pushPackage (t : SymbolTable) (hnew : t.package? new.qualifiedName = none) :
    t.KeptBy (t.pushPackage new).1 :=
  { keptBy_push t new with package? := fun _ _ h => (lookup_cons_iff hnew).mpr (.inl h) }

/-- A type hides none of those that are found, and comes last among those of its simple name. -/
theorem keptBy_pushType (t : SymbolTable) (hk : new.kind = .type)
    (hnew : t.type? new.qualifiedName = none) : t.KeptBy (t.pushType new).1 := by
  refine { keptBy_push t new with
    type? := fun _ _ h => (lookup_cons_iff hnew).mpr (.inl h), typesNamed := fun name => ?_ }
  rcases typesNamed_pushType t hk name with ⟨_, h⟩ | ⟨_, h⟩
  · rw [h]
    exact List.prefix_append _ _
  · exact h.symm ▸ List.prefix_rfl

theorem keptBy_ensurePackage (t : SymbolTable) (owner : Option SymbolId) (q : String) :
    t.KeptBy (t.ensurePackage owner q).1 := by
  unfold ensurePackage
  split
  · exact KeptBy.refl t
  · next hnone => exact keptBy_pushPackage t hnone

theorem keptBy_addPackage (t : SymbolTable) (q : String) : t.KeptBy (t.addPackage q).1 := by
  -- One package after the other is looked for, from the outside in.
  have houter : ∀ (names : List String) (state : SymbolTable × Option SymbolId),
      state.1.KeptBy (names.foldl nestPackage state).1 := by
    intro names
    induction names with
    | nil => exact fun state => KeptBy.refl state.1
    | cons name rest ih =>
      exact fun state =>
        (keptBy_ensurePackage state.1 state.2 name).trans (ih (nestPackage state name))
  rw [addPackage_eq]
  exact (houter (Dotted.enclosing q) (t, none)).trans (keptBy_ensurePackage _ _ q)

theorem keptBy_ensureType (t : SymbolTable) (name q : String) (flags : SymbolFlags)
    (owner : Option SymbolId) (declaration : Part) :
    t.KeptBy (t.ensureType name q flags owner declaration).1 := by
  rcases ensureType_cases t name q flags owner declaration with ⟨id, _, h⟩ | ⟨hn, h⟩
  · rw [h]
    exact KeptBy.refl t
  · rw [h]
    exact keptBy_pushType t rfl hn

end

section

variable {t u : SymbolTable} {q outer : String} {id : SymbolId}

/-! ## What steps keep -/

theorem type?_setSupertypes (t : SymbolTable) (id : SymbolId) (names : List String) (q : String) :
    (t.setSupertypes id names).type? q = t.type? q := rfl

theorem package?_setSupertypes (t : SymbolTable) (id : SymbolId) (names : List String)
    (q : String) : (t.setSupertypes id names).package? q = t.package? q := rfl

theorem Step.type? (hstep : Step t u) (h : t.type? q = some id) : u.type? q = some id := by
  cases hstep with
  | plain hk => exact h
  | package hk hnew he => exact h
  | type hk hnew hlast => exact (lookup_cons_iff hnew).mpr (.inl h)
  | supertypes id names => exact h

theorem Step.package? (hstep : Step t u) (h : t.package? q = some id) : u.package? q = some id := by
  cases hstep with
  | plain hk => exact h
  | package hk hnew he => exact (lookup_cons_iff hnew).mpr (.inl h)
  | type hk hnew hlast => exact h
  | supertypes id names => exact h

/-- A type that is found stays the one that is found. -/
theorem Steps.type? (hsteps : t.Steps u) (h : t.type? q = some id) : u.type? q = some id :=
  hsteps.induct h fun h hstep => hstep.type? h

/-- So does a package. -/
theorem Steps.package? (hsteps : t.Steps u) (h : t.package? q = some id) :
    u.package? q = some id :=
  hsteps.induct h fun h hstep => hstep.package? h

/-! ## What registering a class leads to -/

/-- With a package, those around it are found too. -/
theorem exists_package?_addPackage (h : outer ∈ Dotted.enclosing q ++ [q]) :
    ∃ p, (t.addPackage q).1.package? outer = some p := by
  induction q using Dotted.induction with
  | plain q hq =>
    rw [Dotted.enclosing_eq_nil hq, List.nil_append, List.mem_singleton] at h
    subst h
    exact ⟨_, package?_addPackage t outer⟩
  | join front last hlast ih =>
    rw [Dotted.enclosing_join front hlast, List.mem_append, List.mem_singleton] at h
    rcases h with h | rfl
    · obtain ⟨p, hp⟩ := ih h
      rw [addPackage_join t front hlast]
      exact ⟨p, (keptBy_ensurePackage _ _ _).package? outer p hp⟩
    · exact ⟨_, package?_addPackage t _⟩

theorem type?_ensureType (t : SymbolTable) (name q : String) (flags : SymbolFlags)
    (owner : Option SymbolId) (declaration : Part) :
    (t.ensureType name q flags owner declaration).1.type? q =
      some (t.ensureType name q flags owner declaration).2 := by
  rcases ensureType_cases t name q flags owner declaration with ⟨id, hid, h⟩ | ⟨_, h⟩
  · rw [h]
    exact hid
  · rw [h]
    exact List.lookup_cons_self

/-- A class is registered with the package before the last dot of its name. -/
theorem addType_eq {package name : String} (t : SymbolTable) (flags : SymbolFlags)
    (supertypes : List String) (hcut : (Dotted.splitLast? q).getD ("", q) = (package, name)) :
    t.addType q flags supertypes =
      let typed := (t.addPackage package).1.ensureType name q flags
        (some (t.addPackage package).2) none
      (typed.1.setSupertypes typed.2 supertypes, typed.2) := by
  unfold addType
  rw [hcut]

theorem type?_addType (t : SymbolTable) (q : String) (flags : SymbolFlags)
    (supertypes : List String) :
    (t.addType q flags supertypes).1.type? q = some (t.addType q flags supertypes).2 := by
  rw [addType_eq t flags supertypes rfl]
  dsimp only
  rw [type?_setSupertypes, type?_ensureType]

/-- With a class, the packages around it are found. -/
theorem exists_package?_addType (t : SymbolTable) (flags : SymbolFlags) (supertypes : List String)
    (h : outer ∈ Dotted.enclosing q) :
    ∃ p, (t.addType q flags supertypes).1.package? outer = some p := by
  rcases Dotted.cases q with hplain | ⟨front, last, hlast, rfl⟩
  · rw [Dotted.enclosing_eq_nil hplain] at h
    cases h
  · have hcut := Dotted.splitLast?_join front hlast
    rw [Dotted.enclosing_join front hlast] at h
    obtain ⟨p, hp⟩ := exists_package?_addPackage (t := t) h
    rw [addType_eq t flags supertypes (congrArg (Option.getD · _) hcut)]
    dsimp only
    rw [package?_setSupertypes]
    exact ⟨p, (keptBy_ensureType _ _ _ _ _ _).package? outer p hp⟩

end

/-! ## What registering a new class adds -/

/-- A table has packages of some names besides all that it had. -/
structure GainsPackages (t u : SymbolTable) (names : List String) : Prop where
  kept : t.KeptBy u
  types : u.types = t.types
  members : u.members = t.members
  package?_cases : ∀ p, u.package? p = t.package? p ∨
    (t.package? p = none ∧ ∃ id, u.package? p = some id ∧ t.get? id = none ∧ p ∈ names)

/-- A table has a class with packages around it besides all that it had. -/
structure GainsType (t u : SymbolTable) (q : String) (new : SymbolId) : Prop where
  kept : t.KeptBy u
  isNew : t.get? new = none
  hasName : u.HasName .type q new
  type?_eq : ∀ p, u.type? p = if p = q then some new else t.type? p
  package?_cases : ∀ p, u.package? p = t.package? p ∨
    (t.package? p = none ∧ ∃ id, u.package? p = some id ∧ t.get? id = none ∧
      u.HasName .package p id ∧ p ∈ packageNames q)
  /-- No type has more members than it had. -/
  membersNamed : ∀ {outer s}, t.get? outer = some s → s.kind = .type → ∀ name,
    u.membersNamed outer name = t.membersNamed outer name

section

variable {t u v : SymbolTable} {q : String} {names : List String} {i id : SymbolId}

/-! ## Packages that are added -/

/-- What a larger table lacks was not there. -/
theorem Extends.get?_eq_none (h : t.Extends u) (hi : u.get? i = none) : t.get? i = none := by
  cases hget : t.get? i with
  | none => rfl
  | some s =>
    rw [h i s hget] at hi
    cases hi

theorem get?_size (t : SymbolTable) : t.get? t.size = none :=
  Array.getElem?_eq_none (Nat.le_refl _)

theorem GainsPackages.trans {more : List String} (htu : t.GainsPackages u names)
    (huv : u.GainsPackages v more) : t.GainsPackages v (names ++ more) where
  kept := htu.kept.trans huv.kept
  types := huv.types.trans htu.types
  members := huv.members.trans htu.members
  package?_cases p := by
    rcases huv.package?_cases p with heq | ⟨hnone, id, hp, hfresh, hm⟩
    · rw [heq]
      refine (htu.package?_cases p).imp_right fun ⟨hnone, id, hp, hfresh, hm⟩ => ?_
      exact ⟨hnone, id, hp, hfresh, List.mem_append_left more hm⟩
    · refine .inr ⟨?_, id, hp, htu.kept.symbols.get?_eq_none hfresh,
        List.mem_append_right names hm⟩
      rcases htu.package?_cases p with heq | ⟨hold, -⟩
      · exact heq.symm.trans hnone
      · exact hold

/-- Looking for a package adds that package at most. -/
theorem gainsPackages_ensurePackage (t : SymbolTable) (owner : Option SymbolId) (q : String) :
    t.GainsPackages (t.ensurePackage owner q).1 [q] := by
  cases hfound : t.package? q with
  | some id =>
    have hsame : t.ensurePackage owner q = (t, id) := by
      unfold ensurePackage
      rw [hfound]
    rw [hsame]
    exact ⟨KeptBy.refl t, rfl, rfl, fun _ => .inl rfl⟩
  | none =>
    unfold ensurePackage
    rw [hfound]
    refine ⟨keptBy_pushPackage t hfound, rfl, ?_, fun p => ?_⟩
    · -- Packages are nobody's members.
      cases owner <;> rfl
    · show ((q, t.size) :: t.packages).lookup p = _ ∨
        (_ ∧ ∃ id, ((q, t.size) :: t.packages).lookup p = _ ∧ _)
      rw [lookup_cons_eq]
      by_cases hpq : p = q
      · rw [if_pos hpq]
        exact .inr ⟨hpq ▸ hfound, t.size, rfl, get?_size t, List.mem_singleton.mpr hpq⟩
      · rw [if_neg hpq]
        exact .inl rfl

/-- Adding a package adds it and those around it at most. -/
theorem gainsPackages_addPackage (t : SymbolTable) (q : String) :
    t.GainsPackages (t.addPackage q).1 (Dotted.enclosing q ++ [q]) := by
  induction q using Dotted.induction with
  | plain q h =>
    rw [addPackage_of_not_mem t h, Dotted.enclosing_eq_nil h]
    exact gainsPackages_ensurePackage t none q
  | join outer last h ih =>
    rw [addPackage_join t outer h, Dotted.enclosing_join outer h]
    exact ih.trans (gainsPackages_ensurePackage _ _ _)

theorem GainsPackages.type?_eq (h : t.GainsPackages u names) (p : String) :
    u.type? p = t.type? p := by
  unfold type?
  rw [h.types]

theorem GainsPackages.membersNamed_eq (h : t.GainsPackages u names) (outer : SymbolId)
    (name : String) : u.membersNamed outer name = t.membersNamed outer name := by
  unfold membersNamed
  rw [h.members]

/-! ## A class that is added -/

/-- Other supertypes of a symbol that was not there before make no difference. -/
theorem KeptBy.setSupertypes (h : t.KeptBy u) (hid : t.get? id = none) (names : List String) :
    t.KeptBy (u.setSupertypes id names) where
  symbols i s hget := by
    rw [get?_setSupertypes]
    split
    · next heq =>
      rw [heq, hget] at hid
      cases hid
    · exact h.symbols i s hget
  type? := h.type?
  package? := h.package?
  typesNamed := h.typesNamed
  membersNamed := h.membersNamed

/-- What lies in a package enters no type. -/
theorem GainsPackages.membersNamed_push {new other : Symbol} {owner outer : SymbolId}
    (h : t.GainsPackages u names) (ho : new.owner = some owner) (howner : u.IsPackage owner)
    (hget : t.get? outer = some other) (hk : other.kind = .type) (name : String) :
    (u.push new).1.membersNamed outer name = t.membersNamed outer name := by
  rcases SymbolTable.membersNamed_push u new outer name with ⟨⟨-, hin, -⟩, -⟩ | ⟨-, hsame⟩
  · obtain rfl : owner = outer := Option.some.inj (ho.symm.trans hin)
    obtain ⟨package, hpackage, hkind⟩ := howner
    obtain rfl : package = other := Option.some.inj (hpackage.symm.trans (h.kept.symbols _ _ hget))
    rw [hk] at hkind
    cases hkind
  · rw [hsame, h.membersNamed_eq]

/-- A type is added behind the packages around it, lies in one of them and gets its supertypes. -/
theorem GainsPackages.gainsType {new : Symbol} {owner : SymbolId}
    (h : t.GainsPackages u (packageNames q)) (hc : u.Consistent) (hk : new.kind = .type)
    (hq : new.qualifiedName = q) (hnew : t.type? q = none) (ho : new.owner = some owner)
    (howner : u.IsPackage owner) (supertypes : List String) :
    t.GainsType ((u.pushType new).1.setSupertypes u.size supertypes) q u.size := by
  have hmissing : u.type? new.qualifiedName = none := by
    rw [h.type?_eq, hq]
    exact hnew
  have hkeeps : u.KeptBy ((u.pushType new).1.setSupertypes u.size supertypes) :=
    (keptBy_pushType u hk hmissing).setSupertypes (get?_size u) supertypes
  constructor
  case kept => exact h.kept.trans hkeeps
  case isNew => exact h.kept.symbols.get?_eq_none (get?_size u)
  case hasName =>
    refine ⟨{ new with id := u.size, supertypes := supertypes }, ?_, hk, hq⟩
    rw [get?_setSupertypes, if_pos rfl, get?_pushType]
    exact congrArg (Option.map _) (get?_push_self u new)
  case type?_eq =>
    intro p
    show ((new.qualifiedName, u.size) :: u.types).lookup p = _
    rw [lookup_cons_eq, hq, h.types]
    rfl
  case package?_cases =>
    -- The type leaves the packages as they are, new ones included.
    intro p
    show u.package? p = _ ∨ (_ ∧ ∃ id, u.package? p = _ ∧ _)
    refine (h.package?_cases p).imp_right fun ⟨hold, id, hp, hfresh, hm⟩ => ?_
    obtain ⟨s, hs, hname⟩ := hc.get?_of_package? hp
    exact ⟨hold, id, hp, hfresh, ⟨s, hkeeps.symbols id s hs, hname⟩, hm⟩
  case membersNamed =>
    intro outer other hget htype name
    exact h.membersNamed_push ho howner hget htype name

/-- Registering a class under a new name adds the class and packages around it. -/
theorem gainsType_addType (ht : t.Consistent) (hnew : t.type? q = none) (flags : SymbolFlags)
    (supertypes : List String) :
    t.GainsType (t.addType q flags supertypes).1 q (t.addType q flags supertypes).2 := by
  obtain ⟨package, name, hcut⟩ :
      ∃ package name, (Dotted.splitLast? q).getD ("", q) = (package, name) := ⟨_, _, rfl⟩
  have hpackages : t.GainsPackages (t.addPackage package).1 (packageNames q) := by
    unfold packageNames
    rw [hcut]
    exact gainsPackages_addPackage t package
  obtain ⟨hc, -, howner⟩ := addPackage_spec ht package
  rw [addType_eq t flags supertypes hcut]
  dsimp only
  rcases ensureType_cases (t.addPackage package).1 name q flags (some (t.addPackage package).2) none
    with ⟨id, hid, -⟩ | ⟨-, hpush⟩
  · rw [hpackages.type?_eq, hnew] at hid
    cases hid
  · rw [hpush]
    exact hpackages.gainsType hc rfl rfl hnew rfl howner supertypes

end

end ScriptCheck.SymbolTable
