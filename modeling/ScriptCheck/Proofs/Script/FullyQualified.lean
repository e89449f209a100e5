/-
  Fully qualified names.

  Registering a class registers all packages that its name says it is in, and
  whatever happens to the table afterwards, none of this gets lost
  (`SymbolTable.Registers`). So a written type that spells the name, one node
  for each part, can be followed from package to package. It ends on the class
  unless something else comes first: its first part may not mean the package
  here, or a class has the name of one of the packages. As soon as neither is
  the case, the number of dots decides, as each of them takes a level
  (`resolveWith_fullyQualified`).
-/
import ScriptCheck.Proofs.Binding.Conservation
import ScriptCheck.Proofs.Script.File
import ScriptCheck.Proofs.Script.QualifiedNames

namespace ScriptCheck

namespace SymbolTable

/-- A class was registered under a name, in some table, and steps led on from there. -/
def Registers (t : SymbolTable) (q : String) (id : SymbolId) : Prop :=
  ∃ before flags supertypes, empty.Steps before ∧ (before.addType q flags supertypes).2 = id ∧
    (before.addType q flags supertypes).1.Steps t

section

variable {t u : SymbolTable} {q outer : String} {id : SymbolId}

/-- A class that was registered is found, whatever happened since. -/
theorem Registers.type? (h : t.Registers q id) : t.type? q = some id := by
  obtain ⟨before, flags, supertypes, -, rfl, hsteps⟩ := h
  exact hsteps.type? (type?_addType before q flags supertypes)

/-- So are the packages around it. -/
theorem Registers.exists_package? (h : t.Registers q id) (ho : outer ∈ Dotted.enclosing q) :
    ∃ p, t.package? outer = some p := by
  obtain ⟨before, flags, supertypes, -, -, hsteps⟩ := h
  obtain ⟨p, hp⟩ := exists_package?_addType before flags supertypes ho
  exact ⟨p, hsteps.package? hp⟩

theorem Registers.consistent (h : t.Registers q id) : t.Consistent := by
  obtain ⟨before, flags, supertypes, hbefore, -, hsteps⟩ := h
  have hall : empty.Steps t :=
    (hbefore.trans (steps_addType before q flags supertypes)).trans hsteps
  exact hall.induct consistent_empty Consistent.step

end

end SymbolTable

/-! ## Chains of written types -/

/-- A written type spells a name with so many dots, part by part: the node `first` has the first
    part, and every part behind one of the dots has its own node, with the one of the part before it
    as qualifier. -/
inductive Tree.Spells (t : Tree) (first : NodeId) (head : String) :
    Nat → NodeId → String → Prop
  | head {data : Reference} (hform : t.form? first = some (.reference .type data))
    (hq : data.qualifier = none) (hname : data.name? = some head) : t.Spells first head 0 first head
  | behind {dots : Nat} {qualifier r : NodeId} {outer name : String} {data : Reference}
    (h : t.Spells first head dots qualifier outer)
    (hform : t.form? r = some (.reference .type data)) (hq : data.qualifier = some qualifier)
    (hname : data.name? = some name) :
    t.Spells first head (dots + 1) r (outer ++ "." ++ name)

namespace Script

section

variable {m : Type → Type} [Monad m] [LawfulMonad m] {s : Script} {first qualifier r : NodeId}
  {head outer name q : String} {dots levels : Nat} {data : Reference} {id p : SymbolId}

theorem isOneOf_of_spells (ht : s.tree.Edited) (h : s.tree.Spells first head dots r q) :
    s.tree.isOneOf [.reference, .typeReference] r = true := by
  obtain ⟨data, hform⟩ : ∃ data, s.tree.form? r = some (.reference .type data) := by
    cases h with
    | head hform hq hname => exact ⟨_, hform⟩
    | behind h hform hq hname => exact ⟨_, hform⟩
  have hkind : s.tree.kind? r = some .typeReference := ht.kind?_of_form? hform
  unfold Tree.isOneOf
  rw [hkind]
  rfl

/-- In front of a dot, a name that is found to be a package stands for it. -/
theorem qualifierVia_package {resolve receiver : NodeId → m (Option SymbolId)}
    (hs : s.symbols.Consistent)
    (hone : s.tree.isOneOf [.reference, .typeReference] qualifier = true)
    (hresolve : resolve qualifier = pure (some p)) (hp : s.symbols.package? outer = some p) :
    s.qualifierVia resolve receiver qualifier = pure (some (.package outer)) := by
  obtain ⟨package, hget, hkind, rfl⟩ := hs.get?_of_package? hp
  unfold qualifierVia
  rw [if_pos hone, hresolve, pure_bind]
  dsimp only
  rw [hget]
  dsimp only
  rw [hkind]

/-- One that is not found stands for nothing. -/
theorem qualifierVia_none {resolve receiver : NodeId → m (Option SymbolId)}
    (hone : s.tree.isOneOf [.reference, .typeReference] qualifier = true)
    (hresolve : resolve qualifier = pure none) :
    s.qualifierVia resolve receiver qualifier = pure none := by
  unfold qualifierVia
  rw [if_pos hone, hresolve, pure_bind]

/-- What stands behind the name of a package, which takes one level more. -/
theorem lookupWithin_behind (receiver : NodeId → m (Option SymbolId)) (hs : s.symbols.Consistent)
    (hone : s.tree.isOneOf [.reference, .typeReference] qualifier = true)
    (hp : s.symbols.package? outer = some p)
    (hfound : s.lookupWithin receiver levels qualifier =
      pure (if dots < levels then some p else none))
    (hform : s.tree.form? r = some (.reference .type data)) (hname : data.name? = some name)
    (hq : data.qualifier = some qualifier) :
    s.lookupWithin receiver (levels + 1) r =
      pure (if dots < levels then
        s.symbols.type? (outer ++ "." ++ name) <|> s.symbols.package? (outer ++ "." ++ name)
      else none) := by
  rw [lookupWithin, lookupVia_qualified hform hname hq]
  split at hfound
  · next hlt => rw [qualifierVia_package hs hone hfound hp, pure_bind, if_pos hlt]; rfl
  · next hle => rw [qualifierVia_none hone hfound, pure_bind, if_neg hle]; rfl

/-- A spelled name is followed from package to package as long as there are levels and no type has
    the name of one of the packages. Behind the last dot types come first. -/
theorem lookupWithin_of_spells (receiver : NodeId → m (Option SymbolId))
    (hs : s.symbols.Consistent) (ht : s.tree.Edited) (hspells : s.tree.Spells first head dots r q)
    (hfirst : s.lookupType first head = some p) (hhead : s.symbols.package? head = some p)
    (hnone : ∀ outer ∈ Dotted.enclosing q, s.symbols.type? outer = none)
    (hpackage : ∀ outer ∈ Dotted.enclosing q, ∃ p, s.symbols.package? outer = some p)
    (levels : Nat) :
    s.lookupWithin receiver levels r =
      pure (if dots < levels then
        if dots = 0 then some p else s.symbols.type? q <|> s.symbols.package? q
      else none) := by
  induction hspells generalizing levels with
  | head hform hq hname =>
    cases levels with
    | zero => rfl
    | succ levels =>
      rw [lookupWithin, lookupVia_type hform hname hq, hfirst, if_pos (Nat.succ_pos _), if_pos rfl]
  | @behind dots qualifier r outer name data h hform hq hname ih =>
    have hsub := Dotted.enclosing_subset outer name
    have houter := hsub (List.mem_append_right _ List.mem_cons_self)
    obtain ⟨p', hp'⟩ := hpackage outer houter
    -- Whether it is a single part or has dots, what stands in front of the dot is the package.
    have hfront :
        (if dots = 0 then some p else s.symbols.type? outer <|> s.symbols.package? outer) =
          some p' := by
      split
      · next hzero =>
        subst hzero
        cases h with
        | head => exact hhead.symm.trans hp'
      · rw [hnone outer houter, hp']
        rfl
    cases levels with
    | zero => rfl
    | succ levels =>
      have hfound := ih (fun o ho => hnone o (hsub (List.mem_append_left _ ho)))
        (fun o ho => hpackage o (hsub (List.mem_append_left _ ho))) levels
      rw [hfront] at hfound
      rw [lookupWithin_behind receiver hs (isOneOf_of_spells ht h) hp' hfound hform hname hq,
        if_neg (Nat.succ_ne_zero dots)]
      simp only [Nat.succ_lt_succ_iff]

end

/-- Say a class was registered under a name, and a written type spells the name. If its first part
    means the package of that name where it stands, and no type has the name of one of the packages
    around the class, the written type resolves to the class, however the types of values are found,
    unless there are more dots than levels. -/
theorem resolveWith_fullyQualified {m : Type → Type} [Monad m] [LawfulMonad m]
    {lib : SymbolTable} {t : Tree} {root : NodeId} {imports : List String} {s : Script}
    {first r : NodeId} {head q : String} {dots : Nat} {id p : SymbolId}
    (hreg : lib.Registers q id) (ht : t.Edited) (hs : s = ofFile lib t root imports)
    (hspells : t.Spells first head dots r q) (hdots : 0 < dots)
    (hfirst : s.lookupType first head = some p) (hhead : s.symbols.package? head = some p)
    (hnone : ∀ outer ∈ Dotted.enclosing q, s.symbols.type? outer = none)
    (receiver : NodeId → m (Option SymbolId)) :
    (∃ symbol, s.symbols.get? id = some symbol ∧ symbol.kind = .type ∧ symbol.qualifiedName = q) ∧
      s.resolveWith receiver r = pure
        (if dots ≤ qualifierLimit then
          if s.isAccessible id r then .accessible id else .inaccessible id
        else .unresolved) := by
  have hconsistent : s.symbols.Consistent := by
    rw [hs]
    exact (Binding.bindFile_sound hreg.consistent t root).consistent
  have hkept : lib.KeptBy s.symbols := by
    rw [hs]
    exact Binding.keptBy_bindFile (.ofLibraries lib) t root
  have htree : s.tree = t := by rw [hs]; rfl
  subst htree
  have hid : s.symbols.type? q = some id := hkept.type? q id hreg.type?
  have hclass : (s.symbols.type? q <|> s.symbols.package? q) = some id := by
    rw [hid]
    rfl
  have hpackage : ∀ outer ∈ Dotted.enclosing q, ∃ p, s.symbols.package? outer = some p := by
    intro outer ho
    obtain ⟨package, hp⟩ := hreg.exists_package? ho
    exact ⟨package, hkept.package? outer package hp⟩
  refine ⟨hconsistent.get?_of_type? hid, ?_⟩
  unfold resolveWith
  rw [lookupWithin_of_spells receiver hconsistent ht hspells hfirst hhead hnone hpackage,
    if_neg (Nat.ne_of_gt hdots), hclass, pure_bind]
  simp only [Nat.lt_succ_iff]
  unfold Resolution.ofSearch
  by_cases hlevels : dots ≤ qualifierLimit
  · rw [if_pos hlevels, if_pos hlevels]
    exact pure_bind _ _
  · rw [if_neg hlevels, if_neg hlevels]

/-- A library with the class `app.model.Item`, to which a package and a class of the same simple
    name were added later. -/
def itemLibrary : SymbolTable :=
  let t := (SymbolTable.empty.addType "app.model.Item" .none []).1
  let t := (t.addPackage "app.view").1
  (t.addType "app.view.Item" .none []).1

theorem registers_itemLibrary : itemLibrary.Registers "app.model.Item" 2 :=
  ⟨.empty, .none, [], .refl, by decide +kernel,
    (SymbolTable.steps_addPackage _ _).trans (SymbolTable.steps_addType _ _ _ _)⟩

/-- A file with a variable of the type `app.model.Item`. -/
def itemTree : Tree :=
  .ofNodes
    [(.reference .type ⟨none, some "app", default⟩, .none),
      (.reference .type ⟨some 0, some "model", default⟩, .none),
      (.reference .type ⟨some 1, some "Item", default⟩, .none),
      (.identifier "item", .none),
      (.variableLike .localVariable ⟨some 3, some 2, none, false⟩, .none),
      (.sourceFile ⟨"item", none, [], [some 4]⟩, .none)]

theorem spells_itemTree : itemTree.Spells 0 "app" 2 2 "app.model.Item" := by
  have happ : itemTree.form? 0 = some (.reference .type ⟨none, some "app", default⟩) := by
    decide +kernel
  have hmodel : itemTree.form? 1 = some (.reference .type ⟨some 0, some "model", default⟩) := by
    decide +kernel
  have hitem : itemTree.form? 2 = some (.reference .type ⟨some 1, some "Item", default⟩) := by
    decide +kernel
  exact .behind (.behind (.head happ rfl rfl) hmodel rfl rfl) hitem rfl rfl

theorem resolve_itemTree :
    (itemLibrary.Registers "app.model.Item" 2 ∧ itemTree.Spells 0 "app" 2 2 "app.model.Item") ∧
      (ofFile itemLibrary itemTree 5 standardImports).resolve 2 = .accessible 2 := by
  refine ⟨⟨registers_itemLibrary, spells_itemTree⟩, ?_⟩
  have hbuilt : itemTree.Built := Tree.built_ofNodes _
  have h := resolveWith_fullyQualified (s := ofFile itemLibrary itemTree 5 standardImports)
    registers_itemLibrary hbuilt.edited rfl spells_itemTree (by decide)
    (p := 0) (by decide +kernel) (by decide +kernel) (by decide +kernel)
    (fun _ => (pure none : Id (Option SymbolId)))
  have haccess : (ofFile itemLibrary itemTree 5 standardImports).isAccessible 2 2 = true := by
    decide +kernel
  rw [haccess] at h
  exact congrArg Id.run h.2

end Script

end ScriptCheck
