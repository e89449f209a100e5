/-
  Private access follows the nesting of types.

  What is private may be used inside the same outermost type. The script finds
  that type in two ways: around a declaration through the owners of symbols,
  and around a place through the nodes above it. `isAccessible_iff_outermost`
  says that both ways lead to the outermost named type in the text.
-/
import ScriptCheck.Proofs.Binding.TypeNesting
import ScriptCheck.Proofs.Script.File
import ScriptCheck.Proofs.Symbol.Owners
import ScriptCheck.Script.Access

namespace ScriptCheck

/-- The named types that a node is or is inside of, the innermost first. -/
def Tree.typesAtOrAround (t : Tree) (root i : NodeId) : List NodeId :=
  if t.isNamedType i then i :: t.typesAround root i else t.typesAround root i

namespace Binding

section

variable {lib : SymbolTable} {t : Tree} {b : Binding} {i root : Nat} {id : SymbolId}

/-! ## Through the owners -/

/-- The symbols of the named types from the outermost one down to a type are a path, which starts in
    a package. -/
theorem Nested.exists_typePath (hn : Nested lib t root b) (ht : t.WellShaped)
    {types : List NodeId} (hi : (i, id) ∈ b.declared) (hnamed : t.isNamedType i = true)
    (htypes : t.typesAround root i = types) :
    ∃ last lastId path package, (i :: types).getLast? = some last ∧ (last, lastId) ∈ b.declared ∧
      t.isNamedType last = true ∧ b.symbols.TypePath lastId path id ∧
      b.symbols.LiesIn lastId package ∧ path.length = (i :: types).length := by
  induction types generalizing i id with
  | nil =>
    obtain ⟨s, hget, hs⟩ := hn.types hi hnamed
    obtain ⟨outer, ha, owner, ho, hor⟩ := hs.owner
    unfold Around at ha
    rw [htypes] at ha
    -- Outside of all types the owner is a package.
    have hp : b.symbols.IsPackage owner := by
      rcases hor with hsome | ⟨_, hp⟩
      · rw [ha] at hsome
        cases hsome
      · exact hp
    obtain ⟨package, hpackage, hk⟩ := hp
    exact ⟨i, id, [s], package, rfl, hi, hnamed, .here hget hs.kind,
      ⟨s, owner, hget, ho, hpackage, hk⟩, rfl⟩
  | cons type rest ih =>
    obtain ⟨s, hget, hs⟩ := hn.types hi hnamed
    obtain ⟨outer, ha, owner, ho, hor⟩ := hs.owner
    unfold Around at ha
    rw [htypes] at ha
    obtain ⟨typeId, rfl, htype⟩ := ha
    obtain ⟨hrest, hnamed', _⟩ := ht.typesAround_of_cons htypes
    have howner : s.owner = some typeId := by
      rcases hor with hsome | ⟨hnone, _⟩
      · rw [ho, hsome]
      · cases hnone
    obtain ⟨last, lastId, path, package, hlast, hdecl, hnl, hpath, hlies, hlength⟩ :=
      ih htype hnamed' hrest
    refine ⟨last, lastId, path ++ [s], package, ?_, hdecl, hnl, hpath.inside hget hs.kind howner,
      hlies, ?_⟩
    · rw [List.getLast?_cons_cons]
      exact hlast
    · rw [List.length_append, hlength]
      rfl

/-- A named type has one symbol. -/
theorem Nested.symbol_unique (hn : Nested lib t root b) {other : SymbolId}
    (hi : (i, id) ∈ b.declared) (ho : (i, other) ∈ b.declared) (hnamed : t.isNamedType i = true) :
    id = other := by
  obtain ⟨s, hget, hs⟩ := hn.types hi hnamed
  obtain ⟨s', hget', hs'⟩ := hn.types ho hnamed
  exact hn.sound.consistent.unique hget hget' (hs.kind.trans hs'.kind.symm) (Or.inl hs.kind)
    (hs.qualifiedName.trans hs'.qualifiedName.symm)

/-- What declares a type by name is a named type. -/
theorem DeclaredBy.isNamedType_of_kind {s : Symbol} (hs : DeclaredBy t i s) (ht : t.Built)
    (hk : s.kind = .type) : t.isNamedType i = true := by
  obtain ⟨form, hform, hsk⟩ := hs.form
  exact (isNamedType_iff ht hform).mpr ⟨hsk.trans (congrArg some hk), hs.isNamed⟩

/-- The symbols of types, methods and fields are of these kinds. -/
theorem DeclaredBy.kind_cases {s : Symbol} (hs : DeclaredBy t i s) (ht : t.Built)
    (hkind : t.isOneOf [.typeDeclaration, .methodDeclaration, .fieldDeclaration] i = true) :
    s.kind = .type ∨ s.kind = .method ∨ s.kind = .field := by
  obtain ⟨form, hform, hsk⟩ := hs.form
  unfold Tree.isOneOf at hkind
  rw [ht.kind?_of_form? hform] at hkind
  cases form with
  | typeDecl data => exact Or.inl (Option.some.inj hsk).symm
  | method data => exact Or.inr (Or.inl (Option.some.inj hsk).symm)
  | variableLike role data =>
    cases role with
    | field => exact Or.inr (Or.inr (Option.some.inj hsk).symm)
    | parameter => simp [Form.kind, VariableRole.kind] at hkind
    | localVariable => simp [Form.kind, VariableRole.kind] at hkind
  | _ => cases hsk

/-- A private declaration inside a type, or a private type, belongs to the outermost named type
    around it. -/
theorem Nested.outermostType? (hn : Nested lib t root b) (ht : t.WellShaped)
    (hi : (i, id) ∈ b.declared)
    (hkind : t.isOneOf [.typeDeclaration, .methodDeclaration, .fieldDeclaration] i = true)
    (hinside : t.typesAtOrAround root i ≠ [])
    (hdepth : (t.typesAround root i).length ≤ hierarchyLimit) :
    ∃ last lastId, (t.typesAtOrAround root i).getLast? = some last ∧
      (last, lastId) ∈ b.declared ∧ t.isNamedType last = true ∧
      b.symbols.outermostType? id = some lastId := by
  unfold Tree.typesAtOrAround at hinside ⊢
  by_cases hnamed : t.isNamedType i = true
  · rw [if_pos hnamed]
    obtain ⟨last, lastId, path, package, hlast, hdecl, hnl, hpath, hlies, hlength⟩ :=
      hn.exists_typePath ht hi hnamed rfl
    have hb : path.length ≤ hierarchyLimit + 1 := hlength ▸ Nat.succ_le_succ hdepth
    exact ⟨last, lastId, hlast, hdecl, hnl, hpath.outermostType? hn.sound.consistent hlies hb⟩
  · -- A member is owned by the type around it, whose owners lead on.
    rw [if_neg hnamed] at hinside ⊢
    obtain ⟨s, hget, hs⟩ := hn.sound.declared hi
    have hmember : s.kind = .method ∨ s.kind = .field :=
      (hs.kind_cases ht.built hkind).resolve_left fun hk =>
        hnamed (hs.isNamedType_of_kind ht.built hk)
    have ha := hn.members hi hget hmember
    unfold Around at ha
    cases htypes : t.typesAround root i with
    | nil => exact absurd htypes hinside
    | cons type rest =>
      rw [htypes] at ha hdepth
      obtain ⟨typeId, howner, htype⟩ := ha
      obtain ⟨hrest, hnamed', _⟩ := ht.typesAround_of_cons htypes
      obtain ⟨last, lastId, path, package, hlast, hdecl, hnl, hpath, hlies, hlength⟩ :=
        hn.exists_typePath ht htype hnamed' hrest
      have hb : path.length ≤ hierarchyLimit := hlength ▸ hdepth
      exact ⟨last, lastId, hlast, hdecl, hnl,
        hpath.outermostType?_member hn.sound.consistent hlies hb hget howner⟩

end

end Binding

namespace Script

section

variable {lib : SymbolTable} {t : Tree} {root i : Nat} {imports : List String} {id : SymbolId}

/-! ## Through the tree -/

/-- The last of the values of a function on a list, if it has one everywhere. -/
theorem getLast?_filterMap {α : Type _} {β : Type _} {f : α → Option β} {l : List α}
    (h : ∀ x ∈ l, ∃ y, f x = some y) : (l.filterMap f).getLast? = l.getLast?.bind f := by
  rcases List.eq_nil_or_concat l with rfl | ⟨init, x, rfl⟩
  · rfl
  · obtain ⟨y, hy⟩ := h x (by simp)
    have hone : [x].filterMap f = [y] := by
      rw [List.filterMap_cons_some hy]
      rfl
    rw [List.concat_eq_append, List.filterMap_append, List.getLast?_concat, Option.bind_some, hy,
      hone, List.getLast?_concat]

/-- What has a symbol is below the statements of the file. -/
theorem reached_of_symbolOf? (hn : Binding.Nested lib t root (ofFile lib t root imports).binding)
    (h : (ofFile lib t root imports).symbolOf? i = some id) : t.Reached root i :=
  hn.sound.reached (Binding.mem_declared_of_symbolOf? h)

/-- The types around a place that is not below the statements of the file have no symbols. -/
theorem filterMap_above_of_not_reached (ht : t.WellShaped)
    (hn : Binding.Nested lib t root (ofFile lib t root imports).binding)
    (hr : ¬t.Reached root i) (p : NodeId → Bool) :
    ((t.above i).filter p).filterMap (ofFile lib t root imports).symbolOf? = [] := by
  rw [List.filterMap_eq_nil_iff]
  intro x hx
  rw [Option.eq_none_iff_forall_ne_some]
  intro id hid
  exact hr ((reached_of_symbolOf? hn hid).of_mem_above ht (List.mem_filter.mp hx).1)

/-- The symbols of the types around a place are those of the named types around it in the text. -/
theorem filterMap_above_of_reached (ht : t.WellShaped)
    (hn : Binding.Nested lib t root (ofFile lib t root imports).binding)
    (hr : t.Reached root i) :
    ((t.above i).filter (t.isOneOf [.typeDeclaration])).filterMap
        (ofFile lib t root imports).symbolOf? =
      (t.typesAround root i).filterMap (ofFile lib t root imports).symbolOf? := by
  induction i using ht.induction_down with
  | top c hc =>
    rcases hr.parent? ht with hp | ⟨p, hp, _⟩
    · rw [hc] at hp
      cases hp
    · rw [hc] at hp
      cases hp
  | down c p hp ih =>
    rw [ht.above_of_parent? hp]
    by_cases hroot : p = root
    · -- The file itself and what lies above it have no symbols.
      subst hroot
      rw [ht.typesAround_of_root hp, List.filterMap_nil, List.filterMap_eq_nil_iff]
      intro x hx
      rw [Option.eq_none_iff_forall_ne_some]
      intro id hid
      have hlow := (reached_of_symbolOf? hn hid).lt_root ht
      rcases List.mem_cons.mp (List.mem_filter.mp hx).1 with rfl | hx
      · exact Nat.lt_irrefl _ hlow
      · exact Nat.lt_asymm hlow (ht.lt_of_mem_above hx)
    · have hrp : t.Reached root p := by
        rcases hr.parent? ht with hq | ⟨q, hq, hrq⟩
        · exact absurd (Option.some.inj (hp.symm.trans hq)) hroot
        · exact Option.some.inj (hp.symm.trans hq) ▸ hrq
      rw [ht.typesAround_of_parent? hp hroot, List.filter_cons]
      by_cases htype : t.isOneOf [.typeDeclaration] p = true
      · rw [if_pos htype]
        by_cases hnamed : t.isNamedType p = true
        · rw [if_pos hnamed, List.filterMap_cons, List.filterMap_cons, ih hrp]
        · have hnone : (ofFile lib t root imports).symbolOf? p = none := by
            rw [Option.eq_none_iff_forall_ne_some]
            intro id hid
            obtain ⟨s, _, hs⟩ := hn.sound.declared (Binding.mem_declared_of_symbolOf? hid)
            refine hnamed ?_
            unfold Tree.isNamedType
            rw [htype, Bool.true_and, Option.isSome_iff_exists]
            exact hs.isNamed
          rw [if_neg hnamed, List.filterMap_cons_none hnone, ih hrp]
      · have hnamed : ¬t.isNamedType p = true := fun h => htype (Bool.and_eq_true_iff.mp h).1
        rw [if_neg htype, if_neg hnamed, ih hrp]

/-- The named types around a place below the statements of the file are there too. -/
theorem reached_of_mem_typesAround (ht : t.WellShaped) (hr : t.Reached root i) {x : NodeId}
    (hx : x ∈ t.typesAround root i) : t.Reached root x := by
  induction i using ht.induction_down with
  | top c hc =>
    unfold Tree.typesAround at hx
    rw [Tree.above_of_parent?_eq_none hc] at hx
    cases hx
  | down c p hp ih =>
    rcases hr.parent? ht with hq | ⟨q, hq, hrq⟩
    · rw [ht.typesAround_of_root hq] at hx
      cases hx
    · obtain rfl : p = q := Option.some.inj (hp.symm.trans hq)
      rw [ht.typesAround_of_parent? hp (Nat.ne_of_lt (hrq.lt_root ht))] at hx
      split at hx
      · rcases List.mem_cons.mp hx with rfl | hx
        · exact hrq
        · exact ih hrq hx
      · exact ih hrq hx

/-- The last type around a place has the symbol of a named type exactly if it is that type. -/
theorem getLast?_enclosingTypes_iff (ht : t.WellShaped)
    (hown : Binding.OwnNames lib t (ofFile lib t root imports).binding.filePackage root)
    (hn : Binding.Nested lib t root (ofFile lib t root imports).binding)
    (hlen : (t.ancestors i).length < ancestorLimit) {type : NodeId}
    (htype : (type, id) ∈ (ofFile lib t root imports).binding.declared)
    (hnamed : t.isNamedType type = true) :
    ((ofFile lib t root imports).enclosingTypes i).getLast? = some id ↔
      (t.typesAround root i).getLast? = some type := by
  -- Named types are told apart by their qualified names, and so by their symbols.
  have hsymbol : ∀ x, t.isNamedType x = true →
      ((ofFile lib t root imports).symbolOf? x = some id ↔ x = type) := by
    intro x hx
    constructor
    · intro hid
      have hmem := Binding.mem_declared_of_symbolOf? hid
      obtain ⟨s, hget, hs⟩ := hn.types hmem hx
      obtain ⟨s', hget', hs'⟩ := hn.types htype hnamed
      obtain rfl : s = s' := Option.some.inj (hget.symm.trans hget')
      exact hown.distinct x type (hn.sound.reached hmem) (hn.sound.reached htype) hx hnamed
        (hs.qualifiedName.symm.trans hs'.qualifiedName)
    · rintro rfl
      obtain ⟨other, hother⟩ := Binding.isSome_symbolOf? htype
      rw [show (ofFile lib t root imports).symbolOf? x = some other from hother]
      exact congrArg some
        (hn.symbol_unique (Binding.mem_declared_of_symbolOf? hother) htype hnamed)
  unfold enclosingTypes
  rw [show (ofFile lib t root imports).tree = t from rfl, ht.ancestors_eq_above hlen]
  by_cases hr : t.Reached root i
  · have hall : ∀ x ∈ t.typesAround root i,
        ∃ y, (ofFile lib t root imports).symbolOf? x = some y := by
      intro x hx
      obtain ⟨_, hxn⟩ := Tree.typesAround_subset_above hx
      obtain ⟨name, hname⟩ := Option.isSome_iff_exists.mp (Bool.and_eq_true_iff.mp hxn).2
      exact Binding.exists_symbolOf? ht (reached_of_mem_typesAround ht hr hx) hname _
    rw [filterMap_above_of_reached ht hn hr, getLast?_filterMap hall]
    cases hlast : (t.typesAround root i).getLast? with
    | none => exact iff_of_false nofun nofun
    | some x =>
      obtain ⟨_, hxn⟩ := Tree.typesAround_subset_above (List.mem_of_getLast? hlast)
      rw [Option.bind_some, hsymbol x hxn, Option.some_inj]
  · rw [filterMap_above_of_not_reached ht hn hr]
    refine iff_of_false nofun fun h => hr ?_
    obtain ⟨hmem, _⟩ := Tree.typesAround_subset_above (List.mem_of_getLast? h)
    exact (hn.sound.reached htype).of_mem_above ht hmem

/-! ## Both ways meet -/

/-- A private field, method or type has a symbol, and it may be used at a place exactly if the place
    has the same outermost named type around it, provided that the named types of the file have
    names of their own and no walk is cut off. -/
theorem isAccessible_iff_outermost (hlib : lib.Grown) (ht : t.WellShaped)
    (hown : Binding.OwnNames lib t (ofFile lib t root imports).binding.filePackage root)
    {declaration : NodeId} {name : String} (hreached : t.Reached root declaration)
    (hname : t.declaredName? declaration = some name)
    (hkind : t.isOneOf [.typeDeclaration, .methodDeclaration, .fieldDeclaration] declaration = true)
    (hprivate : (t.modifiers declaration).isPrivate = true)
    (hinside : t.typesAtOrAround root declaration ≠ [])
    (hdepth : (t.typesAround root declaration).length ≤ hierarchyLimit) :
    ∃ id, (ofFile lib t root imports).symbolOf? declaration = some id ∧
      ∀ site, (t.ancestors site).length < ancestorLimit →
        ((ofFile lib t root imports).isAccessible id site = true ↔
          (t.typesAround root site).getLast? =
            (t.typesAtOrAround root declaration).getLast?) := by
  obtain ⟨file, hfile⟩ := hreached.exists_file
  obtain ⟨id, hid⟩ : ∃ id, (ofFile lib t root imports).symbolOf? declaration = some id :=
    Binding.exists_symbolOf? ht hreached hname _
  refine ⟨id, hid, fun site hsite => ?_⟩
  have hn : Binding.Nested lib t root (ofFile lib t root imports).binding :=
    Binding.bindFile_nested hlib.consistent ht hfile (filePackage_ofFile hfile ▸ hown)
  have hdecl := Binding.mem_declared_of_symbolOf? hid
  obtain ⟨last, lastId, hlast, hlastDecl, hnamed, houtermost⟩ :=
    hn.outermostType? ht hdecl hkind hinside hdepth
  obtain ⟨s, hget, hs⟩ := hn.sound.declared hdecl
  -- The flags of a type come from the nesting, those of a member from its declaration.
  have hflag : s.flags.isPrivate = true := by
    by_cases hk : s.kind = .type
    · obtain ⟨s', hget', hs'⟩ := hn.types hdecl (hs.isNamedType_of_kind ht.built hk)
      obtain rfl : s' = s := Option.some.inj (hget'.symm.trans hget)
      exact hs'.isPrivate.trans hprivate
    · exact (hs.isPrivate hk).trans hprivate
  have haccess : (ofFile lib t root imports).isAccessible id site =
      decide (some lastId = ((ofFile lib t root imports).enclosingTypes site).getLast?) := by
    unfold isAccessible
    rw [show (ofFile lib t root imports).symbols.get? id = some s from hget]
    rw [show (ofFile lib t root imports).symbols.outermostType? id = some lastId from houtermost]
    rcases hs.kind_cases ht.built hkind with hk | hk | hk <;>
      simp only [hk, hflag, if_true, Option.isSome_some, Bool.true_and]
  rw [haccess, decide_eq_true_iff, hlast,
    ← getLast?_enclosingTypes_iff ht hown hn hsite hlastDecl hnamed]
  exact eq_comm

end

/-! ## A private field and two places -/

/-- A file with a class `Outer` that has a private field and a class `Inner` in it, where the field
    is used, and a class `Other` beside it, where it is used too. -/
def nestTree : Tree :=
  .ofNodes
    [(.identifier "x", .none),
      (.variableLike .field ⟨some 0, none, none, false⟩, { Modifiers.none with isPrivate := true }),
      (.identifier "Inner", .none),
      (.reference .value ⟨none, some "x", default⟩, .none),
      (.classBody [some 3], .none),
      (.typeDecl ⟨.classType, some 2, [], [], some 4⟩, .none),
      (.identifier "Outer", .none),
      (.classBody [some 1, some 5], .none),
      (.typeDecl ⟨.classType, some 6, [], [], some 7⟩, .none),
      (.identifier "Other", .none),
      (.reference .value ⟨none, some "x", default⟩, .none),
      (.classBody [some 10], .none),
      (.typeDecl ⟨.classType, some 9, [], [], some 11⟩, .none),
      (.sourceFile ⟨"nest", none, [], [some 8, some 12]⟩, .none)]

/-- The file without a library. -/
def nest : Script := ofFile .empty nestTree 13 []

theorem nestTree_wellShaped : nestTree.WellShaped :=
  (Tree.built_ofNodes _).wellShaped (by decide +kernel)

theorem nest_ownNames :
    Binding.OwnNames .empty nestTree nest.binding.filePackage 13 := by
  have hsize : nestTree.size = 14 := by decide +kernel
  have hdistinct : ∀ i < 14, ∀ j < 14, nestTree.isNamedType i = true →
      nestTree.isNamedType j = true →
      nestTree.typeName nest.binding.filePackage 13 i =
        nestTree.typeName nest.binding.filePackage 13 j → i = j := by
    decide +kernel
  exact ⟨fun i j hi hj => hdistinct i (hsize ▸ hi.lt_size) j (hsize ▸ hj.lt_size),
    fun _ _ _ => rfl⟩

/-- The field may be used inside of `Inner`, but not inside of `Other`. -/
theorem isAccessible_nest :
    (nest.isAccessible 2 3 = true ∧ nest.isAccessible 2 10 = false) ∧
      ∃ id, nest.symbolOf? 1 = some id ∧
        ∀ site, (nestTree.ancestors site).length < ancestorLimit →
          (nest.isAccessible id site = true ↔ (nestTree.typesAround 13 site).getLast? =
            (nestTree.typesAtOrAround 13 1).getLast?) := by
  have hfile : nestTree.form? 13 = some (.sourceFile ⟨"nest", none, [], [some 8, some 12]⟩) := rfl
  have houter : nestTree.Reached 13 8 := .statement hfile (by decide +kernel) (by decide +kernel)
  have hbody : nestTree.Reached 13 7 := .part houter (by decide +kernel) (by decide +kernel)
  have hfield : nestTree.Reached 13 1 := .part hbody (by decide +kernel) (by decide +kernel)
  have hname : nestTree.declaredName? 1 = some "x" := by decide +kernel
  exact ⟨by decide +kernel,
    isAccessible_iff_outermost .start nestTree_wellShaped nest_ownNames hfield hname
      (by decide +kernel) (by decide +kernel) (by decide +kernel) (by decide +kernel)⟩

end Script

end ScriptCheck
