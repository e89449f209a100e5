/-
  Nested types by their simple names.

  Inside a type a nested type can be called by its simple name, and everywhere
  behind the type that it is nested in. The two ways are not alike. Behind a
  type the name means a member, which the type may inherit. A simple name is
  looked for among the types that the types around the place declare
  themselves, and what these inherit does not count. `lookupType_of_findMember`
  says where both ways lead to a type, and where the simple name has to mean one
  outside of all types.
-/
import ScriptCheck.Proofs.Script.TypePosition
import ScriptCheck.Proofs.Syntax.Additions
import ScriptCheck.Proofs.Syntax.Enclosing

namespace ScriptCheck.Script

/-- Whether a type is called `name` or declares a type of that name itself. -/
def knowsType (s : Script) (name : String) (outer : SymbolId) : Bool :=
  (s.symbols.get? outer).any (·.name = name) || (s.nestedType? outer name).isSome

section

variable {s : Script} {site outside : NodeId} {name : String} {type id : SymbolId}

/-! ## Among the types around a place -/

/-- The types around a place have nothing to say about a name that none of them knows. -/
theorem enclosingType?_eq_none_iff : s.enclosingType? site name = none ↔
    ∀ outer ∈ s.enclosingTypes site, s.knowsType name outer = false := by
  unfold enclosingType?
  rw [List.findSome?_eq_none_iff]
  refine forall₂_congr fun outer _ => ?_
  unfold knowsType
  cases (s.symbols.get? outer).any (·.name = name) <;> simp

/-- The innermost type that knows a name decides. It stands for itself if it is called so, and else
    for the type nested in it. -/
theorem enclosingType?_of_innermost
    (hfirst : (s.enclosingTypes site).find? (s.knowsType name) = some type)
    (hother : (s.symbols.get? type).any (·.name = name) = false) :
    s.enclosingType? site name = s.nestedType? type name := by
  obtain ⟨hknows, before, after, hsplit, hbefore⟩ := List.find?_eq_some_iff_append.mp hfirst
  obtain ⟨nested, hnested⟩ : ∃ nested, s.nestedType? type name = some nested := by
    unfold knowsType at hknows
    rw [hother, Bool.false_or] at hknows
    exact Option.isSome_iff_exists.mp hknows
  have hnone : before.findSome? (fun outer =>
      if (s.symbols.get? outer).any (·.name = name) then some outer
      else s.nestedType? outer name) = none := by
    rw [List.findSome?_eq_none_iff]
    intro outer hm
    have h := hbefore outer hm
    unfold knowsType at h
    revert h
    cases (s.symbols.get? outer).any (·.name = name) <;> simp
  unfold enclosingType?
  rw [hsplit, List.findSome?_append, hnone, List.findSome?_cons, hother, hnested]
  rfl

/-- What the types around a place do not know means the same as outside of all types. -/
theorem lookupType_eq_of_unknown
    (hunknown : ∀ outer ∈ s.enclosingTypes site, s.knowsType name outer = false)
    (houtside : s.enclosingTypes outside = []) :
    s.lookupType site name = s.lookupType outside name := by
  have hfar : s.enclosingType? outside name = none := by
    unfold enclosingType?
    rw [houtside]
    rfl
  unfold lookupType
  rw [enclosingType?_eq_none_iff.mpr hunknown, hfar]

theorem lookupType_of_enclosingType? (h : s.enclosingType? site name = some id) :
    s.lookupType site name = some id := by
  unfold lookupType
  rw [h]
  rfl

/-- If the search for a member ends on a type that is nested right inside, it is the type that is
    found there by its simple name. -/
theorem nestedType?_of_findMember {count : Option Nat} {depth : Nat}
    (hmember : s.findMember type name count depth = some id)
    (hid : s.symbols.isType id = true) (hdirect : id ∈ s.symbols.membersNamed type name) :
    s.nestedType? type name = some id := by
  have hd : depth ≤ qualifierLimit := by
    rw [findMember_eq] at hmember
    by_contra hdeep
    rw [if_neg hdeep] at hmember
    cases hmember
  have hfield : s.isFieldOrType id = true :=
    isFieldOrType_iff.mpr ((hasKind_of_isType hid).mono (by decide))
  have hfirst := ((findMember_eq_some_iff_of_isType hd hid).mp hmember).2
  rw [head?_fieldsNamed hdirect hfield] at hfirst
  obtain ⟨-, before, after, hsplit, hbefore⟩ := List.find?_eq_some_iff_append.mp hfirst
  refine List.find?_eq_some_iff_append.mpr ⟨hid, before, after, hsplit, fun m hm => ?_⟩
  -- What is no field or nested type is no nested type.
  cases htype : s.symbols.isType m with
  | false => rfl
  | true =>
    have hno := hbefore m hm
    rw [isFieldOrType_iff.mpr ((hasKind_of_isType htype).mono (by decide))] at hno
    cases hno

end

/-! ## By the simple name and behind the type -/

/-- At a place inside of a type let the search for a member of that type end on a type.

    If the type that was found is nested right inside, its simple name means a type too, and a
    written type of that name resolves to something. It means the same type if the type around is
    called otherwise and is the innermost one that knows the name.

    In general, if the type may be inherited, the simple name means a type exactly if one of the
    types around the place knows the name or the name means a type outside of all types. -/
theorem lookupType_of_findMember {lib : SymbolTable} {t : Tree} {root : NodeId}
    {imports : List String} {s : Script} (hlib : lib.Grown) (ht : t.Built)
    (hs : s = ofFile lib t root imports) {site declaration : NodeId} {type id : SymbolId}
    {name : String} (haround : declaration ∈ t.ancestors site)
    (hkind : t.isOneOf [.typeDeclaration] declaration = true)
    (htype : s.symbolOf? declaration = some type)
    (hmember : s.findMember type name none 0 = some id) (hid : s.symbols.isType id = true) :
    (id ∈ s.symbols.membersNamed type name →
      (∃ found, s.lookupType site name = some found ∧ s.symbols.isType found = true) ∧
      (∀ data, t.form? site = some (.reference .type data) → data.name? = some name →
        data.qualifier = none → ∀ receiver : NodeId → Id (Option SymbolId),
          (Id.run (s.resolveWith receiver site)).isUnresolved = false) ∧
      ((s.enclosingTypes site).find? (s.knowsType name) = some type →
        (s.symbols.get? type).any (·.name = name) = false →
        s.lookupType site name = some id)) ∧
    ∀ outside, s.enclosingTypes outside = [] →
      ((∃ found, s.lookupType site name = some found ∧ s.symbols.isType found = true) ↔
        (∃ outer ∈ s.enclosingTypes site, s.knowsType name outer = true) ∨
        ∃ found, s.lookupType outside name = some found ∧ s.symbols.isType found = true) := by
  have hsound : Binding.Sound s.tree root s.binding := by
    rw [hs]
    exact Binding.bindFile_sound hlib.consistent t root
  have hbuilt : s.tree.Built := by
    rw [hs]
    exact ht
  have htree : s.tree = t := by
    rw [hs]
    rfl
  -- A name that a type around the place knows means a type.
  have hknown : (∃ outer ∈ s.enclosingTypes site, s.knowsType name outer = true) →
      ∃ found, s.lookupType site name = some found ∧ s.symbols.isType found = true := by
    rintro ⟨outer, hm, hknows⟩
    cases hfound : s.enclosingType? site name with
    | none =>
      rw [enclosingType?_eq_none_iff.mp hfound outer hm] at hknows
      cases hknows
    | some found =>
      exact ⟨found, lookupType_of_enclosingType? hfound,
        isType_of_enclosingType? hsound hbuilt hfound⟩
  constructor
  · intro hdirect
    have hnested := nestedType?_of_findMember hmember hid hdirect
    have hmem : type ∈ s.enclosingTypes site := by
      unfold enclosingTypes
      rw [htree]
      exact List.mem_filterMap.mpr ⟨declaration, List.mem_filter.mpr ⟨haround, hkind⟩, htype⟩
    have hknows : s.knowsType name type = true := by
      unfold knowsType
      rw [hnested]
      exact Bool.or_true _
    obtain ⟨found, hfound, hisType⟩ := hknown ⟨type, hmem, hknows⟩
    refine ⟨⟨found, hfound, hisType⟩, fun data hform hname hq receiver => ?_,
      fun hfirst hother => ?_⟩
    · have hsymbol : (Id.run (s.resolveWith receiver site)).symbol? = some found := by
        rw [symbol?_resolveWith, lookupWithin, run_lookupVia_type (htree ▸ hform) hname hq, hfound]
      rw [Bool.eq_false_iff]
      intro hno
      rw [Resolution.isUnresolved_iff.mp hno] at hsymbol
      cases hsymbol
    · refine lookupType_of_enclosingType? ?_
      rw [enclosingType?_of_innermost hfirst hother, hnested]
  · intro outside houtside
    by_cases hknows : ∃ outer ∈ s.enclosingTypes site, s.knowsType name outer = true
    · exact iff_of_true (hknown hknows) (.inl hknows)
    · have hunknown : ∀ outer ∈ s.enclosingTypes site, s.knowsType name outer = false :=
        fun outer hm => Bool.eq_false_iff.mpr fun h => hknows ⟨outer, hm, h⟩
      rw [lookupType_eq_of_unknown hunknown houtside, or_iff_right hknows]

/-! ## A nested type of its own and an inherited one -/

/-- A file with a class `Base` that has a nested class `Inner`, and a class `Sub` under it that has
    a nested class `Own` and fields of the types `Own` and `Inner`. -/
def heirsTree : Tree :=
  .ofNodes
    [(.identifier "Inner", .none),
      (.typeDecl ⟨.classType, some 0, [], [], none⟩, .none),
      (.classBody [some 1], .none),
      (.identifier "Base", .none),
      (.typeDecl ⟨.classType, some 3, [], [], some 2⟩, .none),
      (.identifier "Own", .none),
      (.typeDecl ⟨.classType, some 5, [], [], none⟩, .none),
      (.reference .type ⟨none, some "Own", default⟩, .none),
      (.identifier "a", .none),
      (.variableLike .field ⟨some 8, some 7, none, false⟩, .none),
      (.reference .type ⟨none, some "Inner", default⟩, .none),
      (.identifier "b", .none),
      (.variableLike .field ⟨some 11, some 10, none, false⟩, .none),
      (.reference .type ⟨none, some "Base", default⟩, .none),
      (.classBody [some 6, some 9, some 12], .none),
      (.identifier "Sub", .none),
      (.typeDecl ⟨.classType, some 15, [some 13], [], some 14⟩, .none),
      (.sourceFile ⟨"heirs", none, [], [some 4, some 16]⟩, .none)]

/-- The file without a library. -/
def heirs : Script := ofFile .empty heirsTree 17 []

theorem built_heirsTree : heirsTree.Built := Tree.built_ofNodes _

/-- The class `Sub` is around both written types. Behind it both names mean the nested classes, of
    which `Sub` knows its own only. -/
theorem heirs_facts :
    (16 ∈ heirsTree.ancestors 7 ∧ 16 ∈ heirsTree.ancestors 10 ∧
      heirsTree.stepsUp 3 10 = some 16 ∧ heirsTree.isOneOf [.typeDeclaration] 16 = true ∧
      heirs.symbolOf? 16 = some 3) ∧
    (heirs.enclosingTypes 7 = [3] ∧ heirs.enclosingTypes 10 = [3] ∧
      heirs.enclosingTypes 17 = []) ∧
    (heirsTree.form? 7 = some (.reference .type ⟨none, some "Own", default⟩) ∧
      heirs.findMember 3 "Own" none 0 = some 4 ∧ heirs.symbols.isType 4 = true ∧
      4 ∈ heirs.symbols.membersNamed 3 "Own" ∧ heirs.knowsType "Own" 3 = true ∧
      (heirs.symbols.get? 3).any (·.name = "Own") = false) ∧
    heirs.findMember 3 "Inner" none 0 = some 2 ∧ heirs.symbols.isType 2 = true ∧
      heirs.knowsType "Inner" 3 = false ∧ heirs.lookupType 17 "Inner" = none := by
  decide +kernel

/-- Inside of `Sub` the name `Own` means the same class as behind it, while `Inner`, which `Sub`
    inherits, means none. -/
theorem lookupType_heirs :
    (heirs.findMember 3 "Own" none 0 = some 4 ∧ heirs.lookupType 7 "Own" = some 4 ∧
      ∀ receiver : NodeId → Id (Option SymbolId),
        (Id.run (heirs.resolveWith receiver 7)).isUnresolved = false) ∧
    heirs.findMember 3 "Inner" none 0 = some 2 ∧
      ¬∃ found, heirs.lookupType 10 "Inner" = some found ∧ heirs.symbols.isType found = true := by
  obtain ⟨⟨hnear, hfar, -, hkind, hsub⟩, ⟨honly, honly', houtside⟩,
    ⟨hform, hown, hisType, hdirect, hknows, hother⟩, hinner, hisType', hunknown, hnone⟩ :=
    heirs_facts
  have hs : heirs = ofFile .empty heirsTree 17 [] := rfl
  obtain ⟨hfound, -⟩ :=
    lookupType_of_findMember .start built_heirsTree hs hnear hkind hsub hown hisType
  obtain ⟨-, hresolved, hsame⟩ := hfound hdirect
  obtain ⟨-, hinherited⟩ :=
    lookupType_of_findMember .start built_heirsTree hs hfar hkind hsub hinner hisType'
  have hfirst : (heirs.enclosingTypes 7).find? (heirs.knowsType "Own") = some 3 := by
    rw [honly, List.find?_cons_of_pos hknows]
  refine ⟨⟨hown, hsame hfirst hother, fun receiver => hresolved _ hform rfl rfl receiver⟩, hinner,
    ?_⟩
  rw [hinherited 17 houtside, honly', hnone]
  rintro (⟨outer, hm, h⟩ | ⟨found, hfound, -⟩)
  · rw [List.mem_singleton.mp hm, hunknown] at h
    cases h
  · cases hfound

/-! ## A place too deep inside of a type -/

/-- A library with a class `C` that has a nested class `Own`. -/
def ownLibrary : SymbolTable :=
  ((SymbolTable.empty.addType "C" .none []).1.addNestedType 1 "Own" .none none).1

/-- What the file below has besides a method with a name in so many pairs of parentheses. -/
def deepNodes (n : Nat) : List Tree.Addition :=
  [⟨.classBody [some (n + 1)], default, .none⟩, ⟨.identifier "C", default, .none⟩,
    ⟨.typeDecl ⟨.classType, some (n + 3), [], [], some (n + 2)⟩, default, .none⟩,
    ⟨.sourceFile ⟨"deep", none, [], [some (n + 4)]⟩, default, .none⟩]

/-- The file that declares `C` again, around that method. -/
def deepTree (n : Nat) : Tree := (Tree.nestedTree n).grow (deepNodes n)

/-- The file on top of the library. -/
def deep (n : Nat) : Script := ofFile ownLibrary (deepTree n) (n + 5) []

section

open Binding

variable {n i : Nat}

theorem size_deepTree (n : Nat) : (deepTree n).size = n + 6 := by
  rw [deepTree, Tree.size_grow, Tree.size_nestedTree]
  rfl

theorem form?_deepTree_of_lt (hi : i < n + 2) :
    (deepTree n).form? i = (Tree.nestedTree n).form? i :=
  ((Tree.built_nestedTree n).keeps_grow _).form? i (by rwa [Tree.size_nestedTree])

theorem form?_deepTree (n : Nat) :
    (deepTree n).form? (n + 2) = some (.classBody [some (n + 1)]) ∧
      (deepTree n).form? (n + 3) = some (.identifier "C") ∧
      (deepTree n).form? (n + 4) =
        some (.typeDecl ⟨.classType, some (n + 3), [], [], some (n + 2)⟩) ∧
      (deepTree n).form? (n + 5) = some (.sourceFile ⟨"deep", none, [], [some (n + 4)]⟩) := by
  have h : ∀ (k : Nat) (a : Tree.Addition), (deepNodes n)[k]? = some a → a.form ≠ .unknown →
      (deepTree n).form? (n + 2 + k) = some a.form := by
    intro k a ha hne
    rw [← Tree.size_nestedTree n]
    exact (Tree.built_nestedTree n).form?_grow ha hne
  exact ⟨h 0 _ rfl nofun, h 1 _ rfl nofun, h 2 _ rfl nofun, h 3 _ rfl nofun⟩

/-- Nothing inside the class is bound. -/
theorem bindWithin_deepTree (n : Nat) (package : SymbolId) (budget : Nat) (outer : Option SymbolId)
    (b : Binding) (hi : i ≤ n + 1) :
    bindWithin (deepTree n) package budget outer b (some i) = b := by
  induction budget generalizing i with
  | zero => rfl
  | succ budget ih =>
    have hform := form?_deepTree_of_lt (Nat.lt_succ_of_le hi)
    rw [bindWithin, hform]
    cases i with
    | zero =>
      rw [Tree.form?_nestedTree]
      rfl
    | succ i =>
      rcases Nat.lt_or_eq_of_le (Nat.le_of_succ_le_succ hi) with hlt | rfl
      · rw [Tree.form?_nestedTree_succ hlt]
        exact ih (by omega)
      · rw [Tree.form?_nestedTree_last] at hform ⊢
        have hnameless : (deepTree i).declaredName? (i + 1) = none := by
          unfold Tree.declaredName?
          rw [hform]
          rfl
        show List.foldl _ (b.declare (deepTree i) (i + 1) .method outer _) _ = b
        unfold declare
        rw [hnameless]
        exact ih (by omega)

/-- What the library says about the names in the file. -/
theorem ownLibrary_facts :
    (Dotted.enclosing "" = [] ∧ ownLibrary.package? "" = some 0) ∧
      ownLibrary.type? (Dotted.within "" "C") = some 1 ∧
      (ownLibrary.membersNamed 1 "Own" = [2] ∧ ownLibrary.isType 2 = true) ∧
      ownLibrary.type? (Dotted.within "" "Own") = none ∧ ownLibrary.package? "Own" = none := by
  decide +kernel

/-- The library has the default package already. -/
theorem addPackage_ownLibrary : ownLibrary.addPackage "" = (ownLibrary, 0) := by
  obtain ⟨⟨hnone, hsome⟩, -⟩ := ownLibrary_facts
  rw [SymbolTable.addPackage_eq, hnone]
  show ownLibrary.ensurePackage none "" = _
  unfold SymbolTable.ensurePackage
  rw [hsome]

/-- A type outside of all types that is there already is found and not added. -/
theorem declareNode_of_known {t : Tree} {b : Binding} {data : TypeDecl} {name : String}
    {id : SymbolId} (package : SymbolId) (i : NodeId)
    (hname : data.name.bind t.textAt? = some name)
    (hfound : b.symbols.type? (Dotted.within b.filePackage name) = some id) :
    b.declareNode t package none i (.typeDecl data) =
      ({ b with declared := (i, id) :: b.declared }, some id) := by
  show ((b.declareType t package none i data).1, (b.declareType t package none i data).2.or none) =
    _
  unfold declareType
  rw [hname]
  dsimp only
  unfold SymbolTable.ensureType
  rw [hfound]
  rfl

/-- The class of the file is that of the library, and there is no more to be bound. -/
theorem bindFile_deepTree (n : Nat) :
    (ofLibraries ownLibrary).bindFile (deepTree n) (n + 5) =
      ⟨ownLibrary, [(n + 4, 1)], [], "", some (n + 5)⟩ := by
  obtain ⟨hbody, hname, hclass, hfile⟩ := form?_deepTree n
  have hsize := size_deepTree n
  have hinside := fun budget b =>
    bindWithin_deepTree n 0 budget (some 1) b (Nat.le_refl (n + 1))
  -- From here on the forms of the nodes are all that matters of the tree.
  generalize deepTree n = t at *
  have htext : (some (n + 3)).bind t.textAt? = some "C" := by
    rw [Option.bind_some, Tree.textAt?, hname]
  have hopen : (ofLibraries ownLibrary).openFile t (n + 5) ⟨"deep", none, [], [some (n + 4)]⟩ =
      (⟨ownLibrary, [], [], "", some (n + 5)⟩, 0) := by
    show (Binding.mk (ownLibrary.addPackage "").1 [] [] "" (some (n + 5)),
      (ownLibrary.addPackage "").2) = _
    rw [addPackage_ownLibrary]
  have hknown : ownLibrary.type? (Dotted.within "" "C") = some 1 := ownLibrary_facts.2.1
  have hnamed : ∀ b, bindWithin t 0 (n + 5) (some 1) b (some (n + 3)) = b := by
    intro b
    rw [bindWithin, hname]
    rfl
  have hbodied : ∀ b, bindWithin t 0 (n + 5) (some 1) b (some (n + 2)) = b := by
    intro b
    rw [bindWithin, hbody]
    exact hinside (n + 4) b
  rw [bindFile_of_file hfile, hsize, hopen, List.foldl_cons, List.foldl_nil, bindWithin, hclass]
  dsimp only
  rw [declareNode_of_known 0 (n + 4) htext hknown]
  show [some (n + 3), some (n + 2)].foldl (bindWithin t 0 (n + 5) (some 1)) _ = _
  rw [List.foldl_cons, hnamed, List.foldl_cons, hbodied]
  rfl

theorem deep_eq (n : Nat) :
    deep n = ⟨deepTree n, ⟨ownLibrary, [(n + 4, 1)], [], "", some (n + 5)⟩, []⟩ := by
  unfold deep ofFile
  rw [bindFile_deepTree]

theorem tree_deep (n : Nat) : (deep n).tree = deepTree n := by rw [deep_eq]

theorem symbols_deep (n : Nat) : (deep n).symbols = ownLibrary := by
  rw [deep_eq]
  rfl

/-- Behind `C` the name means the nested class. -/
theorem findMember_deep (n : Nat) : (deep n).findMember 1 "Own" none 0 = some 2 := by
  obtain ⟨-, -, ⟨hmembers, htype⟩, -⟩ := ownLibrary_facts
  rw [← symbols_deep n] at hmembers htype
  have hfield : (deep n).isFieldOrType 2 = true :=
    isFieldOrType_iff.mpr ((hasKind_of_isType htype).mono (by decide))
  refine (findMember_eq_some_iff_of_isType (Nat.zero_le _) htype).mpr ⟨.inl rfl, ?_⟩
  rw [head?_fieldsNamed (hmembers ▸ List.mem_singleton_self 2) hfield, hmembers,
    List.find?_cons_of_pos hfield]

/-- Up to the body of the class each node is in the next one. -/
theorem parent?_deepTree (hi : i ≤ n + 1) : (deepTree n).parent? i = some (i + 1) := by
  have hchain : i ≤ n → (Tree.nestedTree n).parent? i = some (i + 1) := Tree.parent?_nestedTree
  simp only [deepTree, deepNodes, Tree.grow_cons, Tree.grow_nil, Tree.parent?_add, Tree.size_add,
    Tree.size_nestedTree, Form.children, Form.single]
  grind

theorem parent?_body_deepTree (n : Nat) : (deepTree n).parent? (n + 2) = some (n + 4) := by
  simp [deepTree, deepNodes, Tree.parent?_add, Tree.size_add,
    Tree.size_nestedTree, Form.children, Form.single]

theorem stepsUp_deepTree {k : Nat} (h : i + k ≤ n + 2) :
    (deepTree n).stepsUp k i = some (i + k) := by
  induction k generalizing i with
  | zero => rfl
  | succ k ih =>
    rw [Tree.stepsUp, parent?_deepTree (by omega), Option.bind_some, ih (by omega)]
    congr 1
    omega

/-- The class is around the name. -/
theorem stepsUp_class_deepTree (n : Nat) : (deepTree n).stepsUp (n + 3) 0 = some (n + 4) := by
  rw [Tree.stepsUp_succ, stepsUp_deepTree (by omega), Nat.zero_add, Option.bind_some,
    parent?_body_deepTree]

/-- The way up from the name ends before it comes to the class. -/
theorem enclosingTypes_deep (hn : ancestorLimit ≤ n) : (deep n).enclosingTypes 0 = [] := by
  have hnone :
      ((deepTree n).ancestors 0).filter ((deepTree n).isOneOf [.typeDeclaration]) = [] := by
    rw [List.filter_eq_nil_iff]
    intro x hx
    obtain ⟨k, hk⟩ := List.mem_iff_getElem?.mp hx
    rw [Tree.getElem?_ancestors] at hk
    split at hk
    case isFalse => cases hk
    next hlt =>
      rw [stepsUp_deepTree (by omega), Nat.zero_add] at hk
      obtain rfl := Option.some.inj hk
      have hkind : (deepTree n).kind? (k + 1) = some .parenthesized := by
        rw [deepTree, ((Tree.built_nestedTree n).keeps_grow _).kind?
          (by rw [Tree.size_nestedTree]; omega), Tree.kind?_nestedTree (by omega) (by omega)]
      rw [Tree.isOneOf_singleton_iff, hkind]
      decide
  unfold enclosingTypes
  rw [tree_deep, hnone]
  rfl

/-- There the name means nothing. -/
theorem lookupType_deep (hn : ancestorLimit ≤ n) : (deep n).lookupType 0 "Own" = none := by
  obtain ⟨-, hname, hclass, hfile⟩ := form?_deepTree n
  have henclosing : (deep n).enclosingType? 0 "Own" = none := by
    unfold enclosingType?
    rw [enclosingTypes_deep hn]
    rfl
  have hfile? : (deep n).file? = some ⟨"deep", none, [], [some (n + 4)]⟩ := by
    unfold file?
    rw [deep_eq]
    dsimp only
    rw [Option.bind_some, hfile]
  have hfiled : (deep n).fileType? "Own" = none := by
    have hdeclared : (deepTree n).declaredName? (n + 4) = some "C" := by
      rw [Tree.declaredName?_of_typeDecl hclass, Option.bind_some, Tree.textAt?, hname]
    unfold fileType? statements
    rw [hfile?, tree_deep]
    simp [hdeclared]
  have himports : (deep n).imports = [] := by
    unfold imports
    rw [hfile?]
    rfl
  obtain ⟨-, -, -, htypes, hpackages⟩ := ownLibrary_facts
  unfold lookupType importedType? packageType? onDemandType? implicitType?
  rw [henclosing, hfiled, himports, symbols_deep, hpackages]
  rw [deep_eq]
  dsimp only
  rw [htypes]
  rfl

end

/-- Inside of a type a name may mean nothing although it means a nested type behind that type: if
    the nested type is inherited, even near by, and if the place is too deep inside, even for a
    nested type of its own. -/
theorem name_of_nested_type_means_nothing :
    (¬∀ (lib : SymbolTable) (t : Tree) (root : NodeId) (imports : List String)
      (site declaration : NodeId) (type : SymbolId) (name : String) (id : SymbolId),
      lib.Grown → t.Built → (∃ steps > 0, t.stepsUp steps site = some declaration) →
      t.isOneOf [.typeDeclaration] declaration = true →
      (ofFile lib t root imports).symbolOf? declaration = some type →
      (ofFile lib t root imports).findMember type name none 0 = some id →
      (ofFile lib t root imports).symbols.isType id = true →
      ∃ found, (ofFile lib t root imports).lookupType site name = some found ∧
        (ofFile lib t root imports).symbols.isType found = true) ∧
    (16 ∈ heirsTree.ancestors 10 ∧ heirs.findMember 3 "Inner" none 0 = some 2 ∧
      heirs.lookupType 10 "Inner" = none) ∧
    ((deepTree 512).stepsUp 515 0 = some 516 ∧ (deep 512).symbolOf? 516 = some 1 ∧
      2 ∈ (deep 512).symbols.membersNamed 1 "Own" ∧
      (deep 512).findMember 1 "Own" none 0 = some 2 ∧ (deep 512).lookupType 0 "Own" = none) := by
  obtain ⟨⟨-, hfar, hsteps, hkind, hsub⟩, ⟨-, honly', houtside⟩, -, hinner, hisType, hunknown,
    hnone⟩ := heirs_facts
  have hnothing : heirs.lookupType 10 "Inner" = none := by
    rw [lookupType_eq_of_unknown (fun outer hm => ?_) houtside, hnone]
    rw [honly'] at hm
    rw [List.mem_singleton.mp hm, hunknown]
  refine ⟨fun hall => ?_, ⟨hfar, hinner, hnothing⟩, stepsUp_class_deepTree 512, ?_, ?_,
    findMember_deep 512, lookupType_deep (by decide)⟩
  · obtain ⟨found, hfound, -⟩ := hall .empty heirsTree 17 [] 10 16 3 "Inner" 2 .start
      built_heirsTree ⟨3, by decide, hsteps⟩ hkind hsub hinner hisType
    have hfound' : heirs.lookupType 10 "Inner" = some found := hfound
    rw [hnothing] at hfound'
    cases hfound'
  · rw [deep_eq]
    rfl
  · rw [symbols_deep, ownLibrary_facts.2.2.1.1]
    exact List.mem_singleton_self 2

end ScriptCheck.Script
