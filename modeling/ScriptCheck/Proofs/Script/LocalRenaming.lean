/-
  Renaming a local variable.

  A variable of a block, together with the names that stand for it, can be given
  any fresh name: every reference of the file resolves to what it resolved to
  before (`resolve_renameWhere`). Nothing is captured, as nothing else has the
  name, and nothing is lost, as a name that stands for the variable comes after it
  in its block and every scope on the way there has nothing under the new name.

  The variable must not be called `this`, as it is by a type body that is directly
  part of it, and it must not depend on the limit of depth which names stand for
  it. Two files show that references can resolve to something else otherwise.
-/
import ScriptCheck.Proofs.Script.RenamedLookups

namespace ScriptCheck.Script

section

variable {s : Script} {d r root : Nat}

/-- What stands for a variable of a block comes after it in that block. -/
theorem seenInBlock_of_standsFor (hs : Binding.Sound s.tree root s.binding)
    (ht : s.tree.WellShaped) (hc : s.Covered) (hkind : s.tree.kind? d = some .variableDeclaration)
    {scope : NodeId} {statements : List Part}
    (hscope : s.tree.form? scope = some (.block statements)) (hm : some d ∈ statements)
    (hd : s.Renamable d) (hr : s.standsFor d r = true) : s.SeenInBlock d r := by
  obtain ⟨hplain, id, hid, hfound⟩ := standsFor_iff.mp hr
  obtain ⟨data, hform, hq⟩ := Tree.isPlainValue_iff.mp hplain
  obtain ⟨old, hold⟩ : ∃ old, data.name? = some old := by
    cases hname : data.name? with
    | some old => exact ⟨old, rfl⟩
    | none =>
      have hnone : s.top.lookup r = none := lookup_levelAbove_unnamed hform hname
      rw [hnone] at hfound
      cases hfound
  have hvalue : s.tree.IsValueName r old := ⟨data, hform, hq, hold⟩
  rcases seenFrom_of_lookup hs ht hc hvalue hfound hid (Tree.isOneOf_singleton_iff.mpr hkind)
    (Tree.statementsOf_block hscope ▸ hm) with hseen | hheader | ⟨rfl, body, hbody, hk, hp⟩
  -- Seen from the statements, from the imports of a file, or as `this` in a type body.
  · obtain ⟨inner, hpath, _, hlast, _⟩ := hseen
    exact ⟨scope, statements, inner, hscope, hpath, hlast.mem⟩
  · obtain ⟨_, file, _, hfile, _⟩ := hheader
    rw [hscope] at hfile
    cases hfile
  · exact absurd hp (hd.neverThis r body hr hvalue hbody hk)

end

/-- A local variable can be renamed: if its name and the names that stand for it get a fresh name,
    and the file is bound anew on top of the same library, every reference resolves to what it
    resolved to before. -/
theorem resolve_renameWhere {lib : SymbolTable} (hlib : lib.Grown)
    {additions : List Tree.Addition} (ht : (Tree.ofAdditions additions).WellShaped)
    {root d scope : NodeId} {imports : List String} {statements : List Part} {name : String}
    (hkind : (Tree.ofAdditions additions).kind? d = some .variableDeclaration)
    (hscope : (Tree.ofAdditions additions).form? scope = some (.block statements))
    (hm : some d ∈ statements)
    (hd : (ofFile lib (.ofAdditions additions) root imports).Renamable d)
    (hfresh : (ofFile lib (.ofAdditions additions) root imports).Fresh name) (r : NodeId) :
    (ofFile lib (.ofAdditions (Tree.renameWhere
        ((ofFile lib (.ofAdditions additions) root imports).renames d) name additions))
      root imports).resolve r =
    (ofFile lib (.ofAdditions additions) root imports).resolve r := by
  let s := ofFile lib (.ofAdditions additions) root imports
  have hs : Binding.Sound s.tree root s.binding := Binding.bindFile_sound hlib.consistent _ root
  have hc : s.Covered := covered_ofFile hlib ht
  have hb : s.binding.Bound := .file (.libraries hlib) _ root
  have htree : s.tree.RenamesVariable
      (.ofAdditions (Tree.renameWhere (s.renames d) name additions)) (s.renames d) name d :=
    renamesVariable_of_renamed ht hkind (Tree.renamed_ofAdditions (s.renames d) name additions)
  have h : s.Renaming (ofFile lib (.ofAdditions (Tree.renameWhere (s.renames d) name additions))
      root imports) root name d :=
    { renames := ⟨htree, Binding.bindFile_renamed hlib ht.built htree root, rfl⟩
      sound := hs
      wellShaped := ht
      filed := hb.steps.induct SymbolTable.filed_empty SymbolTable.Filed.step
      fresh := hfresh
      seen := fun r hr => seenInBlock_of_standsFor hs ht hc hkind hscope hm hd hr }
  exact h.resolve hd r

/-! ## Files with renamed variables -/

/-- Additions without text positions and modifiers. -/
def plainNodes (forms : List Form) : List Tree.Addition :=
  forms.map fun form => ⟨form, default, .none⟩

/-- A block that declares `x`, uses it in the value of a second `x` in a block of its own, which
    uses that, and then uses the first again. -/
def shadowedNodes : List Tree.Addition :=
  plainNodes
    [.identifier "x",
      .reference .value ⟨none, some "x", default⟩,
      .identifier "x",
      .variableLike .localVariable ⟨some 2, none, some 1, false⟩,
      .reference .value ⟨none, some "x", default⟩,
      .block [some 3, some 4],
      .reference .value ⟨none, some "x", default⟩,
      .variableLike .localVariable ⟨some 0, none, none, false⟩,
      .block [some 7, some 5, some 6],
      .sourceFile ⟨"shadowed", none, [], [some 8]⟩]

/-- The file without a library. -/
def shadowed : Script := ofFile .empty (.ofAdditions shadowedNodes) 9 []

theorem shadowed_renamable : shadowed.Renamable 7 where
  neverThis := by
    intro r body _ _ _ hbody
    have hnone : ∀ i < shadowed.tree.size, shadowed.tree.kind? i ≠ some .classBody := by
      decide +kernel
    exact absurd hbody (hnone body (Tree.lt_size_of_kind? hbody))
  anyDepth := by decide +kernel

/-- Its outer `x` can be called `y` in three places, and nothing resolves to anything else then. -/
theorem resolve_renameWhere_shadowed :
    (List.range 10).filter (shadowed.renames 7) = [0, 1, 6] ∧ shadowed.resolve 1 = .accessible 1 ∧
      shadowed.resolve 4 = .accessible 2 ∧
      ∀ r, (ofFile .empty (.ofAdditions (Tree.renameWhere (shadowed.renames 7) "y" shadowedNodes))
        9 []).resolve r = shadowed.resolve r :=
  ⟨by decide +kernel, by decide +kernel, by decide +kernel,
    resolve_renameWhere .start ((Tree.built_ofAdditions _).wellShaped (by decide +kernel))
      (show shadowed.tree.kind? 7 = some .variableDeclaration from rfl)
      (show shadowed.tree.form? 8 = some (.block [some 7, some 5, some 6]) from rfl)
      List.mem_cons_self shadowed_renamable (by decide +kernel)⟩

/-- A block with a variable that has a type body for its value, which holds a `this`. -/
def selfNodes : List Tree.Addition :=
  plainNodes
    [.identifier "x",
      .reference .value ⟨none, some "this", default⟩,
      .classBody [some 1],
      .variableLike .localVariable ⟨some 0, none, some 2, false⟩,
      .block [some 3],
      .sourceFile ⟨"self", none, [], [some 4]⟩]

/-- The file without a library. -/
def selfNamed : Script := ofFile .empty (.ofAdditions selfNodes) 5 []

/-- A block that declares `x`, and a type over `Base` with the name `x.n` and so on in its body,
    with as many dots as lookups can follow. -/
def dottedNodes : List Tree.Addition :=
  plainNodes <|
    [.identifier "x",
      .variableLike .localVariable ⟨some 0, none, none, false⟩,
      .reference .type ⟨none, some "Base", default⟩,
      .identifier "C",
      .reference .value ⟨none, some "x", default⟩] ++
    (List.range 63).map (fun i => .reference .value ⟨some (i + 4), some "n", default⟩) ++
    [.classBody [some 67],
      .typeDecl ⟨.classType, some 3, [some 2], [], some 68⟩,
      .block [some 1, some 69],
      .sourceFile ⟨"dotted", none, [], [some 70]⟩]

/-- A library with a type `x` that holds a type `n` under it, and a type `Base` that holds an
    `x`. -/
def dottedLibrary : SymbolTable :=
  let t := (SymbolTable.empty.addType "x" .none []).1
  let t := (t.addNestedType 1 "n" .none none).1
  let t := (t.addType "x.n" .none ["x"]).1
  let t := (t.addType "Base" .none []).1
  (t.addNestedType 4 "x" .none none).1

theorem dottedLibrary_grown : dottedLibrary.Grown :=
  ((((SymbolTable.Grown.start.type _ _ _).nestedType _ _ _ _).type _ _ _).type _ _ _).nestedType
    _ _ _ _

/-- The file on top of that library. -/
def dotted : Script := ofFile dottedLibrary (.ofAdditions dottedNodes) 71 []

/-- In the first file `this` resolves to the variable, and to nothing under another name. In the
    second a name that resolves to a member of `Base` is the variable where it is looked up too deep
    for its type to have supertypes, and it is the library's type there once the variable is called
    `y`. -/
theorem renameWhere_changes_resolution :
    ((Tree.ofAdditions selfNodes).WellShaped ∧ selfNamed.Fresh "y" ∧
      (∀ i < selfNamed.tree.size, selfNamed.tree.kind? i ≠ some .importDeclaration) ∧
      selfNamed.tree.kind? 3 = some .variableDeclaration ∧
      selfNamed.tree.form? 4 = some (.block [some 3]) ∧
      selfNamed.resolve 1 = .accessible 1 ∧
      (ofFile .empty (.ofAdditions (Tree.renameWhere (selfNamed.renames 3) "y" selfNodes))
        5 []).resolve 1 = .unresolved) ∧
    ((Tree.ofAdditions dottedNodes).WellShaped ∧ dotted.Fresh "y" ∧ dottedLibrary.Grown ∧
      (∀ i < dotted.tree.size, dotted.tree.kind? i ≠ some .importDeclaration) ∧
      dotted.tree.kind? 1 = some .variableDeclaration ∧
      dotted.tree.form? 70 = some (.block [some 1, some 69]) ∧
      dotted.resolve 67 = .unresolved ∧
      (ofFile dottedLibrary (.ofAdditions (Tree.renameWhere (dotted.renames 1) "y" dottedNodes))
        71 []).resolve 67 = .accessible 2) := by
  refine ⟨⟨(Tree.built_ofAdditions _).wellShaped ?_, ?_, ?_, rfl, rfl, ?_, ?_⟩,
    ⟨(Tree.built_ofAdditions _).wellShaped ?_, ?_, dottedLibrary_grown, ?_, ?_, ?_, ?_, ?_⟩⟩
  all_goals decide +kernel

end ScriptCheck.Script
