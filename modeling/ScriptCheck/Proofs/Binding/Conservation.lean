/-
  Binding adds to a library and changes nothing about it.

  Binding a file keeps all that the table of the library answers
  (`SymbolTable.KeptBy`), whatever the tree is like and although the file may
  declare types of the library again (`keptBy_bindFile`).

  What binding adds is placed by the nesting of types (`Placed`): a method or
  field belongs to the innermost named type around it, and variables and
  parameters belong to nothing.
-/
import ScriptCheck.Proofs.Binding.BackReferences
import ScriptCheck.Proofs.Symbol.Frame

namespace ScriptCheck

namespace Binding

section

variable {lib : SymbolTable} {t : Tree} {b c : Binding} {package : SymbolId}
  {outer : Option SymbolId} {i root : Nat} {id : SymbolId} {form : Form} {s : Symbol}
  {result : Binding × Option SymbolId}

/-- Binding a node keeps what the table answers. -/
theorem Entered.keptBy (h : Entered b t package outer i form result) :
    b.symbols.KeptBy result.1.symbols := by
  cases h with
  | type hname => exact SymbolTable.keptBy_ensureType _ _ _ _ _ _
  | member arity hkind hne hname => exact SymbolTable.keptBy_push _ _
  | implicit => exact SymbolTable.keptBy_push _ _
  | nothing => exact SymbolTable.KeptBy.refl _

/-- Binding a file keeps what the table answers, whatever the tree is. -/
theorem keptBy_bindFile (b : Binding) (t : Tree) (root : NodeId) :
    b.symbols.KeptBy (b.bindFile t root).symbols := by
  rcases bindFile_cases b t root with ⟨file, hfile⟩ | hsame
  · refine (bindFile_induct hfile (fun c => b.symbols.KeptBy c.symbols) (fun _ _ _ => True)
      (fun _ _ => trivial) ?_ (SymbolTable.keptBy_addPackage b.symbols _) fun _ _ => trivial).1
    intro c outer i form result _ hent hc _
    exact ⟨hc.trans hent.keptBy, fun _ _ => trivial⟩
  · rw [hsame]
    exact SymbolTable.KeptBy.refl _

/-! ## Owners of what is added -/

/-- The owner of what a node declares is the symbol of the innermost named type around the node,
    and there is none if no named type is around it. -/
def OwnedAround (b : Binding) (t : Tree) (root i : NodeId) (owner : Option SymbolId) : Prop :=
  match t.typesAround root i with
  | [] => owner = none
  | type :: _ => ∃ id, b.symbolOf? type = some id ∧ owner = some id

/-- Where a symbol belongs; `owned` says which owner is right for what a node declares. -/
structure PlacedBy (owned : NodeId → Option SymbolId → Prop) (t : Tree) (root : NodeId)
    (s : Symbol) : Prop where
  /-- Methods and fields are declared by a node of the file and belong where it is. -/
  member : s.kind = .method ∨ s.kind = .field →
    ∃ i, s.declaration = some i ∧ t.Reached root i ∧ DeclaredBy t i s ∧ owned i s.owner
  /-- Local variables and parameters belong to nothing. -/
  unowned : s.kind = .variableSymbol ∨ s.kind = .parameter → s.owner = none

/-- Every symbol is one of the library or belongs where the nesting of types puts it. -/
def Placed (lib : SymbolTable) (t : Tree) (root : NodeId) (b : Binding) : Prop :=
  ∀ id s, b.symbols.get? id = some s →
    lib.get? id = some s ∨ PlacedBy (b.Around t root) t root s

theorem PlacedBy.imp {owned owned' : NodeId → Option SymbolId → Prop} (h : PlacedBy owned t root s)
    (himp : ∀ i owner, owned i owner → owned' i owner) : PlacedBy owned' t root s where
  member hk := by
    obtain ⟨i, hd, hr, hdecl, ho⟩ := h.member hk
    exact ⟨i, hd, hr, hdecl, himp i s.owner ho⟩
  unowned := h.unowned

/-- Packages and types are placed by other means. -/
theorem placedBy_of_named {owned : NodeId → Option SymbolId → Prop}
    (hk : s.kind = .package ∨ s.kind = .type) : PlacedBy owned t root s where
  member hmember := by
    rcases hk with hk | hk <;> rw [hk] at hmember <;> exact absurd hmember (by decide)
  unowned hvariable := by
    rcases hk with hk | hk <;> rw [hk] at hvariable <;> exact absurd hvariable (by decide)

/-- The frame: what was placed stays where it is, so new symbols are all that matters. -/
theorem Placed.grow (hp : Placed lib t root b) (he : b.Extends c)
    (hnew : ∀ id s, c.symbols.get? id = some s →
      b.symbols.get? id = some s ∨ PlacedBy (c.Around t root) t root s) :
    Placed lib t root c := by
  intro id s hget
  rcases hnew id s hget with hold | hplaced
  · exact (hp id s hold).imp_right fun h => h.imp fun _ _ ha => ha.mono he
  · exact .inr hplaced

/-- A method or field belongs to the type that the walk is in, a variable to nothing. -/
theorem placedBy_memberSymbol (hr : t.Reached root i) (ha : b.Around t root i outer)
    (hform : t.form? i = some form) {kind : SymbolKind} (hkind : form.symbolKind? = some kind)
    {name : String} (hname : t.declaredName? i = some name) (arity : Option Arity)
    (id : SymbolId) :
    PlacedBy (b.Around t root) t root { memberSymbol t outer i name kind arity with id := id } := by
  constructor
  case member =>
    intro hk
    have howner : (memberSymbol t outer i name kind arity).owner = outer := if_pos hk
    exact ⟨i, rfl, hr, declaredBy_memberSymbol hform hkind hname arity id, howner.symm ▸ ha⟩
  case unowned =>
    intro hk
    refine if_neg fun hmember => ?_
    have hk' : kind = .variableSymbol ∨ kind = .parameter := hk
    rcases hk' with rfl | rfl <;> exact absurd hmember (by decide)

/-- The parameter `it` belongs to nothing. -/
theorem placedBy_implicitSymbol {owned : NodeId → Option SymbolId → Prop} :
    PlacedBy owned t root { implicitSymbol i with id := id } where
  member hk := by
    have hk' : SymbolKind.parameter = .method ∨ SymbolKind.parameter = .field := hk
    exact absurd hk' (by decide)
  unowned _ := rfl

/-- Binding a node places what it adds. -/
theorem Placed.entered (hp : Placed lib t root b) (hst : Stands t root b outer (some i))
    (hform : t.form? i = some form) (hent : Entered b t package outer i form result) :
    Placed lib t root result.1 := by
  obtain ⟨hr, ha⟩ := hst i rfl (Tree.lt_size_of_form? hform)
  have he := hent.extends
  refine hp.grow he fun id s hget => ?_
  cases hent with
  | type hname =>
    -- A type that is there already is not added again, and a new one is a type.
    rcases SymbolTable.get?_ensureType_cases hget with hold | ⟨_, hk, _⟩
    · exact .inl hold
    · exact .inr (placedBy_of_named (.inr hk))
  | member arity hkind hne hname =>
    -- The walk stands inside the types around the node, so the owner it hands down is right.
    rcases SymbolTable.get?_push_cases hget with ⟨_, rfl⟩ | hold
    · exact .inr (placedBy_memberSymbol hr (ha.mono he) hform hkind hname arity _)
    · exact .inl hold
  | implicit =>
    rcases SymbolTable.get?_push_cases hget with ⟨_, rfl⟩ | hold
    · exact .inr placedBy_implicitSymbol
    · exact .inl hold
  | nothing => exact .inl hget

/-- A file that is just opened has nothing but packages besides the library. -/
theorem placed_openFile (lib : SymbolTable) (t : Tree) (root : NodeId) (file : SourceFile) :
    Placed lib t root ((ofLibraries lib).openFile t root file).1 := by
  intro id s hget
  rcases SymbolTable.get?_addPackage_cases hget with hold | hpackage
  · exact .inl hold
  · exact .inr (placedBy_of_named (.inl hpackage))

theorem bindFile_placed (lib : SymbolTable) (ht : t.WellShaped) (root : NodeId) :
    Placed lib t root ((ofLibraries lib).bindFile t root) := by
  rcases bindFile_cases (ofLibraries lib) t root with ⟨file, hfile⟩ | hsame
  · refine (bindFile_induct hfile (Placed lib t root) (Stands t root) (fun he hst => hst.mono he)
      ?_ (placed_openFile lib t root file) (stands_statement ht hfile _)).1
    intro c outer i form result hform hent hp hst
    exact ⟨hp.entered hst hform hent, hst.children ht hform hent⟩
  · rw [hsame]
    exact fun _ _ hget => .inl hget

/-- A type that is declared again has one symbol, so that the entry which the walk went by is the
    one that is found. -/
theorem Recorded.ownedAround (hr : Recorded lib t root b) (ht : t.WellShaped)
    (ha : b.Around t root i outer) : b.OwnedAround t root i outer := by
  unfold OwnedAround
  unfold Around at ha
  cases hcons : t.typesAround root i with
  | nil =>
    rw [hcons] at ha
    exact ha
  | cons type rest =>
    rw [hcons] at ha
    obtain ⟨id, ho, hm⟩ := ha
    obtain ⟨_, hnamed, _⟩ := ht.typesAround_of_cons hcons
    obtain ⟨other, hother⟩ := isSome_symbolOf? hm
    -- Both entries stand for the qualified name of the type, which only one symbol has.
    obtain ⟨s, hget, hk, hq⟩ := hr.namesTypes type id hm hnamed
    obtain ⟨s', hget', hk', hq'⟩ :=
      hr.namesTypes type other (mem_declared_of_symbolOf? hother) hnamed
    have hsame : id = other := hr.sound.consistent.unique hget hget' (hk.trans hk'.symm) (.inl hk)
      (hq.trans hq'.symm)
    exact ⟨id, hsame ▸ hother, ho⟩

end

/-- Whatever table there is, one that operations led to or one that earlier files were bound in:
    binding a file on top of it keeps all that it answers, the methods and fields that are added
    belong to the symbols of the innermost named types around them, and the variables and
    parameters that are added to nothing. -/
theorem bindFile_conservative {lib : SymbolTable} (hlib : SymbolTable.empty.Steps lib) {t : Tree}
    (ht : t.WellShaped) (root : NodeId) :
    let b := (ofLibraries lib).bindFile t root
    lib.KeptBy b.symbols ∧
      ∀ id s, lib.get? id = none → b.symbols.get? id = some s →
        PlacedBy (b.OwnedAround t root) t root s := by
  intro b
  have hc : lib.Consistent :=
    hlib.induct SymbolTable.consistent_empty SymbolTable.Consistent.step
  have hr : Recorded lib t root b := bindFile_recorded hc ht root
  refine ⟨keptBy_bindFile (ofLibraries lib) t root, fun id s hnew hget => ?_⟩
  -- A symbol that the library lacks was added, and whatever is added is placed.
  rcases bindFile_placed lib ht root id s hget with hold | hplaced
  · rw [hnew] at hold
    cases hold
  · exact hplaced.imp fun i owner ha => hr.ownedAround ht ha

/-! ## A class that is declared again -/

/-- The tree of a file that declares `Foo` in the package `app`, with a method `run` that has a
    local variable, and with a class without a name that has a field. A method stands beside. -/
def reopenedTree : Tree :=
  .ofNodes
    [(.package "app", .none),
      (.identifier "x", .none),
      (.variableLike .localVariable ⟨some 1, none, none, false⟩, .none),
      (.block [some 2], .none),
      (.identifier "run", .none),
      (.method ⟨some 4, none, [], some 3⟩, .none),
      (.identifier "count", .none),
      (.variableLike .field ⟨some 6, none, none, false⟩, .none),
      (.classBody [some 7], .none),
      (.typeDecl ⟨.classType, none, [], [], some 8⟩, .none),
      (.classBody [some 5, some 9], .none),
      (.identifier "Foo", .none),
      (.typeDecl ⟨.classType, some 11, [], [], some 10⟩, .none),
      (.identifier "main", .none),
      (.method ⟨some 13, none, [], none⟩, .none),
      (.sourceFile ⟨"app", some 0, [], [some 12, some 14]⟩, .none)]

/-- A library with the class `app.Foo`, which has a method `run`. -/
def runLibrary : SymbolTable := (appLibrary.addMethod 1 "run" .none (.fixed 0)).1

/-- The file on top of the library. -/
def reopened : Binding := (ofLibraries runLibrary).bindFile reopenedTree 15

theorem runLibrary_grown : runLibrary.Grown := .method appLibrary_grown 1 "run" .none (.fixed 0)

theorem reopenedTree_wellShaped : reopenedTree.WellShaped :=
  (Tree.built_ofNodes _).wellShaped (by decide +kernel)

/-- The second method `run` and the field join the class of the library, the local variable and the
    method beside it belong to nothing, and the library is as it was. -/
theorem conservative_reopened :
    (runLibrary.membersNamed 1 "run" = [2] ∧ reopened.symbols.membersNamed 1 "run" = [2, 3] ∧
        ((List.range 7).map fun id => (reopened.symbols.get? id).bind Symbol.owner) =
          [none, some 0, some 1, some 1, none, some 1, none]) ∧
      runLibrary.KeptBy reopened.symbols ∧
        ∀ id s, runLibrary.get? id = none → reopened.symbols.get? id = some s →
          PlacedBy (reopened.OwnedAround reopenedTree 15) reopenedTree 15 s :=
  ⟨by decide +kernel,
    bindFile_conservative runLibrary_grown.steps reopenedTree_wellShaped 15⟩

end Binding

end ScriptCheck
