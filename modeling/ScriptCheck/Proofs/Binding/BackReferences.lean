/-
  From a declaration to its symbol and back.

  Binding notes the symbol of a node, and the symbol notes the node. Methods and
  variables always get symbols of their own, and so do types whose names are
  new. A type whose qualified name the library has already gets the symbol of
  the library, which is left as it is and knows nothing of the node (`Taken`).
  `declaration_iff_not_taken` says that this is the only exception. In no case
  do two nodes share a symbol, as long as no two types of the file have the same
  name.
-/
import ScriptCheck.Proofs.Binding.TypeNesting

namespace ScriptCheck.Binding

/-- Different named types of a file have different qualified names. -/
def DistinctTypes (t : Tree) (package : String) (root : NodeId) : Prop :=
  ∀ i j, t.Reached root i → t.Reached root j → t.isNamedType i = true →
    t.isNamedType j = true → t.typeName package root i = t.typeName package root j → i = j

/-- A library has a type with the qualified name of a named type of the file, and that type is not
    declared by the same node. -/
def Taken (lib : SymbolTable) (t : Tree) (package : String) (root i : NodeId) : Prop :=
  t.isNamedType i = true ∧ ∃ id old, lib.type? (t.typeName package root i) = some id ∧
    lib.get? id = some old ∧ old.declaration ≠ some i

/-- What holds of a file that is bound in part or as a whole, whatever names its types have. -/
structure Recorded (lib : SymbolTable) (t : Tree) (root : NodeId) (b : Binding) : Prop where
  sound : Sound t root b
  namesTypes : b.NamesTypes t root
  /-- A type comes from the library, or it knows a named type of the file whose symbol it is. -/
  origin : ∀ id s, b.symbols.get? id = some s → s.kind = .type →
    lib.get? id = some s ∨
      ∃ i, (i, id) ∈ b.declared ∧ t.isNamedType i = true ∧ s.declaration = some i

section

variable {lib : SymbolTable} {t : Tree} {b c : Binding} {package : SymbolId}
  {outer : Option SymbolId} {i j root : Nat} {id : SymbolId} {form : Form} {s : Symbol}
  {result : Binding × Option SymbolId}

/-! ## Symbols and nodes -/

/-- What has the symbol of a type is a named type. -/
theorem DeclaredBy.isNamedType (hd : DeclaredBy t i s) (ht : t.Built) (hk : s.kind = .type) :
    t.isNamedType i = true := by
  obtain ⟨form, hform, hkind⟩ := hd.form
  exact (isNamedType_iff ht hform).mpr ⟨hk ▸ hkind, hd.isNamed⟩

/-- Different nodes have different symbols. -/
theorem Recorded.eq_of_mem (hr : Recorded lib t root b) (ht : t.Built)
    (distinct : DistinctTypes t b.filePackage root) (hi : (i, id) ∈ b.declared)
    (hj : (j, id) ∈ b.declared) : i = j := by
  obtain ⟨s, hget, hdi⟩ := hr.sound.declared hi
  obtain ⟨s', hget', hdj⟩ := hr.sound.declared hj
  obtain rfl : s = s' := Option.some.inj (hget.symm.trans hget')
  by_cases hk : s.kind = .type
  · -- Both are named types, and both have the qualified name of the symbol.
    have hni := hdi.isNamedType ht hk
    have hnj := hdj.isNamedType ht hk
    obtain ⟨a, ha, _, hqi⟩ := hr.namesTypes i id hi hni
    obtain ⟨a', ha', _, hqj⟩ := hr.namesTypes j id hj hnj
    obtain rfl : a = a' := Option.some.inj (ha.symm.trans ha')
    exact distinct i j (hr.sound.reached hi) (hr.sound.reached hj) hni hnj (hqi.symm.trans hqj)
  · exact Option.some.inj ((hdi.declaration hk).symm.trans (hdj.declaration hk))

/-! ## One node after the other -/

/-- The frame: old entries and old types do no harm. -/
theorem Recorded.grow (hr : Recorded lib t root b) (hs : Sound t root c) (he : b.Extends c)
    (hnames : ∀ i id, (i, id) ∈ c.declared → t.isNamedType i = true → (i, id) ∈ b.declared ∨
      ∃ s, c.symbols.get? id = some s ∧ s.kind = .type ∧
        s.qualifiedName = t.typeName b.filePackage root i)
    (horigin : ∀ id s, c.symbols.get? id = some s → s.kind = .type →
      b.symbols.get? id = some s ∨
        ∃ i, (i, id) ∈ c.declared ∧ t.isNamedType i = true ∧ s.declaration = some i) :
    Recorded lib t root c := by
  refine ⟨hs, fun i id hm hi => ?_, fun id s hget hk => ?_⟩
  · rw [he.filePackage]
    rcases hnames i id hm hi with hold | hnew
    · obtain ⟨s, hget, hk, hq⟩ := hr.namesTypes i id hold hi
      exact ⟨s, he.symbols id s hget, hk, hq⟩
    · exact hnew
  · rcases horigin id s hget hk with hold | hnew
    · rcases hr.origin id s hold hk with hlib | ⟨i, hi, hnamed, hd⟩
      · exact Or.inl hlib
      · exact Or.inr ⟨i, he.declared _ hi, hnamed, hd⟩
    · exact Or.inr hnew

/-- Binding a named type. -/
theorem Recorded.type (hr : Recorded lib t root b) (ht : t.WellShaped)
    (hst : Stands t root b outer (some i)) {data : TypeDecl}
    (hform : t.form? i = some (.typeDecl data)) {name : String}
    (hname : t.declaredName? i = some name) :
    Recorded lib t root { b with
      symbols := (b.enterType t package outer i data name).1
      declared := (i, (b.enterType t package outer i data name).2) :: b.declared } := by
  obtain ⟨hreached, ha⟩ := hst i rfl (Tree.lt_size_of_form? hform)
  have hi : t.isNamedType i = true :=
    (isNamedType_iff ht.built hform).mpr ⟨rfl, name, hname⟩
  have hq := hr.namesTypes.typeName_eq ht ha hname
  have hent : Entered b t package outer i (.typeDecl data) _ := .type hname
  obtain ⟨s, hget, hk, hsq⟩ := SymbolTable.get?_ensureType hr.sound.consistent name
    (b.typeName outer name) (typeFlags t i data) (some (outer.getD package)) (some i)
  refine hr.grow (hr.sound.entered hreached hform hent) hent.extends (fun j id hm hj => ?_)
    fun id new hnew hkind => ?_
  · rcases List.mem_cons.mp hm with heq | hm
    · obtain ⟨rfl, rfl⟩ := Prod.mk.inj heq
      exact Or.inr ⟨s, hget, hk, hsq.trans hq⟩
    · exact Or.inl hm
  · -- A type that was there is an old one, and a new one knows the node.
    rcases SymbolTable.get?_ensureType_cases hnew with hold | ⟨rfl, _, hd⟩
    · exact Or.inl hold
    · exact Or.inr ⟨i, List.mem_cons_self, hi, hd⟩

/-- Binding a node. -/
theorem Recorded.entered (hr : Recorded lib t root b) (ht : t.WellShaped)
    (hst : Stands t root b outer (some i)) (hform : t.form? i = some form)
    (hent : Entered b t package outer i form result) : Recorded lib t root result.1 := by
  obtain ⟨hreached, _⟩ := hst i rfl (Tree.lt_size_of_form? hform)
  have hsound := hr.sound.entered hreached hform hent
  have he := hent.extends
  cases hent with
  | type hname => exact hr.type ht hst hform hname
  | member arity hkind hne hname =>
    refine hr.grow hsound he (fun j id hm hj => ?_) fun id s hget hk =>
      Or.inl (SymbolTable.get?_of_push_of_type hne hget hk)
    rcases List.mem_cons.mp hm with heq | hm
    · obtain ⟨rfl, _⟩ := Prod.mk.inj heq
      refine absurd hj (not_isNamedType ht.built hform (Or.inl fun htype => hne ?_))
      exact Option.some.inj (hkind.symm.trans htype)
    · exact Or.inl hm
  | implicit =>
    exact hr.grow hsound he (fun _ _ hm _ => Or.inl hm) fun id s hget hk =>
      Or.inl (SymbolTable.get?_of_push_of_type SymbolKind.noConfusion hget hk)
  | nothing => exact hr

/-! ## The whole file -/

theorem recorded_openFile (hlib : lib.Consistent) (t : Tree) (root : NodeId) (file : SourceFile) :
    Recorded lib t root ((ofLibraries lib).openFile t root file).1 := by
  refine ⟨sound_openFile hlib t root file, fun _ _ hm => absurd hm List.not_mem_nil,
    fun id s hget hk => ?_⟩
  rcases SymbolTable.get?_addPackage_cases hget with hold | hpackage
  · exact Or.inl hold
  · rw [hk] at hpackage
    cases hpackage

theorem bindFile_recorded (hlib : lib.Consistent) (ht : t.WellShaped) (root : NodeId) :
    Recorded lib t root ((ofLibraries lib).bindFile t root) := by
  rcases bindFile_cases (ofLibraries lib) t root with ⟨file, hfile⟩ | hsame
  · refine (bindFile_induct hfile (Recorded lib t root) (Stands t root)
      (fun he hst => hst.mono he) ?_ (recorded_openFile hlib t root file)
      (stands_statement ht hfile _)).1
    intro c outer i form result hform hent hr hst
    exact ⟨hr.entered ht hst hform hent, hst.children ht hform hent⟩
  · have hsound := bindFile_sound hlib t root
    rw [hsame] at hsound ⊢
    exact ⟨hsound, fun _ _ hm => absurd hm List.not_mem_nil, fun _ _ hget _ => Or.inl hget⟩

/-- The symbols of the library are there after a file was bound on top of it. -/
theorem extends_symbols_bindFile (hlib : lib.Consistent) (t : Tree) (root : NodeId) :
    lib.Extends ((ofLibraries lib).bindFile t root).symbols := by
  rcases bindFile_cases (ofLibraries lib) t root with ⟨file, hfile⟩ | hsame
  · have hopen := (SymbolTable.addPackage_spec hlib (packageName t file)).2.1
    exact hopen.trans (extends_bindFile hfile (ofLibraries lib)).symbols
  · rw [hsame]
    exact SymbolTable.Extends.refl lib

/-- If the name of a type is taken, its node has the symbol that the library has for it. -/
theorem Recorded.get?_of_taken (hr : Recorded lib t root b) (hext : lib.Extends b.symbols)
    (hlib : lib.Consistent) (hi : (i, id) ∈ b.declared)
    (htaken : Taken lib t b.filePackage root i) :
    ∃ old, lib.get? id = some old ∧ old.declaration ≠ some i := by
  obtain ⟨hnamed, other, old, hfound, hold, hne⟩ := htaken
  obtain ⟨s, hget, hk, hq⟩ := hr.namesTypes i id hi hnamed
  obtain ⟨s', hget', hk', hq'⟩ := hlib.get?_of_type? hfound
  -- Both symbols are types of the same qualified name, so they are one.
  have hsame : id = other := hr.sound.consistent.unique hget (hext _ _ hget')
    (hk.trans hk'.symm) (Or.inl hk) (hq.trans hq'.symm)
  exact ⟨old, hsame ▸ hold, hne⟩

/-- A symbol knows its node unless the name of the node is taken. -/
theorem Recorded.declaration_of_not_taken (hr : Recorded lib t root b) (ht : t.Built)
    (distinct : DistinctTypes t b.filePackage root) (hlib : lib.Consistent)
    (hi : (i, id) ∈ b.declared) (hget : b.symbols.get? id = some s)
    (hfree : ¬Taken lib t b.filePackage root i) : s.declaration = some i := by
  obtain ⟨s', hget', hd⟩ := hr.sound.declared hi
  obtain rfl : s' = s := Option.some.inj (hget'.symm.trans hget)
  by_cases hk : s'.kind = .type
  · have hnamed := hd.isNamedType ht hk
    rcases hr.origin id s' hget hk with hold | ⟨j, hj, _, hdj⟩
    · -- The library has the type, so that it must know the node.
      obtain ⟨a, ha, _, hq⟩ := hr.namesTypes i id hi hnamed
      obtain rfl : a = s' := Option.some.inj (ha.symm.trans hget)
      have hfound : lib.type? (t.typeName b.filePackage root i) = some id :=
        hlib.type?_of_get? hold hk hq
      exact Classical.not_not.mp fun hne => hfree ⟨hnamed, id, a, hfound, hold, hne⟩
    · rw [hdj, hr.eq_of_mem ht distinct hj hi]
  · exact hd.declaration hk

end

/-- In a file whose types have different qualified names, different nodes have different symbols,
    and the symbol of a node has the node for its declaration, with one exception: a type whose
    name the library has already gets the symbol of the library as it is. -/
theorem declaration_iff_not_taken {lib : SymbolTable} (hlib : lib.Grown) {t : Tree}
    (ht : t.WellShaped) {root : NodeId}
    (distinct : DistinctTypes t ((ofLibraries lib).bindFile t root).filePackage root) :
    let b := (ofLibraries lib).bindFile t root
    (∀ i id, b.symbolOf? i = some id → ∃ s, b.symbols.get? id = some s ∧
        (s.declaration = some i ↔ ¬Taken lib t b.filePackage root i) ∧
        (Taken lib t b.filePackage root i → lib.get? id = some s)) ∧
      ∀ i j id, b.symbolOf? i = some id → b.symbolOf? j = some id → i = j := by
  intro b
  have hc : lib.Consistent := hlib.consistent
  have hr : Recorded lib t root b := bindFile_recorded hc ht root
  have hext : lib.Extends b.symbols := extends_symbols_bindFile hc t root
  refine ⟨fun i id hid => ?_, fun i j id hi hj => ?_⟩
  · have hm : (i, id) ∈ b.declared := mem_declared_of_symbolOf? hid
    obtain ⟨s, hget, _⟩ := hr.sound.declared hm
    have hlibrary : Taken lib t b.filePackage root i →
        lib.get? id = some s ∧ s.declaration ≠ some i := by
      intro htaken
      obtain ⟨old, hold, hne⟩ := hr.get?_of_taken hext hc hm htaken
      obtain rfl : old = s := Option.some.inj ((hext _ _ hold).symm.trans hget)
      exact ⟨hold, hne⟩
    refine ⟨s, hget, ⟨fun hd htaken => (hlibrary htaken).2 hd, fun hfree => ?_⟩,
      fun htaken => (hlibrary htaken).1⟩
    exact hr.declaration_of_not_taken ht.built distinct hc hm hget hfree
  · exact hr.eq_of_mem ht.built distinct (mem_declared_of_symbolOf? hi)
      (mem_declared_of_symbolOf? hj)

/-! ## A class that the library has already -/

/-- The tree of a file with the classes `Foo` and `Bar` in the package `app`. -/
def appTree : Tree :=
  .ofNodes
    [(.package "app", .none),
      (.identifier "Foo", .none),
      (.typeDecl ⟨.classType, some 1, [], [], none⟩, .none),
      (.identifier "Bar", .none),
      (.typeDecl ⟨.classType, some 3, [], [], none⟩, .none),
      (.sourceFile ⟨"app", some 0, [], [some 2, some 4]⟩, .none)]

/-- A library with the class `app.Foo`. -/
def appLibrary : SymbolTable := (SymbolTable.empty.addType "app.Foo" .none []).1

/-- The file on top of the library. -/
def app : Binding := (ofLibraries appLibrary).bindFile appTree 5

theorem appLibrary_grown : appLibrary.Grown := .type .start "app.Foo" .none []

theorem appTree_wellShaped : appTree.WellShaped :=
  (Tree.built_ofNodes _).wellShaped (by decide +kernel)

theorem app_distinct : DistinctTypes appTree app.filePackage 5 := by
  have hsize : appTree.size = 6 := by decide +kernel
  have hall : ∀ i < 6, ∀ j < 6, appTree.isNamedType i = true → appTree.isNamedType j = true →
      appTree.typeName app.filePackage 5 i = appTree.typeName app.filePackage 5 j → i = j := by
    decide +kernel
  exact fun i j hi hj => hall i (hsize ▸ hi.lt_size) j (hsize ▸ hj.lt_size)

/-- `Foo` has the symbol of the library and `Bar` one of its own, as its name is not taken. -/
theorem declaration_app :
    (app.symbolOf? 2 = some 1 ∧ app.symbolOf? 4 = some 2) ∧
      (∀ i id, app.symbolOf? i = some id → ∃ s, app.symbols.get? id = some s ∧
          (s.declaration = some i ↔ ¬Taken appLibrary appTree app.filePackage 5 i) ∧
          (Taken appLibrary appTree app.filePackage 5 i → appLibrary.get? id = some s)) ∧
        ∀ i j id, app.symbolOf? i = some id → app.symbolOf? j = some id → i = j :=
  ⟨by decide +kernel,
    declaration_iff_not_taken appLibrary_grown appTree_wellShaped app_distinct⟩

/-- So it is not the case that the symbols of all nodes know them. -/
theorem declaration_foo : ¬∀ (lib : SymbolTable) (t : Tree) (root : NodeId), lib.Grown →
    t.WellShaped → DistinctTypes t ((ofLibraries lib).bindFile t root).filePackage root →
    ∀ i id s, ((ofLibraries lib).bindFile t root).symbolOf? i = some id →
      ((ofLibraries lib).bindFile t root).symbols.get? id = some s → s.declaration = some i := by
  intro h
  have hall := h appLibrary appTree 5 appLibrary_grown appTree_wellShaped app_distinct 2 1
  have hsymbol : app.symbols.get? 1 =
      some ⟨1, "Foo", .type, .none, some 0, "app.Foo", none, [], none⟩ := by decide +kernel
  cases hall _ (by decide +kernel) hsymbol

end ScriptCheck.Binding
