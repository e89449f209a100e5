/-
  Owners follow the nesting of types.

  If the named types of a file have names of their own, binding adds a symbol
  for each of them, and the owner of a type, a method or a field is the symbol
  of the innermost named type around it. `Nested` states this for what is bound
  so far, and `bindFile_nested` for a whole file.
-/
import ScriptCheck.Proofs.Binding.Declarations

namespace ScriptCheck.Binding

/-- What the owner of a node is: the symbol of the innermost named type around it, if there is
    one. -/
def Around (b : Binding) (t : Tree) (root : NodeId) (i : NodeId) (outer : Option SymbolId) :
    Prop :=
  match t.typesAround root i with
  | [] => outer = none
  | type :: _ => ∃ id, outer = some id ∧ (type, id) ∈ b.declared

/-- The symbol that binding gives to a named type. -/
structure TypeSymbol (b : Binding) (t : Tree) (root : NodeId) (i : NodeId) (s : Symbol) : Prop where
  kind : s.kind = .type
  qualifiedName : s.qualifiedName = t.typeName b.filePackage root i
  isPrivate : s.flags.isPrivate = (t.modifiers i).isPrivate
  /-- Types inside no other lie in a package. -/
  owner : ∃ outer, b.Around t root i outer ∧
    ∃ id, s.owner = some id ∧ (outer = some id ∨ (outer = none ∧ b.symbols.IsPackage id))

/-- The types that are bound have the names that the nesting gives to them. -/
def NamesTypes (b : Binding) (t : Tree) (root : NodeId) : Prop :=
  ∀ i id, (i, id) ∈ b.declared → t.isNamedType i = true →
    ∃ s, b.symbols.get? id = some s ∧ s.kind = .type ∧
      s.qualifiedName = t.typeName b.filePackage root i

/-- The named types of a file have different qualified names, none of which stands for a type of
    the library. -/
structure OwnNames (lib : SymbolTable) (t : Tree) (package : String) (root : NodeId) : Prop where
  distinct : ∀ i j, t.Reached root i → t.Reached root j → t.isNamedType i = true →
    t.isNamedType j = true → t.typeName package root i = t.typeName package root j → i = j
  fresh : ∀ i, t.Reached root i → t.isNamedType i = true →
    lib.type? (t.typeName package root i) = none

/-- What holds of a file that is bound in part or as a whole. -/
structure Nested (lib : SymbolTable) (t : Tree) (root : NodeId) (b : Binding) : Prop where
  sound : Sound t root b
  types : ∀ {i id}, (i, id) ∈ b.declared → t.isNamedType i = true →
    ∃ s, b.symbols.get? id = some s ∧ b.TypeSymbol t root i s
  members : ∀ {i id s}, (i, id) ∈ b.declared → b.symbols.get? id = some s →
    s.kind = .method ∨ s.kind = .field → b.Around t root i s.owner
  /-- A type comes from the library or from a named type of the file. -/
  origin : ∀ {id s}, b.symbols.get? id = some s → s.kind = .type →
    lib.get? id = some s ∨ ∃ i, (i, id) ∈ b.declared ∧ t.isNamedType i = true

section

variable {lib : SymbolTable} {t : Tree} {b c : Binding} {package : SymbolId}
  {outer : Option SymbolId} {i root : Nat} {id : SymbolId} {form : Form} {s : Symbol}
  {result : Binding × Option SymbolId}

/-! ## The frame -/

theorem Around.mono (h : b.Around t root i outer) (he : b.Extends c) :
    c.Around t root i outer := by
  unfold Around at h ⊢
  split at h
  · exact h
  · obtain ⟨id, ho, hm⟩ := h
    exact ⟨id, ho, he.declared _ hm⟩

theorem TypeSymbol.mono (h : b.TypeSymbol t root i s) (he : b.Extends c) :
    c.TypeSymbol t root i s := by
  obtain ⟨outer, ha, id, ho, hor⟩ := h.owner
  refine ⟨h.kind, he.filePackage ▸ h.qualifiedName, h.isPrivate, outer, ha.mono he, id, ho, ?_⟩
  rcases hor with hsome | ⟨hnone, hp⟩
  · exact Or.inl hsome
  · exact Or.inr ⟨hnone, hp.mono he.symbols⟩

/-! ## Named types -/

/-- A node is a named type if what it declares is a type and has a name. -/
theorem isNamedType_iff (ht : t.Built) (hform : t.form? i = some form) :
    t.isNamedType i = true ↔
      form.symbolKind? = some .type ∧ ∃ name, t.declaredName? i = some name := by
  have hkind : t.isOneOf [.typeDeclaration] i = true ↔ form.symbolKind? = some .type := by
    unfold Tree.isOneOf
    rw [ht.kind?_of_form? hform]
    cases form with
    | variableLike role data => cases role <;> simp [Form.kind, VariableRole.kind, Form.symbolKind?]
    | reference role data => cases role <;> simp [Form.kind, ReferenceRole.kind, Form.symbolKind?]
    | collection role data => cases role <;> simp [Form.kind, CollectionRole.kind, Form.symbolKind?]
    | _ => simp [Form.kind, Form.symbolKind?]
  unfold Tree.isNamedType
  rw [Bool.and_eq_true, hkind, Option.isSome_iff_exists]

/-- The parts of a node are inside the types around it, and inside the node if it is a named type
    itself. -/
theorem typesAround_of_part (ht : t.WellShaped) (hr : t.Reached root i)
    (hform : t.form? i = some form) {part : Nat} (hpart : some part ∈ form.children)
    (hlt : part < t.size) :
    t.typesAround root part =
      if t.isNamedType i then i :: t.typesAround root i else t.typesAround root i := by
  have hp : t.parent? part = some i := by
    rw [ht.parent?_eq_some_iff, Tree.children_of_form? hform]
    exact ⟨hpart, hlt⟩
  exact ht.typesAround_of_parent? hp (Nat.ne_of_lt (hr.lt_root ht))

theorem Nested.namesTypes (hn : Nested lib t root b) : b.NamesTypes t root := by
  intro i id hm hi
  obtain ⟨s, hget, hs⟩ := hn.types hm hi
  exact ⟨s, hget, hs.kind, hs.qualifiedName⟩

/-- The name that binding gives to a type is the one that the nesting gives to it. -/
theorem NamesTypes.typeName_eq (hn : b.NamesTypes t root) (ht : t.WellShaped)
    (ha : b.Around t root i outer) {name : String} (hname : t.declaredName? i = some name) :
    b.typeName outer name = t.typeName b.filePackage root i := by
  unfold Tree.typeName
  unfold Around at ha
  split at ha
  · next hnil =>
    rw [hnil, ha]
    show Dotted.within b.filePackage name =
      Dotted.within b.filePackage ((t.declaredName? i).getD "")
    rw [hname]
    rfl
  · next type rest hcons =>
    obtain ⟨id, rfl, hm⟩ := ha
    -- The type around has its name from the nesting already, and the new name extends it.
    obtain ⟨houter, hnamed, _⟩ := ht.typesAround_of_cons hcons
    obtain ⟨s, hget, _, hs⟩ := hn type id hm hnamed
    have hq : s.qualifiedName = t.nameInside b.filePackage (type :: rest) := by
      rw [hs, ← houter]
      rfl
    unfold typeName
    dsimp only
    rw [hcons, Tree.nameInside, ← hq, hname, hget]
    · rfl
    · exact List.cons_ne_nil _ _

/-! ## One node after the other -/

/-- Where the walk stands. -/
def Stands (t : Tree) (root : NodeId) (b : Binding) (outer : Option SymbolId) (part : Part) :
    Prop :=
  ∀ i : Nat, part = some i → i < t.size → t.Reached root i ∧ b.Around t root i outer

theorem Stands.mono {part : Part} (hst : Stands t root b outer part) (he : b.Extends c) :
    Stands t root c outer part := by
  intro i hpart hlt
  obtain ⟨hr, ha⟩ := hst i hpart hlt
  exact ⟨hr, ha.mono he⟩

/-- What declares no type, or has no name, is no named type. -/
theorem not_isNamedType (ht : t.Built) (hform : t.form? i = some form)
    (h : form.symbolKind? ≠ some .type ∨ t.declaredName? i = none) : ¬t.isNamedType i = true := by
  intro hi
  obtain ⟨htype, name, hname⟩ := (isNamedType_iff ht hform).mp hi
  rcases h with hne | hnone
  · exact hne htype
  · rw [hnone] at hname
    cases hname

/-- Below the statements of a file the walk starts inside of no type. -/
theorem stands_statement (ht : t.WellShaped) {file : SourceFile}
    (hfile : t.form? root = some (.sourceFile file)) (b : Binding) :
    ∀ part ∈ file.statements, Stands t root b none part := by
  rintro _ hs i rfl hlt
  have hp : t.parent? i = some root := by
    rw [ht.parent?_eq_some_iff, Tree.children_of_form? hfile]
    exact ⟨List.mem_append_right _ hs, hlt⟩
  refine ⟨.statement hfile hs hlt, ?_⟩
  unfold Around
  rw [ht.typesAround_of_root hp]

/-- The parts of a node stand inside the same types, or inside the node if it is a named type. -/
theorem Stands.children (hst : Stands t root b outer (some i)) (ht : t.WellShaped)
    (hform : t.form? i = some form) (hent : Entered b t package outer i form result) :
    ∀ part ∈ form.children, Stands t root result.1 result.2 part := by
  obtain ⟨hr, ha⟩ := hst i rfl (Tree.lt_size_of_form? hform)
  have he := hent.extends
  -- A node that is no named type leaves the types around its parts as they are.
  have hparts : ¬t.isNamedType i = true → result.2 = outer →
      ∀ part ∈ form.children, Stands t root result.1 result.2 part := by
    rintro hi hsame _ hpart j rfl hlt
    have htypes := typesAround_of_part ht hr hform hpart hlt
    rw [← Tree.children_of_form? hform] at hpart
    refine ⟨.part hr hpart hlt, ?_⟩
    unfold Around
    rw [htypes, if_neg hi, hsame]
    exact ha.mono he
  cases hent with
  | @type data name hname =>
    have hi : t.isNamedType i = true :=
      (isNamedType_iff ht.built hform).mpr ⟨rfl, name, hname⟩
    rintro _ hpart j rfl hlt
    have htypes := typesAround_of_part ht hr hform hpart hlt
    rw [← Tree.children_of_form? hform] at hpart
    refine ⟨.part hr hpart hlt, ?_⟩
    unfold Around
    rw [htypes, if_pos hi]
    exact ⟨_, rfl, List.mem_cons_self⟩
  | member arity hkind hne hname =>
    refine hparts (not_isNamedType ht.built hform (Or.inl fun htype => hne ?_)) rfl
    exact Option.some.inj (hkind.symm.trans htype)
  | implicit => exact hparts (not_isNamedType ht.built hform (Or.inl nofun)) rfl
  | nothing hnone =>
    refine hparts (not_isNamedType ht.built hform (hnone.imp_left fun hn htype => ?_)) rfl
    rw [hn] at htype
    cases htype

/-- A symbol that is new declares nothing that was bound before. -/
theorem Sound.get?_of_push (hs : Sound t root b) {new : Symbol} (hm : (i, id) ∈ b.declared)
    (hget : (b.symbols.push new).1.get? id = some s) : b.symbols.get? id = some s := by
  obtain ⟨old, hold, _⟩ := hs.declared hm
  rw [SymbolTable.get?_push_of_lt _ _ (SymbolTable.lt_size_of_get? hold)] at hget
  exact hget

/-- A symbol that is no type leaves the types as they are. -/
theorem Nested.origin_of_push (hn : Nested lib t root b) {new : Symbol} (hk : new.kind ≠ .type)
    (hget : (b.symbols.push new).1.get? id = some s) (hs : s.kind = .type) :
    lib.get? id = some s ∨ ∃ i, (i, id) ∈ b.declared ∧ t.isNamedType i = true :=
  hn.origin (SymbolTable.get?_of_push_of_type hk hget hs) hs

/-- Binding a declaration that is no type. -/
theorem Nested.member (hn : Nested lib t root b) (ht : t.WellShaped) (hr : t.Reached root i)
    (ha : b.Around t root i outer) (hform : t.form? i = some form) {name : String}
    {kind : SymbolKind} (arity : Option Arity) (hkind : form.symbolKind? = some kind)
    (hne : kind ≠ .type) (hname : t.declaredName? i = some name) :
    Nested lib t root { b with
      symbols := (b.symbols.push (memberSymbol t outer i name kind arity)).1
      declared := (i, b.symbols.size) :: b.declared } := by
  -- The package matters to types only.
  have hent : Entered b t b.symbols.size outer i form _ := .member arity hkind hne hname
  have he := hent.extends
  have hunnamed : ¬t.isNamedType i = true := not_isNamedType ht.built hform
    (Or.inl fun htype => hne (Option.some.inj (hkind.symm.trans htype)))
  refine ⟨hn.sound.entered hr hform hent, fun {j id} hm hj => ?_,
    fun {j id s} hm hget hk => ?_, fun {id s} hget hk => ?_⟩
  · rcases List.mem_cons.mp hm with heq | hm
    · obtain ⟨rfl, rfl⟩ := Prod.mk.inj heq
      exact (hunnamed hj).elim
    · obtain ⟨s, hget, hs⟩ := hn.types hm hj
      exact ⟨s, he.symbols id s hget, hs.mono he⟩
  · rcases List.mem_cons.mp hm with heq | hm
    · obtain ⟨rfl, rfl⟩ := Prod.mk.inj heq
      rw [SymbolTable.get?_push, if_pos rfl] at hget
      obtain rfl := Option.some.inj hget
      have howner : (memberSymbol t outer j name kind arity).owner = outer := if_pos hk
      exact (howner ▸ ha).mono he
    · exact (hn.members hm (hn.sound.get?_of_push hm hget) hk).mono he
  · rcases hn.origin_of_push hne hget hk with hlib | ⟨j, hj, hnamed⟩
    · exact Or.inl hlib
    · exact Or.inr ⟨j, List.mem_cons_of_mem _ hj, hnamed⟩

/-- Binding the parameter `it` of a closure. -/
theorem Nested.implicit (hn : Nested lib t root b) (hr : t.Reached root i) {body : Part}
    (hform : t.form? i = some (.closure [] body)) :
    Nested lib t root { b with
      symbols := (b.symbols.push (implicitSymbol i)).1
      implicit := (i, b.symbols.size) :: b.implicit } := by
  have hent : Entered b t b.symbols.size none i (.closure [] body) _ := .implicit
  have he := hent.extends
  refine ⟨hn.sound.entered hr hform hent, fun {j id} hm hj => ?_,
    fun {j id s} hm hget hk => ?_, fun {id s} hget hk => ?_⟩
  · obtain ⟨s, hget, hs⟩ := hn.types hm hj
    exact ⟨s, he.symbols id s hget, hs.mono he⟩
  · exact (hn.members hm (hn.sound.get?_of_push hm hget) hk).mono he
  · exact hn.origin_of_push SymbolKind.noConfusion hget hk

/-- If a type is there already when its node is bound, it is that of the node itself. -/
theorem Nested.mem_declared_of_type? (hn : Nested lib t root b)
    (hown : OwnNames lib t b.filePackage root) (hlib : lib.Consistent) (hr : t.Reached root i)
    (hi : t.isNamedType i = true)
    (hfound : b.symbols.type? (t.typeName b.filePackage root i) = some id) :
    (i, id) ∈ b.declared := by
  obtain ⟨s, hget, hk, hq⟩ := hn.sound.consistent.get?_of_type? hfound
  -- The library has no type of this name, and no other node of the file has it.
  rcases hn.origin hget hk with hold | ⟨j, hj, hnamed⟩
  · have hthere := hlib.type?_of_get? hold hk hq
    rw [hown.fresh i hr hi] at hthere
    cases hthere
  · obtain ⟨s', hget', hs'⟩ := hn.types hj hnamed
    have hsame : s' = s := Option.some.inj (hget'.symm.trans hget)
    subst hsame
    have hij : j = i := hown.distinct j i (hn.sound.reached hj) hr hnamed hi
      (hs'.qualifiedName.symm.trans hq)
    exact hij ▸ hj

/-- Binding a node for the second time. -/
theorem Nested.again (hn : Nested lib t root b) (hi : (i, id) ∈ b.declared) :
    Nested lib t root { b with declared := (i, id) :: b.declared } := by
  have hold : ∀ {entry}, entry ∈ (i, id) :: b.declared → entry ∈ b.declared := by
    intro entry hm
    rcases List.mem_cons.mp hm with rfl | hm
    · exact hi
    · exact hm
  have he : b.Extends { b with declared := (i, id) :: b.declared } :=
    ⟨SymbolTable.Extends.refl _, fun _ hm => List.mem_cons_of_mem _ hm, rfl, rfl⟩
  refine ⟨⟨hn.sound.consistent, fun hm => hn.sound.reached (hold hm),
      fun hm => hn.sound.declared (hold hm), hn.sound.implicit⟩, fun {j id} hm hj => ?_,
    fun {j id s} hm hget hk => (hn.members (hold hm) hget hk).mono he, fun {id s} hget hk => ?_⟩
  · obtain ⟨s, hget, hs⟩ := hn.types (hold hm) hj
    exact ⟨s, hget, hs.mono he⟩
  · rcases hn.origin hget hk with hlib | ⟨j, hj, hnamed⟩
    · exact Or.inl hlib
    · exact Or.inr ⟨j, List.mem_cons_of_mem _ hj, hnamed⟩

/-- Binding a type that is new. -/
theorem Nested.newType (hn : Nested lib t root b) {new : Symbol}
    (hc : c = { b with
      symbols := (b.symbols.pushType new).1, declared := (i, b.symbols.size) :: b.declared })
    (hsound : Sound t root c) (he : b.Extends c) (hi : t.isNamedType i = true)
    (hnew : c.TypeSymbol t root i { new with id := b.symbols.size }) : Nested lib t root c := by
  subst hc
  refine ⟨hsound, fun {j id} hm hj => ?_, fun {j id s} hm hget hk => ?_,
    fun {id s} hget hk => ?_⟩
  · rcases List.mem_cons.mp hm with heq | hm
    · obtain ⟨rfl, rfl⟩ := Prod.mk.inj heq
      exact ⟨_, SymbolTable.get?_push_self _ _, hnew⟩
    · obtain ⟨s, hget, hs⟩ := hn.types hm hj
      exact ⟨s, he.symbols id s hget, hs.mono he⟩
  · rcases List.mem_cons.mp hm with heq | hm
    · obtain ⟨rfl, rfl⟩ := Prod.mk.inj heq
      rw [SymbolTable.get?_pushType, SymbolTable.get?_push, if_pos rfl] at hget
      obtain rfl := Option.some.inj hget
      rw [hnew.kind] at hk
      rcases hk with hk | hk <;> cases hk
    · exact (hn.members hm (hn.sound.get?_of_push hm hget) hk).mono he
  · rw [SymbolTable.get?_pushType] at hget
    rcases SymbolTable.get?_push_cases hget with ⟨rfl, _⟩ | hold
    · exact Or.inr ⟨i, List.mem_cons_self, hi⟩
    · rcases hn.origin hold hk with hlib | ⟨j, hj, hnamed⟩
      · exact Or.inl hlib
      · exact Or.inr ⟨j, List.mem_cons_of_mem _ hj, hnamed⟩

/-- Binding a named type, which is new unless its node is bound for the second time. -/
theorem Nested.type (hn : Nested lib t root b) (ht : t.WellShaped)
    (hown : OwnNames lib t b.filePackage root) (hlib : lib.Consistent)
    (hpackage : b.symbols.IsPackage package) (hr : t.Reached root i)
    (ha : b.Around t root i outer) {data : TypeDecl} (hform : t.form? i = some (.typeDecl data))
    {name : String} (hname : t.declaredName? i = some name) :
    Nested lib t root { b with
      symbols := (b.enterType t package outer i data name).1
      declared := (i, (b.enterType t package outer i data name).2) :: b.declared } := by
  have hi : t.isNamedType i = true :=
    (isNamedType_iff ht.built hform).mpr ⟨rfl, name, hname⟩
  have hq := hn.namesTypes.typeName_eq ht ha hname
  have hent : Entered b t package outer i (.typeDecl data) _ := .type hname
  have hsound := hn.sound.entered hr hform hent
  have he := hent.extends
  rcases SymbolTable.ensureType_cases b.symbols name (b.typeName outer name) (typeFlags t i data)
    (some (outer.getD package)) (some i) with ⟨id, hfound, henter⟩ | ⟨_, henter⟩
  · unfold enterType
    rw [henter]
    rw [hq] at hfound
    exact hn.again (hn.mem_declared_of_type? hown hlib hr hi hfound)
  · unfold enterType at hsound he ⊢
    rw [henter] at hsound he ⊢
    refine hn.newType rfl hsound he hi ⟨rfl, hq, rfl, outer, ha.mono he, _, rfl, ?_⟩
    cases outer with
    | none => exact Or.inr ⟨rfl, hpackage.mono he.symbols⟩
    | some id => exact Or.inl rfl

/-- Binding a node keeps the nesting. -/
theorem Nested.entered (hn : Nested lib t root b) (ht : t.WellShaped)
    (hown : OwnNames lib t b.filePackage root) (hlib : lib.Consistent)
    (hpackage : b.symbols.IsPackage package) (hform : t.form? i = some form)
    (hent : Entered b t package outer i form result) (hst : Stands t root b outer (some i)) :
    Nested lib t root result.1 := by
  obtain ⟨hr, ha⟩ := hst i rfl (Tree.lt_size_of_form? hform)
  cases hent with
  | type hname => exact hn.type ht hown hlib hpackage hr ha hform hname
  | member arity hkind hne hname => exact hn.member ht hr ha hform arity hkind hne hname
  | implicit => exact hn.implicit hr hform
  | nothing => exact hn

/-! ## The whole file -/

/-- A file that is just opened has no types of its own. -/
theorem nested_openFile (hlib : lib.Consistent) (t : Tree) (root : NodeId) (file : SourceFile) :
    Nested lib t root ((ofLibraries lib).openFile t root file).1 := by
  refine ⟨sound_openFile hlib t root file, ?_, ?_, ?_⟩
  · exact fun hm => absurd hm List.not_mem_nil
  · exact fun hm => absurd hm List.not_mem_nil
  · intro id s hget hk
    rcases SymbolTable.get?_addPackage_cases hget with hold | hpackage
    · exact Or.inl hold
    · rw [hk] at hpackage
      cases hpackage

/-- In a bound file owners follow the nesting, if its types have names of their own. -/
theorem bindFile_nested (hlib : lib.Consistent) (ht : t.WellShaped) {file : SourceFile}
    (hfile : t.form? root = some (.sourceFile file))
    (hown : OwnNames lib t (packageName t file) root) :
    Nested lib t root ((ofLibraries lib).bindFile t root) := by
  have hopen := SymbolTable.addPackage_spec hlib (packageName t file)
  -- What the walk needs to know of the binding besides its nesting.
  let Inv (b : Binding) : Prop := Nested lib t root b ∧ b.filePackage = packageName t file ∧
    b.symbols.IsPackage ((ofLibraries lib).openFile t root file).2
  have hstart : Inv ((ofLibraries lib).openFile t root file).1 :=
    ⟨nested_openFile hlib t root file, rfl, hopen.2.2⟩
  refine (bindFile_induct hfile Inv (Stands t root) (fun he hst => hst.mono he) ?_ hstart
    (stands_statement ht hfile _)).1.1
  intro c outer i form result hform hent ⟨hn, hname, hp⟩ hst
  have he := hent.extends
  exact ⟨⟨hn.entered ht (hname ▸ hown) hlib hp hform hent hst, he.filePackage.trans hname,
    hp.mono he.symbols⟩, hst.children ht hform hent⟩

end

end ScriptCheck.Binding
