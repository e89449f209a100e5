/-
  Which nodes have symbols.

  A node that has a symbol declares something of the symbol's kind
  (`bindFile_sound`). The other way round, every node below the statements of
  the file that declares something and names it has a symbol, since binding
  visits all of them (`exists_symbolOf?`).
-/
import ScriptCheck.Proofs.Binding.Growth
import ScriptCheck.Proofs.Syntax.Nesting

namespace ScriptCheck.Binding

/-- A symbol is of the kind that a node declares. Types aside, which may be there before, it also
    has the name and the modifiers of the node, and knows it. -/
structure DeclaredBy (t : Tree) (i : NodeId) (s : Symbol) : Prop where
  form : ∃ form, t.form? i = some form ∧ form.symbolKind? = some s.kind
  isNamed : ∃ name, t.declaredName? i = some name
  name : s.kind ≠ .type → t.declaredName? i = some s.name
  declaration : s.kind ≠ .type → s.declaration = some i
  isPrivate : s.kind ≠ .type → s.flags.isPrivate = (t.modifiers i).isPrivate

/-- The nodes that have symbols lie below the statements of the file and declare them, and what is
    called `it` implicitly is a parameter. -/
structure Sound (t : Tree) (root : NodeId) (b : Binding) : Prop where
  consistent : b.symbols.Consistent
  reached : ∀ {i id}, (i, id) ∈ b.declared → t.Reached root i
  declared : ∀ {i id}, (i, id) ∈ b.declared →
    ∃ s, b.symbols.get? id = some s ∧ DeclaredBy t i s
  implicit : ∀ {i id}, (i, id) ∈ b.implicit →
    ∃ s, b.symbols.get? id = some s ∧ s.kind = .parameter

section

variable {t : Tree} {b : Binding} {package : SymbolId} {outer : Option SymbolId}
  {i root : Nat} {id : SymbolId} {form : Form} {result : Binding × Option SymbolId}

/-! ## What has a symbol declares it -/

theorem mem_of_lookup {α : Type _} {β : Type _} [BEq α] [LawfulBEq α] {entries : List (α × β)}
    {a : α} {x : β} (h : entries.lookup a = some x) : (a, x) ∈ entries := by
  obtain ⟨before, after, rfl, _⟩ := List.lookup_eq_some_iff.mp h
  exact List.mem_append_right _ List.mem_cons_self

theorem mem_declared_of_symbolOf? (h : b.symbolOf? i = some id) : (i, id) ∈ b.declared :=
  mem_of_lookup h

theorem isSome_symbolOf? (h : (i, id) ∈ b.declared) : ∃ other, b.symbolOf? i = some other := by
  have hsome : (b.declared.lookup i).isSome = true :=
    List.lookup_isSome_iff.mpr ⟨(i, id), h, beq_self_eq_true i⟩
  exact Option.isSome_iff_exists.mp hsome

theorem declaredBy_memberSymbol (hform : t.form? i = some form) {kind : SymbolKind}
    (hkind : form.symbolKind? = some kind) {name : String}
    (hname : t.declaredName? i = some name) (arity : Option Arity) (id : SymbolId) :
    DeclaredBy t i { memberSymbol t outer i name kind arity with id := id } := by
  refine ⟨⟨form, hform, hkind⟩, ⟨name, hname⟩, fun _ => hname, fun _ => rfl, fun _ => ?_⟩
  show (SymbolTable.markVarargs _ arity).isPrivate = _
  unfold SymbolTable.markVarargs
  split <;> rfl

/-- Binding a node keeps what is sound. -/
theorem Sound.entered (hs : Sound t root b) (hr : t.Reached root i)
    (hform : t.form? i = some form) (h : Entered b t package outer i form result) :
    Sound t root result.1 := by
  have he := h.extends
  have hc := h.consistent hs.consistent
  -- What was there before is there afterwards, with the same symbol.
  have hdeclared : ∀ {j id}, (j, id) ∈ b.declared →
      ∃ s, result.1.symbols.get? id = some s ∧ DeclaredBy t j s := by
    intro j id hm
    obtain ⟨s, hget, hd⟩ := hs.declared hm
    exact ⟨s, he.symbols id s hget, hd⟩
  have himplicit : ∀ {j id}, (j, id) ∈ b.implicit →
      ∃ s, result.1.symbols.get? id = some s ∧ s.kind = .parameter := by
    intro j id hm
    obtain ⟨s, hget, hk⟩ := hs.implicit hm
    exact ⟨s, he.symbols id s hget, hk⟩
  have hreached : ∀ {j id symbol}, (j, id) ∈ (i, symbol) :: b.declared → t.Reached root j := by
    intro j id symbol hm
    rcases List.mem_cons.mp hm with heq | hm
    · exact (Prod.mk.inj heq).1 ▸ hr
    · exact hs.reached hm
  cases h with
  | type hname =>
    refine ⟨hc, hreached, fun {j id} hm => ?_, himplicit⟩
    rcases List.mem_cons.mp hm with heq | hm
    · obtain ⟨rfl, rfl⟩ := Prod.mk.inj heq
      obtain ⟨s, hget, hk, _⟩ := SymbolTable.get?_ensureType hs.consistent _ _ _ _ _
      exact ⟨s, hget, ⟨_, hform, congrArg some hk.symm⟩, ⟨_, hname⟩, fun hne => absurd hk hne,
        fun hne => absurd hk hne, fun hne => absurd hk hne⟩
    · exact hdeclared hm
  | member arity hkind hne hname =>
    refine ⟨hc, hreached, fun {j id} hm => ?_, himplicit⟩
    rcases List.mem_cons.mp hm with heq | hm
    · obtain ⟨rfl, rfl⟩ := Prod.mk.inj heq
      exact ⟨_, SymbolTable.get?_push_self _ _,
        declaredBy_memberSymbol hform hkind hname arity _⟩
    · exact hdeclared hm
  | implicit =>
    refine ⟨hc, hs.reached, hdeclared, fun {j id} hm => ?_⟩
    rcases List.mem_cons.mp hm with heq | hm
    · obtain ⟨rfl, rfl⟩ := Prod.mk.inj heq
      exact ⟨_, SymbolTable.get?_push_self _ _, rfl⟩
    · exact himplicit hm
  | nothing => exact hs

/-- A part that the walk stands at lies below the statements of the file. -/
def Visits (t : Tree) (root : NodeId) (part : Part) : Prop :=
  ∀ i : Nat, part = some i → i < t.size → t.Reached root i

theorem Visits.children (hr : t.Reached root i) (hform : t.form? i = some form) :
    ∀ part ∈ form.children, Visits t root part := by
  rintro _ hm j rfl hlt
  rw [← Tree.children_of_form? hform] at hm
  exact .part hr hm hlt

/-- Before its statements are bound, nothing of a file is declared. -/
theorem sound_openFile {lib : SymbolTable} (hlib : lib.Consistent) (t : Tree) (root : NodeId)
    (file : SourceFile) : Sound t root ((ofLibraries lib).openFile t root file).1 := by
  refine ⟨(SymbolTable.addPackage_spec hlib _).1, ?_, ?_, ?_⟩ <;>
    exact fun hm => absurd hm List.not_mem_nil

/-- After a file was bound on top of a library, the nodes that have symbols declare them. -/
theorem bindFile_sound {lib : SymbolTable} (hlib : lib.Consistent) (t : Tree) (root : NodeId) :
    Sound t root ((ofLibraries lib).bindFile t root) := by
  rcases bindFile_cases (ofLibraries lib) t root with ⟨file, hfile⟩ | hsame
  · refine (bindFile_induct hfile (Sound t root) (fun _ _ => Visits t root) (fun _ h => h) ?_
      (sound_openFile hlib t root file) ?_).1
    · intro c outer i form result hform hent hc hv
      have hr := hv i rfl (Tree.lt_size_of_form? hform)
      exact ⟨hc.entered hr hform hent, Visits.children hr hform⟩
    · rintro _ hm i rfl hlt
      exact .statement hfile hm hlt
  · rw [hsame]
    refine ⟨hlib, ?_, ?_, ?_⟩ <;> exact fun hm => absurd hm List.not_mem_nil

/-- An opened file on top of a library is extended by what is bound. -/
theorem extends_bindFile {file : SourceFile} (hfile : t.form? root = some (.sourceFile file))
    (b : Binding) : (b.openFile t root file).1.Extends (b.bindFile t root) :=
  (bindFile_induct hfile (fun _ => True) (fun _ _ _ => True) (fun _ _ => trivial)
    (fun _ _ _ _ => ⟨trivial, fun _ _ => trivial⟩) trivial fun _ _ => trivial).2

/-! ## What declares something has a symbol -/

/-- Binding more and more keeps what is there. -/
theorem extends_bindWithin (t : Tree) (package : SymbolId) (budget : Nat)
    (outer : Option SymbolId) (b : Binding) (part : Part) :
    b.Extends (bindWithin t package budget outer b part) :=
  (bindWithin_induct (fun _ => True) (fun _ _ _ => True) (fun _ _ => trivial)
    (fun _ _ _ _ => ⟨trivial, fun _ _ => trivial⟩) budget trivial trivial).2

theorem extends_foldl_bindWithin (t : Tree) (package : SymbolId) (budget : Nat)
    (outer : Option SymbolId) (parts : List Part) (b : Binding) :
    b.Extends (parts.foldl (bindWithin t package budget outer) b) :=
  (foldl_induct (fun _ => True) (fun _ _ => True) (fun _ _ => trivial)
    (fun {b part} _ _ => ⟨trivial, extends_bindWithin t package budget outer b part⟩) parts
    trivial fun _ _ => trivial).2

/-- Each of a list of parts is visited at some point. -/
theorem exists_extends_foldl {parts : List Part} {part : Part} (hm : part ∈ parts)
    (t : Tree) (package : SymbolId) (budget : Nat) (outer : Option SymbolId) (b : Binding) :
    ∃ c, (bindWithin t package budget outer c part).Extends
      (parts.foldl (bindWithin t package budget outer) b) := by
  obtain ⟨before, after, rfl⟩ := List.append_of_mem hm
  rw [List.foldl_append, List.foldl_cons]
  exact ⟨_, extends_foldl_bindWithin t package budget outer after _⟩

/-- Every node below the statements of a file is visited, with steps enough to go on to the nodes
    below it. -/
theorem exists_visit (ht : t.WellShaped) {file : SourceFile}
    (hfile : t.form? root = some (.sourceFile file)) (hr : t.Reached root i) :
    ∃ c outer budget, i < budget ∧
      (bindWithin t (b.openFile t root file).2 budget outer c (some i)).Extends
        (b.bindFile t root) := by
  induction hr with
  | @statement other i hother hs hi =>
    have heq : other = file := by
      rw [hother] at hfile
      injection hfile with hfile
      injection hfile
    subst heq
    rw [bindFile_of_file hfile]
    obtain ⟨c, hc⟩ := exists_extends_foldl hs t (b.openFile t root other).2 t.size none
      (b.openFile t root other).1
    exact ⟨c, none, t.size, hi, hc⟩
  | @part p i hp hs hi ih =>
    obtain ⟨c, outer, budget, hlt, hext⟩ := ih
    have hip : i < p := ht.lt_of_part hs hi
    -- Numbers fall on the way down, so they bound the steps that are left.
    cases budget with
    | zero => omega
    | succ budget =>
      cases hform : t.form? p with
      | none =>
        unfold Tree.children at hs
        rw [hform] at hs
        cases hs
      | some form =>
        rw [Tree.children_of_form? hform] at hs
        rw [bindWithin, hform] at hext
        obtain ⟨c', hc'⟩ := exists_extends_foldl hs t (b.openFile t root file).2 budget
          (c.declareNode t (b.openFile t root file).2 outer p form).2
          (c.declareNode t (b.openFile t root file).2 outer p form).1
        exact ⟨c', _, budget, Nat.lt_of_lt_of_le hip (Nat.le_of_lt_succ hlt), hc'.trans hext⟩

/-- A node that declares something and names it has an entry after it was bound. -/
theorem Entered.exists_mem_declared (h : Entered b t package outer i form result)
    (hkind : form.symbolKind?.isSome = true) {name : String}
    (hname : t.declaredName? i = some name) : ∃ id, (i, id) ∈ result.1.declared := by
  cases h with
  | type _ => exact ⟨_, List.mem_cons_self⟩
  | member _ _ _ _ => exact ⟨_, List.mem_cons_self⟩
  | implicit => cases hkind
  | nothing hnone =>
    rcases hnone with hnone | hnone
    · rw [hnone] at hkind
      cases hkind
    · rw [hnone] at hname
      cases hname

/-- Only what declares something has a declared name. -/
theorem isSome_symbolKind? (hform : t.form? i = some form) {name : String}
    (hname : t.declaredName? i = some name) : form.symbolKind?.isSome = true := by
  unfold Tree.declaredName? at hname
  rw [hform] at hname
  cases form with
  | typeDecl data => rfl
  | method data => rfl
  | variableLike role data => cases role <;> rfl
  | _ => cases hname

/-- Every declaration below the statements of a file has a symbol if it has a name. -/
theorem exists_symbolOf? (ht : t.WellShaped) (hr : t.Reached root i) {name : String}
    (hname : t.declaredName? i = some name) (b : Binding) :
    ∃ id, (b.bindFile t root).symbolOf? i = some id := by
  obtain ⟨file, hfile⟩ := hr.exists_file
  obtain ⟨c, outer, budget, hlt, hext⟩ := exists_visit (b := b) ht hfile hr
  cases budget with
  | zero => omega
  | succ budget =>
    cases hform : t.form? i with
    | none =>
      unfold Tree.declaredName? at hname
      rw [hform] at hname
      cases hname
    | some form =>
      have hent : Entered c t (b.openFile t root file).2 outer i form _ :=
        entered_declareNode hform
      obtain ⟨id, hm⟩ := hent.exists_mem_declared (isSome_symbolKind? hform hname) hname
      rw [bindWithin, hform] at hext
      have hrest := extends_foldl_bindWithin t (b.openFile t root file).2 budget
        (c.declareNode t (b.openFile t root file).2 outer i form).2 form.children
        (c.declareNode t (b.openFile t root file).2 outer i form).1
      exact isSome_symbolOf? (hext.declared _ (hrest.declared _ hm))

end

end ScriptCheck.Binding
