/-
  What a name can stand for.

  The search for a value goes through the scopes around it; it stops at the
  first one that offers something (`searchScopes_eq_some`,
  `searchScopes_append`). What the other places of a name give, members, types
  and packages, is never a local variable: the `kind_of` lemmas say of what
  kind it is. Searches that a change leaves alone up to one symbol are compared
  with `SameUnless`.
-/
import ScriptCheck.Proofs.Binding.Declarations
import ScriptCheck.Proofs.Script.Classes
import ScriptCheck.Proofs.Syntax.Edits

namespace ScriptCheck.Script

/-- Whether a symbol is there and of one of the given kinds. -/
def HasKind (s : Script) (kinds : List SymbolKind) (id : SymbolId) : Prop :=
  ∃ symbol, s.symbols.get? id = some symbol ∧ symbol.kind ∈ kinds

theorem hasKind_iff {s : Script} {kinds : List SymbolKind} {id : SymbolId} :
    s.HasKind kinds id ↔ (s.symbols.get? id).any (kinds.contains ·.kind) = true := by
  unfold HasKind
  rw [Option.any_eq_true]
  simp only [List.contains_iff_mem]

instance (s : Script) (kinds : List SymbolKind) (id : SymbolId) :
    Decidable (s.HasKind kinds id) :=
  decidable_of_iff _ hasKind_iff.symm

/-- Whether a type body is among the given nodes. -/
def passesBody (s : Script) (nodes : List NodeId) : Bool :=
  nodes.any fun i => s.tree.kind? i = some .classBody

/-! ## Searches compared -/

/-- Two searches that agree in all places find the same. -/
theorem findSome?_congr {α β : Type _} {f g : α → Option β} {l : List α}
    (h : ∀ a ∈ l, f a = g a) : l.findSome? f = l.findSome? g := by
  rw [← List.head?_filterMap, ← List.head?_filterMap, List.filterMap_congr h]

/-- Two answers are the same, unless the first one is the symbol `z`. -/
def SameUnless (z before after : Option SymbolId) : Prop :=
  after = before ∨ ∃ id, z = some id ∧ before = some id

section

variable {z : Option SymbolId}

theorem SameUnless.refl (a : Option SymbolId) : SameUnless z a a := Or.inl rfl

/-- One search after the other. -/
theorem SameUnless.orElse {a a' b b' : Option SymbolId} (ha : SameUnless z a a')
    (hb : SameUnless z b b') : SameUnless z (a <|> b) (a' <|> b') := by
  rcases ha with rfl | ⟨id, hz, rfl⟩
  · cases a' with
    | none => exact hb
    | some id => exact Or.inl rfl
  · exact Or.inr ⟨id, hz, rfl⟩

/-- The same search in many places. -/
theorem SameUnless.findSome? {α : Type} {f g : α → Option SymbolId} {l : List α}
    (h : ∀ a ∈ l, SameUnless z (f a) (g a)) : SameUnless z (l.findSome? f) (l.findSome? g) := by
  induction l with
  | nil => exact .refl none
  | cons a rest ih =>
    have hcons : ∀ f : α → Option SymbolId,
        (a :: rest).findSome? f = (f a <|> rest.findSome? f) := by
      intro f
      rw [List.findSome?_cons]
      cases f a <;> rfl
    rw [hcons, hcons]
    exact (h a List.mem_cons_self).orElse (ih fun b hb => h b (List.mem_cons_of_mem _ hb))

/-- An answer that is not that symbol is the same. -/
theorem SameUnless.eq {a b : Option SymbolId} (h : SameUnless z a b)
    (hne : ∀ id, z = some id → a ≠ some id) : b = a := by
  rcases h with heq | ⟨id, hz, ha⟩
  · exact heq
  · exact absurd ha (hne id hz)

end

section

variable {s : Script} {root : NodeId} {id : SymbolId}

/-! ## One scope after the other -/

theorem eq_some_of_orElse {α : Type _} {a b : Option α} {x : α} (h : (a <|> b) = some x) :
    a = some x ∨ (a = none ∧ b = some x) := by
  cases a with
  | none => exact Or.inr ⟨rfl, h⟩
  | some y => exact Or.inl h

/-- Whether a type body was passed, one more node on. -/
theorem passesBody_cons {scope : NodeId} {kind : Kind} (hkind : s.tree.kind? scope = some kind)
    (inner : List NodeId) :
    s.passesBody (scope :: inner) = (decide (kind = .classBody) || s.passesBody inner) := by
  unfold passesBody
  simp only [List.any_cons, hkind, Option.some_inj]

theorem passesBody_nil (s : Script) : s.passesBody [] = false := rfl

/-- What a search finds is offered by one of the scopes, to the part it comes from. -/
theorem searchScopes_eq_some {offer : Bool → NodeId → NodeId → Option SymbolId} {inType : Bool}
    {child : NodeId} {scopes : List NodeId}
    (h : s.searchScopes offer inType child scopes = some id) :
    ∃ inner scope outer, scopes = inner ++ scope :: outer ∧
      offer (inType || s.passesBody inner) (inner.getLastD child) scope = some id := by
  induction scopes generalizing inType child with
  | nil => cases h
  | cons scope rest ih =>
    rw [searchScopes] at h
    cases hkind : s.tree.kind? scope with
    | none =>
      rw [hkind] at h
      cases h
    | some kind =>
      rw [hkind] at h
      rcases eq_some_of_orElse h with ho | ⟨_, hrest⟩
      · refine ⟨[], scope, rest, rfl, ?_⟩
        rw [passesBody_nil, Bool.or_false]
        exact ho
      · obtain ⟨inner, found, outer, rfl, ho⟩ := ih hrest
        refine ⟨scope :: inner, found, outer, rfl, ?_⟩
        rw [passesBody_cons hkind, ← Bool.or_assoc, List.getLastD_cons]
        exact ho

/-- A search finds what a scope offers if the scopes before it are there and offer nothing else. -/
theorem searchScopes_append {offer : Bool → NodeId → NodeId → Option SymbolId} {inType : Bool}
    {child scope : NodeId} {inner outer : List NodeId}
    (hthere : ∀ x ∈ inner ++ [scope], (s.tree.kind? x).isSome = true)
    (honly : ∀ before x after, inner = before ++ x :: after → ∀ other,
      offer (inType || s.passesBody before) (before.getLastD child) x = some other → other = id)
    (hsome : offer (inType || s.passesBody inner) (inner.getLastD child) scope = some id) :
    s.searchScopes offer inType child (inner ++ scope :: outer) = some id := by
  induction inner generalizing inType child with
  | nil =>
    obtain ⟨kind, hkind⟩ := Option.isSome_iff_exists.mp (hthere scope List.mem_cons_self)
    rw [passesBody_nil, Bool.or_false] at hsome
    rw [List.nil_append, searchScopes, hkind]
    dsimp only
    rw [show offer inType child scope = some id from hsome]
    rfl
  | cons x inner ih =>
    obtain ⟨kind, hkind⟩ := Option.isSome_iff_exists.mp (hthere x List.mem_cons_self)
    rw [List.cons_append, searchScopes, hkind]
    dsimp only
    cases hfirst : offer inType child x with
    | some other =>
      have h := honly [] x inner rfl other
      rw [passesBody_nil, Bool.or_false] at h
      rw [h hfirst]
      rfl
    | none =>
      -- The rest of the way knows the first scope as the part that it comes from.
      refine ih (fun y hy => hthere y (List.mem_cons_of_mem _ hy)) ?_ ?_
      · rintro before y after rfl
        have h := honly (x :: before) y after rfl
        rwa [passesBody_cons hkind, ← Bool.or_assoc, List.getLastD_cons] at h
      · rwa [passesBody_cons hkind, ← Bool.or_assoc, List.getLastD_cons] at hsome

/-! ## Kinds of what is found -/

theorem HasKind.mono {kinds more : List SymbolKind} (h : s.HasKind kinds id)
    (hsub : ∀ k ∈ kinds, k ∈ more) : s.HasKind more id := by
  obtain ⟨symbol, hget, hk⟩ := h
  exact ⟨symbol, hget, hsub _ hk⟩

/-- Sets of kinds without a kind in common have no symbol in common. -/
theorem HasKind.disjoint {kinds others : List SymbolKind} (h : s.HasKind kinds id)
    (ho : s.HasKind others id) (hd : ∀ k ∈ kinds, k ∉ others) : False := by
  obtain ⟨symbol, hget, hk⟩ := h
  obtain ⟨other, hget', hk'⟩ := ho
  obtain rfl : symbol = other := Option.some.inj (hget.symm.trans hget')
  exact hd _ hk hk'

theorem hasKind_of_isType (h : s.symbols.isType id = true) : s.HasKind [.type] id := by
  obtain ⟨symbol, hget, hk⟩ := SymbolTable.isType_iff.mp h
  exact ⟨symbol, hget, List.mem_singleton.mpr hk⟩

/-- The symbol of a node has a kind that the node can declare. -/
theorem hasKind_of_symbolOf? (hs : Binding.Sound s.tree root s.binding) (ht : s.tree.Edited)
    {i : NodeId} {kind : Kind} {kinds : List SymbolKind} (hi : s.symbolOf? i = some id)
    (hkind : s.tree.isOneOf [kind] i = true)
    (hall : ∀ form : Form, form.kind = kind → ∀ k, form.symbolKind? = some k → k ∈ kinds) :
    s.HasKind kinds id := by
  obtain ⟨symbol, hget, hd⟩ := hs.declared (Binding.mem_declared_of_symbolOf? hi)
  obtain ⟨form, hform, hsk⟩ := hd.form
  refine ⟨symbol, hget, hall form ?_ _ hsk⟩
  rw [Tree.isOneOf_singleton_iff, ht.kind?_of_form? hform] at hkind
  exact Option.some.inj hkind

/-- What a declaration of a type declares is a type. -/
theorem isType_of_typeDeclaration (hs : Binding.Sound s.tree root s.binding) (ht : s.tree.Edited)
    {i : NodeId} (hi : s.symbolOf? i = some id)
    (hkind : s.tree.isOneOf [.typeDeclaration] i = true) : s.symbols.isType id = true := by
  have htype : s.HasKind [.type] id := by
    refine hasKind_of_symbolOf? hs ht hi hkind fun form hk k hsk => ?_
    cases form with
    | typeDecl data => exact List.mem_singleton.mpr (Option.some.inj hsk).symm
    | variableLike role data => cases role <;> cases hk
    | _ => cases hsk <;> cases hk
  obtain ⟨symbol, hget, hk⟩ := htype
  exact SymbolTable.isType_iff.mpr ⟨symbol, hget, List.mem_singleton.mp hk⟩

theorem hasKind_of_typeDeclaration (hs : Binding.Sound s.tree root s.binding) (ht : s.tree.Built)
    {i : NodeId} (hi : s.symbolOf? i = some id)
    (hkind : s.tree.isOneOf [.typeDeclaration] i = true) : s.HasKind [.type] id :=
  hasKind_of_isType (isType_of_typeDeclaration hs ht.edited hi hkind)

/-- The types around a place are types. -/
theorem isType_of_mem_enclosingTypes (hs : Binding.Sound s.tree root s.binding)
    (ht : s.tree.Edited) {site : NodeId} (h : id ∈ s.enclosingTypes site) :
    s.symbols.isType id = true := by
  unfold enclosingTypes at h
  obtain ⟨i, hi, hid⟩ := List.mem_filterMap.mp h
  exact isType_of_typeDeclaration hs ht hid (List.mem_filter.mp hi).2

theorem hasKind_of_mem_inherited {supertypes : Supertypes}
    {kinds : List SymbolKind} {type : SymbolId} {name : String}
    (h : id ∈ s.inherited supertypes kinds type name) : s.HasKind kinds id := by
  unfold inherited at h
  obtain ⟨t, _, hm⟩ := List.mem_flatMap.mp h
  exact hasKind_iff.mpr (List.mem_filter.mp hm).2

/-- An overload is one of the candidates. -/
theorem mem_of_pickOverload {candidates : List SymbolId} {count : Option Nat}
    (h : s.pickOverload candidates count = some id) : id ∈ candidates := by
  unfold pickOverload at h
  rcases eq_some_of_orElse h with hfit | ⟨_, hfirst⟩
  · obtain ⟨n, _, hn⟩ := Option.bind_eq_some_iff.mp hfit
    exact List.mem_of_find?_eq_some hn
  · exact List.mem_of_mem_head? hfirst

theorem hasKind_of_accessor? {supertypes : Supertypes} {type : SymbolId} {name : String}
    (h : s.accessor? supertypes type name = some id) : s.HasKind [.method] id := by
  unfold accessor? at h
  split at h
  · cases h
  · obtain ⟨verb, _, hv⟩ := List.exists_of_findSome?_eq_some h
    exact hasKind_of_mem_inherited (List.mem_of_find?_eq_some hv)

/-- Members are fields, types and methods. -/
theorem hasKind_of_memberWith {supertypes : Supertypes} {type : SymbolId} {name : String}
    {count : Option Nat} (h : s.memberWith supertypes type name count = some id) :
    s.HasKind [.field, .type, .method] id := by
  have hfield : id ∈ s.fields supertypes type name → s.HasKind [.field, .type, .method] id :=
    fun hm => (hasKind_of_mem_inherited hm).mono (by decide)
  have hmethod : id ∈ s.methods supertypes type name → s.HasKind [.field, .type, .method] id :=
    fun hm => (hasKind_of_mem_inherited hm).mono (by decide)
  unfold memberWith at h
  split at h
  · rcases eq_some_of_orElse h with hm | ⟨_, hf⟩
    · exact hmethod (mem_of_pickOverload hm)
    · exact hfield (List.mem_of_mem_head? hf)
  · rcases eq_some_of_orElse h with hf | ⟨_, hrest⟩
    · exact hfield (List.mem_of_mem_head? hf)
    · rcases eq_some_of_orElse hrest with ha | ⟨_, hm⟩
      · exact (hasKind_of_accessor? ha).mono (by decide)
      · exact hmethod (List.mem_of_mem_head? hm)

/-- A static import brings in a member. -/
theorem hasKind_of_staticImport? {member : MemberSearch} {kinds : List SymbolKind}
    (hmember : ∀ {type name count id}, member type name count = some id → s.HasKind kinds id)
    {name : String} {count : Option Nat} (h : s.staticImport? member name count = some id) :
    s.HasKind kinds id := by
  unfold staticImport? at h
  obtain ⟨data, _, hd⟩ := List.exists_of_findSome?_eq_some h
  split at hd
  · cases hd
  · split at hd
    · obtain ⟨type, _, hm⟩ := Option.bind_eq_some_iff.mp hd
      exact hmember hm
    · obtain ⟨⟨outer, imported⟩, _, hrest⟩ := Option.bind_eq_some_iff.mp hd
      dsimp only at hrest
      split at hrest
      · obtain ⟨type, _, hm⟩ := Option.bind_eq_some_iff.mp hrest
        exact hmember hm
      · cases hrest

theorem hasKind_of_type? (hs : s.symbols.Consistent) {q : String}
    (h : s.symbols.type? q = some id) : s.HasKind [.type, .package] id :=
  (hasKind_of_isType (isType_of_type? hs h)).mono (by decide)

theorem isType_of_enclosingType? (hs : Binding.Sound s.tree root s.binding) (ht : s.tree.Built)
    {site : NodeId} {name : String} (h : s.enclosingType? site name = some id) :
    s.symbols.isType id = true := by
  unfold enclosingType? at h
  obtain ⟨outer, hm, ho⟩ := List.exists_of_findSome?_eq_some h
  split at ho
  · obtain rfl := Option.some.inj ho
    exact isType_of_mem_enclosingTypes hs ht.edited hm
  · exact List.find?_some ho

theorem hasKind_of_enclosingType? (hs : Binding.Sound s.tree root s.binding) (ht : s.tree.Built)
    {site : NodeId} {name : String} (h : s.enclosingType? site name = some id) :
    s.HasKind [.type, .package] id :=
  (hasKind_of_isType (isType_of_enclosingType? hs ht h)).mono (by decide)

theorem hasKind_of_fileType? (hs : Binding.Sound s.tree root s.binding) (ht : s.tree.Built)
    {name : String} (h : s.fileType? name = some id) : s.HasKind [.type, .package] id := by
  unfold fileType? at h
  obtain ⟨statement, _, hd⟩ := List.exists_of_findSome?_eq_some h
  obtain ⟨i, _, hi⟩ := Option.bind_eq_some_iff.mp hd
  split at hi
  · next hcond =>
    exact (hasKind_of_typeDeclaration hs ht hi (Bool.and_eq_true_iff.mp hcond).1).mono (by decide)
  · cases hi

/-- In type position a name stands for a type or a package. -/
theorem hasKind_of_lookupType (hs : Binding.Sound s.tree root s.binding) (ht : s.tree.Built)
    {site : NodeId} {name : String} (h : s.lookupType site name = some id) :
    s.HasKind [.type, .package] id := by
  have hc : s.symbols.Consistent := hs.consistent
  unfold lookupType at h
  -- The places of a type name in the order in which they are asked.
  rcases eq_some_of_orElse h with h | ⟨_, h⟩
  · exact hasKind_of_enclosingType? hs ht h
  rcases eq_some_of_orElse h with h | ⟨_, h⟩
  · exact hasKind_of_fileType? hs ht h
  rcases eq_some_of_orElse h with h | ⟨_, h⟩
  · obtain ⟨data, _, hd⟩ := List.exists_of_findSome?_eq_some h
    split at hd
    · exact hasKind_of_type? hc hd
    · cases hd
  rcases eq_some_of_orElse h with h | ⟨_, h⟩
  · exact hasKind_of_type? hc h
  rcases eq_some_of_orElse h with h | ⟨_, h⟩
  · obtain ⟨data, _, hd⟩ := List.exists_of_findSome?_eq_some h
    split at hd
    · exact hasKind_of_type? hc hd
    · cases hd
  rcases eq_some_of_orElse h with h | ⟨_, h⟩
  · obtain ⟨path, _, hd⟩ := List.exists_of_findSome?_eq_some h
    split at hd
    · exact hasKind_of_type? hc hd
    · split at hd
      · exact hasKind_of_type? hc hd
      · cases hd
  · obtain ⟨symbol, hget, hk, _⟩ := hc.get?_of_package? h
    exact ⟨symbol, hget, by rw [hk]; decide⟩

end

end ScriptCheck.Script
