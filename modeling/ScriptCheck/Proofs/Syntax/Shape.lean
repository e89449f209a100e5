/-
  Trees that are trees.

  Nothing keeps two nodes from holding the same part, or a node from holding a
  part that is added only later. `WellShaped` says that neither happens. Parent
  links and parts then are the same relation seen from both ends, the way up
  from a node ends, and `above` lists all of it.
-/
import ScriptCheck.Syntax.Walk

namespace ScriptCheck.Tree

/-- The trees that adding nodes leads to. -/
inductive Built : Tree → Prop
  | start : Built empty
  | add {t : Tree} (h : Built t) (form : Form) (span : Span) (modifiers : Modifiers) :
    Built (t.add form span modifiers)

/-- Nodes were added after their parts, and each is a part of one other at most. Parts that are
    missing do not count. -/
structure WellShaped (t : Tree) : Prop where
  built : t.Built
  lt_of_part : ∀ {i c : Nat}, some c ∈ t.children i → c < t.size → c < i
  part_unique : ∀ {p q c : Nat}, c < t.size → some c ∈ t.children p → some c ∈ t.children q → p = q

section

variable {t : Tree} {form : Form} {span : Span} {modifiers : Modifiers} {i c p : Nat}

/-! ## What nodes hold in a growing tree -/

/-- The kind of a node and the place of what it holds. -/
def header? (t : Tree) (i : NodeId) : Option (Kind × Option Nat) :=
  (t.node? i).map fun node => (node.kind, node.slot)

/-- What a node holds depends on its header and on the stores alone. -/
theorem form?_eq_header? (t : Tree) (i : NodeId) :
    t.form? i = (t.header? i).bind fun entry =>
      entry.2.bind fun slot => ((t.store entry.1)[slot]?).map (Form.ofKind entry.1) := by
  unfold form? header?
  cases t.node? i with
  | none => rfl
  | some node =>
    cases hslot : node.slot with
    | none => simp only [Option.bind_eq_bind, Option.bind_some, Option.map_some, hslot]; rfl
    | some slot =>
      simp only [Option.bind_eq_bind, Option.bind_some, Option.map_some, hslot]
      cases (t.store node.kind)[slot]? <;> rfl

theorem header?_add_of_lt (h : i < t.size) :
    (t.add form span modifiers).header? i = t.header? i :=
  map_node?_add_of_lt (fun _ _ => rfl) h form span modifiers

theorem header?_add_self :
    (t.add form span modifiers).header? t.size = some (form.kind, (keep t.stores form).1) :=
  map_node?_add_self (fun _ _ => rfl) t form span modifiers

theorem header?_eq_none (h : t.size ≤ i) : t.header? i = none := by
  unfold header? node?
  rw [Array.getElem?_eq_none h]
  rfl

/-- Replacing the store of a kind replaces it for all kinds that are kept in it. -/
theorem store_set (stores : Vector (Array Form) Kind.count) (nodes : Array Node) (k k' : Kind)
    (forms : Array Form) :
    (Tree.mk nodes (stores.set k'.storeIndex forms k'.storeIndex_lt)).store k =
      if k.store = k'.store then forms else (Tree.mk nodes stores).store k := by
  show (stores.set k'.storeIndex forms k'.storeIndex_lt)[k.storeIndex] = _
  rw [Fin.getElem_fin, Vector.getElem_set]
  by_cases hk : k.store = k'.store
  · have hindex : k'.storeIndex = k.storeIndex := Kind.storeIndex_inj.mpr hk.symm
    rw [if_pos (congrArg Fin.val hindex), if_pos hk]
  · have hindex : ¬(k'.storeIndex : Nat) = k.storeIndex := fun heq =>
      hk (Kind.storeIndex_inj.mp (Fin.ext heq)).symm
    rw [if_neg hindex, if_neg hk]
    rfl

theorem store_add (k : Kind) : (t.add form span modifiers).store k =
    if form ≠ .unknown ∧ k.store = form.kind.store then (t.store k).push form
    else t.store k := by
  show (Tree.mk t.nodes (keep t.stores form).2).store k = _
  unfold keep
  by_cases hf : form = .unknown
  · rw [if_pos hf, if_neg (by simp [hf])]
  · rw [if_neg hf]
    dsimp only
    rw [store_set]
    by_cases hk : k.store = form.kind.store
    · rw [if_pos hk, if_pos ⟨hf, hk⟩, store_eq_of_store_eq hk]
      rfl
    · rw [if_neg hk, if_neg fun h => hk h.2]

/-- What was stored stays where it is. -/
theorem getElem?_store_add {k : Kind} {slot : Nat} (h : slot < (t.store k).size) :
    ((t.add form span modifiers).store k)[slot]? = (t.store k)[slot]? := by
  rw [store_add]
  split
  · rw [Array.getElem?_push_lt h, Array.getElem?_eq_getElem h]
  · rfl

/-- Every place that a header names is taken. -/
theorem Built.slot_lt (h : t.Built) {k : Kind} {slot : Nat}
    (hi : t.header? i = some (k, some slot)) : slot < (t.store k).size := by
  induction h with
  | start => cases hi
  | @add t h form span modifiers ih =>
    -- Stores only grow, so the places of older nodes stay taken.
    have hmono : (t.store k).size ≤ ((t.add form span modifiers).store k).size := by
      rw [store_add]
      split
      · rw [Array.size_push]
        exact Nat.le_succ _
      · exact Nat.le_refl _
    rcases Nat.lt_trichotomy i t.size with hlt | rfl | hgt
    · rw [header?_add_of_lt hlt] at hi
      exact Nat.lt_of_lt_of_le (ih hi) hmono
    · rw [header?_add_self] at hi
      injection hi with hi
      obtain ⟨rfl, hslot⟩ := Prod.mk.inj hi
      unfold keep at hslot
      split at hslot
      · cases hslot
      · next hf =>
        injection hslot with hslot
        subst hslot
        rw [store_add, if_pos ⟨hf, rfl⟩, Array.size_push]
        exact Nat.lt_succ_self _
    · rw [header?_eq_none (by rw [size_add]; exact hgt)] at hi
      cases hi

/-- Growth leaves what nodes hold as it is. -/
theorem Built.form?_add_of_lt (h : t.Built) (hi : i < t.size) :
    (t.add form span modifiers).form? i = t.form? i := by
  rw [form?_eq_header?, form?_eq_header?, header?_add_of_lt hi]
  cases hheader : t.header? i with
  | none => rfl
  | some entry =>
    obtain ⟨k, slot⟩ := entry
    cases slot with
    | none => rfl
    | some slot =>
      show ((((t.add form span modifiers).store k)[slot]?).map (Form.ofKind k)) =
        (((t.store k)[slot]?).map (Form.ofKind k))
      rw [getElem?_store_add (h.slot_lt hheader)]

/-- A new node holds its form, unless that is nothing. -/
theorem form?_add_self :
    (t.add form span modifiers).form? t.size = if form = .unknown then none else some form := by
  rw [form?_eq_header?, header?_add_self]
  by_cases hf : form = .unknown
  · rw [if_pos hf, hf]
    rfl
  · rw [if_neg hf]
    unfold keep
    rw [if_neg hf]
    show (((t.add form span modifiers).store form.kind)[(t.store form.kind).size]?).map _ = _
    rw [store_add, if_pos ⟨hf, rfl⟩, Array.getElem?_push_size, Option.map_some, Form.ofKind_kind]

theorem form?_eq_none (h : t.size ≤ i) : t.form? i = none := by
  rw [form?_eq_header?, header?_eq_none h]
  rfl

theorem lt_size_of_form? (h : t.form? i = some form) : i < t.size := by
  refine Nat.lt_of_not_le fun hn => ?_
  rw [form?_eq_none hn] at h
  cases h

theorem kind?_eq_none (h : t.size ≤ i) : t.kind? i = none := by
  unfold kind? node?
  rw [Array.getElem?_eq_none h]
  rfl

theorem lt_size_of_kind? {k : Kind} (h : t.kind? i = some k) : i < t.size := by
  refine Nat.lt_of_not_le fun hn => ?_
  rw [kind?_eq_none hn] at h
  cases h

/-- A node holds data of its kind, unless its kind is unknown. -/
theorem Built.form?_of_kind? (h : t.Built) {k : Kind} (hk : t.kind? i = some k)
    (hne : k ≠ .unknown) : ∃ form, t.form? i = some form ∧ form.kind = k := by
  induction h with
  | start => cases hk
  | @add t h form span modifiers ih =>
    rcases Nat.lt_trichotomy i t.size with hlt | rfl | hgt
    · rw [kind?_add_of_lt hlt] at hk
      obtain ⟨held, hform, hkind⟩ := ih hk
      exact ⟨held, h.form?_add_of_lt hlt ▸ hform, hkind⟩
    · rw [kind?_add_self] at hk
      obtain rfl := Option.some.inj hk
      refine ⟨form, ?_, rfl⟩
      rw [form?_add_self, if_neg]
      rintro rfl
      exact hne rfl
    · rw [kind?_eq_none (by rw [size_add]; exact hgt)] at hk
      cases hk

/-! ## Parts in a growing tree -/

theorem children_of_form? (h : t.form? i = some form) : t.children i = form.children := by
  unfold children
  rw [h]

theorem lt_size_of_part (h : some c ∈ t.children p) : p < t.size := by
  refine Nat.lt_of_not_le fun hn => ?_
  unfold children at h
  rw [form?_eq_none hn] at h
  cases h

theorem Built.children_add_of_lt (h : t.Built) (hi : i < t.size) :
    (t.add form span modifiers).children i = t.children i := by
  unfold children
  rw [h.form?_add_of_lt hi]

theorem children_add_self : (t.add form span modifiers).children t.size = form.children := by
  unfold children
  rw [form?_add_self]
  by_cases hf : form = .unknown
  · rw [if_pos hf, hf]
    rfl
  · rw [if_neg hf]

/-! ## Parents in a growing tree -/

theorem getElem?_foldl_adopt (parts : List Part) (parent : NodeId) (nodes : Array Node) :
    (parts.foldl (adopt · parent ·) nodes)[c]? =
      if some c ∈ parts then (nodes[c]?).map fun node => { node with parent := some parent }
      else nodes[c]? := by
  induction parts generalizing nodes with
  | nil => rfl
  | cons part rest ih =>
    rw [List.foldl_cons, ih]
    cases part with
    | none => simp [adopt]
    | some d =>
      unfold adopt
      rw [Array.getElem?_modify]
      by_cases hd : d = c
      · subst hd
        simp only [if_true, List.mem_cons, true_or]
        split
        · rw [Option.map_map]
          rfl
        · rfl
      · have hne : some c ≠ some d := fun h => hd (Option.some.inj h).symm
        simp only [hd, if_false, List.mem_cons, hne, false_or]

/-- A new node becomes the parent of those of its parts that are there, itself included. All other
    nodes keep their parents. -/
theorem parent?_add : (t.add form span modifiers).parent? c =
    if c ≤ t.size ∧ some c ∈ form.children then some t.size else t.parent? c := by
  unfold parent? add node?
  dsimp only
  rw [getElem?_foldl_adopt]
  simp only [Form.mem_adopted]
  rcases Nat.lt_trichotomy c t.size with hlt | rfl | hgt
  · have hle : c ≤ t.size := Nat.le_of_lt hlt
    rw [Array.getElem?_push_lt hlt, Array.getElem?_eq_getElem hlt]
    simp only [hle, true_and]
    split <;> rfl
  · have hnew : ∀ node, (t.nodes.push node)[t.size]? = some node := fun node =>
      Array.getElem?_push_size
    have hold : t.nodes[t.size]? = none := Array.getElem?_eq_none (Nat.le_refl _)
    rw [hnew, hold]
    simp only [Nat.le_refl, true_and]
    split <;> rfl
  · have hnone : ∀ node, (t.nodes.push node)[c]? = none := fun node =>
      Array.getElem?_eq_none (by rw [Array.size_push]; exact hgt)
    have hold : t.nodes[c]? = none := Array.getElem?_eq_none (Nat.le_of_lt hgt)
    have hlate : ¬(c ≤ t.size ∧ some c ∈ form.children) := fun h => Nat.not_le.mpr hgt h.1
    rw [hnone, hold]
    simp only [hlate, if_false]
    split <;> rfl

theorem parent?_eq_none (h : t.size ≤ c) : t.parent? c = none := by
  unfold parent? node?
  rw [Array.getElem?_eq_none h]
  rfl

/-- The parts of a tree that grew by one node are those that were there and those of that node. -/
theorem Built.mem_children_add (h : t.Built) : some c ∈ (t.add form span modifiers).children p ↔
    some c ∈ t.children p ∨ (p = t.size ∧ some c ∈ form.children) := by
  rcases Nat.lt_trichotomy p t.size with hlt | rfl | hgt
  · rw [h.children_add_of_lt hlt]
    simp [Nat.ne_of_lt hlt]
  · have hold : some c ∉ t.children t.size := fun hc => Nat.lt_irrefl _ (lt_size_of_part hc)
    rw [children_add_self]
    simp [hold]
  · have hold : some c ∉ t.children p := fun hc => Nat.lt_asymm hgt (lt_size_of_part hc)
    have hnew : some c ∉ (t.add form span modifiers).children p := by
      intro hc
      have hlt := lt_size_of_part hc
      rw [size_add] at hlt
      omega
    simp [hold, hnew, Nat.ne_of_gt hgt]

/-- A node that holds `c` and was added no earlier than `c`, and after which no other node that
    holds `c` was added. -/
structure LastHolder (t : Tree) (c p : NodeId) : Prop where
  le : c ≤ p
  holds : some c ∈ t.children p
  last : ∀ q, some c ∈ t.children q → q ≤ p

/-- The parent of a node is the last one that holds it, if that one was not added before it. -/
theorem Built.parent?_eq_some_iff (h : t.Built) : t.parent? c = some p ↔ t.LastHolder c p := by
  induction h generalizing p with
  | start => exact iff_of_false nofun fun hp => List.not_mem_nil hp.holds
  | @add t hb form span modifiers ih =>
    have hholds : ∀ {q}, some c ∈ (t.add form span modifiers).children q ↔
        some c ∈ t.children q ∨ (q = t.size ∧ some c ∈ form.children) := hb.mem_children_add
    rw [parent?_add]
    by_cases hnew : c ≤ t.size ∧ some c ∈ form.children
    · -- The new node is greater than all that held the node before.
      rw [if_pos hnew, Option.some_inj]
      constructor
      · rintro rfl
        refine ⟨hnew.1, hholds.mpr (Or.inr ⟨rfl, hnew.2⟩), fun q hq => ?_⟩
        rcases hholds.mp hq with hq | hq
        · exact Nat.le_of_lt (lt_size_of_part hq)
        · exact Nat.le_of_eq hq.1
      · intro hp
        have hle : t.size ≤ p := hp.last _ (hholds.mpr (Or.inr ⟨rfl, hnew.2⟩))
        rcases hholds.mp hp.holds with hp | hp
        · exact absurd (lt_size_of_part hp) (Nat.not_lt.mpr hle)
        · exact hp.1.symm
    · -- A part that is added only later has no parent yet, whatever holds it.
      rw [if_neg hnew, ih]
      constructor
      · intro hp
        have hlt : c < t.size := Nat.lt_of_le_of_lt hp.le (lt_size_of_part hp.holds)
        refine ⟨hp.le, hholds.mpr (Or.inl hp.holds), fun q hq => ?_⟩
        rcases hholds.mp hq with hq | hq
        · exact hp.last q hq
        · exact absurd ⟨Nat.le_of_lt hlt, hq.2⟩ hnew
      · intro hp
        have hold : some c ∈ t.children p := by
          rcases hholds.mp hp.holds with hold | ⟨rfl, hpart⟩
          · exact hold
          · exact absurd ⟨hp.le, hpart⟩ hnew
        exact ⟨hp.le, hold, fun q hq => hp.last q (hholds.mpr (Or.inl hq))⟩

/-- A node has no parent only if none that holds it was added with it or after it. -/
theorem Built.parent?_eq_none_iff (h : t.Built) :
    t.parent? c = none ↔ ∀ q, c ≤ q → some c ∉ t.children q := by
  induction h with
  | start => exact iff_of_true rfl fun _ _ => List.not_mem_nil
  | @add t hb form span modifiers ih =>
    rw [parent?_add]
    by_cases hnew : c ≤ t.size ∧ some c ∈ form.children
    · rw [if_pos hnew]
      refine iff_of_false nofun fun hnone => ?_
      exact hnone t.size hnew.1 (hb.mem_children_add.mpr (Or.inr ⟨rfl, hnew.2⟩))
    · rw [if_neg hnew, ih]
      refine forall₂_congr fun q hq => not_congr ?_
      rw [hb.mem_children_add]
      refine ⟨Or.inl, fun hc => hc.resolve_right ?_⟩
      rintro ⟨rfl, hpart⟩
      exact hnew ⟨hq, hpart⟩

/-- In a well-shaped tree, the parent of a node is what it is a part of. -/
theorem WellShaped.parent?_eq_some_iff (h : t.WellShaped) :
    t.parent? c = some p ↔ some c ∈ t.children p ∧ c < t.size := by
  rw [h.built.parent?_eq_some_iff]
  constructor
  · intro hp
    exact ⟨hp.holds, Nat.lt_of_le_of_lt hp.le (lt_size_of_part hp.holds)⟩
  · rintro ⟨hp, hlt⟩
    exact ⟨Nat.le_of_lt (h.lt_of_part hp hlt), hp,
      fun q hq => Nat.le_of_eq (h.part_unique hlt hq hp)⟩

/-- Parents have greater numbers. -/
theorem WellShaped.lt_parent (h : t.WellShaped) (hp : t.parent? c = some p) : c < p := by
  obtain ⟨hc, hlt⟩ := h.parent?_eq_some_iff.mp hp
  exact h.lt_of_part hc hlt

/-- Parents are there. -/
theorem Built.parent_lt_size (h : t.Built) (hp : t.parent? c = some p) : p < t.size :=
  lt_size_of_part (h.parent?_eq_some_iff.mp hp).holds

theorem WellShaped.parent_lt_size (h : t.WellShaped) (hp : t.parent? c = some p) :
    p < t.size :=
  h.built.parent_lt_size hp

/-- Whether a tree that was built is well shaped can be seen from its finitely many nodes: every
    part comes before its node and has it for a parent. -/
theorem Built.wellShaped (hb : t.Built)
    (h : ∀ p < t.size, ∀ c ∈ (t.children p).filterMap id, c < t.size →
      c < p ∧ t.parent? c = some p) : t.WellShaped := by
  have hpart : ∀ {p c}, c < t.size → some c ∈ t.children p → c < p ∧ t.parent? c = some p :=
    fun hc hm => h _ (lt_size_of_part hm) _ (List.mem_filterMap.mpr ⟨_, hm, rfl⟩) hc
  refine ⟨hb, fun hm hc => (hpart hc hm).1, fun {p q c} hc hp hq => ?_⟩
  exact Option.some.inj ((hpart hc hp).2.symm.trans (hpart hc hq).2)

end

/-! ## Trees given by their nodes -/

/-- A node to be added: what it is and holds, its range and its modifiers. -/
structure Addition where
  form : Form
  span : Span
  modifiers : Modifiers

/-- The tree after additions, one after the other. -/
def grow (t : Tree) (additions : List Addition) : Tree :=
  additions.foldl (fun t a => t.add a.form a.span a.modifiers) t

/-- The tree to which additions lead. -/
def ofAdditions (additions : List Addition) : Tree := empty.grow additions

@[simp] theorem grow_nil (t : Tree) : t.grow [] = t := rfl

@[simp] theorem grow_cons (t : Tree) (a : Addition) (rest : List Addition) :
    t.grow (a :: rest) = (t.add a.form a.span a.modifiers).grow rest := rfl

theorem grow_append (t : Tree) (first second : List Addition) :
    t.grow (first ++ second) = (t.grow first).grow second := List.foldl_append

@[simp] theorem size_grow (t : Tree) (additions : List Addition) :
    (t.grow additions).size = t.size + additions.length := by
  induction additions generalizing t with
  | nil => rfl
  | cons a rest ih =>
    rw [grow_cons, ih, size_add, List.length_cons]
    omega

theorem Built.grow {t : Tree} (h : t.Built) (additions : List Addition) :
    (t.grow additions).Built := by
  induction additions generalizing t with
  | nil => exact h
  | cons a rest ih => exact ih (h.add _ _ _)

theorem built_ofAdditions (additions : List Addition) : (ofAdditions additions).Built :=
  Built.start.grow additions

/-- The tree of the given nodes; where they stand in the source does not matter. -/
def ofNodes (nodes : List (Form × Modifiers)) : Tree :=
  nodes.foldl (fun t node => t.add node.1 default node.2) empty

theorem built_ofNodes (nodes : List (Form × Modifiers)) : (ofNodes nodes).Built := by
  have h := built_ofAdditions (nodes.map fun node => ⟨node.1, default, node.2⟩)
  unfold ofAdditions Tree.grow at h
  rw [List.foldl_map] at h
  exact h

end ScriptCheck.Tree
