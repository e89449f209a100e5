/-
  What a tree says of the nodes that were added to it.

  Nodes are only ever added, and what they hold goes into the stores that they
  share with other nodes of their sort. `ofAdditions_keeps` says that nothing
  gets lost or mixed up on the way: at the end every node is what its own
  addition made it, but for its parent. `parent?_ofAdditions` says what the
  parent is: parent links, which are set one part at a time when a node is
  added, lead to the last node that lists the child.

  Parts may be missing, shared or listed twice, and they may be the node itself,
  a node that is added only later, or none at all.
-/
import Mathlib.Order.Bounds.Defs
import ScriptCheck.Proofs.Syntax.Shape

namespace ScriptCheck

/-- The header of a node as if it had no parent. -/
def Node.orphaned (node : Node) : Node := { node with parent := none }

namespace Tree

/-- A later tree has all nodes of an earlier one, as they were but for their parents. -/
structure Keeps (t u : Tree) : Prop where
  size_le : t.size ≤ u.size
  header : ∀ i < t.size, (u.node? i).map Node.orphaned = (t.node? i).map Node.orphaned
  form? : ∀ i < t.size, u.form? i = t.form? i

section

variable {t u v : Tree} {i : Nat}

/-! ## What stays -/

theorem Keeps.refl (t : Tree) : t.Keeps t := ⟨Nat.le_refl _, fun _ _ => rfl, fun _ _ => rfl⟩

theorem Keeps.trans (htu : t.Keeps u) (huv : u.Keeps v) : t.Keeps v := by
  have hlt : ∀ {i}, i < t.size → i < u.size := fun hi => Nat.lt_of_lt_of_le hi htu.size_le
  refine ⟨Nat.le_trans htu.size_le huv.size_le, fun i hi => ?_, fun i hi => ?_⟩
  · rw [huv.header i (hlt hi), htu.header i hi]
  · rw [huv.form? i (hlt hi), htu.form? i hi]

/-- What does not depend on the parent stays as it is. -/
theorem Keeps.map_node? {α : Type} {f : Node → α} (h : t.Keeps u) (hi : i < t.size)
    (hf : ∀ node : Node, f node.orphaned = f node) : (u.node? i).map f = (t.node? i).map f := by
  have hcomp : f ∘ Node.orphaned = f := funext hf
  have hheader := congrArg (Option.map f) (h.header i hi)
  rw [Option.map_map, Option.map_map, hcomp] at hheader
  exact hheader

theorem Keeps.kind? (h : t.Keeps u) (hi : i < t.size) : u.kind? i = t.kind? i :=
  h.map_node? hi fun _ => rfl

theorem Keeps.dataIn? (h : t.Keeps u) (hi : i < t.size) (k : Kind) :
    u.dataIn? k i = t.dataIn? k i := by
  rw [dataIn?_eq_form?, dataIn?_eq_form?, h.kind? hi, h.form? i hi]

/-- Adding a node touches nothing but the parents of the others. -/
theorem Built.keeps_add (h : t.Built) (a : Addition) :
    t.Keeps (t.add a.form a.span a.modifiers) := by
  refine ⟨?_, fun i hi => ?_, fun i hi => h.form?_add_of_lt hi⟩
  · rw [size_add]
    omega
  · exact map_node?_add_of_lt (fun _ _ => rfl) hi _ _ _

/-- No more do many additions. -/
theorem Built.keeps_grow (h : t.Built) (additions : List Addition) :
    t.Keeps (t.grow additions) := by
  induction additions generalizing t with
  | nil => exact Keeps.refl t
  | cons a rest ih =>
    have hnext : (t.add a.form a.span a.modifiers).Built := h.add _ _ _
    exact (h.keeps_add a).trans (ih hnext)

/-- A node that is added is what its addition says, however many are added after it. -/
theorem Built.form?_grow (h : t.Built) {additions : List Addition} {k : Nat}
    {a : Addition} (ha : additions[k]? = some a) (hne : a.form ≠ .unknown) :
    (t.grow additions).form? (t.size + k) = some a.form := by
  induction additions generalizing t k with
  | nil => cases ha
  | cons first rest ih =>
    have hnext : (t.add first.form first.span first.modifiers).Built := h.add _ _ _
    have hsize : (t.add first.form first.span first.modifiers).size = t.size + 1 := size_add ..
    rw [grow_cons]
    cases k with
    | zero =>
      obtain rfl : first = a := Option.some.inj ha
      rw [Nat.add_zero, (hnext.keeps_grow rest).form? t.size (by omega), form?_add_self,
        if_neg hne]
    | succ k =>
      rw [show t.size + (k + 1) = (t.add first.form first.span first.modifiers).size + k by omega]
      exact ih hnext ha

/-! ## What is there at first -/

/-- A new node holds its form in the store of its kind and nothing in any other one. -/
theorem dataIn?_add_self (t : Tree) (a : Addition) (k : Kind) :
    (t.add a.form a.span a.modifiers).dataIn? k t.size =
      if a.form ≠ .unknown ∧ k.store = a.form.kind.store then some a.form else none := by
  rw [dataIn?_eq_form?, kind?_add_self, form?_add_self, Option.map_some]
  simp only [Option.some_inj]
  by_cases hform : a.form = .unknown
  · simp [hform]
  · by_cases hk : k.store = a.form.kind.store
    · simp [hform, hk]
    · simp [hform, hk, Ne.symm hk]

end

/-! ## Every addition -/

/-- At the end of any additions, the node that one of them added is of the kind, range and modifiers
    that it was added with. The store of its kind holds for it the form that it was added with, the
    lists of parts as they were given, and no other store holds anything for it; a node that nothing
    can be made of has no data at all. Whatever was added since it was there changed its parent at
    most. -/
theorem ofAdditions_keeps (before now later : List Addition) (a : Addition) :
    let first := ofAdditions (before ++ a :: now)
    let last := ofAdditions (before ++ a :: now ++ later)
    let i := before.length
    (last.kind? i = some a.form.kind ∧ last.span? i = some a.span ∧
        last.modifiers i = a.modifiers) ∧
      (∀ k, last.dataIn? k i =
        if a.form ≠ .unknown ∧ k.store = a.form.kind.store then some a.form else none) ∧
      (last.node? i).map Node.orphaned = (first.node? i).map Node.orphaned ∧
      ∀ k, last.dataIn? k i = first.dataIn? k i := by
  intro first last i
  -- The tree right after the addition, from which the other two grow.
  let start := ofAdditions before
  let u := start.add a.form a.span a.modifiers
  have hstart : start.Built := built_ofAdditions before
  have hu : u.Built := hstart.add _ _ _
  have hsize : start.size = i := by
    show (empty.grow before).size = before.length
    rw [size_grow]
    exact Nat.zero_add _
  have hi : i < u.size := by
    rw [size_add, hsize]
    omega
  have hfirst : first = u.grow now := grow_append empty before (a :: now)
  have hlast : last = first.grow later := grow_append empty (before ++ a :: now) later
  have hkeeps : u.Keeps last := by
    rw [hlast, hfirst, ← grow_append]
    exact hu.keeps_grow _
  have hsince : first.Keeps last := by
    rw [hlast]
    exact (built_ofAdditions _).keeps_grow later
  have hifirst : i < first.size := by
    rw [hfirst, size_grow]
    omega
  have hheader : ∀ {α : Type} (f : Node → α), (∀ node : Node, f node.orphaned = f node) →
      (last.node? i).map f =
        some (f ⟨a.form.kind, a.span, none, a.modifiers, (keep start.stores a.form).1⟩) := by
    intro α f hf
    rw [hkeeps.map_node? hi hf, ← hsize]
    exact map_node?_add_self (fun node part => (hf _).symm.trans (hf node)) start _ _ _
  refine ⟨⟨?_, ?_, ?_⟩, fun k => ?_, hsince.header i hifirst, fun k => hsince.dataIn? hifirst k⟩
  · exact hheader Node.kind fun _ => rfl
  · exact hheader Node.span fun _ => rfl
  · have hmodifiers := hheader Node.modifiers fun _ => rfl
    unfold modifiers
    rw [hmodifiers]
    rfl
  · rw [hkeeps.dataIn? hi, ← hsize]
    exact dataIn?_add_self start a k

/-- At the end of any additions, the parent of a node is the greatest of the nodes that list it
    among their children and are no smaller than it is, and there is no parent if there are no such
    nodes. -/
theorem parent?_ofAdditions (additions : List Addition) (c : NodeId) :
    let t := ofAdditions additions
    (∀ p, t.parent? c = some p ↔ IsGreatest {q | c ≤ q ∧ some c ∈ t.children q} p) ∧
      (t.parent? c = none ↔ ∀ q, c ≤ q → some c ∉ t.children q) := by
  intro t
  have ht : t.Built := built_ofAdditions additions
  refine ⟨fun p => ht.parent?_eq_some_iff.trans ?_, ht.parent?_eq_none_iff⟩
  constructor
  · intro hp
    refine ⟨⟨hp.le, hp.holds⟩, ?_⟩
    rintro q ⟨-, hq⟩
    exact hp.last q hq
  · rintro ⟨⟨hle, hp⟩, hgreatest⟩
    refine ⟨hle, hp, fun q hq => ?_⟩
    -- A node before `c` that lists it is before `p` too.
    rcases Nat.le_total c q with hcq | hqc
    · exact hgreatest ⟨hcq, hq⟩
    · exact Nat.le_trans hqc hle

/-- Node 0 is listed by nodes 1 and 3, node 1 by itself twice, node 2 only before it is there, and
    node 4 by node 4 as well as by node 3; node 9 is not there. -/
example :
    let t := ofAdditions
      [⟨.identifier "a", default, .none⟩,
        ⟨.block [some 0, some 1, none, some 1, some 2, some 9], default, .none⟩,
        ⟨.unknown, default, .none⟩,
        ⟨.argumentList [some 4, some 0], default, .none⟩,
        ⟨.parenthesized (some 4), default, .none⟩]
    (List.range 5).map t.parent? = [some 3, some 1, none, none, some 4] := by
  decide +kernel

end Tree

end ScriptCheck
