/-
  The work a search has left.

  A search through a graph keeps a list of nodes to look at and a list of those
  it took already. It opens a node once, and then has the successors of that
  node to look at. So what it still has to do is bounded by the list and by the
  edges out of nodes that were not taken: `untakenEdges` counts these, and
  taking a node trades its edges for entries of the list. What it has done is that
  the successors of every node it took were taken too or are on the list, which
  is `Opened`.
-/
import Mathlib.Algebra.GroupWithZero.Nat
import Mathlib.Data.List.Nodup
import Mathlib.Logic.Relation

namespace ScriptCheck

/-- How many edges lead out of those nodes of `nodes` that were not taken. -/
def untakenEdges (next : Nat → List Nat) (nodes taken : List Nat) : Nat :=
  ((nodes.filter fun x => !taken.contains x).map fun x => (next x).length).sum

section

variable {next : Nat → List Nat} {nodes taken : List Nat} {x : Nat}

/-- Before anything is taken all edges count. -/
theorem untakenEdges_nil :
    untakenEdges next nodes [] = (nodes.map fun y => (next y).length).sum := by
  have hall : (nodes.filter fun y => !([] : List Nat).contains y) = nodes :=
    List.filter_eq_self.mpr fun _ _ => rfl
  unfold untakenEdges
  rw [hall]

theorem untakenEdges_cons (y : Nat) : untakenEdges next (y :: nodes) taken =
    (if y ∈ taken then 0 else (next y).length) + untakenEdges next nodes taken := by
  unfold untakenEdges
  by_cases hy : y ∈ taken
  · rw [if_pos hy, Nat.zero_add, List.filter_cons_of_neg (by simpa using hy)]
  · rw [if_neg hy, List.filter_cons_of_pos (by simpa using hy), List.map_cons, List.sum_cons]

/-- A node outside of `nodes` has no edges to count. -/
theorem untakenEdges_take_of_not_mem (h : x ∉ nodes) :
    untakenEdges next nodes (x :: taken) = untakenEdges next nodes taken := by
  induction nodes with
  | nil => rfl
  | cons y nodes ih =>
    rw [List.mem_cons, not_or] at h
    have hmem : y ∈ x :: taken ↔ y ∈ taken := by
      rw [List.mem_cons]
      exact or_iff_right (Ne.symm h.1)
    rw [untakenEdges_cons, untakenEdges_cons, ih h.2]
    simp only [hmem]

/-- Taking a node takes its edges out of the count. -/
theorem untakenEdges_take_of_mem (hn : nodes.Nodup) (h : x ∈ nodes) (ht : x ∉ taken) :
    untakenEdges next nodes (x :: taken) + (next x).length =
      untakenEdges next nodes taken := by
  induction nodes with
  | nil => cases h
  | cons y nodes ih =>
    obtain ⟨hy, hrest⟩ := List.nodup_cons.mp hn
    rw [untakenEdges_cons, untakenEdges_cons]
    by_cases hxy : x = y
    · subst hxy
      rw [untakenEdges_take_of_not_mem hy, if_pos List.mem_cons_self, if_neg ht]
      omega
    · have hm : x ∈ nodes := (List.mem_cons.mp h).resolve_left hxy
      have hmem : y ∈ x :: taken ↔ y ∈ taken := by
        rw [List.mem_cons]
        exact or_iff_right (Ne.symm hxy)
      rw [← ih hrest hm]
      simp only [hmem]
      omega

/-- Taking a node trades its edges for entries of the worklist, whether or not it belongs to
    `nodes`, as long as all edges start there. -/
theorem untakenEdges_take (hn : nodes.Nodup) (hout : ∀ y, y ∉ nodes → next y = [])
    (ht : x ∉ taken) :
    untakenEdges next nodes (x :: taken) + (next x).length =
      untakenEdges next nodes taken := by
  by_cases hx : x ∈ nodes
  · exact untakenEdges_take_of_mem hn hx ht
  · rw [untakenEdges_take_of_not_mem hx, hout x hx]
    rfl

/-- Once all nodes were taken no edges are left. -/
theorem untakenEdges_of_subset (hall : ∀ x ∈ nodes, x ∈ taken) :
    untakenEdges next nodes taken = 0 := by
  have hnone : (nodes.filter fun x => !taken.contains x) = [] := by
    simpa [List.filter_eq_nil_iff] using hall
  simp only [untakenEdges, hnone, List.map_nil, List.sum_nil]

/-! ## What was opened -/

/-- The successors of what was taken were taken too or wait to be. -/
def Opened (next : Nat → List Nat) (waiting taken : List Nat) : Prop :=
  ∀ x ∈ taken, ∀ y ∈ next x, y ∈ taken ∨ y ∈ waiting

theorem opened_nil (next : Nat → List Nat) (waiting : List Nat) : Opened next waiting [] :=
  fun _ hx => absurd hx List.not_mem_nil

/-- Taking a node for the second time opens nothing. -/
theorem Opened.skip {waiting : List Nat} (ho : Opened next (x :: waiting) taken)
    (hx : x ∈ taken) : Opened next waiting taken := by
  intro y hy z hz
  rcases ho y hy z hz with ht | hw
  · exact Or.inl ht
  · rcases List.mem_cons.mp hw with rfl | hw
    · exact Or.inl hx
    · exact Or.inr hw

/-- Taking a node opens it: what waits afterwards has to cover its successors and what waited
    before. -/
theorem Opened.take {waiting more : List Nat} (ho : Opened next (x :: waiting) taken)
    (hold : ∀ y ∈ waiting, y ∈ more) (hnew : ∀ y ∈ next x, y ∈ more) :
    Opened next more (x :: taken) := by
  intro y hy z hz
  rcases List.mem_cons.mp hy with rfl | hy
  · exact Or.inr (hnew z hz)
  · rcases ho y hy z hz with ht | hw
    · exact Or.inl (List.mem_cons_of_mem _ ht)
    · rcases List.mem_cons.mp hw with rfl | hw
      · exact Or.inl List.mem_cons_self
      · exact Or.inr (hold z hw)

/-- What was opened until nothing waits is closed under chains of steps. -/
theorem Opened.mem_of_reflTransGen {step : Nat → Nat → Prop} (ho : Opened next [] taken)
    (hstep : ∀ y z, step y z → z ∈ next y) {start y : Nat} (hs : start ∈ taken)
    (hchain : Relation.ReflTransGen step start y) : y ∈ taken := by
  induction hchain with
  | refl => exact hs
  | tail _ hlast ih => exact (ho _ ih _ (hstep _ _ hlast)).resolve_right List.not_mem_nil

end

end ScriptCheck
