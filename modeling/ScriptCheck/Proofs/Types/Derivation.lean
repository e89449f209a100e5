/-
  What the search through a hierarchy decides.

  `Derives` says what it means that a class derives from another one, without
  regard to any limit: it is the same class, or the root class, or a chain of
  direct supertypes leads there. The search answers exactly this as long as it
  is not cut off, which `settles` tells. A hierarchy with fewer parent entries
  than the search may take steps never cuts it off.
-/
import Mathlib.Algebra.Order.BigOperators.Group.List
import Mathlib.Algebra.Order.Group.Nat
import Mathlib.Data.List.Dedup
import Mathlib.Logic.Relation
import ScriptCheck.Proofs.Worklist
import ScriptCheck.Types.Hierarchy

namespace ScriptCheck.Hierarchy

/-- One class is a direct supertype of another. -/
def IsParent (h : Hierarchy) (child parent : TypeId) : Prop := parent ∈ h.parentsOf child

/-- A class is another one, or derives from it by a chain of any length; every known class derives
    from the root class. -/
def Derives (h : Hierarchy) (child ancestor : TypeId) : Prop :=
  child = ancestor ∨ (ancestor = TypeId.object ∧ h.isKnown child = true) ∨
    Relation.TransGen h.IsParent child ancestor

/-- Whether the search of `reaches` ends before its budget does: it finds the ancestor, or nothing
    is left to look at. -/
def settles (h : Hierarchy) (ancestor : TypeId) : Nat → List TypeId → List TypeId → Bool
  | _, [], _ => true
  | 0, _ :: _, _ => false
  | budget + 1, current :: stack, taken =>
    if taken.contains current then h.settles ancestor budget stack taken
    else if (h.parentsOf current).contains ancestor then true
    else
      h.settles ancestor budget ((h.parentsOf current).reverse ++ stack) (current :: taken)

/-- The question whether one class derives from another is answered within the limit: without a
    search, or by one that is not cut off. -/
def IsSettled (h : Hierarchy) (child ancestor : TypeId) : Prop :=
  child = ancestor ∨ (ancestor = TypeId.object ∧ h.isKnown child = true) ∨
    h.settles ancestor hierarchyLimit [child] [] = true

/-- No search through the hierarchy is cut off. -/
def Settled (h : Hierarchy) : Prop := ∀ child ancestor, h.IsSettled child ancestor

/-! ## What is found is there -/

/-- A search finds only what a chain of direct supertypes leads to. -/
theorem transGen_of_reaches {h : Hierarchy} {ancestor : TypeId} {budget : Nat}
    {stack taken : List TypeId} (hr : h.reaches ancestor budget stack taken = true) :
    ∃ start ∈ stack, Relation.TransGen h.IsParent start ancestor := by
  fun_induction reaches h ancestor budget stack taken with
  | case1 budget current stack taken _ ih =>
    obtain ⟨start, hs, hp⟩ := ih hr
    exact ⟨start, List.mem_cons_of_mem _ hs, hp⟩
  | case2 budget current stack taken _ hc =>
    exact ⟨current, List.mem_cons_self, .single (List.contains_iff_mem.mp hc)⟩
  | case3 budget current stack taken _ _ ih =>
    obtain ⟨start, hs, hp⟩ := ih hr
    rcases List.mem_append.mp hs with hs | hs
    · exact ⟨current, List.mem_cons_self, .head (List.mem_reverse.mp hs) hp⟩
    · exact ⟨start, List.mem_cons_of_mem _ hs, hp⟩
  | case4 => cases hr

theorem derives_of_isDerivedFrom {h : Hierarchy} {child ancestor : TypeId}
    (hd : h.isDerivedFrom child ancestor = true) : h.Derives child ancestor := by
  unfold isDerivedFrom at hd
  rw [Bool.or_eq_true, Bool.or_eq_true, Bool.and_eq_true, decide_eq_true_iff,
    decide_eq_true_iff] at hd
  rcases hd with (hd | hd) | hd
  · exact Or.inl hd
  · exact Or.inr (Or.inl hd)
  · obtain ⟨start, hs, hp⟩ := transGen_of_reaches hd
    rw [List.mem_singleton] at hs
    subst hs
    exact Or.inr (Or.inr hp)

/-! ## What is there is found -/

/-- What was taken was opened, and does not have the ancestor as a direct supertype. -/
structure Explored (h : Hierarchy) (ancestor : TypeId) (stack taken : List TypeId) : Prop where
  opened : Opened h.parentsOf stack taken
  avoids : ∀ x ∈ taken, ancestor ∉ h.parentsOf x

/-- A search that is not cut off and finds nothing has taken everything there is to take. -/
theorem exists_explored {h : Hierarchy} {ancestor : TypeId} {budget : Nat}
    {stack taken : List TypeId} (hs : h.settles ancestor budget stack taken = true)
    (hr : h.reaches ancestor budget stack taken = false)
    (he : h.Explored ancestor stack taken) :
    ∃ all, h.Explored ancestor [] all ∧ ∀ x, x ∈ taken ∨ x ∈ stack → x ∈ all := by
  -- Both functions make the same choices, so the induction follows the one that tells the end.
  fun_induction settles h ancestor budget stack taken with
  | case1 budget taken => exact ⟨taken, he, fun x hx => hx.elim id fun hx => by cases hx⟩
  | case2 => cases hs
  | case3 budget current stack taken hc ih =>
    have hm : current ∈ taken := List.contains_iff_mem.mp hc
    rw [reaches, if_pos hc] at hr
    obtain ⟨all, hall, hsub⟩ := ih hs hr ⟨he.opened.skip hm, he.avoids⟩
    refine ⟨all, hall, fun x hx => hsub x ?_⟩
    rcases hx with hx | hx
    · exact Or.inl hx
    · rcases List.mem_cons.mp hx with rfl | hx
      · exact Or.inl hm
      · exact Or.inr hx
  | case4 budget current stack taken hc hp =>
    rw [reaches, if_neg hc, if_pos hp] at hr
    cases hr
  | case5 budget current stack taken hc hp ih =>
    rw [reaches, if_neg hc, if_neg hp] at hr
    have he' : h.Explored ancestor ((h.parentsOf current).reverse ++ stack)
        (current :: taken) := by
      refine ⟨he.opened.take (fun x hx => List.mem_append_right _ hx)
        fun x hx => List.mem_append_left _ (List.mem_reverse.mpr hx), fun x hx => ?_⟩
      rcases List.mem_cons.mp hx with rfl | hx
      · exact fun hm => hp (List.contains_iff_mem.mpr hm)
      · exact he.avoids x hx
    obtain ⟨all, hall, hsub⟩ := ih hs hr he'
    refine ⟨all, hall, fun x hx => hsub x ?_⟩
    rcases hx with hx | hx
    · exact Or.inl (List.mem_cons_of_mem _ hx)
    · rcases List.mem_cons.mp hx with rfl | hx
      · exact Or.inl List.mem_cons_self
      · exact Or.inr (List.mem_append_right _ hx)

/-- From what was explored completely no chain leads to the ancestor. -/
theorem Explored.not_transGen {h : Hierarchy} {ancestor : TypeId} {all : List TypeId}
    (he : h.Explored ancestor [] all) {x : TypeId} (hx : x ∈ all) :
    ¬ Relation.TransGen h.IsParent x ancestor := by
  intro hp
  -- The chain is followed from its lower end, where everything was taken.
  induction hp using Relation.TransGen.head_induction_on with
  | single hstep => exact he.avoids _ hx hstep
  | head hstep _ ih =>
    have hin := he.opened _ hx _ hstep
    exact ih (hin.resolve_right List.not_mem_nil)

/-- A search that is not cut off finds whatever a chain of direct supertypes leads to. -/
theorem reaches_of_transGen {h : Hierarchy} {child ancestor : TypeId} {budget : Nat}
    (hs : h.settles ancestor budget [child] [] = true)
    (hp : Relation.TransGen h.IsParent child ancestor) :
    h.reaches ancestor budget [child] [] = true := by
  by_contra hr
  rw [Bool.not_eq_true] at hr
  have hempty : h.Explored ancestor [child] [] :=
    ⟨opened_nil h.parentsOf [child], fun x hx => absurd hx List.not_mem_nil⟩
  obtain ⟨all, hall, hsub⟩ := exists_explored hs hr hempty
  exact hall.not_transGen (hsub child (Or.inr List.mem_cons_self)) hp

/-- Within the limit, the question is answered as `Derives` has it. -/
theorem isDerivedFrom_iff {h : Hierarchy} {child ancestor : TypeId}
    (hs : h.IsSettled child ancestor) :
    h.isDerivedFrom child ancestor = true ↔ h.Derives child ancestor := by
  refine ⟨derives_of_isDerivedFrom, fun hd => ?_⟩
  unfold isDerivedFrom
  rw [Bool.or_eq_true, Bool.or_eq_true, Bool.and_eq_true, decide_eq_true_iff,
    decide_eq_true_iff]
  rcases hd with hd | hd | hd
  · exact Or.inl (Or.inl hd)
  · exact Or.inl (Or.inr hd)
  · rcases hs with hs | hs | hs
    · exact Or.inl (Or.inl hs)
    · exact Or.inl (Or.inr hs)
    · exact Or.inr (reaches_of_transGen hs hd)

/-! ## When no search is cut off -/

/-- A search is not cut off if its budget covers the stack and the edges out of what it has not
    taken. -/
theorem settles_of_le {h : Hierarchy} {ancestor : TypeId} {nodes : List TypeId}
    (hn : nodes.Nodup) (hout : ∀ x, x ∉ nodes → h.parentsOf x = []) {budget : Nat}
    {stack taken : List TypeId}
    (hb : stack.length + untakenEdges h.parentsOf nodes taken ≤ budget) :
    h.settles ancestor budget stack taken = true := by
  -- Taking a class turns its edges into stack, so the sum falls by one at each step.
  fun_induction settles h ancestor budget stack taken with
  | case1 => rfl
  | case2 =>
    rw [List.length_cons] at hb
    omega
  | case3 budget current stack taken _ ih =>
    refine ih ?_
    rw [List.length_cons] at hb
    omega
  | case4 => rfl
  | case5 budget current stack taken hc _ ih =>
    refine ih ?_
    have hnew : current ∉ taken := fun hm => hc (List.contains_iff_mem.mpr hm)
    have hpay := untakenEdges_take hn hout hnew
    rw [List.length_cons] at hb
    rw [List.length_append, List.length_reverse]
    omega

/-- How many parent entries a hierarchy has. -/
def parentEntries (h : Hierarchy) : Nat := (h.entries.map fun entry => entry.2.length).sum

/-- Different classes have no more direct supertypes together than there are entries. -/
theorem sum_length_lookup_le (entries : List (TypeId × List TypeId)) {nodes : List TypeId}
    (hn : nodes.Nodup) :
    (nodes.map fun x => ((entries.lookup x).getD []).length).sum ≤
      (entries.map fun entry => entry.2.length).sum := by
  induction entries generalizing nodes with
  | nil =>
    have hzero : (nodes.map fun x => ((([] : List (TypeId × List TypeId)).lookup x).getD
        []).length) = nodes.map fun _ => 0 := rfl
    rw [hzero, List.map_const', List.sum_replicate]
    simp
  | cons entry rest ih =>
    obtain ⟨cls, parents⟩ := entry
    have hother : ∀ x, x ≠ cls → ((cls, parents) :: rest).lookup x = rest.lookup x := by
      intro x hx
      rw [List.lookup_cons, beq_false_of_ne hx]
    rw [List.map_cons, List.sum_cons]
    by_cases hc : cls ∈ nodes
    · -- The entry pays for its own class, the rest for the other ones.
      have hperm := List.perm_cons_erase hc
      have hsplit := (hperm.map fun x =>
        ((((cls, parents) :: rest).lookup x).getD []).length).sum_eq
      have herase : ((nodes.erase cls).map fun x =>
          ((((cls, parents) :: rest).lookup x).getD []).length) =
          (nodes.erase cls).map fun x => ((rest.lookup x).getD []).length := by
        refine List.map_congr_left fun x hx => ?_
        rw [hother x ((hn.mem_erase_iff.mp hx).1)]
      rw [hsplit, List.map_cons, List.sum_cons, List.lookup_cons_self, herase]
      exact Nat.add_le_add_left (ih (hn.erase cls)) _
    · have hsame : (nodes.map fun x => ((((cls, parents) :: rest).lookup x).getD []).length) =
          nodes.map fun x => ((rest.lookup x).getD []).length := by
        refine List.map_congr_left fun x hx => ?_
        rw [hother x fun heq => hc (heq ▸ hx)]
      rw [hsame]
      exact Nat.le_trans (ih hn) (Nat.le_add_left _ _)

/-- A class that is not listed has no direct supertypes. -/
theorem parentsOf_eq_nil {h : Hierarchy} {cls : TypeId} (hc : cls ∉ h.entries.map Prod.fst) :
    h.parentsOf cls = [] := by
  have hnone : h.entries.lookup cls = none := by
    rw [List.lookup_eq_none_iff]
    intro entry he
    rw [bne_iff_ne]
    rintro rfl
    exact hc (List.mem_map_of_mem he)
  unfold parentsOf supertypes?
  rw [hnone]
  rfl

/-- No search is cut off where classes have no more direct supertypes than in a hierarchy with fewer
    parent entries than a search may take steps. -/
theorem settled_of_length_le {h g : Hierarchy}
    (hle : ∀ x, (h.parentsOf x).length ≤ (g.parentsOf x).length)
    (hb : g.parentEntries < hierarchyLimit) : h.Settled := by
  intro child ancestor
  obtain ⟨nodes, hn, hmem⟩ :
      ∃ nodes : List TypeId, nodes.Nodup ∧ ∀ x, x ∈ nodes ↔ x ∈ h.entries.map Prod.fst :=
    ⟨_, List.nodup_dedup _, fun _ => List.mem_dedup⟩
  have hout : ∀ x, x ∉ nodes → h.parentsOf x = [] := by
    intro x hx
    rw [hmem] at hx
    exact parentsOf_eq_nil hx
  have hedges : untakenEdges h.parentsOf nodes [] ≤ g.parentEntries := by
    rw [untakenEdges_nil]
    exact (List.sum_le_sum fun x _ => hle x).trans (sum_length_lookup_le g.entries hn)
  refine Or.inr (Or.inr (settles_of_le hn hout ?_))
  rw [List.length_singleton]
  omega

/-- A hierarchy with fewer parent entries than a search may take steps cuts no search off. -/
theorem settled_of_parentEntries_lt {h : Hierarchy} (hb : h.parentEntries < hierarchyLimit) :
    h.Settled :=
  settled_of_length_le (fun _ => Nat.le_refl _) hb

end ScriptCheck.Hierarchy
