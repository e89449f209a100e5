/-
  What a lineage holds.

  The walk that lists a lineage takes a type from its queue at each step, and
  it may take as many steps as the limit says. `mem_lineage_iff` tells that the
  limit does not matter as long as there are fewer supertypes than that: the
  lineage then holds all that a chain of supertypes leads to, and nothing else.
-/
import Mathlib.Logic.Relation
import ScriptCheck.Proofs.Worklist
import ScriptCheck.Script.Members

namespace ScriptCheck

/-- One type is a direct supertype of another. -/
def Supertypes.IsParent (supertypes : Supertypes) (type parent : SymbolId) : Prop :=
  parent ∈ supertypes type

section

variable {supertypes : Supertypes} {nodes : List SymbolId}

/-- A walk takes only what a chain of direct supertypes leads to. -/
theorem reflTransGen_of_mem_walkLineage {budget : Nat} {queue taken : List SymbolId}
    {type : SymbolId} (h : type ∈ walkLineage supertypes budget queue taken) :
    type ∈ taken ∨
      ∃ start ∈ queue, Relation.ReflTransGen supertypes.IsParent start type := by
  fun_induction walkLineage supertypes budget queue taken with
  | case1 budget current queue taken _ ih =>
    rcases ih h with ht | ⟨start, hs, hp⟩
    · exact Or.inl ht
    · exact Or.inr ⟨start, List.mem_cons_of_mem _ hs, hp⟩
  | case2 budget current queue taken _ ih =>
    rcases ih h with ht | ⟨start, hs, hp⟩
    · rcases List.mem_cons.mp ht with rfl | ht
      · exact Or.inr ⟨type, List.mem_cons_self, .refl⟩
      · exact Or.inl ht
    · rcases List.mem_append.mp hs with hs | hs
      · exact Or.inr ⟨start, List.mem_cons_of_mem _ hs, hp⟩
      · exact Or.inr ⟨current, List.mem_cons_self, .head hs hp⟩
  | case3 => exact Or.inl (List.mem_reverse.mp h)

/-- Whether a walk ends because nothing is left in its queue, and not because it may take no more
    steps. -/
def walkEnds (supertypes : Supertypes) : Nat → List SymbolId → List SymbolId → Bool
  | _, [], _ => true
  | 0, _ :: _, _ => false
  | budget + 1, type :: queue, taken =>
    if taken.contains type then walkEnds supertypes budget queue taken
    else walkEnds supertypes budget (queue ++ supertypes type) (type :: taken)

/-- A walk that ends takes the whole queue, and with each type its supertypes. -/
theorem walkLineage_closed {budget : Nat} {queue taken : List SymbolId}
    (he : walkEnds supertypes budget queue taken = true) (ho : Opened supertypes queue taken) :
    (∀ x ∈ queue, x ∈ walkLineage supertypes budget queue taken) ∧
      Opened supertypes [] (walkLineage supertypes budget queue taken) := by
  fun_induction walkEnds supertypes budget queue taken with
  | case1 budget taken =>
    have hend : walkLineage supertypes budget [] taken = taken.reverse := by
      cases budget <;> rfl
    rw [hend]
    refine ⟨fun x hx => absurd hx List.not_mem_nil, fun x hx parent hp => ?_⟩
    have htaken : parent ∈ taken :=
      (ho x (List.mem_reverse.mp hx) parent hp).resolve_right List.not_mem_nil
    exact Or.inl (List.mem_reverse.mpr htaken)
  | case2 => cases he
  | case3 budget current queue taken hc ih =>
    have hm : current ∈ taken := List.contains_iff_mem.mp hc
    rw [walkLineage, if_pos hc]
    obtain ⟨hin, hop⟩ := ih he (ho.skip hm)
    refine ⟨fun x hx => ?_, hop⟩
    rcases List.mem_cons.mp hx with rfl | hx
    · exact mem_walkLineage_of_mem_taken hm
    · exact hin x hx
  | case4 budget current queue taken hc ih =>
    rw [walkLineage, if_neg hc]
    obtain ⟨hin, hop⟩ := ih he (ho.take (fun x hx => List.mem_append_left _ hx)
      fun x hx => List.mem_append_right _ hx)
    refine ⟨fun x hx => ?_, hop⟩
    rcases List.mem_cons.mp hx with rfl | hx
    · exact mem_walkLineage_of_mem_taken List.mem_cons_self
    · exact hin x (List.mem_append_left _ hx)

/-- The lineage of a type from which the walk ends holds exactly what a chain of direct supertypes
    leads to. -/
theorem mem_lineage_iff_of_walkEnds {type ancestor : SymbolId}
    (he : walkEnds supertypes hierarchyLimit [type] [] = true) :
    ancestor ∈ lineage supertypes type ↔
      Relation.ReflTransGen supertypes.IsParent type ancestor := by
  constructor
  · intro h
    rcases reflTransGen_of_mem_walkLineage h with hx | ⟨start, hs, hp⟩
    · cases hx
    · rw [List.mem_singleton] at hs
      exact hs ▸ hp
  · intro hp
    -- Nothing waits at the end, so a chain never leaves what was taken.
    obtain ⟨hin, hop⟩ := walkLineage_closed he (opened_nil supertypes [type])
    exact hop.mem_of_reflTransGen (fun _ _ hstep => hstep) (hin type List.mem_cons_self) hp

/-- A walk ends if its budget covers the queue and the edges out of what was not taken. -/
theorem walkEnds_of_le (hn : nodes.Nodup)
    (closed : ∀ x ∈ nodes, ∀ parent ∈ supertypes x, parent ∈ nodes)
    {budget : Nat} {queue taken : List SymbolId} (hq : ∀ x ∈ queue, x ∈ nodes)
    (hb : queue.length + untakenEdges supertypes nodes taken ≤ budget) :
    walkEnds supertypes budget queue taken = true := by
  -- A step either drops a type from the queue or pays for its supertypes with its edges.
  fun_induction walkEnds supertypes budget queue taken with
  | case1 => rfl
  | case2 =>
    rw [List.length_cons] at hb
    omega
  | case3 budget current queue taken hc ih =>
    rw [List.length_cons] at hb
    exact ih (fun x hx => hq x (List.mem_cons_of_mem _ hx)) (by omega)
  | case4 budget current queue taken hc ih =>
    have hnew : current ∉ taken := fun hm => hc (List.contains_iff_mem.mpr hm)
    have hcur : current ∈ nodes := hq current List.mem_cons_self
    have hpay : untakenEdges supertypes nodes (current :: taken) + (supertypes current).length =
        untakenEdges supertypes nodes taken := untakenEdges_take_of_mem hn hcur hnew
    refine ih (fun x hx => ?_) ?_
    · rcases List.mem_append.mp hx with hx | hx
      · exact hq x (List.mem_cons_of_mem _ hx)
      · exact closed current hcur x hx
    · rw [List.length_cons] at hb
      rw [List.length_append]
      omega

/-- With fewer supertypes than the limit, the lineage of a type holds exactly what a chain of
    direct supertypes leads to. -/
theorem mem_lineage_iff (hn : nodes.Nodup)
    (closed : ∀ x ∈ nodes, ∀ parent ∈ supertypes x, parent ∈ nodes)
    (few : (nodes.map fun x => (supertypes x).length).sum < hierarchyLimit)
    {type ancestor : SymbolId} (ht : type ∈ nodes) :
    ancestor ∈ lineage supertypes type ↔
      Relation.ReflTransGen supertypes.IsParent type ancestor := by
  refine mem_lineage_iff_of_walkEnds (walkEnds_of_le hn closed ?_ ?_)
  · exact fun x hx => List.mem_singleton.mp hx ▸ ht
  · rw [untakenEdges_nil, List.length_singleton, Nat.add_comm]
    exact few

end

/-! ## The nearest type -/

/-- What was taken comes first. -/
theorem exists_walkLineage_eq_append (supertypes : Supertypes) (budget : Nat)
    (queue taken : List SymbolId) :
    ∃ rest, walkLineage supertypes budget queue taken = taken.reverse ++ rest := by
  fun_induction walkLineage supertypes budget queue taken with
  | case1 _ _ _ _ _ ih => exact ih
  | case2 _ type _ taken _ ih =>
    obtain ⟨rest, hrest⟩ := ih
    refine ⟨type :: rest, ?_⟩
    rw [hrest, List.reverse_cons, List.append_assoc, List.singleton_append]
  | case3 => exact ⟨[], (List.append_nil _).symm⟩

/-- A type is the first in its lineage. -/
theorem exists_lineage_eq_cons (supertypes : Supertypes) (type : SymbolId) :
    ∃ rest, lineage supertypes type = type :: rest := by
  obtain ⟨rest, hrest⟩ := exists_walkLineage_eq_append supertypes 255 (supertypes type) [type]
  refine ⟨rest, ?_⟩
  show walkLineage supertypes (255 + 1) [type] [] = _
  rw [walkLineage, if_neg (by simp), List.nil_append, hrest]
  rfl

end ScriptCheck
