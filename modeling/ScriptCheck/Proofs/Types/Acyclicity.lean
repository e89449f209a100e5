/-
  Hierarchies that grow without cycles.

  `Grows` says what adding supertypes keeps: known classes stay known, and the
  direct supertypes of a class only get more at the end. So whatever a class
  derived from it still derives from. A class may be given supertypes none of
  which derives from it, and then no cycle comes about (`Acyclic.addParents`).
  As long as no search is cut off, this is what is asked before an edge is
  added.
-/
import ScriptCheck.Proofs.Types.Derivation

namespace ScriptCheck

/-- Suppose that the steps of `q` are steps of `r`, or lead from `hub` to one of the `added` nodes.
    Then a chain of `q` is one of `r`, or comes to the hub and leaves from an added node for the
    last time. -/
theorem transGen_or_through_hub {α : Type _} {r q : α → α → Prop} {hub : α} {added : α → Prop}
    (hq : ∀ x y, q x y → r x y ∨ (x = hub ∧ added y)) {x y : α} (hp : Relation.TransGen q x y) :
    Relation.TransGen r x y ∨
      (Relation.ReflTransGen r x hub ∧ ∃ p, added p ∧ Relation.ReflTransGen r p y) := by
  induction hp with
  | single hstep =>
    rcases hq _ _ hstep with hr | ⟨rfl, ha⟩
    · exact Or.inl (.single hr)
    · exact Or.inr ⟨.refl, _, ha, .refl⟩
  | tail _ hstep ih =>
    rcases hq _ _ hstep with hr | ⟨rfl, ha⟩
    · rcases ih with hchain | ⟨hhub, p, hp, hchain⟩
      · exact Or.inl (hchain.tail hr)
      · exact Or.inr ⟨hhub, p, hp, hchain.tail hr⟩
    · -- Whatever came before, the chain passes the hub in this step.
      rcases ih with hchain | ⟨hhub, _⟩
      · exact Or.inr ⟨hchain.to_reflTransGen, _, ha, .refl⟩
      · exact Or.inr ⟨hhub, _, ha, .refl⟩

/-- Steps from the hub to nodes from which no chain leads back to it close no cycle. -/
theorem not_transGen_of_added {α : Type _} {r q : α → α → Prop} {hub : α} {added : α → Prop}
    (hq : ∀ x y, q x y → r x y ∨ (x = hub ∧ added y))
    (hback : ∀ p, added p → ¬Relation.ReflTransGen r p hub)
    (hr : ∀ x, ¬Relation.TransGen r x x) (x : α) : ¬Relation.TransGen q x x := by
  intro hcycle
  rcases transGen_or_through_hub hq hcycle with hchain | ⟨hhub, p, hp, hchain⟩
  · exact hr x hchain
  · exact hback p hp (hchain.trans hhub)

namespace Hierarchy

/-- No class derives from itself by a chain. -/
def Acyclic (h : Hierarchy) : Prop := ∀ x, ¬Relation.TransGen h.IsParent x x

/-- What one hierarchy says stays true in the other. -/
structure Grows (h g : Hierarchy) : Prop where
  isKnown : ∀ {x}, h.isKnown x = true → g.isKnown x = true
  parents : ∀ x, h.parentsOf x <+: g.parentsOf x

section

variable {h g k : Hierarchy} {cls x y : TypeId} {parents : List TypeId}

/-! ## Growth -/

theorem Grows.refl (h : Hierarchy) : h.Grows h := ⟨id, fun _ => List.prefix_rfl⟩

theorem Grows.trans (hhg : h.Grows g) (hgk : g.Grows k) : h.Grows k :=
  ⟨fun hx => hgk.isKnown (hhg.isKnown hx), fun x => (hhg.parents x).trans (hgk.parents x)⟩

/-- Hierarchies that say the same of every class grow to each other. -/
theorem Grows.of_supertypes? (hsame : ∀ x, h.supertypes? x = g.supertypes? x) : h.Grows g := by
  refine ⟨fun {x} hx => ?_, fun x => ?_⟩
  · unfold Hierarchy.isKnown at hx ⊢
    rw [← hsame x]
    exact hx
  · have hparents : h.parentsOf x = g.parentsOf x := congrArg (·.getD []) (hsame x)
    exact hparents ▸ List.prefix_rfl

theorem Grows.isParent (hg : h.Grows g) (hp : h.IsParent x y) : g.IsParent x y :=
  (hg.parents x).subset hp

theorem Grows.derives (hg : h.Grows g) (hd : h.Derives x y) : g.Derives x y := by
  rcases hd with heq | ⟨hroot, hknown⟩ | hchain
  · exact Or.inl heq
  · exact Or.inr (Or.inl ⟨hroot, hg.isKnown hknown⟩)
  · exact Or.inr (Or.inr (Relation.TransGen.mono (fun _ _ hstep => hg.isParent hstep) _ _ hchain))

/-- If a hierarchy is small enough for all searches, then so is every one that grew to it. -/
theorem Grows.settled (hg : h.Grows g) (few : g.parentEntries < hierarchyLimit) : h.Settled :=
  settled_of_length_le (fun x => (hg.parents x).length_le) few

/-- More supertypes stand behind the old ones. -/
theorem prefix_foldl_withParent (cls : TypeId) (parents known : List TypeId) :
    known <+: parents.foldl (withParent cls) known := by
  induction parents generalizing known with
  | nil => exact List.prefix_rfl
  | cons parent rest ih =>
    have hone : known <+: withParent cls known parent := by
      unfold withParent
      split
      · exact List.prefix_rfl
      · exact List.prefix_append _ _
    exact hone.trans (ih _)

theorem grows_addParents (h : Hierarchy) (cls : TypeId) (parents : List TypeId) :
    h.Grows (h.addParents cls parents) := by
  refine ⟨fun hx => ?_, fun x => ?_⟩
  · unfold addParents
    rw [isKnown_set, hx, Bool.or_true]
  · unfold addParents
    by_cases hx : x = cls
    · rw [hx, parentsOf_set_self]
      exact prefix_foldl_withParent cls parents _
    · exact parentsOf_set_of_ne h hx _ ▸ List.prefix_rfl

/-! ## Cycles -/

/-- Whatever is a direct supertype stands in the entry of its class. -/
theorem exists_entry_of_isParent (hp : h.IsParent x y) : ∃ entry ∈ h.entries, x = entry.1 ∧
    y ∈ entry.2 := by
  unfold IsParent parentsOf supertypes? at hp
  cases hl : h.entries.lookup x with
  | none =>
    rw [hl] at hp
    cases hp
  | some parents =>
    rw [hl] at hp
    obtain ⟨before, after, hsplit, _⟩ := List.lookup_eq_some_iff.mp hl
    exact ⟨(x, parents), hsplit ▸ by simp, rfl, hp⟩

/-- Where supertypes have smaller ranks there is no cycle. -/
theorem acyclic_of_rank (rank : TypeId → Nat)
    (hrank : ∀ entry ∈ h.entries, ∀ p ∈ entry.2, rank p < rank entry.1) : h.Acyclic := by
  have hdown : ∀ x y, Relation.TransGen h.IsParent x y → rank y < rank x := by
    intro x y hchain
    induction hchain with
    | single hstep =>
      obtain ⟨entry, hin, rfl, hp⟩ := exists_entry_of_isParent hstep
      exact hrank entry hin _ hp
    | tail _ hstep ih =>
      obtain ⟨entry, hin, rfl, hp⟩ := exists_entry_of_isParent hstep
      exact (hrank entry hin _ hp).trans ih
  exact fun x hx => Nat.lt_irrefl _ (hdown x x hx)

/-- The standard classes become known after their supertypes. -/
theorem acyclic_standard : standard.Acyclic :=
  acyclic_of_rank (fun x => (standardEntries.map Prod.fst).idxOf x) (by decide +kernel)

/-- The edges after a class got more supertypes. -/
theorem isParent_addParents (hp : (h.addParents cls parents).IsParent x y) :
    h.IsParent x y ∨ (x = cls ∧ y ∈ parents ∧ y ≠ cls) := by
  by_cases hx : x = cls
  · subst hx
    rcases (mem_parentsOf_addParents h x parents y).mp hp with hold | hnew
    · exact Or.inl hold
    · exact Or.inr ⟨rfl, hnew⟩
  · unfold IsParent addParents at hp
    rw [parentsOf_set_of_ne h hx] at hp
    exact Or.inl hp

/-- No cycle comes about if none of the new supertypes derives from the class. -/
theorem Acyclic.addParents (ha : h.Acyclic) (hnew : ∀ p ∈ parents, ¬h.Derives p cls) :
    (h.addParents cls parents).Acyclic := by
  refine not_transGen_of_added (fun _ _ => isParent_addParents) (fun p hp hchain => ?_) ha
  rcases Relation.reflTransGen_iff_eq_or_transGen.mp hchain with heq | hchain
  · exact hp.2 heq.symm
  · exact hnew p hp.1 (Or.inr (Or.inr hchain))

/-- Supertypes that are there already change nothing about a known class. -/
theorem supertypes?_addParents_of_mem (hknown : h.isKnown cls = true)
    (hold : ∀ p ∈ parents, h.IsParent cls p) (x : TypeId) :
    (h.addParents cls parents).supertypes? x = h.supertypes? x := by
  have hsame : parents.foldl (withParent cls) (h.parentsOf cls) = h.parentsOf cls := by
    induction parents with
    | nil => rfl
    | cons parent rest ih =>
      have hin : (h.parentsOf cls).contains parent = true :=
        List.contains_iff_mem.mpr (hold parent List.mem_cons_self)
      have hskip : withParent cls (h.parentsOf cls) parent = h.parentsOf cls := by
        unfold withParent
        rw [hin, Bool.or_true, if_pos rfl]
      rw [List.foldl_cons, hskip]
      exact ih fun p hp => hold p (List.mem_cons_of_mem _ hp)
  unfold addParents
  rw [hsame]
  by_cases hx : x = cls
  · subst hx
    obtain ⟨known, hk⟩ := Option.isSome_iff_exists.mp hknown
    unfold parentsOf
    rw [supertypes?_set_self, hk]
    rfl
  · exact supertypes?_set_of_ne h hx _

end

end Hierarchy

end ScriptCheck
