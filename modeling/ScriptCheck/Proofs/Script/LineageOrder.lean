/-
  The order of a lineage.

  The walk that lists a lineage goes breadth first: its queue holds types that
  are equally many steps away from the start, and behind them types that are one
  step further. `Layers` says so, and that whatever is closer was taken before.
  `Layers.skip` and `Layers.take` are the two steps of the walk, and
  `Layers.next` starts a new layer when the old one is used up. So no type of a
  lineage is farther away than a later one (`pairwise_lineage`).

  `mem_lineage_iff_leads` tells that nothing is left out as long as the queue
  never got more entries than the walk takes steps.
-/
import ScriptCheck.Proofs.Script.Lineage

namespace ScriptCheck

namespace Supertypes

/-- So many steps to direct supertypes lead from one type to another. -/
inductive Leads (supertypes : Supertypes) (type : SymbolId) : Nat → SymbolId → Prop
  | here : Leads supertypes type 0 type
  | up {n : Nat} {t parent : SymbolId} (h : Leads supertypes type n t)
    (hp : parent ∈ supertypes t) : Leads supertypes type (n + 1) parent

/-- One type is no farther from the start than another. -/
def NoFarther (supertypes : Supertypes) (type a b : SymbolId) : Prop :=
  ∀ n, supertypes.Leads type n b → ∃ m ≤ n, supertypes.Leads type m a

/-- Where a walk from `type` stands: its queue holds `near`, which is `d` steps away, and then
    `far`, which is one step further, and all that is closer was taken. -/
structure Layers (supertypes : Supertypes) (type : SymbolId) (d : Nat)
    (near far taken : List SymbolId) : Prop where
  of_near : ∀ x ∈ near, supertypes.Leads type d x
  of_far : ∀ x ∈ far, supertypes.Leads type (d + 1) x
  of_taken : ∀ x ∈ taken, ∃ n ≤ d, supertypes.Leads type n x
  closer : ∀ n < d, ∀ x, supertypes.Leads type n x → x ∈ taken
  here : ∀ x, supertypes.Leads type d x → x ∈ taken ∨ x ∈ near
  opened : Opened supertypes (near ++ far) taken

section

variable {supertypes : Supertypes} {type x : SymbolId} {d n : Nat}
  {near far queue taken : List SymbolId}

theorem leads_zero_iff : supertypes.Leads type 0 x ↔ x = type := by
  constructor
  · intro h
    cases h
    rfl
  · rintro rfl
    exact .here

theorem leads_succ_iff : supertypes.Leads type (n + 1) x ↔
    ∃ t, supertypes.Leads type n t ∧ x ∈ supertypes t := by
  constructor
  · rintro (_ | ⟨h, hp⟩)
    exact ⟨_, h, hp⟩
  · rintro ⟨t, h, hp⟩
    exact .up h hp

/-- Steps lead where a chain of direct supertypes leads. -/
theorem exists_leads_iff :
    (∃ n, supertypes.Leads type n x) ↔ Relation.ReflTransGen supertypes.IsParent type x := by
  constructor
  · rintro ⟨n, h⟩
    induction h with
    | here => exact .refl
    | up _ hp ih => exact ih.tail hp
  · intro h
    induction h with
    | refl => exact ⟨0, .here⟩
    | tail _ hp ih =>
      obtain ⟨n, h⟩ := ih
      exact ⟨n + 1, .up h hp⟩

/-! ## The layers of a walk -/

theorem layers_start (supertypes : Supertypes) (type : SymbolId) :
    supertypes.Layers type 0 [type] [] [] where
  of_near _ hx := List.mem_singleton.mp hx ▸ .here
  of_far _ hx := absurd hx List.not_mem_nil
  of_taken _ hx := absurd hx List.not_mem_nil
  closer n hn := absurd hn (Nat.not_lt_zero n)
  here _ hx := Or.inr (List.mem_singleton.mpr (leads_zero_iff.mp hx))
  opened := opened_nil supertypes _

/-- When a layer is used up, the rest of the queue is the next one. -/
theorem Layers.next (hl : supertypes.Layers type d [] far taken) :
    supertypes.Layers type (d + 1) far [] taken where
  of_near := hl.of_far
  of_far x hx := absurd hx List.not_mem_nil
  of_taken x hx := by
    obtain ⟨n, hn, h⟩ := hl.of_taken x hx
    exact ⟨n, Nat.le_succ_of_le hn, h⟩
  closer n hn x hx := by
    rcases Nat.lt_succ_iff_lt_or_eq.mp hn with hlt | rfl
    · exact hl.closer n hlt x hx
    · exact (hl.here x hx).resolve_right List.not_mem_nil
  here x hx := by
    -- The type came to the queue when one of the layer before was taken.
    obtain ⟨t, ht, hp⟩ := leads_succ_iff.mp hx
    have htaken : t ∈ taken := (hl.here t ht).resolve_right List.not_mem_nil
    exact hl.opened t htaken x hp
  opened := by
    rw [List.append_nil]
    exact hl.opened

/-- A queue that is not empty starts with a type of the present layer. -/
theorem Layers.exists_near (hl : supertypes.Layers type d near far taken)
    (hq : near ++ far = x :: queue) :
    ∃ d near far, queue = near ++ far ∧ supertypes.Layers type d (x :: near) far taken := by
  cases near with
  | nil =>
    rw [List.nil_append] at hq
    subst hq
    exact ⟨d + 1, queue, [], (List.append_nil queue).symm, hl.next⟩
  | cons y near =>
    obtain ⟨rfl, rfl⟩ := List.cons.inj hq
    exact ⟨d, near, far, rfl, hl⟩

/-- What was taken before is dropped. -/
theorem Layers.skip (hl : supertypes.Layers type d (x :: near) far taken) (hx : x ∈ taken) :
    supertypes.Layers type d near far taken where
  of_near y hy := hl.of_near y (List.mem_cons_of_mem _ hy)
  of_far := hl.of_far
  of_taken := hl.of_taken
  closer := hl.closer
  here y hy := by
    rcases hl.here y hy with ht | hnear
    · exact Or.inl ht
    · rcases List.mem_cons.mp hnear with rfl | hnear
      · exact Or.inl hx
      · exact Or.inr hnear
  opened := hl.opened.skip hx

/-- What is taken puts its direct supertypes at the end of the next layer. -/
theorem Layers.take (hl : supertypes.Layers type d (x :: near) far taken) :
    supertypes.Layers type d near (far ++ supertypes x) (x :: taken) where
  of_near y hy := hl.of_near y (List.mem_cons_of_mem _ hy)
  of_far y hy := by
    rcases List.mem_append.mp hy with hy | hy
    · exact hl.of_far y hy
    · exact .up (hl.of_near x List.mem_cons_self) hy
  of_taken y hy := by
    rcases List.mem_cons.mp hy with rfl | hy
    · exact ⟨d, Nat.le_refl d, hl.of_near y List.mem_cons_self⟩
    · exact hl.of_taken y hy
  closer n hn y hy := List.mem_cons_of_mem _ (hl.closer n hn y hy)
  here y hy := by
    rcases hl.here y hy with ht | hnear
    · exact Or.inl (List.mem_cons_of_mem _ ht)
    · rcases List.mem_cons.mp hnear with rfl | hnear
      · exact Or.inl List.mem_cons_self
      · exact Or.inr hnear
  opened := by
    rw [← List.append_assoc]
    exact hl.opened.take (fun y hy => List.mem_append_left _ hy)
      fun y hy => List.mem_append_right _ hy

/-- What is taken for the first time is no closer than what was taken before. -/
theorem Layers.noFarther (hl : supertypes.Layers type d (x :: near) far taken) (hx : x ∉ taken) :
    ∀ y ∈ taken, supertypes.NoFarther type y x := by
  intro y hy n hn
  obtain ⟨m, hm, h⟩ := hl.of_taken y hy
  have hd : d ≤ n := Nat.le_of_not_lt fun hlt => hx (hl.closer n hlt x hn)
  exact ⟨m, Nat.le_trans hm hd, h⟩

end

end Supertypes

section

variable {supertypes : Supertypes} {type : SymbolId}

/-- Nothing that a walk takes is farther away than what it takes later. -/
theorem pairwise_walkLineage {budget d : Nat} {near far taken : List SymbolId}
    (hl : supertypes.Layers type d near far taken)
    (hp : taken.reverse.Pairwise (supertypes.NoFarther type)) :
    (walkLineage supertypes budget (near ++ far) taken).Pairwise (supertypes.NoFarther type) := by
  generalize hq : near ++ far = queue
  fun_induction walkLineage supertypes budget queue taken generalizing d near far with
  | case1 budget current queue taken hc ih =>
    obtain ⟨d, near, far, rfl, hl⟩ := hl.exists_near hq
    exact ih (hl.skip (List.contains_iff_mem.mp hc)) hp rfl
  | case2 budget current queue taken hc ih =>
    have hnew : current ∉ taken := fun hm => hc (List.contains_iff_mem.mpr hm)
    obtain ⟨d, near, far, rfl, hl⟩ := hl.exists_near hq
    refine ih hl.take ?_ (List.append_assoc ..).symm
    rw [List.reverse_cons, List.pairwise_append]
    refine ⟨hp, List.pairwise_singleton .., fun y hy z hz => ?_⟩
    rw [List.mem_singleton.mp hz]
    exact hl.noFarther hnew y (List.mem_reverse.mp hy)
  | case3 => exact hp

/-- The nearest types come first in a lineage. -/
theorem pairwise_lineage (supertypes : Supertypes) (type : SymbolId) :
    (lineage supertypes type).Pairwise (supertypes.NoFarther type) := by
  have hall : (walkLineage supertypes hierarchyLimit ([type] ++ []) []).Pairwise
      (supertypes.NoFarther type) :=
    pairwise_walkLineage (supertypes.layers_start type) List.Pairwise.nil
  exact hall

/-! ## When nothing is left out -/

/-- All entries that the queue of a walk ever gets: the type itself and, for each type that is
    taken, its direct supertypes. -/
def lineageQueue (supertypes : Supertypes) (type : SymbolId) : List SymbolId :=
  type :: (lineage supertypes type).flatMap supertypes

/-- A walk ends if its budget covers the queue and what it adds to it. -/
theorem walkEnds_of_flatMap_le {budget : Nat} {queue taken rest : List SymbolId}
    (hrest : walkLineage supertypes budget queue taken = taken.reverse ++ rest)
    (hb : queue.length + (rest.flatMap supertypes).length ≤ budget) :
    walkEnds supertypes budget queue taken = true := by
  -- A step takes an entry from the queue, and what it adds is counted for the type that it takes.
  fun_induction walkEnds supertypes budget queue taken generalizing rest with
  | case1 => rfl
  | case2 =>
    rw [List.length_cons] at hb
    omega
  | case3 budget current queue taken hc ih =>
    rw [walkLineage, if_pos hc] at hrest
    rw [List.length_cons] at hb
    exact ih hrest (by omega)
  | case4 budget current queue taken hc ih =>
    obtain ⟨later, hlater⟩ :=
      exists_walkLineage_eq_append supertypes budget (queue ++ supertypes current)
        (current :: taken)
    obtain rfl : rest = current :: later := by
      rw [walkLineage, if_neg hc, hlater, List.reverse_cons, List.append_assoc,
        List.singleton_append] at hrest
      exact (List.append_cancel_left hrest).symm
    refine ih hlater ?_
    rw [List.length_cons, List.flatMap_cons, List.length_append] at hb
    rw [List.length_append]
    omega

/-- If the queue never gets more entries than a walk takes steps, the lineage of a type holds
    exactly what steps to direct supertypes lead to. -/
theorem mem_lineage_iff_leads (hq : (lineageQueue supertypes type).length ≤ hierarchyLimit)
    {ancestor : SymbolId} :
    ancestor ∈ lineage supertypes type ↔ ∃ n, supertypes.Leads type n ancestor := by
  have hb : [type].length + ((lineage supertypes type).flatMap supertypes).length ≤
      hierarchyLimit := by
    rw [lineageQueue, List.length_cons] at hq
    rw [List.length_singleton]
    omega
  rw [mem_lineage_iff_of_walkEnds (walkEnds_of_flatMap_le rfl hb), Supertypes.exists_leads_iff]

end

end ScriptCheck
