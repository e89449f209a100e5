/-
  How far the search through a hierarchy gets.

  The search may take a fixed number of entries from its stack. A class stands
  there once for every opened class that has it for a direct supertype, and each
  of these entries counts when it is taken, whether or not the class was taken
  before. So the limit is not one on classes: a hierarchy with few classes and
  many edges uses it up. `visits` lists the entries that are taken, whatever is
  looked for, and `Misses` says when an ancestor is not found although it is
  one.

  `isDerivedFrom_iff_not_misses` says that this is the only way to a wrong
  answer, and that it takes more than `hierarchyLimit - 1` direct supertypes of
  the classes that can be reached: the search takes one entry for the class that
  it starts from and one for each of these, until the limit is reached.
-/
import ScriptCheck.Proofs.Types.Derivation

namespace ScriptCheck.Hierarchy

instance (h : Hierarchy) (child parent : TypeId) : Decidable (h.IsParent child parent) :=
  inferInstanceAs (Decidable (parent ∈ h.parentsOf child))

/-- What is taken from the stack in `budget` steps if nothing ends the search, in this order and as
    often as it is taken. -/
def takenWithin (h : Hierarchy) : Nat → List TypeId → List TypeId → List TypeId
  | budget + 1, current :: stack, taken =>
    current ::
      if taken.contains current then h.takenWithin budget stack taken
      else h.takenWithin budget ((h.parentsOf current).reverse ++ stack) (current :: taken)
  | _, _, _ => []

/-- The entries that a search from a class takes before it is cut off. -/
def visits (h : Hierarchy) (child : TypeId) : List TypeId :=
  h.takenWithin hierarchyLimit [child] []

/-- The search overlooks an ancestor: a chain of direct supertypes leads there, the answer is not
    plain without a search, and none of the entries that are taken is a child of the ancestor. -/
structure Misses (h : Hierarchy) (child ancestor : TypeId) : Prop where
  chain : Relation.TransGen h.IsParent child ancestor
  ne : child ≠ ancestor
  not_root : ¬(ancestor = TypeId.object ∧ h.isKnown child = true)
  unseen : ∀ c ∈ h.visits child, ¬h.IsParent c ancestor

/-- How many direct supertypes classes have, each counted for every class that has it. -/
def edgesFrom (h : Hierarchy) (classes : List TypeId) : Nat :=
  (classes.map fun c => (h.parentsOf c).length).sum

section

variable {h : Hierarchy} {child ancestor : TypeId} {budget : Nat}
  {stack taken classes : List TypeId}

theorem takenWithin_of_mem {current : TypeId} (hm : current ∈ taken) :
    h.takenWithin (budget + 1) (current :: stack) taken =
      current :: h.takenWithin budget stack taken := by
  rw [takenWithin, if_pos (List.contains_iff_mem.mpr hm)]

theorem takenWithin_of_not_mem {current : TypeId} (hm : current ∉ taken) :
    h.takenWithin (budget + 1) (current :: stack) taken =
      current :: h.takenWithin budget ((h.parentsOf current).reverse ++ stack)
        (current :: taken) := by
  rw [takenWithin, if_neg fun hc => hm (List.contains_iff_mem.mp hc)]

/-! ## What is found among the entries -/

/-- A search finds an ancestor if an entry that it takes is a child of it. -/
theorem reaches_iff (hold : ∀ c ∈ taken, ¬h.IsParent c ancestor) :
    h.reaches ancestor budget stack taken = true ↔
      ∃ c ∈ h.takenWithin budget stack taken, h.IsParent c ancestor := by
  -- What was taken is no child of the ancestor, or the search would have ended there.
  fun_induction reaches h ancestor budget stack taken with
  | case1 budget current stack taken hc ih =>
    -- A class that was taken before is no child of the ancestor.
    have hm : current ∈ taken := List.contains_iff_mem.mp hc
    have hno : ¬h.IsParent current ancestor := hold current hm
    simp [takenWithin_of_mem hm, hno, ih hold]
  | case2 budget current stack taken hc hp =>
    have hyes : h.IsParent current ancestor := List.contains_iff_mem.mp hp
    simp [takenWithin, hyes]
  | case3 budget current stack taken hc hp ih =>
    have hm : current ∉ taken := fun hm => hc (List.contains_iff_mem.mpr hm)
    have hno : ¬h.IsParent current ancestor := fun hm => hp (List.contains_iff_mem.mpr hm)
    have hold' : ∀ c ∈ current :: taken, ¬h.IsParent c ancestor := by
      rintro c (_ | ⟨_, hm⟩)
      · exact hno
      · exact hold c hm
    simp [takenWithin_of_not_mem hm, hno, ih hold']
  | case4 => simp [takenWithin]

/-- The answer to whether one class derives from another, by the entries that are taken. -/
theorem isDerivedFrom_iff_visits : h.isDerivedFrom child ancestor = true ↔
    child = ancestor ∨ (ancestor = TypeId.object ∧ h.isKnown child = true) ∨
      ∃ c ∈ h.visits child, h.IsParent c ancestor := by
  have hsearch : h.reaches ancestor hierarchyLimit [child] [] = true ↔
      ∃ c ∈ h.visits child, h.IsParent c ancestor :=
    reaches_iff fun c hm => absurd hm List.not_mem_nil
  simp only [isDerivedFrom, Bool.or_eq_true, Bool.and_eq_true, decide_eq_true_iff, hsearch,
    or_assoc]

/-- Chains of direct supertypes lead to all entries. -/
theorem reflTransGen_of_mem_takenWithin {c : TypeId} (hm : c ∈ h.takenWithin budget stack taken) :
    ∃ start ∈ stack, Relation.ReflTransGen h.IsParent start c := by
  fun_induction takenWithin h budget stack taken with
  | case1 budget current stack taken ihskip ihopen =>
    rcases List.mem_cons.mp hm with rfl | hm
    · exact ⟨c, List.mem_cons_self, .refl⟩
    · split at hm
      · obtain ⟨start, hs, hchain⟩ := ihskip hm
        exact ⟨start, List.mem_cons_of_mem _ hs, hchain⟩
      · obtain ⟨start, hs, hchain⟩ := ihopen hm
        rcases List.mem_append.mp hs with hs | hs
        · exact ⟨current, List.mem_cons_self, .head (List.mem_reverse.mp hs) hchain⟩
        · exact ⟨start, List.mem_cons_of_mem _ hs, hchain⟩
  | case2 => cases hm

/-! ## How many entries there are -/

/-- Where a search stands that started from a class from which exactly `classes` can be reached. -/
structure Underway (h : Hierarchy) (child : TypeId) (classes stack taken : List TypeId) :
    Prop where
  opened : Opened h.parentsOf stack taken
  started : child ∈ taken ∨ child ∈ stack
  inside : ∀ c ∈ stack, c ∈ classes

theorem underway_start (hreach : ∀ c, c ∈ classes ↔ Relation.ReflTransGen h.IsParent child c) :
    h.Underway child classes [child] [] := by
  refine ⟨opened_nil h.parentsOf [child], Or.inr List.mem_cons_self, fun c hs => ?_⟩
  rw [List.mem_singleton.mp hs, hreach]

/-- An entry that was taken before is gone, and nothing else changes. -/
theorem Underway.skip {current : TypeId} (hu : h.Underway child classes (current :: stack) taken)
    (hm : current ∈ taken) : h.Underway child classes stack taken := by
  refine ⟨hu.opened.skip hm, ?_, fun c hs => hu.inside c (List.mem_cons_of_mem _ hs)⟩
  rcases hu.started with ht | hs
  · exact Or.inl ht
  · rcases List.mem_cons.mp hs with rfl | hs
    · exact Or.inl hm
    · exact Or.inr hs

/-- Any other entry is traded for the direct supertypes of its class. -/
theorem Underway.take {current : TypeId} (hu : h.Underway child classes (current :: stack) taken)
    (hreach : ∀ c, c ∈ classes ↔ Relation.ReflTransGen h.IsParent child c) :
    h.Underway child classes ((h.parentsOf current).reverse ++ stack) (current :: taken) := by
  refine ⟨?_, ?_, fun c hs => ?_⟩
  · exact hu.opened.take (fun x hx => List.mem_append_right _ hx)
      fun x hx => List.mem_append_left _ (List.mem_reverse.mpr hx)
  · rcases hu.started with ht | hs
    · exact Or.inl (List.mem_cons_of_mem _ ht)
    · rcases List.mem_cons.mp hs with rfl | hs
      · exact Or.inl List.mem_cons_self
      · exact Or.inr (List.mem_append_right _ hs)
  · rcases List.mem_append.mp hs with hs | hs
    · have hcurrent := (hreach current).mp (hu.inside current List.mem_cons_self)
      exact (hreach c).mpr (hcurrent.tail (List.mem_reverse.mp hs))
    · exact hu.inside c (List.mem_cons_of_mem _ hs)

/-- When the stack is empty, all that can be reached was taken. -/
theorem Underway.mem_taken (hu : h.Underway child classes [] taken)
    (hreach : ∀ c, c ∈ classes ↔ Relation.ReflTransGen h.IsParent child c) :
    ∀ c ∈ classes, c ∈ taken := by
  intro c hc
  have hchild : child ∈ taken := hu.started.resolve_right List.not_mem_nil
  exact hu.opened.mem_of_reflTransGen (fun _ _ hp => hp) hchild ((hreach c).mp hc)

/-- Taking a class for the first time takes the edges out of it from those that are left. -/
theorem Underway.untakenEdges_take {current : TypeId}
    (hu : h.Underway child classes (current :: stack) taken) (hn : classes.Nodup)
    (hm : current ∉ taken) :
    untakenEdges h.parentsOf classes (current :: taken) + (h.parentsOf current).length =
      untakenEdges h.parentsOf classes taken :=
  untakenEdges_take_of_mem hn (hu.inside current List.mem_cons_self) hm

/-- A search takes one entry for each that is on its stack and one for each edge that is left, until
    its budget is used up. -/
theorem length_takenWithin (hn : classes.Nodup)
    (hreach : ∀ c, c ∈ classes ↔ Relation.ReflTransGen h.IsParent child c)
    (hu : h.Underway child classes stack taken) :
    (h.takenWithin budget stack taken).length =
      min budget (stack.length + untakenEdges h.parentsOf classes taken) := by
  -- The induction is on the budget. A step over a class that was taken costs the entry alone, and
  -- any other entry turns the edges out of its class into entries, so the sum falls by one.
  induction budget generalizing stack taken with
  | zero =>
    rw [takenWithin]
    · simp
    · simp
  | succ budget ih =>
    cases stack with
    | nil =>
      rw [untakenEdges_of_subset (hu.mem_taken hreach)]
      simp [takenWithin]
    | cons current stack =>
      by_cases hm : current ∈ taken
      · rw [takenWithin_of_mem hm, List.length_cons, List.length_cons, ih (hu.skip hm)]
        omega
      · have hpay := hu.untakenEdges_take hn hm
        rw [takenWithin_of_not_mem hm, List.length_cons, List.length_cons, ih (hu.take hreach),
          List.length_append, List.length_reverse]
        omega

/-- If its budget covers the stack and the edges that are left, a search takes all that can be
    reached. -/
theorem mem_takenWithin (hn : classes.Nodup)
    (hreach : ∀ c, c ∈ classes ↔ Relation.ReflTransGen h.IsParent child c)
    (hu : h.Underway child classes stack taken)
    (hb : stack.length + untakenEdges h.parentsOf classes taken ≤ budget) :
    ∀ c ∈ classes, c ∈ taken ∨ c ∈ h.takenWithin budget stack taken := by
  -- The budget covers what `length_takenWithin` counts, so the stack is empty when it is used up.
  induction budget generalizing stack taken with
  | zero =>
    have hnil : stack = [] := List.length_eq_zero_iff.mp (by omega)
    subst hnil
    exact fun c hc => Or.inl (hu.mem_taken hreach c hc)
  | succ budget ih =>
    cases stack with
    | nil => exact fun c hc => Or.inl (hu.mem_taken hreach c hc)
    | cons current stack =>
      rw [List.length_cons] at hb
      intro c hc
      by_cases hm : current ∈ taken
      · rw [takenWithin_of_mem hm, List.mem_cons]
        rcases ih (hu.skip hm) (by omega) c hc with ht | hlater
        · exact Or.inl ht
        · exact Or.inr (Or.inr hlater)
      · have hpay := hu.untakenEdges_take hn hm
        have hb' : ((h.parentsOf current).reverse ++ stack).length +
            untakenEdges h.parentsOf classes (current :: taken) ≤ budget := by
          rw [List.length_append, List.length_reverse]
          omega
        rw [takenWithin_of_not_mem hm, List.mem_cons]
        rcases ih (hu.take hreach) hb' c hc with ht | hlater
        · rcases List.mem_cons.mp ht with rfl | ht
          · exact Or.inr (Or.inl rfl)
          · exact Or.inl ht
        · exact Or.inr (Or.inr hlater)

/-! ## What is missed -/

/-- The answer is yes for whatever an ancestor is that the search does not miss. -/
theorem isDerivedFrom_iff_derives : h.isDerivedFrom child ancestor = true ↔
    h.Derives child ancestor ∧ ¬h.Misses child ancestor := by
  rw [isDerivedFrom_iff_visits]
  constructor
  · rintro (heq | hroot | ⟨c, hc, hp⟩)
    · exact ⟨Or.inl heq, fun hmiss => hmiss.ne heq⟩
    · exact ⟨Or.inr (Or.inl hroot), fun hmiss => hmiss.not_root hroot⟩
    · obtain ⟨start, hs, hchain⟩ := reflTransGen_of_mem_takenWithin hc
      rw [List.mem_singleton.mp hs] at hchain
      have hchain' : Relation.TransGen h.IsParent child ancestor := .tail' hchain hp
      exact ⟨Or.inr (Or.inr hchain'), fun hmiss => hmiss.unseen c hc hp⟩
  · rintro ⟨heq | hroot | hchain, hmiss⟩
    · exact Or.inl heq
    · exact Or.inr (Or.inl hroot)
    · by_contra hno
      rw [not_or, not_or, not_exists] at hno
      exact hmiss ⟨hchain, hno.1, hno.2.1, fun c hc hp => hno.2.2 c ⟨hc, hp⟩⟩

/-- A search that takes all that can be reached misses nothing. -/
theorem not_misses_of_visits
    (hall : ∀ c, Relation.ReflTransGen h.IsParent child c → c ∈ h.visits child) :
    ¬h.Misses child ancestor := by
  intro hmiss
  -- The last step of the chain leaves from a class that was taken.
  obtain ⟨c, hchain, hp⟩ := Relation.TransGen.tail'_iff.mp hmiss.chain
  exact hmiss.unseen c (hall c hchain) hp

/-- One class derives from another, as the checker answers it, exactly if it does derive from it and
    the search does not miss this. However many classes can be reached, the search takes one entry
    for the class that it starts from and one for each direct supertype of each of them, or as many
    as it may; as long as it may take all of these, it misses nothing. -/
theorem isDerivedFrom_iff_not_misses (h : Hierarchy) (child ancestor : TypeId) :
    (h.isDerivedFrom child ancestor = true ↔
        h.Derives child ancestor ∧ ¬h.Misses child ancestor) ∧
      ∀ classes : List TypeId, classes.Nodup →
        (∀ c, c ∈ classes ↔ Relation.ReflTransGen h.IsParent child c) →
        (h.visits child).length = min hierarchyLimit (1 + h.edgesFrom classes) ∧
          (1 + h.edgesFrom classes ≤ hierarchyLimit → ¬h.Misses child ancestor) := by
  refine ⟨isDerivedFrom_iff_derives, fun classes hn hreach => ?_⟩
  have hstart : h.Underway child classes [child] [] := underway_start hreach
  have hedges : untakenEdges h.parentsOf classes [] = h.edgesFrom classes := untakenEdges_nil
  have hlength : (h.visits child).length = min hierarchyLimit (1 + h.edgesFrom classes) := by
    rw [visits, length_takenWithin hn hreach hstart, hedges, List.length_singleton]
  refine ⟨hlength, fun hfew => not_misses_of_visits fun c hchain => ?_⟩
  have hb : [child].length + untakenEdges h.parentsOf classes [] ≤ hierarchyLimit := by
    rw [hedges, List.length_singleton]
    exact hfew
  have hc : c ∈ classes := (hreach c).mpr hchain
  exact (mem_takenWithin hn hreach hstart hb c hc).resolve_left List.not_mem_nil

end

/-! ## A hierarchy with few edges, and one with many -/

/-- To check that classes are all that can be reached, check that they are closed. -/
theorem mem_of_closed {h : Hierarchy} {child : TypeId} {classes : List TypeId}
    (hstart : child ∈ classes) (hclosed : ∀ c ∈ classes, ∀ p ∈ h.parentsOf c, p ∈ classes) :
    ∀ c, Relation.ReflTransGen h.IsParent child c → c ∈ classes := by
  intro c hchain
  -- Each step of the chain stays inside.
  induction hchain with
  | refl => exact hstart
  | tail _ hp ih => exact hclosed _ ih _ hp

/-- A class with two supertypes that have one in common, which extends the class in turn. -/
def wheel : Hierarchy :=
  [(40, [41, 42]), (41, [43]), (42, [43]), (43, [40])].foldl
    (fun h entry => h.addParents entry.1 entry.2) empty

theorem mem_wheel_iff (c : TypeId) :
    c ∈ [40, 41, 42, 43] ↔ Relation.ReflTransGen wheel.IsParent 40 c := by
  have hleft : wheel.IsParent 40 41 := by decide +kernel
  have hright : wheel.IsParent 40 42 := by decide +kernel
  have htop : wheel.IsParent 41 43 := by decide +kernel
  refine ⟨fun hm => ?_, mem_of_closed List.mem_cons_self (by decide +kernel) c⟩
  simp only [List.mem_cons, List.not_mem_nil, or_false] at hm
  rcases hm with rfl | rfl | rfl | rfl
  · exact .refl
  · exact .single hleft
  · exact .single hright
  · exact .tail (.single hleft) htop

/-- Six entries are taken, as the class in common is on the stack twice and the first class comes
    back, and nothing is missed. -/
theorem isDerivedFrom_wheel :
    ([40, 41, 42, 43].Nodup ∧ wheel.edgesFrom [40, 41, 42, 43] = 5) ∧
      (wheel.isDerivedFrom 40 43 = true ↔ wheel.Derives 40 43 ∧ ¬wheel.Misses 40 43) ∧
      (wheel.visits 40).length = 6 ∧ ¬wheel.Misses 40 43 := by
  have hn : [40, 41, 42, 43].Nodup := by decide
  have hedges : wheel.edgesFrom [40, 41, 42, 43] = 5 := by decide +kernel
  obtain ⟨hiff, hfew⟩ := isDerivedFrom_iff_not_misses wheel 40 43
  obtain ⟨hlength, hnot⟩ := hfew _ hn mem_wheel_iff
  rw [hedges] at hlength hnot
  exact ⟨⟨hn, hedges⟩, hiff, hlength, hnot (by decide)⟩

/-- Twenty-five classes, each of which has all later ones for direct supertypes, and one more above
    the second. -/
def staircase : Hierarchy :=
  (List.range 25).foldl
    (fun h i => h.addParents (35 + i)
      (List.range' (36 + i) (24 - i) ++ if i = 1 then [60] else []))
    empty

/-- With fewer than thirty classes in all, the class at the top is not found from the bottom, as all
    steps go into the later classes. So it is not the case that the answer is right as long as no
    more classes can be reached than the search may take steps. -/
theorem staircase_misses : ¬∀ (h : Hierarchy) (child ancestor : TypeId) (classes : List TypeId),
    classes.length ≤ hierarchyLimit →
    (∀ c, Relation.ReflTransGen h.IsParent child c → c ∈ classes) →
    (h.isDerivedFrom child ancestor = true ↔ h.Derives child ancestor) := by
  intro hall
  have hsecond : staircase.IsParent 35 36 := by decide +kernel
  have htop : staircase.IsParent 36 60 := by decide +kernel
  have hderives : staircase.Derives 35 60 := Or.inr (Or.inr (.tail (.single hsecond) htop))
  have hno : staircase.isDerivedFrom 35 60 = false := by decide +kernel
  have hreach : ∀ c, Relation.ReflTransGen staircase.IsParent 35 c → c ∈ List.range' 35 26 :=
    mem_of_closed (by decide +kernel) (by decide +kernel)
  have hyes := (hall staircase 35 60 (List.range' 35 26) (by decide +kernel) hreach).mpr hderives
  rw [hno] at hyes
  cases hyes

end ScriptCheck.Hierarchy
