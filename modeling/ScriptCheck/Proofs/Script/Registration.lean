/-
  Entering classes into a hierarchy that is there already.

  A script may inherit in circles, and its classes may enter a hierarchy that
  knows other supertypes of them. Each class enters with those of its direct
  supertypes that did not derive from it then. So no cycle comes about, what was
  there stays, and every supertype is a parent in the end or derives from its
  class (`Registered`). The latter is why entering the classes once more changes
  nothing: what was left out is left out again.

  All this needs that no search is cut off on the way, for which the size of the
  hierarchy that comes out is enough, since hierarchies only grow.
-/
import ScriptCheck.Proofs.Script.ClassHierarchy
import ScriptCheck.Proofs.Types.Acyclicity

namespace ScriptCheck.Script

/-- A class is known, and each of its direct supertypes is one in the hierarchy too, unless it
    derives from the class there. -/
structure Registered (s : Script) (types : Interner) (h : Hierarchy) (c : Symbol) : Prop where
  isKnown : h.isKnown (numberOf types c) = true
  parent_or_derives : ∀ p ∈ s.parentNumbers types c.id,
    h.IsParent (numberOf types c) p ∨ h.Derives p (numberOf types c)

section

variable {s : Script} {types : Interner} {h g : Hierarchy} {c : Symbol} {classes : List Symbol}

/-! ## One class -/

/-- What is kept of the supertypes of a class does not derive from it. -/
theorem not_derives_of_kept (hs : h.Settled) {p : TypeId}
    (hp : p ∈ (s.parentNumbers types c.id).filter fun parent =>
      !h.closesCycle (numberOf types c) parent) : ¬h.Derives p (numberOf types c) := by
  have hfree : h.closesCycle (numberOf types c) p = false := by
    simpa using (List.mem_filter.mp hp).2
  intro hd
  have hcycle : h.closesCycle (numberOf types c) p = true :=
    (Hierarchy.isDerivedFrom_iff (hs _ _)).mpr hd
  exact absurd (hcycle.symm.trans hfree) (by decide)

theorem grows_enterClass (s : Script) (types : Interner) (h : Hierarchy) (c : Symbol) :
    h.Grows (s.enterClass types h c) :=
  Hierarchy.grows_addParents h _ _

/-- Entering a class closes no cycle. -/
theorem acyclic_enterClass (hs : h.Settled) (ha : h.Acyclic) :
    (s.enterClass types h c).Acyclic :=
  ha.addParents fun _ hp => not_derives_of_kept hs hp

/-- A class that enters is registered. -/
theorem registered_enterClass (s : Script) (types : Interner) (h : Hierarchy) (c : Symbol) :
    s.Registered types (s.enterClass types h c) c := by
  constructor
  · unfold enterClass Hierarchy.addParents
    rw [Hierarchy.isKnown_set, decide_eq_true rfl, Bool.true_or]
  · intro p hp
    cases hcycle : h.closesCycle (numberOf types c) p with
    | true =>
      -- It was left out because it derived from the class, and it still does.
      have hd : h.Derives p (numberOf types c) := Hierarchy.derives_of_isDerivedFrom hcycle
      exact Or.inr ((grows_enterClass s types h c).derives hd)
    | false =>
      -- It was kept, unless it is the class itself.
      by_cases heq : p = numberOf types c
      · exact Or.inr (Or.inl heq)
      · have hkept : p ∈ (s.parentNumbers types c.id).filter fun parent =>
            !h.closesCycle (numberOf types c) parent :=
          List.mem_filter.mpr ⟨hp, by rw [hcycle]; rfl⟩
        exact Or.inl ((Hierarchy.mem_parentsOf_addParents h _ _ p).mpr (Or.inr ⟨hkept, heq⟩))

theorem Registered.mono (hr : s.Registered types h c) (hg : h.Grows g) :
    s.Registered types g c :=
  ⟨hg.isKnown hr.isKnown,
    fun p hp => (hr.parent_or_derives p hp).imp hg.isParent hg.derives⟩

/-- Entering a registered class changes nothing. -/
theorem Registered.supertypes?_enterClass (hr : s.Registered types h c) (hs : h.Settled)
    (x : TypeId) : (s.enterClass types h c).supertypes? x = h.supertypes? x := by
  refine Hierarchy.supertypes?_addParents_of_mem hr.isKnown (fun p hp => ?_) x
  have hin : p ∈ s.parentNumbers types c.id := (List.mem_filter.mp hp).1
  exact (hr.parent_or_derives p hin).resolve_right (not_derives_of_kept hs hp)

/-! ## All classes -/

theorem grows_foldl_enterClass (s : Script) (types : Interner) (classes : List Symbol)
    (h : Hierarchy) : h.Grows (classes.foldl (s.enterClass types) h) := by
  induction classes generalizing h with
  | nil => exact .refl h
  | cons c rest ih => exact (grows_enterClass s types h c).trans (ih _)

theorem registered_foldl_enterClass (s : Script) (types : Interner) (classes : List Symbol)
    (h : Hierarchy) :
    ∀ c ∈ classes, s.Registered types (classes.foldl (s.enterClass types) h) c := by
  induction classes generalizing h with
  | nil => exact fun c hc => absurd hc List.not_mem_nil
  | cons c rest ih =>
    intro d hd
    rw [List.foldl_cons]
    rcases List.mem_cons.mp hd with rfl | hd
    · exact (registered_enterClass s types h d).mono (grows_foldl_enterClass s types rest _)
    · exact ih _ d hd

/-- Entering all classes closes no cycle, if what comes out is small enough for all searches. -/
theorem acyclic_foldl_enterClass (ha : h.Acyclic)
    (few : (classes.foldl (s.enterClass types) h).parentEntries < hierarchyLimit) :
    (classes.foldl (s.enterClass types) h).Acyclic := by
  induction classes generalizing h with
  | nil => exact ha
  | cons c rest ih =>
    -- The hierarchy before this class grows to the last one, so its searches are not cut off.
    have hs : h.Settled := (grows_foldl_enterClass s types (c :: rest) h).settled few
    exact ih (acyclic_enterClass hs ha) few

/-- Entering registered classes changes nothing. -/
theorem supertypes?_foldl_enterClass (few : g.parentEntries < hierarchyLimit)
    (hr : ∀ c ∈ classes, s.Registered types g c)
    (hsame : ∀ x, h.supertypes? x = g.supertypes? x) (x : TypeId) :
    (classes.foldl (s.enterClass types) h).supertypes? x = g.supertypes? x := by
  -- The induction is on the classes; the hierarchy stays one that says the same as `g`.
  induction classes generalizing h with
  | nil => exact hsame x
  | cons c rest ih =>
    have hs : h.Settled := (Hierarchy.Grows.of_supertypes? hsame).settled few
    have hc : s.Registered types h c := (hr c List.mem_cons_self).mono
      (Hierarchy.Grows.of_supertypes? fun x => (hsame x).symm)
    refine ih (fun d hd => hr d (List.mem_cons_of_mem _ hd)) fun y => ?_
    rw [hc.supertypes?_enterClass hs, hsame]

end

/-- Entering the classes of a script into a hierarchy without cycles leads to one without cycles,
    which knows all classes and all edges that were there, and which does not change when the
    classes enter once more, provided that it has fewer parent entries than a search may take
    steps. Classes may inherit in circles. -/
theorem registerHierarchy_acyclic_and_stable (s : Script) {h : Hierarchy} {types : Interner}
    (ht : types.Grown) (acyclic : h.Acyclic)
    (few : (s.registerHierarchy h types).1.parentEntries < hierarchyLimit) :
    let first := s.registerHierarchy h types
    first.1.Acyclic ∧
      (∀ c ∈ s.classes, first.1.isKnown (numberOf first.2 c) = true) ∧
      (∀ x y, h.IsParent x y → first.1.IsParent x y) ∧
      ∀ x, (s.registerHierarchy first.1 first.2).1.parentsOf x = first.1.parentsOf x := by
  intro first
  obtain ⟨hg, _, hfirst⟩ := registerHierarchy_spec s h ht
  have hself : first.1 = s.classes.foldl (s.enterClass first.2) h := registerHierarchy_eq s h ht
  refine ⟨?_, fun c hc => ?_, fun x y hp => ?_, fun x => ?_⟩
  · rw [hself] at few ⊢
    exact acyclic_foldl_enterClass acyclic few
  · have hr := registered_foldl_enterClass s first.2 s.classes h c hc
    rw [← hself] at hr
    exact hr.isKnown
  · rw [hself]
    exact (grows_foldl_enterClass s first.2 s.classes h).isParent hp
  · -- Both runs give out the numbers of the interner that is left in the end.
    obtain ⟨hg', hx', _⟩ := registerHierarchy_spec s first.1 hg
    have hr := registered_foldl_enterClass s (s.registerHierarchy first.1 first.2).2 s.classes h
    rw [← hfirst _ hg' hx'] at hr
    unfold Hierarchy.parentsOf
    rw [registerHierarchy_eq s first.1 hg, supertypes?_foldl_enterClass few hr fun _ => rfl]

/-! ## Two classes that extend each other -/

/-- The tree of a file with the classes `Egg extends Hen`, `Hen extends Egg, Bird` and `Bird`. -/
def henTree : Tree :=
  .ofNodes
    [(.identifier "Egg", .none),
      (.reference .type ⟨none, some "Hen", default⟩, .none),
      (.typeDecl ⟨.classType, some 0, [some 1], [], none⟩, .none),
      (.identifier "Hen", .none),
      (.reference .type ⟨none, some "Egg", default⟩, .none),
      (.reference .type ⟨none, some "Bird", default⟩, .none),
      (.typeDecl ⟨.classType, some 3, [some 4, some 5], [], none⟩, .none),
      (.identifier "Bird", .none),
      (.typeDecl ⟨.classType, some 7, [], [], none⟩, .none),
      (.sourceFile ⟨"hen", none, [], [some 2, some 6, some 8]⟩, .none)]

/-- The file without a library. -/
def hen : Script := ofFile .empty henTree 9 []

/-- The egg extends the hen, so the hen does not extend the egg, but it is a bird; entering the
    classes once more makes no difference. -/
theorem registerHierarchy_hen :
    (hen.classes.map (numberOf (hen.registerHierarchy .standard .initial).2) = [35, 36, 37] ∧
        (hen.registerHierarchy .standard .initial).1.parentsOf 35 = [36] ∧
        (hen.registerHierarchy .standard .initial).1.parentsOf 36 = [37]) ∧
      let first := hen.registerHierarchy .standard .initial
      first.1.Acyclic ∧
        (∀ c ∈ hen.classes, first.1.isKnown (numberOf first.2 c) = true) ∧
        (∀ x y, Hierarchy.standard.IsParent x y → first.1.IsParent x y) ∧
        ∀ x, (hen.registerHierarchy first.1 first.2).1.parentsOf x = first.1.parentsOf x :=
  ⟨by decide +kernel,
    registerHierarchy_acyclic_and_stable hen .start Hierarchy.acyclic_standard (by decide +kernel)⟩

end ScriptCheck.Script
