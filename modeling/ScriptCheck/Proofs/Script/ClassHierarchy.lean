/-
  The hierarchy that the classes of a script enter.

  A script answers itself whether a class inherits from another one, and it
  enters its classes into a hierarchy by number, which answers that question
  too. `isDerivedFrom_registerHierarchy` says that both answers agree.

  Entering numbers types on the way. What comes out is the same as if all
  numbers had been given out before (`registerHierarchy_eq`), and then
  `Mirrors` is kept class by class: the parents that are entered are the direct
  supertypes, since no class closes a cycle.
-/
import Mathlib.Algebra.Order.BigOperators.Group.List
import Mathlib.Algebra.Order.Group.Nat
import ScriptCheck.Proofs.Script.Classes
import ScriptCheck.Proofs.Script.File
import ScriptCheck.Proofs.Script.Lineage
import ScriptCheck.Proofs.Types.Derivation
import ScriptCheck.Proofs.Types.Numbering
import ScriptCheck.Script.Inheritance

namespace ScriptCheck.Script

/-- The number of a class. -/
def numberOf (types : Interner) (c : Symbol) : TypeId := (types.named c.qualifiedName).1

/-- The numbers of the direct supertypes of a class. -/
def parentNumbers (s : Script) (types : Interner) (type : SymbolId) : List TypeId :=
  ((s.supertypesOf type).filterMap s.symbols.get?).map (numberOf types)

/-- Enters a class into a hierarchy after all numbers were given out. -/
def enterClass (s : Script) (types : Interner) (h : Hierarchy) (c : Symbol) : Hierarchy :=
  h.addParents (numberOf types c)
    ((s.parentNumbers types c.id).filter fun parent => !h.closesCycle (numberOf types c) parent)

section

variable {s : Script} {h : Hierarchy} {i j : Interner}

/-! ## Numbers beforehand -/

theorem keepParent_of_some {parent : SymbolId} {symbol : Symbol}
    (hp : s.symbols.get? parent = some symbol) (cls : TypeId) (kept : List TypeId)
    (i : Interner) :
    s.keepParent h cls (kept, i) parent =
      (if h.closesCycle cls (i.named symbol.qualifiedName).1 then kept
        else kept ++ [(i.named symbol.qualifiedName).1], (i.named symbol.qualifiedName).2) := by
  unfold keepParent
  rw [hp]
  dsimp only
  split <;> rfl

/-- Numbering the supertypes of a class keeps what is numbered, and leaves out what closes a
    cycle. -/
theorem foldl_keepParent (cls : TypeId) (parents : List SymbolId) (hi : i.Grown)
    (kept : List TypeId) :
    let last := parents.foldl (s.keepParent h cls) (kept, i)
    last.2.Grown ∧ i.Extends last.2 ∧ ∀ j : Interner, j.Grown → last.2.Extends j →
      last.1 = kept ++ ((parents.filterMap s.symbols.get?).map (numberOf j)).filter fun parent =>
        !h.closesCycle cls parent := by
  induction parents generalizing kept i with
  | nil => exact ⟨hi, .refl i, fun _ _ _ => (List.append_nil kept).symm⟩
  | cons parent rest ih =>
    rw [List.foldl_cons]
    cases hp : s.symbols.get? parent with
    | none =>
      have hskip : s.keepParent h cls (kept, i) parent = (kept, i) := by
        unfold keepParent
        rw [hp]
      rw [hskip, List.filterMap_cons_none hp]
      exact ih hi kept
    | some symbol =>
      -- Whether the number is kept depends on the number alone, and later interners give the same.
      rw [keepParent_of_some hp, List.filterMap_cons_some hp]
      have hi' : (i.named symbol.qualifiedName).2.Grown := hi.ask _
      have he : i.Extends (i.named symbol.qualifiedName).2 := Interner.extends_intern i _
      obtain ⟨hg, hx, hlast⟩ := ih hi' (if h.closesCycle cls (i.named symbol.qualifiedName).1
        then kept else kept ++ [(i.named symbol.qualifiedName).1])
      refine ⟨hg, he.trans hx, fun j hj hej => ?_⟩
      have hnum : (i.named symbol.qualifiedName).1 = numberOf j symbol :=
        Interner.fst_intern_of_extends hj (hx.trans hej)
      rw [hlast j hj hej, List.map_cons, List.filter_cons, hnum]
      cases h.closesCycle cls (numberOf j symbol) with
      | true => rfl
      | false => exact List.append_assoc ..

/-- Entering a class comes to the same as if the numbers had been given out before. -/
theorem registerClass_spec {state : Hierarchy × Interner} (hi : state.2.Grown) (c : Symbol) :
    (s.registerClass state c).2.Grown ∧ state.2.Extends (s.registerClass state c).2 ∧
      (∃ t, (s.registerClass state c).2.lookup? t = some (.named c.qualifiedName)) ∧
      ∀ j : Interner, j.Grown → (s.registerClass state c).2.Extends j →
        (s.registerClass state c).1 = s.enterClass j state.1 c := by
  obtain ⟨h, i⟩ := state
  have hi' : (i.named c.qualifiedName).2.Grown := hi.ask _
  have he : i.Extends (i.named c.qualifiedName).2 := Interner.extends_intern i _
  obtain ⟨hg, hx, hlast⟩ := foldl_keepParent (s := s) (h := h) (i.named c.qualifiedName).1
    (s.supertypesOf c.id) hi' []
  refine ⟨hg, he.trans hx, ⟨_, hx _ _ (Interner.lookup?_intern i _)⟩, fun j hj hej => ?_⟩
  have hnum : (i.named c.qualifiedName).1 = numberOf j c :=
    Interner.fst_intern_of_extends hj (hx.trans hej)
  unfold registerClass enterClass parentNumbers
  dsimp only
  rw [hlast j hj hej, List.nil_append, hnum]

theorem foldl_registerClass (classes : List Symbol) {state : Hierarchy × Interner}
    (hi : state.2.Grown) :
    (classes.foldl s.registerClass state).2.Grown ∧
      state.2.Extends (classes.foldl s.registerClass state).2 ∧
      (∀ c ∈ classes, ∃ t,
        (classes.foldl s.registerClass state).2.lookup? t = some (.named c.qualifiedName)) ∧
      ∀ j : Interner, j.Grown → (classes.foldl s.registerClass state).2.Extends j →
        (classes.foldl s.registerClass state).1 = classes.foldl (s.enterClass j) state.1 := by
  induction classes generalizing state with
  | nil => exact ⟨hi, .refl _, fun c hc => absurd hc List.not_mem_nil, fun _ _ _ => rfl⟩
  | cons c rest ih =>
    obtain ⟨hg, hx, ⟨t, hk⟩, hone⟩ := registerClass_spec (s := s) hi c
    obtain ⟨hg', hx', hk', hall⟩ := ih hg
    rw [List.foldl_cons]
    refine ⟨hg', hx.trans hx', fun d hd => ?_, fun j hj hej => ?_⟩
    · rcases List.mem_cons.mp hd with rfl | hd
      · exact ⟨t, hx' _ _ hk⟩
      · exact hk' d hd
    · rw [List.foldl_cons, ← hone j hj (hx'.trans hej)]
      exact hall j hj hej

/-- A run gives out numbers on the way, and enters the classes as if a later interner had given
    them all out before. -/
theorem registerHierarchy_spec (s : Script) (h : Hierarchy) {types : Interner}
    (ht : types.Grown) :
    (s.registerHierarchy h types).2.Grown ∧ types.Extends (s.registerHierarchy h types).2 ∧
      ∀ j : Interner, j.Grown → (s.registerHierarchy h types).2.Extends j →
        (s.registerHierarchy h types).1 = s.classes.foldl (s.enterClass j) h := by
  have hstart : ((h, types) : Hierarchy × Interner).2.Grown := ht
  obtain ⟨hg, hx, _, hall⟩ := foldl_registerClass s.classes hstart
  exact ⟨hg, hx, hall⟩

/-- Entering all classes comes to the same as if all numbers had been given out before. -/
theorem registerHierarchy_eq (s : Script) (h : Hierarchy) {types : Interner}
    (ht : types.Grown) :
    (s.registerHierarchy h types).1 =
      s.classes.foldl (s.enterClass (s.registerHierarchy h types).2) h := by
  obtain ⟨hg, _, hall⟩ := registerHierarchy_spec s h ht
  exact hall _ hg (.refl _)

end

/-! ## Class by class -/

/-- What has to hold for the classes to be entered as they are: every class has a number, and none
    inherits from itself. -/
structure Enterable (s : Script) (types : Interner) : Prop where
  consistent : s.symbols.Consistent
  grown : types.Grown
  numbered : ∀ c ∈ s.classes, ∃ t, types.lookup? t = some (.named c.qualifiedName)
  acyclic : ∀ a, ¬Relation.TransGen s.IsSupertype a a

/-- A hierarchy knows the classes in `done` with their direct supertypes, and nothing else. -/
structure Mirrors (s : Script) (types : Interner) (done : List Symbol) (h : Hierarchy) :
    Prop where
  isKnown_iff : ∀ x, h.isKnown x = true ↔ ∃ c ∈ done, x = numberOf types c
  mem_parents_iff : ∀ c ∈ done, ∀ x,
    x ∈ h.parentsOf (numberOf types c) ↔ x ∈ s.parentNumbers types c.id
  length_parents_le : ∀ c ∈ done,
    (h.parentsOf (numberOf types c)).length ≤ (s.supertypesOf c.id).length

section

variable {s : Script} {types : Interner} {h : Hierarchy} {done : List Symbol} {a b c : Symbol}

/-- Classes with the same number are the same. -/
theorem Enterable.eq_of_numberOf (he : s.Enterable types) (ha : a ∈ s.classes)
    (hb : b ∈ s.classes) (hnum : numberOf types a = numberOf types b) : a = b := by
  have hname : Ty.named a.qualifiedName = Ty.named b.qualifiedName :=
    Interner.fst_intern_inj he.grown hnum (he.numbered b hb)
  injection hname with hname
  -- A number stands for one name, and a name for one class.
  obtain ⟨i, hi, hki⟩ := mem_classes_iff.mp ha
  obtain ⟨j, hj, hkj⟩ := mem_classes_iff.mp hb
  have hij : i = j :=
    he.consistent.unique hi hj (hki.trans hkj.symm) (Or.inl hki) hname
  subst hij
  exact Option.some.inj (hi.symm.trans hj)

/-- The numbers of the direct supertypes are numbers of classes. -/
theorem Enterable.mem_parentNumbers_iff (he : s.Enterable types) {type : SymbolId} {x : TypeId} :
    x ∈ s.parentNumbers types type ↔
      ∃ p ∈ s.classes, p.id ∈ s.supertypesOf type ∧ x = numberOf types p := by
  unfold parentNumbers
  rw [List.mem_map]
  constructor
  · rintro ⟨p, hp, rfl⟩
    obtain ⟨i, hi, hget⟩ := List.mem_filterMap.mp hp
    obtain ⟨p', hp', hk⟩ := SymbolTable.isType_iff.mp (isType_of_mem_supertypesOf he.consistent hi)
    have heq : p' = p := Option.some.inj (hp'.symm.trans hget)
    refine ⟨p, mem_classes_iff.mpr ⟨i, hget, heq ▸ hk⟩, ?_, rfl⟩
    rw [he.consistent.id_eq hget]
    exact hi
  · rintro ⟨p, hp, hin, rfl⟩
    exact ⟨p, List.mem_filterMap.mpr ⟨p.id, hin, get?_of_mem_classes he.consistent hp⟩, rfl⟩

/-- Whatever has a direct supertype is known. -/
theorem isKnown_of_isParent {x y : TypeId} (hp : h.IsParent x y) : h.isKnown x = true := by
  unfold Hierarchy.IsParent Hierarchy.parentsOf at hp
  unfold Hierarchy.isKnown
  cases hx : h.supertypes? x with
  | none =>
    rw [hx] at hp
    cases hp
  | some parents => rfl

/-- Where every step of one relation out of a listed entry leads to a listed entry and is a step
    of another relation too, chains of the one are chains of the other. -/
theorem transGen_along {α : Type _} {β : Type _} {γ : Type _} {r : α → α → Prop}
    {q : β → β → Prop} {f : γ → α} {g : γ → β} {entries : List γ}
    (hone : ∀ c ∈ entries, ∀ z, r (f c) z → ∃ d ∈ entries, z = f d ∧ q (g c) (g d))
    {a : γ} (ha : a ∈ entries) {z : α} (hp : Relation.TransGen r (f a) z) :
    ∃ d ∈ entries, z = f d ∧ Relation.TransGen q (g a) (g d) := by
  induction hp with
  | single hstep =>
    obtain ⟨d, hd, rfl, hs⟩ := hone a ha _ hstep
    exact ⟨d, hd, rfl, .single hs⟩
  | tail _ hstep ih =>
    obtain ⟨c, hc, rfl, hchain⟩ := ih
    obtain ⟨d, hd, rfl, hs⟩ := hone c hc _ hstep
    exact ⟨d, hd, rfl, .tail hchain hs⟩

/-- Chains in the hierarchy are chains of classes. -/
theorem Mirrors.transGen_classes (hm : s.Mirrors types done h) (he : s.Enterable types)
    (hsub : ∀ d ∈ done, d ∈ s.classes) (ha : a ∈ s.classes) {y : TypeId}
    (hp : Relation.TransGen h.IsParent (numberOf types a) y) :
    ∃ b ∈ s.classes, y = numberOf types b ∧ Relation.TransGen s.IsSupertype a.id b.id := by
  refine transGen_along (g := Symbol.id) (fun c hc z hz => ?_) ha hp
  obtain ⟨d, hd, hnum⟩ := (hm.isKnown_iff _).mp (isKnown_of_isParent hz)
  have heq : c = d := he.eq_of_numberOf hc (hsub d hd) hnum
  subst heq
  obtain ⟨p, hp, hin, rfl⟩ := he.mem_parentNumbers_iff.mp ((hm.mem_parents_iff c hd z).mp hz)
  exact ⟨p, hp, rfl, isType_of_mem_classes he.consistent hc, hin⟩

/-- Chains of classes that are all entered are chains in the hierarchy. -/
theorem Mirrors.transGen_numbers (hm : s.Mirrors types s.classes h) (he : s.Enterable types)
    (ha : a ∈ s.classes) {i : SymbolId} (hp : Relation.TransGen s.IsSupertype a.id i) :
    ∃ b ∈ s.classes, i = b.id ∧
      Relation.TransGen h.IsParent (numberOf types a) (numberOf types b) := by
  refine transGen_along (f := Symbol.id) (g := numberOf types) (fun c hc i hi => ?_) ha hp
  obtain ⟨b, hb, rfl⟩ := exists_class_of_isType he.consistent
    (isType_of_mem_supertypesOf he.consistent hi.2)
  refine ⟨b, hb, rfl, (hm.mem_parents_iff c hc _).mpr ?_⟩
  exact he.mem_parentNumbers_iff.mpr ⟨b, hb, hi.2, rfl⟩

/-! ## No class closes a cycle -/

/-- Only the root class has the number that is fixed for it. -/
theorem Enterable.qualifiedName_eq (he : s.Enterable types)
    (hnum : numberOf types a = TypeId.object) : a.qualifiedName = "java.lang.Object" := by
  have hfixed : Interner.initial.lookup? TypeId.object = some (.named "java.lang.Object") := rfl
  have hroot : (types.named a.qualifiedName).2.lookup? TypeId.object =
      some (.named "java.lang.Object") :=
    (he.grown.extends_initial.trans (Interner.extends_intern _ _)) _ _ hfixed
  have hself : (types.named a.qualifiedName).2.lookup? (numberOf types a) =
      some (.named a.qualifiedName) := Interner.lookup?_intern _ _
  rw [hnum, hroot] at hself
  injection hself with hself
  injection hself with hself
  exact hself.symm

/-- Every class inherits from the class with the number of the root class. -/
theorem Enterable.reflTransGen_object (he : s.Enterable types) (ha : a ∈ s.classes)
    (hb : b ∈ s.classes) (hnum : numberOf types b = TypeId.object) :
    Relation.ReflTransGen s.IsSupertype a.id b.id := by
  obtain ⟨i, hi, hk⟩ := mem_classes_iff.mp hb
  have hroot : s.symbols.type? "java.lang.Object" = some b.id := by
    rw [he.consistent.id_eq hi]
    exact he.consistent.type?_of_get? hi hk (he.qualifiedName_eq hnum)
  exact reflTransGen_root he.consistent he.acyclic hroot (isType_of_mem_classes he.consistent ha)

/-- A direct supertype of a class never derives from it. -/
theorem Mirrors.closesCycle_eq_false (hm : s.Mirrors types done h) (he : s.Enterable types)
    (hsub : ∀ d ∈ done, d ∈ s.classes) (hc : c ∈ s.classes) (hb : b ∈ s.classes)
    (hin : b.id ∈ s.supertypesOf c.id) :
    h.closesCycle (numberOf types c) (numberOf types b) = false := by
  have hstep : s.IsSupertype c.id b.id := ⟨isType_of_mem_classes he.consistent hc, hin⟩
  rw [← Bool.not_eq_true]
  intro hcycle
  -- Each way in which the supertype could derive from the class makes it inherit from itself.
  rcases Hierarchy.derives_of_isDerivedFrom hcycle with heq | ⟨hobj, _⟩ | hchain
  · have hbc : b = c := he.eq_of_numberOf hb hc heq
    subst hbc
    exact he.acyclic _ (.single hstep)
  · exact he.acyclic _ (.head' hstep (he.reflTransGen_object hb hc hobj))
  · obtain ⟨d, hd, hnum, hup⟩ := hm.transGen_classes he hsub hb hchain
    have hcd : c = d := he.eq_of_numberOf hc hd hnum
    subst hcd
    exact he.acyclic _ (.head hstep hup)

/-- So a class enters with all of its direct supertypes. -/
theorem Mirrors.enterClass_eq (hm : s.Mirrors types done h) (he : s.Enterable types)
    (hsub : ∀ d ∈ done, d ∈ s.classes) (hc : c ∈ s.classes) :
    s.enterClass types h c = h.addParents (numberOf types c) (s.parentNumbers types c.id) := by
  unfold enterClass
  rw [List.filter_eq_self.mpr]
  intro x hx
  obtain ⟨p, hp, hin, rfl⟩ := he.mem_parentNumbers_iff.mp hx
  rw [hm.closesCycle_eq_false he hsub hc hp hin]
  rfl

theorem length_foldl_withParent_le (cls : TypeId) (parents known : List TypeId) :
    (parents.foldl (Hierarchy.withParent cls) known).length ≤ known.length + parents.length := by
  induction parents generalizing known with
  | nil => exact Nat.le_refl _
  | cons parent rest ih =>
    have hone : (Hierarchy.withParent cls known parent).length ≤ known.length + 1 := by
      unfold Hierarchy.withParent
      split
      · omega
      · rw [List.length_append, List.length_singleton]
    have hrest := ih (Hierarchy.withParent cls known parent)
    rw [List.foldl_cons, List.length_cons]
    omega

/-- Entering one more class. -/
theorem Mirrors.enterClass (hm : s.Mirrors types done h) (he : s.Enterable types)
    (hsub : ∀ d ∈ done, d ∈ s.classes) (hc : c ∈ s.classes) (hnew : c ∉ done) :
    s.Mirrors types (done ++ [c]) (s.enterClass types h c) := by
  rw [hm.enterClass_eq he hsub hc]
  have hother : ∀ d ∈ done, numberOf types d ≠ numberOf types c := by
    intro d hd heq
    exact hnew (he.eq_of_numberOf (hsub d hd) hc heq ▸ hd)
  -- So nothing was entered under the number of the new class.
  have hunknown : h.parentsOf (numberOf types c) = [] := by
    rw [List.eq_nil_iff_forall_not_mem]
    intro x hx
    obtain ⟨d, hd, heq⟩ := (hm.isKnown_iff _).mp (isKnown_of_isParent hx)
    exact hother d hd heq.symm
  refine ⟨fun x => ?_, fun d hd x => ?_, fun d hd => ?_⟩
  · unfold Hierarchy.addParents
    rw [Hierarchy.isKnown_set, Bool.or_eq_true, decide_eq_true_iff, hm.isKnown_iff]
    simp only [List.mem_append, List.mem_singleton, or_and_right, exists_or, exists_eq_left]
    exact or_comm
  · rcases List.mem_append.mp hd with hd | hd
    · unfold Hierarchy.addParents
      rw [Hierarchy.parentsOf_set_of_ne h (hother d hd)]
      exact hm.mem_parents_iff d hd x
    · rw [List.mem_singleton] at hd
      subst hd
      rw [Hierarchy.mem_parentsOf_addParents, hunknown]
      -- Only the class itself would be left out of its supertypes.
      refine ⟨fun hx => (hx.resolve_left List.not_mem_nil).1, fun hx => Or.inr ⟨hx, ?_⟩⟩
      obtain ⟨p, hp, hin, rfl⟩ := he.mem_parentNumbers_iff.mp hx
      intro heq
      have hpd : p = d := he.eq_of_numberOf hp hc heq
      subst hpd
      exact he.acyclic _ (.single ⟨isType_of_mem_classes he.consistent hp, hin⟩)
  · rcases List.mem_append.mp hd with hd | hd
    · unfold Hierarchy.addParents
      rw [Hierarchy.parentsOf_set_of_ne h (hother d hd)]
      exact hm.length_parents_le d hd
    · rw [List.mem_singleton] at hd
      subst hd
      unfold Hierarchy.addParents
      rw [Hierarchy.parentsOf_set_self, hunknown]
      refine (length_foldl_withParent_le _ _ _).trans ?_
      rw [List.length_nil, Nat.zero_add]
      unfold parentNumbers
      rw [List.length_map]
      exact List.length_filterMap_le _ _

/-- Entering all classes, one after the other. -/
theorem Enterable.mirrors (he : s.Enterable types) :
    s.Mirrors types s.classes (s.classes.foldl (s.enterClass types) .empty) := by
  have hfold : ∀ (rest done : List Symbol) (h : Hierarchy), s.Mirrors types done h →
      (∀ c ∈ done ++ rest, c ∈ s.classes) → (done ++ rest).Nodup →
      s.Mirrors types (done ++ rest) (rest.foldl (s.enterClass types) h) := by
    intro rest
    -- What is done grows while the rest shrinks, and together they have no class twice.
    induction rest with
    | nil =>
      intro done h hm _ _
      rw [List.append_nil]
      exact hm
    | cons c rest ih =>
      intro done h hm hsub hn
      have hnew : c ∉ done := fun hd =>
        (List.nodup_append.mp hn).2.2 c hd c List.mem_cons_self rfl
      have hm' := hm.enterClass he (fun d hd => hsub d (List.mem_append_left _ hd))
        (hsub c (List.mem_append_right _ List.mem_cons_self)) hnew
      have hsplit : done ++ c :: rest = (done ++ [c]) ++ rest := by
        rw [List.append_assoc, List.singleton_append]
      rw [hsplit] at hsub hn ⊢
      exact ih (done ++ [c]) _ hm' hsub hn
  have hempty : s.Mirrors types [] .empty :=
    ⟨fun x => ⟨fun hx => absurd hx Bool.false_ne_true,
        fun ⟨c, hc, _⟩ => absurd hc List.not_mem_nil⟩,
      fun c hc => absurd hc List.not_mem_nil, fun c hc => absurd hc List.not_mem_nil⟩
  exact hfold s.classes [] .empty hempty (fun c hc => hc)
    ((nodup_map_id_classes he.consistent).of_map Symbol.id)

/-! ## Both answers agree -/

/-- Within the limit, no search through the hierarchy of the classes is cut off. -/
theorem Mirrors.settled (hm : s.Mirrors types s.classes h) (he : s.Enterable types)
    (few : (s.classes.map fun c => (s.supertypesOf c.id).length).sum < hierarchyLimit) :
    h.Settled := by
  intro child ancestor
  have hn : (s.classes.map (numberOf types)).Nodup :=
    List.Nodup.map_on (fun a ha b hb heq => he.eq_of_numberOf ha hb heq)
      ((nodup_map_id_classes he.consistent).of_map Symbol.id)
  have hout : ∀ x, x ∉ s.classes.map (numberOf types) → h.parentsOf x = [] := by
    intro x hx
    rw [List.eq_nil_iff_forall_not_mem]
    intro y hy
    obtain ⟨c, hc, rfl⟩ := (hm.isKnown_iff x).mp (isKnown_of_isParent hy)
    exact hx (List.mem_map_of_mem hc)
  have hedges : untakenEdges h.parentsOf (s.classes.map (numberOf types)) [] ≤
      (s.classes.map fun c => (s.supertypesOf c.id).length).sum := by
    rw [untakenEdges_nil, List.map_map]
    exact List.sum_le_sum fun c hc => hm.length_parents_le c hc
  refine Or.inr (Or.inr (Hierarchy.settles_of_le hn hout ?_))
  rw [List.length_singleton]
  omega

/-- Within the limit, a class inherits from another one if and only if a chain of direct
    supertypes leads there. -/
theorem isSubclass_iff (hs : s.symbols.Consistent)
    (few : (s.classes.map fun c => (s.supertypesOf c.id).length).sum < hierarchyLimit)
    (ha : a ∈ s.classes) {i : SymbolId} :
    s.isSubclass a.id i = true ↔ Relation.ReflTransGen s.IsSupertype a.id i := by
  have closed : ∀ x ∈ s.classes.map Symbol.id, ∀ p ∈ s.supertypesOf x,
      p ∈ s.classes.map Symbol.id := by
    intro x _ p hp
    obtain ⟨c, hc, rfl⟩ := exists_class_of_isType hs (isType_of_mem_supertypesOf hs hp)
    exact List.mem_map_of_mem hc
  have few' : ((s.classes.map Symbol.id).map fun x => (s.supertypesOf x).length).sum <
      hierarchyLimit := by
    rw [List.map_map]
    exact few
  unfold isSubclass
  rw [List.contains_iff_mem,
    mem_lineage_iff (nodup_map_id_classes hs) closed few' (List.mem_map_of_mem ha)]
  -- A chain that starts at a class runs through classes only.
  constructor
  · intro hp
    have hboth : Relation.ReflTransGen s.IsSupertype a.id i ∧ s.symbols.isType i = true := by
      induction hp with
      | refl => exact ⟨.refl, isType_of_mem_classes hs ha⟩
      | tail _ hstep ih => exact ⟨.tail ih.1 ⟨ih.2, hstep⟩, isType_of_mem_supertypesOf hs hstep⟩
    exact hboth.1
  · intro hp
    exact Relation.ReflTransGen.mono (fun _ _ hstep => hstep.2) _ _ hp

end

/-- If no class inherits from itself and the direct supertypes of all classes are fewer than the
    steps of a search, the hierarchy that the classes enter answers as the script does. -/
theorem isDerivedFrom_registerHierarchy {s : Script} (hs : s.binding.Bound) {types : Interner}
    (ht : types.Grown) (acyclic : ∀ a, ¬Relation.TransGen s.IsSupertype a a)
    (few : (s.classes.map fun c => (s.supertypesOf c.id).length).sum < hierarchyLimit)
    {a b : Symbol} (ha : a ∈ s.classes) (hb : b ∈ s.classes) :
    (s.registerHierarchy .empty types).1.isDerivedFrom
        (numberOf (s.registerHierarchy .empty types).2 a)
        (numberOf (s.registerHierarchy .empty types).2 b) = s.isSubclass a.id b.id := by
  have hstart : ((Hierarchy.empty, types) : Hierarchy × Interner).2.Grown := ht
  obtain ⟨hg, _, hnumbered, _⟩ := foldl_registerClass (s := s) s.classes hstart
  have he : s.Enterable (s.registerHierarchy .empty types).2 :=
    ⟨hs.consistent, hg, hnumbered, acyclic⟩
  rw [registerHierarchy_eq s .empty ht]
  have hm := he.mirrors
  rw [Bool.eq_iff_iff, Hierarchy.isDerivedFrom_iff (hm.settled he few _ _),
    isSubclass_iff he.consistent few ha]
  constructor
  · rintro (heq | ⟨hobj, _⟩ | hchain)
    · have hab : a = b := he.eq_of_numberOf ha hb heq
      rw [hab]
    · exact he.reflTransGen_object ha hb hobj
    · obtain ⟨d, hd, hnum, hup⟩ := hm.transGen_classes he (fun _ hd => hd) ha hchain
      have hbd : b = d := he.eq_of_numberOf hb hd hnum
      rw [hbd]
      exact hup.to_reflTransGen
  · intro hup
    rcases (Relation.reflTransGen_iff_eq_or_transGen.mp hup) with heq | hchain
    · have hget := get?_of_mem_classes he.consistent ha
      have hab : a = b := Option.some.inj
        (hget.symm.trans (heq ▸ get?_of_mem_classes he.consistent hb))
      exact Or.inl (congrArg _ hab)
    · obtain ⟨d, hd, hid, hchain'⟩ := hm.transGen_numbers he ha hchain
      have hget := get?_of_mem_classes he.consistent hd
      have hdb : d = b := Option.some.inj
        (hget.symm.trans (hid ▸ get?_of_mem_classes he.consistent hb))
      subst hdb
      exact Or.inr (Or.inr hchain')

/-! ## A dog is an object -/

/-- The tree of a file with the classes `Animal` and `Dog extends Animal`. -/
def zooTree : Tree :=
  .ofNodes
    [(.identifier "Animal", .none),
      (.typeDecl ⟨.classType, some 0, [], [], none⟩, .none),
      (.identifier "Dog", .none),
      (.reference .type ⟨none, some "Animal", default⟩, .none),
      (.typeDecl ⟨.classType, some 2, [some 3], [], none⟩, .none),
      (.sourceFile ⟨"zoo", none, [], [some 1, some 4]⟩, .none)]

/-- A library that has the root class only. -/
def zooLibrary : SymbolTable := (SymbolTable.empty.addType "java.lang.Object" .none []).1

/-- The file on top of the library. -/
def zoo : Script := ofFile zooLibrary zooTree 5 []

/-- The root class. -/
def zooObject : Symbol :=
  ⟨2, "Object", .type, .none, some 1, "java.lang.Object", none, [], none⟩

/-- The class `Dog`. -/
def zooDog : Symbol := ⟨5, "Dog", .type, .none, some 3, "Dog", some 4, [], none⟩

theorem zoo_bound : zoo.binding.Bound :=
  .file (.libraries (.type .start "java.lang.Object" .none [])) zooTree 5

/-- Supertypes have smaller numbers here, so no class inherits from itself. -/
theorem zoo_acyclic (a : SymbolId) : ¬Relation.TransGen zoo.IsSupertype a a := by
  have hall : ∀ x < 6, zoo.symbols.isType x = true → ∀ y ∈ zoo.supertypesOf x, y < x := by
    decide +kernel
  have hstep : ∀ x y, zoo.IsSupertype x y → y < x := by
    intro x y hxy
    obtain ⟨c, hc, _⟩ := SymbolTable.isType_iff.mp hxy.1
    have hx : x < zoo.symbols.size := SymbolTable.lt_size_of_get? hc
    have hsize : zoo.symbols.size = 6 := by decide +kernel
    exact hall x (hsize ▸ hx) hxy.1 y hxy.2
  have hdown : ∀ x y, Relation.TransGen zoo.IsSupertype x y → y < x := by
    intro x y hxy
    induction hxy with
    | single h => exact hstep _ _ h
    | tail _ h ih => exact Nat.lt_trans (hstep _ _ h) ih
  exact fun h => Nat.lt_irrefl a (hdown a a h)

/-- `Dog` inherits from the root class through `Animal`, and the hierarchy says so too. -/
theorem isDerivedFrom_zoo :
    zoo.isSubclass zooDog.id zooObject.id = true ∧
      (zoo.registerHierarchy .empty .initial).1.isDerivedFrom
          (numberOf (zoo.registerHierarchy .empty .initial).2 zooDog)
          (numberOf (zoo.registerHierarchy .empty .initial).2 zooObject) =
        zoo.isSubclass zooDog.id zooObject.id :=
  ⟨by decide +kernel,
    isDerivedFrom_registerHierarchy zoo_bound .start zoo_acyclic (by decide +kernel)
      (by decide +kernel) (by decide +kernel)⟩

end ScriptCheck.Script
