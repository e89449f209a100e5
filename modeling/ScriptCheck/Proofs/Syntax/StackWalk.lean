/-
  The walk downwards with a stack.

  `preorder` is a recursion over parts. A walk that cannot recurse keeps the
  parts it still has to look at on a stack instead: it takes the top entry, and
  if there is such a node, lists it and puts its parts on the stack, the last
  one first. What is missing is found out only when it is taken.
  `Descends.preorder_walk` says that this ends, with the same list, on every
  tree whose parts come before the nodes that hold them; that the list holds
  exactly the nodes that can be reached; and that it holds each of them once,
  behind the node that it is a part of, if none of them is a part twice.

  `Lists` is what a run of the walk does to the entries on top of its stack,
  whatever lies below them. Entries that are done one after the other are done
  together, so the nodes below a part are listed by induction on its number.
-/
import Mathlib.Data.List.Flatten
import Mathlib.Data.List.Nodup
import Mathlib.Logic.Relation
import ScriptCheck.Proofs.Syntax.Preorder

namespace ScriptCheck.Tree

/-- The walk with a stack, whose top comes first, behind what was listed already. It may take `room`
    entries; if these are not enough, it has no outcome. -/
def walk (t : Tree) : Nat → List Part → List NodeId → Option (List NodeId)
  | _, [], order => some order
  | 0, _ :: _, _ => none
  | room + 1, none :: stack, order => t.walk room stack order
  | room + 1, some i :: stack, order =>
    if i < t.size then
      t.walk room ((t.children i).reverse.foldl (fun stack part => part :: stack) stack)
        (order ++ [i])
    else t.walk room stack order

/-- Taking so many entries, the walk gets through the given parts on top of its stack and lists the
    given nodes. -/
def Lists (t : Tree) (parts : List Part) (steps : Nat) (nodes : List NodeId) : Prop :=
  ∀ room stack order,
    t.walk (steps + room) (parts ++ stack) order = t.walk room stack (order ++ nodes)

/-- A node is a part of another one, and is there. -/
def IsPart (t : Tree) (i c : NodeId) : Prop := some c ∈ t.children i ∧ c < t.size

/-- A node is there and can be reached from another one by going from nodes to their parts. -/
def Below (t : Tree) (root i : NodeId) : Prop :=
  root < t.size ∧ Relation.ReflTransGen t.IsPart root i

/-- No node is a part twice, neither of one node nor of two, as far as can be seen from `root`. -/
structure PartsOnce (t : Tree) (root : NodeId) : Prop where
  count_le : ∀ {i c}, t.Below root i → c < t.size → (t.children i).count (some c) ≤ 1
  unique : ∀ {i j c}, t.Below root i → t.Below root j → t.IsPart i c → t.IsPart j c → i = j

section

variable {t : Tree} {root i c d : Nat} {parts more : List Part} {part : Part} {n m : Nat}
  {nodes others : List NodeId}

/-! ## Runs of the walk -/

theorem lists_nil (t : Tree) : t.Lists [] 0 [] := by
  intro room stack order
  rw [Nat.zero_add, List.nil_append, List.append_nil]

/-- One run after the other. -/
theorem Lists.append (h : t.Lists parts n nodes) (h' : t.Lists more m others) :
    t.Lists (parts ++ more) (n + m) (nodes ++ others) := by
  intro room stack order
  calc
    t.walk (n + m + room) (parts ++ more ++ stack) order =
        t.walk (n + (m + room)) (parts ++ (more ++ stack)) order := by
      rw [Nat.add_assoc, List.append_assoc]
    _ = t.walk (m + room) (more ++ stack) (order ++ nodes) := h _ _ _
    _ = t.walk room stack (order ++ nodes ++ others) := h' _ _ _
    _ = t.walk room stack (order ++ (nodes ++ others)) := by rw [List.append_assoc]

/-- A part that is missing is taken and forgotten. -/
theorem lists_missing (t : Tree) : t.Lists [none] 1 [] := by
  intro room stack order
  rw [Nat.add_comm, List.singleton_append, walk, List.append_nil]

/-- So is one that leads nowhere. -/
theorem lists_dangling (hi : t.size ≤ i) : t.Lists [some i] 1 [] := by
  intro room stack order
  rw [Nat.add_comm, List.singleton_append, walk, if_neg (Nat.not_lt.mpr hi), List.append_nil]

/-- A node is listed, and its parts come next, in their order. -/
theorem Lists.node (hi : i < t.size) (h : t.Lists (t.children i) n nodes) :
    t.Lists [some i] (n + 1) (i :: nodes) := by
  intro room stack order
  have hpushed : (t.children i).reverse.foldl (fun stack part => part :: stack) stack =
      t.children i ++ stack := by
    rw [List.foldl_flip_cons_eq_append, List.map_id', List.reverse_reverse]
  rw [Nat.add_right_comm, List.singleton_append, walk, if_pos hi, hpushed, h, List.append_assoc,
    List.singleton_append]

/-- Parts that can be listed each can be listed one after the other. -/
theorem exists_lists_flatMap {f : Part → List NodeId}
    (h : ∀ part ∈ parts, ∃ n, t.Lists [part] n (f part)) :
    ∃ n, t.Lists parts n (parts.flatMap f) := by
  induction parts with
  | nil => exact ⟨0, lists_nil t⟩
  | cons part rest ih =>
    obtain ⟨n, hn⟩ := h part List.mem_cons_self
    obtain ⟨m, hm⟩ := ih fun other ho => h other (List.mem_cons_of_mem _ ho)
    exact ⟨n + m, hn.append hm⟩

/-- The walk lists what is at or below a part, in preorder. -/
theorem Descends.exists_lists (h : t.Descends) (part : Part) :
    ∃ n, t.Lists [part] n (t.preorderOf part) := by
  cases part with
  | none => exact ⟨1, lists_missing t⟩
  | some i =>
    rw [preorderOf_some]
    induction i using Nat.strongRecOn with
    | ind i ih =>
      by_cases hi : i < t.size
      · rw [h.preorder_eq hi]
        -- The parts that are there have smaller numbers.
        obtain ⟨n, hn⟩ : ∃ n, t.Lists (t.children i) n ((t.children i).flatMap t.preorderOf) := by
          refine exists_lists_flatMap fun part hpart => ?_
          cases part with
          | none => exact ⟨1, lists_missing t⟩
          | some c =>
            rw [preorderOf_some]
            by_cases hc : c < t.size
            · exact ih c (h hpart hc)
            · have hle : t.size ≤ c := Nat.le_of_not_lt hc
              rw [preorder_eq_nil hle]
              exact ⟨1, lists_dangling hle⟩
        exact ⟨n + 1, Lists.node hi hn⟩
      · have hle : t.size ≤ i := Nat.le_of_not_lt hi
        rw [preorder_eq_nil hle]
        exact ⟨1, lists_dangling hle⟩

/-! ## What is listed -/

/-- A node comes before all that is listed for its parts. -/
theorem Descends.sublist_preorder (h : t.Descends) (hi : i < t.size) (hp : t.IsPart i c) :
    (i :: t.preorder c).Sublist (t.preorder i) := by
  have hpart : (t.preorderOf (some c)).Sublist ((t.children i).flatMap t.preorderOf) := by
    have hone : [some c].Sublist (t.children i) := List.singleton_sublist.mpr hp.1
    simpa using hone.flatMap t.preorderOf
  rw [preorderOf_some] at hpart
  rw [h.preorder_eq hi]
  exact hpart.cons_cons i

/-- Numbers fall on the way down. -/
theorem Descends.le_of_reflTransGen (h : t.Descends) (hr : Relation.ReflTransGen t.IsPart i c) :
    c ≤ i := by
  induction hr with
  | refl => exact Nat.le_refl i
  | tail _ hp ih => exact Nat.le_trans (Nat.le_of_lt (h hp.1 hp.2)) ih

/-- Nothing is listed from where there is no node. -/
theorem root_lt_size_of_mem_preorder (hm : c ∈ t.preorder i) : i < t.size := by
  refine Nat.lt_of_not_le fun hle => ?_
  rw [preorder_eq_nil hle] at hm
  cases hm

/-- Exactly the nodes that can be reached are listed. -/
theorem Descends.mem_preorder_iff (h : t.Descends) : c ∈ t.preorder i ↔ t.Below i c := by
  constructor
  · intro hm
    induction i using Nat.strongRecOn with
    | ind i ih =>
      have hi : i < t.size := root_lt_size_of_mem_preorder hm
      rw [h.preorder_eq hi, List.mem_cons, List.mem_flatMap] at hm
      rcases hm with rfl | ⟨part, hpart, hm⟩
      · exact ⟨hi, .refl⟩
      · cases part with
        | none => cases hm
        | some d =>
          rw [preorderOf_some] at hm
          have hd : d < t.size := root_lt_size_of_mem_preorder hm
          obtain ⟨-, hchain⟩ := ih d (h hpart hd) hm
          exact ⟨hi, .head ⟨hpart, hd⟩ hchain⟩
  · rintro ⟨hi, hchain⟩
    induction hchain using Relation.ReflTransGen.head_induction_on with
    | refl =>
      rw [h.preorder_eq hi]
      exact List.mem_cons_self
    | head hp _ ih => exact (h.sublist_preorder hi hp).subset (List.mem_cons_of_mem _ (ih hp.2))

/-- What is listed for a part is below a node that is there. -/
theorem Descends.mem_preorderOf (h : t.Descends) (hm : i ∈ t.preorderOf part) :
    ∃ c, part = some c ∧ t.Below c i := by
  cases part with
  | none => cases hm
  | some c =>
    rw [preorderOf_some] at hm
    exact ⟨c, rfl, h.mem_preorder_iff.mp hm⟩

/-- A node is listed before its parts. -/
theorem Descends.pair_sublist_preorder (h : t.Descends) (hb : t.Below root i) (hp : t.IsPart i c) :
    [i, c].Sublist (t.preorder root) := by
  obtain ⟨hroot, hchain⟩ := hb
  induction hchain using Relation.ReflTransGen.head_induction_on with
  | refl =>
    have hc : c ∈ t.preorder c := h.mem_preorder_iff.mpr ⟨hp.2, .refl⟩
    exact ((List.singleton_sublist.mpr hc).cons_cons i).trans (h.sublist_preorder hroot hp)
  | head hstep _ ih =>
    exact (ih hstep.2).trans ((List.sublist_cons_self _ _).trans (h.sublist_preorder hroot hstep))

/-! ## What is listed once -/

theorem Below.tail (hb : t.Below root i) (hp : t.IsPart i c) : t.Below root c :=
  ⟨hb.1, hb.2.tail hp⟩

theorem PartsOnce.below (ho : t.PartsOnce root) (hb : t.Below root i) : t.PartsOnce i where
  count_le hi := ho.count_le ⟨hb.1, hb.2.trans hi.2⟩
  unique hi hj := ho.unique ⟨hb.1, hb.2.trans hi.2⟩ ⟨hb.1, hb.2.trans hj.2⟩

/-- What can be reached from one part of a node cannot be reached from another one. -/
theorem PartsOnce.eq_of_reflTransGen (ho : t.PartsOnce root) (h : t.Descends)
    (hroot : root < t.size) (hc : t.IsPart root c) (hd : t.IsPart root d)
    (hci : Relation.ReflTransGen t.IsPart c i) (hdi : Relation.ReflTransGen t.IsPart d i) :
    c = d := by
  have hstart : t.Below root root := ⟨hroot, .refl⟩
  -- A part of the root is a part of no other node, and none at or below a part has the root again.
  have hend : ∀ {a b}, t.IsPart root a → t.IsPart root b → Relation.ReflTransGen t.IsPart a b →
      a = b := by
    intro a b ha hb hchain
    rcases hchain.cases_tail with heq | ⟨e, hae, heb⟩
    · exact heq.symm
    · have hroot' : root = e :=
        ho.unique hstart ⟨hroot, (Relation.ReflTransGen.single ha).trans hae⟩ hb heb
      have hle : root ≤ a := hroot' ▸ h.le_of_reflTransGen hae
      exact absurd (h ha.1 ha.2) (Nat.not_lt.mpr hle)
  -- Two chains to one node are followed upwards together, until one of them is at its start.
  induction hci with
  | refl => exact (hend hd hc hdi).symm
  | @tail y x hcy hyx ih =>
    rcases hdi.cases_tail with heq | ⟨z, hdz, hzx⟩
    · subst heq
      exact hend hc hd (hcy.tail hyx)
    · have hy : t.Below root y := ⟨hroot, (Relation.ReflTransGen.single hc).trans hcy⟩
      have hz : t.Below root z := ⟨hroot, (Relation.ReflTransGen.single hd).trans hdz⟩
      obtain rfl : y = z := ho.unique hy hz hyx hzx
      exact ih hdz

/-- Nothing is listed twice if no node is a part twice. -/
theorem PartsOnce.nodup_preorder (ho : t.PartsOnce root) (h : t.Descends) :
    (t.preorder root).Nodup := by
  induction root using Nat.strongRecOn with
  | ind root ih =>
    by_cases hroot : root < t.size
    case neg =>
      rw [preorder_eq_nil (Nat.le_of_not_lt hroot)]
      exact List.nodup_nil
    have hstart : t.Below root root := ⟨hroot, .refl⟩
    rw [h.preorder_eq hroot, List.nodup_cons, List.nodup_flatMap]
    refine ⟨fun hm => ?_, fun part hpart => ?_, List.pairwise_iff_forall_sublist.mpr ?_⟩
    · -- What is at or below a part has a smaller number than the root.
      obtain ⟨part, hpart, hm⟩ := List.mem_flatMap.mp hm
      obtain ⟨c, rfl, hb⟩ := h.mem_preorderOf hm
      have hlt : c < root := h hpart hb.1
      exact Nat.not_le.mpr hlt (h.le_of_reflTransGen hb.2)
    · cases part with
      | none => exact List.nodup_nil
      | some c =>
        rw [preorderOf_some]
        by_cases hc : c < t.size
        · exact ih c (h hpart hc) (ho.below (hstart.tail ⟨hpart, hc⟩))
        · rw [preorder_eq_nil (Nat.le_of_not_lt hc)]
          exact List.nodup_nil
    · -- What two parts have in common is below one and the same part, which is then there twice.
      intro p q hpq x hx hy
      obtain ⟨c, rfl, hc⟩ := h.mem_preorderOf hx
      obtain ⟨d, rfl, hd⟩ := h.mem_preorderOf hy
      have hcp : t.IsPart root c := ⟨hpq.subset (by simp), hc.1⟩
      have hdp : t.IsPart root d := ⟨hpq.subset (by simp), hd.1⟩
      obtain rfl : c = d := ho.eq_of_reflTransGen h hroot hcp hdp hc.2 hd.2
      have htwice : 2 ≤ (t.children root).count (some c) := by
        simpa using hpq.count_le (some c)
      exact absurd (ho.count_le hstart hc.1) (Nat.not_le.mpr htwice)

/-- In a well-shaped tree it is enough that no node has a part twice. -/
theorem WellShaped.partsOnce (h : t.WellShaped)
    (hcount : ∀ i < t.size, ∀ c < t.size, (t.children i).count (some c) ≤ 1) :
    t.PartsOnce root where
  count_le {i c} _ hc := by
    by_cases hm : some c ∈ t.children i
    · exact hcount i (lt_size_of_part hm) c hc
    · rw [List.count_eq_zero.mpr hm]
      exact Nat.zero_le 1
  unique _ _ hi hj := h.part_unique hi.2 hi.1 hj.1

/-! ## The walk and the recursion -/

/-- If the parts that are there have smaller numbers than the nodes that hold them, the walk with a
    stack ends, from anywhere, and lists what the recursion over parts lists: a node, and then, part
    by part, what is listed for its parts. Parts that are missing or lead nowhere have nothing.

    - These are the nodes that can be reached.
    - If none of them is a part twice, each is listed once, and behind the node that it is a part
      of. -/
theorem Descends.preorder_walk (h : t.Descends) :
    (∀ part, ∃ enough, ∀ room, enough ≤ room →
      t.walk room [part] [] = some (t.preorderOf part)) ∧
    (∀ root, t.preorder root =
      if root < t.size then root :: (t.children root).flatMap t.preorderOf else []) ∧
    (∀ root i, i ∈ t.preorder root ↔ t.Below root i) ∧
    ∀ root, t.PartsOnce root →
      (t.preorder root).Nodup ∧
        ∀ i c, t.Below root i → t.IsPart i c → [i, c].Sublist (t.preorder root) := by
  refine ⟨fun part => ?_, fun root => ?_, fun root i => h.mem_preorder_iff, fun root ho =>
    ⟨ho.nodup_preorder h, fun i c hb hp => h.pair_sublist_preorder hb hp⟩⟩
  · obtain ⟨n, hn⟩ := h.exists_lists part
    refine ⟨n, fun room hroom => ?_⟩
    obtain ⟨left, rfl⟩ := Nat.exists_eq_add_of_le hroom
    have hrun : t.walk (n + left) [part] [] = t.walk left [] (t.preorderOf part) := hn left [] []
    rw [hrun, walk]
  · split
    · next hroot => exact h.preorder_eq hroot
    · next hroot => exact preorder_eq_nil (Nat.le_of_not_lt hroot)

end

/-- A block with an identifier, a part that is missing and one that leads nowhere, inside another
    block. -/
def gappedTree : Tree :=
  .ofNodes
    [(.identifier "x", .none),
      (.block [some 0, none, some 9], .none),
      (.block [none, some 1], .none)]

theorem preorder_walk_gappedTree :
    gappedTree.Descends ∧ gappedTree.PartsOnce 2 ∧ gappedTree.preorder 2 = [2, 1, 0] ∧
      (∃ enough, ∀ room, enough ≤ room → gappedTree.walk room [some 2] [] = some [2, 1, 0]) ∧
      (gappedTree.preorder 2).Nodup := by
  have hshape : gappedTree.WellShaped := (built_ofNodes _).wellShaped (by decide +kernel)
  have honce : gappedTree.PartsOnce 2 := hshape.partsOnce (by decide +kernel)
  have hlist : gappedTree.preorder 2 = [2, 1, 0] := by decide +kernel
  obtain ⟨hwalk, -, -, hnodup⟩ := Descends.preorder_walk hshape.descends
  refine ⟨hshape.descends, honce, hlist, ?_, (hnodup 2 honce).1⟩
  rw [← hlist, ← preorderOf_some]
  exact hwalk (some 2)

/-- A node that is a part twice is listed twice. -/
example :
    let t : Tree := .ofNodes [(.identifier "x", .none), (.block [some 0, some 0], .none)]
    t.preorder 1 = [1, 0, 0] ∧ t.walk 3 [some 1] [] = some [1, 0, 0] := by
  decide +kernel

end ScriptCheck.Tree
