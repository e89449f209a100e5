/-
  The nodes below a node, in order.

  `preorder` follows parts downwards with a budget, since a tree may contain
  itself. Where every part was added before the node that holds it, the budget
  is never used up, and `Descends.preorder_eq` is the recursion that defines the
  order: a node, then for each of its parts the nodes at or below that part.
-/
import Mathlib.Data.List.Basic
import ScriptCheck.Proofs.Syntax.Shape

namespace ScriptCheck.Tree

/-- Parts that are there have smaller numbers than the nodes that hold them. -/
def Descends (t : Tree) : Prop :=
  ∀ {i c : Nat}, some c ∈ t.children i → c < t.size → c < i

/-- The nodes at or below a part, if it is there. -/
def preorderOf (t : Tree) (part : Part) : List NodeId := part.toList.flatMap t.preorder

section

variable {t : Tree} {root : Nat}

theorem preorderOf_some (t : Tree) (i : NodeId) : t.preorderOf (some i) = t.preorder i :=
  List.append_nil _

theorem WellShaped.descends (h : t.WellShaped) : t.Descends := h.lt_of_part

theorem preorderWithin_eq_nil (budget : Nat) (h : t.size ≤ root) :
    t.preorderWithin budget root = [] := by
  cases budget with
  | zero => rfl
  | succ budget => rw [preorderWithin, if_neg (Nat.not_lt.mpr h)]

/-- Numbers fall on the way down, so a budget above the number of the node it starts from is as good
    as any other. -/
theorem Descends.preorderWithin_eq (h : t.Descends) {n m : Nat} (hn : root < n) (hm : root < m) :
    t.preorderWithin n root = t.preorderWithin m root := by
  induction n generalizing m root with
  | zero => exact absurd hn (Nat.not_lt_zero _)
  | succ n ih =>
    cases m with
    | zero => exact absurd hm (Nat.not_lt_zero _)
    | succ m =>
      rw [preorderWithin, preorderWithin]
      split
      · refine congrArg (root :: ·) (List.flatMap_congr fun part hpart => ?_)
        cases part with
        | none => rfl
        | some c =>
          by_cases hc : c < t.size
          · have hlt : c < root := h hpart hc
            exact ih (Nat.lt_of_lt_of_le hlt (Nat.le_of_lt_succ hn))
              (Nat.lt_of_lt_of_le hlt (Nat.le_of_lt_succ hm))
          · have hle : t.size ≤ c := Nat.le_of_not_lt hc
            exact (preorderWithin_eq_nil n hle).trans (preorderWithin_eq_nil m hle).symm
      · rfl

/-- A node comes first, and then, part by part, what is at or below its parts. -/
theorem Descends.preorder_eq (h : t.Descends) (hroot : root < t.size) :
    t.preorder root = root :: (t.children root).flatMap t.preorderOf := by
  have hstep : t.preorder root = t.preorderWithin (root + 1) root :=
    h.preorderWithin_eq hroot (Nat.lt_succ_self root)
  rw [hstep, preorderWithin, if_pos hroot]
  refine congrArg (root :: ·) (List.flatMap_congr fun part hpart => ?_)
  cases part with
  | none => rfl
  | some c =>
    rw [preorderOf_some]
    by_cases hc : c < t.size
    · exact h.preorderWithin_eq (h hpart hc) hc
    · have hle : t.size ≤ c := Nat.le_of_not_lt hc
      exact (preorderWithin_eq_nil root hle).trans (preorder_eq_nil hle).symm

end

end ScriptCheck.Tree
