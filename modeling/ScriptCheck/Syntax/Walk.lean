/-
  Walks through syntax trees.

  Upward walks follow parent links and end after a fixed number of steps, since
  links can lead in a circle. Downward walks follow children; on a tree in
  which no node lies below itself a path visits every node once at most, so the
  number of nodes bounds its length.
-/
import ScriptCheck.Limits
import ScriptCheck.Syntax.Tree

namespace ScriptCheck.Tree

/-- The first `budget` nodes of the way up that begins at `part`. -/
def climb (t : Tree) : Nat → Part → List NodeId
  | 0, _ => []
  | _ + 1, none => []
  | budget + 1, some i => i :: climb t budget (t.parent? i)

/-- The nodes above a node, the nearest first. -/
def ancestors (t : Tree) (i : NodeId) : List NodeId := t.climb ancestorLimit (t.parent? i)

/-- Whether a node is there and of one of the given kinds. -/
def isOneOf (t : Tree) (kinds : List Kind) (i : NodeId) : Bool := (t.kind? i).any (kinds.contains ·)

/-- The nearest node above that is of one of the given kinds. -/
def ancestorOf? (t : Tree) (i : NodeId) (kinds : List Kind) : Option NodeId :=
  (t.ancestors i).find? (t.isOneOf kinds)

/-- The nodes at most `budget` levels deep below and including a node, parents first. -/
def preorderWithin (t : Tree) : Nat → NodeId → List NodeId
  | 0, _ => []
  | budget + 1, i =>
    if i < t.size then
      i :: (t.children i).flatMap fun child =>
        match child with
        | some c => preorderWithin t budget c
        | none => []
    else []

/-- The nodes below and including a node: each before its children, children in source order. -/
def preorder (t : Tree) (root : NodeId) : List NodeId := t.preorderWithin t.size root

/-! ## Bounds -/

theorem length_climb_le (t : Tree) (budget : Nat) (part : Part) :
    (t.climb budget part).length ≤ budget := by
  induction budget generalizing part with
  | zero => exact Nat.le_refl 0
  | succ budget ih =>
    cases part with
    | none => exact Nat.zero_le _
    | some i => exact Nat.succ_le_succ (ih (t.parent? i))

/-- However the parent links run, the way up ends. -/
theorem length_ancestors_le (t : Tree) (i : NodeId) : (t.ancestors i).length ≤ ancestorLimit :=
  t.length_climb_le ancestorLimit (t.parent? i)

/-- Below a node that is missing there is nothing. -/
theorem preorder_eq_nil {t : Tree} {root : NodeId} (h : t.size ≤ root) : t.preorder root = [] := by
  unfold preorder
  cases t.size with
  | zero => rfl
  | succ budget =>
    rw [preorderWithin, if_neg (Nat.not_lt.mpr h)]

end ScriptCheck.Tree
