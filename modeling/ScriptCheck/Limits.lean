/-
  Bounds of the upward and sideways walks.

  Trees and class hierarchies come from unfinished programs: a parent link may
  lead back to its own node, two classes may extend each other, a qualifier may
  contain itself. Every walk that follows such links is cut off by one of the
  numbers below, so it always ends.
-/

namespace ScriptCheck

/-- How many ancestors an upward walk through the tree visits at most. -/
def ancestorLimit : Nat := 512

/-- How many classes a walk through a hierarchy visits at most. -/
def hierarchyLimit : Nat := 256

/-- How deep qualified names are followed (`a.b.c`, each part one deeper). -/
def qualifierLimit : Nat := 64

end ScriptCheck
