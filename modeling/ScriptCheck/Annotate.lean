/-
  Annotation.

  Annotating a node runs its rule and reports what the rule says. A rule that
  ends with a fault reports nothing, and with isolation neither does one during
  which the host breaks off; without it, annotation breaks off as well.
-/
import ScriptCheck.Diagnostic.Collector
import ScriptCheck.Rule

namespace ScriptCheck.Checker

/-- The rule of a node, where the host's breaking off counts as a fault. -/
def checkIsolated (c : Checker) (i : NodeId) : Check (Except Fault (Option Diagnostic)) :=
  tryCatch (c.check i).run fun p => pure (.error (.ofPanic (some i) p))

/-- How the rule of a node ends. -/
def outcome (c : Checker) (i : NodeId) : Check (Except Fault (Option Diagnostic)) :=
  if c.isolate then c.checkIsolated i else (c.check i).run

/-- What a rule that ended reports: a fault is not reported. -/
def reported : Except Fault (Option Diagnostic) → Collector
  | .ok found => ⟨found.toList⟩
  | .error _ => .empty

/-- Adds to a collector what the rule of a node says. -/
def annotate (c : Checker) (i : NodeId) (sink : Collector) : Check Collector := do
  return ((reported (← c.outcome i)).forward sink).2

/-- Adds to a collector what the rules of a node and the nodes below it say. -/
def annotateTree (c : Checker) (root : NodeId) (sink : Collector) : Check Collector :=
  (c.tree.preorder root).foldlM (fun sink i => c.annotate i sink) sink

/-- What the rules of a node and the nodes below it say. -/
def collectTree (c : Checker) (root : NodeId) : Check (List Diagnostic) := do
  return (← c.annotateTree root .empty).diagnostics

end ScriptCheck.Checker
