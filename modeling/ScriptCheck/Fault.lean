/-
  Faults.

  A fault is a failure of a rule, not of the script: the tree or the answers of
  the host do not fit together, or the host broke off. Faults never become
  diagnostics.
-/
import ScriptCheck.Syntax.Form

namespace ScriptCheck

/-- How a computation of the host broke off. -/
inductive Panic
  /-- With a message. -/
  | message (text : String)
  /-- With something that is no text. -/
  | silent
deriving DecidableEq, Repr, Inhabited

/-- What is said about a broken-off computation. -/
def Panic.text : Panic → String
  | message text => text
  | silent => "non-string panic payload"

/-- A failure of a rule. -/
inductive Fault
  /-- A node does not hold what its kind needs. -/
  | malformedNode (node : Part) (kind : Kind)
  /-- A call has no argument list that a diagnostic could stand at. -/
  | missingArguments (reference : Part)
  /-- The host broke off while a rule ran on a node. -/
  | panicked (node : Part) (message : String)
deriving DecidableEq, Repr, Inhabited

namespace Fault

/-- The fault of a rule on a node during which the host broke off. -/
def ofPanic (node : Part) (p : Panic) : Fault := panicked node p.text

/-- The node that a fault is about. -/
def node : Fault → Part
  | malformedNode node _ | panicked node _ => node
  | missingArguments reference => reference

/-- What a fault says. -/
def text : Fault → String
  | malformedNode node kind =>
    "node " ++ toString (Part.number node) ++ " has no data for kind " ++ kind.name
  | missingArguments reference =>
    "call through reference " ++ toString (Part.number reference) ++ " has no argument list"
  | panicked node message =>
    "rule panicked on node " ++ toString (Part.number node) ++ ": " ++ message

end Fault

end ScriptCheck
