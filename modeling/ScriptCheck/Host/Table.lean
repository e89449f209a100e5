/-
  Hosts that answer from tables.

  Such a host has been given its answers beforehand. What is not in a table is
  unknown. It can also be told to break off when it is asked a certain question
  about a certain node or symbol.
-/
import ScriptCheck.Host
import ScriptCheck.Message.Bundle

namespace ScriptCheck

/-- The questions at which a host can be told to break off. -/
inductive Question
  | resolve
  | accessible
  | expression
  | declared
  | signature
  | arguments
  | fixes
deriving DecidableEq, Repr

/-- What a table host knows about references. -/
inductive ReferenceTable
  /-- The outcome for each reference. -/
  | resolved (outcomes : List (NodeId × Resolution))
  /-- The symbol for each reference, and for each symbol whether it may be used. -/
  | raw (symbols : List (NodeId × SymbolId)) (usable : List (SymbolId × Bool))
deriving Repr

/-- The answers of a host, by node and by symbol. -/
structure HostTable where
  references : ReferenceTable
  symbolKinds : List (SymbolId × SymbolKind)
  expressions : List (NodeId × TypeId)
  declared : List (NodeId × TypeId)
  signatures : List (SymbolId × Signature)
  arguments : List (NodeId × List (Option TypeId))
  argumentNodes : List (NodeId × Part)
  fixes : List (NodeId × List Fix)
  /-- Where to break off: the question, the number it is about, and how. -/
  breaks : List ((Question × Nat) × Panic)

namespace HostTable

/-- Answers a question about a number, unless this is where to break off. -/
def reply (t : HostTable) (question : Question) (number : Nat) (answer : α) : Check α :=
  match t.breaks.lookup (question, number) with
  | some p => throw p
  | none => return answer

theorem reply_eq_pure {t : HostTable} {question : Question} {number : Nat}
    (h : t.breaks.lookup (question, number) = none) (answer : α) :
    t.reply question number answer = pure answer := by
  unfold reply
  rw [h]

/-- What a reference stands for. -/
def resolve (t : HostTable) (reference : NodeId) : Check Resolution :=
  match t.references with
  | .resolved outcomes =>
    t.reply .resolve reference ((outcomes.lookup reference).getD .unresolved)
  | .raw symbols usable =>
    Host.resolveRaw (fun i => t.reply .resolve i (symbols.lookup i))
      (fun i symbol => t.reply .accessible i ((usable.lookup symbol).getD false)) reference

/-- The host that answers from the tables. -/
def host (t : HostTable) (wording : Wording) : Host where
  resolve := t.resolve
  symbolKind symbol := return t.symbolKinds.lookup symbol
  expressionType i :=
    t.reply .expression (Part.number i) (t.expressions.lookup (Part.number i))
  declaredType i := t.reply .declared i (t.declared.lookup i)
  signature symbol := t.reply .signature symbol (t.signatures.lookup symbol)
  argumentTypes i := t.reply .arguments i (t.arguments.lookup i)
  argumentsNode i := return t.argumentNodes.lookup i
  importFixes i := t.reply .fixes i ((t.fixes.lookup i).getD [])
  wording message args := return wording message args

end HostTable

end ScriptCheck
