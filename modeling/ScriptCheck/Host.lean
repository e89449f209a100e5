/-
  Hosts.

  The rules leave most questions to a host: what a reference stands for, what
  types things have, which repairs there are and how messages are worded. The
  host may number types while it answers, and it may break off.
-/
import ScriptCheck.Diagnostic.Basic
import ScriptCheck.Fault
import ScriptCheck.Resolution
import ScriptCheck.Types.Signature

namespace ScriptCheck

/-- A computation of the host: it may number types, and what it numbered stays even if it breaks
    off. -/
abbrev Check := ExceptT Panic (StateM Interner)

/-- Whom the rules ask. Where an answer is optional, nothing means that it is unknown. -/
structure Host where
  /-- What a reference stands for. -/
  resolve : NodeId → Check Resolution
  /-- What kind of symbol a resolved reference stands for. -/
  symbolKind : SymbolId → Check (Option SymbolKind)
  /-- The type of an expression, which may be missing. -/
  expressionType : Part → Check (Option TypeId)
  /-- The type of a field, parameter or local variable. -/
  declaredType : NodeId → Check (Option TypeId)
  /-- The signature of a method. -/
  signature : SymbolId → Check (Option Signature)
  /-- The types of the arguments that a reference is called with, if it is called. -/
  argumentTypes : NodeId → Check (Option (List (Option TypeId)))
  /-- The argument list that a reference is called with, where diagnostics about it stand. -/
  argumentsNode : NodeId → Check (Option Part)
  /-- The repairs for a reference that stands for nothing. -/
  importFixes : NodeId → Check (List Fix)
  /-- The text of a message. -/
  wording : Message → List String → Check String

namespace Host

/-- Answers from a search that reports symbols and, separately, whether they may be used. -/
def resolveRaw (find : NodeId → Check (Option SymbolId)) (mayUse : NodeId → SymbolId → Check Bool)
    (reference : NodeId) : Check Resolution := do
  Resolution.ofSearch (← find reference) (mayUse reference)

end Host

end ScriptCheck
