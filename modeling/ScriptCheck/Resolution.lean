/-
  Outcomes of resolving a reference.
-/
import ScriptCheck.Symbol.Basic

namespace ScriptCheck

/-- What a reference turns out to stand for. -/
inductive Resolution
  /-- A symbol that may be used at the place of the reference. -/
  | accessible (symbol : SymbolId)
  /-- A symbol that may not be used there. -/
  | inaccessible (symbol : SymbolId)
  /-- Nothing. -/
  | unresolved
deriving DecidableEq, Repr, Inhabited

namespace Resolution

/-- The outcome of a search; whether what was found may be used is asked only if there is one. -/
def ofSearch [Monad m] (found : Option SymbolId) (mayUse : SymbolId → m Bool) : m Resolution :=
  match found with
  | none => return unresolved
  | some symbol => return if ← mayUse symbol then accessible symbol else inaccessible symbol

/-- The symbol a reference stands for, whether or not it may be used. -/
def symbol? : Resolution → Option SymbolId
  | accessible symbol | inaccessible symbol => some symbol
  | unresolved => none

/-- Whether the reference stands for nothing. -/
def isUnresolved (r : Resolution) : Bool := r = unresolved

/-- The outcome of a search stands for what was found. -/
@[simp] theorem symbol?_ofSearch (found : Option SymbolId) (mayUse : SymbolId → Bool) :
    (Id.run (ofSearch found fun symbol => pure (mayUse symbol))).symbol? = found := by
  cases found with
  | none => rfl
  | some symbol =>
    change (if mayUse symbol then accessible symbol else inaccessible symbol).symbol? = some symbol
    cases mayUse symbol <;> rfl

theorem isUnresolved_iff {r : Resolution} : r.isUnresolved = true ↔ r.symbol? = none := by
  cases r <;> simp [isUnresolved, symbol?]

end Resolution

end ScriptCheck
