/-
  Types of library symbols.

  What a script declares is typed from its text. For the symbols of libraries
  the environment holds types and signatures instead.
-/
import ScriptCheck.Symbol.Basic
import ScriptCheck.Types.Signature

namespace ScriptCheck

/-- Types and signatures by symbol; the latest entry counts. -/
structure Environment where
  types : List (SymbolId × TypeId)
  signatures : List (SymbolId × Signature)
deriving Repr, Inhabited

namespace Environment

/-- The environment that knows nothing. -/
def empty : Environment := ⟨[], []⟩

/-- Gives a field or variable a type. -/
def setType (e : Environment) (symbol : SymbolId) (type : TypeId) : Environment :=
  { e with types := (symbol, type) :: e.types }

/-- The type of a field or variable. -/
def type? (e : Environment) (symbol : SymbolId) : Option TypeId := e.types.lookup symbol

/-- Gives a method a signature. -/
def setSignature (e : Environment) (symbol : SymbolId) (signature : Signature) : Environment :=
  { e with signatures := (symbol, signature) :: e.signatures }

/-- The signature of a method. -/
def signature? (e : Environment) (symbol : SymbolId) : Option Signature :=
  e.signatures.lookup symbol

@[simp] theorem type?_setType_self (e : Environment) (symbol : SymbolId) (type : TypeId) :
    (e.setType symbol type).type? symbol = some type := by
  unfold setType type?
  exact List.lookup_cons_self

@[simp] theorem type?_setType_of_ne (e : Environment) {symbol other : SymbolId}
    (h : other ≠ symbol) (type : TypeId) :
    (e.setType symbol type).type? other = e.type? other := by
  unfold setType type?
  rw [List.lookup_cons, beq_false_of_ne h]

@[simp] theorem signature?_setSignature_self (e : Environment) (symbol : SymbolId)
    (signature : Signature) :
    (e.setSignature symbol signature).signature? symbol = some signature := by
  unfold setSignature signature?
  exact List.lookup_cons_self

@[simp] theorem signature?_setSignature_of_ne (e : Environment) {symbol other : SymbolId}
    (h : other ≠ symbol) (signature : Signature) :
    (e.setSignature symbol signature).signature? other = e.signature? other := by
  unfold setSignature signature?
  rw [List.lookup_cons, beq_false_of_ne h]

end Environment

end ScriptCheck
