/-
  Indexes of symbols.

  An index files the numbers of symbols under keys. What is filed under one key
  stands in the order in which it was filed. The latest entry of a key holds
  all of it, so earlier entries of that key no longer count.
-/
import ScriptCheck.Symbol.Basic

namespace ScriptCheck

/-- Numbers of symbols by key; the latest entry of a key counts. -/
structure Index (κ : Type) where
  entries : List (κ × List SymbolId)
deriving Repr, Inhabited

namespace Index

variable {κ : Type} [DecidableEq κ]

/-- The index in which nothing is filed. -/
def empty : Index κ := ⟨[]⟩

/-- What is filed under a key, the earliest first. -/
def under (index : Index κ) (key : κ) : List SymbolId := (index.entries.lookup key).getD []

/-- Files a number under a key, behind what is there. -/
def file (index : Index κ) (key : κ) (id : SymbolId) : Index κ :=
  ⟨(key, index.under key ++ [id]) :: index.entries⟩

@[simp] theorem under_empty (key : κ) : (empty : Index κ).under key = [] := rfl

@[simp] theorem under_file_self (index : Index κ) (key : κ) (id : SymbolId) :
    (index.file key id).under key = index.under key ++ [id] := by
  unfold file under
  rw [List.lookup_cons_self]
  rfl

/-- Filing under one key leaves the others alone. -/
@[simp] theorem under_file_of_ne (index : Index κ) {key other : κ} (h : other ≠ key)
    (id : SymbolId) : (index.file key id).under other = index.under other := by
  unfold file under
  rw [List.lookup_cons, beq_false_of_ne h]

end Index

end ScriptCheck
