/-
  The hierarchy of a script.

  The classes that a script can see enter the hierarchy one after the other,
  each with its direct supertypes. A supertype that derives from the class
  already would close a cycle and is left out.
-/
import ScriptCheck.Script.Access
import ScriptCheck.Types.Hierarchy
import ScriptCheck.Types.Interner

namespace ScriptCheck.Script

/-- Numbers a supertype, and keeps it unless it would close a cycle. -/
def keepParent (s : Script) (h : Hierarchy) (cls : TypeId)
    (state : List TypeId × Interner) (parent : SymbolId) : List TypeId × Interner :=
  match s.symbols.get? parent with
  | none => state
  | some symbol =>
    let (number, types) := state.2.named symbol.qualifiedName
    if h.closesCycle cls number then (state.1, types) else (state.1 ++ [number], types)

/-- Enters a class with its direct supertypes. -/
def registerClass (s : Script) (state : Hierarchy × Interner) (symbol : Symbol) :
    Hierarchy × Interner :=
  let (h, types) := state
  let (cls, types) := types.named symbol.qualifiedName
  let (parents, types) :=
    (s.supertypesOf symbol.id).foldl (s.keepParent h cls) ([], types)
  (h.addParents cls parents, types)

/-- Enters every class of the script into a hierarchy. -/
def registerHierarchy (s : Script) (h : Hierarchy) (types : Interner) : Hierarchy × Interner :=
  (s.symbols.symbols.toList.filter Symbol.isType).foldl s.registerClass (h, types)

end ScriptCheck.Script
