/-
  References behind a dot.

  A reference with a qualifier is looked up in two steps: what the qualifier
  stands for, and what the name means there. `lookupWithin_qualified` takes
  these steps apart for any way of finding the types of values, and
  `symbol?_resolveWith_of_type` says what is left if the qualifier stands for a
  type: a search for a member, one level down.
-/
import ScriptCheck.Proofs.Script.Levels
import ScriptCheck.Script.Access

namespace ScriptCheck.Script

/-- What the node in front of a dot stands for when a reference is resolved. -/
def qualifierOf? (s : Script) (receiver : NodeId → Id (Option SymbolId)) (qualifier : NodeId) :
    Option Qualifier :=
  Id.run (s.qualifierVia (s.lookupWithin receiver qualifierLimit) receiver qualifier)

section

variable {s : Script} {receiver : NodeId → Id (Option SymbolId)} {r qualifier : NodeId}
  {role : ReferenceRole} {data : Reference} {name : String} {id type : SymbolId}

/-- A reference resolves to what its lookup finds, whether or not it may be used. -/
theorem symbol?_resolveWith (s : Script) (receiver : NodeId → Id (Option SymbolId)) (r : NodeId) :
    (Id.run (s.resolveWith receiver r)).symbol? =
      Id.run (s.lookupWithin receiver (qualifierLimit + 1) r) :=
  Resolution.symbol?_ofSearch _ _

/-- What is found is judged by where it is used. -/
theorem resolveWith_of_symbol? (h : (Id.run (s.resolveWith receiver r)).symbol? = some id) :
    Id.run (s.resolveWith receiver r) =
      if s.isAccessible id r then .accessible id else .inaccessible id := by
  rw [symbol?_resolveWith] at h
  show Id.run (Resolution.ofSearch (Id.run (s.lookupWithin receiver (qualifierLimit + 1) r)) _) = _
  rw [h]
  rfl

section

variable (hform : s.tree.form? r = some (.reference role data)) (hname : data.name? = some name)
  (hq : data.qualifier = some qualifier)

include hform hname hq

/-- First what the qualifier stands for, then what the name means there. -/
theorem symbol?_resolveWith_qualified :
    (Id.run (s.resolveWith receiver r)).symbol? =
      (s.qualifierOf? receiver qualifier).bind
        (s.insideQualifier (s.levelAt 1).member name (s.argumentCount? r)) := by
  rw [symbol?_resolveWith, lookupWithin]
  exact run_lookupVia_qualified hform hname hq

/-- Behind a type a name means a member. -/
theorem symbol?_resolveWith_of_type
    (htype : s.qualifierOf? receiver qualifier = some (.type type)) :
    (Id.run (s.resolveWith receiver r)).symbol? =
      s.findMember type name (s.argumentCount? r) 1 := by
  rw [symbol?_resolveWith_qualified hform hname hq, htype]
  rfl

end

end

end ScriptCheck.Script
