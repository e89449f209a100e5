/-
  Members of closed sets by name.

  A closed set such as that of the operators lists its members with the names
  they are written with. Both directions, from a member to its name and back,
  read the same list.
-/

namespace ScriptCheck

/-- A closed set whose members are written with names. -/
class Named (α : Type) where
  /-- The members with their names. -/
  names : List (String × α)

/-- The name a member is written with. -/
def nameOf [Named α] [DecidableEq α] (a : α) : String :=
  (((Named.names : List (String × α)).find? (·.2 = a)).map Prod.fst).getD ""

/-- The member that is written with a name. -/
def ofName? [Named α] (name : String) : Option α :=
  (Named.names : List (String × α)).lookup name

/-- The names of those conditions that hold, in their order. -/
def namesOfSet (conditions : List (String × Bool)) : List String :=
  (conditions.filter Prod.snd).map Prod.fst

end ScriptCheck
