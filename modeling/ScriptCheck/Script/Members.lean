/-
  Members of types.

  A type inherits from its direct supertypes, from theirs, and so on. `lineage`
  lists them breadth first, each once, and gives up after a fixed number of
  steps, since hierarchies of unfinished programs can be circular. Members are
  those of the types in the lineage, in that order.

  What the direct supertypes are is an argument throughout: it depends on how
  deep the question is asked.
-/
import ScriptCheck.Script.Basic
import ScriptCheck.Text.Uppercase

namespace ScriptCheck

/-- The direct supertypes of types, as far as they can be seen. -/
abbrev Supertypes := SymbolId → List SymbolId

/-- Walks breadth first: takes `budget` types from the queue, and adds the supertypes of those
    that were not taken before. `taken` holds these, the last one first. -/
def walkLineage (supertypes : Supertypes) :
    Nat → List SymbolId → List SymbolId → List SymbolId
  | budget + 1, type :: queue, taken =>
    if taken.contains type then walkLineage supertypes budget queue taken
    else walkLineage supertypes budget (queue ++ supertypes type) (type :: taken)
  | _, _, taken => taken.reverse

/-- A type and what it inherits from, the nearest first. -/
def lineage (supertypes : Supertypes) (type : SymbolId) : List SymbolId :=
  walkLineage supertypes hierarchyLimit [type] []

/-! ### What a lineage holds -/

/-- What was taken stays taken. -/
theorem mem_walkLineage_of_mem_taken {supertypes : Supertypes} {budget : Nat}
    {queue taken : List SymbolId} {type : SymbolId} (h : type ∈ taken) :
    type ∈ walkLineage supertypes budget queue taken := by
  fun_induction walkLineage supertypes budget queue taken with
  | case1 _ _ _ _ _ ih => exact ih h
  | case2 _ _ _ _ _ ih => exact ih (List.mem_cons_of_mem _ h)
  | case3 => exact List.mem_reverse.mpr h

theorem nodup_walkLineage {supertypes : Supertypes} {budget : Nat} {queue taken : List SymbolId}
    (h : taken.Nodup) : (walkLineage supertypes budget queue taken).Nodup := by
  fun_induction walkLineage supertypes budget queue taken with
  | case1 _ _ _ _ _ ih => exact ih h
  | case2 _ _ _ _ hn ih =>
    refine ih (List.nodup_cons.mpr ⟨fun hm => hn ?_, h⟩)
    exact List.contains_iff_mem.mpr hm
  | case3 => exact (List.reverse_perm _).nodup_iff.mpr h

/-- Cycles and common supertypes list no type twice. -/
theorem nodup_lineage (supertypes : Supertypes) (type : SymbolId) :
    (lineage supertypes type).Nodup :=
  nodup_walkLineage List.nodup_nil

namespace Script

/-- What is called `name` in the lineage of a type and is of one of the given kinds. -/
def inherited (s : Script) (supertypes : Supertypes) (kinds : List SymbolKind)
    (type : SymbolId) (name : String) : List SymbolId :=
  (lineage supertypes type).flatMap fun t =>
    (s.symbols.membersNamed t name).filter fun m =>
      (s.symbols.get? m).any (kinds.contains ·.kind)

/-- The fields and nested types called `name`. -/
def fields (s : Script) (supertypes : Supertypes) : SymbolId → String → List SymbolId :=
  s.inherited supertypes [.field, .type]

/-- The methods called `name`. -/
def methods (s : Script) (supertypes : Supertypes) : SymbolId → String → List SymbolId :=
  s.inherited supertypes [.method]

/-- The first method that takes the arguments, if there are any to take, or else the first one. -/
def pickOverload (s : Script) (candidates : List SymbolId) (count : Option Nat) :
    Option SymbolId :=
  (count.bind fun n => candidates.find? (s.symbols.accepts · n)) <|> candidates.head?

/-- The method that reads the property `name`: `getName` or `isName`, called without arguments. -/
def accessor? (s : Script) (supertypes : Supertypes) (type : SymbolId) (name : String) :
    Option SymbolId :=
  if name = "" then none
  else
    let property := String.ofList (Uppercase.capitalize name.toList)
    ["get", "is"].findSome? fun verb =>
      (s.methods supertypes type (verb ++ property)).find? (s.symbols.accepts · 0)

/-- The member of a type that `name` means. A call prefers methods, and among them those that take
    its arguments; a plain use prefers fields, then a method that reads a property. -/
def memberWith (s : Script) (supertypes : Supertypes) (type : SymbolId) (name : String)
    (count : Option Nat) : Option SymbolId :=
  match count with
  | some _ =>
    s.pickOverload (s.methods supertypes type name) count <|>
      (s.fields supertypes type name).head?
  | none =>
    (s.fields supertypes type name).head? <|> s.accessor? supertypes type name <|>
      (s.methods supertypes type name).head?

end Script

end ScriptCheck
