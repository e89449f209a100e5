/-
  Which overload a call means.

  The methods of a name in the lineage of a type are its overloads. A call means
  the first one that accepts the number of its arguments, or, if there is none,
  the first one at all: `exists_split_of_findMember` says where the chosen
  overload stands among the others.
-/
import ScriptCheck.Proofs.Script.Scopes

namespace ScriptCheck.Script

/-- The methods called `name` in the lineage of a type, in the order in which a search at `depth`
    comes to them. -/
def overloads (s : Script) (type : SymbolId) (name : String) (depth : Nat) : List SymbolId :=
  s.methods (s.levelAt (depth + 1)).supertypes type name

section

variable {s : Script} {type id : SymbolId} {name : String} {depth count : Nat}

/-- The search for a member ends below the limit, and within it sees the supertypes that are known
    one level further down. -/
theorem findMember_eq (s : Script) (type : SymbolId) (name : String) (count : Option Nat)
    (depth : Nat) :
    s.findMember type name count depth =
      if depth ≤ qualifierLimit then
        s.memberWith (s.levelAt (depth + 1)).supertypes type name count
      else none := by
  unfold findMember levelAt
  split
  · next hd => rw [Nat.succ_sub hd, Nat.add_sub_add_right, level, levelAbove]
  · next hd => rw [Nat.sub_eq_zero_of_le (Nat.lt_of_not_le hd), level]

/-- Overloads are the methods of that name that the types of the lineage declare. -/
theorem mem_overloads_iff : id ∈ s.overloads type name depth ↔
    ∃ owner ∈ lineage (s.levelAt (depth + 1)).supertypes type,
      id ∈ s.symbols.membersNamed owner name ∧
        ∃ symbol, s.symbols.get? id = some symbol ∧ symbol.kind = .method := by
  unfold overloads methods inherited
  simp only [List.mem_flatMap, List.mem_filter, Option.any_eq_true, List.contains_iff_mem,
    List.mem_singleton]

/-- What is chosen is the first that accepts the number of arguments, or the first at all. -/
theorem exists_split_of_pickOverload {candidates : List SymbolId}
    (h : s.pickOverload candidates (some count) = some id) :
    ∃ before after, candidates = before ++ id :: after ∧
      (∀ other ∈ before, s.symbols.accepts other count = false) ∧
      (s.symbols.accepts id count = false →
        ∀ other ∈ candidates, s.symbols.accepts other count = false) := by
  unfold pickOverload at h
  rw [Option.bind_some] at h
  rcases eq_some_of_orElse h with hfound | ⟨hnone, hfirst⟩
  · obtain ⟨haccepts, before, after, heq, hbefore⟩ := List.find?_eq_some_iff_append.mp hfound
    refine ⟨before, after, heq, fun other hm => ?_, fun hno => ?_⟩
    · simpa using hbefore other hm
    · rw [haccepts] at hno
      cases hno
  · obtain ⟨rest, heq⟩ := List.head?_eq_some_iff.mp hfirst
    refine ⟨[], rest, heq, nofun, fun _ other hm => ?_⟩
    simpa using List.find?_eq_none.mp hnone other hm

/-- A method that is found for a call stands among the overloads behind those only that do not
    accept the number of arguments. If it does not accept it itself, no overload does. -/
theorem exists_split_of_findMember (h : s.findMember type name (some count) depth = some id)
    (hmethod : s.HasKind [.method] id) :
    ∃ before after, s.overloads type name depth = before ++ id :: after ∧
      (∀ other ∈ before, s.symbols.accepts other count = false) ∧
      (s.symbols.accepts id count = false →
        ∀ other ∈ s.overloads type name depth, s.symbols.accepts other count = false) := by
  rw [findMember_eq] at h
  split at h
  case isFalse => cases h
  -- A field would not be a method.
  rcases eq_some_of_orElse h with hpick | ⟨_, hfield⟩
  · exact exists_split_of_pickOverload hpick
  · have hkind : s.HasKind [.field, .type] id :=
      hasKind_of_mem_inherited (List.mem_of_mem_head? hfield)
    exact (hmethod.disjoint hkind (by decide)).elim

end

end ScriptCheck.Script
