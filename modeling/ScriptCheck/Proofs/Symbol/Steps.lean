/-
  The single steps by which tables of symbols grow.

  Each operation of a table comes to a few steps of four kinds: a package, a
  type or another symbol is added, or a symbol gets other supertypes. `Step`
  says what is known when one of them is made. An invariant that every step
  keeps holds wherever steps lead (`Steps.induct`), and so of every library
  (`Grown.induct`).
-/
import Mathlib.Logic.Relation
import ScriptCheck.Proofs.Symbol.Growth

namespace ScriptCheck.SymbolTable

/-- A package lies in the one that its name says, and in none if the name has no dots. -/
structure Enclosed (t : SymbolTable) (new : Symbol) : Prop where
  inside : ∀ outer last, '.' ∉ last.toList → new.qualifiedName = outer ++ "." ++ last →
    ∃ p, t.package? outer = some p ∧ new.owner = some p
  outermost : '.' ∉ new.qualifiedName.toList → new.owner = none

/-- The single steps by which tables grow. -/
inductive Step (t : SymbolTable) : SymbolTable → Prop
  | plain {new : Symbol} (hk : new.kind ≠ .type ∧ new.kind ≠ .package) : Step t (t.push new).1
  | package {new : Symbol} (hk : new.kind = .package)
    (hnew : t.package? new.qualifiedName = none) (he : t.Enclosed new) :
    Step t (t.pushPackage new).1
  | type {new : Symbol} (hk : new.kind = .type) (hnew : t.type? new.qualifiedName = none)
    (hlast : '.' ∉ new.name.toList → Dotted.last new.qualifiedName = new.name) :
    Step t (t.pushType new).1
  | supertypes (id : SymbolId) (names : List String) : Step t (t.setSupertypes id names)

/-- What a run of steps leads to. -/
def Steps : SymbolTable → SymbolTable → Prop := Relation.ReflTransGen Step

section

variable {t u : SymbolTable}

/-! ## Operations are steps -/

/-- A package that was looked for is found afterwards. -/
theorem package?_ensurePackage (t : SymbolTable) (owner : Option SymbolId) (q : String) :
    (t.ensurePackage owner q).1.package? q = some (t.ensurePackage owner q).2 := by
  unfold ensurePackage
  split
  · next id h => exact h
  · exact List.lookup_cons_self

theorem steps_ensurePackage {owner : Option SymbolId} {q : String}
    (he : ∀ new : Symbol, new.qualifiedName = q → new.owner = owner → t.Enclosed new) :
    t.Steps (t.ensurePackage owner q).1 := by
  unfold ensurePackage
  split
  · exact .refl
  · next hnone => exact .single (.package rfl hnone (he _ rfl rfl))

/-- A package whose name has no dots lies in none. -/
theorem addPackage_of_not_mem (t : SymbolTable) {q : String} (h : '.' ∉ q.toList) :
    t.addPackage q = t.ensurePackage none q := by
  rw [addPackage_eq, Dotted.enclosing_eq_nil h]
  rfl

/-- Any other package lies in the package of the name before the last dot. -/
theorem addPackage_join (t : SymbolTable) (outer : String) {last : String}
    (h : '.' ∉ last.toList) :
    t.addPackage (outer ++ "." ++ last) =
      (t.addPackage outer).1.ensurePackage (some (t.addPackage outer).2)
        (outer ++ "." ++ last) := by
  rw [addPackage_eq, Dotted.enclosing_join outer h, List.foldl_append]
  rfl

theorem package?_addPackage (t : SymbolTable) (q : String) :
    (t.addPackage q).1.package? q = some (t.addPackage q).2 := by
  rw [addPackage_eq]
  exact package?_ensurePackage _ _ q

theorem steps_addPackage (t : SymbolTable) (q : String) : t.Steps (t.addPackage q).1 := by
  induction q using Dotted.induction with
  | plain q h =>
    rw [addPackage_of_not_mem t h]
    refine steps_ensurePackage fun new hq ho => ⟨fun outer last _ hjoin => ?_, fun _ => ho⟩
    rw [← hq, hjoin] at h
    exact absurd h (by simp)
  | join outer last h ih =>
    rw [addPackage_join t outer h]
    refine ih.trans (steps_ensurePackage fun new hq ho => ⟨fun outer' last' h' hjoin => ?_, ?_⟩)
    · obtain ⟨rfl, _⟩ := Dotted.join_inj h h' (hq.symm.trans hjoin)
      exact ⟨_, package?_addPackage t outer, ho⟩
    · intro hnone
      rw [hq] at hnone
      exact absurd hnone (by simp)

theorem steps_ensureType (t : SymbolTable) {name q : String}
    (hlast : '.' ∉ name.toList → Dotted.last q = name) (flags : SymbolFlags)
    (owner : Option SymbolId) (declaration : Part) :
    t.Steps (t.ensureType name q flags owner declaration).1 := by
  rcases ensureType_cases t name q flags owner declaration with ⟨id, _, h⟩ | ⟨hn, h⟩
  · rw [h]
    exact .refl
  · rw [h]
    exact .single (.type rfl hn hlast)

theorem steps_addType (t : SymbolTable) (q : String) (flags : SymbolFlags)
    (supertypes : List String) : t.Steps (t.addType q flags supertypes).1 := by
  have hpackage := steps_addPackage t ((Dotted.splitLast? q).getD ("", q)).1
  have hlast : Dotted.last q = ((Dotted.splitLast? q).getD ("", q)).2 :=
    Dotted.last_eq_snd_splitLast? q
  unfold addType
  exact (hpackage.trans (steps_ensureType _ (fun _ => hlast) _ _ _)).tail (.supertypes _ _)

/-- The name of a type inside another one ends in its own. -/
theorem last_inside (outer : Option Symbol) {name : String} (h : '.' ∉ name.toList) :
    Dotted.last (match outer with
      | some s => s.qualifiedName ++ "." ++ name
      | none => name) = name := by
  cases outer with
  | none => exact Dotted.last_of_not_mem h
  | some s => exact Dotted.last_join s.qualifiedName h

/-- Every library comes about step by step. -/
theorem Grown.steps (h : t.Grown) : empty.Steps t := by
  induction h with
  | start => exact .refl
  | package _ q ih => exact ih.trans (steps_addPackage _ q)
  | type _ q flags supertypes ih => exact ih.trans (steps_addType _ q flags supertypes)
  | nestedType _ outer name flags declaration ih =>
    unfold addNestedType
    exact ih.trans (steps_ensureType _ (last_inside _) _ _ _)
  | field _ owner name flags ih =>
    exact ih.tail (.plain (show SymbolKind.field ≠ .type ∧ SymbolKind.field ≠ .package by decide))
  | method _ owner name flags arity ih =>
    exact ih.tail
      (.plain (show SymbolKind.method ≠ .type ∧ SymbolKind.method ≠ .package by decide))

/-- What every step keeps holds wherever steps lead. -/
theorem Steps.induct {P : SymbolTable → Prop} (start : P t)
    (step : ∀ {t u}, P t → Step t u → P u) (h : t.Steps u) : P u := by
  induction h with
  | refl => exact start
  | tail _ hstep ih => exact step ih hstep

/-- What holds of the table without symbols and outlasts every step holds of every library. -/
theorem Grown.induct {P : SymbolTable → Prop} (start : P empty)
    (step : ∀ {t u}, P t → Step t u → P u) (h : t.Grown) : P t :=
  h.steps.induct start step

/-- Every step keeps a table consistent. -/
theorem Consistent.step (ht : t.Consistent) (hstep : Step t u) : u.Consistent := by
  cases hstep with
  | plain hk => exact ht.push_plain hk
  | @package new hk hnew he =>
    refine ht.pushPackage hk hnew fun owner ho => ?_
    -- Only a package inside another one has an owner, and that is the package around it.
    rcases Dotted.cases new.qualifiedName with hplain | ⟨outer, last, hlast, hq⟩
    · rw [he.outermost hplain] at ho
      cases ho
    · obtain ⟨p, hp, howner⟩ := he.inside outer last hlast hq
      obtain ⟨s, hs, hkind, _⟩ := ht.get?_of_package? hp
      obtain rfl : p = owner := Option.some.inj (howner.symm.trans ho)
      exact ⟨s, hs, hkind⟩
  | type hk hnew hlast => exact ht.pushType hk hnew
  | supertypes id names => exact ht.setSupertypes id names

/-- Every library table is consistent. -/
theorem Grown.consistent (h : t.Grown) : t.Consistent := h.induct consistent_empty Consistent.step

end

end ScriptCheck.SymbolTable
