/-
  What a lookup does with a reference.

  The lookup of a reference is a case distinction over what its node holds:
  `run_lookupVia_qualified` and the lemmas beside it have a case each, for any
  way of finding the types of values. A level looks names up without these. What
  stands in front of a dot is then a package or a type that a name finds.
-/
import ScriptCheck.Script.Level

namespace ScriptCheck.Script

variable {s : Script} {below : Level} {reference qualifier : NodeId} {data : Reference}
  {name : String} {role : ReferenceRole}

/-- What a symbol is in front of a dot; values are nothing as long as their types are not known. -/
def asQualifier (s : Script) (id : SymbolId) : Option Qualifier :=
  match s.symbols.get? id with
  | none => none
  | some symbol =>
    match symbol.kind with
    | .package => some (.package symbol.qualifiedName)
    | .type => some (.type id)
    | _ => none

/-- What the name in front of a dot stands for one level further down. -/
def qualifierBelow (s : Script) (below : Level) (qualifier : NodeId) : Option Qualifier :=
  if s.tree.isOneOf [.reference, .typeReference] qualifier then
    (below.lookup qualifier).bind s.asQualifier
  else none

theorem qualifierVia_names (s : Script) (below : Level) (qualifier : NodeId) :
    Id.run (s.qualifierVia (m := Id) (fun q => pure (below.lookup q)) (fun _ => pure none)
      qualifier) = s.qualifierBelow below qualifier := by
  unfold qualifierVia qualifierBelow asQualifier
  split
  · dsimp only
    rw [pure_bind]
    cases below.lookup qualifier with
    | none => rfl
    | some id =>
      dsimp only [Option.bind_some]
      cases s.symbols.get? id with
      | none => rfl
      | some symbol =>
        dsimp only
        cases symbol.kind <;> rfl
  · rfl

/-! ## One lemma for each kind of reference -/

section

variable {m : Type → Type} [Monad m] {inScope member : MemberSearch}
  {resolve receiver : NodeId → m (Option SymbolId)}

/-- Behind a dot: first what stands in front of it, then what the name means there. -/
theorem lookupVia_qualified (hform : s.tree.form? reference = some (.reference role data))
    (hname : data.name? = some name) (hq : data.qualifier = some qualifier) :
    s.lookupVia inScope member resolve receiver reference = do
      let found ← s.qualifierVia resolve receiver qualifier
      return found.bind (s.insideQualifier member name (s.argumentCount? reference)) := by
  unfold lookupVia
  rw [hform]
  dsimp only
  rw [hname]
  dsimp only
  rw [hq]

/-- A written type without a dot stands for a type or a package. -/
theorem lookupVia_type (hform : s.tree.form? reference = some (.reference .type data))
    (hname : data.name? = some name) (hq : data.qualifier = none) :
    s.lookupVia inScope member resolve receiver reference =
      pure (s.lookupType reference name) := by
  unfold lookupVia
  rw [hform]
  dsimp only
  rw [hname]
  dsimp only
  rw [hq]

/-- A value without a dot is looked for in the scopes first. -/
theorem lookupVia_value (hform : s.tree.form? reference = some (.reference .value data))
    (hname : data.name? = some name) (hq : data.qualifier = none) :
    s.lookupVia inScope member resolve receiver reference =
      pure (s.lookupValue inScope member reference name (s.argumentCount? reference) <|>
        s.lookupType reference name) := by
  unfold lookupVia
  rw [hform]
  dsimp only
  rw [hname]
  dsimp only
  rw [hq]

end

section

variable {inScope member : MemberSearch} {resolve receiver : NodeId → Id (Option SymbolId)}

/-- What is no reference stands for nothing. -/
theorem run_lookupVia_of_not_reference
    (h : ∀ role data, s.tree.form? reference ≠ some (.reference role data)) :
    Id.run (s.lookupVia inScope member resolve receiver reference) = none := by
  unfold lookupVia
  split
  · next role data hform => exact (h role data hform).elim
  · rfl

/-- An unfinished reference stands for nothing. -/
theorem run_lookupVia_unnamed (hform : s.tree.form? reference = some (.reference role data))
    (hname : data.name? = none) :
    Id.run (s.lookupVia inScope member resolve receiver reference) = none := by
  unfold lookupVia
  rw [hform]
  dsimp only
  rw [hname]
  rfl

/-- Behind a dot it does not matter whether a value or a type is written. -/
theorem run_lookupVia_qualified (hform : s.tree.form? reference = some (.reference role data))
    (hname : data.name? = some name) (hq : data.qualifier = some qualifier) :
    Id.run (s.lookupVia inScope member resolve receiver reference) =
      (Id.run (s.qualifierVia resolve receiver qualifier)).bind
        (s.insideQualifier member name (s.argumentCount? reference)) := by
  rw [lookupVia_qualified hform hname hq]
  rfl

theorem run_lookupVia_type (hform : s.tree.form? reference = some (.reference .type data))
    (hname : data.name? = some name) (hq : data.qualifier = none) :
    Id.run (s.lookupVia inScope member resolve receiver reference) =
      s.lookupType reference name := by
  rw [lookupVia_type hform hname hq]
  rfl

theorem run_lookupVia_value (hform : s.tree.form? reference = some (.reference .value data))
    (hname : data.name? = some name) (hq : data.qualifier = none) :
    Id.run (s.lookupVia inScope member resolve receiver reference) =
      (s.lookupValue inScope member reference name (s.argumentCount? reference) <|>
        s.lookupType reference name) := by
  rw [lookupVia_value hform hname hq]
  rfl

end

/-! ## By names alone -/

/-- An unfinished reference stands for nothing. -/
theorem lookup_levelAbove_unnamed (hform : s.tree.form? reference = some (.reference role data))
    (hname : data.name? = none) : (s.levelAbove below).lookup reference = none :=
  run_lookupVia_unnamed hform hname

theorem lookup_levelAbove_qualified (hform : s.tree.form? reference = some (.reference role data))
    (hname : data.name? = some name) (hq : data.qualifier = some qualifier) :
    (s.levelAbove below).lookup reference =
      (s.qualifierBelow below qualifier).bind
        (s.insideQualifier below.member name (s.argumentCount? reference)) := by
  rw [← qualifierVia_names]
  exact run_lookupVia_qualified hform hname hq

theorem lookup_levelAbove_type
    (hform : s.tree.form? reference = some (.reference .type data))
    (hname : data.name? = some name) (hq : data.qualifier = none) :
    (s.levelAbove below).lookup reference = s.lookupType reference name :=
  run_lookupVia_type hform hname hq

theorem lookup_levelAbove_value
    (hform : s.tree.form? reference = some (.reference .value data))
    (hname : data.name? = some name) (hq : data.qualifier = none) :
    (s.levelAbove below).lookup reference =
      (s.lookupValue (classScopeMember (s.levelAbove below).supertypes (s.levelAbove below).member)
          below.member reference name (s.argumentCount? reference) <|>
        s.lookupType reference name) :=
  run_lookupVia_value hform hname hq

/-- What is no reference stands for nothing. -/
theorem lookup_levelAbove_of_not_reference
    (h : ∀ role data, s.tree.form? reference ≠ some (.reference role data)) :
    (s.levelAbove below).lookup reference = none :=
  run_lookupVia_of_not_reference h

end ScriptCheck.Script
