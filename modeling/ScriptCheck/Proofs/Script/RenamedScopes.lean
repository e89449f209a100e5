/-
  Searches for names after a renaming.

  The scopes around a name may lose a variable that gets another name, and gain
  one under its new name. Under any other name a search finds what it found, unless
  that was the variable (`SameUnless`): a scope that offers something else still
  does, and one that offered the variable may have an earlier one of that name.
  Under the new name no scope offers anything but the variable, so that a search
  finds it wherever one scope on the way has it.
-/
import ScriptCheck.Proofs.Script.Offers
import ScriptCheck.Proofs.Script.Renaming

namespace ScriptCheck.Script

section

variable {s s' : Script} {chosen : NodeId → Bool} {name asked : String} {d child scope : NodeId}
  {inType : Bool} {ofType : SymbolId → Option SymbolId}
  {ofMethods : List SymbolId → Option SymbolId} {inScope member : MemberSearch}

/-! ## Other names -/

/-- A search through the scopes, one of which may have lost the variable. -/
theorem Renames.searchScopes (h : s.Renames s' chosen name d)
    {offer offer' : Bool → NodeId → NodeId → Option SymbolId}
    (hoffer : ∀ inType child scope,
      SameUnless z (offer inType child scope) (offer' inType child scope))
    (inType : Bool) (child : NodeId) (scopes : List NodeId) :
    SameUnless z (s.searchScopes offer inType child scopes)
      (s'.searchScopes offer' inType child scopes) := by
  induction scopes generalizing inType child with
  | nil => exact .refl none
  | cons scope outer ih =>
    rw [Script.searchScopes, Script.searchScopes, h.tree.kind?]
    cases s.tree.kind? scope with
    | none => exact .refl none
    | some kind => exact (hoffer inType child scope).orElse (ih _ scope)

/-- A declaration other than that of the variable is found as before, and the variable is no longer
    found. -/
theorem Renames.sameUnless_symbolOf? (h : s.Renames s' chosen name d) {i : NodeId} {p p' : Prop}
    [Decidable p] [Decidable p'] (hother : i ≠ d → (p' ↔ p)) (hlost : i = d → ¬p') :
    SameUnless (s.symbolOf? d) (if p then s.symbolOf? i else none)
      (if p' then s'.symbolOf? i else none) := by
  rw [h.symbolOf?]
  by_cases hi : i = d
  · rw [if_neg (hlost hi), hi]
    split
    · cases hid : s.symbolOf? d with
      | none => exact .refl none
      | some id => exact Or.inr ⟨id, rfl, rfl⟩
    · exact .refl none
  · simp only [hother hi]
    exact .refl _

theorem Renames.declaredBefore? (h : s.Renames s' chosen name d) (hasked : asked ≠ name)
    (statements : List Part) (child : NodeId) :
    SameUnless (s.symbolOf? d) (s.declaredBefore? statements child asked)
      (s'.declaredBefore? statements child asked) := by
  rw [declaredBefore?_eq, declaredBefore?_eq]
  refine .findSome? fun part _ => ?_
  cases part with
  | none => exact .refl none
  | some i =>
    refine h.sameUnless_symbolOf? (fun hi => ?_) fun hi => ?_
    · unfold Tree.declaresLocal
      rw [h.tree.isOneOf, h.tree.declaredName?, if_neg hi]
    · unfold Tree.declaresLocal
      rw [h.tree.declaredName?, if_pos hi]
      cases s.tree.declaredName? i <;> simp [Ne.symm hasked]

theorem Renames.declares? (h : s.Renames s' chosen name d) (hasked : asked ≠ name) (part : Part) :
    SameUnless (s.symbolOf? d) (s.declares? asked part) (s'.declares? asked part) := by
  cases part with
  | none => exact .refl none
  | some i =>
    refine h.sameUnless_symbolOf? (fun hi => ?_) fun hi => ?_
    · rw [h.tree.declaredName?, if_neg hi]
    · rw [h.tree.declaredName?, if_pos hi]
      cases s.tree.declaredName? i <;> simp [Ne.symm hasked]

theorem Renames.parameter? (h : s.Renames s' chosen name d) (hasked : asked ≠ name)
    (parameters : List Part) :
    SameUnless (s.symbolOf? d) (s.parameter? parameters asked) (s'.parameter? parameters asked) :=
  .findSome? fun part _ => h.declares? hasked part

/-- Methods keep their names. -/
theorem Renames.scriptMethods (h : s.Renames s' chosen name d) (statements : List Part) :
    s'.scriptMethods statements asked = s.scriptMethods statements asked := by
  unfold Script.scriptMethods
  refine List.filterMap_congr fun part _ => ?_
  cases part with
  | none => rfl
  | some i =>
    dsimp only [Option.bind_eq_bind, Option.bind_some]
    rw [h.tree.isOneOf]
    by_cases hi : i = d
    · have hkind : s.tree.isOneOf [.methodDeclaration] i = false := by
        unfold Tree.isOneOf
        rw [hi, h.tree.kind]
        rfl
      rw [hkind]
      rfl
    · unfold Script.declares?
      dsimp only [Option.bind_eq_bind, Option.bind_some]
      rw [h.tree.declaredName?, if_neg hi, h.symbolOf?]

/-- Under another name, a scope offers what it offered, unless that was the variable. -/
theorem Renames.offered? (h : s.Renames s' chosen name d) (hasked : asked ≠ name) (inType : Bool)
    (child scope : NodeId) :
    SameUnless (s.symbolOf? d) (s.offered? ofType ofMethods asked inType child scope)
      (s'.offered? ofType ofMethods asked inType child scope) := by
  unfold Script.offered?
  rw [h.tree.isOneOf, h.tree.parent?, h.symbolOf?]
  split
  · exact .refl _
  · have hi := h.tree.recalled scope
    generalize s.tree.form? scope = held, s'.tree.form? scope = now at hi
    cases hi with
    | identifier text => exact .refl none
    | reference role data => exact .refl none
    | same =>
      cases held with
      | none => exact .refl none
      | some form =>
        cases form with
        | block statements => exact h.declaredBefore? hasked statements child
        | method data => exact h.parameter? hasked data.parameters
        | closure parameters body =>
          dsimp only
          split
          · rw [h.binding]
            exact .refl _
          · exact h.parameter? hasked parameters
        | forStatement clause body =>
          dsimp only
          rw [loopVariable?_eq, loopVariable?_eq, h.tree.loopVariable]
          exact h.declares? hasked _
        | sourceFile file =>
          dsimp only
          split
          · exact .refl none
          · rw [h.scriptMethods]
            exact (h.declaredBefore? hasked file.statements child).orElse (.refl _)
        | _ => exact .refl none

theorem Renames.lookupValue (h : s.Renames s' chosen name d) (hasked : asked ≠ name)
    (reference : NodeId) (count : Option Nat) :
    SameUnless (s.symbolOf? d) (s.lookupValue inScope member reference asked count)
      (s'.lookupValue inScope member reference asked count) := by
  unfold Script.lookupValue
  rw [h.pickOverload, h.tree.ancestors, h.staticImport?]
  exact (h.searchScopes (h.offered? hasked) false reference _).orElse (.refl _)

/-! ## The new name -/

section

variable (h : s.Renames s' chosen name d) (hfree : ∀ i, s.tree.declaredName? i ≠ some name)

include h hfree

/-- Only the variable has the new name. -/
theorem Renames.eq_of_declaredName? {i : NodeId} (hi : s'.tree.declaredName? i = some name) :
    i = d := by
  rw [h.tree.declaredName?] at hi
  split at hi
  · next heq => exact heq
  · exact absurd hi (hfree i)

theorem Renames.symbolOf?_of_declaredBefore? {statements : List Part} {id : SymbolId}
    (hfound : s'.declaredBefore? statements child name = some id) : s.symbolOf? d = some id := by
  rw [declaredBefore?_eq] at hfound
  obtain ⟨part, _, hpart⟩ := List.exists_of_findSome?_eq_some hfound
  obtain ⟨i, rfl, hlocal, hid⟩ := declaredLocal?_eq_some_iff.mp hpart
  have hname := of_decide_eq_true (Bool.and_eq_true_iff.mp hlocal).2
  rw [← h.eq_of_declaredName? hfree hname, ← h.symbolOf?]
  exact hid

theorem Renames.symbolOf?_of_declares? {part : Part} {id : SymbolId}
    (hfound : s'.declares? name part = some id) : s.symbolOf? d = some id := by
  obtain ⟨i, _, hname, hid⟩ := declares?_eq_some_iff.mp hfound
  rw [← h.eq_of_declaredName? hfree hname, ← h.symbolOf?]
  exact hid

/-- No method has the new name. -/
theorem Renames.scriptMethods_name (statements : List Part) :
    s'.scriptMethods statements name = [] := by
  refine List.eq_nil_iff_forall_not_mem.mpr fun id hm => ?_
  obtain ⟨i, _, hkind, hname, _⟩ := exists_of_mem_scriptMethods hm
  rw [h.eq_of_declaredName? hfree hname, h.tree.isOneOf] at hkind
  unfold Tree.isOneOf at hkind
  rw [h.tree.kind] at hkind
  cases hkind

/-- Under the new name, a scope offers the variable or nothing, if there is no such member. -/
theorem Renames.symbolOf?_of_offered? (hit : name ≠ "it") (hofType : ∀ type, ofType type = none)
    (hofMethods : ofMethods [] = none) {id : SymbolId}
    (hoffer : s'.offered? ofType ofMethods name inType child scope = some id) :
    s.symbolOf? d = some id := by
  unfold Script.offered? at hoffer
  split at hoffer
  · obtain ⟨type, _, htype⟩ := Option.bind_eq_some_iff.mp hoffer
    rw [hofType] at htype
    cases htype
  · split at hoffer
    · exact h.symbolOf?_of_declaredBefore? hfree hoffer
    · obtain ⟨part, _, hpart⟩ := List.exists_of_findSome?_eq_some hoffer
      exact h.symbolOf?_of_declares? hfree hpart
    · split at hoffer
      · next hcond => exact absurd (of_decide_eq_true (Bool.and_eq_true_iff.mp hcond).2) hit
      · obtain ⟨part, _, hpart⟩ := List.exists_of_findSome?_eq_some hoffer
        exact h.symbolOf?_of_declares? hfree hpart
    · rw [loopVariable?_eq] at hoffer
      exact h.symbolOf?_of_declares? hfree hoffer
    · split at hoffer
      · cases hoffer
      · rw [h.scriptMethods_name hfree, hofMethods] at hoffer
        rcases eq_some_of_orElse hoffer with hlocal | ⟨_, hnone⟩
        · exact h.symbolOf?_of_declaredBefore? hfree hlocal
        · cases hnone
    · cases hoffer

/-- A block offers the variable under its new name to what comes after it. -/
theorem Renames.offered?_block (ht : s.tree.Built) {statements : List Part} {id : SymbolId}
    (hform : s.tree.form? scope = some (.block statements))
    (hbefore : some d ∈ s.tree.statementsBefore scope child)
    (hnamed : (s.tree.declaredName? d).isSome = true) (hid : s.symbolOf? d = some id) :
    s'.offered? ofType ofMethods name inType child scope = some id := by
  have hbody : s'.tree.isOneOf [.classBody] scope = false := by
    rw [h.tree.isOneOf]
    unfold Tree.isOneOf
    rw [ht.kind?_of_form? hform]
    rfl
  have hlocal : s'.declaredLocal? name (some d) = some id := by
    obtain ⟨old, hold⟩ := Option.isSome_iff_exists.mp hnamed
    refine declaredLocal?_eq_some_iff.mpr ⟨d, rfl, ?_, by rw [h.symbolOf?, hid]⟩
    unfold Tree.declaresLocal
    rw [h.tree.isOneOf, h.tree.declaredName?, if_pos rfl, hold]
    unfold Tree.isOneOf
    rw [h.tree.kind]
    simp
  unfold Script.offered?
  rw [hbody, h.tree.form?_eq hform nofun nofun]
  -- The variable is among the statements, so one is found, and no other has the new name.
  show s'.declaredBefore? statements child name = some id
  unfold Tree.statementsBefore at hbefore
  rw [Tree.statementsOf_block hform] at hbefore
  cases hfound : s'.declaredBefore? statements child name with
  | some other =>
    have hother := h.symbolOf?_of_declaredBefore? hfree hfound
    exact hother.symm.trans hid
  | none =>
    rw [declaredBefore?_eq, List.findSome?_eq_none_iff] at hfound
    rw [hfound _ (List.mem_reverse.mpr hbefore)] at hlocal
    cases hlocal

/-- From wherever the variable was seen in its block, its new name stands for it. -/
theorem Renames.lookupValue_name (ht : s.tree.WellShaped) (hit : name ≠ "it")
    {reference : NodeId} {count : Option Nat} (hmember : ∀ type, inScope type name count = none)
    {inner : List NodeId} {statements : List Part} {id : SymbolId}
    (hform : s.tree.form? scope = some (.block statements))
    (hpath : s.tree.PathTo reference scope inner)
    (hbefore : some d ∈ s.tree.statementsBefore scope (inner.getLastD reference))
    (hnamed : (s.tree.declaredName? d).isSome = true) (hid : s.symbolOf? d = some id) :
    s'.lookupValue inScope member reference name count = some id := by
  have hmethods : s'.pickOverload [] count = none := by
    cases count <;> rfl
  obtain ⟨outer, hsplit⟩ := hpath
  have hthere : ∀ x ∈ inner ++ [scope], (s'.tree.kind? x).isSome = true := by
    intro x hx
    rw [h.tree.kind?]
    refine ht.isSome_kind?_of_mem_ancestors (i := reference) ?_
    rw [hsplit, List.append_cons]
    exact List.mem_append_left _ hx
  have hsearch : s'.searchScopes
      (s'.offered? (inScope · name count) (s'.pickOverload · count) name) false reference
      (inner ++ scope :: outer) = some id := by
    -- What a scope further inside offers can only be the variable itself.
    refine searchScopes_append hthere ?_ ?_
    · intro before x after _ other hother
      have hd := h.symbolOf?_of_offered? hfree hit hmember hmethods hother
      exact Option.some.inj (hd.symm.trans hid)
    · exact h.offered?_block hfree ht.built hform hbefore hnamed hid
  unfold Script.lookupValue
  rw [h.tree.ancestors, hsplit, hsearch]
  rfl

end

end

end ScriptCheck.Script
