/-
  What the scopes around a name offer.

  `Offers` lists what a single scope can have for a name: the last variable
  before the place of the name, a parameter, a loop variable, a member of a type
  or a method of the file. What the search for a name gets from a scope is one of
  these (`offers_of_offered?`).
-/
import ScriptCheck.Proofs.Script.Scopes
import ScriptCheck.Proofs.Syntax.Variables

namespace ScriptCheck.Script

/-- What a name stands for directly inside the type that a body belongs to. -/
def offeredInType (s : Script) (name : String) (count : Option Nat) (body : NodeId) :
    Option SymbolId :=
  ((s.tree.parent? body).bind s.symbolOf?).bind fun type =>
    classScopeMember s.supertypesOf (s.findMember · · · 0) type name count

/-- A scope offers a symbol under a name to its part `child`: a variable before the part, a
    parameter, the parameter `it` that is not written, a loop variable, a member, or a method of
    the file. `inType` says whether a type body lies between. -/
inductive Offers (s : Script) (name : String) (count : Option Nat) (inType : Bool)
    (child scope : NodeId) (id : SymbolId) : Prop
  | localVariable {d : NodeId}
    (hlast : s.tree.LastLocal name (s.tree.statementsBefore scope child) d)
    (hid : s.symbolOf? d = some id)
    (hfile : s.tree.isOneOf [.sourceFile] scope = true → inType = false)
  | parameter {i : NodeId} (hm : some i ∈ s.tree.parameters scope)
    (hname : s.tree.declaredName? i = some name) (hid : s.symbolOf? i = some id)
  | it {body : Part} (hform : s.tree.form? scope = some (.closure [] body)) (hname : name = "it")
    (hid : s.binding.implicitOf? scope = some id)
  | loopVariable {clause body : Part} {i : NodeId}
    (hform : s.tree.form? scope = some (.forStatement clause body))
    (hi : s.tree.loopVariable clause = some i) (hname : s.tree.declaredName? i = some name)
    (hid : s.symbolOf? i = some id)
  | member (hbody : s.tree.isOneOf [.classBody] scope = true)
    (hid : s.offeredInType name count scope = some id)
  | method {file : SourceFile} {i : NodeId}
    (hform : s.tree.form? scope = some (.sourceFile file)) (hin : inType = false)
    (hm : some i ∈ file.statements) (hkind : s.tree.isOneOf [.methodDeclaration] i = true)
    (hname : s.tree.declaredName? i = some name) (hid : s.symbolOf? i = some id)

section

variable {s : Script} {name : String} {count : Option Nat} {inType : Bool} {child scope : NodeId}
  {id : SymbolId} {statements : List Part}

/-! ## What a scope offers -/

theorem declares?_eq_some_iff {part : Part} : s.declares? name part = some id ↔
    ∃ i, part = some i ∧ s.tree.declaredName? i = some name ∧ s.symbolOf? i = some id := by
  unfold declares?
  cases part with
  | none => exact iff_of_false nofun nofun
  | some i => simp

/-- The last value of a function on a list. -/
theorem findSome?_reverse_eq_some_iff {α : Type _} {β : Type _} {f : α → Option β} {l : List α}
    {y : β} : l.reverse.findSome? f = some y ↔
      ∃ before x after, l = before ++ x :: after ∧ f x = some y ∧ ∀ z ∈ after, f z = none := by
  rw [List.findSome?_eq_some_iff]
  constructor
  · rintro ⟨after, x, before, heq, hx, hnone⟩
    refine ⟨before.reverse, x, after.reverse, ?_, hx, fun z hz => hnone z (List.mem_reverse.mp hz)⟩
    rw [List.reverse_eq_iff.mp heq]
    simp
  · rintro ⟨before, x, after, rfl, hx, hnone⟩
    refine ⟨after.reverse, x, before.reverse, ?_, hx, fun z hz => hnone z (List.mem_reverse.mp hz)⟩
    simp

/-- The symbol of a part that declares a local variable of the given name. -/
def declaredLocal? (s : Script) (name : String) (part : Part) : Option SymbolId :=
  part.bind fun i => if s.tree.declaresLocal name i then s.symbolOf? i else none

theorem declaredLocal?_eq_some_iff {part : Part} : s.declaredLocal? name part = some id ↔
    ∃ i, part = some i ∧ s.tree.declaresLocal name i = true ∧ s.symbolOf? i = some id := by
  unfold declaredLocal?
  cases part with
  | none => exact iff_of_false nofun nofun
  | some i => simp

theorem declaredBefore?_eq (statements : List Part) (child : NodeId) (name : String) :
    s.declaredBefore? statements child name =
      (statements.takeWhile (· ≠ some child)).reverse.findSome? (s.declaredLocal? name) := rfl

/-- A search among statements finds the last variable before a part, if all variables have
    symbols. -/
theorem declaredBefore?_eq_some_iff
    (hall : ∀ i, some i ∈ statements → s.tree.declaresLocal name i = true →
      ∃ other, s.symbolOf? i = some other) :
    s.declaredBefore? statements child name = some id ↔
      ∃ d, s.tree.LastLocal name (statements.takeWhile (· ≠ some child)) d ∧
        s.symbolOf? d = some id := by
  rw [declaredBefore?_eq, findSome?_reverse_eq_some_iff]
  constructor
  · -- A later variable of the name would have a symbol and have been found.
    rintro ⟨before, part, after, hsplit, hpart, hnone⟩
    obtain ⟨d, rfl, hlocal, hid⟩ := declaredLocal?_eq_some_iff.mp hpart
    refine ⟨d, ⟨before, after, hsplit, hlocal, fun i hm => ?_⟩, hid⟩
    refine Bool.eq_false_iff.mpr fun hi => ?_
    have hm' : some i ∈ statements := by
      refine (List.takeWhile_sublist (· ≠ some child)).subset ?_
      rw [hsplit]
      exact List.mem_append_right _ (List.mem_cons_of_mem _ hm)
    obtain ⟨other, hother⟩ := hall i hm' hi
    have hfound := declaredLocal?_eq_some_iff.mpr ⟨i, rfl, hi, hother⟩
    rw [hnone _ hm] at hfound
    cases hfound
  · rintro ⟨d, ⟨before, after, hsplit, hlocal, hafter⟩, hid⟩
    refine ⟨before, some d, after, hsplit, declaredLocal?_eq_some_iff.mpr ⟨d, rfl, hlocal, hid⟩, ?_⟩
    intro part hm
    rw [Option.eq_none_iff_forall_ne_some]
    intro other hother
    obtain ⟨i, rfl, hi, _⟩ := declaredLocal?_eq_some_iff.mp hother
    rw [hafter i hm] at hi
    cases hi

/-- Where a block or file has a variable with a symbol, all its variables have symbols. -/
def Covered (s : Script) : Prop :=
  ∀ {scope d i : NodeId} {id : SymbolId} {name : String}, some d ∈ s.tree.statementsOf scope →
    s.symbolOf? d = some id → some i ∈ s.tree.statementsOf scope →
    s.tree.declaredName? i = some name → ∃ other, s.symbolOf? i = some other

theorem Covered.lastLocal (hc : s.Covered)
    (h : s.declaredBefore? (s.tree.statementsOf scope) child name = some id) :
    ∃ d, s.tree.LastLocal name (s.tree.statementsBefore scope child) d ∧
      s.symbolOf? d = some id := by
  have hsome := h
  rw [declaredBefore?_eq] at hsome
  obtain ⟨part, hm, hpart⟩ := List.exists_of_findSome?_eq_some hsome
  obtain ⟨d, rfl, _, hid⟩ := declaredLocal?_eq_some_iff.mp hpart
  have hd : some d ∈ s.tree.statementsOf scope := Tree.mem_statementsOf (List.mem_reverse.mp hm)
  refine (declaredBefore?_eq_some_iff fun i hi hlocal => ?_).mp h
  exact hc hd hid hi (of_decide_eq_true (Bool.and_eq_true_iff.mp hlocal).2)

theorem Offers.of_declaredBefore? (hc : s.Covered)
    (hfile : s.tree.isOneOf [.sourceFile] scope = true → inType = false)
    (h : s.declaredBefore? (s.tree.statementsOf scope) child name = some id) :
    s.Offers name count inType child scope id := by
  obtain ⟨d, hlast, hid⟩ := hc.lastLocal h
  exact .localVariable hlast hid hfile

theorem Offers.of_parameter? (h : s.parameter? (s.tree.parameters scope) name = some id) :
    s.Offers name count inType child scope id := by
  obtain ⟨part, hm, hpart⟩ := List.exists_of_findSome?_eq_some h
  obtain ⟨i, rfl, hname, hid⟩ := declares?_eq_some_iff.mp hpart
  exact .parameter hm hname hid

theorem loopVariable?_eq (clause : Part) :
    s.loopVariable? clause name = s.declares? name (s.tree.loopVariable clause) := by
  unfold loopVariable? Tree.loopVariable
  cases clause.bind s.tree.form? with
  | none => rfl
  | some form => cases form <;> rfl

theorem exists_of_mem_scriptMethods (h : id ∈ s.scriptMethods statements name) :
    ∃ i, some i ∈ statements ∧ s.tree.isOneOf [.methodDeclaration] i = true ∧
      s.tree.declaredName? i = some name ∧ s.symbolOf? i = some id := by
  obtain ⟨statement, hm, hs⟩ := List.mem_filterMap.mp h
  cases statement with
  | none => cases hs
  | some i =>
    dsimp only [Option.bind_eq_bind, Option.bind_some] at hs
    split at hs
    · next hkind =>
      obtain ⟨_, heq, hname, hid⟩ := declares?_eq_some_iff.mp hs
      obtain rfl := Option.some.inj heq
      exact ⟨i, hm, hkind, hname, hid⟩
    · cases hs

/-- What a scope gives is something it offers. -/
theorem offers_of_offered? (ht : s.tree.Built) (hc : s.Covered)
    (h : s.offered?
      (classScopeMember s.supertypesOf (s.findMember · · · 0) · name count)
      (s.pickOverload · count) name inType child scope = some id) :
    s.Offers name count inType child scope id := by
  unfold offered? at h
  split at h
  · next hbody => exact .member hbody h
  · split at h
    · next statements hform =>
      rw [← Tree.statementsOf_block hform] at h
      -- A block is no file, so it does not matter whether a type body lies between.
      refine .of_declaredBefore? hc (fun hk => ?_) h
      rw [Tree.isOneOf_singleton_iff, ht.kind?_of_form? hform] at hk
      cases hk
    · next data hform =>
      rw [show data.parameters = s.tree.parameters scope by unfold Tree.parameters; rw [hform]] at h
      exact .of_parameter? h
    · next parameters body hform =>
      split at h
      · next hit =>
        obtain ⟨hempty, hname⟩ := Bool.and_eq_true_iff.mp hit
        rw [List.isEmpty_iff.mp hempty] at hform
        exact .it hform (of_decide_eq_true hname) h
      · rw [show parameters = s.tree.parameters scope by unfold Tree.parameters; rw [hform]] at h
        exact .of_parameter? h
    · next clause body hform =>
      rw [loopVariable?_eq] at h
      obtain ⟨i, hi, hname, hid⟩ := declares?_eq_some_iff.mp h
      exact .loopVariable hform hi hname hid
    · next file hform =>
      split at h
      · cases h
      · next hin =>
        have hin : inType = false := Bool.eq_false_iff.mpr hin
        rcases eq_some_of_orElse h with h | ⟨_, h⟩
        · rw [← Tree.statementsOf_file hform] at h
          exact .of_declaredBefore? hc (fun _ => hin) h
        · obtain ⟨i, hm, hkind, hname, hid⟩ :=
            exists_of_mem_scriptMethods (mem_of_pickOverload h)
          exact .method hform hin hm hkind hname hid
    · cases h

end

end ScriptCheck.Script
