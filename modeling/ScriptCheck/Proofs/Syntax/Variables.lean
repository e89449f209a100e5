/-
  Local variables in the text.

  A variable is declared among the statements of a block or of a file, and is
  seen by what comes after it in there. `SeenFrom` says from where a variable is
  seen under its name: from inside its block or file, after its declaration, as
  long as no other variable of the name is declared in between.
-/
import Mathlib.Data.List.TakeWhile
import ScriptCheck.Proofs.Syntax.Nesting

namespace ScriptCheck

namespace Tree

/-- The statements of a block or of a file. -/
def statementsOf (t : Tree) (i : NodeId) : List Part :=
  match t.form? i with
  | some (.block statements) => statements
  | some (.sourceFile file) => file.statements
  | _ => []

/-- The statements of a block or file that stand before one of its parts; all of them if the part
    is no statement. -/
def statementsBefore (t : Tree) (scope part : NodeId) : List Part :=
  (t.statementsOf scope).takeWhile (· ≠ some part)

/-- Whether a node declares a local variable of the given name. -/
def declaresLocal (t : Tree) (name : String) (i : NodeId) : Bool :=
  t.isOneOf [.variableDeclaration] i && t.declaredName? i = some name

/-- The last declaration of a local variable of the given name among some statements. -/
def LastLocal (t : Tree) (name : String) (statements : List Part) (d : NodeId) : Prop :=
  ∃ before after, statements = before ++ some d :: after ∧ t.declaresLocal name d = true ∧
    ∀ i, some i ∈ after → t.declaresLocal name i = false

/-- The way up from a node to another one leads through the given nodes. -/
def PathTo (t : Tree) (i scope : NodeId) (inner : List NodeId) : Prop :=
  ∃ outer, t.ancestors i = inner ++ scope :: outer

/-- A block or file around a reference declares a variable `d` of the given name before the
    statement that the reference is in, and no other one in between. Inside a type, the variables
    of a file are not seen. -/
def SeenFrom (t : Tree) (reference : NodeId) (name : String) (scope d : NodeId) : Prop :=
  ∃ inner, t.PathTo reference scope inner ∧
    some (inner.getLastD reference) ∈ t.statementsOf scope ∧
    t.LastLocal name (t.statementsBefore scope (inner.getLastD reference)) d ∧
    (t.isOneOf [.sourceFile] scope = true → ∀ x ∈ inner, t.kind? x ≠ some .classBody)

/-- A reference in the package clause or the imports of a file sees the last variable `d` of the
    given name in the file. -/
def SeenFromHeader (t : Tree) (reference : NodeId) (name : String) (scope d : NodeId) : Prop :=
  ∃ inner file, t.PathTo reference scope inner ∧ t.form? scope = some (.sourceFile file) ∧
    (file.package = some (inner.getLastD reference) ∨
      some (inner.getLastD reference) ∈ file.imports) ∧
    t.LastLocal name file.statements d ∧ ∀ x ∈ inner, t.kind? x ≠ some .classBody

/-- The parameters of a method or closure. -/
def parameters (t : Tree) (i : NodeId) : List Part :=
  match t.form? i with
  | some (.method data) => data.parameters
  | some (.closure parameters _) => parameters
  | _ => []

/-- The part of a loop header that declares the variable of the loop. -/
def loopVariable (t : Tree) (clause : Part) : Part :=
  match clause.bind t.form? with
  | some (.forInClause iterated _) => iterated
  | some (.legacyForClause initial _ _) => initial
  | _ => none

/-- Whether a node is a plain name in value position. -/
def IsValueName (t : Tree) (i : NodeId) (name : String) : Prop :=
  ∃ data, t.form? i = some (.reference .value data) ∧ data.qualifier = none ∧
    data.name? = some name

section

variable {t : Tree} {name : String} {statements : List Part} {root i d scope : Nat}
  {inner outer : List NodeId}

theorem statementsOf_block (h : t.form? i = some (.block statements)) :
    t.statementsOf i = statements := by
  unfold statementsOf
  rw [h]

theorem statementsOf_file {file : SourceFile} (h : t.form? i = some (.sourceFile file)) :
    t.statementsOf i = file.statements := by
  unfold statementsOf
  rw [h]

/-- Where there is a variable of the name there is a last one. -/
theorem exists_lastLocal (h : ∃ i, some i ∈ statements ∧ t.declaresLocal name i = true) :
    ∃ d, t.LastLocal name statements d := by
  induction statements with
  | nil =>
    obtain ⟨_, hm, _⟩ := h
    cases hm
  | cons part rest ih =>
    -- A later variable wins over an earlier one.
    by_cases hrest : ∃ i, some i ∈ rest ∧ t.declaresLocal name i = true
    · obtain ⟨d, before, after, rfl, hd⟩ := ih hrest
      exact ⟨d, part :: before, after, rfl, hd⟩
    · obtain ⟨i, hm, hi⟩ := h
      rcases List.mem_cons.mp hm with rfl | hm
      · refine ⟨i, [], rest, rfl, hi, fun j hj => ?_⟩
        exact Bool.eq_false_iff.mpr fun hlocal => hrest ⟨j, hj, hlocal⟩
      · exact absurd ⟨i, hm, hi⟩ hrest

theorem LastLocal.mem (h : t.LastLocal name statements d) : some d ∈ statements := by
  obtain ⟨before, after, rfl, _⟩ := h
  exact List.mem_append_right _ List.mem_cons_self

theorem mem_statementsOf {part : NodeId} (h : some i ∈ t.statementsBefore scope part) :
    some i ∈ t.statementsOf scope :=
  (List.takeWhile_sublist _).subset h

/-- Statements are parts. -/
theorem mem_children_of_statementsOf (h : some i ∈ t.statementsOf scope) :
    some i ∈ t.children scope := by
  unfold statementsOf at h
  split at h
  · next hform => exact children_of_form? hform ▸ h
  · next hform => exact children_of_form? hform ▸ List.mem_append_right _ h
  · cases h

/-- A part that is no statement has all statements before it. -/
theorem statementsBefore_eq {part : NodeId} (h : some part ∉ t.statementsOf scope) :
    t.statementsBefore scope part = t.statementsOf scope := by
  unfold statementsBefore
  rw [List.takeWhile_eq_self_iff]
  intro statement hm
  refine decide_eq_true ?_
  rintro rfl
  exact h hm

/-- The parts of a block or file are its statements, unless they stand in the header of a file. -/
theorem mem_statementsOf_or_header {part : NodeId} (hm : some part ∈ t.children scope)
    (hscope : t.statementsOf scope ≠ []) :
    some part ∈ t.statementsOf scope ∨ ∃ file, t.form? scope = some (.sourceFile file) ∧
      (file.package = some part ∨ some part ∈ file.imports) := by
  unfold statementsOf at hscope ⊢
  split at hscope
  · next hform =>
    rw [hform]
    rw [children_of_form? hform] at hm
    exact Or.inl hm
  · next file hform =>
    rw [hform]
    rw [children_of_form? hform] at hm
    rcases List.mem_append.mp hm with hm | hm
    · refine Or.inr ⟨file, rfl, ?_⟩
      rcases List.mem_append.mp hm with hm | hm
      · left
        unfold Form.single at hm
        split at hm
        · next heq => exact heq.trans (List.mem_singleton.mp hm).symm
        · cases hm
      · exact Or.inr hm
    · exact Or.inl hm
  · exact absurd rfl hscope

/-- Parameters are parts of what has no statements. -/
theorem mem_children_of_parameters (h : some i ∈ t.parameters scope) :
    some i ∈ t.children scope ∧ t.statementsOf scope = [] := by
  unfold parameters at h
  unfold statementsOf
  split at h
  · next hform =>
    rw [children_of_form? hform, hform]
    refine ⟨List.mem_append_left _ (List.mem_append_right _ h), rfl⟩
  · next hform =>
    rw [children_of_form? hform, hform]
    exact ⟨List.mem_append_left _ h, rfl⟩
  · cases h

/-- So are loop variables. -/
theorem mem_children_of_loopVariable {clause : Part} (h : t.loopVariable clause = some i) :
    ∃ header, some i ∈ t.children header ∧ t.statementsOf header = [] := by
  unfold loopVariable at h
  cases clause with
  | none => cases h
  | some header =>
    refine ⟨header, ?_⟩
    rw [Option.bind_some] at h
    unfold statementsOf
    split at h
    · next hform =>
      rw [children_of_form? hform, hform, h]
      exact ⟨List.mem_append_left _ (List.mem_singleton_self _), rfl⟩
    · next hform =>
      rw [children_of_form? hform, hform, h]
      refine ⟨List.mem_append_left _ (List.mem_append_left _ (List.mem_singleton_self _)), rfl⟩
    · cases h

theorem lt_size_of_declaredName? (h : t.declaredName? i = some name) : i < t.size := by
  cases hform : t.form? i with
  | none =>
    unfold declaredName? at h
    rw [hform] at h
    cases h
  | some form => exact lt_size_of_form? hform

/-- What stands beside a statement that is reached is reached too. -/
theorem Reached.beside (ht : t.WellShaped) (hd : t.Reached root d)
    (hm : some d ∈ t.statementsOf scope) (hi : some i ∈ t.statementsOf scope)
    (hlt : i < t.size) : t.Reached root i := by
  -- The block of the statement is the file itself or was reached before.
  have hp : t.parent? d = some scope :=
    ht.parent?_eq_some_iff.mpr ⟨mem_children_of_statementsOf hm, hd.lt_size⟩
  rcases hd.parent? ht with hq | ⟨q, hq, hrq⟩
  · obtain rfl : scope = root := Option.some.inj (hp.symm.trans hq)
    obtain ⟨file, hfile⟩ := hd.exists_file
    exact .statement hfile (statementsOf_file hfile ▸ hi) hlt
  · obtain rfl : scope = q := Option.some.inj (hp.symm.trans hq)
    exact .part hrq (mem_children_of_statementsOf hi) hlt

/-! ## The way up -/

theorem climb_eq_cons {budget : Nat} {part : Part} (h : t.climb budget part = scope :: outer) :
    part = some scope ∧ ∃ n, t.climb n (t.parent? scope) = outer := by
  cases budget with
  | zero => cases h
  | succ budget =>
    cases part with
    | none => cases h
    | some p =>
      obtain ⟨rfl, hrest⟩ := List.cons.inj h
      exact ⟨rfl, budget, hrest⟩

/-- Where two trees agree on the parents of all nodes on the way up, the way up is the same. -/
theorem climb_congr {u : Tree} {budget : Nat} {part : Part}
    (h : ∀ i ∈ t.climb budget part, u.parent? i = t.parent? i) :
    u.climb budget part = t.climb budget part := by
  induction budget generalizing part with
  | zero => rfl
  | succ budget ih =>
    cases part with
    | none => rfl
    | some i =>
      rw [climb, climb, h i List.mem_cons_self]
      exact congrArg (i :: ·) (ih fun j hj => h j (List.mem_cons_of_mem _ hj))

/-- Each node of a way up is the parent of the one before it. -/
theorem parent?_getLastD {budget : Nat}
    (h : t.climb budget (t.parent? i) = inner ++ scope :: outer) :
    t.parent? (inner.getLastD i) = some scope := by
  induction inner generalizing i budget with
  | nil => exact (climb_eq_cons h).1
  | cons x inner ih =>
    obtain ⟨_, n, hrest⟩ := climb_eq_cons h
    rw [List.getLastD_cons]
    exact ih hrest

theorem PathTo.mem (h : t.PathTo i scope inner) : scope ∈ t.ancestors i := by
  obtain ⟨outer, h⟩ := h
  rw [h]
  exact List.mem_append_right _ List.mem_cons_self

theorem PathTo.parent? (h : t.PathTo i scope inner) :
    t.parent? (inner.getLastD i) = some scope := by
  obtain ⟨outer, h⟩ := h
  exact parent?_getLastD h

/-- All nodes of a way up are there. -/
theorem Built.lt_size_of_mem_ancestors (hb : t.Built) (h : scope ∈ t.ancestors i) :
    scope < t.size := by
  obtain ⟨inner, outer, hsplit⟩ := List.append_of_mem h
  have hpath : t.PathTo i scope inner := ⟨outer, hsplit⟩
  exact hb.parent_lt_size hpath.parent?

theorem WellShaped.isSome_kind?_of_mem_ancestors (ht : t.WellShaped) (h : scope ∈ t.ancestors i) :
    (t.kind? scope).isSome = true := by
  have hlt : scope < t.nodes.size := ht.built.lt_size_of_mem_ancestors h
  unfold kind? node?
  rw [Array.getElem?_eq_getElem hlt]
  rfl

end

end Tree

end ScriptCheck
