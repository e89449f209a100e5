/-
  Runs of questions and rules.

  A computation of the host threads the numbering of types and may break off; a
  rule on top of it may end with a fault. `exec` runs either of them from a
  numbering, and there is an equation for each way of composing them. `Finds`
  traces what a rule finds back through these equations: a property of every
  diagnostic that some end of a rule makes holds of what the rule finds.
-/
import ScriptCheck.Session

namespace ScriptCheck

section

variable {α β : Type}

/-! ## Questions -/

namespace Check

/-- What a computation of the host comes to, and what is numbered then. -/
def exec (run : Check α) (types : Interner) : Except Panic α × Interner :=
  (StateT.run (ExceptT.run run) types).run

@[simp] theorem exec_pure (a : α) (types : Interner) :
    exec (pure a) types = (.ok a, types) := rfl

@[simp] theorem exec_throw (p : Panic) (types : Interner) :
    exec (throw p : Check α) types = (.error p, types) := rfl

@[simp] theorem exec_get (types : Interner) : exec (getThe Interner) types = (.ok types, types) :=
  rfl

/-- Nothing is computed after the host broke off. -/
theorem exec_bind (first : Check α) (next : α → Check β) (types : Interner) :
    exec (first >>= next) types =
      match exec first types with
      | (.ok a, types) => exec (next a) types
      | (.error p, types) => (.error p, types) := by
  unfold exec ExceptT.run StateT.run Id.run
  simp only [bind, ExceptT.bind, ExceptT.mk, StateT.bind, ExceptT.bindCont]
  cases first types with
  | mk result types => cases result <;> rfl

/-- A handler goes on from what was numbered when the host broke off. -/
theorem exec_tryCatch (run : Check α) (handler : Panic → Check α) (types : Interner) :
    exec (tryCatch run handler) types =
      match exec run types with
      | (.ok a, types) => (.ok a, types)
      | (.error p, types) => exec (handler p) types := by
  unfold exec ExceptT.run StateT.run Id.run
  simp only [tryCatch, tryCatchThe, MonadExceptOf.tryCatch, ExceptT.tryCatch, ExceptT.mk, bind,
    StateT.bind]
  cases run types with
  | mk result types => cases result <;> rfl

/-- The host of a script answers with what typing finds, and never breaks off. -/
theorem exec_answer (typing : Typing α) (unknown : α) (types : Interner) :
    exec (typing.answer unknown) types =
      match typing.run types with
      | some (answer, types) => (.ok answer, types)
      | none => (.ok unknown, types) := by
  unfold Typing.answer
  rw [exec_bind, exec_get]
  dsimp only
  cases typing.run types with
  | none => rfl
  | some result => rfl

/-- What is not the answer for lack of knowledge was found by typing. -/
theorem run_of_exec_answer {typing : Typing α} {unknown a : α} {types types' : Interner}
    (h : exec (typing.answer unknown) types = (.ok a, types')) (hne : a ≠ unknown) :
    typing.run types = some (a, types') := by
  rw [exec_answer] at h
  split at h
  · next hrun =>
    cases h
    exact hrun
  · cases h
    exact absurd rfl hne

end Check

/-! ## Rules -/

namespace Rule

/-- How a rule ends, if the host does not break off, and what is numbered then. -/
def exec (run : Rule α) (types : Interner) : Except Panic (Except Fault α) × Interner :=
  Check.exec (ExceptT.run run) types

@[simp] theorem exec_pure (a : α) (types : Interner) :
    exec (pure a) types = (.ok (.ok a), types) := rfl

@[simp] theorem exec_throw (f : Fault) (types : Interner) :
    exec (throw f : Rule α) types = (.ok (.error f), types) := rfl

/-- Nothing is done after a fault. -/
theorem exec_bind (first : Rule α) (next : α → Rule β) (types : Interner) :
    exec (first >>= next) types =
      match exec first types with
      | (.ok (.ok a), types) => exec (next a) types
      | (.ok (.error f), types) => (.ok (.error f), types)
      | (.error p, types) => (.error p, types) := by
  unfold exec
  rw [ExceptT.run_bind, Check.exec_bind]
  cases Check.exec (ExceptT.run first) types with
  | mk result types =>
    cases result with
    | error p => rfl
    | ok result => cases result <;> rfl

/-- A rule goes on with the answer to a question. -/
theorem exec_ask_bind (question : Check α) (next : α → Rule β) (types : Interner) :
    exec (ask question >>= next) types =
      match question.exec types with
      | (.ok a, types) => exec (next a) types
      | (.error p, types) => (.error p, types) := by
  have hask : exec (ask question) types =
      match question.exec types with
      | (.ok a, types) => (.ok (.ok a), types)
      | (.error p, types) => (.error p, types) := by
    unfold exec ask
    rw [ExceptT.run_lift, map_eq_pure_bind, Check.exec_bind]
    rfl
  rw [exec_bind, hask]
  cases question.exec types with
  | mk result types => cases result <;> rfl

/-- A rule that ends after a question got an answer to it. -/
theorem exists_answer_of_exec {question : Check α} {next : α → Rule β} {types types' : Interner}
    {result : Except Fault β} (h : exec (ask question >>= next) types = (.ok result, types')) :
    ∃ a middle, question.exec types = (.ok a, middle) ∧
      exec (next a) middle = (.ok result, types') := by
  rw [exec_ask_bind] at h
  split at h
  · next a middle hq => exact ⟨a, middle, hq, h⟩
  · cases h

/-! ### What rules find -/

/-- Every diagnostic that the rule finds, from whatever numbering, has the property. -/
def Finds (P : Diagnostic → Prop) (run : Rule (Option Diagnostic)) : Prop :=
  ∀ types types' d, exec run types = (.ok (.ok (some d)), types') → P d

variable {P : Diagnostic → Prop}

theorem finds_none : Finds P (pure none) := by
  intro types types' d h
  cases h

theorem finds_some {d : Diagnostic} (hd : P d) : Finds P (pure (some d)) := by
  intro types types' d' h
  cases h
  exact hd

theorem finds_throw (f : Fault) : Finds P (throw f) := by
  intro types types' d h
  cases h

/-- What a rule finds, it finds in its last step. -/
theorem finds_bind {first : Rule α} {next : α → Rule (Option Diagnostic)}
    (hnext : ∀ a, Finds P (next a)) : Finds P (first >>= next) := by
  intro types types' d h
  rw [exec_bind] at h
  split at h
  · exact hnext _ _ _ _ h
  · cases h
  · cases h

end Rule

end

/-! ## The ends of rules -/

namespace Checker

variable {α : Type} {c : Checker} {P : Diagnostic → Prop} {node : Part} {message : Message}
  {args : List String} {fixes : List Fix}

theorem finds_errorAt {highlight : Highlight}
    (h : ∀ text,
      P (.error (c.anchor node) ⟨message.code, message.key, args, text⟩ highlight fixes)) :
    Rule.Finds P (c.errorAt node message args highlight fixes) := by
  unfold errorAt rendered
  simp only [bind_assoc, pure_bind]
  exact Rule.finds_bind fun text => Rule.finds_some (h text)

theorem finds_warningAt
    (h : ∀ text, P (.warning (c.anchor node) ⟨message.code, message.key, args, text⟩ fixes)) :
    Rule.Finds P (c.warningAt node message args fixes) := by
  unfold warningAt rendered
  simp only [bind_assoc, pure_bind]
  exact Rule.finds_bind fun text => Rule.finds_some (h text)

/-- A rule that asks what is known about types goes on from what is numbered. -/
theorem exec_typeWorld_bind (c : Checker) (next : TypeWorld → Rule α) (types : Interner) :
    Rule.exec (c.typeWorld >>= next) types = Rule.exec (next ⟨types, c.hierarchy⟩) types := by
  unfold typeWorld
  rw [bind_assoc, Rule.exec_ask_bind, Check.exec_get]
  dsimp only
  rw [pure_bind]

/-! ## What each rule finds -/

/-- The property holds of everything that is said, but for what is said about calls. -/
structure Covers (c : Checker) (P : Diagnostic → Prop) : Prop where
  error : ∀ node message args highlight fixes, message ≠ .cannotApplyMethod →
    Rule.Finds P (c.errorAt node message args highlight fixes)
  warning : ∀ node message args fixes, message ≠ .cannotApplyMethod →
    Rule.Finds P (c.warningAt node message args fixes)

theorem Covers.finds_checkFits (h : c.Covers P) (target source : TypeId) (node : Part) :
    Rule.Finds P (c.checkFits target source node) := by
  refine Rule.finds_bind fun world => ?_
  split
  · exact Rule.finds_none
  · exact h.warning _ _ _ _ nofun

theorem Covers.finds_checkAssignment (h : c.Covers P) (left : Part) (operator : AssignOp)
    (right : Part) : Rule.Finds P (c.checkAssignment left operator right) := by
  unfold checkAssignment
  split
  · exact Rule.finds_none
  refine Rule.finds_bind fun target => ?_
  cases target with
  | none => exact Rule.finds_none
  | some target =>
    refine Rule.finds_bind fun source => ?_
    cases source with
    | none => exact Rule.finds_none
    | some source => exact h.finds_checkFits _ _ _

theorem Covers.finds_checkVariable (h : c.Covers P) (i : NodeId) (data : Variable) :
    Rule.Finds P (c.checkVariable i data) := by
  unfold checkVariable
  cases data.initial with
  | none => exact Rule.finds_none
  | some initial =>
    refine Rule.finds_bind fun source => ?_
    cases source with
    | none => exact Rule.finds_none
    | some source =>
      refine Rule.finds_bind fun target => ?_
      cases target with
      | none => exact Rule.finds_none
      | some target => exact h.finds_checkFits _ _ _

theorem Covers.finds_checkTypeDecl (h : c.Covers P) (i : NodeId) (data : TypeDecl) :
    Rule.Finds P (c.checkTypeDecl i data) := by
  unfold checkTypeDecl
  split
  · exact h.error _ _ _ _ _ nofun
  · exact Rule.finds_none

theorem Covers.finds_reportUnresolved (h : c.Covers P) (i : NodeId) (name : String) :
    Rule.Finds P (c.reportUnresolved i name) := by
  unfold reportUnresolved
  split
  · exact h.error _ _ _ _ _ nofun
  split
  · exact Rule.finds_bind fun fixes => h.warning _ _ _ _ nofun
  · exact Rule.finds_none

theorem Covers.finds_checkTypeReference (h : c.Covers P) (i : NodeId) (data : Reference) :
    Rule.Finds P (c.checkTypeReference i data) := by
  unfold checkTypeReference
  split
  · exact Rule.finds_none
  refine Rule.finds_bind fun resolution => ?_
  split
  · exact Rule.finds_bind fun fixes => h.error _ _ _ _ _ nofun
  · exact h.error _ _ _ _ _ nofun
  · exact Rule.finds_none

end Checker

end ScriptCheck
