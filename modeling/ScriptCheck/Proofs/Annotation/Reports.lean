/-
  What rules report.

  A rule asks the host one question after the other. `Reports` says when a run
  ends with a diagnostic, for each way of composing rules and then for each
  rule, in terms of the answers to its questions and of a finding: what is said,
  and where, before the host words it. `Ends` says that a run does end, which
  takes a host that answers every question.
-/
import ScriptCheck.Host.Table
import ScriptCheck.Proofs.Annotation.Runs
import ScriptCheck.Proofs.Syntax.Enclosing

namespace ScriptCheck

/-! ## Questions that are answered -/

namespace Check

variable {α β : Type}

/-- A question is answered, and what is numbered afterwards. -/
def Gives (question : Check α) (types : Interner) (answer : α) (types' : Interner) : Prop :=
  question.exec types = (.ok answer, types')

/-- A question is answered whenever it is asked. -/
def Returns (question : Check α) : Prop :=
  ∀ types, ∃ answer types', question.Gives types answer types'

theorem returns_pure (a : α) : (pure a : Check α).Returns := fun types => ⟨a, types, rfl⟩

theorem returns_bind {first : Check α} {next : α → Check β} (hfirst : first.Returns)
    (hnext : ∀ a, (next a).Returns) : (first >>= next).Returns := by
  intro types
  obtain ⟨a, types', ha⟩ := hfirst types
  obtain ⟨b, types'', hb⟩ := hnext a types'
  refine ⟨b, types'', ?_⟩
  unfold Gives
  rw [exec_bind, show first.exec types = _ from ha]
  exact hb

end Check

/-- A host that answers every question. -/
structure Host.Returns (h : Host) : Prop where
  resolve : ∀ i, (h.resolve i).Returns
  symbolKind : ∀ symbol, (h.symbolKind symbol).Returns
  expressionType : ∀ part, (h.expressionType part).Returns
  declaredType : ∀ i, (h.declaredType i).Returns
  signature : ∀ symbol, (h.signature symbol).Returns
  argumentTypes : ∀ i, (h.argumentTypes i).Returns
  argumentsNode : ∀ i, (h.argumentsNode i).Returns
  importFixes : ∀ i, (h.importFixes i).Returns
  wording : ∀ message args, (h.wording message args).Returns

/-- A host with tables answers every question if it is not told to break off. -/
theorem HostTable.returns_host {t : HostTable} (ht : t.breaks = []) (wording : Wording) :
    (t.host wording).Returns := by
  have hreply : ∀ {α : Type} (question : Question) (number : Nat) (answer : α),
      (t.reply question number answer).Returns := by
    intro α question number answer
    rw [reply_eq_pure (by rw [ht, List.lookup_nil])]
    exact Check.returns_pure answer
  refine ⟨fun i => ?_, fun _ => Check.returns_pure _, fun _ => hreply _ _ _, fun _ => hreply _ _ _,
    fun _ => hreply _ _ _, fun _ => hreply _ _ _, fun _ => Check.returns_pure _,
    fun _ => hreply _ _ _, fun _ _ => Check.returns_pure _⟩
  show (t.resolve i).Returns
  unfold resolve
  cases t.references with
  | resolved outcomes => exact hreply _ _ _
  | raw symbols usable =>
    refine Check.returns_bind (hreply _ _ _) fun found => ?_
    cases found with
    | none => exact Check.returns_pure _
    | some symbol =>
      exact Check.returns_bind (hreply _ _ _) fun mayUse => Check.returns_pure _

/-! ## Findings -/

/-- What is to be said at a place, before it is worded. -/
structure Finding where
  severity : Severity
  place : Part
  message : Message
  args : List String
  highlight : Highlight
  fixes : List Fix

namespace Checker

/-- A finding in the words of the host. -/
def Words (c : Checker) (f : Finding) (types : Interner) (d : Diagnostic) : Prop :=
  ∃ text types', (c.host.wording f.message f.args).Gives types text types' ∧
    d = ⟨f.severity, c.anchor f.place, ⟨f.message.code, f.message.key, f.args, text⟩, f.highlight,
      f.fixes⟩

end Checker

/-! ## What runs report -/

namespace Rule

variable {α : Type} {types : Interner} {d : Diagnostic}

/-- The run ends with a diagnostic. -/
def Reports (run : Rule (Option Diagnostic)) (types : Interner) (d : Diagnostic) : Prop :=
  ∃ types', run.exec types = (.ok (.ok (some d)), types')

theorem not_reports_none : ¬Reports (pure none) types d := by
  rintro ⟨_, h⟩
  cases h

theorem not_reports_throw (f : Fault) : ¬Reports (throw f) types d := by
  rintro ⟨_, h⟩
  cases h

theorem reports_some {d' : Diagnostic} : Reports (pure (some d')) types d ↔ d = d' := by
  constructor
  · rintro ⟨_, h⟩
    cases h
    rfl
  · rintro rfl
    exact ⟨types, rfl⟩

/-- After a question, a run goes on from the answer. -/
theorem reports_ask_bind {question : Check α} {next : α → Rule (Option Diagnostic)} :
    Reports (ask question >>= next) types d ↔
      ∃ answer types', question.Gives types answer types' ∧ Reports (next answer) types' d := by
  constructor
  · rintro ⟨last, h⟩
    obtain ⟨answer, types', hanswer, h⟩ := exists_answer_of_exec h
    exact ⟨answer, types', hanswer, last, h⟩
  · rintro ⟨answer, types', hanswer, last, h⟩
    refine ⟨last, ?_⟩
    rw [exec_ask_bind, show question.exec types = _ from hanswer]
    exact h

end Rule

namespace Checker

variable {c : Checker} {i : NodeId} {types : Interner} {d : Diagnostic}

theorem reports_typeWorld_bind {next : TypeWorld → Rule (Option Diagnostic)} :
    Rule.Reports (c.typeWorld >>= next) types d ↔
      Rule.Reports (next ⟨types, c.hierarchy⟩) types d := by
  unfold Rule.Reports
  rw [exec_typeWorld_bind]

theorem reports_errorAt (node : Part) (message : Message) (args : List String)
    (highlight : Highlight) (fixes : List Fix) :
    (c.errorAt node message args highlight fixes).Reports types d ↔
      c.Words ⟨.error, node, message, args, highlight, fixes⟩ types d := by
  unfold errorAt rendered
  simp only [bind_assoc, pure_bind]
  rw [Rule.reports_ask_bind]
  exact exists₂_congr fun text types' => and_congr_right fun _ => Rule.reports_some

theorem reports_warningAt (node : Part) (message : Message) (args : List String)
    (fixes : List Fix) :
    (c.warningAt node message args fixes).Reports types d ↔
      c.Words ⟨.warning, node, message, args, .generic, fixes⟩ types d := by
  unfold warningAt rendered
  simp only [bind_assoc, pure_bind]
  rw [Rule.reports_ask_bind]
  exact exists₂_congr fun text types' => and_congr_right fun _ => Rule.reports_some

/-! ## What rules report -/

theorem reports_checkFits {target source : TypeId} {node : Part} :
    (c.checkFits target source node).Reports types d ↔
      TypeWorld.isAssignable ⟨types, c.hierarchy⟩ target source = false ∧
        c.Words ⟨.warning, node, .cannotAssign, [types.text source, types.text target], .generic,
          []⟩ types d := by
  unfold checkFits
  rw [reports_typeWorld_bind]
  cases TypeWorld.isAssignable ⟨types, c.hierarchy⟩ target source with
  | true => exact iff_of_false Rule.not_reports_none nofun
  | false => exact (reports_warningAt _ _ _ _).trans (and_iff_right rfl).symm

theorem reports_checkAssignment {left right : Part} {operator : AssignOp} :
    (c.checkAssignment left operator right).Reports types d ↔
      operator = .assign ∧ ∃ target source types₁ types₂,
        (c.host.expressionType left).Gives types (some target) types₁ ∧
        (c.host.expressionType right).Gives types₁ (some source) types₂ ∧
        (c.checkFits target source right).Reports types₂ d := by
  unfold checkAssignment AssignOp.isSimple
  by_cases hop : operator = .assign
  · rw [if_neg (by simp [hop]), Rule.reports_ask_bind]
    constructor
    · rintro ⟨_ | target, types₁, hleft, h⟩
      · exact absurd h Rule.not_reports_none
      obtain ⟨_ | source, types₂, hright, h⟩ := Rule.reports_ask_bind.mp h
      · exact absurd h Rule.not_reports_none
      exact ⟨hop, target, source, types₁, types₂, hleft, hright, h⟩
    · rintro ⟨_, target, source, types₁, types₂, hleft, hright, h⟩
      exact ⟨_, _, hleft, Rule.reports_ask_bind.mpr ⟨_, _, hright, h⟩⟩
  · rw [if_pos (by simp [hop])]
    exact iff_of_false Rule.not_reports_none fun h => hop h.1

theorem reports_checkVariable {data : Variable} :
    (c.checkVariable i data).Reports types d ↔
      ∃ value target source types₁ types₂, data.initial = some value ∧
        (c.host.expressionType (some value)).Gives types (some source) types₁ ∧
        (c.host.declaredType i).Gives types₁ (some target) types₂ ∧
        (c.checkFits target source (some value)).Reports types₂ d := by
  unfold checkVariable
  cases data.initial with
  | none => exact iff_of_false Rule.not_reports_none (by simp)
  | some value =>
    dsimp only
    rw [Rule.reports_ask_bind]
    constructor
    · rintro ⟨_ | source, types₁, hsource, h⟩
      · exact absurd h Rule.not_reports_none
      obtain ⟨_ | target, types₂, htarget, h⟩ := Rule.reports_ask_bind.mp h
      · exact absurd h Rule.not_reports_none
      exact ⟨value, target, source, types₁, types₂, rfl, hsource, htarget, h⟩
    · rintro ⟨_, target, source, types₁, types₂, heq, hsource, htarget, h⟩
      obtain rfl := Option.some.inj heq
      exact ⟨_, _, hsource, Rule.reports_ask_bind.mpr ⟨_, _, htarget, h⟩⟩

/-- A node is right inside a node of a kind. -/
theorem any_isOneOf_iff {t : Tree} {part : Part} {k : Kind} :
    part.any (t.isOneOf [k]) = true ↔ ∃ p, part = some p ∧ t.kind? p = some k := by
  cases part with
  | none => exact iff_of_false nofun (by simp)
  | some p => simp [Tree.isOneOf_singleton_iff]

theorem reports_checkTypeDecl {data : TypeDecl} :
    (c.checkTypeDecl i data).Reports types d ↔
      ∃ body, c.tree.parent? i = some body ∧ c.tree.kind? body = some .classBody ∧
        c.Words
          ⟨.error, (data.name.filter (· < c.tree.size)).or (some i), .innerClass, [], .generic, []⟩
          types d := by
  unfold checkTypeDecl
  split
  · next hbody =>
    obtain ⟨body, hparent, hkind⟩ := any_isOneOf_iff.mp hbody
    rw [reports_errorAt]
    exact ⟨fun h => ⟨body, hparent, hkind, h⟩, fun ⟨_, _, _, h⟩ => h⟩
  · next hbody =>
    refine iff_of_false Rule.not_reports_none ?_
    rintro ⟨body, hparent, hkind, _⟩
    exact hbody (any_isOneOf_iff.mpr ⟨body, hparent, hkind⟩)

/-- The place of a name is the name if it is there, and else the node that it names. -/
theorem namePlace_cases (t : Tree) (name : Part) (i : NodeId) :
    (∃ n, name = some n ∧ n < t.size ∧ (name.filter (· < t.size)).or (some i) = some n) ∨
      ((∀ n, name = some n → t.size ≤ n) ∧
        (name.filter (· < t.size)).or (some i) = some i) := by
  cases name with
  | none => exact Or.inr ⟨nofun, rfl⟩
  | some n =>
    rw [Option.filter_some]
    by_cases hn : n < t.size
    · rw [if_pos (decide_eq_true hn)]
      exact Or.inl ⟨n, rfl, hn, rfl⟩
    · rw [if_neg (by simpa using hn)]
      refine Or.inr ⟨fun m hm => ?_, rfl⟩
      obtain rfl := Option.some.inj hm
      exact Nat.not_lt.mp hn

theorem reports_checkCall {method : SymbolId} {name : String} :
    (c.checkCall i method name).Reports types d ↔
      ∃ signature arguments list types₁ types₂ types₃,
        (c.host.signature method).Gives types (some signature) types₁ ∧
        signature.builder = false ∧
        (c.host.argumentTypes i).Gives types₁ (some arguments) types₂ ∧
        signature.isApplicable ⟨types₂, c.hierarchy⟩ arguments = false ∧
        (c.host.argumentsNode i).Gives types₂ (some list) types₃ ∧
        c.Words ⟨.warning, list, .cannotApplyMethod, [name], .generic, []⟩ types₃ d := by
  unfold checkCall
  rw [Rule.reports_ask_bind]
  constructor
  · rintro ⟨_ | signature, types₁, hsignature, h⟩
    · exact absurd h Rule.not_reports_none
    dsimp only at h
    split at h
    · exact absurd h Rule.not_reports_none
    next hbuilder =>
    obtain ⟨_ | arguments, types₂, harguments, h⟩ := Rule.reports_ask_bind.mp h
    · exact absurd h Rule.not_reports_none
    have h := reports_typeWorld_bind.mp h
    split at h
    · exact absurd h Rule.not_reports_none
    next hmisfit =>
    obtain ⟨_ | list, types₃, hlist, h⟩ := Rule.reports_ask_bind.mp h
    · -- Without a place for the warning there is a fault.
      exact absurd h (Rule.not_reports_throw _)
    exact ⟨signature, arguments, list, types₁, types₂, types₃, hsignature,
      Bool.eq_false_iff.mpr hbuilder, harguments, Bool.eq_false_iff.mpr hmisfit, hlist,
      (reports_warningAt _ _ _ _).mp h⟩
  · rintro ⟨signature, arguments, list, types₁, types₂, types₃, hsignature, hbuilder, harguments,
      hmisfit, hlist, h⟩
    refine ⟨_, _, hsignature, ?_⟩
    dsimp only
    rw [if_neg (Bool.eq_false_iff.mp hbuilder)]
    refine Rule.reports_ask_bind.mpr ⟨_, _, harguments, ?_⟩
    refine reports_typeWorld_bind.mpr ?_
    rw [if_neg (Bool.eq_false_iff.mp hmisfit)]
    exact Rule.reports_ask_bind.mpr ⟨_, _, hlist, (reports_warningAt _ _ _ _).mpr h⟩

theorem isInStaticMember_iff : c.isInStaticMember i = true ↔ c.tree.InStatic i := by
  unfold isInStaticMember Tree.InStatic
  rw [Option.any_eq_true]
  constructor
  · rintro ⟨m, hm, hstatic⟩
    obtain ⟨n, hn, hnearest⟩ := Tree.ancestorOf?_eq_some_iff.mp hm
    exact ⟨n, hn, m, hnearest, hstatic⟩
  · rintro ⟨n, hn, m, hnearest, hstatic⟩
    exact ⟨m, Tree.ancestorOf?_eq_some_iff.mpr ⟨n, hn, hnearest⟩, hstatic⟩

theorem reports_reportUnresolved {name : String} :
    (c.reportUnresolved i name).Reports types d ↔
      (c.tree.InStatic i ∧
          c.Words ⟨.error, some i, .cannotResolve, [name], .unknownSymbol, []⟩ types d) ∨
        (¬c.tree.InStatic i ∧ ∃ outer fixes types₁, c.tree.parent? i = some outer ∧
          c.tree.kind? outer = some .reference ∧ (c.host.importFixes i).Gives types fixes types₁ ∧
          c.Words ⟨.warning, some i, .cannotResolve, [name], .generic, fixes⟩ types₁ d) := by
  unfold reportUnresolved
  by_cases hstatic : c.tree.InStatic i
  · rw [if_pos (isInStaticMember_iff.mpr hstatic), reports_errorAt]
    simp [hstatic]
  · rw [if_neg fun h => hstatic (isInStaticMember_iff.mp h)]
    simp only [hstatic, false_and, not_false_eq_true, true_and, false_or]
    split
    · next houter =>
      obtain ⟨outer, hparent, hkind⟩ := any_isOneOf_iff.mp houter
      rw [Rule.reports_ask_bind]
      constructor
      · rintro ⟨fixes, types₁, hfixes, h⟩
        exact ⟨outer, fixes, types₁, hparent, hkind, hfixes, (reports_warningAt _ _ _ _).mp h⟩
      · rintro ⟨_, fixes, types₁, _, _, hfixes, h⟩
        exact ⟨fixes, types₁, hfixes, (reports_warningAt _ _ _ _).mpr h⟩
    · next houter =>
      refine iff_of_false Rule.not_reports_none ?_
      rintro ⟨outer, _, _, hparent, hkind, _⟩
      exact houter (any_isOneOf_iff.mpr ⟨outer, hparent, hkind⟩)

theorem reports_checkValueReference {data : Reference} :
    (c.checkValueReference i data).Reports types d ↔ ∃ name resolution types₁,
      data.name? = some name ∧ (c.host.resolve i).Gives types resolution types₁ ∧
        match resolution with
        | .inaccessible _ =>
          c.Words ⟨.warning, some i, .cannotAccess, [name], .generic, []⟩ types₁ d
        | .accessible symbol => ∃ types₂,
          (c.host.symbolKind symbol).Gives types₁ (some .method) types₂ ∧
            (c.checkCall i symbol name).Reports types₂ d
        | .unresolved =>
          data.qualifier = none ∧ (c.reportUnresolved i name).Reports types₁ d := by
  unfold checkValueReference
  cases data.name? with
  | none => exact iff_of_false Rule.not_reports_none (by simp)
  | some name =>
    dsimp only
    rw [Rule.reports_ask_bind]
    constructor
    · rintro ⟨resolution, types₁, hresolve, h⟩
      refine ⟨name, resolution, types₁, rfl, hresolve, ?_⟩
      cases resolution with
      | inaccessible symbol => exact (reports_warningAt _ _ _ _).mp h
      | accessible symbol =>
        obtain ⟨kind, types₂, hkind, h⟩ := Rule.reports_ask_bind.mp h
        split at h
        · next hmethod => exact ⟨types₂, hmethod ▸ hkind, h⟩
        · exact absurd h Rule.not_reports_none
      | unresolved =>
        dsimp only at h
        split at h
        · next hplain => exact ⟨Option.isNone_iff_eq_none.mp hplain, h⟩
        · exact absurd h Rule.not_reports_none
    · rintro ⟨_, resolution, types₁, heq, hresolve, h⟩
      obtain rfl := Option.some.inj heq
      refine ⟨resolution, types₁, hresolve, ?_⟩
      cases resolution with
      | inaccessible symbol => exact (reports_warningAt _ _ _ _).mpr h
      | accessible symbol =>
        obtain ⟨types₂, hkind, h⟩ := h
        refine Rule.reports_ask_bind.mpr ⟨_, types₂, hkind, ?_⟩
        rw [if_pos rfl]
        exact h
      | unresolved =>
        dsimp only at h ⊢
        rw [if_pos (Option.isNone_iff_eq_none.mpr h.1)]
        exact h.2

theorem reports_checkTypeReference {data : Reference} :
    (c.checkTypeReference i data).Reports types d ↔ ∃ name resolution types₁,
      data.name? = some name ∧ (c.host.resolve i).Gives types resolution types₁ ∧
        match resolution with
        | .unresolved => ∃ fixes types₂, (c.host.importFixes i).Gives types₁ fixes types₂ ∧
          c.Words ⟨.error, some i, .cannotResolve, [name], .unknownSymbol, fixes⟩ types₂ d
        | .inaccessible _ =>
          c.Words ⟨.error, some i, .cannotAccess, [name], .generic, []⟩ types₁ d
        | .accessible _ => False := by
  unfold checkTypeReference
  cases data.name? with
  | none => exact iff_of_false Rule.not_reports_none (by simp)
  | some name =>
    dsimp only
    rw [Rule.reports_ask_bind]
    constructor
    · rintro ⟨resolution, types₁, hresolve, h⟩
      refine ⟨name, resolution, types₁, rfl, hresolve, ?_⟩
      cases resolution with
      | inaccessible symbol => exact (reports_errorAt _ _ _ _ _).mp h
      | accessible symbol => exact absurd h Rule.not_reports_none
      | unresolved =>
        obtain ⟨fixes, types₂, hfixes, h⟩ := Rule.reports_ask_bind.mp h
        exact ⟨fixes, types₂, hfixes, (reports_errorAt _ _ _ _ _).mp h⟩
    · rintro ⟨_, resolution, types₁, heq, hresolve, h⟩
      obtain rfl := Option.some.inj heq
      refine ⟨resolution, types₁, hresolve, ?_⟩
      cases resolution with
      | inaccessible symbol => exact (reports_errorAt _ _ _ _ _).mpr h
      | accessible symbol => exact h.elim
      | unresolved =>
        obtain ⟨fixes, types₂, hfixes, h⟩ := h
        exact Rule.reports_ask_bind.mpr ⟨_, _, hfixes, (reports_errorAt _ _ _ _ _).mpr h⟩

end Checker

/-! ## What ends -/

namespace Rule

variable {α β : Type}

/-- A run ends, perhaps with a fault: the host does not break off. -/
def Ends (run : Rule α) : Prop := ∀ types, ∃ result types', run.exec types = (.ok result, types')

theorem ends_pure (a : α) : Ends (pure a) := fun types => ⟨_, types, exec_pure a types⟩

theorem ends_throw (f : Fault) : Ends (throw f : Rule α) :=
  fun types => ⟨_, types, exec_throw f types⟩

theorem ends_ask_bind {question : Check α} {next : α → Rule β} (hq : question.Returns)
    (hnext : ∀ answer, Ends (next answer)) : Ends (ask question >>= next) := by
  intro types
  obtain ⟨answer, types', hanswer⟩ := hq types
  rw [exec_ask_bind, show question.exec types = _ from hanswer]
  exact hnext answer types'

end Rule

namespace Checker

variable {c : Checker}

theorem ends_typeWorld_bind {next : TypeWorld → Rule (Option Diagnostic)}
    (hnext : ∀ world, Rule.Ends (next world)) : Rule.Ends (c.typeWorld >>= next) := by
  intro types
  rw [exec_typeWorld_bind]
  exact hnext _ types

section

variable (hh : c.host.Returns)

include hh

theorem ends_errorAt (node : Part) (message : Message) (args : List String)
    (highlight : Highlight) (fixes : List Fix) :
    (c.errorAt node message args highlight fixes).Ends := by
  unfold errorAt rendered
  simp only [bind_assoc, pure_bind]
  exact Rule.ends_ask_bind (hh.wording _ _) fun text => Rule.ends_pure _

theorem ends_warningAt (node : Part) (message : Message) (args : List String)
    (fixes : List Fix) : (c.warningAt node message args fixes).Ends := by
  unfold warningAt rendered
  simp only [bind_assoc, pure_bind]
  exact Rule.ends_ask_bind (hh.wording _ _) fun text => Rule.ends_pure _

theorem ends_checkFits (target source : TypeId) (node : Part) :
    (c.checkFits target source node).Ends := by
  refine ends_typeWorld_bind fun world => ?_
  split
  · exact Rule.ends_pure _
  · exact ends_warningAt hh _ _ _ _

theorem ends_checkAssignment (left : Part) (operator : AssignOp) (right : Part) :
    (c.checkAssignment left operator right).Ends := by
  unfold checkAssignment
  split
  · exact Rule.ends_pure _
  refine Rule.ends_ask_bind (hh.expressionType left) fun target => ?_
  cases target with
  | none => exact Rule.ends_pure _
  | some target =>
    refine Rule.ends_ask_bind (hh.expressionType right) fun source => ?_
    cases source with
    | none => exact Rule.ends_pure _
    | some source => exact ends_checkFits hh _ _ _

theorem ends_checkVariable (i : NodeId) (data : Variable) : (c.checkVariable i data).Ends := by
  unfold checkVariable
  cases data.initial with
  | none => exact Rule.ends_pure _
  | some initial =>
    refine Rule.ends_ask_bind (hh.expressionType _) fun source => ?_
    cases source with
    | none => exact Rule.ends_pure _
    | some source =>
      refine Rule.ends_ask_bind (hh.declaredType i) fun target => ?_
      cases target with
      | none => exact Rule.ends_pure _
      | some target => exact ends_checkFits hh _ _ _

theorem ends_checkTypeDecl (i : NodeId) (data : TypeDecl) : (c.checkTypeDecl i data).Ends := by
  unfold checkTypeDecl
  split
  · exact ends_errorAt hh _ _ _ _ _
  · exact Rule.ends_pure _

theorem ends_checkCall (i : NodeId) (method : SymbolId) (name : String) :
    (c.checkCall i method name).Ends := by
  refine Rule.ends_ask_bind (hh.signature method) fun signature => ?_
  cases signature with
  | none => exact Rule.ends_pure _
  | some signature =>
    dsimp only
    split
    · exact Rule.ends_pure _
    refine Rule.ends_ask_bind (hh.argumentTypes i) fun arguments => ?_
    cases arguments with
    | none => exact Rule.ends_pure _
    | some arguments =>
      refine ends_typeWorld_bind fun world => ?_
      split
      · exact Rule.ends_pure _
      refine Rule.ends_ask_bind (hh.argumentsNode i) fun list => ?_
      cases list with
      | none => exact Rule.ends_throw _
      | some list => exact ends_warningAt hh _ _ _ _

theorem ends_reportUnresolved (i : NodeId) (name : String) :
    (c.reportUnresolved i name).Ends := by
  unfold reportUnresolved
  split
  · exact ends_errorAt hh _ _ _ _ _
  split
  · exact Rule.ends_ask_bind (hh.importFixes i) fun fixes => ends_warningAt hh _ _ _ _
  · exact Rule.ends_pure _

theorem ends_checkValueReference (i : NodeId) (data : Reference) :
    (c.checkValueReference i data).Ends := by
  unfold checkValueReference
  cases data.name? with
  | none => exact Rule.ends_pure _
  | some name =>
    refine Rule.ends_ask_bind (hh.resolve i) fun resolution => ?_
    cases resolution with
    | inaccessible symbol => exact ends_warningAt hh _ _ _ _
    | accessible symbol =>
      refine Rule.ends_ask_bind (hh.symbolKind symbol) fun kind => ?_
      split
      · exact ends_checkCall hh _ _ _
      · exact Rule.ends_pure _
    | unresolved =>
      dsimp only
      split
      · exact ends_reportUnresolved hh _ _
      · exact Rule.ends_pure _

theorem ends_checkTypeReference (i : NodeId) (data : Reference) :
    (c.checkTypeReference i data).Ends := by
  unfold checkTypeReference
  cases data.name? with
  | none => exact Rule.ends_pure _
  | some name =>
    refine Rule.ends_ask_bind (hh.resolve i) fun resolution => ?_
    cases resolution with
    | unresolved =>
      exact Rule.ends_ask_bind (hh.importFixes i) fun fixes => ends_errorAt hh _ _ _ _ _
    | inaccessible symbol => exact ends_errorAt hh _ _ _ _ _
    | accessible symbol => exact Rule.ends_pure _

/-- If the host answers every question, the rule of a node ends. -/
theorem ends_check (i : NodeId) : (c.check i).Ends := by
  unfold check
  cases Subject.ofNode c.tree i with
  | error f => exact Rule.ends_throw f
  | ok subject =>
    cases subject with
    | typeReference data => exact ends_checkTypeReference hh i data
    | valueReference data => exact ends_checkValueReference hh i data
    | typeDecl data => exact ends_checkTypeDecl hh i data
    | variableLike data => exact ends_checkVariable hh i data
    | assignment left operator right => exact ends_checkAssignment hh left operator right
    | legacyFor => exact ends_errorAt hh _ _ _ _ _
    | other => exact Rule.ends_pure _

end

end Checker

end ScriptCheck
