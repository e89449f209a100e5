/-
  Forwarding between collectors.

  A collector that is forwarded reports what it holds to another one, and a
  report has no room for the highlight of a warning. So a diagnostic arrives as
  it was only if it is painted as a report would paint it. `Reported` says that
  all diagnostics of a collector are, and every operation on collectors keeps
  this: what is reported is painted like that, and what is forwarded was
  reported before. From empty collectors on, forwarding therefore moves the
  whole list as it is.
-/
import Mathlib.Logic.Function.Basic
import ScriptCheck.Diagnostic.Collector

namespace ScriptCheck

/-- A list is put together from two others, each of which keeps its order. -/
inductive Interleaves {α : Type} : List α → List α → List α → Prop
  | nil : Interleaves [] [] []
  | left {a : α} {xs ys zs : List α} (h : Interleaves xs ys zs) :
    Interleaves (a :: xs) ys (a :: zs)
  | right {a : α} {xs ys zs : List α} (h : Interleaves xs ys zs) :
    Interleaves xs (a :: ys) (a :: zs)

/-- What fulfils a condition and what does not make up a list. -/
theorem interleaves_filter {α : Type} {p q : α → Bool} (h : ∀ a, q a = !p a) (l : List α) :
    Interleaves (l.filter p) (l.filter q) l := by
  induction l with
  | nil => exact .nil
  | cons a l ih =>
    rw [List.filter_cons, List.filter_cons, h a]
    cases p a with
    | true => exact ih.left
    | false => exact ih.right

namespace Collector

/-- What can be done to one of several collectors. A collector is forwarded to another one. -/
inductive Operation (ι : Type)
  | error (on : ι) (anchor : Anchor) (message : RenderedMessage) (highlight : Highlight)
    (fixes : List Fix)
  | warning (on : ι) (anchor : Anchor) (message : RenderedMessage) (fixes : List Fix)
  | clear (on : ι)
  | forward (source target : ι) (h : source ≠ target)

section

variable {ι : Type} [DecidableEq ι]

/-- The collectors after one operation. -/
def apply (all : ι → Collector) : Operation ι → ι → Collector
  | .error on anchor message highlight fixes =>
    Function.update all on ((all on).reportError anchor message highlight fixes)
  | .warning on anchor message fixes =>
    Function.update all on ((all on).reportWarning anchor message fixes)
  | .clear on => Function.update all on empty
  | .forward source target _ =>
    let (left, filled) := (all source).forward (all target)
    Function.update (Function.update all source left) target filled

/-- The collectors after operations on empty ones. -/
def run (operations : List (Operation ι)) : ι → Collector := operations.foldl apply fun _ => empty

/-- The diagnostics of a collector are painted as reports paint them. -/
def Reported (c : Collector) : Prop := ∀ d ∈ c.diagnostics, d.replayed = d

variable {c source target : Collector} {all : ι → Collector}

/-! ## What each operation keeps -/

theorem reported_empty : empty.Reported := fun _ hd => absurd hd List.not_mem_nil

theorem Reported.report (h : c.Reported) {d : Diagnostic} (hd : d.replayed = d) :
    (c.report d).Reported := by
  intro d' hd'
  rw [diagnostics_report, List.mem_append, List.mem_singleton] at hd'
  rcases hd' with hold | rfl
  · exact h d' hold
  · exact hd

/-- What was reported is forwarded as it is. -/
theorem Reported.diagnostics_forward (h : source.Reported) (target : Collector) :
    (source.forward target).2.diagnostics = target.diagnostics ++ source.diagnostics := by
  have hsame : source.diagnostics.map Diagnostic.replayed = source.diagnostics :=
    List.map_congr_left h |>.trans (List.map_id _)
  rw [Collector.diagnostics_forward, hsame]

theorem Reported.forward (hs : source.Reported) (ht : target.Reported) :
    (source.forward target).2.Reported := by
  intro d hd
  rw [hs.diagnostics_forward, List.mem_append] at hd
  exact hd.elim (ht d) (hs d)

theorem reported_update (h : ∀ k, (all k).Reported) {on : ι} (hc : c.Reported) :
    ∀ k, (Function.update all on c k).Reported :=
  (Function.forall_update_iff all fun _ => Reported).mpr ⟨hc, fun k _ => h k⟩

theorem reported_apply (h : ∀ k, (all k).Reported) (operation : Operation ι) :
    ∀ k, (apply all operation k).Reported := by
  cases operation with
  | error on anchor message highlight fixes => exact reported_update h ((h on).report rfl)
  | warning on anchor message fixes => exact reported_update h ((h on).report rfl)
  | clear on => exact reported_update h reported_empty
  | forward source target hne =>
    exact reported_update (reported_update h reported_empty) ((h source).forward (h target))

/-- All that is in collectors after a run was reported. -/
theorem reported_run (operations : List (Operation ι)) : ∀ k, (run operations k).Reported := by
  have hall : ∀ start : ι → Collector, (∀ k, (start k).Reported) →
      ∀ k, (operations.foldl apply start k).Reported := by
    induction operations with
    | nil => exact fun _ h => h
    | cons operation rest ih => exact fun start h => ih _ (reported_apply h operation)
  exact hall _ fun _ => reported_empty

/-! ## Runs -/

theorem run_concat (operations : List (Operation ι)) (last : Operation ι) :
    run (operations ++ [last]) = apply (run operations) last := by
  unfold run
  rw [List.foldl_append]
  rfl

/-- However collectors came about from empty ones, forwarding one of them to another leaves it
    empty, and the other one holds behind its own diagnostics those of the first, as they were and
    in their order. All others stay as they are. The errors and the warnings of each collector make
    up its diagnostics. -/
theorem forward_after_run (operations : List (Operation ι)) :
    (∀ source target (h : source ≠ target),
      let before := run operations
      let after := run (operations ++ [.forward source target h])
      after source = empty ∧
        (after target).diagnostics = (before target).diagnostics ++ (before source).diagnostics ∧
        ∀ other, other ≠ source → other ≠ target → after other = before other) ∧
      ∀ on,
        Interleaves (run operations on).errors (run operations on).warnings
          (run operations on).diagnostics ∧
        (∀ d ∈ (run operations on).errors, d.severity = .error) ∧
        ∀ d ∈ (run operations on).warnings, d.severity = .warning := by
  refine ⟨fun source target h => ?_, fun on => ⟨?_, ?_, ?_⟩⟩
  · intro before after
    have hafter : after = Function.update (Function.update before source empty) target
        ((before source).forward (before target)).2 :=
      run_concat operations _
    rw [hafter]
    refine ⟨?_, ?_, fun other hs ht => ?_⟩
    · rw [Function.update_of_ne h, Function.update_self]
    · rw [Function.update_self]
      exact (reported_run operations source).diagnostics_forward _
    · rw [Function.update_of_ne ht, Function.update_of_ne hs]
  · exact interleaves_filter (fun d => by cases d.severity <;> rfl) _
  · exact fun d hd => of_decide_eq_true (List.mem_filter.mp hd).2
  · exact fun d hd => of_decide_eq_true (List.mem_filter.mp hd).2

end

/-! ## A collector that is forwarded twice -/

/-- An error that is painted as an unknown symbol and offers an import. -/
def unknownList : Diagnostic :=
  .error ⟨some 1, ⟨10, 13⟩⟩ ⟨3003, "cannot.resolve", ["List"], "Cannot resolve List"⟩
    .unknownSymbol [.addImport "java.util.List"]

/-- The first and the second of three collectors get diagnostics, and the first one is forwarded to
    the second. -/
def relayed : List (Operation (Fin 3)) :=
  [.warning 1 ⟨some 9, ⟨90, 93⟩⟩ ⟨3001, "cannot.assign", ["x", "y"], "Cannot assign x to y"⟩ [],
    .error 0 unknownList.anchor unknownList.message unknownList.highlight unknownList.fixes,
    .warning 0 ⟨some 2, ⟨20, 23⟩⟩ ⟨3002, "cannot.access", ["z"], "Cannot access z"⟩ [],
    .forward 0 1 (by decide)]

/-- Then the second one is forwarded to the third. -/
def relayedTwice : List (Operation (Fin 3)) := relayed ++ [.forward 1 2 (by decide)]

/-- What was forwarded is forwarded again as it was. -/
theorem forward_relayed :
    ((1 : Fin 3) ≠ 2 ∧ (run relayed 1).length = 3 ∧ unknownList ∈ (run relayed 1).errors) ∧
      run relayedTwice 1 = empty ∧
      (run relayedTwice 2).diagnostics = (run relayed 1).diagnostics ∧
      run relayedTwice 0 = run relayed 0 ∧
      Interleaves (run relayed 1).errors (run relayed 1).warnings (run relayed 1).diagnostics ∧
      unknownList.severity = .error := by
  have hmem : unknownList ∈ (run relayed 1).errors := by decide
  have hnothing : (run relayed 2).diagnostics = [] := by decide
  obtain ⟨hforward, hsplit⟩ := forward_after_run relayed
  obtain ⟨hsource, htarget, hothers⟩ := hforward 1 2 (by decide)
  rw [hnothing, List.nil_append] at htarget
  exact ⟨⟨by decide, by decide, hmem⟩, hsource, htarget, hothers 0 (by decide) (by decide),
    (hsplit 1).1, (hsplit 1).2.1 unknownList hmem⟩

end Collector

end ScriptCheck
