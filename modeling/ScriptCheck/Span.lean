/-
  Source ranges.

  A span is the half-open range of byte offsets that a node or a name takes up
  in the source text. Nothing forces `start ≤ stop`: a span whose ends are
  swapped is empty and has length zero.

  Offsets are natural numbers without a bound. They stand for offsets of 32
  bits, so the end of a span that is given by its length is assumed to lie
  below 2^32: no sum here wraps around.
-/

namespace ScriptCheck

/-- The half-open range of offsets from `start` up to, but without, `stop`. -/
structure Span where
  start : Nat
  stop : Nat
deriving DecidableEq, Repr, Inhabited

namespace Span

/-- The span that stands in for a range nobody knows. -/
def unknown : Span := ⟨0, 0⟩

/-- The span of the given length that begins at `start`; `start + length` is assumed to be an
    offset of 32 bits. -/
def ofLength (start length : Nat) : Span := ⟨start, start + length⟩

/-- How many offsets lie in the span. -/
def length (s : Span) : Nat := s.stop - s.start

/-- A span is empty when no offset lies in it. -/
def isEmpty (s : Span) : Bool := s.stop ≤ s.start

/-- Whether an offset lies in the span. -/
def contains (s : Span) (offset : Nat) : Bool := s.start ≤ offset && offset < s.stop

/-- The smallest range that begins no later and ends no earlier than either span. -/
def cover (a b : Span) : Span := ⟨min a.start b.start, max a.stop b.stop⟩

@[simp] theorem length_ofLength (start length : Nat) : (ofLength start length).length = length := by
  unfold ofLength Span.length
  exact Nat.add_sub_cancel_left start length

/-- Only empty spans have length zero, swapped ends included. -/
theorem isEmpty_iff {s : Span} : s.isEmpty = true ↔ s.length = 0 := by
  unfold isEmpty length
  rw [decide_eq_true_iff]
  omega

/-- Spans are ordered by where they begin, then by where they end. -/
def le (a b : Span) : Bool := a.start < b.start || (a.start = b.start && a.stop ≤ b.stop)

/-- The spans in source order; equal ones keep their places. -/
def sort (spans : List Span) : List Span := spans.mergeSort le

end Span

end ScriptCheck
