/-
Spans: half-open ranges of character offsets into a source text.
-/
namespace TreeLint

/-- The offsets `start, …, stop - 1`; an empty span is the place in front of `start`. -/
structure Span where
  start : Nat
  stop : Nat
  start_le_stop : start ≤ stop := by omega
deriving DecidableEq

namespace Span

/-- The span between two integers, which must be in order and not negative. -/
def ofBounds? (start stop : Int) : Option Span :=
  if h : 0 ≤ start ∧ start ≤ stop then some { start := start.toNat, stop := stop.toNat } else none

/-- Whether the span holds no offset. -/
def isEmpty (s : Span) : Bool := s.start == s.stop

/-- Whether two spans reach into each other. An empty span overlaps one that it lies strictly
inside. -/
def overlaps (s t : Span) : Bool := s.start < t.stop && t.start < s.stop

/-- Whether the second span lies within the first. -/
def contains (s t : Span) : Bool := s.start ≤ t.start && t.stop ≤ s.stop

/-- The place in front of an offset. -/
def point (offset : Nat) : Span := { start := offset, stop := offset }

/-- How a span reads in a message. -/
def display (s : Span) : String := s!"[{s.start}, {s.stop})"

theorem overlaps_comm (s t : Span) : s.overlaps t = t.overlaps s := by
  simp [overlaps, Bool.and_comm]

end Span

end TreeLint
