/-
Edits: replacing what a span covers by a text. An empty span makes the edit an insertion, an empty
text makes it a deletion.
-/
import TreeLint.Span

namespace TreeLint

/-- Puts `replacement` in the place of what `span` covers. -/
structure Edit where
  span : Span
  replacement : String
deriving DecidableEq

namespace Edit

/-- Whether two edits touch the same place: their spans reach into each other or start together. -/
def conflicts (a b : Edit) : Bool :=
  a.span.overlaps b.span || a.span.start == b.span.start

/-- Whether the span of the first edit starts before that of the second, or with it and does not
end after it. -/
def precedes (a b : Edit) : Bool :=
  a.span.start < b.span.start || (a.span.start == b.span.start && a.span.stop ≤ b.span.stop)

/-- Carries out an edit on a text, as far as the text reaches. -/
def applyTo (e : Edit) (text : List Char) : List Char :=
  text.take e.span.start ++ e.replacement.toList ++ text.drop e.span.stop

theorem conflicts_comm (a b : Edit) : a.conflicts b = b.conflicts a := by
  have : (a.span.start == b.span.start) = (b.span.start == a.span.start) := BEq.comm
  simp [conflicts, Span.overlaps_comm a.span b.span, this]

theorem precedes_total (a b : Edit) : (a.precedes b || b.precedes a) = true := by
  simp only [precedes, Bool.or_eq_true, Bool.and_eq_true, decide_eq_true_eq, beq_iff_eq]
  omega

theorem precedes_trans {a b c : Edit} (hab : a.precedes b = true) (hbc : b.precedes c = true) :
    a.precedes c = true := by
  simp only [precedes, Bool.or_eq_true, Bool.and_eq_true, decide_eq_true_eq, beq_iff_eq] at *
  omega

end Edit

end TreeLint
