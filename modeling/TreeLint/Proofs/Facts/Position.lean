/-
Where a row is written is a place in the text, whatever integers tell it: a line that the text does not
have tells no offset, and a column leads no further than to the end of its line. Main statement:
`Position.stop_le_of_span?`.
-/
import TreeLint.Facts.Position

namespace TreeLint

namespace Text

theorem charsWithin_le_length (bytes : Nat) (line : List Char) : charsWithin bytes line ≤ line.length := by
  induction line generalizing bytes with
  | nil => simp [charsWithin]
  | cons c cs ih =>
    unfold charsWithin
    split
    · simpa using ih _
    · simp

/-- The lines of a text and the line feeds behind them are one longer than the text, which has no line feed behind its
last line. -/
theorem lengthOfLines_lines (text : List Char) : lengthOfLines (lines text) = text.length + 1 := by
  induction text with
  | nil => rfl
  | cons c cs ih =>
    unfold lines
    rcases h : lines cs with _ | ⟨l, ls⟩
    · exact absurd h (lines_ne_nil cs)
    · rw [h] at ih
      simp only [lengthOfLines] at ih
      dsimp only
      split <;> simp only [lengthOfLines, List.length_nil, List.length_cons] <;> omega

/-- A line ends, with its line feed, where the lines up to it do. -/
theorem lengthOfLines_take_add_length {ls : List (List Char)} {index : Nat} {l : List Char} (h : ls[index]? = some l) :
    lengthOfLines (ls.take index) + l.length + 1 ≤ lengthOfLines ls := by
  induction ls generalizing index with
  | nil => simp at h
  | cons m ls ih =>
    cases index with
    | zero =>
      obtain rfl : m = l := by simpa using h
      simp only [List.take_zero, lengthOfLines]
      omega
    | succ index =>
      have := ih (by simpa using h)
      simp only [List.take_succ_cons, lengthOfLines]
      omega

end Text

namespace Facts

theorem charsBefore_le_length (line : List Char) (column : Int) : charsBefore line column ≤ line.length := by
  cases column <;> exact Text.charsWithin_le_length _ line

theorem offset?_le_length {text : List Char} {line column : Int} {offset : Nat}
    (h : offset? (Text.lines text) line column = some offset) : offset ≤ text.length := by
  unfold offset? at h
  split at h
  · obtain ⟨l, hl, rfl⟩ := Option.map_eq_some_iff.1 h
    have hline := Text.lengthOfLines_take_add_length hl
    have hcolumn := charsBefore_le_length l column
    rw [Text.lengthOfLines_lines] at hline
    omega
  · cases h

theorem Position.stop_le_of_span? {p : Position} {text : List Char} {s : Span} (h : p.span? (Text.lines text) = some s) :
    s.stop ≤ text.length := by
  unfold span? at h
  simp only [Option.bind_eq_bind, Option.bind_eq_some_iff] at h
  obtain ⟨line, -, column, -, start, -, endLine, -, endColumn, -, stop, hstop, h⟩ := h
  split at h
  · cases h
    exact offset?_le_length hstop
  · cases h

end Facts

end TreeLint
