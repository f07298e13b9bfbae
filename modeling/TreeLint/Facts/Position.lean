/-
From lines and byte columns to offsets in the text.
-/
import TreeLint.Facts.Basic
import TreeLint.Text.Lines

namespace TreeLint.Facts

/-- How many whole characters of a line lie in front of a byte column; a negative column counts
from the end of the line. -/
def charsBefore (line : List Char) : Int → Nat
  | .ofNat bytes => Text.charsWithin bytes line
  | .negSucc back => Text.charsWithin (Text.utf8Length line - (back + 1)) line

/-- The offset of a line (from 1) and a byte column. -/
def offset? (lines : List (List Char)) (line column : Int) : Option Nat :=
  if 1 ≤ line then
    let index := line.toNat - 1
    (lines[index]?).map fun l => Text.lengthOfLines (lines.take index) + charsBefore l column
  else none

/-- The span of a position whose parts are all there, in the text and in order. -/
def Position.span? (p : Position) (lines : List (List Char)) : Option Span := do
  let start ← offset? lines (← p.line) (← p.column)
  let stop ← offset? lines (← p.endLine) (← p.endColumn)
  if h : start ≤ stop then some { start, stop } else none

end TreeLint.Facts
