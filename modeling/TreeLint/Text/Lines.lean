/-
Lines of a text. Reading turns every line end into a line feed; afterwards only the line feed ends
a line, and a position is a line with a column or an offset, both counted in characters.
-/
namespace TreeLint.Text

/-- Reading: a carriage return with the line feed after it, and a carriage return alone, become one
line feed. -/
def readLineEnds : List Char → List Char
  | [] => []
  | '\r' :: '\n' :: cs => '\n' :: readLineEnds cs
  | c :: cs => (if c = '\r' then '\n' else c) :: readLineEnds cs

/-- What is read holds no carriage return. -/
theorem not_mem_readLineEnds (cs : List Char) : '\r' ∉ readLineEnds cs := by
  fun_induction readLineEnds cs with
  | case1 => simp
  | case2 cs ih => simpa using ih
  | case3 c cs _ ih =>
    by_cases h : c = '\r'
    · simp [h, ih]
    · simp [h, ih, Ne.symm h]

/-- A text without carriage returns is read as it is. -/
theorem readLineEnds_eq_self {cs : List Char} (h : '\r' ∉ cs) : readLineEnds cs = cs := by
  fun_induction readLineEnds cs with
  | case1 => rfl
  | case2 => simp at h
  | case3 c cs _ ih =>
    simp only [List.mem_cons, not_or] at h
    rw [ih h.2, if_neg (Ne.symm h.1)]

/-- The offsets of the characters that follow a line feed, for characters that start at `offset`. -/
def startsAfter (offset : Nat) : List Char → List Nat
  | [] => []
  | c :: cs => if c = '\n' then (offset + 1) :: startsAfter (offset + 1) cs else startsAfter (offset + 1) cs

/-- The offsets at which the lines of a text start: 0 and every place after a line feed. -/
def lineStarts (cs : List Char) : List Nat :=
  0 :: startsAfter 0 cs

/-- The lines of a text, without their line feeds; a text that ends with one has an empty last
line. -/
def lines : List Char → List (List Char)
  | [] => [[]]
  | c :: cs =>
    match lines cs with
    | [] => [[c]]
    | l :: ls => if c = '\n' then [] :: l :: ls else (c :: l) :: ls

theorem lines_ne_nil (cs : List Char) : lines cs ≠ [] := by
  cases cs with
  | nil => simp [lines]
  | cons c cs =>
    unfold lines
    split
    · simp
    · split <;> simp

/-- The line (from 1) and the column (from 0) of an offset: the last line that starts at or before
it, and the distance from there. -/
def lineCol (cs : List Char) (offset : Nat) : Nat × Nat :=
  let starts := (lineStarts cs).takeWhile (· ≤ offset)
  (starts.length, offset - starts.getLastD 0)

/-- `lineCol` for any integer: a negative offset has line 0 and is counted from the start of the
last line. -/
def lineColAt (cs : List Char) : Int → Nat × Int
  | .ofNat offset => ((lineCol cs offset).1, (lineCol cs offset).2)
  | offset => (0, offset - ((lineStarts cs).getLastD 0 : Nat))

/-- How many whole characters of a line lie within its first `bytes` bytes in UTF-8. -/
def charsWithin (bytes : Nat) : List Char → Nat
  | [] => 0
  | c :: cs => if c.utf8Size ≤ bytes then charsWithin (bytes - c.utf8Size) cs + 1 else 0

/-- The length of a text in UTF-8. -/
def utf8Length : List Char → Nat
  | [] => 0
  | c :: cs => c.utf8Size + utf8Length cs

/-- The length of lines together with the line feeds behind them. -/
def lengthOfLines : List (List Char) → Nat
  | [] => 0
  | l :: ls => l.length + 1 + lengthOfLines ls

end TreeLint.Text
