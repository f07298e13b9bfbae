/-
Places in a text, told as an offset or as a line with a column. The reader of facts splits the text into lines and
counts the whole characters in front of a byte column; a report searches the offsets at which lines start. Both go by
the same lines, and each undoes the other. Main statement: `lineCol_offset?`.
-/
import Mathlib.Data.List.TakeWhile
import Mathlib.Data.Prod.Lex
import TreeLint.Proofs.Facts.Position

namespace TreeLint

namespace Text

variable {ls : List (List Char)} {l cs : List Char} {offset index col bytes : Nat}

/-! ## Where lines start -/

/-- The offsets at which lines start that follow one another from an offset on. -/
def startsOf (offset : Nat) : List (List Char) → List Nat
  | [] => []
  | l :: ls => offset :: startsOf (offset + l.length + 1) ls

/-- The places after the line feeds are those at which the lines start. -/
theorem cons_startsAfter (offset : Nat) (cs : List Char) :
    offset :: startsAfter offset cs = startsOf offset (lines cs) := by
  induction cs generalizing offset with
  | nil => rfl
  | cons c cs ih =>
    have hrest := ih (offset + 1)
    unfold startsAfter lines
    rcases hlines : lines cs with _ | ⟨l, ls⟩
    · exact absurd hlines (lines_ne_nil cs)
    · rw [hlines, startsOf, List.cons.injEq] at hrest
      dsimp only
      split
      · rw [hrest.2, startsOf, startsOf]
        rfl
      · rw [hrest.2, startsOf, List.length_cons]
        congr 2
        omega

theorem lineStarts_eq (cs : List Char) : lineStarts cs = startsOf 0 (lines cs) :=
  cons_startsAfter 0 cs

theorem length_startsOf (offset : Nat) (ls : List (List Char)) : (startsOf offset ls).length = ls.length := by
  induction ls generalizing offset with
  | nil => rfl
  | cons l ls ih => rw [startsOf, List.length_cons, ih, List.length_cons]

theorem getElem?_startsOf (offset : Nat) (h : ls[index]? = some l) :
    (startsOf offset ls)[index]? = some (offset + lengthOfLines (ls.take index)) := by
  induction ls generalizing offset index with
  | nil => simp at h
  | cons m ls ih =>
    cases index with
    | zero => rfl
    | succ index =>
      rw [startsOf, List.getElem?_cons_succ, ih _ (by simpa using h), List.take_succ_cons, lengthOfLines]
      congr 1
      omega

/-! ## The line and the column of an offset -/

/-- The lines that start at or before a place in a line are those up to this one. -/
theorem takeWhile_startsOf (offset : Nat) (h : ls[index]? = some l) (hcol : col ≤ l.length) :
    (startsOf offset ls).takeWhile (· ≤ offset + lengthOfLines (ls.take index) + col) =
      (startsOf offset ls).take (index + 1) := by
  induction ls generalizing offset index with
  | nil => simp at h
  | cons m ls ih =>
    have hfirst (n : Nat) : offset ≤ offset + n + col := by omega
    cases index with
    | zero =>
      obtain rfl : m = l := by simpa using h
      rw [startsOf, List.takeWhile_cons, if_pos (decide_eq_true (hfirst _)), List.take_succ_cons, List.take_zero]
      -- the next line starts behind the line feed of this one
      cases ls with
      | nil => rfl
      | cons m' ls =>
        have hnext : ¬ offset + m.length + 1 ≤ offset + lengthOfLines ((m :: m' :: ls).take 0) + col := by
          rw [List.take_zero, lengthOfLines]
          omega
        rw [startsOf, List.takeWhile_cons_of_neg (by simpa using hnext), List.take_zero]
    | succ index =>
      have hoffset : offset + lengthOfLines ((m :: ls).take (index + 1)) + col =
          offset + m.length + 1 + lengthOfLines (ls.take index) + col := by
        rw [List.take_succ_cons, lengthOfLines]
        omega
      rw [startsOf, List.takeWhile_cons, if_pos (decide_eq_true (hfirst _)), hoffset, ih _ (by simpa using h),
        List.take_succ_cons]

/-- A column of a line is told of the offset behind the lines above and the characters in front of it. -/
theorem lineCol_of_line (h : (lines cs)[index]? = some l) (hcol : col ≤ l.length) :
    lineCol cs (lengthOfLines ((lines cs).take index) + col) = (index + 1, col) := by
  have hstarts := takeWhile_startsOf 0 h hcol
  have hstart := getElem?_startsOf 0 h
  rw [Nat.zero_add] at hstarts hstart
  have hindex : index < (startsOf 0 (lines cs)).length := by
    rw [length_startsOf]
    exact (List.getElem?_eq_some_iff.1 h).1
  unfold lineCol
  rw [lineStarts_eq, hstarts]
  dsimp only
  rw [List.length_take_of_le hindex, List.getLastD_eq_getLast?, List.getLast?_take, if_neg (Nat.succ_ne_zero index),
    Nat.add_sub_cancel, hstart]
  simp

/-- Every offset up to the end of the lines is a column of one of them. -/
theorem exists_line (h : offset < lengthOfLines ls) : ∃ index l col, ls[index]? = some l ∧ col ≤ l.length ∧
    offset = lengthOfLines (ls.take index) + col := by
  induction ls generalizing offset with
  | nil => simp [lengthOfLines] at h
  | cons m ls ih =>
    rw [lengthOfLines] at h
    by_cases hfirst : offset ≤ m.length
    · exact ⟨0, m, offset, rfl, hfirst, by simp [lengthOfLines]⟩
    · have hrest : offset - (m.length + 1) < lengthOfLines ls := by omega
      obtain ⟨index, l, col, hl, hcol, hoffset⟩ := ih hrest
      refine ⟨index + 1, l, col, hl, hcol, ?_⟩
      rw [List.take_succ_cons, lengthOfLines]
      omega

theorem takeWhile_le_prefix {offset' : Nat} (h : offset ≤ offset') (starts : List Nat) :
    starts.takeWhile (· ≤ offset) <+: starts.takeWhile (· ≤ offset') := by
  induction starts with
  | nil => exact List.prefix_refl _
  | cons s starts ih =>
    by_cases hs : s ≤ offset
    · rw [List.takeWhile_cons_of_pos (by simpa using hs), List.takeWhile_cons_of_pos (by simp; omega)]
      exact List.cons_prefix_cons.2 ⟨rfl, ih⟩
    · rw [List.takeWhile_cons_of_neg (by simpa using hs)]
      exact List.nil_prefix

/-- A greater offset is on a later line, or further right on the same one. -/
theorem lineCol_lt (cs : List Char) {offset' : Nat} (h : offset < offset') :
    (lineCol cs offset).1 < (lineCol cs offset').1 ∨
      (lineCol cs offset).1 = (lineCol cs offset').1 ∧ (lineCol cs offset).2 < (lineCol cs offset').2 := by
  have hprefix := takeWhile_le_prefix (Nat.le_of_lt h) (lineStarts cs)
  rcases Nat.lt_or_eq_of_le hprefix.length_le with hlt | hlength
  · exact .inl hlt
  · -- the last line that starts in time is the same, and starts at or before the smaller offset
    have hsame := hprefix.eq_of_length hlength
    have hstart : ((lineStarts cs).takeWhile (· ≤ offset)).getLastD 0 ≤ offset := by
      rw [List.getLastD_eq_getLast?]
      cases hlast : ((lineStarts cs).takeWhile (· ≤ offset)).getLast? with
      | none => exact Nat.zero_le offset
      | some s =>
        have hs := List.mem_takeWhile_imp (List.mem_of_getLast? hlast)
        exact of_decide_eq_true hs
    refine .inr ⟨hlength, ?_⟩
    unfold lineCol
    dsimp only
    rw [← hsame]
    omega

/-! ## Bytes -/

theorem utf8Length_eq (l : List Char) : utf8Length l = (String.ofList l).utf8ByteSize := by
  induction l with
  | nil => rfl
  | cons c cs ih => rw [utf8Length, ih, String.ofList_cons, String.utf8ByteSize_append, String.utf8ByteSize_singleton]

/-- As many characters of a line are whole within its first bytes as come to no more bytes, and the next one to more. -/
theorem charsWithin_eq (hcol : col ≤ l.length) (hleast : utf8Length (l.take col) ≤ bytes)
    (hmost : col < l.length → bytes < utf8Length (l.take (col + 1))) : charsWithin bytes l = col := by
  induction l generalizing col bytes with
  | nil => exact (Nat.le_zero.1 hcol).symm
  | cons c cs ih =>
    cases col with
    | zero =>
      have hbytes : bytes < c.utf8Size := by simpa [utf8Length] using hmost (by simp)
      rw [charsWithin, if_neg (Nat.not_le.2 hbytes)]
    | succ col =>
      rw [List.take_succ_cons, utf8Length] at hleast
      rw [charsWithin, if_pos (by omega), ih (by simpa using hcol) (by omega) fun hlt => ?_]
      have := hmost (by simpa using hlt)
      rw [List.take_succ_cons, utf8Length] at this
      omega

/-- The length in UTF-8 of what stands in front of a column. -/
def byteColumn (l : List Char) (col : Nat) : Nat :=
  (String.ofList (l.take col)).utf8ByteSize

theorem charsWithin_of_byteColumn (hcol : col ≤ l.length) (hleast : byteColumn l col ≤ bytes)
    (hmost : col < l.length → bytes < byteColumn l (col + 1)) : charsWithin bytes l = col := by
  simp only [byteColumn, ← utf8Length_eq] at hleast hmost
  exact charsWithin_eq hcol hleast hmost

theorem byteColumn_lt_succ (h : col < l.length) : byteColumn l col < byteColumn l (col + 1) := by
  have hsize := Char.utf8Size_pos l[col]
  rw [byteColumn, byteColumn, ← List.take_append_getElem h, String.ofList_append, String.utf8ByteSize_append,
    ← utf8Length_eq [l[col]], utf8Length, utf8Length]
  omega

end Text

namespace Facts

open Text

variable {text l : List Char} {index col bytes : Nat}

/-- A byte column that lies within the character after the first `col` of a line, or past its last, tells the offset
behind these. -/
theorem offset?_of_byteColumn (h : (lines text)[index]? = some l) (hcol : col ≤ l.length)
    (hleast : byteColumn l col ≤ bytes) (hmost : col < l.length → bytes < byteColumn l (col + 1)) :
    offset? (lines text) (index + 1 : Nat) bytes = some (lengthOfLines ((lines text).take index) + col) := by
  have hchars : charsBefore l bytes = col := charsWithin_of_byteColumn hcol hleast hmost
  rw [offset?, if_pos (by omega)]
  simp [h, hchars]

/-- The offsets at which lines start are those at which the reader of facts has them start. Every offset in a text is a
column of one of its lines, and the bytes in front of that column tell the offset again. Every column of a line is told
of an offset, which any byte column within the character there tells too, and at the end of the line any byte column
from there on. A greater offset is told further down, or further right on the same line. -/
theorem lineCol_offset? (text : List Char) :
    lineStarts text = (List.range (lines text).length).map (fun index => lengthOfLines ((lines text).take index)) ∧
      (∀ offset ≤ text.length, ∃ index col l, lineCol text offset = (index + 1, col) ∧ (lines text)[index]? = some l ∧
        col ≤ l.length ∧ offset? (lines text) (index + 1 : Nat) (byteColumn l col) = some offset) ∧
      (∀ index l, (lines text)[index]? = some l → ∀ col ≤ l.length, ∃ offset ≤ text.length,
        lineCol text offset = (index + 1, col) ∧
        offset? (lines text) (index + 1 : Nat) (byteColumn l col) = some offset ∧
        ∀ bytes, byteColumn l col ≤ bytes → (col < l.length → bytes < byteColumn l (col + 1)) →
          offset? (lines text) (index + 1 : Nat) bytes = some offset) ∧
      StrictMono fun offset => toLex (lineCol text offset) := by
  refine ⟨?starts, fun offset hoffset => ?line, fun index l hl col hcol => ?column, fun offset offset' hlt => ?later⟩
  case starts =>
    rw [lineStarts_eq]
    refine List.ext_getElem? fun index => ?_
    rw [List.getElem?_map]
    cases hl : (lines text)[index]? with
    | none =>
      have hlength := List.getElem?_eq_none_iff.1 hl
      rw [List.getElem?_eq_none (by rwa [length_startsOf]), List.getElem?_eq_none (by rwa [List.length_range])]
      rfl
    | some l =>
      obtain ⟨hlength, -⟩ := List.getElem?_eq_some_iff.1 hl
      rw [getElem?_startsOf 0 hl, List.getElem?_range hlength, Nat.zero_add]
      rfl
  case line =>
    have hlt : offset < lengthOfLines (lines text) := by
      rw [lengthOfLines_lines]
      omega
    obtain ⟨index, l, col, hl, hcol, rfl⟩ := exists_line hlt
    exact ⟨index, col, l, lineCol_of_line hl hcol, hl, hcol,
      offset?_of_byteColumn hl hcol (Nat.le_refl _) byteColumn_lt_succ⟩
  case column =>
    have hend := lengthOfLines_take_add_length hl
    rw [lengthOfLines_lines] at hend
    exact ⟨_, by omega, lineCol_of_line hl hcol, offset?_of_byteColumn hl hcol (Nat.le_refl _) byteColumn_lt_succ,
      fun bytes => offset?_of_byteColumn hl hcol⟩
  case later => exact Prod.Lex.toLex_lt_toLex.2 (lineCol_lt text hlt)

/-- Within the character of four bytes behind the one of three, any byte column tells the same offset. -/
theorem lineCol_offset?_wide : ∃ offset ≤ 6, lineCol ['é', '\n', '\n', '€', '😀', 'a'] offset = (3, 1) ∧
    offset? (lines ['é', '\n', '\n', '€', '😀', 'a']) 3 3 = some offset ∧
    offset? (lines ['é', '\n', '\n', '€', '😀', 'a']) 3 6 = some offset := by
  obtain ⟨offset, hoffset, hplace, hfirst, hwithin⟩ :=
    (lineCol_offset? ['é', '\n', '\n', '€', '😀', 'a']).2.2.1 2 ['€', '😀', 'a'] (by decide) 1 (by decide)
  exact ⟨offset, hoffset, hplace, hfirst, hwithin 6 (by decide) fun _ => by decide⟩

end Facts

end TreeLint
