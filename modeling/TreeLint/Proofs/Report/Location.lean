/-
The locations in a report. A location tells the line and the column at which a span starts, and these tell the
offset; a span that starts further on is told further down, or further right on the same line. Main statements:
`Source.location_eq_iff` and `Source.place_le`.
-/
import Mathlib.Data.List.Basic
import TreeLint.Proofs.Facts.LineCol
import TreeLint.Source

namespace TreeLint

/-! ## Lines and columns -/

/-- The offset of a line and a column. -/
def Text.offsetOf (cs : List Char) (place : Nat × Nat) : Nat :=
  lengthOfLines ((lines cs).take (place.1 - 1)) + place.2

theorem Text.offsetOf_lineCol {cs : List Char} {offset : Nat} (h : offset ≤ cs.length) :
    1 ≤ (lineCol cs offset).1 ∧ offsetOf cs (lineCol cs offset) = offset := by
  have hlt : offset < lengthOfLines (lines cs) := by
    rw [lengthOfLines_lines]
    omega
  obtain ⟨index, l, col, hl, hcol, rfl⟩ := exists_line hlt
  rw [lineCol_of_line hl hcol]
  exact ⟨by simp, by simp [offsetOf]⟩

namespace Source

variable {u : CompilationUnit} {s t : Span}

/-- The line and the column that are told of a span; line 0 and column 0 stand for no span. -/
def place (u : CompilationUnit) : Option Span → Nat × Nat
  | none => (0, 0)
  | some s => Text.lineCol u.source.toList s.start

theorem offsetOf_place (h : s.stop ≤ u.source.length) :
    1 ≤ (place u (some s)).1 ∧ Text.offsetOf u.source.toList (place u (some s)) = s.start := by
  have := s.start_le_stop
  exact Text.offsetOf_lineCol (by rw [String.length_toList]; omega)

/-- Among the spans in the source and no span at all, only no span is told to be at line 0. -/
theorem place_eq_zero_iff {span : Option Span} (h : ∀ s ∈ span, s.stop ≤ u.source.length) :
    place u span = (0, 0) ↔ span = none := by
  cases span with
  | none => simp [place]
  | some s =>
    obtain ⟨hline, -⟩ := offsetOf_place (h s rfl)
    refine ⟨fun hzero => ?_, nofun⟩
    rw [hzero] at hline
    omega

/-- No span comes first, and then the places follow one another as the offsets do. -/
theorem place_le {span span' : Option Span} (hnone : span' = none → span = none)
    (hstart : ∀ s ∈ span, ∀ t ∈ span', s.start ≤ t.start) : toLex (place u span) ≤ toLex (place u span') := by
  rw [Prod.Lex.toLex_le_toLex]
  rcases span with _ | s <;> rcases span' with _ | t
  · simp [place]
  · simp only [place]
    omega
  · exact absurd (hnone rfl) (by simp)
  · rcases Nat.lt_or_eq_of_le (hstart s rfl t rfl) with hlt | heq
    · have := Text.lineCol_lt u.source.toList hlt
      simp only [place]
      omega
    · simp [place, heq]

/-! ## How they are written -/

theorem not_mem_repr (n : Nat) : ':' ∉ n.repr.toList := by
  rw [Nat.toList_repr]
  intro h
  exact absurd (Nat.isDigit_of_mem_toDigits (by omega) (by omega) h) (by decide)

theorem repr_inj {m n : Nat} (h : m.repr.toList = n.repr.toList) : m = n := by
  rw [Nat.toList_repr, Nat.toList_repr] at h
  rw [← Nat.ofDigitChars_toDigits (b := 10) (n := m) (by omega) (by omega), h,
    Nat.ofDigitChars_toDigits (by omega) (by omega)]

/-- A line and a column behind the path of a unit can be read again. -/
theorem told_eq_iff (path : String) (line col l c : Nat) :
    s!"{path}:{line}:{col}" = s!"{path}:{l}:{c}" ↔ line = l ∧ col = c := by
  have htold (line col : Nat) :
      s!"{path}:{line}:{col}".toList = path.toList ++ ':' :: (line.repr.toList ++ ':' :: col.repr.toList) := by
    change (path ++ ":" ++ line.repr ++ ":" ++ col.repr).toList = _
    simp [String.toList_append]
  rw [← String.toList_inj, htold, htold, List.append_cancel_left_eq, List.cons_inj_right,
    List.append_cons_inj_of_notMem (not_mem_repr line) (not_mem_repr col)]
  constructor
  · rintro ⟨hline, -, hcol⟩
    exact ⟨repr_inj hline, repr_inj hcol⟩
  · rintro ⟨rfl, rfl⟩
    exact ⟨rfl, rfl, rfl⟩

/-- A location tells a line and a column just if they are those of the span. -/
theorem location_eq_iff (u : CompilationUnit) (span : Option Span) (line col : Nat) :
    location u span = s!"{u.path}:{line}:{col}" ↔ place u span = (line, col) := by
  have hplace : location u span = s!"{u.path}:{(place u span).1}:{(place u span).2}" := by
    cases span with
    | none =>
      change u.path ++ ":0:0" = u.path ++ ":" ++ (0 : Nat).repr ++ ":" ++ (0 : Nat).repr
      rw [show (0 : Nat).repr = "0" from rfl]
      simp only [String.append_assoc]
      rfl
    | some s => rfl
  rw [hplace, told_eq_iff, Prod.ext_iff]

/-- Only no span is told at line 0 and column 0. -/
theorem location_eq_none_iff {span : Option Span} (h : ∀ s ∈ span, s.stop ≤ u.source.length) :
    location u span = location u none ↔ span = none := by
  rw [(location_eq_iff u none 0 0).2 rfl, location_eq_iff, place_eq_zero_iff h]

end Source

end TreeLint
