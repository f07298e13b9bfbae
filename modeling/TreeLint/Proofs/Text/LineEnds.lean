/-
Line ends and offsets. Reading makes one character of some pairs of characters, so an offset into what is
read stands for another offset into the raw text. Cutting a raw text at such offsets and reading the
piece gives the piece of what is read. Main statement: `readLineEnds_between`.
-/
import TreeLint.Text.Lines

namespace TreeLint.Text

variable {c : Char} {cs : List Char}

/-- How many raw characters the first characters that are read stand for. -/
def rawOffset : List Char → Nat → Nat
  | _, 0 => 0
  | [], _ + 1 => 0
  | '\r' :: '\n' :: cs, n + 1 => rawOffset cs n + 2
  | _ :: cs, n + 1 => rawOffset cs n + 1

@[simp] theorem rawOffset_zero (cs : List Char) : rawOffset cs 0 = 0 := by
  unfold rawOffset
  rfl

theorem readLineEnds_cons (h : ∀ rest, c = '\r' → cs = '\n' :: rest → False) :
    readLineEnds (c :: cs) = (if c = '\r' then '\n' else c) :: readLineEnds cs :=
  readLineEnds.eq_3 c cs h

theorem rawOffset_cons (h : ∀ rest, c = '\r' → cs = '\n' :: rest → False) (n : Nat) :
    rawOffset (c :: cs) (n + 1) = rawOffset cs n + 1 :=
  rawOffset.eq_4 c cs n h

theorem readLineEnds_take (cs : List Char) (n : Nat) :
    readLineEnds (cs.take (rawOffset cs n)) = (readLineEnds cs).take n := by
  fun_induction rawOffset cs n with
  | case1 => rfl
  | case2 => rfl
  | case3 cs n ih => simp [readLineEnds, ih]
  | case4 c cs n h ih =>
    -- the cut makes no pair of a carriage return and a line feed that was none before
    have hcut : ∀ rest, c = '\r' → cs.take (rawOffset cs n) = '\n' :: rest → False := by
      intro rest hc htake
      cases cs with
      | nil => simp at htake
      | cons d ds =>
        cases hk : rawOffset (d :: ds) n with
        | zero => simp [hk] at htake
        | succ k =>
          rw [hk, List.take_succ_cons] at htake
          exact h ds hc (by rw [(List.cons.inj htake).1])
    rw [List.take_succ_cons, readLineEnds_cons hcut, readLineEnds_cons h, List.take_succ_cons, ih]

theorem readLineEnds_drop (cs : List Char) (n : Nat) :
    readLineEnds (cs.drop (rawOffset cs n)) = (readLineEnds cs).drop n := by
  fun_induction rawOffset cs n with
  | case1 => rfl
  | case2 => simp [readLineEnds]
  | case3 cs n ih => simp [readLineEnds, ih]
  | case4 c cs n h ih => rw [List.drop_succ_cons, readLineEnds_cons h, List.drop_succ_cons, ih]

@[simp] theorem rawOffset_nil (n : Nat) : rawOffset [] n = 0 := by
  cases n <;> rfl

theorem rawOffset_add (cs : List Char) (m n : Nat) :
    rawOffset cs (m + n) = rawOffset cs m + rawOffset (cs.drop (rawOffset cs m)) n := by
  fun_induction rawOffset cs m with
  | case1 => simp
  | case2 => simp
  | case3 cs m ih =>
    have hsucc : m.succ + n = m + n + 1 := by omega
    rw [hsucc, rawOffset.eq_3, ih, Nat.add_right_comm]
    rfl
  | case4 c cs m h ih =>
    have hsucc : m.succ + n = m + n + 1 := by omega
    rw [hsucc, rawOffset_cons h, ih, List.drop_succ_cons, Nat.add_right_comm]

theorem rawOffset_mono (cs : List Char) {m n : Nat} (h : m ≤ n) : rawOffset cs m ≤ rawOffset cs n := by
  obtain ⟨k, rfl⟩ := Nat.le.dest h
  rw [rawOffset_add]
  exact Nat.le_add_right ..

/-- Reading what lies between two offsets of a raw text. -/
theorem readLineEnds_between (cs : List Char) {m n : Nat} (h : m ≤ n) :
    readLineEnds ((cs.drop (rawOffset cs m)).take (rawOffset cs n - rawOffset cs m)) =
      ((readLineEnds cs).drop m).take (n - m) := by
  obtain ⟨k, rfl⟩ := Nat.le.dest h
  rw [rawOffset_add, Nat.add_sub_cancel_left, Nat.add_sub_cancel_left, readLineEnds_take, readLineEnds_drop]

end TreeLint.Text
