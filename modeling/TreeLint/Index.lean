/-
Positions in a list, as data refer to them: they count from 0, and negative ones from the end. Main
statements: a position from the front stands for itself, one from the end for the index that lies as
far from the end, and positions beyond the reach of any list are told apart from those that one list
does not have.
-/
import TreeLint.Fault

namespace TreeLint

/-- The first number that no list reaches; positions are whole numbers of 64 bits with a sign. -/
def positionLimit : Int := 0x8000000000000000

/-- The index that a position stands for in a list of some length. -/
def indexOf (length : Nat) (position : Int) : Except Fault (Fin length) :=
  if position < -positionLimit ∨ positionLimit ≤ position then .error .beyondPositions
  else
    let index := if position < 0 then position + length else position
    if h : 0 ≤ index ∧ index < length then .ok ⟨index.toNat, by omega⟩ else .error .noSuchPosition

/-- What is at a position. -/
def entryAt {α : Type} (entries : Array α) (position : Int) : Except Fault α :=
  (fun index => entries[index]) <$> indexOf entries.size position

theorem indexOf_front {length i : Nat} (h : i < length) (hi : (i : Int) < positionLimit) :
    indexOf length i = .ok ⟨i, h⟩ := by
  have hr : ¬ ((i : Int) < -positionLimit ∨ positionLimit ≤ (i : Int)) := by
    unfold positionLimit at *; omega
  have hn : ¬ ((i : Int) < 0) := by omega
  have hb : (0 : Int) ≤ i ∧ (i : Int) < length := by omega
  simp only [indexOf, if_neg hr, if_neg hn, dif_pos hb, Int.toNat_natCast]

theorem indexOf_back {length i : Nat} (h : i < length) (hi : (i : Int) < positionLimit) :
    indexOf length (-(i + 1)) = .ok ⟨length - (i + 1), by omega⟩ := by
  have hr : ¬ (-((i : Int) + 1) < -positionLimit ∨ positionLimit ≤ -((i : Int) + 1)) := by
    unfold positionLimit at *; omega
  have hn : -((i : Int) + 1) < 0 := by omega
  have hb : 0 ≤ -((i : Int) + 1) + length ∧ -((i : Int) + 1) + length < length := by omega
  have ht : (-((i : Int) + 1) + length).toNat = length - (i + 1) := by omega
  simp only [indexOf, if_neg hr, if_pos hn, dif_pos hb, ht]

theorem indexOf_beyond {position : Int} (h : position < -positionLimit ∨ positionLimit ≤ position)
    (length : Nat) : indexOf length position = .error .beyondPositions :=
  if_pos h

end TreeLint
