/-
Sets of characters given by their turning points: the ascending code points at which a property
of characters changes, the first one being the first character that has it.
-/
namespace TreeLint.Text

/-- Whether a character lies in the set with these turning points: an odd number of them is at
most its code point. -/
def insideTurns (turns : List Nat) (c : Char) : Bool :=
  (turns.takeWhile (· ≤ c.toNat)).length % 2 == 1

/-- Before the first turning point nothing has the property. -/
theorem insideTurns_of_lt {t : Nat} {turns : List Nat} {c : Char} (h : c.toNat < t) :
    insideTurns (t :: turns) c = false := by
  have : ¬ t ≤ c.toNat := by omega
  simp [insideTurns, this]

end TreeLint.Text
