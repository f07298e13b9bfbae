/-
Dotted names: a qualified name and its last part.
-/
namespace TreeLint.Text

/-- The part of a dotted name after its last dot. -/
def lastPart (s : String) : String :=
  String.ofList (s.toList.reverse.takeWhile (· ≠ '.')).reverse

end TreeLint.Text
