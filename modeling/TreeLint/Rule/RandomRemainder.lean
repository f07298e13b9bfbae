/-
The rule against remainders of unbounded random draws. A draw may be negative, and so may its
remainder; the generator has a bounded draw, which takes the modulus as its argument.
-/
import TreeLint.Rule.Basic

namespace TreeLint.RandomRemainder

/-- The names the rule goes by. -/
structure Names where
  generatorType : String
  method : String

/-- Whether a receiver of a kind stands without parentheses. -/
def isPrimary (k : NodeKind) : Bool := k matches .identifier | .memberAccess | .invocation | .literal

/-- An unbounded draw. -/
def draw (names : Names) : CallPattern :=
  CallPattern.narrowAll { isStatic := false }
    [.onDescendantOf names.generatorType, .named names.method, .withArgumentCount 0]

/-- The text of a receiver in front of a dot. -/
def receiverText (source : String) (receiver : Node) : Except Fault String := do
  let text ← Source.textOf source receiver
  return if isPrimary receiver.kind then text else s!"({text})"

/-- The bounded draw in the place of a remainder. -/
def boundedDraw (source method : String) (remainder modulus : Node) (receiver : Option Node) :
    Except Fault Fix := do
  let modulus ← Source.textOf source modulus
  let call := s!"{method}({modulus})"
  match receiver with
  | none => Fix.build source [.replace remainder call]
  | some receiver => do
    let receiver ← receiverText source receiver
    Fix.build source [.replace remainder s!"{receiver}.{call}"]

/-- The rule. -/
def rule (names : Names) : Rule where
  id := "RandomModInteger"
  severity := .error
  summary := s!"Use {names.method}(int). {names.method}() % n can have negative results"
  kinds := [.binary]
  pattern := Pattern.and (.binary "%") (.left (.call (draw names)))
  describe n := do
    let (some invocation, some modulus) := (n.children[0]?, n.children[1]?) | return none
    let method := ((invocation.callee.bind (·.name)).filter (· ≠ "")).getD names.method
    let source := (← read).unit.source
    some <$> RuleM.describeMatch n none (some <$> boundedDraw source method n modulus invocation.receiver)

end TreeLint.RandomRemainder
