/-
Places in a source text: which spans of nodes lie in it, what text they cover, and on which line
and column they start.
-/
import TreeLint.Text.Lines
import TreeLint.Tree.Unit

namespace TreeLint

namespace Source

/-- The text that a span covers, as far as the source reaches. -/
def slice (source : String) (s : Span) : String :=
  String.ofList ((source.toList.drop s.start).take (s.stop - s.start))

/-- The span of a node, if it has one inside the source. -/
def span? (source : String) (n : Node) : Option Span :=
  n.span.filter (·.stop ≤ source.length)

/-- Whether a node has a span inside the source. -/
def hasSpan (source : String) (n : Node) : Bool :=
  (span? source n).isSome

/-- The span of a node; a node without one is a fault. -/
def spanOf (source : String) (n : Node) : Except Fault Span :=
  match span? source n with
  | some s => .ok s
  | none => .error (.noSourceSpan n.kind)

/-- The text of a node. -/
def textOf (source : String) (n : Node) : Except Fault String :=
  slice source <$> spanOf source n

/-- The span of a node, else of the first of its ancestors, from the inside out, that has one. -/
def enclosingSpan (source : String) (n : Node) (ancestors : List Node) : Option Span :=
  (n :: ancestors).findSome? (span? source)

/-- Where a span starts, as path, line and column; line 0 and column 0 stand for no span. -/
def location (u : CompilationUnit) : Option Span → String
  | none => s!"{u.path}:0:0"
  | some s =>
    let (line, col) := Text.lineCol u.source.toList s.start
    s!"{u.path}:{line}:{col}"

end Source

end TreeLint
