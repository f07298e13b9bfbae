/-
Rules: what is looked for in a tree. A rule names the kinds of nodes and the pattern it looks at;
what it makes of a match is a computation that sees the unit and the walk in hand, asks the
resolver, and reports findings.
-/
import TreeLint.Diagnostic
import TreeLint.Fix.Draft
import TreeLint.Pattern.Match
import TreeLint.Walk.Scanner

namespace TreeLint

/-- What is known of a rule without running it. -/
structure RuleInfo where
  id : String
  version : String := "1.0"
  severity : Severity
  summary : String
  kinds : List NodeKind
  pattern : Pattern := .anything

/-- What a rule sees at a match. -/
structure Scene where
  unit : CompilationUnit
  predicates : List Suppression.Predicate
  rule : RuleInfo

/-- The notes of a rule at work: the findings reported so far, and the walk in hand. -/
structure Visit where
  found : List Diagnostic := []
  traversal : Walk

/-- What a rule does at a match. -/
abbrev RuleM := ReaderT Scene (Attempt (Session Visit))

/-- A rule. -/
structure Rule extends RuleInfo where
  /-- Decides whether the rule is asked what it makes of a node. A test other than the pattern may fail. -/
  test : Node → Query (Except Fault Bool) := fun n => .ok <$> pattern.isMatch n
  /-- What the rule makes of a match; the finding that it returns is reported last. -/
  describe : Node → RuleM (Option Diagnostic)

/-! ## What a rule can do -/

namespace RuleM

variable {α : Type}

/-- The answer of the resolver to a question. -/
def ask (q : Query α) : RuleM α := fun _ => Session.ask q

/-- Fails with a fault, or goes on with a result. -/
def ofExcept (x : Except Fault α) : RuleM α := fun _ => Attempt.lift x

/-- Reports a finding. -/
def report (d : Diagnostic) : RuleM Unit := fun _ => Session.note fun v => { v with found := v.found ++ [d] }

/-- The findings reported so far. -/
def reported : RuleM (List Diagnostic) := fun _ => (·.notes.found) <$> Attempt.state

/-- The walk in hand. -/
def traversal : RuleM Walk := fun _ => (·.notes.traversal) <$> Attempt.state

/-- Lets go of a fix whose place could not be found or whose edits conflict. -/
def keepFix (n : Node) (fix : Except Fault (Option Fix)) : RuleM (Option Fix) := do
  match fix with
  | .ok f => return f
  | .error f =>
    if f matches .noSourceSpan _ | .conflictingEdits .. then
      let rule := (← read).rule.id
      fun _ => Session.tell .warning .rules s!"Dropping fix for {rule} at {n.kind.name}: {f.message}"
      return none
    else ofExcept (.error f)

/-- A finding at a node, with the summary of the rule where no other message is given. A node
without a place is found at the nearest node around it that has one. -/
def describeMatch (n : Node) (message : Option String := none) (fix : Except Fault (Option Fix) := .ok none) :
    RuleM Diagnostic := do
  let scene ← read
  let walk ← traversal
  let around := if walk.current.any (·.is n) then walk.ancestors else walk.path
  let span := Source.enclosingSpan scene.unit.source n around
  return {
    rule := scene.rule.id
    severity := scene.rule.severity
    span
    message := (message.filter (· ≠ "")).getD scene.rule.summary
    fix := ← keepFix n fix
    location := Source.location scene.unit span
  }

/-- Handlers for the nodes of some kinds. -/
abbrev Handlers := NodeKind → List (Node → RuleM Unit)

/-- Does something with another walk in hand, and takes up the former one afterwards, also if that failed. -/
def visiting (walk : Walk) (x : Attempt (Session Visit) α) : Attempt (Session Visit) α := do
  let previous := (← Attempt.state).notes.traversal
  Session.note fun v => { v with traversal := walk }
  let result ← Attempt.caught x
  Session.note fun v => { v with traversal := previous }
  Attempt.lift result

/-- A handler that passes over the nodes at which the rule is suppressed. -/
def guarded (scene : Scene) (handle : Node → RuleM Unit) : Handler Visit := fun walk n =>
  if walk.isSuppressed scene.rule.id then return () else visiting walk (handle n scene)

/-- Scans a subtree on behalf of a rule, in a walk of its own: what is suppressed outside is suppressed inside. -/
def scanBelow (root : Node) (handlers : Handlers) : RuleM Unit := fun scene session =>
  let scanner : Scanner Visit := {
    handlers := fun kind => (handlers kind).map (guarded scene)
    predicates := scene.predicates
  }
  let inner : Walk := { suppressed := session.notes.traversal.suppressed }
  let (result, scan) := scanner.scan root { session with walk := inner }
  (result, scan.toSession)

end RuleM

end TreeLint
