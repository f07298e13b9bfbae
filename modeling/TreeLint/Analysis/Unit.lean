/-
The analysis of one unit: every rule is tried at every node of the kinds that it looks at. A rule
that fails at a node leaves one finding there, that it failed, in the place of those it reported;
an analysis that is called off has no findings at all.
-/
import TreeLint.Rule.Registry

namespace TreeLint

/-- The findings in one unit, in the order of their places. -/
structure UnitReport where
  path : String
  diagnostics : List Diagnostic := []
  cancelled : Bool := false
deriving DecidableEq

namespace UnitReport

/-- Whether a finding is an error. -/
def hasErrors (r : UnitReport) : Bool := r.diagnostics.any (·.severity = .error)

/-- The findings of a rule. -/
def byRule (r : UnitReport) (rule : String) : List Diagnostic := r.diagnostics.filter (·.rule = rule)

end UnitReport

/-- The rules to try, what to pass over, and where the provenance of symbols comes from. -/
structure Analyzer where
  rules : RuleSet
  predicates : List Suppression.Predicate
  provenance : Provenance := declaredProvenance

namespace Analyzer

/-! ## One rule at one node -/

/-- The id under which a failure of a rule is found. -/
def failureRule : String := "RuleFailure"

/-- What a rule makes of a node: the findings that it reports, then the one that it returns. -/
def findings (r : Rule) (n : Node) : RuleM (List Diagnostic) := do
  if !(← RuleM.ofExcept (← RuleM.ask (r.test n))) then return []
  let last ← r.describe n
  return (← RuleM.reported) ++ last.toList

/-- The finding that a rule failed at a node. -/
def failure (u : CompilationUnit) (r : Rule) (walk : Walk) (n : Node) (f : Fault) : Diagnostic :=
  let span := Source.enclosingSpan u.source n walk.ancestors
  { rule := failureRule
    severity := .warning
    span
    message := s!"Rule {r.id} failed on {n.kind.name} node: {f.label}: {f.message}"
    location := Source.location u span }

/-- Lets go of a fix that is not well formed. -/
def checkFix {ν : Type} (d : Diagnostic) : Attempt (Session ν) Diagnostic := do
  if d.fix.all (·.isWellFormed) then return d
  Session.tell .warning .unitAnalysis s!"Dropping malformed fix from {d.rule} at {d.location}"
  return { d with fix := none }

/-- Tries a rule at a node and notes what it finds. Only a call to stop gets past it. -/
def tryRule (a : Analyzer) (u : CompilationUnit) (r : Rule) : Handler (List Diagnostic) := fun walk n => do
  let scene : Scene := { unit := u, predicates := a.predicates, rule := r.toRuleInfo }
  match ← Attempt.caught (Session.aside { traversal := walk : Visit } (findings r n scene)) with
  | .ok found => do
    let found ← found.mapM checkFix
    Session.note (· ++ found)
  | .error .cancelled => Attempt.fail .cancelled
  | .error f => do
    Session.tell .warning .unitAnalysis s!"Rule {r.id} failed on {n.kind.name} node in {u.path}"
    Session.note (· ++ [failure u r walk n f])

/-! ## The whole unit -/

/-- Tries the rules that look at the kind of a node and are not suppressed there. -/
def dispatch (a : Analyzer) (u : CompilationUnit) : Handler (List Diagnostic) := fun walk n => do
  for r in a.rules.forKind n.kind do
    if !walk.isSuppressed r.id then a.tryRule u r walk n

/-- The scanner that tries the rules. -/
def scanner (a : Analyzer) (u : CompilationUnit) : Scanner (List Diagnostic) where
  handlers _ := [a.dispatch u]
  predicates := a.predicates

/-- Scans a unit with a fresh resolver; the result is the findings made until the scan ended, and
how it ended. -/
def scanUnit (a : Analyzer) (u : CompilationUnit) : Attempt Progress (List Diagnostic × Except Fault Unit) :=
  fun progress =>
    let (ending, scan) := (a.scanner u).scan u.tree
      { toProgress := progress, resolver := { provenance := a.provenance }, notes := [], walk := {} }
    (.ok (scan.notes, ending), scan.toProgress)

/-- Analyzes a unit. -/
def analyze (a : Analyzer) (u : CompilationUnit) : Attempt Progress UnitReport := do
  let (found, ending) ← a.scanUnit u
  match ending with
  | .ok () => return { path := u.path, diagnostics := found.mergeSort Diagnostic.precedes }
  | .error .cancelled => do
    Progress.tell .info .unitAnalysis
      s!"Analysis of {u.path} cancelled; discarding {found.length} diagnostic(s)"
    return { path := u.path, cancelled := true }
  | .error f => Attempt.fail f

end Analyzer

end TreeLint
