/-
Diagnostics: what the rules find, where, and how it could be mended.
-/
import TreeLint.Fix.Basic
import TreeLint.Value.Basic

namespace TreeLint

/-- How much a finding matters. -/
inductive Severity
  | warning | error
deriving DecidableEq, Inhabited

/-- The name of a severity. -/
def Severity.name : Severity → String
  | warning => "WARNING"
  | error => "ERROR"

/-- The severity with a name. -/
def Severity.ofName (s : String) : Except Fault Severity :=
  if s = "WARNING" then .ok .warning
  else if s = "ERROR" then .ok .error
  else .error (.notAMember s "Severity")

/-- One finding. `location` is path, line and column of the start of the span. -/
structure Diagnostic where
  rule : String
  severity : Severity
  span : Option Span
  message : String
  fix : Option Fix := none
  location : String := ""
deriving DecidableEq

namespace Diagnostic

/-- Whether the finding comes with a fix that changes anything. -/
def hasFix (d : Diagnostic) : Bool := d.fix.any (!·.isEmpty)

/-- Where a finding stands in a report: by start and end of its span, then by its rule; a finding
without a span stands in front. -/
def sortKey (d : Diagnostic) : Int × Int × String :=
  match d.span with
  | none => (-1, -1, d.rule)
  | some s => (s.start, s.stop, d.rule)

/-- Whether a finding may stand in front of another in a report. -/
def precedes (a b : Diagnostic) : Bool :=
  let (start, stop, rule) := a.sortKey
  let (start', stop', rule') := b.sortKey
  start < start' || start == start' && (stop < stop' || stop == stop' && rule ≤ rule')

/-- A finding as one line. -/
def line (d : Diagnostic) : String :=
  s!"{d.location}: {d.severity.name} [{d.rule}] {d.message}" ++
    if d.hasFix then " (fix available)" else ""

/-- A finding as a data value. -/
def toValue (d : Diagnostic) : Value :=
  .table [
    ("rule_id", .str d.rule),
    ("severity", .str d.severity.name),
    ("location", .str d.location),
    ("span", d.span.elim .null fun s => .list [.int s.start, .int s.stop]),
    ("message", .str d.message),
    ("fix", d.fix.elim .null fun f =>
      .list (f.edits.map fun e => .list [.int e.span.start, .int e.span.stop, .str e.replacement]))
  ]

end Diagnostic

end TreeLint
