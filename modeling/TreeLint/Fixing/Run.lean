/-
A fix run: each file is analyzed once, and the fixes of its findings are carried out on it. A file
of which no unit can be made is skipped.
-/
import TreeLint.Analysis.Unit
import TreeLint.Fixing.File

namespace TreeLint

/-- What came of a fix run. -/
structure FixSummary where
  modified : List String := []
  skipped : List String := []
  offered : Nat := 0

namespace Workspace

/-- What a fix run works with. -/
structure Fixer where
  unitOf : FileTree → String → Attempt Log CompilationUnit
  analyzer : Analyzer
  parses : String → Bool

/-- Analyzes one unit; a rule cannot call the work off. -/
def analyzed (a : Analyzer) (u : CompilationUnit) : Attempt Workspace UnitReport := fun w =>
  let (report, progress) := a.analyze u { isStoppable := false, log := w.log }
  (report, { w with log := progress.log })

/-- The fixes in a report. -/
def offers (r : UnitReport) : List Fix :=
  (r.diagnostics.filter (·.hasFix)).filterMap (·.fix)

/-- Analyzes and fixes one file and adds what came of it to the summary. -/
def fixOne (f : Fixer) (summary : FixSummary) (path : String) : Attempt Workspace FixSummary := do
  let files := (← Attempt.state).files
  match ← Attempt.caught (logged (f.unitOf files path)) with
  | .error (.frontEnd message) => do
    logged (Attempt.tell .warning .fixRun s!"Skipping {path}: {message}")
    return { summary with skipped := summary.skipped ++ [path] }
  | .error fault => Attempt.fail fault
  | .ok u => do
    let fixes := offers (← analyzed f.analyzer u)
    if fixes.isEmpty then return summary
    let summary := { summary with offered := summary.offered + fixes.length }
    if ← fixFile f.parses path (fixes.map some) (some u.source) then
      return { summary with modified := summary.modified ++ [path] }
    return summary

/-- Analyzes and fixes files in turn. -/
def fixAll (f : Fixer) (paths : List String) : Attempt Workspace FixSummary :=
  paths.foldlM (fixOne f) {}

end Workspace

end TreeLint
