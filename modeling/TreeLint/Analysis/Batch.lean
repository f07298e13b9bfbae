/-
The analysis of many units. They share nothing but the call to stop, so the reports are those of
the units one by one, in their order, however many workers share the work.
-/
import TreeLint.Analysis.Unit

namespace TreeLint.Analyzer

/-- Analyzes units with a number of workers. -/
def analyzeAll (a : Analyzer) (workers : Nat) (units : List CompilationUnit) :
    Attempt Progress (List UnitReport) := do
  if 1 < workers ∧ 1 < units.length then
    Progress.tell .debug .batchAnalysis
      s!"Analyzing {units.length} unit(s) on {min workers units.length} worker(s)"
  units.mapM a.analyze

end TreeLint.Analyzer
