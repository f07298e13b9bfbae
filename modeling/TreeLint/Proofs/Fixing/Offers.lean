/-
The fixes that an analysis offers. An analysis that nobody can call off always has a report, the fixes in
it are well formed, and they do not depend on what was logged before. Main statements: `analyzed_apply`
and `offered_wellFormed`.
-/
import TreeLint.Fixing.Run
import TreeLint.Proofs.Analysis.Checked
import TreeLint.Proofs.Analysis.Log

namespace TreeLint

variable {a : Analyzer} {u : CompilationUnit}

/-! ## Sound findings -/

/-- A finding whose fix, if it has one, is well formed. -/
def Diagnostic.IsSound (d : Diagnostic) : Prop := ∀ f, d.fix = some f → f.isWellFormed = true

namespace Analyzer

theorem withSoundFix_isSound (d : Diagnostic) : (withSoundFix d).IsSound := by
  intro f hf
  unfold withSoundFix at hf
  split at hf
  · rename_i hall
    rw [hf] at hall
    exact hall
  · cases hf

theorem analyze_sound {p : Progress} {report : UnitReport} (h : (a.analyze u p).1 = .ok report) :
    ∀ d ∈ report.diagnostics, d.IsSound := by
  obtain ⟨whole, progress, -, hchecked⟩ := analyzeWith_warnOnly a u p
  rw [hchecked] at h
  cases h
  intro d hd
  obtain ⟨d, -, rfl⟩ := List.mem_map.1 hd
  exact withSoundFix_isSound d

/-! ## Offers -/

/-- The fixes that an analysis offers which nobody can call off. -/
def offered (a : Analyzer) (u : CompilationUnit) : List Fix :=
  match (a.analyze u { isStoppable := false }).1 with
  | .ok report => Workspace.offers report
  | .error _ => []

theorem offered_wellFormed (a : Analyzer) (u : CompilationUnit) : ∀ f ∈ a.offered u, f.isWellFormed = true := by
  intro f hf
  unfold offered at hf
  rcases hreport : (a.analyze u { isStoppable := false }).1 with f' | report <;> rw [hreport] at hf
  · exact absurd hf List.not_mem_nil
  · obtain ⟨d, hd, hdf⟩ := List.mem_filterMap.1 hf
    exact analyze_sound hreport d (List.mem_of_mem_filter hd) f hdf

/-- What a fix run makes of a unit before it turns to the file: a report with the fixes offered, which leaves the files
alone. -/
theorem analyzed_apply (h : a.Unlogged) (u : CompilationUnit) (w : Workspace) : ∃ report log,
    Workspace.analyzed a u w = (.ok report, { w with log }) ∧ Workspace.offers report = a.offered u := by
  obtain ⟨report, hreport⟩ := analyze_total a u { isStoppable := false }
  have hlog := analyze_unlogged h u { isStoppable := false } w.log
  refine ⟨report, (a.analyze u { isStoppable := false, log := w.log }).2.log, ?_, ?_⟩
  · exact Prod.ext (hlog.trans hreport) rfl
  · unfold offered
    rw [hreport]

end Analyzer

end TreeLint
