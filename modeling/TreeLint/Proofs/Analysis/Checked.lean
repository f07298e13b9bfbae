/-
The check of the fixes in an analysis, for rules that hand over what they like. Beside the analysis
runs one that warns of the same fixes but lets them be; the two stay in step, and the report of the
first is that of the second with each fix left out that was warned of. Main statement: `analyze_checked`.
-/
import TreeLint.Proofs.Analysis.Cancellation
import TreeLint.Proofs.Fix.Selection

namespace TreeLint

/-- The edits ascend, and no two of them conflict, neighbours or not. -/
def Fix.IsOrderly (f : Fix) : Prop :=
  f.edits.Pairwise fun a b => a.span.start < b.span.start ∧ a.conflicts b = false

instance (f : Fix) : Decidable f.IsOrderly :=
  inferInstanceAs (Decidable (List.Pairwise _ _))

/-- Looking at neighbours is enough. -/
theorem Fix.isWellFormed_iff {f : Fix} : f.isWellFormed = true ↔ f.IsOrderly := by
  have hpair (a b : Edit) : a.Before b ↔ a.span.start < b.span.start ∧ a.conflicts b = false := by
    constructor
    · intro h
      exact ⟨h.1, (Edit.before_iff_of_precedes h.precedes).1 h⟩
    · rintro ⟨hlt, hfree⟩
      exact (Edit.before_iff_of_precedes (by simp [Edit.precedes, hlt])).2 hfree
  rw [isWellFormed, ascends_iff, IsOrderly, iff_of_eq (congrArg₂ List.Pairwise (funext₂ fun a b => propext (hpair a b)) rfl)]

namespace Session

variable {ν α : Type} {f : ν → ν}

/-- Two sessions that differ in their notes at most: the second has those of the first, put through a function. -/
def Renoted (f : ν → ν) (s t : Session ν) : Prop := t = { s with notes := f s.notes }

theorem ask_renoted (q : Query α) : Attempt.Alike (Renoted f) (ask q) (ask q) := by
  rintro s _ rfl
  exact ⟨rfl, rfl⟩

theorem tell_renoted (level : LogLevel) (channel : Channel) (message : String) :
    Attempt.Alike (Renoted f) (tell level channel message) (tell level channel message) := by
  rintro s _ rfl
  exact ⟨rfl, rfl⟩

theorem note_renoted {g g' : ν → ν} (h : ∀ notes, f (g notes) = g' (f notes)) :
    Attempt.Alike (Renoted f) (note g) (note g') := by
  rintro s _ rfl
  refine ⟨rfl, ?_⟩
  show _ = { s with notes := f (g s.notes) }
  rw [h]
  rfl

theorem goOn_renoted : Attempt.Alike (Renoted f) goOn goOn := by
  intro s t hst
  have hcancelled : t.cancelled = s.cancelled := congrArg (·.cancelled) hst
  cases h : s.cancelled <;> rw [h] at hcancelled
  · rw [goOn_live h, goOn_live hcancelled]
    exact ⟨rfl, hst⟩
  · rw [goOn_stopped h, goOn_stopped hcancelled]
    exact ⟨rfl, hst⟩

end Session

theorem Scanner.arrive_renoted {ν : Type} {f : ν → ν} {sc sc' : Scanner ν} (h : sc'.predicates = sc.predicates) (n : Node) :
    Attempt.Alike (Session.Renoted f) (sc.arrive n) (sc'.arrive n) := by
  unfold arrive
  rw [h]
  refine Session.goOn_renoted.bind fun _ => (Session.ask_renoted _).bind fun s => ?_
  split
  · exact (Session.tell_renoted _ _ _).bind fun _ => .pure none
  · exact .pure (some s)

namespace Analyzer

variable {ν : Type} {a : Analyzer} {u : CompilationUnit} {r : Rule} {walk : Walk} {n : Node}

/-! ## An analysis with a check of one's own -/

/-- What is done about the fix of a finding before the finding is kept. -/
abbrev Check := Diagnostic → Attempt (Session (List Diagnostic)) Diagnostic

/-- `checkFix`, with its warnings, that lets all fixes be. -/
def warnOnly : Check := fun d => do
  let _ ← checkFix d
  return d

/-- `record` with a check of one's own. -/
def recordWith (check : Check) (u : CompilationUnit) (r : Rule) (walk : Walk) (n : Node) :
    Except Fault (List Diagnostic) → Attempt (Session (List Diagnostic)) Unit
  | .ok found => do
    let found ← found.mapM check
    Session.note (· ++ found)
  | .error .cancelled => Attempt.fail .cancelled
  | .error f => do
    Session.tell .warning .unitAnalysis s!"Rule {r.id} failed on {n.kind.name} node in {u.path}"
    Session.note (· ++ [failure u r walk n f])

/-- `tryRule` with a check of one's own. -/
def tryRuleWith (check : Check) (a : Analyzer) (u : CompilationUnit) (r : Rule) : Handler (List Diagnostic) := fun walk n => do
  recordWith check u r walk n (← Attempt.caught (a.trial u r walk n))

/-- `scanner` with a check of one's own. -/
def scannerWith (check : Check) (a : Analyzer) (u : CompilationUnit) : Scanner (List Diagnostic) where
  handlers _ := [fun walk n => forM (a.called walk n) fun r => a.tryRuleWith check u r walk n]
  predicates := a.predicates

/-- `scanUnit` with a check of one's own. -/
def scanUnitWith (check : Check) (a : Analyzer) (u : CompilationUnit) :
    Attempt Progress (List Diagnostic × Except Fault Unit) :=
  fun progress =>
    let (ending, scan) := (a.scannerWith check u).scan u.tree
      { toProgress := progress, resolver := { provenance := a.provenance }, notes := [], walk := {} }
    (.ok (scan.notes, ending), scan.toProgress)

/-- `analyze` with a check of one's own. -/
def analyzeWith (check : Check) (a : Analyzer) (u : CompilationUnit) : Attempt Progress UnitReport := do
  let (found, ending) ← a.scanUnitWith check u
  match ending with
  | .ok () => return { path := u.path, diagnostics := found.mergeSort Diagnostic.precedes }
  | .error .cancelled => do
    Progress.tell .info .unitAnalysis
      s!"Analysis of {u.path} cancelled; discarding {found.length} diagnostic(s)"
    return { path := u.path, cancelled := true }
  | .error f => Attempt.fail f

theorem scannerWith_checkFix (a : Analyzer) (u : CompilationUnit) : a.scannerWith checkFix u = a.scanner u := by
  unfold scannerWith scanner
  congr
  funext _
  congr
  funext walk n
  rw [dispatch_eq]
  rfl

theorem analyzeWith_checkFix (a : Analyzer) (u : CompilationUnit) : a.analyzeWith checkFix u = a.analyze u := by
  have hscan : a.scanUnitWith checkFix u = a.scanUnit u := by
    unfold scanUnitWith
    rw [scannerWith_checkFix]
    rfl
  unfold analyzeWith analyze
  exact hscan ▸ rfl

/-! ## The two in step -/

theorem checkFix_renoted {f : List Diagnostic → List Diagnostic} (d : Diagnostic) :
    Attempt.Alike (Session.Renoted f) (checkFix d) (checkFix d) := by
  unfold checkFix
  split
  · exact .pure d
  · exact (Session.tell_renoted _ _ _).bind fun _ => .pure _

/-- Warning of the fixes leaves the session as checking them does. -/
theorem mapM_warnOnly (ds : List Diagnostic) (s : Session (List Diagnostic)) :
    ds.mapM warnOnly s = (.ok ds, (ds.mapM checkFix s).2) := by
  induction ds generalizing s with
  | nil => rfl
  | cons d ds ih =>
    obtain ⟨log, hd⟩ := checkFix_apply d s
    obtain ⟨log', hds⟩ := mapM_checkFix ds { s with log }
    have hwarn : warnOnly d s = (.ok d, { s with log }) := by
      unfold warnOnly
      rw [Attempt.bind_apply, hd]
      rfl
    rw [List.mapM_cons, List.mapM_cons, Attempt.bind_apply, Attempt.bind_apply, hwarn, hd]
    dsimp only
    rw [Attempt.bind_apply, Attempt.bind_apply, ih, hds]
    rfl

/-- What a rule comes to is recorded by both in step. -/
theorem recordWith_renoted (u : CompilationUnit) (r : Rule) (walk : Walk) (n : Node) (result : Except Fault (List Diagnostic)) :
    Attempt.Alike (Session.Renoted (List.map withSoundFix)) (recordWith warnOnly u r walk n result)
      (recordWith checkFix u r walk n result) := by
  unfold recordWith
  split
  · rename_i found
    intro s t hst
    have hchecked : Attempt.Alike (Session.Renoted (List.map withSoundFix)) (found.mapM checkFix) (found.mapM checkFix) :=
      .mapM fun d _ => checkFix_renoted d
    obtain ⟨-, hend⟩ := hchecked s t hst
    obtain ⟨log, ht⟩ := mapM_checkFix found t
    rw [Attempt.bind_apply, Attempt.bind_apply, mapM_warnOnly, ht]
    rw [ht] at hend
    have hnote : Attempt.Alike (Session.Renoted (List.map withSoundFix)) (Session.note (· ++ found))
        (Session.note (· ++ found.map withSoundFix)) := Session.note_renoted fun notes => List.map_append
    exact hnote _ _ hend
  · exact .fail _
  · -- the finding of a failure has no fix
    exact (Session.tell_renoted _ _ _).bind fun _ => Session.note_renoted fun notes => List.map_append

theorem tryRuleWith_renoted (a : Analyzer) (u : CompilationUnit) (r : Rule) (walk : Walk) (n : Node) :
    Attempt.Alike (Session.Renoted (List.map withSoundFix)) (a.tryRuleWith warnOnly u r walk n)
      (a.tryRuleWith checkFix u r walk n) := by
  rintro s _ rfl
  -- the rule itself sees none of the findings made before it, so that both trials are one
  exact recordWith_renoted u r walk n (a.trial u r walk n s).1 (a.trial u r walk n s).2 _ rfl

theorem scannerWith_alike (a : Analyzer) (u : CompilationUnit) :
    Scanner.Alike (Session.Renoted (List.map withSoundFix)) (fun _ => True) (a.scannerWith warnOnly u)
      (a.scannerWith checkFix u) where
  below _ _ _ _ := trivial
  arrive n _ := Scanner.arrive_renoted rfl n
  handlers n _ walk _ := .cons (.forM (List.forall₂_same.2 fun r _ => tryRuleWith_renoted a u r walk n)) .nil

/-! ## The reports -/

theorem scanUnitWith_eq (check : Check) (a : Analyzer) (u : CompilationUnit) (p : Progress) :
    a.scanUnitWith check u p = (.ok (((a.scannerWith check u).tour {} u.tree (a.fresh p)).2.notes,
        ((a.scannerWith check u).tour {} u.tree (a.fresh p)).1),
      ((a.scannerWith check u).tour {} u.tree (a.fresh p)).2.toProgress) := by
  rw [← (Scanner.scan_roundTrip (a.scannerWith check u) u.tree).session (a.fresh p) {}]
  rfl

theorem mergeSort_withSoundFix (ds : List Diagnostic) :
    (ds.map withSoundFix).mergeSort Diagnostic.precedes = (ds.mergeSort Diagnostic.precedes).map withSoundFix := by
  refine (List.map_mergeSort fun d _ d' _ => ?_).symm
  rw [Diagnostic.precedes, Diagnostic.precedes, withSoundFix_sortKey, withSoundFix_sortKey]

/-- The two analyses leave the same progress behind, and their reports differ in the fixes that are let go of. -/
theorem analyzeWith_warnOnly (a : Analyzer) (u : CompilationUnit) (p : Progress) : ∃ whole progress,
    a.analyzeWith warnOnly u p = (.ok whole, progress) ∧
    a.analyze u p = (.ok { whole with diagnostics := whole.diagnostics.map withSoundFix }, progress) := by
  obtain ⟨hres, hend⟩ := (scannerWith_alike a u).tour.1 u.tree {} trivial (Walk.within_start _ ∅) (a.fresh p) _ rfl
  have hown := tour_unfailing a u (a.fresh p)
  rw [← analyzeWith_checkFix]
  rw [← scannerWith_checkFix] at hown
  unfold analyzeWith
  rw [Attempt.bind_apply, Attempt.bind_apply, scanUnitWith_eq, scanUnitWith_eq]
  rcases hw : (a.scannerWith warnOnly u).tour {} u.tree (a.fresh p) with ⟨r, s⟩
  rcases hc : (a.scannerWith checkFix u).tour {} u.tree (a.fresh p) with ⟨r', t⟩
  have hfresh : { a.fresh p with notes := (a.fresh p).notes.map withSoundFix } = a.fresh p := rfl
  rw [hfresh, hw, hc] at hres hend
  rw [hc] at hown
  obtain rfl : r = r' := hres
  obtain rfl : t = { s with notes := s.notes.map withSoundFix } := hend
  rcases r with f | _
  · obtain rfl : f = .cancelled := hown f rfl
    refine ⟨{ path := u.path, cancelled := true }, _, rfl, ?_⟩
    -- as many findings are discarded
    dsimp only
    rw [List.length_map]
    rfl
  · refine ⟨_, _, rfl, ?_⟩
    dsimp only
    rw [← mergeSort_withSoundFix]
    rfl

theorem withSoundFix_cases (d : Diagnostic) :
    withSoundFix d = d ∧ (∀ f, d.fix = some f → f.IsOrderly) ∨
      withSoundFix d = { d with fix := none } ∧ ∃ f, d.fix = some f ∧ ¬ f.IsOrderly := by
  unfold withSoundFix
  rcases hd : d.fix with _ | f
  · exact .inl ⟨rfl, fun _ h => nomatch h⟩
  · by_cases hf : f.isWellFormed = true
    · refine .inl ⟨if_pos hf, fun f' hf' => ?_⟩
      cases hf'
      exact Fix.isWellFormed_iff.1 hf
    · exact .inr ⟨if_neg hf, f, rfl, fun h => hf (Fix.isWellFormed_iff.2 h)⟩

/-- Whatever the rules of an analysis hand over, the fixes in its report are orderly. Had fixes that are not
orderly only been warned of, the report would be the same, findings and order, but for these fixes; a finding
with any other fix, or with none, is left as it is. So fixes of a report, in whatever order, can be merged. -/
theorem analyze_checked (a : Analyzer) (u : CompilationUnit) (p : Progress) : ∃ report whole progress,
    a.analyze u p = (.ok report, progress) ∧ a.analyzeWith warnOnly u p = (.ok whole, progress) ∧
    report.path = whole.path ∧ report.cancelled = whole.cancelled ∧
    List.Forall₂ (fun d d' => d' = d ∧ (∀ f, d.fix = some f → f.IsOrderly) ∨
      d' = { d with fix := none } ∧ ∃ f, d.fix = some f ∧ ¬ f.IsOrderly) whole.diagnostics report.diagnostics ∧
    (∀ d ∈ report.diagnostics, ∀ f, d.fix = some f → f.IsOrderly) ∧
    ∀ fixes : List (Option Fix), (∀ f, some f ∈ fixes → ∃ d ∈ report.diagnostics, d.fix = some f) →
      ∀ log, ∃ m, (Fix.mergeAll fixes log).1 = .ok m := by
  obtain ⟨whole, progress, hwarned, hchecked⟩ := analyzeWith_warnOnly a u p
  have horderly : ∀ d ∈ whole.diagnostics.map withSoundFix, ∀ f, d.fix = some f → f.IsOrderly := by
    intro d hd f hf
    obtain ⟨d, -, rfl⟩ := List.mem_map.1 hd
    rcases withSoundFix_cases d with ⟨heq, hall⟩ | ⟨heq, -⟩ <;> rw [heq] at hf
    · exact hall f hf
    · cases hf
  refine ⟨_, whole, progress, hchecked, hwarned, rfl, rfl, ?_, horderly, fun fixes hfixes log => ?_⟩
  · rw [List.forall₂_map_right_iff, List.forall₂_same]
    exact fun d _ => withSoundFix_cases d
  · rw [Fix.mergeAll_fst]
    refine Fix.mergeAll_succeeds fun f hf => ?_
    obtain ⟨d, hd, hdf⟩ := hfixes f hf
    exact Fix.isWellFormed_iff.2 (horderly d hd f hdf)

end Analyzer

end TreeLint
