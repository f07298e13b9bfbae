/-
Analyses that are called off. An analysis whose rules leave the call to stop alone has all of its findings or
none: none if it arrives at a node after the call, in the walk over the unit or in a scan that a rule starts,
and otherwise all. Of units analyzed one after the other, those behind the first that is called off are called
off as well. Main statement: `analyze_all_or_nothing`.
-/
import TreeLint.Analysis.Batch
import TreeLint.Proofs.Analysis.Isolation
import TreeLint.Proofs.Rule.Routine

namespace TreeLint

variable {ν α β : Type}

/-! ## Work that fails only if it is called off -/

/-- A computation that does not fail, unless it is called off. -/
def Attempt.Unfailing {σ : Type} (x : Attempt σ α) : Prop := ∀ s, FailsOnly (· = .cancelled) (x s).1

namespace Attempt

variable {σ : Type}

theorem Unfailing.pure (a : α) : (pure a : Attempt σ α).Unfailing := fun _ _ h => nomatch h

theorem Unfailing.bind {x : Attempt σ α} {f : α → Attempt σ β} (hx : x.Unfailing) (hf : ∀ a, (f a).Unfailing) :
    (x >>= f).Unfailing := by
  intro s e h
  have hfail := hx s
  rw [bind_apply] at h
  rcases hend : x s with ⟨g | a, t⟩ <;> rw [hend] at h hfail
  · exact hfail e (congrArg _ (Except.error.inj h))
  · exact hf a t e h

theorem Unfailing.forM {ι : Type} {f : ι → Attempt σ PUnit} :
    ∀ {is : List ι}, (∀ i ∈ is, (f i).Unfailing) → (forM is f).Unfailing
  | [], _ => .pure ()
  | i :: is, h => by
    rw [List.forM_cons]
    exact (h i List.mem_cons_self).bind fun _ => Unfailing.forM fun j hj => h j (List.mem_cons_of_mem i hj)

end Attempt

namespace Scanner

variable {sc : Scanner ν}

theorem arrive_unfailing (n : Node) : (sc.arrive n).Unfailing := by
  refine Attempt.Unfailing.bind (fun s f h => ?_) fun _ => ?_
  · cases hs : s.cancelled
    · rw [Session.goOn_live hs] at h
      cases h
    · rw [Session.goOn_stopped hs] at h
      cases h
      rfl
  · refine Attempt.Unfailing.bind (fun _ _ h => nomatch h) fun s => ?_
    split
    · exact .bind (fun _ _ h => nomatch h) fun _ => .pure none
    · exact .pure (some s)

theorem tour_unfailing (h : ∀ walk n, (sc.callAll walk n).Unfailing) :
    (∀ (n : Node) (walk : Walk), (sc.tour walk n).Unfailing) ∧
    ∀ (ns : List Node) (walk : Walk), (sc.tourAll walk ns).Unfailing := by
  refine Node.forest_induction (fun n ih walk => ?_) (fun _ => .pure ()) fun n ns ihn ihns walk => ?_
  · rw [tour_eq]
    refine (arrive_unfailing n).bind fun arrived => ?_
    cases arrived with
    | none => exact .pure ()
    | some s => exact (h _ n).bind fun _ => ih _
  · exact (ihn walk).bind fun _ => ihns walk

end Scanner

def Progress.token (p : Progress) : Token := ⟨p.isStoppable, p.cancelled⟩

/-- The same progress, for work that nobody can call off. -/
def Progress.unstoppable (p : Progress) : Progress := { p with isStoppable := false, cancelled := false }

namespace Analyzer

variable {a : Analyzer} {u : CompilationUnit} {work : Rule → RuleWork}

/-- An analyzer whose rules leave the call to stop alone. -/
def Follows (a : Analyzer) (work : Rule → RuleWork) : Prop := ∀ kind, ∀ r ∈ a.rules.forKind kind, r.Follows (work r)

/-! ## The analysis as a routine -/

def findingsRoutine (r : Rule) (work : RuleWork) (n : Node) (scene : Scene) : Routine Visit (List Diagnostic) :=
  .bind (.act (Session.ask (r.test n) >>= Attempt.lift)) fun found =>
    if !found then .act (pure []) else .bind (work n scene) fun last =>
      .bind (.act (RuleM.reported scene)) fun reported => .act (pure (reported ++ last.toList))

def trialRoutine (a : Analyzer) (u : CompilationUnit) (r : Rule) (work : RuleWork) (walk : Walk) (n : Node) :
    Routine (List Diagnostic) (List Diagnostic) :=
  .through (fun _ => { traversal := walk : Visit }) (fun former _ => former) (findingsRoutine r work n (a.sceneFor u r))

def tryRoutine (a : Analyzer) (u : CompilationUnit) (r : Rule) (work : RuleWork) (walk : Walk) (n : Node) :
    Routine (List Diagnostic) Unit :=
  .bind (.caught (a.trialRoutine u r work walk n)) fun result => .act (record u r walk n (result.mapError (·.1)))

/-- The analysis of a unit, given what its rules do. -/
def routine (a : Analyzer) (u : CompilationUnit) (work : Rule → RuleWork) : Routine (List Diagnostic) Unit :=
  .tour a.predicates (fun walk n => .each (a.called walk n) fun r => a.tryRoutine u r (work r) walk n) {} u.tree

theorem checkFix_blind (d : Diagnostic) : (checkFix d : Attempt (Session ν) Diagnostic).Blind := by
  unfold checkFix
  split
  · exact .pure d
  · exact (Attempt.Blind.tell _ _ _).bind fun _ => .pure _

theorem record_blind {r : Rule} {walk : Walk} {n : Node} (result : Except OwnFault (List Diagnostic)) :
    (record u r walk n (result.mapError (·.1))).Blind := by
  rcases result with ⟨f, hf⟩ | found
  · show (record u r walk n (.error f)).Blind
    unfold record
    split
    · rename_i hcontra
      cases hcontra
    · rename_i hcontra
      exact absurd (Except.error.inj hcontra) hf
    · exact (Attempt.Blind.tell _ _ _).bind fun _ => .note _
  · exact (Attempt.Blind.mapM checkFix_blind found).bind fun _ => .note _

section

variable {r : Rule} {w : RuleWork} (h : r.Follows w)
include h

theorem run_findingsRoutine (n : Node) (scene : Scene) : (findingsRoutine r w n scene).run = findings r n scene := by
  rw [findings_eq, findingsRoutine, Routine.run, Routine.run, bind_assoc]
  congr 1
  funext tested
  congr 1
  funext found
  cases found
  · rfl
  · simp only [h.describe]
    rfl

theorem run_trialRoutine (walk : Walk) (n : Node) : (a.trialRoutine u r w walk n).run = a.trial u r walk n := by
  rw [trialRoutine, Routine.run, run_findingsRoutine h]
  exact (Session.aside_eq _ _).symm

theorem run_tryRoutine (walk : Walk) (n : Node) : (a.tryRoutine u r w walk n).run = a.tryRule u r walk n := by
  funext s
  rw [tryRule_apply, tryRoutine, Routine.run, Attempt.bind_apply, Routine.run_caught_apply, run_trialRoutine h]
  rcases a.trial u r walk n s with ⟨f | found, t⟩
  · by_cases hf : f = .cancelled
    · cases hf
      rfl
    · rw [Routine.settle, dif_neg hf]
      rfl
  · rfl

theorem tryRoutine_heedless (walk : Walk) (n : Node) : (a.tryRoutine u r w walk n).Heedless := by
  refine ⟨⟨⟨fun _ _ => rfl, fun s => h.test n s.resolver⟩, fun found => ?_⟩, fun result => ?_⟩
  · cases found
    · exact .pure []
    · exact ⟨h.heedless n _, fun last => ⟨RuleM.reported_blind _, fun reported => .pure _⟩⟩
  · exact record_blind result

end

theorem callAll_scanner (a : Analyzer) (u : CompilationUnit) (walk : Walk) (n : Node) :
    (a.scanner u).callAll walk n = forM (a.called walk n) fun r => a.tryRule u r walk n := by
  rw [← dispatch_eq]
  exact Attempt.andThen_done (a.dispatch u walk n)

theorem run_routine (h : a.Follows work) : (a.routine u work).run = (a.scanner u).tour {} u.tree := by
  refine (Routine.run_tour (a.scanner u) fun walk n => ?_).1 u.tree {}
  rw [callAll_scanner]
  exact Routine.run_each fun r hr => run_tryRoutine (h _ r (List.mem_of_mem_filter hr)) walk n

theorem routine_heedless (h : a.Follows work) : (a.routine u work).Heedless := by
  refine (Routine.tour_heedless (fun walk n => Routine.each_heedless fun r hr => ?_) a.predicates).1 u.tree {}
  exact tryRoutine_heedless (h _ r (List.mem_of_mem_filter hr)) walk n

/-- An analysis does not fail, whatever its rules do. -/
theorem tour_unfailing (a : Analyzer) (u : CompilationUnit) : ((a.scanner u).tour {} u.tree).Unfailing := by
  refine (Scanner.tour_unfailing fun walk n => ?_).1 u.tree {}
  rw [callAll_scanner]
  refine Attempt.Unfailing.forM fun r _ s f hf => ?_
  by_cases hc : (a.trial u r walk n s).1 = .error .cancelled
  · rw [tryRule_apply, hc] at hf
    cases hf
    rfl
  · obtain ⟨log, hkept⟩ := tryRule_kept hc
    rw [hkept] at hf
    cases hf

/-! ## One unit -/

/-- The arrivals and the calls to stop in the analysis of a unit that nobody can call off. -/
def events (a : Analyzer) (u : CompilationUnit) (work : Rule → RuleWork) (p : Progress) : List Event :=
  (a.routine u work).events (a.fresh p.unstoppable)

theorem analyze_ok {p : Progress} {t : Session (List Diagnostic)}
    (h : (a.scanner u).tour {} u.tree (a.fresh p) = (.ok (), t)) :
    a.analyze u p = (.ok { path := u.path, diagnostics := t.notes.mergeSort Diagnostic.precedes }, t.toProgress) := by
  rw [analyze, Attempt.bind_apply, scanUnit_eq, h]
  rfl

/-- An analysis that hears of no call to stop leaves the same progress as one that nobody can call off, but for
the token; one that hears of it leaves it called off. -/
theorem analyze_token (h : a.Follows work) (u : CompilationUnit) (p : Progress) :
    ∃ whole log, whole.path = u.path ∧ whole.cancelled = false ∧
      a.analyze u p.unstoppable = (.ok whole, { isStoppable := false, cancelled := false, log }) ∧
      if p.token.hears (a.events u work p) then
        (a.analyze u p).1 = .ok { path := u.path, cancelled := true } ∧ (a.analyze u p).2.cancelled = true
      else ∃ cancelled, a.analyze u p = (.ok whole, { isStoppable := p.isStoppable, cancelled, log }) := by
  have hstart : (a.fresh p.unstoppable).token = .never := rfl
  have hheedless := routine_heedless (u := u) h
  obtain ⟨hnever, hgoes⟩ := Routine.run_never hheedless hstart
  have hsame := Routine.run_withToken hheedless hstart p.token
  rw [run_routine h] at hnever hgoes hsame
  rcases hwhole : (a.scanner u).tour {} u.tree (a.fresh p.unstoppable) with ⟨f | _, t⟩ <;>
    rw [hwhole] at hnever hgoes hsame
  · have hf := tour_unfailing a u (a.fresh p.unstoppable) f (congrArg Prod.fst hwhole)
    exact absurd (congrArg Except.error hf) hgoes
  let whole : UnitReport := { path := u.path, diagnostics := t.notes.mergeSort Diagnostic.precedes }
  refine ⟨whole, t.log, rfl, rfl, ?_, ?_⟩
  · have hprogress : t.toProgress = { isStoppable := false, cancelled := false, log := t.log } :=
      congrArg (fun k : Token => (⟨k.isStoppable, k.cancelled, t.log⟩ : Progress)) hnever
    exact (analyze_ok hwhole).trans (congrArg (Prod.mk _) hprogress)
  · unfold events
    have hfresh : (a.fresh p.unstoppable).withToken p.token = a.fresh p := rfl
    rw [hfresh] at hsame
    split at hsame
    · rw [if_pos ‹_›, (analyze_eq a u p).1, (analyze_eq a u p).2]
      rcases hend : (a.scanner u).tour {} u.tree (a.fresh p) with ⟨f | _, t'⟩ <;> rw [hend] at hsame <;> cases hsame.1
      exact ⟨rfl, hsame.2⟩
    · rw [if_neg ‹_›]
      have hend := analyze_ok hsame
      rw [show ∀ k : Token, (t.withToken k).toProgress = ⟨k.isStoppable, k.cancelled, t.log⟩ from fun _ => rfl,
        Token.isStoppable_after] at hend
      exact ⟨_, hend⟩

/-! ## Many units -/

theorem mapM_cons_ok {σ : Type} {f : α → Attempt σ β} {i : α} {is : List α} {b : β} {bs : List β} {s t : σ}
    (hfirst : f i s = (.ok b, t)) (hrest : (is.mapM f t).1 = .ok bs) : ((i :: is).mapM f s).1 = .ok (b :: bs) := by
  rw [List.mapM_cons, Attempt.bind_apply, hfirst]
  dsimp only
  rw [Attempt.bind_apply]
  rcases hend : is.mapM f t with ⟨_ | _, _⟩ <;> rw [hend] at hrest <;> cases hrest
  rfl

/-- Once the analysis is called off, all units that follow are. -/
theorem mapM_analyze_stopped (h : a.Follows work) : ∀ (us : List CompilationUnit) {p : Progress}, p.cancelled = true →
    (us.mapM a.analyze p).1 = .ok (us.map fun u => { path := u.path, cancelled := true })
  | [], _, _ => rfl
  | u :: us, p, hp => by
    obtain ⟨whole, log, -, -, -, hcalled⟩ := analyze_token h u p
    have hheard : p.token.hears (a.events u work p) = true := Routine.hears_tour hp _ _ _ _
    rw [if_pos hheard] at hcalled
    exact mapM_cons_ok (Prod.ext hcalled.1 rfl) (mapM_analyze_stopped h us hcalled.2)

/-- The first units have whole reports, and the others none. -/
theorem mapM_analyze (h : a.Follows work) : ∀ (us : List CompilationUnit) (p : Progress), ∃ wholes k,
    (us.mapM a.analyze p.unstoppable).1 = .ok wholes ∧ wholes.map (·.path) = us.map (·.path) ∧
      (∀ whole ∈ wholes, whole.cancelled = false) ∧ (us.mapM a.analyze p).1 =
        .ok (wholes.take k ++ (us.drop k).map fun u => { path := u.path, cancelled := true })
  | [], p => ⟨[], 0, rfl, rfl, fun _ h => (nomatch h), rfl⟩
  | u :: us, p => by
    obtain ⟨whole, log, hpath, hwhole, hnever, hcalled⟩ := analyze_token h u p
    split at hcalled
    -- the units that follow begin with the same log, so their whole reports are known from there
    · obtain ⟨wholes, -, hwholes, hpaths, hall, -⟩ := mapM_analyze h us { log }
      refine ⟨whole :: wholes, 0, mapM_cons_ok hnever hwholes, congrArg₂ List.cons hpath hpaths,
        List.forall_mem_cons.2 ⟨hwhole, hall⟩, ?_⟩
      exact mapM_cons_ok (Prod.ext hcalled.1 rfl) (mapM_analyze_stopped h us hcalled.2)
    · obtain ⟨cancelled, hcalled⟩ := hcalled
      obtain ⟨wholes, k, hwholes, hpaths, hall, hreports⟩ :=
        mapM_analyze h us { isStoppable := p.isStoppable, cancelled, log }
      exact ⟨whole :: wholes, k + 1, mapM_cons_ok hnever hwholes, congrArg₂ List.cons hpath hpaths,
        List.forall_mem_cons.2 ⟨hwhole, hall⟩, mapM_cons_ok hcalled hreports⟩

/-- In an analysis whose rules leave the call to stop alone it is all or nothing. A report is that of an
analysis that nobody can call off, or has no findings; and it has none just if the analysis arrives at a node
after it was called off. Of units analyzed one after the other, the first ones have whole reports, and all
others have none. -/
theorem analyze_all_or_nothing (h : a.Follows work) (p : Progress) :
    (∀ u : CompilationUnit, ∃ whole, (a.analyze u p.unstoppable).1 = .ok whole ∧ whole.cancelled = false ∧
      ((a.analyze u p).1 = .ok whole ∨ (a.analyze u p).1 = .ok { path := u.path, cancelled := true }) ∧
      ((a.analyze u p).1 = .ok { path := u.path, cancelled := true } ↔ ∃ before n rest,
        a.events u work p = before ++ .arrival n :: rest ∧
          (p.cancelled = true ∨ p.isStoppable = true ∧ .stop ∈ before))) ∧
    ∀ (workers : Nat) (us : List CompilationUnit), workers ≤ 1 ∨ us.length ≤ 1 → ∃ wholes k,
      (a.analyzeAll workers us p.unstoppable).1 = .ok wholes ∧ wholes.map (·.path) = us.map (·.path) ∧
        (∀ whole ∈ wholes, whole.cancelled = false) ∧ (a.analyzeAll workers us p).1 =
          .ok (wholes.take k ++ (us.drop k).map fun u => { path := u.path, cancelled := true }) := by
  refine ⟨fun u => ?_, fun workers us hseq => ?_⟩
  · obtain ⟨whole, log, -, hwhole, hnever, hcalled⟩ := analyze_token h u p
    refine ⟨whole, congrArg Prod.fst hnever, hwhole, ?_⟩
    by_cases hheard : p.token.hears (a.events u work p) = true
    · rw [if_pos hheard] at hcalled
      exact ⟨.inr hcalled.1, fun _ => Token.hears_iff.1 hheard, fun _ => hcalled.1⟩
    · rw [if_neg hheard] at hcalled
      obtain ⟨cancelled, hcalled⟩ := hcalled
      refine ⟨.inl (congrArg Prod.fst hcalled), fun hstopped => ?_, fun hcontra => ?_⟩
      · rw [hcalled] at hstopped
        cases hstopped
        cases hwhole
      · exact absurd (Token.hears_iff.2 hcontra) hheard
  · have hall (p : Progress) : a.analyzeAll workers us p = us.mapM a.analyze p := by
      have hc : ¬ (1 < workers ∧ 1 < us.length) := by omega
      rw [analyzeAll, if_neg hc]
    rw [hall, hall]
    exact mapM_analyze h us p

end Analyzer

/-! ## A call to stop on the last read -/

/-- A unit with one identifier. -/
def CompilationUnit.oneRead : CompilationUnit where
  path := "read.py"
  source := "x"
  tree := {
    id := 0
    kind := .compilationUnit
    children := [{ id := 1, kind := .identifier, span := some ⟨0, 1, by decide⟩ }] }

namespace Analyzer

/-- What is done at each identifier: it is reported, and a scan below it calls the analysis off. -/
def reportAndStop : List Script.Action :=
  [.report .node none .none, .scan .node ["identifier"] [.cancel]]

def stopsOnRead : Analyzer where
  rules := .ofRules [
    Script.rule { id := "Reads", severity := .warning, summary := "is read", kinds := [.identifier] } reportAndStop]
  predicates := Suppression.usual "SuppressWarnings"

theorem stopsOnRead_follows : stopsOnRead.Follows fun _ => Script.actionsRoutine reportAndStop := by
  intro kind r hr
  rcases List.mem_singleton.1 (RuleSet.mem_of_mem_forKind hr) with rfl
  exact Script.rule_follows _ rfl

/-- The first unit is done before anybody hears that the analysis is called off, the next one is not. -/
theorem analyze_stopsOnRead :
    (∃ whole, (stopsOnRead.analyze .oneRead {}).1 = .ok whole ∧
      whole.diagnostics.map (·.span.map (·.start)) = [some 0]) ∧
    (stopsOnRead.analyze .twoReads {}).1 = .ok { path := "reads.py", cancelled := true } ∧
    ∃ (wholes : List UnitReport) (k : Nat), (stopsOnRead.analyzeAll 1 [.oneRead, .twoReads] {}).1 = .ok (wholes.take k ++
      ([CompilationUnit.oneRead, .twoReads].drop k).map fun u => { path := u.path, cancelled := true }) := by
  obtain ⟨hunits, hbatch⟩ := analyze_all_or_nothing stopsOnRead_follows {}
  let events (u : CompilationUnit) := stopsOnRead.events u (fun _ => Script.actionsRoutine reportAndStop) {}
  refine ⟨?_, ?_, ?_⟩
  · obtain ⟨whole, hwhole, -, hends, hstopped⟩ := hunits .oneRead
    have hdeaf : ({} : Progress).token.hears (events .oneRead) = false := by decide
    have hreport := hends.resolve_right fun h => Bool.false_ne_true (hdeaf.symm.trans (Token.hears_iff.2 (hstopped.1 h)))
    refine ⟨whole, hreport, ?_⟩
    let ended := (stopsOnRead.routine .oneRead fun _ => Script.actionsRoutine reportAndStop).run
      (stopsOnRead.fresh (Progress.unstoppable {}))
    have hended : (stopsOnRead.scanner .oneRead).tour {} CompilationUnit.oneRead.tree
        (stopsOnRead.fresh (Progress.unstoppable {})) = (.ok (), ended.2) := by
      rw [← run_routine stopsOnRead_follows]
      exact Prod.ext rfl rfl
    have hsorted := congrArg UnitReport.diagnostics
      (Except.ok.inj (hwhole.symm.trans (congrArg Prod.fst (analyze_ok hended))))
    rw [hsorted, List.mergeSort_of_pairwise (by decide)]
    decide
  · obtain ⟨-, -, -, -, hstopped⟩ := hunits .twoReads
    have hheard : ({} : Progress).token.hears (events .twoReads) = true := by decide +kernel
    exact hstopped.2 (Token.hears_iff.1 hheard)
  · obtain ⟨wholes, k, -, -, -, hreports⟩ := hbatch 1 [.oneRead, .twoReads] (.inl (Nat.le_refl 1))
    exact ⟨wholes, k, hreports⟩

end Analyzer

end TreeLint
