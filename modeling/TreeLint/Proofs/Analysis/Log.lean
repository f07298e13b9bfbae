/-
What is logged plays no part in an analysis, as long as no rule looks at the log: the report comes out the
same whatever was logged before. Main statement: `analyze_unlogged`; lawful rules do not look at the log.
-/
import TreeLint.Proofs.Analysis.Cancellation

namespace TreeLint

variable {ν α : Type} {u : CompilationUnit} {a : Analyzer}

namespace Session

/-! ## Sessions up to their logs -/

/-- The second session is the first one with another log. -/
def UpToLog (s t : Session ν) : Prop := ∃ log, t = { s with log }

/-- Work in a session that comes to the same whatever was logged before. -/
abbrev Unlogged (x : Attempt (Session ν) α) : Prop := Attempt.Alike UpToLog x x

theorem ask_unlogged (q : Query α) : Unlogged (ask q : Attempt (Session ν) α) := by
  rintro s _ ⟨log, rfl⟩
  exact ⟨rfl, log, rfl⟩

theorem note_unlogged (f : ν → ν) : Unlogged (note f) := by
  rintro s _ ⟨log, rfl⟩
  exact ⟨rfl, log, rfl⟩

theorem tell_unlogged (level : LogLevel) (channel : Channel) (message : String) :
    Unlogged (tell level channel message : Attempt (Session ν) Unit) := by
  rintro s _ ⟨log, rfl⟩
  exact ⟨rfl, _, rfl⟩

theorem cancel_unlogged : Unlogged (cancel : Attempt (Session ν) Unit) := by
  rintro s _ ⟨log, rfl⟩
  exact ⟨rfl, log, rfl⟩

theorem isCancelled_unlogged : Unlogged ((·.cancelled) <$> Attempt.state : Attempt (Session ν) Bool) := by
  rintro s _ ⟨log, rfl⟩
  exact ⟨rfl, log, rfl⟩

theorem goOn_unlogged : Unlogged (goOn : Attempt (Session ν) Unit) := by
  have hgoOn : (goOn : Attempt (Session ν) Unit) = ((·.cancelled) <$> Attempt.state) >>= fun cancelled =>
      if cancelled then Attempt.fail .cancelled else pure () := rfl
  rw [hgoOn]
  refine isCancelled_unlogged.bind fun cancelled => ?_
  split
  · exact .fail _
  · exact .pure ()

end Session

theorem Scanner.arrive_unlogged (sc : Scanner ν) (n : Node) : Session.Unlogged (sc.arrive n) := by
  unfold arrive
  refine Session.goOn_unlogged.bind fun _ => (Session.ask_unlogged _).bind fun s => ?_
  split
  · exact (Session.tell_unlogged _ _ _).bind fun _ => .pure none
  · exact .pure (some s)

theorem Scanner.tour_unlogged {sc : Scanner ν} (within : Node → Prop) (hbelow : ∀ n, within n → ∀ m ∈ n.children, within m)
    (hcall : ∀ n, within n → ∀ walk : Walk, walk.Within within → ∀ handle ∈ sc.handlers n.kind,
      Session.Unlogged (handle walk n)) {root : Node} (hroot : within root) {walk : Walk} (hw : walk.Within within) :
    Session.Unlogged (sc.tour walk root) :=
  (Scanner.Alike.tour ⟨hbelow, fun n _ => sc.arrive_unlogged n,
    fun n hn walk hw => List.forall₂_same.2 (hcall n hn walk hw)⟩).1 root walk hroot hw

/-- A lawful rule does not look at the log. -/
theorem RuleM.Lawful.unlogged {x : RuleM α} (hx : RuleM.Lawful u x) :
    ∀ scene : Scene, scene.In u → Attempt.Alike (InHand Session.UpToLog u.HasNode) (x scene) (x scene) := by
  have hnotes (s t : Session Visit) (hst : Session.UpToLog s t) : s.notes = t.notes := by
    obtain ⟨log, rfl⟩ := hst
    rfl
  induction hx with
  | pure a => exact fun _ _ => .pure a
  | bind _ _ ihx ihf => exact fun scene hs => (ihx scene hs).bind fun a => ihf a scene hs
  | look _ ih => exact fun scene hs => ih scene hs scene hs
  | traversal _ ih => exact fun scene hs => traversal_bind_alike hnotes scene fun walk hw => ih walk hw scene hs
  | ask _ => exact fun _ _ => (Session.ask_unlogged _).keeping (Session.ask_noted _)
  | ofExcept x => exact fun _ _ => .lift x
  | report d => exact fun _ _ => (Session.note_unlogged _).keeping (Session.note_noted fun _ hw => hw)
  | cancel => exact fun _ _ => Session.cancel_unlogged.keeping Session.cancel_noted
  | isCancelled => exact fun _ _ => Session.isCancelled_unlogged.keeping Session.isCancelled_noted
  | tell level channel message =>
    exact fun _ _ => (Session.tell_unlogged _ _ _).keeping (Session.tell_noted level channel message)
  | caught _ ih => exact fun scene hs => (ih scene hs).caught
  | scanBelow hroot _ ih =>
    -- a tour below the root, whose handlers are computations that the rule is put together from
    intro scene hs
    refine scanBelow_alike hnotes ?_ (fun n hn m hm => hn.child hm) (fun n _ => Scanner.arrive_unlogged _ n)
      (fun n hn handle hmem => ih n hn handle hmem scene hs) hroot
    rintro s _ notes ⟨log, rfl⟩
    exact ⟨log, rfl⟩

namespace Analyzer

/-- The rules do the same in each unit whatever was logged before. -/
def Unlogged (a : Analyzer) : Prop :=
  ∀ (u : CompilationUnit) (kind : NodeKind), ∀ r ∈ a.rules.forKind kind, ∀ (walk : Walk) (n : Node),
    walk.Within u.HasNode → u.HasNode n → Session.Unlogged (a.trial u r walk n)

theorem Unlogged.of_lawful (h : ∀ u, a.Lawful u) : a.Unlogged := by
  intro u kind r hr walk n hw hn
  have hdescribe := (((h u).rules kind r hr).describe n hn).unlogged (a.sceneFor u r) ⟨rfl, (h u).predicates⟩
  have hfindings : Attempt.Alike (RuleM.InHand Session.UpToLog u.HasNode) (findings r n (a.sceneFor u r))
      (findings r n (a.sceneFor u r)) :=
    findings_alike (fun s _ ⟨_, ht⟩ => ht ▸ rfl) (Session.ask_unlogged _) hdescribe
  rintro s _ ⟨log, rfl⟩
  obtain ⟨hres, ⟨log', hend⟩, -⟩ := hfindings (begun walk s) (begun walk { s with log }) ⟨⟨log, rfl⟩, hw⟩
  rw [trial_apply, trial_apply, hend]
  exact ⟨hres, log', rfl⟩

/-! ## One rule at one node -/

theorem checkFix_unlogged (d : Diagnostic) : Session.Unlogged (checkFix d : Attempt (Session ν) Diagnostic) := by
  unfold checkFix
  split
  · exact .pure d
  · exact (Session.tell_unlogged _ _ _).bind fun _ => .pure _

theorem record_unlogged (u : CompilationUnit) (r : Rule) (walk : Walk) (n : Node)
    (result : Except Fault (List Diagnostic)) : Session.Unlogged (record u r walk n result) := by
  unfold record
  split
  · exact (Attempt.Alike.mapM fun d _ => checkFix_unlogged d).bind fun _ => Session.note_unlogged _
  · exact .fail _
  · exact (Session.tell_unlogged _ _ _).bind fun _ => Session.note_unlogged _

theorem tryRule_unlogged {r : Rule} {walk : Walk} {n : Node} (h : Session.Unlogged (a.trial u r walk n)) :
    Session.Unlogged (a.tryRule u r walk n) := by
  intro s t hst
  obtain ⟨hres, hend⟩ := h s t hst
  rw [tryRule_apply, tryRule_apply, hres]
  exact record_unlogged u r walk n _ _ _ hend

/-! ## The report -/

/-- The report does not depend on what was logged before. -/
theorem analyze_unlogged (h : a.Unlogged) (u : CompilationUnit) (p : Progress) (log : Log) :
    (a.analyze u { p with log }).1 = (a.analyze u p).1 := by
  rw [(analyze_eq a u p).1, (analyze_eq a u _).1]
  have htour : Session.Unlogged ((a.scanner u).tour {} u.tree) := by
    refine Scanner.tour_unlogged u.HasNode (fun n hn m hm => hn.child hm) ?_ u.hasNode_tree
      (Walk.within_start u.HasNode ∅)
    intro n hn walk hw handle hhandle
    rcases List.mem_singleton.1 hhandle with rfl
    rw [dispatch_eq]
    refine .forM (List.forall₂_same.2 fun r hr => tryRule_unlogged ?_)
    exact h u n.kind r (List.mem_of_mem_filter hr) walk n hw hn
  obtain ⟨hres, log', hend⟩ := htour (a.fresh p) (a.fresh { p with log }) ⟨log, rfl⟩
  rcases hp : (a.scanner u).tour {} u.tree (a.fresh p) with ⟨r, s⟩
  rcases hlog : (a.scanner u).tour {} u.tree (a.fresh { p with log }) with ⟨r', t⟩
  rw [hp, hlog] at hres hend
  obtain rfl : r = r' := hres
  obtain rfl : t = { s with log := log' } := hend
  rcases r with f | _
  · cases f <;> rfl
  · rfl

/-- An analysis that nobody can call off has a report. -/
theorem analyze_total (a : Analyzer) (u : CompilationUnit) (p : Progress) : ∃ report, (a.analyze u p).1 = .ok report := by
  rw [(analyze_eq a u p).1]
  rcases hp : (a.scanner u).tour {} u.tree (a.fresh p) with ⟨f | _, s⟩
  · obtain rfl := tour_unfailing a u (a.fresh p) f (congrArg Prod.fst hp)
    exact ⟨_, rfl⟩
  · exact ⟨_, rfl⟩

end Analyzer

end TreeLint
