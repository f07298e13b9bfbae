/-
One rule tried at one node. What the trial leaves behind is what it came to, and nothing of how it got
there: the findings of a rule that completes, or the one finding that it failed. Main statements:
`tryRule_kept` and `tryRule_standsIn`.
-/
import TreeLint.Analysis.Unit
import TreeLint.Proofs.Rule.Scripted

namespace TreeLint.Analyzer

variable {ν : Type} {u : CompilationUnit} {a : Analyzer} {r : Rule} {stoppable : Bool} {stopped : Prop}

/-! ## What is kept -/

/-- The finding, without its fix if that is not well formed. -/
def withSoundFix (d : Diagnostic) : Diagnostic :=
  if d.fix.all (·.isWellFormed) then d else { d with fix := none }

@[simp] theorem withSoundFix_rule (d : Diagnostic) : (withSoundFix d).rule = d.rule := by
  unfold withSoundFix
  split <;> rfl

@[simp] theorem withSoundFix_severity (d : Diagnostic) : (withSoundFix d).severity = d.severity := by
  unfold withSoundFix
  split <;> rfl

@[simp] theorem withSoundFix_sortKey (d : Diagnostic) : (withSoundFix d).sortKey = d.sortKey := by
  unfold withSoundFix
  split <;> rfl

/-- What is kept of a trial that came to some findings or to a fault. -/
def kept (u : CompilationUnit) (r : Rule) (walk : Walk) (n : Node) : Except Fault (List Diagnostic) → List Diagnostic
  | .ok found => found.map withSoundFix
  | .error f => [failure u r walk n f]

/-- Of a rule, a failure tells no more than the id. -/
theorem kept_congr {r r' : Rule} (h : r.id = r'.id) {walk : Walk} {n : Node} (result : Except Fault (List Diagnostic)) :
    kept u r walk n result = kept u r' walk n result := by
  cases result with
  | ok found => rfl
  | error f =>
    unfold kept failure
    rw [h]

/-- The finding of a failure has no fix that could be dropped. -/
theorem kept_failure {r r' : Rule} {walk : Walk} {n : Node} {f : Fault} :
    kept u r' walk n (.ok [failure u r walk n f]) = kept u r walk n (.error f) := rfl

theorem checkFix_apply (d : Diagnostic) (s : Session ν) :
    ∃ log, checkFix d s = (.ok (withSoundFix d), { s with log }) := by
  unfold checkFix withSoundFix
  split
  · exact ⟨s.log, rfl⟩
  · exact ⟨_, rfl⟩

theorem mapM_checkFix : ∀ (ds : List Diagnostic) (s : Session ν),
    ∃ log, (ds.mapM checkFix : Attempt (Session ν) _) s = (.ok (ds.map withSoundFix), { s with log })
  | [], s => ⟨s.log, rfl⟩
  | d :: ds, s => by
    obtain ⟨log, hd⟩ := checkFix_apply d s
    obtain ⟨log', hds⟩ := mapM_checkFix ds { s with log }
    refine ⟨log', ?_⟩
    rw [List.mapM_cons, Attempt.bind_apply, hd]
    dsimp only
    rw [Attempt.bind_apply, hds]
    rfl

/-! ## A trial -/

/-- The scene in which a rule is tried. -/
def sceneFor (a : Analyzer) (u : CompilationUnit) (r : Rule) : Scene :=
  { unit := u, predicates := a.predicates, rule := r.toRuleInfo }

/-- What a rule comes to at a node, before any of it is kept. -/
def trial (a : Analyzer) (u : CompilationUnit) (r : Rule) (walk : Walk) (n : Node) :
    Attempt (Session (List Diagnostic)) (List Diagnostic) :=
  Session.aside { traversal := walk : Visit } (findings r n (a.sceneFor u r))

/-- A session in which a rule begins its work at a place of the walk. -/
def begun (walk : Walk) (s : Session (List Diagnostic)) : Session Visit :=
  { s with notes := { traversal := walk } }

theorem trial_apply (a : Analyzer) (u : CompilationUnit) (r : Rule) (walk : Walk) (n : Node)
    (s : Session (List Diagnostic)) :
    a.trial u r walk n s = ((findings r n (a.sceneFor u r) (begun walk s)).1,
      { (findings r n (a.sceneFor u r) (begun walk s)).2 with notes := s.notes }) := rfl

theorem findings_eq (r : Rule) (n : Node) (scene : Scene) :
    findings r n scene = (do
      let tested ← Session.ask (r.test n)
      let found ← Attempt.lift tested
      if !found then return []
      let last ← r.describe n scene
      let reported ← RuleM.reported scene
      return reported ++ last.toList) := by
  show (Session.ask (r.test n) >>= fun tested => Attempt.lift tested >>= fun found =>
    (if !found then return [] else do
      let last ← r.describe n
      return (← RuleM.reported) ++ last.toList : RuleM (List Diagnostic)) scene) = _
  congr 1
  funext tested
  congr 1
  funext found
  cases found <;> rfl

/-- Keeps what a trial came to; being called off is not kept but passed on. -/
def record (u : CompilationUnit) (r : Rule) (walk : Walk) (n : Node) :
    Except Fault (List Diagnostic) → Attempt (Session (List Diagnostic)) Unit
  | .ok found => do
    let found ← found.mapM checkFix
    Session.note (· ++ found)
  | .error .cancelled => Attempt.fail .cancelled
  | .error f => do
    Session.tell .warning .unitAnalysis s!"Rule {r.id} failed on {n.kind.name} node in {u.path}"
    Session.note (· ++ [failure u r walk n f])

theorem tryRule_apply (a : Analyzer) (u : CompilationUnit) (r : Rule) (walk : Walk) (n : Node)
    (s : Session (List Diagnostic)) :
    a.tryRule u r walk n s = record u r walk n (a.trial u r walk n s).1 (a.trial u r walk n s).2 := by
  rfl

theorem record_kept {walk : Walk} {n : Node} {result : Except Fault (List Diagnostic)}
    (h : result ≠ .error .cancelled) (s : Session (List Diagnostic)) :
    ∃ log, record u r walk n result s = (.ok (), { s with log, notes := s.notes ++ kept u r walk n result }) := by
  unfold record
  split
  · rename_i found
    obtain ⟨log, hfound⟩ := mapM_checkFix found s
    refine ⟨log, ?_⟩
    rw [Attempt.bind_apply, hfound]
    rfl
  · exact absurd rfl h
  · exact ⟨_, rfl⟩

/-- A trial that is not called off adds what is kept of it to the findings, and nothing else of it is noted. -/
theorem tryRule_kept {walk : Walk} {n : Node} {s : Session (List Diagnostic)}
    (h : (a.trial u r walk n s).1 ≠ .error .cancelled) : ∃ log, a.tryRule u r walk n s = (.ok (),
      { (a.trial u r walk n s).2 with log, notes := s.notes ++ kept u r walk n (a.trial u r walk n s).1 }) :=
  record_kept h (a.trial u r walk n s).2

/-! ## Trials that are alike -/

variable {b : Analyzer} {r' : Rule} {walk : Walk} {n : Node}

/-- Whether the analyzer keeps to the unit with its predicates and rules. -/
structure Lawful (a : Analyzer) (u : CompilationUnit) : Prop where
  predicates : ∀ p ∈ a.predicates, Suppression.Lawful u p
  rules : ∀ kind, ∀ r ∈ a.rules.forKind kind, r.Lawful u

/-- What a rule finds comes to the same if its test and what it makes of a match do. -/
theorem findings_alike {R : Session Visit → Session Visit → Prop} {within : Node → Prop} {scene : Scene}
    (hnotes : ∀ s t, R s t → s.notes = t.notes)
    (htest : Attempt.Alike R (Session.ask (r.test n)) (Session.ask (r.test n)))
    (hdescribe : Attempt.Alike (RuleM.InHand R within) (r.describe n scene) (r.describe n scene)) :
    Attempt.Alike (RuleM.InHand R within) (findings r n scene) (findings r n scene) := by
  rw [findings_eq]
  refine (htest.keeping (Session.ask_noted _)).bind fun tested => (Attempt.Alike.lift tested).bind fun found => ?_
  cases found
  · exact .pure []
  · exact hdescribe.bind fun last => (RuleM.reported_alike hnotes scene).bind fun reported => .pure _

/-- A lawful rule comes to the same at a node, whatever was asked before. -/
theorem trial_alike (h : u.IsCoherent a.provenance) (hp : ∀ p ∈ a.predicates, Suppression.Lawful u p)
    (hr : r.Lawful u) (hw : walk.Within u.HasNode) (hn : u.HasNode n) :
    Attempt.Alike (Session.Like u a.provenance stoppable stopped) (a.trial u r walk n) (a.trial u r walk n) := by
  have hfindings : Attempt.Alike (RuleM.InHand (Session.Same u a.provenance stoppable stopped) u.HasNode)
      (findings r n (a.sceneFor u r)) (findings r n (a.sceneFor u r)) :=
    findings_alike (fun _ _ hsame => hsame.notes) (Session.ask_alike ((hr.test n hn).settled h))
      ((hr.describe n hn).fair h (a.sceneFor u r) ⟨rfl, hp⟩)
  intro s t hst
  obtain ⟨hres, hend, -⟩ := hfindings (begun walk s) (begun walk t) ⟨hst.withNotes rfl s.log t.log, hw⟩
  exact ⟨hres, hend.toLike.written _ _ s.notes t.notes⟩

/-- A rule that does what another does wherever that one does not fail. Where it fails, other than by
being called off, the rule may as well complete with the finding of the failure as its only one,
whatever it asked the resolver meanwhile. -/
structure StandsIn (a : Analyzer) (u : CompilationUnit) (r r' : Rule) : Prop where
  info : r'.toRuleInfo = r.toRuleInfo
  trial : ∀ walk n stoppable, walk.Within u.HasNode → u.HasNode n → ∀ s t : Session (List Diagnostic),
    Session.Like u a.provenance stoppable False s t →
      ((a.trial u r' walk n t).1 = (a.trial u r walk n s).1 ∨
        ∃ f, f ≠ .cancelled ∧ (a.trial u r walk n s).1 = .error f ∧
          (a.trial u r' walk n t).1 = .ok [failure u r walk n f]) ∧
      Session.Like u a.provenance stoppable False (a.trial u r walk n s).2 (a.trial u r' walk n t).2

/-- Trying a rule and trying one that stands in for it come to the same. -/
theorem tryRule_standsIn (h : a.StandsIn u r r') (hp : b.predicates = a.predicates)
    (hw : walk.Within u.HasNode) (hn : u.HasNode n) :
    Attempt.Alike (Session.Same u a.provenance stoppable False) (a.tryRule u r walk n) (b.tryRule u r' walk n) := by
  intro s t hst
  have hid : r'.id = r.id := congrArg RuleInfo.id h.info
  obtain ⟨hres, hend⟩ := h.trial walk n stoppable hw hn s t hst.toLike
  have htrial : b.trial u r' walk n = a.trial u r' walk n := by
    unfold Analyzer.trial sceneFor
    rw [hp]
  -- being called off is passed on, and everything else is kept
  by_cases hc : (a.trial u r walk n s).1 = .error .cancelled
  · rw [tryRule_apply, tryRule_apply, htrial]
    rcases hres with hres | ⟨f, hf, hfail, -⟩
    · rw [hc] at hres ⊢
      rw [hres]
      exact ⟨rfl, hend.withNotes hst.notes _ _⟩
    · rw [hc] at hfail
      cases hfail
      exact absurd rfl hf
  · have hc' : (b.trial u r' walk n t).1 ≠ .error .cancelled := by
      rw [htrial]
      rcases hres with hres | ⟨f, -, -, hres⟩ <;> rw [hres]
      · exact hc
      · intro hcontra
        cases hcontra
    have hkept : kept u r walk n (a.trial u r walk n s).1 =
        kept u r' walk n (a.trial u r' walk n t).1 := by
      rcases hres with hres | ⟨f, -, hfail, hres⟩
      · rw [hres]
        exact kept_congr hid.symm _
      · rw [hfail, hres]
        exact kept_failure.symm
    obtain ⟨log, heq⟩ := tryRule_kept hc
    obtain ⟨log', heq'⟩ := tryRule_kept hc'
    rw [heq, heq', htrial]
    have hnotes : s.notes ++ kept u r walk n (a.trial u r walk n s).1 =
        t.notes ++ kept u r' walk n (a.trial u r' walk n t).1 := by
      rw [hst.notes, hkept]
    exact ⟨rfl, hend.withNotes hnotes log log'⟩

theorem standsIn_self (h : u.IsCoherent a.provenance) (hp : ∀ p ∈ a.predicates, Suppression.Lawful u p)
    (hr : r.Lawful u) : a.StandsIn u r r where
  info := rfl
  trial walk n stoppable hw hn s t hst := by
    obtain ⟨hres, hend⟩ := trial_alike h hp hr hw hn s t hst
    exact ⟨.inl hres.symm, hend⟩

/-- The rule that does what another does, but that completes with the finding of the failure where that
one fails at a chosen place. -/
def mended (u : CompilationUnit) (chosen : Walk → Node → Bool) (r : Rule) : Rule where
  toRuleInfo := r.toRuleInfo
  test _ := pure (.ok true)
  describe n := fun scene => do
    let walk ← RuleM.traversal scene
    match ← Attempt.caught (findings r n scene) with
    | .ok found => do
      Session.note fun v => { v with found }
      return none
    | .error f =>
      if f ≠ .cancelled ∧ chosen walk n then
        Session.note fun v => { v with found := [failure u r walk n f] }
        return none
      else Attempt.fail f

theorem trial_mended (chosen : Walk → Node → Bool) (t : Session (List Diagnostic)) :
    a.trial u (mended u chosen r) walk n t = match a.trial u r walk n t with
      | (.ok found, t') => (.ok found, t')
      | (.error f, t') =>
        if f ≠ .cancelled ∧ chosen walk n then (.ok [failure u r walk n f], t') else (.error f, t') := by
  have hdescribe : (mended u chosen r).describe n (a.sceneFor u r) (begun walk t) = (do
      match ← Attempt.caught (findings r n (a.sceneFor u r)) with
      | .ok found => do
        Session.note fun v => { v with found }
        return none
      | .error f =>
        if f ≠ .cancelled ∧ chosen walk n then
          Session.note fun v => { v with found := [failure u r walk n f] }
          return none
        else Attempt.fail f : Attempt (Session Visit) (Option Diagnostic)) (begun walk t) := rfl
  have hfindings : findings (mended u chosen r) n (a.sceneFor u r) (begun walk t) = (do
      let last ← (mended u chosen r).describe n (a.sceneFor u r)
      let reported ← RuleM.reported (a.sceneFor u r)
      return reported ++ last.toList) (begun walk t) := by
    rw [findings_eq]
    rfl
  rw [trial_apply, trial_apply, show a.sceneFor u (mended u chosen r) = a.sceneFor u r from rfl, hfindings,
    Attempt.bind_apply, hdescribe, Attempt.bind_apply, Attempt.caught_apply]
  rcases findings r n (a.sceneFor u r) (begun walk t) with ⟨f | found, t'⟩
  · by_cases hf : f ≠ .cancelled ∧ chosen walk n = true
    · simp only [if_pos hf]
      rfl
    · simp only [if_neg hf]
      rfl
  · exact Prod.ext (congrArg Except.ok (List.append_nil found)) rfl

theorem mended_standsIn (h : u.IsCoherent a.provenance) (hp : ∀ p ∈ a.predicates, Suppression.Lawful u p)
    (hr : r.Lawful u) (chosen : Walk → Node → Bool) : a.StandsIn u r (mended u chosen r) where
  info := rfl
  trial walk n stoppable hw hn s t hst := by
    obtain ⟨hres, hend⟩ := trial_alike h hp hr hw hn s t hst
    rw [trial_mended]
    rcases hs : a.trial u r walk n s with ⟨f | found, s'⟩ <;>
      rcases ht : a.trial u r walk n t with ⟨f' | found', t'⟩ <;>
      rw [hs, ht] at hres hend <;> cases hres
    · dsimp only
      split
      · rename_i hf
        exact ⟨.inr ⟨f, hf.1, rfl, rfl⟩, hend⟩
      · exact ⟨.inl rfl, hend⟩
    · exact ⟨.inl rfl, hend⟩

/-! ## What a trial adds -/

/-- A session that was just begun. -/
def fresh (a : Analyzer) (p : Progress) : Session (List Diagnostic) :=
  { toProgress := p, resolver := { provenance := a.provenance }, notes := [] }

theorem fresh_same (a : Analyzer) (u : CompilationUnit) (p : Progress) :
    Session.Same u a.provenance p.isStoppable False (a.fresh p) (a.fresh p) :=
  ⟨⟨u.truthful_fresh a.provenance, u.truthful_fresh a.provenance, rfl, rfl, rfl, False.elim⟩, rfl⟩

/-- The findings of a rule tried at a node, alone in a session of its own. -/
def outcome (a : Analyzer) (u : CompilationUnit) (p : Progress) (r : Rule) (walk : Walk) (n : Node) : List Diagnostic :=
  (a.tryRule u r walk n (a.fresh p)).2.notes

theorem outcome_eq {p : Progress} (hc : (a.trial u r walk n (a.fresh p)).1 ≠ .error .cancelled) :
    a.outcome u p r walk n = kept u r walk n (a.trial u r walk n (a.fresh p)).1 := by
  obtain ⟨log, heq⟩ := tryRule_kept hc
  unfold outcome
  rw [heq]
  exact List.nil_append _

/-- A computation that either is called off or adds some findings to those noted before. It adds them
if nobody called the analysis off meanwhile. -/
def Adds (inv : Session (List Diagnostic) → Prop) (x : Attempt (Session (List Diagnostic)) Unit)
    (found : List Diagnostic) : Prop :=
  ∀ s, inv s → (x s).1 = .error .cancelled ∨ (x s).1 = .ok () ∧ inv (x s).2 ∧
    ((x s).2.cancelled = false → s.cancelled = false ∧ (x s).2.notes = s.notes ++ found)

theorem Adds.forM {ι : Type} {inv : Session (List Diagnostic) → Prop}
    {f : ι → Attempt (Session (List Diagnostic)) Unit} {found : ι → List Diagnostic} :
    ∀ {xs : List ι}, (∀ x ∈ xs, Adds inv (f x) (found x)) → Adds inv (forM xs f) (xs.flatMap found)
  | [], _, s, hs => .inr ⟨rfl, hs, fun hc => ⟨hc, (List.append_nil _).symm⟩⟩
  | x :: xs, h, s, hs => by
    have hrest := Adds.forM fun y hy => h y (List.mem_cons_of_mem x hy)
    rw [List.forM_cons, Attempt.bind_apply, List.flatMap_cons]
    rcases h x List.mem_cons_self s hs with hx | ⟨hx, hinv, hadds⟩
    · rcases hr : f x s with ⟨_ | _, t⟩ <;> rw [hr] at hx <;> cases hx
      exact .inl rfl
    · rcases hr : f x s with ⟨_ | _, t⟩ <;> rw [hr] at hx hinv hadds <;> cases hx
      rcases hrest t hinv with hend | ⟨hend, hinv', hadds'⟩
      · exact .inl hend
      · refine .inr ⟨hend, hinv', fun hc => ?_⟩
        obtain ⟨hct, hnotes'⟩ := hadds' hc
        obtain ⟨hcs, hnotes⟩ := hadds hct
        refine ⟨hcs, ?_⟩
        dsimp only at hnotes
        rw [hnotes', hnotes, List.append_assoc]

/-- A trial in the midst of an analysis adds what it comes to alone. -/
theorem tryRule_adds (h : u.IsCoherent a.provenance) (hp : ∀ p ∈ a.predicates, Suppression.Lawful u p)
    (hr : r.Lawful u) (hw : walk.Within u.HasNode) (hn : u.HasNode n) (p : Progress) (hpc : p.cancelled = false) :
    Adds (fun s => Session.Same u a.provenance p.isStoppable False s s) (a.tryRule u r walk n)
      (a.outcome u p r walk n) := by
  intro s hs
  obtain ⟨-, hinv⟩ := tryRule_standsIn (standsIn_self h hp hr) rfl hw hn s s hs
  by_cases hc : (a.trial u r walk n s).1 = .error .cancelled
  · left
    rw [tryRule_apply, hc]
    rfl
  obtain ⟨log, heq⟩ := tryRule_kept hc
  right
  refine ⟨by rw [heq], hinv, fun hlive => ?_⟩
  have hlive' : (a.trial u r walk n s).2.cancelled = false := by
    rw [heq] at hlive
    exact hlive
  -- what was called off before would still be so afterwards
  have hcs : s.cancelled = false := by
    cases hstopped : s.cancelled
    · rfl
    · have hstart : Session.Like u a.provenance p.isStoppable True s s :=
        ⟨hs.left, hs.right, hs.leftStoppable, hs.rightStoppable, rfl, fun _ => hstopped⟩
      obtain ⟨-, hend⟩ := trial_alike h hp hr hw hn _ _ hstart
      rw [hend.stopped trivial] at hlive'
      cases hlive'
  have hstart : Session.Like u a.provenance p.isStoppable False s (a.fresh p) :=
    ⟨hs.left, u.truthful_fresh a.provenance, hs.leftStoppable, rfl, hcs.trans hpc.symm, False.elim⟩
  have hres : (a.trial u r walk n s).1 = (a.trial u r walk n (a.fresh p)).1 :=
    (trial_alike h hp hr hw hn _ _ hstart).1
  rw [hres] at hc heq
  exact ⟨hcs, by rw [heq, outcome_eq hc]⟩

end TreeLint.Analyzer
