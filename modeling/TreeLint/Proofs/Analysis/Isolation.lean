/-
A rule that fails disturbs nobody. In a coherent unit the report is put together from what each rule
comes to at each node alone, in a session of its own, and it stays the same if rules that fail are
made to complete with the finding of the failure. Main statement: `analyze_isolated`.
-/
import TreeLint.Proofs.Analysis.Trial
import TreeLint.Proofs.Rule.Registry

namespace TreeLint

variable {u : CompilationUnit} {a b : Analyzer} {r : Rule}

namespace Analyzer

/-! ## Invocations -/

/-- A rule tried at a node. -/
structure Invocation where
  rule : Rule
  walk : Walk
  node : Node

/-- What is suppressed from a node on, as a fresh resolver has it. -/
def answer (a : Analyzer) (n : Node) : Suppression :=
  (Suppression.of a.predicates n { provenance := a.provenance }).1

/-- The place of the walk at a spot of the tree. -/
def placeAt (a : Analyzer) (p : Spot) : Walk :=
  ({} : Walk).along a.answer p.chain

/-- The rules that look at a node and are not suppressed there. -/
def called (a : Analyzer) (walk : Walk) (n : Node) : List Rule :=
  (a.rules.forKind n.kind).filter fun r => !walk.isSuppressed r.id

/-- The rules tried in a unit, at the nodes that are not cut off and where they are not suppressed. -/
def invocations (a : Analyzer) (u : CompilationUnit) : List Invocation :=
  (u.tree.spots (fun n => (a.answer n).everything) []).flatMap fun p =>
    (a.called (a.placeAt p) p.node).map fun r => ⟨r, a.placeAt p, p.node⟩

/-! ## Stand-ins -/

/-- An analyzer whose rules stand in, one by one, for those of another. -/
structure StandIn (a b : Analyzer) (u : CompilationUnit) : Prop where
  predicates : b.predicates = a.predicates
  provenance : b.provenance = a.provenance
  rules : ∀ kind, List.Forall₂ (a.StandsIn u) (a.rules.forKind kind) (b.rules.forKind kind)

/-- The analyzer whose rules complete, with the finding of the failure, where those of another fail at a
chosen place. -/
def mendedAt (a : Analyzer) (u : CompilationUnit) (chosen : Walk → Node → Bool) : Analyzer :=
  { a with rules := {
      rules := a.rules.rules.map (mended u chosen)
      index := a.rules.index.map fun (kind, rs) => (kind, rs.map (mended u chosen)) } }

theorem forKind_mendedAt (a : Analyzer) (u : CompilationUnit) (chosen : Walk → Node → Bool) (kind : NodeKind) :
    (a.mendedAt u chosen).rules.forKind kind = (a.rules.forKind kind).map (mended u chosen) := by
  have hlookup : ∀ index : List (NodeKind × List Rule),
      (index.map fun (kind, rs) => (kind, rs.map (mended u chosen))).lookup kind =
        (index.lookup kind).map (List.map (mended u chosen)) := by
    intro index
    induction index with
    | nil => rfl
    | cons entry rest ih =>
      rw [List.map_cons, List.lookup_cons, List.lookup_cons, ih]
      cases kind == entry.1 <;> rfl
  unfold RuleSet.forKind mendedAt
  rw [hlookup]
  cases a.rules.index.lookup kind <;> rfl

theorem mendedAt_standIn (hc : u.IsCoherent a.provenance) (ha : a.Lawful u) (chosen : Walk → Node → Bool) :
    StandIn a (a.mendedAt u chosen) u where
  predicates := rfl
  provenance := rfl
  rules kind := by
    rw [forKind_mendedAt, List.forall₂_map_right_iff, List.forall₂_same]
    exact fun r hr => mended_standsIn hc ha.predicates (ha.rules kind r hr) chosen

theorem dispatch_eq (a : Analyzer) (u : CompilationUnit) (walk : Walk) (n : Node) :
    a.dispatch u walk n = forM (a.called walk n) fun r => a.tryRule u r walk n := by
  unfold dispatch called
  induction a.rules.forKind n.kind with
  | nil => rfl
  | cons r rest ih =>
    rw [List.forIn_cons, List.filter_cons, bind_assoc]
    cases walk.isSuppressed r.id
    · rw [if_pos (by rfl), if_pos (by rfl), bind_assoc, List.forM_cons]
      exact congrArg (a.tryRule u r walk n >>= ·) (funext fun _ => ih)
    · exact ih

theorem StandIn.called (h : StandIn a b u) (walk : Walk) (n : Node) :
    List.Forall₂ (a.StandsIn u) (a.called walk n) (b.called walk n) := by
  refine List.rel_filter (fun r r' hrule => ?_) (h.rules n.kind)
  show (!walk.isSuppressed r.id) = true ↔ (!walk.isSuppressed r'.id) = true
  rw [show r'.id = r.id from congrArg RuleInfo.id hrule.info]

theorem StandIn.dispatch (h : StandIn a b u) {stoppable : Bool} {walk : Walk} {n : Node} (hw : walk.Within u.HasNode)
    (hn : u.HasNode n) :
    Attempt.Alike (Session.Same u a.provenance stoppable False) (a.dispatch u walk n) (b.dispatch u walk n) := by
  rw [dispatch_eq, dispatch_eq]
  exact .forM ((h.called walk n).imp fun _ _ hrule => tryRule_standsIn hrule h.predicates hw hn)

theorem StandIn.scanner (hc : u.IsCoherent a.provenance) (hp : ∀ p ∈ a.predicates, Suppression.Lawful u p)
    (h : StandIn a b u) (stoppable : Bool) :
    Scanner.Alike (Session.Same u a.provenance stoppable False) u.HasNode (a.scanner u) (b.scanner u) where
  below _ hn _ hm := hn.child hm
  arrive _ hn := Scanner.arrive_alike hc h.predicates hp hn
  handlers _ hn _ hw := .cons (h.dispatch hw hn) .nil

/-! ## The report -/

/-- The report, given how the scan ended. -/
def reportOf (u : CompilationUnit) : Except Fault Unit × Session (List Diagnostic) → Except Fault UnitReport
  | (.ok (), s) => .ok { path := u.path, diagnostics := s.notes.mergeSort Diagnostic.precedes }
  | (.error .cancelled, _) => .ok { path := u.path, cancelled := true }
  | (.error f, _) => .error f

theorem scanUnit_eq (a : Analyzer) (u : CompilationUnit) (p : Progress) :
    a.scanUnit u p = (.ok (((a.scanner u).tour {} u.tree (a.fresh p)).2.notes, ((a.scanner u).tour {} u.tree (a.fresh p)).1),
      ((a.scanner u).tour {} u.tree (a.fresh p)).2.toProgress) := by
  rw [← (Scanner.scan_roundTrip (a.scanner u) u.tree).session (a.fresh p) {}]
  rfl

theorem analyze_eq (a : Analyzer) (u : CompilationUnit) (p : Progress) :
    (a.analyze u p).1 = reportOf u ((a.scanner u).tour {} u.tree (a.fresh p)) ∧
    (a.analyze u p).2.cancelled = ((a.scanner u).tour {} u.tree (a.fresh p)).2.cancelled := by
  rw [analyze, Attempt.bind_apply, scanUnit_eq]
  rcases (a.scanner u).tour {} u.tree (a.fresh p) with ⟨f | _, s⟩
  · cases f <;> exact ⟨rfl, rfl⟩
  · exact ⟨rfl, rfl⟩

theorem StandIn.analyze (hc : u.IsCoherent a.provenance) (hp : ∀ p ∈ a.predicates, Suppression.Lawful u p)
    (h : StandIn a b u) (p : Progress) : (b.analyze u p).1 = (a.analyze u p).1 := by
  have hfresh : b.fresh p = a.fresh p := by
    unfold fresh
    rw [h.provenance]
  have hstart := Walk.within_start u.HasNode ∅
  obtain ⟨hres, hend⟩ :=
    (h.scanner hc hp p.isStoppable).tour.1 u.tree {} u.hasNode_tree hstart _ _ (a.fresh_same u p)
  rw [(analyze_eq a u p).1, (analyze_eq b u p).1, hfresh]
  rcases ha : (a.scanner u).tour {} u.tree (a.fresh p) with ⟨f | _, s⟩ <;>
    rcases hb : (b.scanner u).tour {} u.tree (a.fresh p) with ⟨f' | _, t⟩ <;>
    rw [ha, hb] at hres hend <;> cases hres
  · cases f <;> rfl
  · have hnotes : s.notes = t.notes := hend.notes
    unfold reportOf
    dsimp only
    rw [hnotes]

/-- The invocations of a stand-in are those it stands in for, at the same places. -/
theorem StandIn.invocations (h : StandIn a b u) :
    List.Forall₂ (fun i j => a.StandsIn u i.rule j.rule ∧ j.walk = i.walk ∧ j.node = i.node)
      (a.invocations u) (b.invocations u) := by
  have hanswer : b.answer = a.answer := by
    unfold answer
    rw [h.predicates, h.provenance]
  have hplace : b.placeAt = a.placeAt := by
    unfold placeAt
    rw [hanswer]
  unfold Analyzer.invocations
  rw [hanswer, hplace]
  refine List.rel_flatMap (R := Eq) (List.forall₂_same.2 fun _ _ => rfl) ?_
  rintro spot _ rfl
  rw [List.forall₂_map_left_iff, List.forall₂_map_right_iff]
  exact (h.called (a.placeAt spot) spot.node).imp fun _ _ hrule => ⟨hrule, rfl, rfl⟩

theorem standIn_self (hc : u.IsCoherent a.provenance) (ha : a.Lawful u) : StandIn a a u where
  predicates := rfl
  provenance := rfl
  rules kind := List.forall₂_same.2 fun r hr => standsIn_self hc ha.predicates (ha.rules kind r hr)

/-! ## What a scan adds -/

theorem scanner_keeps (hc : u.IsCoherent a.provenance) (ha : a.Lawful u) :
    (a.scanner u).Keeps u.HasNode (u.Truthful a.provenance) a.answer where
  below _ hn _ hm := hn.child hm
  predicates n hn r hr := by
    have hsteady := Suppression.Steady.of (fun p hp => (ha.predicates p hp).steady hc) n hn
    exact ⟨hsteady.answer hr (u.truthful_fresh a.provenance), hsteady.stays hr⟩
  handlers n hn handle hhandle walk hw s hs := by
    rcases List.mem_singleton.1 hhandle with rfl
    have hstart : Session.Same u a.provenance s.isStoppable False s s :=
      ⟨⟨hs, hs, rfl, rfl, rfl, False.elim⟩, rfl⟩
    exact ((standIn_self hc ha).dispatch hw hn s s hstart).2.left

/-- What is found in the calls of the rules at a node. -/
def foundAt (a : Analyzer) (u : CompilationUnit) (p : Progress) (walk : Walk) (n : Node) : List Diagnostic :=
  (a.called walk n).flatMap fun r => a.outcome u p r walk n

variable {p : Progress}

theorem dispatch_adds (hc : u.IsCoherent a.provenance) (ha : a.Lawful u) {walk : Walk} (hw : walk.Within u.HasNode)
    {n : Node} (hn : u.HasNode n) (hpc : p.cancelled = false) :
    Adds (fun s => Session.Same u a.provenance p.isStoppable False s s) (a.dispatch u walk n)
      (a.foundAt u p walk n) := by
  rw [dispatch_eq]
  refine Adds.forM fun r hr => ?_
  exact tryRule_adds hc ha.predicates (ha.rules n.kind r (List.mem_of_mem_filter hr)) hw hn p hpc

/-- A step adds what is found in the call that it is. -/
theorem step_adds (hc : u.IsCoherent a.provenance) (ha : a.Lawful u) (hpc : p.cancelled = false)
    {step : Step (List Diagnostic)} (hstep : (a.scanner u).Allows u.HasNode step) :
    Adds (fun s => Session.Same u a.provenance p.isStoppable False s s) ((a.scanner u).runStep step)
      (step.call?.elim [] fun c => a.foundAt u p c.walk c.node) := by
  cases hstep with
  | arrive hn =>
    intro s hs
    obtain ⟨t, ht, hcancelled, hstoppable, hnotes, heq⟩ := (scanner_keeps hc ha).arrive hn hs.left
    rw [Scanner.runStep, Attempt.bind_apply, heq]
    cases hcs : s.cancelled
    · refine .inr ⟨rfl, ⟨⟨ht, ht, ?_, ?_, rfl, False.elim⟩, rfl⟩, fun _ => ⟨rfl, ?_⟩⟩
      · exact hstoppable.trans hs.leftStoppable
      · exact hstoppable.trans hs.leftStoppable
      · exact hnotes.trans (List.append_nil _).symm
    · exact .inl rfl
  | @call c hn hhandle hw =>
    obtain ⟨handle, walk, n⟩ := c
    rcases List.mem_singleton.1 hhandle with rfl
    exact dispatch_adds hc ha hw hn hpc

/-- The findings of all steps are those of the invocations. -/
theorem flatMap_steps (a : Analyzer) (u : CompilationUnit) (p : Progress) :
    ((a.scanner u).steps a.answer {} u.tree).flatMap
        (fun step => step.call?.elim [] fun c => a.foundAt u p c.walk c.node) =
      (a.invocations u).flatMap fun i => a.outcome u p i.rule i.walk i.node := by
  rw [Step.flatMap_call?, show ({} : Walk) = ({} : Walk).along a.answer [] from rfl,
    (Scanner.calls_steps (a.scanner u) a.answer {}).1 u.tree [], invocations, List.flatMap_assoc, List.flatMap_assoc]
  congr 1
  funext spot
  rw [List.flatMap_map]
  exact List.append_nil _

/-- The scan is called off, or adds the findings of the invocations. -/
theorem tour_adds (hc : u.IsCoherent a.provenance) (ha : a.Lawful u) (hpc : p.cancelled = false) :
    Adds (fun s => Session.Same u a.provenance p.isStoppable False s s) ((a.scanner u).tour {} u.tree)
      ((a.invocations u).flatMap fun i => a.outcome u p i.rule i.walk i.node) := by
  intro s hs
  have hstart := Walk.within_start u.HasNode ∅
  have hkeeps := scanner_keeps hc ha
  -- the tour carries out its steps, each of which adds the findings of the calls at its node
  rw [((Scanner.tour_eq_perform hkeeps).1 u.tree {} s u.hasNode_tree hstart hs.left).1, ← flatMap_steps]
  refine Adds.forM (fun step hstep => step_adds hc ha hpc ?_) s hs
  exact (Scanner.allows_steps hkeeps.below).1 u.tree {} u.hasNode_tree hstart step hstep

/-! ## Isolation -/

/-- An analysis that is called off before it begins finds nothing. -/
theorem tour_stopped (hc : u.IsCoherent a.provenance) (ha : a.Lawful u) (hpc : p.cancelled = true) :
    ((a.scanner u).tour {} u.tree (a.fresh p)).1 = .error .cancelled := by
  have hfresh : u.Truthful a.provenance (a.fresh p).resolver := u.truthful_fresh a.provenance
  obtain ⟨t, -, -, -, -, heq⟩ := (scanner_keeps hc ha).arrive u.hasNode_tree hfresh
  rw [Scanner.tour_eq, Attempt.bind_apply, heq, show (a.fresh p).cancelled = true from hpc]
  rfl

/-- What the report of an analysis is: one that is called off has a report without findings, another
one the findings of its invocations, each of which is made alone. -/
theorem analyze_report (hc : u.IsCoherent a.provenance) (ha : a.Lawful u) (p : Progress) :
    (a.analyze u p).1 = .ok { path := u.path, cancelled := true } ∨
    ∃ report, (a.analyze u p).1 = .ok report ∧ report.cancelled = false ∧
      ((a.analyze u p).2.cancelled = false → report.diagnostics =
        ((a.invocations u).flatMap fun i => a.outcome u p i.rule i.walk i.node).mergeSort Diagnostic.precedes) := by
  obtain ⟨hreport, hcancelled⟩ := analyze_eq a u p
  have hcalledOff : ((a.scanner u).tour {} u.tree (a.fresh p)).1 = .error .cancelled →
      (a.analyze u p).1 = .ok { path := u.path, cancelled := true } := by
    intro hend
    rw [hreport]
    rcases ht : (a.scanner u).tour {} u.tree (a.fresh p) with ⟨_ | _, s⟩ <;> rw [ht] at hend <;> cases hend
    rfl
  cases hpc : p.cancelled
  · rcases tour_adds hc ha hpc (a.fresh p) (a.fresh_same u p) with hend | ⟨hend, -, hadds⟩
    · exact .inl (hcalledOff hend)
    · right
      rw [hreport, hcancelled]
      rcases ht : (a.scanner u).tour {} u.tree (a.fresh p) with ⟨_ | _, s⟩ <;> rw [ht] at hend hadds <;> cases hend
      refine ⟨_, rfl, rfl, fun hlive => ?_⟩
      show s.notes.mergeSort Diagnostic.precedes = _
      rw [show s.notes = _ from (hadds hlive).2]
      rfl
  · exact .inl (hcalledOff (tour_stopped hc ha hpc))

/-- An invocation that fails comes to one warning alone, at the nearest of the node and those around
it that has a place in the source. -/
theorem outcome_failure {i : Invocation} (hi : i ∈ a.invocations u) {f : Fault} (hf : f ≠ .cancelled)
    (hfail : (a.trial u i.rule i.walk i.node (a.fresh p)).1 = .error f) :
    ∃ d, a.outcome u p i.rule i.walk i.node = [d] ∧ d.rule = failureRule ∧ d.severity = .warning ∧ d.fix = none ∧
      d.span = i.walk.path.findSome? (Source.span? u.source) := by
  refine ⟨failure u i.rule i.walk i.node f, ?_, rfl, rfl, rfl, ?_⟩
  · rw [outcome_eq (by rw [hfail]; intro hcontra; cases hcontra; exact hf rfl), hfail]
    rfl
  · obtain ⟨spot, -, hi⟩ := List.mem_flatMap.1 hi
    obtain ⟨r, -, rfl⟩ := List.mem_map.1 hi
    have hpath : (a.placeAt spot).path = spot.node :: spot.around.reverse := by
      unfold placeAt
      rw [Walk.path_along]
      simp [Spot.chain]
    unfold failure Source.enclosingSpan Walk.ancestors
    rw [hpath]
    rfl

/-- In a coherent unit a rule that fails disturbs nobody. The analysis has a report whatever fails. If
rules that fail are made to complete with the finding of the failure, as one likes and whatever they ask
meanwhile, the report stays the same, and every rule is tried at the same places. What is found is what
each invocation comes to alone, and one that fails comes to the finding of the failure and no more. -/
theorem analyze_isolated (hc : u.IsCoherent a.provenance) (ha : a.Lawful u) (p : Progress) :
    (∃ report, (a.analyze u p).1 = .ok report ∧
      (report.cancelled = false → (a.analyze u p).2.cancelled = false → report.diagnostics =
        ((a.invocations u).flatMap fun i => a.outcome u p i.rule i.walk i.node).mergeSort Diagnostic.precedes)) ∧
    (∀ b, StandIn a b u → (b.analyze u p).1 = (a.analyze u p).1 ∧
      List.Forall₂ (fun i j => a.StandsIn u i.rule j.rule ∧ j.walk = i.walk ∧ j.node = i.node)
        (a.invocations u) (b.invocations u)) ∧
    ∀ i ∈ a.invocations u, ∀ f, f ≠ .cancelled → (a.trial u i.rule i.walk i.node (a.fresh p)).1 = .error f →
      ∃ d, a.outcome u p i.rule i.walk i.node = [d] ∧ d.rule = failureRule ∧ d.severity = .warning ∧ d.fix = none ∧
        d.span = i.walk.path.findSome? (Source.span? u.source) := by
  refine ⟨?_, fun b h => ⟨h.analyze hc ha.predicates p, h.invocations⟩, fun i hi f hf hfail => ?_⟩
  · rcases analyze_report hc ha p with hreport | ⟨report, hreport, -, hfound⟩
    · exact ⟨_, hreport, fun hcontra => nomatch hcontra⟩
    · exact ⟨report, hreport, fun _ => hfound⟩
  · exact outcome_failure hi hf hfail

end Analyzer

/-! ## A rule that fails twice -/

/-- A unit with two identifiers that refer to one variable. -/
def CompilationUnit.twoReads : CompilationUnit where
  path := "reads.py"
  source := "x\nx"
  tree := {
    id := 0
    kind := .compilationUnit
    span := some ⟨0, 3, by decide⟩
    children := [
      { id := 1, kind := .identifier, symbol := some { name := "x", kind := .variableDecl } },
      { id := 2, kind := .identifier, symbol := some { name := "x", kind := .variableDecl },
        span := some ⟨2, 3, by decide⟩ }] }

/-- A rule that fails after it reported, and one that reports every identifier. -/
def Analyzer.oneFailing : Analyzer where
  rules := .ofRules [
    Script.rule { id := "Failing", severity := .error, summary := "fails", kinds := [.identifier] }
      [.report .node none .none, .fail (.raised "RuntimeError" "no answer")],
    Script.rule { id := "Reads", severity := .warning, summary := "is read", kinds := [.identifier] }
      [.report .node none .none]]
  predicates := Suppression.usual "SuppressWarnings"

theorem CompilationUnit.twoReads_node {n : Node} (hn : twoReads.HasNode n) :
    n.type = none ∧ ∀ s ∈ n.symbol, s = { name := "x", kind := .variableDecl } := by
  rcases hn with hn | ⟨m, hm, -⟩
  · simp only [twoReads, Node.preorder, Node.preorderAll, List.append_nil, List.cons_append, List.nil_append,
      List.mem_cons, List.not_mem_nil, or_false] at hn
    rcases hn with rfl | rfl | rfl <;> simp
  · exact absurd hm (Array.not_mem_empty m)

theorem CompilationUnit.twoReads_isCoherent : twoReads.IsCoherent declaredProvenance := by
  have hsymbol : ∀ s, twoReads.HasSymbol s → s = { name := "x", kind := .variableDecl } := by
    intro s hs
    induction hs with
    | ofNode hn hs => exact (twoReads_node hn).2 _ hs
    | owner _ ho ih =>
      rw [ih] at ho
      cases ho
  have htype : ∀ t, ¬ twoReads.HasType t := by
    intro t ht
    induction ht with
    | ofNode hn ht =>
      rw [(twoReads_node hn).1] at ht
      cases ht
    | ofSymbol hs ht =>
      rw [hsymbol _ hs] at ht
      cases ht
    | argument _ _ ih => exact ih
    | supertype _ _ ih => exact ih
  refine ⟨fun s _ hs => absurd hs (htype s), fun a b ha hb _ => ?_⟩
  rw [hsymbol a ha, hsymbol b hb]

theorem Analyzer.oneFailing_lawful (u : CompilationUnit) : oneFailing.Lawful u where
  predicates := Suppression.usual_lawful "SuppressWarnings"
  rules kind r hr := by
    rcases List.mem_cons.1 (RuleSet.mem_of_mem_forKind hr) with rfl | hr
    · exact Script.rule_lawful _ _
    · rcases List.mem_singleton.1 hr with rfl
      exact Script.rule_lawful _ _

theorem Analyzer.analyze_oneFailing :
    ((oneFailing.mendedAt .twoReads fun _ _ => true).analyze .twoReads {}).1 = (oneFailing.analyze .twoReads {}).1 ∧
    (∃ report, (oneFailing.analyze .twoReads {}).1 = .ok report) ∧
    (oneFailing.invocations .twoReads).map (fun i =>
        (oneFailing.outcome .twoReads {} i.rule i.walk i.node).map fun d => (d.rule, d.span.map (·.start))) =
      [[("RuleFailure", some 0)], [("Reads", some 0)], [("RuleFailure", some 2)], [("Reads", some 2)]] := by
  have ha := oneFailing_lawful .twoReads
  obtain ⟨⟨report, hreport, -⟩, hstandIn, -⟩ := analyze_isolated CompilationUnit.twoReads_isCoherent ha {}
  obtain ⟨hsame, -⟩ := hstandIn _ (mendedAt_standIn CompilationUnit.twoReads_isCoherent ha fun _ _ => true)
  refine ⟨hsame, ⟨report, hreport⟩, ?_⟩
  decide

end TreeLint
