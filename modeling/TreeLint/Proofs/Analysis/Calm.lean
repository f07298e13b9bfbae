/-
Analyses that nobody calls off. Where no rule calls the analysis off, every rule is tried at every place
that it is called at, and the report has what each of these trials comes to alone. Main statement:
`analyze_calm`.
-/
import TreeLint.Proofs.Analysis.Isolation
import TreeLint.Proofs.Report.Order

namespace TreeLint.Analyzer

variable {ν : Type} {u : CompilationUnit} {a : Analyzer} {p : Progress} {r : Rule} {walk : Walk} {n : Node}

/-- The spots of a unit that an analysis comes to, in the order of the walk. -/
def visited (a : Analyzer) (u : CompilationUnit) : List Spot :=
  u.tree.spots (fun n => (a.answer n).everything) []

/-- All findings of the rules tried in a unit, each rule alone, in the order of the walk. -/
def found (a : Analyzer) (u : CompilationUnit) (p : Progress) : List Diagnostic :=
  (a.invocations u).flatMap fun i => a.outcome u p i.rule i.walk i.node

/-- A rule that, tried at a place, neither calls the analysis off nor says that it was called off. -/
structure CalmAt (a : Analyzer) (u : CompilationUnit) (p : Progress) (i : Invocation) : Prop where
  passes : (a.trial u i.rule i.walk i.node (a.fresh p)).1 ≠ .error .cancelled
  live : (a.trial u i.rule i.walk i.node (a.fresh p)).2.cancelled = false

/-- The rules of the analyzer do not call the analysis of the unit off. -/
def Calm (a : Analyzer) (u : CompilationUnit) (p : Progress) : Prop :=
  ∀ i ∈ a.invocations u, a.CalmAt u p i

/-! ## One step -/

/-- A session in the midst of an analysis that was not called off. -/
structure Going (a : Analyzer) (u : CompilationUnit) (p : Progress) (s : Session ν) : Prop where
  same : Session.Same u a.provenance p.isStoppable False s s
  live : s.cancelled = false

theorem Going.truthful {s : Session ν} (hs : a.Going u p s) : u.Truthful a.provenance s.resolver :=
  hs.same.left

theorem Going.stoppable {s : Session ν} (hs : a.Going u p s) : s.isStoppable = p.isStoppable :=
  hs.same.leftStoppable

theorem Going.of {s : Session ν} (htruthful : u.Truthful a.provenance s.resolver)
    (hstoppable : s.isStoppable = p.isStoppable) (hlive : s.cancelled = false) : a.Going u p s :=
  ⟨⟨⟨htruthful, htruthful, hstoppable, hstoppable, rfl, False.elim⟩, rfl⟩, hlive⟩

/-- A computation that completes and adds some findings to those that the notes had before. -/
def Finds (noted : ν → List Diagnostic) (inv : Session ν → Prop) (x : Attempt (Session ν) Unit)
    (found : List Diagnostic) : Prop :=
  ∀ s, inv s → (x s).1 = .ok () ∧ inv (x s).2 ∧ noted (x s).2.notes = noted s.notes ++ found

variable {noted : ν → List Diagnostic}

theorem Finds.forM {ι : Type} {inv : Session ν → Prop} {f : ι → Attempt (Session ν) Unit}
    {found : ι → List Diagnostic} :
    ∀ {xs : List ι}, (∀ x ∈ xs, Finds noted inv (f x) (found x)) → Finds noted inv (forM xs f) (xs.flatMap found)
  | [], _, s, hs => ⟨rfl, hs, (List.append_nil (noted s.notes)).symm⟩
  | x :: xs, h, s, hs => by
    obtain ⟨hx, hinv, hnotes⟩ := h x List.mem_cons_self s hs
    obtain ⟨hrest, hinv', hnotes'⟩ := Finds.forM (fun y hy => h y (List.mem_cons_of_mem x hy)) (f x s).2 hinv
    have heq : (ForM.forM (x :: xs) f : Attempt (Session ν) Unit) s = ForM.forM xs f (f x s).2 := by
      rw [List.forM_cons, Attempt.bind_apply, show f x s = (.ok (), (f x s).2) from Prod.ext hx rfl]
    rw [heq, List.flatMap_cons]
    exact ⟨hrest, hinv', by rw [hnotes', hnotes, List.append_assoc]⟩

theorem fresh_going (a : Analyzer) (u : CompilationUnit) (hpc : p.cancelled = false) : a.Going u p (a.fresh p) :=
  ⟨a.fresh_same u p, hpc⟩

/-- A calm trial in the midst of an analysis adds what it comes to alone. -/
theorem tryRule_finds (hc : u.IsCoherent a.provenance) (hp : ∀ q ∈ a.predicates, Suppression.Lawful u q)
    (hr : r.Lawful u) (hw : walk.Within u.HasNode) (hn : u.HasNode n) (hpc : p.cancelled = false)
    (h : a.CalmAt u p ⟨r, walk, n⟩) : Finds id (a.Going u p) (a.tryRule u r walk n) (a.outcome u p r walk n) := by
  intro s hs
  obtain ⟨-, hsame⟩ := tryRule_standsIn (standsIn_self hc hp hr) rfl hw hn s s hs.same
  have hstart : Session.Like u a.provenance p.isStoppable False s (a.fresh p) :=
    ⟨hs.same.left, u.truthful_fresh a.provenance, hs.same.leftStoppable, rfl, hs.live.trans hpc.symm, False.elim⟩
  obtain ⟨hres, hend⟩ := trial_alike hc hp hr hw hn _ _ hstart
  obtain ⟨log, heq⟩ := tryRule_kept (hres ▸ h.passes)
  refine ⟨by rw [heq], ⟨hsame, ?_⟩, ?_⟩
  · rw [heq]
    exact hend.cancelled.trans h.live
  · rw [heq, outcome_eq h.passes, ← hres]
    rfl

theorem dispatch_finds (hc : u.IsCoherent a.provenance) (ha : a.Lawful u) (hw : walk.Within u.HasNode)
    (hn : u.HasNode n) (hpc : p.cancelled = false) (h : ∀ r ∈ a.called walk n, a.CalmAt u p ⟨r, walk, n⟩) :
    Finds id (a.Going u p) (a.dispatch u walk n) (a.foundAt u p walk n) := by
  rw [dispatch_eq]
  exact Finds.forM fun r hr =>
    tryRule_finds hc ha.predicates (ha.rules n.kind r (List.mem_of_mem_filter hr)) hw hn hpc (h r hr)

/-- Steps find what the calls among them find; arriving at a node finds nothing. -/
theorem perform_finds {sc : Scanner ν} {within : Node → Prop} {answer : Node → Suppression}
    (h : sc.Keeps within (u.Truthful a.provenance) answer) {steps : List (Step ν)}
    (hsteps : ∀ step ∈ steps, sc.Allows within step) (found : Call ν → List Diagnostic)
    (hcalls : ∀ c, .call c ∈ steps → Finds noted (a.Going u p) (c.handle c.walk c.node) (found c)) :
    Finds noted (a.Going u p) (sc.perform steps) ((steps.filterMap Step.call?).flatMap found) := by
  rw [← Step.flatMap_call?]
  refine Finds.forM fun step hstep => ?_
  cases hsteps step hstep with
  | @arrive n hn =>
    intro s hs
    obtain ⟨t, ht, hcancelled, hstoppable, hnotes, heq⟩ := h.arrive hn hs.truthful
    have hgoing : a.Going u p t := .of ht (hstoppable.trans hs.stoppable) (hcancelled.trans hs.live)
    rw [Scanner.runStep, Attempt.bind_apply, heq, hs.live]
    exact ⟨rfl, hgoing, (congrArg noted hnotes).trans (List.append_nil _).symm⟩
  | call => exact hcalls _ hstep

/-! ## The whole unit -/

/-- The rules are called at the visited spots. -/
theorem calls_scanner (a : Analyzer) (u : CompilationUnit) :
    ((a.scanner u).steps a.answer {} u.tree).filterMap Step.call? =
      (a.visited u).map fun q => ⟨a.dispatch u, a.placeAt q, q.node⟩ := by
  rw [show ({} : Walk) = ({} : Walk).along a.answer [] from rfl,
    (Scanner.calls_steps (a.scanner u) a.answer {}).1 u.tree []]
  exact List.map_eq_flatMap.symm

theorem call_of_mem_steps {c : Call (List Diagnostic)} (h : .call c ∈ (a.scanner u).steps a.answer {} u.tree) :
    ∃ spot ∈ a.visited u, c = ⟨a.dispatch u, a.placeAt spot, spot.node⟩ := by
  have hcall : c ∈ ((a.scanner u).steps a.answer {} u.tree).filterMap Step.call? := List.mem_filterMap.2 ⟨_, h, rfl⟩
  rw [calls_scanner] at hcall
  obtain ⟨spot, hspot, rfl⟩ := List.mem_map.1 hcall
  exact ⟨spot, hspot, rfl⟩

theorem within_of_visited {q : Spot} (h : q ∈ a.visited u) :
    u.HasNode q.node ∧ (a.placeAt q).Within u.HasNode := by
  have hcall := List.mem_map_of_mem (f := fun q => (⟨a.dispatch u, a.placeAt q, q.node⟩ : Call (List Diagnostic))) h
  rw [← calls_scanner] at hcall
  obtain ⟨step, hstep, heq⟩ := List.mem_filterMap.1 hcall
  have hallows := (Scanner.allows_steps fun _ hn _ hm => hn.child hm).1 u.tree {} u.hasNode_tree
    (Walk.within_start u.HasNode ∅) step hstep
  cases hallows with
  | arrive => cases heq
  | call hn _ hw =>
    cases heq
    exact ⟨hn, hw⟩

theorem mem_invocations {i : Invocation} : i ∈ a.invocations u ↔
    ∃ spot ∈ a.visited u, ∃ r ∈ a.called (a.placeAt spot) spot.node, i = ⟨r, a.placeAt spot, spot.node⟩ := by
  unfold invocations visited
  simp only [List.mem_flatMap, List.mem_map, eq_comm]

theorem found_eq (a : Analyzer) (u : CompilationUnit) (p : Progress) :
    a.found u p = (a.visited u).flatMap fun q => a.foundAt u p (a.placeAt q) q.node := by
  unfold found invocations foundAt
  rw [List.flatMap_assoc]
  exact congrArg (List.flatMap · (a.visited u)) (funext fun q => List.flatMap_map ..)

theorem tour_finds (hc : u.IsCoherent a.provenance) (ha : a.Lawful u) (hpc : p.cancelled = false)
    (h : a.Calm u p) : Finds id (a.Going u p) ((a.scanner u).tour {} u.tree) (a.found u p) := by
  intro s hs
  have hstart := Walk.within_start u.HasNode ∅
  have hkeeps := scanner_keeps hc ha
  have hfound : (((a.scanner u).steps a.answer {} u.tree).filterMap Step.call?).flatMap
      (fun c => a.foundAt u p c.walk c.node) = a.found u p := by
    rw [calls_scanner, List.flatMap_map, found_eq]
  rw [((Scanner.tour_eq_perform hkeeps).1 u.tree {} s u.hasNode_tree hstart hs.truthful).1, ← hfound]
  refine perform_finds hkeeps ((Scanner.allows_steps hkeeps.below).1 u.tree {} u.hasNode_tree hstart) _
    (fun c hcall => ?_) s hs
  obtain ⟨q, hq, rfl⟩ := call_of_mem_steps hcall
  obtain ⟨hn, hw⟩ := within_of_visited hq
  exact dispatch_finds hc ha hw hn hpc fun r hr => h _ (mem_invocations.2 ⟨q, hq, r, hr, rfl⟩)

/-- The report of an analysis that nobody calls off has all findings of the rules, sorted. -/
theorem analyze_calm (hc : u.IsCoherent a.provenance) (ha : a.Lawful u) (hpc : p.cancelled = false)
    (h : a.Calm u p) :
    (a.analyze u p).1 = .ok { path := u.path, diagnostics := Diagnostic.sorted (a.found u p) } := by
  obtain ⟨hend, -, hnotes⟩ := tour_finds hc ha hpc h (a.fresh p) (a.fresh_going u hpc)
  rw [(analyze_eq a u p).1]
  rcases ht : (a.scanner u).tour {} u.tree (a.fresh p) with ⟨_ | _, s⟩ <;> rw [ht] at hend hnotes <;> cases hend
  rw [reportOf, show s.notes = a.found u p from hnotes]
  rfl

/-- The report of an analysis that was called off before it began. -/
theorem analyze_stopped (hc : u.IsCoherent a.provenance) (ha : a.Lawful u) (hpc : p.cancelled = true) :
    (a.analyze u p).1 = .ok { path := u.path, cancelled := true } := by
  have hend := tour_stopped hc ha hpc
  rw [(analyze_eq a u p).1]
  rcases ht : (a.scanner u).tour {} u.tree (a.fresh p) with ⟨_ | _, s⟩ <;> rw [ht] at hend <;> cases hend
  rfl

end TreeLint.Analyzer
