/-
Scans none of whose handlers fails. Main statement: `scan_quiet`, that such a scan comes to the same as the
recursion on the tree, and which handlers it calls, in which order and in which places.
-/
import TreeLint.Proofs.Resolver.Steady
import TreeLint.Proofs.Walk.Calls
import TreeLint.Walk.Trace

namespace TreeLint

variable {ν : Type}

/-- A handler that neither fails nor calls the scan off, and that keeps resolvers fit. -/
structure Handler.Quiet (fit : Resolver → Prop) (handle : Handler ν) : Prop where
  result : ∀ walk n (s : Session ν), fit s.resolver → (handle walk n s).1 = .ok ()
  cancelled : ∀ walk n (s : Session ν), fit s.resolver → (handle walk n s).2.cancelled = s.cancelled
  fit : ∀ walk n (s : Session ν), fit s.resolver → fit (handle walk n s).2.resolver

/-- A trace that is told neither to fail nor to cancel is quiet, whatever the resolver. -/
theorem Trace.quiet : Handler.Quiet (fun _ => True) ({} : Trace).handle where
  result _ _ _ _ := rfl
  cancelled _ _ _ _ := rfl
  fit _ _ _ _ := trivial

namespace Scanner

variable {sc : Scanner ν} {fit : Resolver → Prop} {answer : Node → Suppression}

theorem Keeps.of_quiet (hp : ∀ p ∈ sc.predicates, Suppression.Steady fit (fun _ => True) p)
    (hh : ∀ kind, ∀ handle ∈ sc.handlers kind, Handler.Quiet fit handle) {r : Resolver} (hr : fit r) :
    sc.Keeps (fun _ => True) fit fun n => (Suppression.of sc.predicates n r).1 := by
  have hsteady := Suppression.Steady.of hp
  refine ⟨fun _ _ _ _ => trivial, fun n hn r' hr' => ?_, fun n _ handle hmem walk _ => ?_⟩
  · exact ⟨(hsteady n hn).answer hr' hr, (hsteady n hn).stays hr'⟩
  · exact (hh n.kind handle hmem).fit walk n

/-- Nothing stops a scan that goes on if its handlers complete and do not call it off. -/
theorem perform_completes {within : Node → Prop} (h : sc.Keeps within fit answer)
    (hh : ∀ n, within n → ∀ handle ∈ sc.handlers n.kind, ∀ walk : Walk, walk.Within within → ∀ s : Session ν,
      fit s.resolver → (handle walk n s).1 = .ok () ∧ (handle walk n s).2.cancelled = s.cancelled) :
    ∀ {steps : List (Step ν)}, (∀ step ∈ steps, sc.Allows within step) →
      ∀ {s : Session ν}, fit s.resolver → s.cancelled = false → (sc.perform steps s).1 = .ok ()
  | [], _, _, _, _ => rfl
  | step :: rest, hsteps, s, hs, hc => by
    have hstep : ∃ t, sc.runStep step s = (.ok (), t) ∧ fit t.resolver ∧ t.cancelled = false := by
      cases hsteps step List.mem_cons_self with
      | arrive hn =>
        obtain ⟨t, ht, htc, -, -, heq⟩ := h.arrive hn hs
        refine ⟨t, ?_, ht, htc.trans hc⟩
        rw [runStep, Attempt.bind_apply, heq, hc]
        rfl
      | @call c hn hhandle hw =>
        obtain ⟨hres, hlive⟩ := hh c.node hn c.handle hhandle c.walk hw s hs
        exact ⟨(c.handle c.walk c.node s).2, Prod.ext hres rfl,
          h.handlers c.node hn c.handle hhandle c.walk hw s hs, hlive.trans hc⟩
    obtain ⟨t, heq, ht, htc⟩ := hstep
    rw [perform, List.forM_cons, Attempt.bind_apply, heq]
    exact perform_completes h hh (fun other hother => hsteps other (List.mem_cons_of_mem step hother)) ht htc

/-- With quiet handlers, nothing stops a scan that goes on. -/
theorem perform_quiet (h : sc.Keeps (fun _ => True) fit answer)
    (hh : ∀ kind, ∀ handle ∈ sc.handlers kind, Handler.Quiet fit handle) {steps : List (Step ν)}
    (hsteps : ∀ step ∈ steps, sc.Allows (fun _ => True) step) {s : Session ν} (hs : fit s.resolver)
    (hc : s.cancelled = false) : (sc.perform steps s).1 = .ok () := by
  refine perform_completes h (fun n _ handle hmem walk _ s hs => ?_) hsteps hs hc
  have hquiet := hh n.kind handle hmem
  exact ⟨hquiet.result walk n s hs, hquiet.cancelled walk n s hs⟩

/-- A scan with steady predicates and quiet handlers comes to the same as the recursion on the tree.
It ends where it began, and has carried out the steps known beforehand. The calls among them are those
of the handlers of each node that is not cut off, in pre-order and in the order of the handlers, and
each of them is at the place that the nodes from the root down to its node lead to. -/
theorem scan_quiet (hp : ∀ p ∈ sc.predicates, Suppression.Steady fit (fun _ => True) p)
    (hh : ∀ kind, ∀ handle ∈ sc.handlers kind, Handler.Quiet fit handle) (root : Node) (s : Scan ν)
    (hs : fit s.resolver) (hc : s.cancelled = false) :
    let answer := fun n => (Suppression.of sc.predicates n s.resolver).1
    let spots := root.spots (fun n => (answer n).everything) []
    sc.scan root s = sc.descend root s ∧
    (∃ after, sc.scan root s = (.ok (), ⟨after, s.walk⟩) ∧
      sc.perform (sc.steps answer s.walk root) s.toSession = (.ok (), after)) ∧
    (sc.steps answer s.walk root).filterMap Step.call? =
      spots.flatMap (fun p => sc.callsAt (s.walk.along answer p.chain) p.node) ∧
    ∀ p ∈ spots,
      (s.walk.along answer p.chain).path = p.chain.reverse ++ s.walk.path ∧
      (s.walk.along answer p.chain).scopes = (p.chain.filter Node.isContainer).reverse ++ s.walk.scopes ∧
      ∀ rule, rule ∈ (s.walk.along answer p.chain).suppressed ↔
        rule ∈ s.walk.suppressed ∨ ∃ n ∈ p.chain, rule ∈ (answer n).rules := by
  intro answer spots
  have hkeeps := Keeps.of_quiet hp hh hs
  have hwalk : s.walk.Within fun _ => True := ⟨fun _ _ => trivial, fun _ _ => trivial⟩
  obtain ⟨heq, -⟩ := (tour_eq_perform hkeeps).1 root s.walk s.toSession trivial hwalk hs
  have hcalls := (calls_steps sc answer s.walk).1 root []
  have hallows : ∀ step ∈ sc.steps answer s.walk root, sc.Allows (fun _ => True) step :=
    (allows_steps hkeeps.below).1 root s.walk trivial hwalk
  have hok := perform_quiet hkeeps hh hallows hs hc
  refine ⟨by rw [scan_eq_descend], ⟨(sc.perform (sc.steps answer s.walk root) s.toSession).2, ?_, ?_⟩, hcalls, ?_⟩
  · exact (scan_roundTrip sc root).apply (heq.trans (Prod.ext hok rfl))
  · exact Prod.ext hok rfl
  · intro p _
    exact ⟨Walk.path_along answer _ _, Walk.scopes_along answer _ _, Walk.mem_suppressed_along answer _ _⟩

end Scanner

/-- A class with a method and a generated class in it, and a marking on each of the first two. -/
def Node.nestedClass : Node where
  id := 0
  kind := .classDecl
  annotations := [⟨"SuppressWarnings", ["LeakedSubclass"]⟩]
  children := [
    { id := 1, kind := .method, annotations := [⟨"SuppressWarnings", ["RandomRemainder"]⟩],
      children := [{ id := 2, kind := .identifier }] },
    { id := 3, kind := .classDecl, name := some "Generated", children := [{ id := 4, kind := .identifier }] }]

theorem Scanner.scan_nestedClass :
    let sc := Trace.scanner {} [.classDecl, .identifier] 2
      [Suppression.ofMarking "SuppressWarnings", Suppression.ofNodes none (some (some "Generated")) .all]
    let s : Scan (List Walk) := { notes := [], walk := {} }
    (∃ after, sc.scan Node.nestedClass s = (.ok (), ⟨after, s.walk⟩)) ∧
    ((sc.steps (fun n => (Suppression.of sc.predicates n s.resolver).1) s.walk Node.nestedClass).filterMap
      Step.call?).map (fun c => (c.walk.path.map (·.id), c.walk.scopes.map (·.id), c.walk.suppressed.toList)) =
      [([0], [0], ["LeakedSubclass"]), ([0], [0], ["LeakedSubclass"]),
        ([2, 1, 0], [1, 0], ["LeakedSubclass", "RandomRemainder"]),
        ([2, 1, 0], [1, 0], ["LeakedSubclass", "RandomRemainder"])] := by
  intro sc s
  have hp : ∀ p ∈ sc.predicates, Suppression.Steady (fun _ => True) (fun _ => True) p := by
    intro p hp
    rcases List.mem_cons.1 hp with rfl | hp
    · exact Suppression.Steady.of_pure _
    · rcases List.mem_singleton.1 hp with rfl
      exact Suppression.Steady.of_pure _
  have hh : ∀ kind, ∀ handle ∈ sc.handlers kind, Handler.Quiet (fun _ => True) handle := by
    intro kind handle hmem
    have : handle = ({} : Trace).handle := by
      simp only [sc, Trace.scanner] at hmem
      split at hmem
      · exact List.eq_of_mem_replicate hmem
      · cases hmem
    rw [this]
    exact Trace.quiet
  obtain ⟨-, ⟨after, hscan, -⟩, hcalls, -⟩ := scan_quiet hp hh Node.nestedClass s trivial rfl
  refine ⟨⟨after, hscan⟩, ?_⟩
  rw [hcalls]
  decide

end TreeLint
