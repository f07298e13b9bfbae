/-
What a scan does where the predicates answer the same at every time: its tour carries out the steps that
are known beforehand. Main statement: `tour_eq_perform`.
-/
import TreeLint.Proofs.Walk.Steps

namespace TreeLint

variable {ν : Type}

/-- A place in a walk through some nodes. -/
structure Walk.Within (within : Node → Prop) (w : Walk) : Prop where
  path : ∀ n ∈ w.path, within n
  scopes : ∀ n ∈ w.scopes, within n

theorem Walk.within_start (within : Node → Prop) (suppressed : NameSet) : Walk.Within within { suppressed } :=
  ⟨List.forall_mem_nil within, List.forall_mem_nil within⟩

theorem Walk.Within.enter {within : Node → Prop} {w : Walk} (h : w.Within within) {n : Node} (hn : within n)
    (s : Suppression) : (w.enter n s).Within within := by
  refine ⟨fun m hm => ?_, fun m hm => ?_⟩
  · rcases List.mem_cons.1 hm with rfl | hm
    · exact hn
    · exact h.path m hm
  · unfold Walk.enter at hm
    dsimp only at hm
    split at hm
    · rcases List.mem_cons.1 hm with rfl | hm
      · exact hn
      · exact h.scopes m hm
    · exact h.scopes m hm

namespace Scanner

/-- A scanner that leaves fit resolvers behind wherever it goes, with what its predicates answer. -/
structure Keeps (sc : Scanner ν) (within : Node → Prop) (fit : Resolver → Prop) (answer : Node → Suppression) :
    Prop where
  below : ∀ n, within n → ∀ m ∈ n.children, within m
  predicates : ∀ n, within n → ∀ r, fit r →
    (Suppression.of sc.predicates n r).1 = answer n ∧ fit (Suppression.of sc.predicates n r).2
  handlers : ∀ n, within n → ∀ handle ∈ sc.handlers n.kind, ∀ walk : Walk, walk.Within within →
    ∀ s : Session ν, fit s.resolver → fit (handle walk n s).2.resolver

/-- A step of a scan at some node. -/
inductive Allows (sc : Scanner ν) (within : Node → Prop) : Step ν → Prop
  | arrive {n : Node} : within n → Allows sc within (.arrive n)
  | call {c : Call ν} : within c.node → c.handle ∈ sc.handlers c.node.kind → c.walk.Within within →
    Allows sc within (.call c)

variable {sc : Scanner ν} {within : Node → Prop} {fit : Resolver → Prop} {answer : Node → Suppression}

theorem allows_callsAt {walk : Walk} (hw : walk.Within within) {n : Node} (hn : within n) :
    ∀ step ∈ (sc.callsAt walk n).map Step.call, sc.Allows within step := by
  intro step hstep
  obtain ⟨c, hc, rfl⟩ := List.mem_map.1 hstep
  obtain ⟨handle, hhandle, rfl⟩ := List.mem_map.1 hc
  exact .call hn hhandle hw

theorem allows_steps (hbelow : ∀ n, within n → ∀ m ∈ n.children, within m) :
    (∀ (n : Node) (walk : Walk), within n → walk.Within within →
      ∀ step ∈ sc.steps answer walk n, sc.Allows within step) ∧
    ∀ (ns : List Node) (walk : Walk), (∀ n ∈ ns, within n) → walk.Within within →
      ∀ step ∈ sc.stepsAll answer walk ns, sc.Allows within step := by
  refine Node.forest_induction (fun n ih walk hn hw step hstep => ?_) (fun walk _ _ step hstep => ?_)
    fun n ns ihn ihns walk hns hw step hstep => ?_
  · rw [steps_eq] at hstep
    rcases List.mem_cons.1 hstep with rfl | hstep
    · exact .arrive hn
    · split at hstep
      · cases hstep
      · have hw' := hw.enter hn (answer n)
        rcases List.mem_append.1 hstep with hstep | hstep
        · exact allows_callsAt hw' hn step hstep
        · exact ih _ (hbelow n hn) hw' step hstep
  · cases hstep
  · rcases List.mem_append.1 hstep with hstep | hstep
    · exact ihn walk (hns n List.mem_cons_self) hw step hstep
    · exact ihns walk (fun m hm => hns m (List.mem_cons_of_mem n hm)) hw step hstep

/-- What is found out on arrival, unless the scan was called off. The notes stay as they are. -/
theorem Keeps.arrive (h : sc.Keeps within fit answer) {n : Node} (hn : within n) {s : Session ν}
    (hs : fit s.resolver) :
    ∃ t : Session ν, fit t.resolver ∧ t.cancelled = s.cancelled ∧ t.isStoppable = s.isStoppable ∧ t.notes = s.notes ∧
      sc.arrive n s = (if s.cancelled then .error .cancelled
        else .ok (if (answer n).everything then none else some (answer n)), t) := by
  obtain ⟨hval, hfit⟩ := h.predicates n hn s.resolver hs
  cases hc : s.cancelled
  · have heq : sc.arrive n s = (do
        if (Suppression.of sc.predicates n s.resolver).1.everything then
          let name := n.name.getD ""
          Session.tell .debug .walk s!"Skipping generated {n.kind.name} subtree {name}"
          return none
        return some (Suppression.of sc.predicates n s.resolver).1 : Attempt (Session ν) (Option Suppression))
        { s with resolver := (Suppression.of sc.predicates n s.resolver).2 } := by
      unfold Scanner.arrive Session.goOn
      simp only [Attempt.bind_apply, Attempt.state_apply, hc]
      rfl
    rw [heq, hval]
    cases (answer n).everything <;>
      refine ⟨_, ?_, ?_, ?_, ?_, rfl⟩
    · exact hfit
    · exact hc
    · rfl
    · rfl
    · exact hfit
    · exact hc
    · rfl
    · rfl
  · refine ⟨s, hs, hc, rfl, rfl, ?_⟩
    unfold Scanner.arrive Session.goOn
    simp [Attempt.bind_apply, hc]

/-- A step keeps the resolver fit. -/
theorem Keeps.step (h : sc.Keeps within fit answer) {step : Step ν} (hstep : sc.Allows within step) {s : Session ν}
    (hs : fit s.resolver) : fit (sc.runStep step s).2.resolver := by
  cases hstep with
  | arrive hn =>
    obtain ⟨t, ht, -, -, -, heq⟩ := h.arrive hn hs
    rw [runStep, Attempt.bind_apply, heq]
    cases s.cancelled
    · exact ht
    · exact ht
  | @call c hn hhandle hw => exact h.handlers c.node hn c.handle hhandle c.walk hw s hs

theorem Keeps.perform (h : sc.Keeps within fit answer) :
    ∀ {steps : List (Step ν)}, (∀ step ∈ steps, sc.Allows within step) →
      ∀ {s : Session ν}, fit s.resolver → fit (sc.perform steps s).2.resolver
  | [], _, _, hs => hs
  | step :: rest, hsteps, s, hs => by
    have hstep := h.step (hsteps step List.mem_cons_self) hs
    rw [Scanner.perform, List.forM_cons, Attempt.bind_apply]
    rcases hr : sc.runStep step s with ⟨_ | _, t⟩ <;>
      rw [hr] at hstep
    · exact hstep
    · exact Keeps.perform h (fun other hother => hsteps other (List.mem_cons_of_mem step hother)) hstep

theorem perform_callsAt (sc : Scanner ν) (walk : Walk) (n : Node) :
    sc.perform ((sc.callsAt walk n).map .call) = sc.callAll walk n := by
  unfold perform callsAt callAll
  induction sc.handlers n.kind with
  | nil => rfl
  | cons handle rest ih =>
    rw [List.map_cons, List.map_cons, List.forM_cons, List.forM_cons, ih]
    rfl

theorem Keeps.callAll (h : sc.Keeps within fit answer) {walk : Walk} (hw : walk.Within within) {n : Node}
    (hn : within n) {s : Session ν} (hs : fit s.resolver) : fit (sc.callAll walk n s).2.resolver := by
  rw [← perform_callsAt]
  exact h.perform (allows_callsAt hw hn) hs

/-- A tour carries out its steps, and leaves a fit resolver behind. -/
theorem tour_eq_perform (h : sc.Keeps within fit answer) :
    (∀ (n : Node) (walk : Walk) (s : Session ν), within n → walk.Within within → fit s.resolver →
      sc.tour walk n s = sc.perform (sc.steps answer walk n) s ∧ fit (sc.tour walk n s).2.resolver) ∧
    ∀ (ns : List Node) (walk : Walk) (s : Session ν), (∀ n ∈ ns, within n) → walk.Within within → fit s.resolver →
      sc.tourAll walk ns s = sc.perform (sc.stepsAll answer walk ns) s ∧ fit (sc.tourAll walk ns s).2.resolver := by
  refine Node.forest_induction (fun n ih walk s hn hw hs => ?_) (fun walk s _ _ hs => ⟨rfl, hs⟩)
    fun n ns ihn ihns walk s hns hw hs => ?_
  · -- both arrive first; then the scan is called off, the subtree is passed over, or it is gone through
    obtain ⟨t, ht, -, -, -, heq⟩ := h.arrive hn hs
    rw [tour_eq, steps_eq, perform, List.forM_cons, ← perform, runStep, bind_assoc, Attempt.bind_apply,
      Attempt.bind_apply, heq]
    cases s.cancelled
    · cases (answer n).everything
      · rw [if_neg Bool.false_ne_true, if_neg Bool.false_ne_true, if_neg Bool.false_ne_true, perform_append,
          perform_callsAt]
        simp only [pure_bind]
        rw [Attempt.bind_apply, Attempt.bind_apply]
        have hw' := hw.enter hn (answer n)
        have hcalled := h.callAll hw' hn ht
        rcases hc : sc.callAll (walk.enter n (answer n)) n t with ⟨_ | _, t'⟩ <;>
          rw [hc] at hcalled
        · exact ⟨rfl, hcalled⟩
        · exact ih _ t' (h.below n hn) hw' hcalled
      · exact ⟨rfl, ht⟩
    · exact ⟨rfl, ht⟩
  · obtain ⟨heq, hfit⟩ := ihn walk s (hns n List.mem_cons_self) hw hs
    rw [tourAll, stepsAll, perform_append, Attempt.bind_apply, Attempt.bind_apply, ← heq]
    rcases hr : sc.tour walk n s with ⟨_ | _, t⟩ <;>
      rw [hr] at hfit
    · exact ⟨rfl, hfit⟩
    · exact ihns walk t (fun m hm => hns m (List.mem_cons_of_mem n hm)) hw hfit

end Scanner

end TreeLint
