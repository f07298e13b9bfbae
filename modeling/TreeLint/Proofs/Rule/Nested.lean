/-
Scans on behalf of a rule, as lists of steps known beforehand: the nodes below are arrived at, and the
handlers are called where the rule is not suppressed. Main statement: `scanBelow_eq_perform`.
-/
import TreeLint.Proofs.Rule.Visit
import TreeLint.Proofs.Walk.Below

namespace TreeLint

variable {ν : Type}

/-! ## Steps that do nothing -/

/-- Whether a step is done for a rule: arriving always, a call where the rule is not suppressed. -/
def Step.isFor (rule : String) : Step ν → Bool
  | .arrive _ => true
  | .call c => !c.walk.isSuppressed rule

namespace RuleM

/-- A handler of a rule as one of a scan: it has the walk of the scan in hand. -/
def handler (scene : Scene) (handle : Node → RuleM Unit) : Handler Visit :=
  fun walk n => visiting walk (handle n scene)

/-- The scanner that calls the handlers of a rule also where the rule is suppressed. -/
def openScanner (scene : Scene) (handlers : Handlers) : Scanner Visit where
  handlers kind := (handlers kind).map (handler scene)
  predicates := scene.predicates

variable {scene : Scene} {handlers : Handlers}

theorem guarded_of_suppressed {handle : Node → RuleM Unit} {walk : Walk} (h : walk.isSuppressed scene.rule.id = true)
    (n : Node) : guarded scene handle walk n = pure () :=
  if_pos h

theorem guarded_of_open {handle : Node → RuleM Unit} {walk : Walk} (h : walk.isSuppressed scene.rule.id = false)
    (n : Node) : guarded scene handle walk n = handler scene handle walk n :=
  if_neg (by rw [h]; exact Bool.false_ne_true)

/-- The guarded calls at a node are the calls there, or none where the rule is suppressed. -/
theorem perform_guarded_callsAt (walk : Walk) (n : Node) :
    (scannerBelow scene handlers).perform (((scannerBelow scene handlers).callsAt walk n).map .call) =
      (openScanner scene handlers).perform
        ((((openScanner scene handlers).callsAt walk n).map .call).filter (Step.isFor scene.rule.id)) := by
  unfold Scanner.callsAt scannerBelow openScanner
  dsimp only
  induction handlers n.kind with
  | nil => rfl
  | cons handle rest ih =>
    simp only [List.map_cons]
    cases h : walk.isSuppressed scene.rule.id
    · rw [List.filter_cons_of_pos (by simp [Step.isFor, h]), Scanner.perform, List.forM_cons, Scanner.perform,
        List.forM_cons]
      have hcall : (guarded scene handle walk n : Attempt (Session Visit) Unit) = handler scene handle walk n :=
        guarded_of_open h n
      exact congr (congrArg Bind.bind hcall) (funext fun _ => ih)
    · rw [List.filter_cons_of_neg (by simp [Step.isFor, h]), Scanner.perform, List.forM_cons]
      have hcall : (guarded scene handle walk n : Attempt (Session Visit) Unit) = pure () :=
        guarded_of_suppressed h n
      exact (congrArg (· >>= _) hcall).trans ih

/-- The guarded steps are the steps done for the rule. -/
theorem perform_guarded (answer : Node → Suppression) :
    (∀ (n : Node) (walk : Walk),
      (scannerBelow scene handlers).perform ((scannerBelow scene handlers).steps answer walk n) =
        (openScanner scene handlers).perform
          (((openScanner scene handlers).steps answer walk n).filter (Step.isFor scene.rule.id))) ∧
    ∀ (ns : List Node) (walk : Walk),
      (scannerBelow scene handlers).perform ((scannerBelow scene handlers).stepsAll answer walk ns) =
        (openScanner scene handlers).perform
          (((openScanner scene handlers).stepsAll answer walk ns).filter (Step.isFor scene.rule.id)) := by
  refine Node.forest_induction (fun n ih walk => ?_) (fun walk => rfl) fun n ns ihn ihns walk => ?_
  · rw [Scanner.steps_eq, Scanner.steps_eq, List.filter_cons_of_pos (show Step.isFor _ (.arrive n) = true from rfl),
      Scanner.perform, List.forM_cons, Scanner.perform, List.forM_cons]
    refine congrArg (Bind.bind ((scannerBelow scene handlers).runStep (.arrive n))) (funext fun _ => ?_)
    cases (answer n).everything
    · rw [if_neg Bool.false_ne_true, if_neg Bool.false_ne_true, List.filter_append]
      rw [← Scanner.perform, ← Scanner.perform, Scanner.perform_append, Scanner.perform_append,
        perform_guarded_callsAt, ih]
    · rfl
  · rw [Scanner.stepsAll, Scanner.stepsAll, List.filter_append, Scanner.perform_append, Scanner.perform_append,
      ihn, ihns]

/-! ## The steps of a scan -/

/-- Where a scan on behalf of a rule begins: nowhere yet, with what is suppressed in the walk in hand. -/
def start (outer : Walk) : Walk := { suppressed := outer.suppressed }

/-- What a scan on behalf of a rule does, given the walk in hand and what the predicates answer. -/
def stepsBelow (scene : Scene) (handlers : Handlers) (answer : Node → Suppression) (outer : Walk) (root : Node) :
    List (Step Visit) :=
  ((openScanner scene handlers).steps answer (start outer) root).filter (Step.isFor scene.rule.id)

variable {within : Node → Prop} {fit : Resolver → Prop} {answer : Node → Suppression} {outer : Walk}

/-- A scan whose predicates are settled and whose handlers leave fit resolvers behind carries out steps
that are known beforehand. -/
theorem scanBelow_eq_perform (h : (openScanner scene handlers).Keeps within fit answer) {root : Node}
    (hroot : within root) {s : Session Visit} (hs : fit s.resolver) :
    scanBelow root handlers scene s =
      (openScanner scene handlers).perform (stepsBelow scene handlers answer s.notes.traversal root) s := by
  have hguarded : (scannerBelow scene handlers).Keeps within fit answer := by
    refine ⟨h.below, h.predicates, fun n hn handle hhandle walk hw s hs => ?_⟩
    obtain ⟨inner, hinner, rfl⟩ := List.mem_map.1 hhandle
    unfold guarded
    split
    · exact hs
    · exact h.handlers n hn (handler scene inner) (List.mem_map_of_mem hinner) walk hw s hs
  rw [scanBelow_eq]
  exact ((Scanner.tour_eq_perform hguarded).1 root _ s hroot (Walk.within_start within _) hs).1.trans
    (congrFun ((perform_guarded answer).1 root _) s)

theorem allows_stepsBelow (hbelow : ∀ n, within n → ∀ m ∈ n.children, within m) {root : Node} (hroot : within root) :
    ∀ step ∈ stepsBelow scene handlers answer outer root, (openScanner scene handlers).Allows within step :=
  fun step hstep => (Scanner.allows_steps hbelow).1 root _ hroot (Walk.within_start within _) step
    (List.mem_of_mem_filter hstep)

/-- The calls of a scan on behalf of a rule: all those at the spots below where the rule is not suppressed. -/
theorem calls_stepsBelow (scene : Scene) (handlers : Handlers) (answer : Node → Suppression) (outer : Walk)
    (root : Node) : (stepsBelow scene handlers answer outer root).filterMap Step.call? =
      ((root.spots (fun n => (answer n).everything) []).filter fun q =>
          !((start outer).along answer q.chain).isSuppressed scene.rule.id).flatMap fun q =>
        (handlers q.node.kind).map fun handle =>
          ⟨handler scene handle, (start outer).along answer q.chain, q.node⟩ := by
  have hfilter (steps : List (Step Visit)) :
      (steps.filter (Step.isFor scene.rule.id)).filterMap Step.call? =
        (steps.filterMap Step.call?).filter fun c => !c.walk.isSuppressed scene.rule.id := by
    induction steps with
    | nil => rfl
    | cons step rest ih =>
      cases step with
      | arrive n => exact ih
      | call c =>
        rw [List.filterMap_cons_some (show Step.call? (.call c) = some c from rfl)]
        cases h : c.walk.isSuppressed scene.rule.id
        · rw [List.filter_cons_of_pos (by simp [Step.isFor, h]), List.filter_cons_of_pos (by simp [h]), ← ih]
          rfl
        · rw [List.filter_cons_of_neg (by simp [Step.isFor, h]), List.filter_cons_of_neg (by simp [h]), ih]
  have hcalls : ((openScanner scene handlers).steps answer (start outer) root).filterMap Step.call? = _ :=
    (Scanner.calls_steps (openScanner scene handlers) answer (start outer)).1 root []
  rw [stepsBelow, hfilter, hcalls]
  induction root.spots (fun n => (answer n).everything) [] with
  | nil => rfl
  | cons q rest ih =>
    rw [List.flatMap_cons, List.filter_append, ih]
    -- all calls at a spot are in one place, so all or none of them are done
    cases h : ((start outer).along answer q.chain).isSuppressed scene.rule.id
    · rw [List.filter_cons_of_pos (by simp [h]), List.flatMap_cons, List.filter_eq_self.2]
      · exact congrArg (· ++ _) (List.map_map ..)
      · intro c hc
        obtain ⟨handle, -, rfl⟩ := List.mem_map.1 hc
        simp [h]
    · rw [List.filter_cons_of_neg (by simp [h]), List.filter_eq_nil_iff.2]
      · rfl
      · intro c hc
        obtain ⟨handle, -, rfl⟩ := List.mem_map.1 hc
        simp [h]

end RuleM

end TreeLint
