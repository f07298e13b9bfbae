/-
Rules whose work is a routine that leaves the call to stop alone: every script that does not fail as if it had
been called off, and the rules that come with the program.
-/
import TreeLint.Proofs.Rule.Builtin
import TreeLint.Proofs.Rule.Lawful
import TreeLint.Proofs.Session.Routine
import TreeLint.Rule.Script

namespace TreeLint

variable {α β : Type}

/-- What a rule does at a node, as a routine. -/
abbrev RuleWork := Node → Scene → Routine Visit (Option Diagnostic)

/-- A rule that neither looks at the call to stop nor fails as if it had been heard. It may call the analysis
off, and it passes on what the scans that it starts hear. -/
structure Rule.Follows (r : Rule) (work : RuleWork) : Prop where
  test : ∀ n resolver, (r.test n resolver).1 ≠ .error .cancelled
  describe : ∀ n scene, r.describe n scene = (work n scene).run
  heedless : ∀ n scene, (work n scene).Heedless

/-! ## Faults of their own -/

theorem Span.ofBounds_owned (start stop : Int) : Owned (ofBounds start stop) := by
  unfold ofBounds
  split
  · exact .ok _
  · exact .error nofun

theorem entryAt_owned (entries : Array α) (position : Int) : Owned (entryAt entries position) := by
  refine FailsOnly.map ?_ _
  unfold indexOf
  split
  · exact .error nofun
  · dsimp only
    split <;> split <;> first | exact .ok _ | exact .error nofun

theorem NodeKind.ofName_owned (name : String) : Owned (ofName name) := by
  unfold ofName
  cases ofName? name with
  | none => exact .error nofun
  | some kind => exact .ok kind

theorem Severity.ofName_owned (name : String) : Owned (ofName name) := by
  unfold ofName
  split
  · exact .ok _
  · split
    · exact .ok _
    · exact .error nofun

theorem Fix.of_owned (edits : List Edit) : Owned (of edits) := by
  unfold of
  dsimp only
  split
  · exact .error nofun
  · exact .ok _

theorem EditRequest.edit_owned (source : String) (request : EditRequest) : Owned (request.edit source) := by
  have hspan (n : Node) : Owned (Source.spanOf source n) := .of_lenient (Source.spanOf_lenient source n)
  cases request with
  | replaceSpan start stop text =>
    refine (Span.ofBounds_owned start stop).bind fun span => ?_
    split
    · exact .error nofun
    · exact .ok _
  | replace target text => exact (hspan target).bind fun _ => .ok _
  | prefixWith target text => exact (hspan target).bind fun _ => .ok _
  | postfixWith target text => exact (hspan target).bind fun _ => .ok _
  | delete target => exact (hspan target).bind fun _ => .ok _

/-! ## Findings -/

namespace RuleM

theorem keepFix_blind (n : Node) {fix : Except Fault (Option Fix)} (hfix : Owned fix) (scene : Scene) :
    (keepFix n fix scene).Blind := by
  cases fix with
  | ok f => exact .pure f
  | error f =>
    have hkeep : keepFix n (.error f) scene = if f.isLetGo then (do
        Session.tell .warning .rules s!"Dropping fix for {scene.rule.id} at {n.kind.name}: {f.message}"
        return none) else Attempt.lift (.error f) := by
      unfold keepFix
      cases f <;> rfl
    rw [hkeep]
    split
    · exact (Attempt.Blind.tell _ _ _).bind fun _ => .pure none
    · exact .lift hfix

theorem traversal_blind (scene : Scene) : (traversal scene).Blind :=
  ⟨fun _ _ => rfl, fun _ h => nomatch h⟩

theorem reported_blind (scene : Scene) : (reported scene).Blind :=
  ⟨fun _ _ => rfl, fun _ h => nomatch h⟩

theorem describeMatch_blind (n : Node) (message : Option String) {fix : Except Fault (Option Fix)} (hfix : Owned fix)
    (scene : Scene) : (describeMatch n message fix scene).Blind := by
  rw [describeMatch_eq]
  exact (traversal_blind scene).bind fun _ => (keepFix_blind n hfix scene).bind fun _ => .pure _

theorem report_blind (d : Diagnostic) (scene : Scene) :
    ((do report d; return none : RuleM (Option Diagnostic)) scene).Blind := by
  show (report d scene >>= fun _ => pure none).Blind
  exact (Attempt.Blind.note _).bind fun _ => .pure none

end RuleM

/-! ## Scans below -/

namespace Routine

/-- Does something with another walk in hand. -/
def visiting (walk : Walk) (x : Routine Visit α) : Routine Visit α :=
  .through (fun v => { v with traversal := walk }) (fun former v => { v with traversal := former.traversal }) x

theorem run_visiting (walk : Walk) (x : Routine Visit α) : (visiting walk x).run = RuleM.visiting walk x.run :=
  (RuleM.visiting_eq walk x.run).symm

/-- Scans a subtree on behalf of a rule. -/
def scanBelow (root : Node) (handlers : NodeKind → List (Node → Scene → Routine Visit Unit))
    (scene : Scene) : Routine Visit Unit :=
  .bind (.act (RuleM.traversal scene)) fun outer =>
    tour scene.predicates
      (fun walk n => each (handlers n.kind) fun handle =>
        if walk.isSuppressed scene.rule.id then skip else visiting walk (handle n scene))
      { suppressed := outer.suppressed } root

variable {handlers : NodeKind → List (Node → Scene → Routine Visit Unit)}

theorem run_scanBelow (root : Node) (scene : Scene) : (scanBelow root handlers scene).run =
    RuleM.scanBelow root (fun kind => (handlers kind).map fun handle n scene => (handle n scene).run) scene := by
  rw [RuleM.scanBelow_eq]
  refine congrArg (RuleM.traversal scene >>= ·) (funext fun outer => ?_)
  refine (run_tour (RuleM.scannerBelow scene _) fun walk n => ?_).1 root _
  rw [run_each fun _ _ => rfl, Scanner.callAll, RuleM.scannerBelow]
  dsimp only
  rw [List.map_map]
  induction handlers n.kind with
  | nil => rfl
  | cons handle rest ih =>
    rw [List.map_cons, List.forM_cons, List.forM_cons, ih]
    congr 1
    show _ = RuleM.guarded scene _ walk n
    unfold RuleM.guarded
    split
    · rfl
    · exact run_visiting walk _

theorem scanBelow_heedless (h : ∀ n, ∀ handle ∈ handlers n.kind, ∀ scene, (handle n scene).Heedless) (root : Node)
    (scene : Scene) : (scanBelow root handlers scene).Heedless := by
  refine ⟨RuleM.traversal_blind scene, fun outer => ?_⟩
  refine (tour_heedless (fun walk n => each_heedless fun handle hmem => ?_) scene.predicates).1 root _
  split
  · exact skip_heedless
  · exact h n handle hmem scene

end Routine

/-! ## Scripts -/

namespace Script

theorem select_owned (s : Selector) (u : CompilationUnit) (n : Node) : Owned (s.select u n) := by
  cases s with
  | node => exact .ok _
  | receiver => exact .ok _
  | child index => exact .ok _
  | pooled position => exact entryAt_owned u.pool position

theorem rawFix_owned (edits : List RawEdit) : Owned (rawFix edits) := by
  have hedit (e : RawEdit) : Owned e.edit := (Span.ofBounds_owned e.start e.stop).bind fun _ => .ok _
  exact (FailsOnly.mapM hedit edits).map Fix.mk

theorem buildFix_owned (edits : List ScriptedEdit) (u : CompilationUnit) (n : Node) : Owned (buildFix edits u n) := by
  have hrequest (e : ScriptedEdit) : Owned (e.request u n) := by
    cases e with
    | replaceSpan edit => exact .ok _
    | replace target text => exact (select_owned target u n).bind fun _ => .ok _
    | prefixWith target text => exact (select_owned target u n).bind fun _ => .ok _
    | postfixWith target text => exact (select_owned target u n).bind fun _ => .ok _
    | delete target => exact (select_owned target u n).bind fun _ => .ok _
  have hedit (e : ScriptedEdit) : Owned (do (← e.request u n).edit u.source) :=
    (hrequest e).bind fun request => request.edit_owned u.source
  exact (FailsOnly.mapM hedit edits).bind fun edits => Fix.of_owned edits

theorem diagnostic_owned (d : RawDiagnostic) : Owned d.diagnostic := by
  have hspan : Owned (d.span.mapM fun bounds => Span.ofBounds bounds.1 bounds.2) :=
    .optionMapM (fun bounds => Span.ofBounds_owned bounds.1 bounds.2) d.span
  exact (Severity.ofName_owned d.severity).bind fun _ => hspan.bind fun _ =>
    (FailsOnly.optionMapM rawFix_owned d.fix).bind fun _ => .ok _

theorem findAt_blind (target : Selector) (message : Option String) (fix : FixScript) (n : Node) (scene : Scene) :
    (findAt target message fix n scene).Blind := by
  have hselect := select_owned target scene.unit n
  cases fix with
  | none => exact (Attempt.Blind.lift hselect).bind fun found => RuleM.describeMatch_blind found message (.ok _) scene
  | raw edits =>
    exact (Attempt.Blind.lift (rawFix_owned edits)).bind fun _ => (Attempt.Blind.lift hselect).bind fun found =>
      RuleM.describeMatch_blind found message (.ok _) scene
  | built edits =>
    exact (Attempt.Blind.lift hselect).bind fun found =>
      RuleM.describeMatch_blind found message ((buildFix_owned edits scene.unit n).map some) scene

mutual

/-- Whether an action does not fail as if it had been called off. -/
def isOwn : Action → Bool
  | .fail fault => fault ≠ .cancelled
  | .scan _ _ body => areOwn body
  | _ => true

def areOwn : List Action → Bool
  | [] => true
  | action :: rest => isOwn action && areOwn rest

end

mutual

def actionRoutine : Action → RuleWork
  | .cancel, _, _ => .bind .cancel fun _ => .act (pure none)
  | .scan root kinds body, n, scene =>
    .bind (.act (Attempt.lift (root.select scene.unit n))) fun start =>
    .bind (.act (Attempt.lift (kinds.mapM NodeKind.ofName))) fun kinds =>
    .bind (Routine.scanBelow start (fun kind => if kinds.contains kind then [fun m scene =>
      .bind (actionsRoutine body m scene) fun _ => .skip] else []) scene) fun _ => .act (pure none)
  | action, n, scene => .act (runAction action n scene)

def actionsRoutine : List Action → RuleWork
  | [], _, _ => .act (pure none)
  | action :: rest, n, scene => .bind (actionRoutine action n scene) fun
    | some d => .act (pure (some d))
    | none => actionsRoutine rest n scene

end

mutual

theorem run_actionRoutine : ∀ (action : Action) (n : Node) (scene : Scene),
    (actionRoutine action n scene).run = runAction action n scene
  | .report .., _, _ => rfl
  | .answer .., _, _ => rfl
  | .reportRaw _, _, _ => rfl
  | .answerRaw _, _, _ => rfl
  | .quote _, _, _ => rfl
  | .fail _, _, _ => rfl
  | .cancel, _, _ => rfl
  | .scan root kinds body, n, scene => by
    have hhandle (kinds : List NodeKind) (kind : NodeKind) :
        (if kinds.contains kind then
          [fun m scene => Routine.bind (actionsRoutine body m scene) fun _ => .skip] else []).map
            (fun handle n scene => (handle n scene).run) =
        if kinds.contains kind then [fun m => discard (runActions body m)] else [] := by
      split
      · refine congrArg (fun handle => [handle]) (funext fun m => funext fun scene => ?_)
        show ((actionsRoutine body m scene).run >>= fun _ => Routine.skip.run) = _
        rw [run_actionsRoutine body]
        rfl
      · rfl
    rw [actionRoutine]
    simp only [Routine.run, Routine.run_scanBelow, hhandle]
    rfl

theorem run_actionsRoutine : ∀ (actions : List Action) (n : Node) (scene : Scene),
    (actionsRoutine actions n scene).run = runActions actions n scene
  | [], _, _ => rfl
  | action :: rest, n, scene => by
    rw [actionsRoutine, Routine.run, run_actionRoutine action]
    show _ = runAction action n scene >>= _
    congr 1
    funext answer
    cases answer with
    | some d => rfl
    | none => exact run_actionsRoutine rest n scene

end

mutual

theorem actionRoutine_heedless : ∀ (action : Action), isOwn action = true → ∀ (n : Node) (scene : Scene),
    (actionRoutine action n scene).Heedless
  | .report target message fix, _, n, scene =>
    (findAt_blind target message fix n scene).bind fun d => RuleM.report_blind d scene
  | .answer target message fix, _, n, scene => (findAt_blind target message fix n scene).map some
  | .reportRaw finding, _, _, scene =>
    (Attempt.Blind.lift (diagnostic_owned finding)).bind fun d => RuleM.report_blind d scene
  | .answerRaw finding, _, _, _ => (Attempt.Blind.lift (diagnostic_owned finding)).map some
  | .quote target, _, n, scene => by
    have htext : Owned (do Source.textOf scene.unit.source (← target.select scene.unit n)) :=
      (select_owned target scene.unit n).bind fun m => Owned.of_lenient (Source.textOf_lenient scene.unit.source m)
    exact (Attempt.Blind.lift htext).bind fun text =>
      (RuleM.describeMatch_blind n (some text) (.ok none) scene).bind fun d => RuleM.report_blind d scene
  | .fail fault, hown, _, _ => .lift (.error (of_decide_eq_true hown))
  | .cancel, _, _, _ => ⟨trivial, fun _ => .pure none⟩
  | .scan root kinds body, hown, n, scene => by
    refine ⟨.lift (select_owned root scene.unit n), fun start => ⟨.lift (FailsOnly.mapM NodeKind.ofName_owned kinds), fun kinds =>
      ⟨Routine.scanBelow_heedless (fun m handle hmem scene => ?_) start scene, fun _ => .pure none⟩⟩⟩
    split at hmem
    · rcases List.mem_singleton.1 hmem with rfl
      exact ⟨actionsRoutine_heedless body hown m scene, fun _ => Routine.skip_heedless⟩
    · cases hmem

theorem actionsRoutine_heedless : ∀ (actions : List Action), areOwn actions = true → ∀ (n : Node) (scene : Scene),
    (actionsRoutine actions n scene).Heedless
  | [], _, _, _ => .pure none
  | action :: rest, hown, n, scene => by
    obtain ⟨hfirst, hrest⟩ := (Bool.and_eq_true _ _).mp hown
    refine ⟨actionRoutine_heedless action hfirst n scene, fun answer => ?_⟩
    cases answer with
    | some d => exact .pure (some d)
    | none => exact actionsRoutine_heedless rest hrest n scene

end

theorem rule_follows (info : RuleInfo) {actions : List Action} (hown : areOwn actions = true) :
    (rule info actions).Follows (actionsRoutine actions) where
  test _ _ := fun h => nomatch h
  describe n scene := (run_actionsRoutine actions n scene).symm
  heedless := actionsRoutine_heedless actions hown

end Script

/-! ## The rules that come with the program -/

namespace LeakedSubclass

def routine (names : Names) : RuleWork := fun root scene =>
  .bind (.scanBelow root (fun kind => if isReferenceKind kind then
    [fun n scene => .act (reportLeaked names (markedTypes names.marker root) n scene)] else []) scene)
    fun _ => .act (pure none)

theorem reportLeaked_blind (names : Names) (owned : List TypeRef) (n : Node) (scene : Scene) :
    (reportLeaked names owned n scene).Blind := by
  show (Session.ask (isLeaked names.generatedStart owned n) >>= fun leaked =>
    (if leaked then (do RuleM.report (← RuleM.describeMatch n) : RuleM Unit) else pure ()) scene).Blind
  refine (Attempt.Blind.ask _).bind fun leaked => ?_
  cases leaked
  · exact .pure ()
  · show (RuleM.describeMatch n none (.ok none) scene >>= fun d => RuleM.report d scene).Blind
    exact (RuleM.describeMatch_blind n none (.ok none) scene).bind fun d => .note _

theorem rule_follows (names : Names) : (rule names).Follows (routine names) where
  test _ _ := fun h => nomatch h
  describe root scene := by
    have hhandlers : (fun kind => (if isReferenceKind kind then
        [fun n scene => Routine.act (reportLeaked names (markedTypes names.marker root) n scene)] else []).map
          (fun handle n scene => (handle n scene).run)) = handlers names root := by
      funext kind
      unfold handlers
      split <;> rfl
    rw [describe_eq, routine, Routine.run, Routine.run_scanBelow, hhandlers]
    rfl
  heedless root scene := by
    refine ⟨Routine.scanBelow_heedless (fun n handle hmem scene => ?_) root scene, fun _ => .pure none⟩
    split at hmem
    · rcases List.mem_singleton.1 hmem with rfl
      exact reportLeaked_blind names _ n scene
    · cases hmem

end LeakedSubclass

theorem RandomRemainder.rule_follows (names : Names) :
    (rule names).Follows fun n scene => .act ((rule names).describe n scene) where
  test _ _ := fun h => nomatch h
  describe _ _ := rfl
  heedless n scene := by
    show ((rule names).describe n scene).Blind
    unfold rule
    dsimp only
    rcases n.children[0]? with _ | invocation
    · exact .pure none
    rcases n.children[1]? with _ | modulus
    · exact .pure none
    have hfix (method : String) := boundedDraw_lenient scene.unit.source method n modulus invocation.receiver
    exact (RuleM.describeMatch_blind n none (.of_lenient ((hfix _).map some)) scene).map some

end TreeLint
