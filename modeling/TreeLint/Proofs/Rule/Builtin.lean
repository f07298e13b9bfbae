/-
What the rules that come with the program make of a match. Neither of them fails: the fix of a remainder may
be let go of, but nothing else can go wrong. Main statements: `RandomRemainder.describe_apply` and
`LeakedSubclass.reportLeaked_apply`.
-/
import TreeLint.Proofs.Fault
import TreeLint.Proofs.Fix.Order
import TreeLint.Rule.LeakedSubclass
import TreeLint.Rule.RandomRemainder

namespace TreeLint

variable {α β : Type}

/-! ## Places in the source -/

theorem Source.spanOf_lenient (source : String) (n : Node) : Lenient (spanOf source n) := by
  intro f h
  unfold spanOf at h
  split at h <;> cases h
  rfl

theorem Source.textOf_lenient (source : String) (n : Node) : Lenient (textOf source n) :=
  (spanOf_lenient source n).map (slice source)

/-! ## Findings -/

/-- The finding that a rule makes at a node, given the walk in hand, with a fix if there is one. -/
def RuleM.finding (scene : Scene) (walk : Walk) (n : Node) (fix : Option Fix) : Diagnostic :=
  let around := if walk.current.any (·.is n) then walk.ancestors else walk.path
  let span := Source.enclosingSpan scene.unit.source n around
  { rule := scene.rule.id
    severity := scene.rule.severity
    span
    message := scene.rule.summary
    fix
    location := Source.location scene.unit span }

theorem RuleM.describeMatch_eq (n : Node) (message : Option String) (fix : Except Fault (Option Fix)) (scene : Scene) :
    describeMatch n message fix scene = (traversal scene >>= fun walk => keepFix n fix scene >>= fun fix =>
      let found := finding scene walk n fix
      pure { found with message := (message.filter (· ≠ "")).getD scene.rule.summary }) := rfl

theorem RuleM.describeMatch_apply (n : Node) (scene : Scene) {fix : Except Fault (Option Fix)} (hfix : Lenient fix)
    (s : Session Visit) :
    ∃ log, describeMatch n none fix scene s =
      (.ok (finding scene s.notes.traversal n fix.toOption.join), { s with log }) := by
  cases fix with
  | ok fix => exact ⟨s.log, rfl⟩
  | error f =>
    have hkeep : ∃ log, keepFix n (.error f) scene s = (.ok none, { s with log }) := by
      match f, hfix f rfl with
      | .noSourceSpan _, _ => exact ⟨_, rfl⟩
      | .conflictingEdits .., _ => exact ⟨_, rfl⟩
    obtain ⟨log, hkeep⟩ := hkeep
    refine ⟨log, ?_⟩
    show (keepFix n (.error f) scene >>= fun fix => pure (finding scene s.notes.traversal n fix)) s = _
    rw [Attempt.bind_apply, hkeep]
    rfl

/-! ## Remainders of random draws -/

/-- One edit alone has nothing to conflict with. -/
theorem Fix.build_replace (source : String) (n : Node) (text : String) :
    Fix.build source [.replace n text] = (fun span => ⟨[⟨span, text⟩]⟩) <$> Source.spanOf source n := by
  have hbuild : Fix.build source [.replace n text] = (do
      Fix.of [← (EditRequest.replace n text).edit source]) := by
    unfold Fix.build Draft.addAll
    rw [show [EditRequest.replace n text].forM (Draft.add source) =
      (Draft.add source (.replace n text) >>= fun _ => pure ()) from rfl, Attempt.bind_apply]
    unfold Draft.add
    rw [Attempt.bind_apply, Attempt.lift_apply]
    cases (EditRequest.replace n text).edit source <;> rfl
  rw [hbuild, EditRequest.edit]
  cases Source.spanOf source n with
  | error f => rfl
  | ok span => exact Fix.of_singleton ⟨span, text⟩

namespace RandomRemainder

theorem boundedDraw_lenient (source method : String) (remainder modulus : Node) (receiver : Option Node) :
    Lenient (boundedDraw source method remainder modulus receiver) := by
  have hbuild (text : String) : Lenient (Fix.build source [.replace remainder text]) := by
    rw [Fix.build_replace]
    exact (Source.spanOf_lenient source remainder).map _
  unfold boundedDraw
  refine (Source.textOf_lenient source modulus).bind fun text => ?_
  cases receiver with
  | none => exact hbuild _
  | some receiver =>
    refine FailsOnly.bind ?_ fun _ => hbuild _
    exact (Source.textOf_lenient source receiver).bind fun text => .ok _

/-- The fix has one edit, so it is well formed. -/
theorem isWellFormed_boundedDraw {source method : String} {remainder modulus : Node} {receiver : Option Node} {fix : Fix}
    (h : boundedDraw source method remainder modulus receiver = .ok fix) : fix.isWellFormed = true := by
  have hbuild {text : String} (h : Fix.build source [.replace remainder text] = .ok fix) : fix.isWellFormed = true := by
    rw [Fix.build_replace] at h
    cases hspan : Source.spanOf source remainder <;> rw [hspan] at h <;> cases h
    rfl
  unfold boundedDraw at h
  cases hmodulus : Source.textOf source modulus <;> rw [hmodulus] at h
  · cases h
  cases receiver with
  | none => exact hbuild h
  | some receiver =>
    cases hreceiver : receiverText source receiver
    · simp only [hreceiver] at h
      cases h
    · simp only [hreceiver] at h
      exact hbuild h

/-- What the rule makes of a node that its pattern matches. -/
def found (names : Names) (scene : Scene) (walk : Walk) (n : Node) : Option Diagnostic := do
  let invocation ← n.children[0]?
  let modulus ← n.children[1]?
  let method := ((invocation.callee.bind (·.name)).filter (· ≠ "")).getD names.method
  let fix := boundedDraw scene.unit.source method n modulus invocation.receiver
  return RuleM.finding scene walk n fix.toOption

theorem found_sound {names : Names} {scene : Scene} {walk : Walk} {n : Node} {d : Diagnostic}
    (h : found names scene walk n = some d) : d.rule = scene.rule.id ∧ d.fix.all (·.isWellFormed) = true := by
  unfold found at h
  obtain ⟨invocation, -, h⟩ := Option.bind_eq_some_iff.1 h
  obtain ⟨modulus, -, h⟩ := Option.bind_eq_some_iff.1 h
  cases h
  have hfix {x : Except Fault Fix} (hx : ∀ f, x = .ok f → f.isWellFormed = true) :
      x.toOption.all (·.isWellFormed) = true := by
    cases x with
    | error => rfl
    | ok f => exact hx f rfl
  exact ⟨rfl, hfix fun f => isWellFormed_boundedDraw⟩

theorem describe_apply (names : Names) (n : Node) (scene : Scene) (s : Session Visit) :
    ∃ log, (rule names).describe n scene s = (.ok (found names scene s.notes.traversal n), { s with log }) := by
  unfold rule found
  dsimp only
  rcases n.children[0]? with _ | invocation
  · exact ⟨s.log, rfl⟩
  rcases n.children[1]? with _ | modulus
  · exact ⟨s.log, rfl⟩
  let method := ((invocation.callee.bind (·.name)).filter (· ≠ "")).getD names.method
  have hfix := boundedDraw_lenient scene.unit.source method n modulus invocation.receiver
  obtain ⟨log, hmatch⟩ := RuleM.describeMatch_apply n scene (hfix.map some) s
  refine ⟨log, ?_⟩
  have hfound : (some <$> boundedDraw scene.unit.source method n modulus invocation.receiver).toOption.join =
      (boundedDraw scene.unit.source method n modulus invocation.receiver).toOption := by
    cases boundedDraw scene.unit.source method n modulus invocation.receiver <;> rfl
  rw [hfound] at hmatch
  show (some <$> RuleM.describeMatch n none (some <$> boundedDraw _ method n modulus _) scene) s = _
  rw [← bind_pure_comp, Attempt.bind_apply, hmatch]
  rfl

end RandomRemainder

/-! ## Leaked subclasses -/

namespace LeakedSubclass

/-- Reports a node that refers to a leaked subclass. -/
def reportLeaked (names : Names) (owned : List TypeRef) (n : Node) : RuleM Unit := do
  if ← RuleM.ask (isLeaked names.generatedStart owned n) then
    RuleM.report (← RuleM.describeMatch n)

/-- What the rule does at the nodes below the root. -/
def handlers (names : Names) (root : Node) : RuleM.Handlers := fun kind =>
  if isReferenceKind kind then [reportLeaked names (markedTypes names.marker root)] else []

theorem describe_eq (names : Names) (root : Node) :
    (rule names).describe root = (do
      RuleM.scanBelow root (handlers names root)
      return none) := rfl

theorem reportLeaked_apply (names : Names) (owned : List TypeRef) (n : Node) (scene : Scene)
    (s : Session Visit) :
    ∃ log, reportLeaked names owned n scene s = (.ok (), { s with
      log
      resolver := (isLeaked names.generatedStart owned n s.resolver).2
      notes := { s.notes with
        found := s.notes.found ++
          if (isLeaked names.generatedStart owned n s.resolver).1 then
            [RuleM.finding scene s.notes.traversal n none] else [] } }) := by
  rcases hleaked : isLeaked names.generatedStart owned n s.resolver with ⟨leaked, resolver⟩
  have hask : reportLeaked names owned n scene s =
      (if leaked then (do RuleM.report (← RuleM.describeMatch n) : RuleM Unit) else pure ()) scene
        { s with resolver } := by
    show (Session.ask (isLeaked names.generatedStart owned n) >>= fun leaked =>
      (if leaked then (do RuleM.report (← RuleM.describeMatch n) : RuleM Unit) else pure ()) scene) s = _
    rw [Attempt.bind_apply, Session.ask, hleaked]
  cases leaked
  · refine ⟨s.log, hask.trans ?_⟩
    rw [if_neg Bool.false_ne_true, if_neg Bool.false_ne_true, List.append_nil]
    rfl
  · exact ⟨s.log, hask⟩

end LeakedSubclass

end TreeLint
