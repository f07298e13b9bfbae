/-
Rules whose findings are all made of matches, whatever else they do and wherever they fail. Such a finding is
told at the place of a node: its span lies in the source, and its location is that of the span. Scripts that
make no findings of their own and the rules that come with the program are such rules. Main statement:
`IsMatchIn.placed`.
-/
import TreeLint.Proofs.Rule.Builtin
import TreeLint.Proofs.Rule.Lawful
import TreeLint.Rule.Script

namespace TreeLint

variable {α β : Type} {u : CompilationUnit} {P : Diagnostic → Prop}

/-- A finding that is made of a match, at some node and at some place of a walk over a unit. -/
def IsMatchIn (u : CompilationUnit) (d : Diagnostic) : Prop :=
  ∃ (scene : Scene) (n : Node) (message : Option String) (fix : Except Fault (Option Fix))
    (session : Session Visit),
    scene.unit = u ∧ (RuleM.describeMatch n message fix scene session).1 = .ok d

/-! ## Where a finding is told -/

/-- A finding whose span, if it has one, lies in the source, and whose location is that of its span. -/
structure Placed (u : CompilationUnit) (d : Diagnostic) : Prop where
  within : ∀ s ∈ d.span, s.stop ≤ u.source.length
  location : d.location = Source.location u d.span

theorem Source.stop_le_of_enclosingSpan {source : String} {n : Node} {around : List Node} :
    ∀ s ∈ enclosingSpan source n around, s.stop ≤ source.length := by
  intro s hs
  obtain ⟨m, -, hm⟩ := List.exists_of_findSome?_eq_some hs
  obtain ⟨-, hstop⟩ := Option.filter_eq_some_iff.1 hm
  exact of_decide_eq_true hstop

theorem IsMatchIn.placed {d : Diagnostic} (h : IsMatchIn u d) : Placed u d := by
  obtain ⟨scene, n, message, fix, session, rfl, hd⟩ := h
  rw [RuleM.describeMatch_eq] at hd
  replace hd : ((RuleM.keepFix n fix scene >>= fun fix => pure { RuleM.finding scene session.notes.traversal n fix with
      message := (message.filter (· ≠ "")).getD scene.rule.summary }) session).1 = .ok d := hd
  rw [Attempt.bind_apply] at hd
  rcases hfix : RuleM.keepFix n fix scene session with ⟨f | fix', session'⟩ <;> rw [hfix] at hd
  · cases hd
  · obtain rfl := Except.ok.inj hd
    exact ⟨Source.stop_le_of_enclosingSpan, rfl⟩

open Session (Noted)

/-! ## What a rule can do -/

namespace RuleM

/-- A computation that reports findings made of matches only, and whose results are of a sort. -/
def FindsMatches (u : CompilationUnit) (post : α → Prop) (x : RuleM α) : Prop :=
  ∀ scene : Scene, scene.unit = u → (x scene).Preserves (Noted fun v => ∀ d ∈ v.found, IsMatchIn u d) post

variable {post : α → Prop} {post' : β → Prop}

theorem FindsMatches.pure {a : α} (h : post a) : FindsMatches u post (pure a) :=
  fun _ _ => .pure h

theorem FindsMatches.bind {x : RuleM α} {f : α → RuleM β} (hx : FindsMatches u post x)
    (hf : ∀ a, post a → FindsMatches u post' (f a)) : FindsMatches u post' (x >>= f) :=
  fun scene hs => (hx scene hs).bind fun a ha => hf a ha scene hs

theorem FindsMatches.map {x : RuleM α} (hx : FindsMatches u post x) {f : α → β} (hf : ∀ a, post a → post' (f a)) :
    FindsMatches u post' (f <$> x) :=
  fun scene hs => (hx scene hs).map hf

theorem FindsMatches.look {f : Scene → RuleM α} (hf : ∀ scene, FindsMatches u post (f scene)) :
    FindsMatches u post (read >>= f) :=
  fun scene hs => hf scene scene hs

theorem FindsMatches.ite {c : Prop} [Decidable c] {x y : RuleM α} (hx : FindsMatches u post x)
    (hy : FindsMatches u post y) : FindsMatches u post (if c then x else y) := by
  split
  · exact hx
  · exact hy

theorem FindsMatches.tell (level : LogLevel) (channel : Channel) (message : String) :
    FindsMatches u (fun _ => True) (tell level channel message) :=
  fun _ _ => Session.tell_noted level channel message

theorem FindsMatches.traversal : FindsMatches u (fun _ => True) traversal :=
  fun _ _ _ hs => ⟨hs, fun _ _ => trivial⟩

theorem FindsMatches.reported : FindsMatches u (fun ds => ∀ d ∈ ds, IsMatchIn u d) reported :=
  fun _ _ _ hs => ⟨hs, fun _ hds => Except.ok.inj hds ▸ hs⟩

theorem FindsMatches.ask (q : Query α) : FindsMatches u (fun _ => True) (ask q) :=
  fun _ _ => Session.ask_noted q

theorem FindsMatches.ofExcept (x : Except Fault α) : FindsMatches u (x = .ok ·) (ofExcept x) :=
  fun _ _ => .lift x

theorem FindsMatches.report {d : Diagnostic} (h : IsMatchIn u d) : FindsMatches u (fun _ => True) (report d) := by
  refine fun _ _ => Session.note_noted fun v hv e he => ?_
  rcases List.mem_append.1 he with he | he
  · exact hv e he
  · exact List.mem_singleton.1 he ▸ h

theorem keepFix_findsMatches (n : Node) (fix : Except Fault (Option Fix)) :
    FindsMatches u (fun _ => True) (keepFix n fix) := by
  unfold keepFix
  cases fix with
  | ok fix => exact .pure trivial
  | error f =>
    refine .ite (.look fun _ => (FindsMatches.tell _ _ _).bind fun _ _ => .pure trivial) fun _ _ => ?_
    exact (Attempt.Preserves.lift _).imp fun _ _ => trivial

theorem describeMatch_findsMatches (n : Node) (message : Option String) (fix : Except Fault (Option Fix)) :
    FindsMatches u (IsMatchIn u) (describeMatch n message fix) := by
  intro scene hu s hs
  have hnotes : (describeMatch n message fix scene).Preserves (Noted fun v => ∀ d ∈ v.found, IsMatchIn u d)
      fun _ => True := by
    rw [describeMatch_eq]
    exact (FindsMatches.traversal scene hu).bind fun _ _ =>
      (keepFix_findsMatches n fix scene hu).bind fun _ _ => .pure trivial
  exact ⟨(hnotes s hs).1, fun d hd => ⟨scene, n, message, fix, s, hu, hd⟩⟩

/-- A scan below a node reports what its handlers do, also where it is called off. -/
theorem scanBelow_findsMatches {handlers : Handlers} (root : Node)
    (h : ∀ kind, ∀ handle ∈ handlers kind, ∀ n, FindsMatches u (fun _ => True) (handle n)) :
    FindsMatches u (fun _ => True) (scanBelow root handlers) := by
  intro scene hu
  refine scanBelow_noted (fun n handle hmem walk => ?_) root
  rw [visiting_eq]
  exact Session.through_noted (h n.kind handle hmem n scene hu) (fun _ hv => hv) fun _ _ _ hv => hv

end RuleM

/-- A rule whose findings in a unit are all made of matches: those that it reports, also before it fails or is called
off, and the one that it returns. -/
def Rule.FindsMatches (u : CompilationUnit) (r : Rule) : Prop :=
  ∀ n, RuleM.FindsMatches u (fun last => ∀ d ∈ last, IsMatchIn u d) (r.describe n)

open RuleM (FindsMatches)

/-! ## Scripts -/

namespace Script

mutual

/-- Whether an action makes no finding that is given with all its parts. -/
def Action.isPlain : Action → Bool
  | .reportRaw _ => false
  | .answerRaw _ => false
  | .scan _ _ body => allPlain body
  | _ => true

/-- Whether all actions of a script are plain. -/
def allPlain : List Action → Bool
  | [] => true
  | action :: rest => action.isPlain && allPlain rest

end

theorem findAt_findsMatches (target : Selector) (message : Option String) (fix : FixScript) (n : Node) :
    FindsMatches u (IsMatchIn u) (findAt target message fix n) := by
  refine .look fun scene => ?_
  cases fix with
  | none => exact (FindsMatches.ofExcept _).bind fun found _ => RuleM.describeMatch_findsMatches found message _
  | raw edits =>
    exact (FindsMatches.ofExcept _).bind fun fix _ => (FindsMatches.ofExcept _).bind fun found _ =>
      RuleM.describeMatch_findsMatches found message _
  | built edits => exact (FindsMatches.ofExcept _).bind fun found _ => RuleM.describeMatch_findsMatches found message _

mutual

theorem runAction_findsMatches : ∀ (action : Action), action.isPlain = true → ∀ n,
    FindsMatches u (fun last => ∀ d ∈ last, IsMatchIn u d) (runAction action n)
  | .report target message fix, _, n =>
    (findAt_findsMatches target message fix n).bind fun _ hd => (FindsMatches.report hd).bind fun _ _ => .pure nofun
  | .answer target message fix, _, n =>
    (findAt_findsMatches target message fix n).map fun _ hd _ he => Option.some.inj he ▸ hd
  | .reportRaw _, h, _ => nomatch h
  | .answerRaw _, h, _ => nomatch h
  | .quote target, _, n =>
    .look fun _ => (FindsMatches.ofExcept _).bind fun text _ =>
      (RuleM.describeMatch_findsMatches n (some text) _).bind fun _ hd =>
        (FindsMatches.report hd).bind fun _ _ => .pure nofun
  | .fail fault, _, _ => fun _ _ => (Attempt.Preserves.lift _).imp fun _ => nofun
  | .cancel, _, _ => fun _ _ => Session.cancel_noted.bind fun _ _ => .pure nofun
  | .scan root kinds body, h, n => by
    refine .look fun scene => (FindsMatches.ofExcept _).bind fun start _ => ?_
    refine (FindsMatches.ofExcept _).bind fun kinds _ => ?_
    refine (RuleM.scanBelow_findsMatches start fun kind handle hmem m => ?_).bind fun _ _ => .pure nofun
    split at hmem
    · rcases List.mem_singleton.1 hmem with rfl
      exact (runActions_findsMatches body h m).map fun _ _ => trivial
    · cases hmem

theorem runActions_findsMatches : ∀ (actions : List Action), allPlain actions = true → ∀ n,
    FindsMatches u (fun last => ∀ d ∈ last, IsMatchIn u d) (runActions actions n)
  | [], _, _ => .pure nofun
  | action :: rest, h, n => by
    obtain ⟨hfirst, hrest⟩ := Bool.and_eq_true_iff.1 h
    refine (runAction_findsMatches action hfirst n).bind fun answer hanswer => ?_
    cases answer with
    | some d => exact .pure hanswer
    | none => exact runActions_findsMatches rest hrest n

end

theorem rule_findsMatches (info : RuleInfo) {actions : List Action} (h : allPlain actions = true) :
    (rule info actions).FindsMatches u :=
  runActions_findsMatches actions h

end Script

/-! ## The rules that come with the program -/

theorem LeakedSubclass.rule_findsMatches (names : Names) : (rule names).FindsMatches u := by
  intro root
  rw [describe_eq]
  refine (RuleM.scanBelow_findsMatches root fun kind handle hmem n => ?_).bind fun _ _ => .pure nofun
  unfold handlers at hmem
  split at hmem
  · rcases List.mem_singleton.1 hmem with rfl
    refine (FindsMatches.ask _).bind fun leaked _ => ?_
    split
    · exact (RuleM.describeMatch_findsMatches n _ _).bind fun _ hd => .report hd
    · exact .pure trivial
  · cases hmem

theorem RandomRemainder.rule_findsMatches (names : Names) : (rule names).FindsMatches u := by
  intro n
  unfold rule
  dsimp only
  split
  · exact .look fun _ => (RuleM.describeMatch_findsMatches n _ _).map fun _ hd _ he => Option.some.inj he ▸ hd
  · exact .pure nofun

end TreeLint
