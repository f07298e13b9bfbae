/-
Rules that keep to what they are given: they ask about the types and symbols of the unit, report
findings, fail, call the analysis off and scan subtrees of the unit, and all that comes to the same
whatever the resolver was asked before. Main statement: `RuleM.Lawful.fair`.
-/
import TreeLint.Proofs.Pattern.Lawful
import TreeLint.Proofs.Rule.Visit

namespace TreeLint

variable {μ ν α β : Type} {u : CompilationUnit} {provenance : Provenance} {stoppable : Bool} {stopped : Prop}

/-! ## Sessions that are alike -/

/-- Two sessions that differ in nothing but the log, the notes and what the resolver was asked before.
Both can be called off if `stoppable` holds, and were if `stopped` does. -/
structure Session.Like (u : CompilationUnit) (provenance : Provenance) (stoppable : Bool) (stopped : Prop)
    (s t : Session ν) : Prop where
  left : u.Truthful provenance s.resolver
  right : u.Truthful provenance t.resolver
  leftStoppable : s.isStoppable = stoppable
  rightStoppable : t.isStoppable = stoppable
  cancelled : s.cancelled = t.cancelled
  stopped : stopped → s.cancelled = true

/-- Two sessions that are alike and have the same notes. -/
structure Session.Same (u : CompilationUnit) (provenance : Provenance) (stoppable : Bool) (stopped : Prop)
    (s t : Session ν) : Prop extends Session.Like u provenance stoppable stopped s t where
  notes : s.notes = t.notes

namespace Session

/-- Whatever is logged and noted, the sessions stay alike. -/
theorem Like.written {s t : Session ν} (h : Like u provenance stoppable stopped s t) (log log' : Log)
    (notes notes' : μ) : Like u provenance stoppable stopped { s with log, notes } { t with log := log', notes := notes' } :=
  ⟨h.left, h.right, h.leftStoppable, h.rightStoppable, h.cancelled, h.stopped⟩

theorem Like.withNotes {s t : Session ν} (h : Like u provenance stoppable stopped s t) {notes notes' : μ}
    (hnotes : notes = notes') (log log' : Log) :
    Same u provenance stoppable stopped { s with log, notes } { t with log := log', notes := notes' } :=
  ⟨h.written log log' notes notes', hnotes⟩

theorem ask_alike {q : Query α} (hq : q.Settled (u.Truthful provenance)) :
    Attempt.Alike (Same u provenance stoppable stopped) (ask q : Attempt (Session ν) α) (ask q) := by
  intro s t h
  refine ⟨congrArg Except.ok (hq.answer h.left h.right), ⟨hq.stays h.left, hq.stays h.right, ?_, ?_, ?_, ?_⟩, ?_⟩
  · exact h.leftStoppable
  · exact h.rightStoppable
  · exact h.cancelled
  · exact h.stopped
  · exact h.notes

theorem note_alike (f : ν → ν) : Attempt.Alike (Same u provenance stoppable stopped) (note f) (note f) :=
  fun s t h => ⟨rfl, h.withNotes (congrArg f h.notes) s.log t.log⟩

theorem tell_alike (level level' : LogLevel) (channel channel' : Channel) (message message' : String) :
    Attempt.Alike (Same u provenance stoppable stopped) (tell level channel message : Attempt (Session ν) Unit)
      (tell level' channel' message') :=
  fun _ _ h => ⟨rfl, h.withNotes h.notes _ _⟩

theorem cancel_alike :
    Attempt.Alike (Same u provenance stoppable stopped) (cancel : Attempt (Session ν) Unit) cancel := by
  intro s t h
  refine ⟨rfl, ⟨h.left, h.right, h.leftStoppable, h.rightStoppable, ?_, fun hs => ?_⟩, h.notes⟩
  · show (s.cancelled || s.isStoppable) = (t.cancelled || t.isStoppable)
    rw [h.cancelled, h.leftStoppable, h.rightStoppable]
  · show (s.cancelled || s.isStoppable) = true
    rw [h.stopped hs, Bool.true_or]

theorem isCancelled_alike :
    Attempt.Alike (Same u provenance stoppable stopped) ((·.cancelled) <$> Attempt.state : Attempt (Session ν) Bool)
      ((·.cancelled) <$> Attempt.state) :=
  fun _ _ h => ⟨congrArg Except.ok h.cancelled, h⟩

theorem goOn_alike : Attempt.Alike (Same u provenance stoppable stopped) (goOn : Attempt (Session ν) Unit) goOn := by
  intro s t h
  unfold goOn
  rw [Attempt.bind_apply, Attempt.bind_apply, Attempt.state_apply, Attempt.state_apply]
  dsimp only
  rw [h.cancelled]
  split
  · exact ⟨rfl, h⟩
  · exact ⟨rfl, h⟩

end Session

theorem Scanner.arrive_alike (h : u.IsCoherent provenance) {sc sc' : Scanner ν} (heq : sc'.predicates = sc.predicates)
    (hp : ∀ p ∈ sc.predicates, Suppression.Lawful u p) {n : Node} (hn : u.HasNode n) :
    Attempt.Alike (Session.Same u provenance stoppable stopped) (sc.arrive n) (sc'.arrive n) := by
  unfold Scanner.arrive
  rw [heq]
  refine Session.goOn_alike.bind fun _ => ?_
  have hsteady := Suppression.Steady.of (fun p hmem => (hp p hmem).steady h)
  refine (Session.ask_alike (hsteady n hn)).bind fun s => ?_
  split
  · exact (Session.tell_alike _ _ _ _ _ _).bind fun _ => .pure none
  · exact .pure (some s)

/-! ## Lawful rules -/

/-- A scene in a unit. -/
structure Scene.In (u : CompilationUnit) (scene : Scene) : Prop where
  unit : scene.unit = u
  predicates : ∀ p ∈ scene.predicates, Suppression.Lawful u p

namespace RuleM

/-- Calls the analysis off. -/
def cancel : RuleM Unit := fun _ => Session.cancel

/-- Whether the analysis was called off. -/
def isCancelled : RuleM Bool := fun _ => (·.cancelled) <$> Attempt.state

/-- Writes a log entry. -/
def tell (level : LogLevel) (channel : Channel) (message : String) : RuleM Unit :=
  fun _ => Session.tell level channel message

/-- The result or the fault of a computation, as a result. -/
def caught (x : RuleM α) : RuleM (Except Fault α) := fun scene => Attempt.caught (x scene)

/-- What a rule does that keeps to the unit, and that leaves the resolver and the findings reported
so far to those who keep them. -/
inductive Lawful (u : CompilationUnit) : {α : Type} → RuleM α → Prop
  | pure {α : Type} (a : α) : Lawful u (pure a)
  | bind {α β : Type} {x : RuleM α} {f : α → RuleM β} : Lawful u x → (∀ a, Lawful u (f a)) → Lawful u (x >>= f)
  | look {α : Type} {f : Scene → RuleM α} : (∀ scene, scene.In u → Lawful u (f scene)) → Lawful u (read >>= f)
  | traversal {α : Type} {f : Walk → RuleM α} :
    (∀ walk, walk.Within u.HasNode → Lawful u (f walk)) → Lawful u (traversal >>= f)
  | ask {α : Type} {q : Query α} : Query.Lawful u q → Lawful u (ask q)
  | ofExcept {α : Type} (x : Except Fault α) : Lawful u (ofExcept x)
  | report (d : Diagnostic) : Lawful u (report d)
  | cancel : Lawful u cancel
  | isCancelled : Lawful u isCancelled
  | tell (level : LogLevel) (channel : Channel) (message : String) : Lawful u (tell level channel message)
  | caught {α : Type} {x : RuleM α} : Lawful u x → Lawful u (caught x)
  | scanBelow {root : Node} {handlers : Handlers} : u.HasNode root →
    (∀ n, u.HasNode n → ∀ handle ∈ handlers n.kind, Lawful u (handle n)) → Lawful u (scanBelow root handlers)

theorem Lawful.ite {c : Prop} [Decidable c] {x y : RuleM α} (hx : Lawful u x) (hy : Lawful u y) :
    Lawful u (if c then x else y) := by
  split
  · exact hx
  · exact hy

theorem Lawful.map {x : RuleM α} (hx : Lawful u x) (f : α → β) : Lawful u (f <$> x) := by
  rw [← bind_pure_comp]
  exact hx.bind fun a => .pure (f a)

/-- What follows a result only has to be lawful for that result. -/
theorem Lawful.ofExcept_bind {x : Except Fault α} {f : α → RuleM β} (h : ∀ a, x = .ok a → Lawful u (f a)) :
    Lawful u (RuleM.ofExcept x >>= f) := by
  cases x with
  | error e => exact .ofExcept (.error e)
  | ok a => exact h a rfl

/-- A lawful rule comes to the same in the same scene, whatever was asked before. -/
theorem Lawful.fair (h : u.IsCoherent provenance) {x : RuleM α} (hx : Lawful u x) :
    ∀ scene : Scene, scene.In u →
      Attempt.Alike (InHand (Session.Same u provenance stoppable stopped) u.HasNode) (x scene) (x scene) := by
  have hnotes (s t : Session Visit) (hst : Session.Same u provenance stoppable stopped s t) : s.notes = t.notes :=
    hst.notes
  induction hx with
  | pure a => exact fun _ _ => .pure a
  | bind _ _ ihx ihf => exact fun scene hs => (ihx scene hs).bind fun a => ihf a scene hs
  | look _ ih => exact fun scene hs => ih scene hs scene hs
  | traversal _ ih => exact fun scene hs => traversal_bind_alike hnotes scene fun walk hw => ih walk hw scene hs
  | ask hq => exact fun _ _ => (Session.ask_alike (hq.settled h)).keeping (Session.ask_noted _)
  | ofExcept x => exact fun _ _ => .lift x
  | report d => exact fun _ _ => (Session.note_alike _).keeping (Session.note_noted fun _ hw => hw)
  | cancel => exact fun _ _ => Session.cancel_alike.keeping Session.cancel_noted
  | isCancelled => exact fun _ _ => Session.isCancelled_alike.keeping Session.isCancelled_noted
  | tell level channel message =>
    exact fun _ _ => (Session.tell_alike _ _ _ _ _ _).keeping (Session.tell_noted level channel message)
  | caught _ ih => exact fun scene hs => (ih scene hs).caught
  | scanBelow hroot _ ih =>
    -- the handlers of the scan are lawful rules themselves, called with walks of their own in hand
    intro scene hs
    refine scanBelow_alike hnotes (fun s t notes hst => hst.withNotes rfl s.log t.log) (fun n hn m hm => hn.child hm)
      (fun n hn => Scanner.arrive_alike h rfl hs.predicates hn)
      (fun n hn handle hmem => ih n hn handle hmem scene hs) hroot

end RuleM

end TreeLint
