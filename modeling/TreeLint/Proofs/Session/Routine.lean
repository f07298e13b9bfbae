/-
Work that does not heed the call to stop except where it arrives at a node. What it does with the session is
written out as data, so that the arrivals and the calls to stop on its way can be told from it, in their order.
Main statement: `run_withToken`. Such work comes to the same whether or not it can be called off, until it
arrives at a node after a call to stop; there it ends.
-/
import TreeLint.Proofs.Fault
import TreeLint.Proofs.Session.Notes

namespace TreeLint

universe w

variable {ν α β : Type}

/-! ## Calls to stop -/

/-- Whether work can be called off, and whether it was. -/
structure Token where
  isStoppable : Bool
  cancelled : Bool

/-- What the call to stop has to do with. -/
inductive Event
  | arrival (n : Node)
  | stop

namespace Token

/-- The token of work that nobody can call off. -/
def never : Token := ⟨false, false⟩

def stop (k : Token) : Token := { k with cancelled := k.cancelled || k.isStoppable }

def after (k : Token) : List Event → Token
  | [] => k
  | .arrival _ :: events => k.after events
  | .stop :: events => k.stop.after events

/-- Whether a call to stop is heard on an arrival. -/
def hears (k : Token) : List Event → Bool
  | [] => false
  | .arrival _ :: events => k.cancelled || k.hears events
  | .stop :: events => k.stop.hears events

theorem after_append (es fs : List Event) : ∀ k : Token, k.after (es ++ fs) = (k.after es).after fs := by
  induction es with
  | nil => exact fun _ => rfl
  | cons e es ih => cases e <;> exact fun _ => ih _

theorem hears_append (es fs : List Event) :
    ∀ k : Token, k.hears (es ++ fs) = (k.hears es || (k.after es).hears fs) := by
  induction es with
  | nil => exact fun _ => rfl
  | cons e es ih =>
    intro k
    cases e with
    | arrival n =>
      show (k.cancelled || k.hears (es ++ fs)) = _
      rw [ih, ← Bool.or_assoc]
      rfl
    | stop => exact ih k.stop

theorem isStoppable_after (es : List Event) : ∀ k : Token, (k.after es).isStoppable = k.isStoppable := by
  induction es with
  | nil => exact fun _ => rfl
  | cons e es ih => cases e <;> exact fun k => ih _

/-- A call to stop is heard if work arrives at a node that was called off before it began, or could be called
off and was on the way. -/
theorem hears_iff {es : List Event} : ∀ {k : Token}, k.hears es = true ↔ ∃ before n rest,
    es = before ++ .arrival n :: rest ∧ (k.cancelled = true ∨ k.isStoppable = true ∧ .stop ∈ before) := by
  induction es with
  | nil => simp [hears]
  | cons e es ih =>
    intro k
    cases e with
    | arrival m =>
      rw [hears, Bool.or_eq_true, ih]
      constructor
      · rintro (hk | ⟨before, n, rest, rfl, hk⟩)
        · exact ⟨[], m, es, rfl, .inl hk⟩
        · exact ⟨.arrival m :: before, n, rest, rfl, hk.imp_right fun h => ⟨h.1, List.mem_cons_of_mem _ h.2⟩⟩
      · rintro ⟨_ | ⟨e, before⟩, n, rest, heq, hk⟩
        · exact .inl (hk.resolve_right fun h => nomatch h.2)
        · obtain ⟨rfl, rfl⟩ := List.cons.inj heq
          exact .inr ⟨before, n, rest, rfl, hk.imp_right fun h => ⟨h.1, by simpa using h.2⟩⟩
    | stop =>
      have hstop : k.stop.cancelled = true ↔ k.cancelled = true ∨ k.isStoppable = true := Bool.or_eq_true _ _ ▸ .rfl
      rw [hears, ih]
      constructor
      · rintro ⟨before, n, rest, rfl, hk⟩
        refine ⟨.stop :: before, n, rest, rfl, ?_⟩
        rw [hstop] at hk
        rcases hk with (hk | hk) | ⟨hk, -⟩
        · exact .inl hk
        · exact .inr ⟨hk, List.mem_cons_self⟩
        · exact .inr ⟨hk, List.mem_cons_self⟩
      · rintro ⟨_ | ⟨e, before⟩, n, rest, heq, hk⟩
        · cases heq
        · obtain ⟨rfl, rfl⟩ := List.cons.inj heq
          exact ⟨before, n, rest, rfl, .inl (hstop.2 (hk.imp_right And.left))⟩

end Token

namespace Session

def token (s : Session ν) : Token := ⟨s.isStoppable, s.cancelled⟩

def withToken (s : Session ν) (k : Token) : Session ν :=
  { s with isStoppable := k.isStoppable, cancelled := k.cancelled }

theorem withToken_self (s : Session ν) : s.withToken s.token = s := rfl

theorem goOn_live {s : Session ν} (h : s.cancelled = false) : goOn s = (.ok (), s) := by
  show (if s.cancelled then Attempt.fail .cancelled else pure ()) s = _
  rw [h]
  rfl

theorem goOn_stopped {s : Session ν} (h : s.cancelled = true) : goOn s = (.error .cancelled, s) := by
  show (if s.cancelled then Attempt.fail .cancelled else pure ()) s = _
  rw [h]
  rfl

end Session

/-! ## Steps that have nothing to do with it -/

namespace Attempt

/-- A computation that neither looks at the token of its session nor changes it, and that does not fail as one
that is called off. -/
structure Blind (x : Attempt (Session ν) α) : Prop where
  apply : ∀ s k, x (s.withToken k) = ((x s).1, (x s).2.withToken k)
  fault : ∀ s, (x s).1 ≠ .error .cancelled

theorem Blind.token {x : Attempt (Session ν) α} (h : x.Blind) (s : Session ν) : (x s).2.token = s.token := by
  have hself := h.apply s s.token
  rw [Session.withToken_self] at hself
  rw [hself]
  rfl

theorem Blind.lift {x : Except Fault α} (h : Owned x) : (lift x : Attempt (Session ν) α).Blind :=
  ⟨fun _ _ => rfl, fun _ hcontra => h _ hcontra rfl⟩

theorem Blind.pure (a : α) : (pure a : Attempt (Session ν) α).Blind :=
  ⟨fun _ _ => rfl, fun _ h => nomatch h⟩

theorem Blind.bind {x : Attempt (Session ν) α} {f : α → Attempt (Session ν) β} (hx : x.Blind)
    (hf : ∀ a, (f a).Blind) : (x >>= f).Blind := by
  refine ⟨fun s k => ?_, fun s => ?_⟩
  · rw [bind_apply, bind_apply, hx.apply]
    rcases x s with ⟨_ | a, t⟩
    · rfl
    · exact (hf a).apply t k
  · have hfault := hx.fault s
    rw [bind_apply]
    rcases hend : x s with ⟨e | a, t⟩
    · rw [hend] at hfault
      exact fun hcontra => hfault (congrArg _ (Except.error.inj hcontra))
    · exact (hf a).fault t

theorem Blind.map {x : Attempt (Session ν) α} (hx : x.Blind) (f : α → β) : (f <$> x).Blind := by
  rw [← bind_pure_comp]
  exact hx.bind fun a => .pure (f a)

theorem Blind.ask (q : Query α) : (Session.ask q : Attempt (Session ν) α).Blind :=
  ⟨fun _ _ => rfl, fun _ h => nomatch h⟩

theorem Blind.note (f : ν → ν) : (Session.note f).Blind :=
  ⟨fun _ _ => rfl, fun _ h => nomatch h⟩

theorem Blind.tell (level : LogLevel) (channel : Channel) (message : String) :
    (Session.tell level channel message : Attempt (Session ν) Unit).Blind :=
  ⟨fun _ _ => rfl, fun _ h => nomatch h⟩

theorem Blind.mapM {f : α → Attempt (Session ν) β} (hf : ∀ a, (f a).Blind) (as : List α) : (as.mapM f).Blind := by
  induction as with
  | nil => exact .pure []
  | cons a rest ih =>
    rw [List.mapM_cons]
    exact (hf a).bind fun _ => ih.bind fun _ => .pure _

end Attempt

/-- On arrival at a node the call to stop is heard, and has nothing to do with the rest. -/
theorem Scanner.arrive_eq (sc : Scanner ν) (n : Node) :
    ∃ x : Attempt (Session ν) (Option Suppression), x.Blind ∧ sc.arrive n = (do Session.goOn; x) := by
  refine ⟨_, ?_, rfl⟩
  refine (Attempt.Blind.ask _).bind fun s => ?_
  split
  · exact (Attempt.Blind.tell _ _ _).bind fun _ => .pure none
  · exact .pure (some s)

/-! ## Routines -/

/-- A fault other than that work was called off. -/
abbrev OwnFault := { f : Fault // f ≠ .cancelled }

/-- What is done in a session with notes of some kind, step by step. -/
inductive Routine : Type → Type → Type 1
  /-- Any step that is not told apart. -/
  | act {ν α : Type} (x : Attempt (Session ν) α) : Routine ν α
  | bind {ν α β : Type} (x : Routine ν β) (f : β → Routine ν α) : Routine ν α
  /-- Takes a fault as a result, unless the work was called off. -/
  | caught {ν α : Type} (x : Routine ν α) : Routine ν (Except OwnFault α)
  /-- Works with other notes for a while. -/
  | through {μ ν α : Type} (enter : ν → μ) (leave : ν → μ → ν) (x : Routine μ α) : Routine ν α
  /-- Calls the work off, on its own account or for somebody else. -/
  | cancel {ν : Type} : Routine ν Unit
  /-- Arrives at a node, as scans do. -/
  | arrive {ν : Type} (predicates : List Suppression.Predicate) (n : Node) : Routine ν (Option Suppression)

namespace Routine

/-- Takes a fault as a result, unless it is that work was called off. -/
def settle : Except Fault α → Except Fault (Except OwnFault α)
  | .ok a => .ok (.ok a)
  | .error f => if h : f = .cancelled then .error .cancelled else .ok (.error ⟨f, h⟩)

theorem settle_eq_cancelled {r : Except Fault α} : settle r = .error .cancelled ↔ r = .error .cancelled := by
  cases r with
  | ok a => exact ⟨fun h => (nomatch h), fun h => (nomatch h)⟩
  | error f =>
    unfold settle
    split <;> simp_all

/-- What the routine comes to. -/
def run : {ν α : Type} → Routine ν α → Attempt (Session ν) α
  | _, _, .act x => x
  | _, _, .bind x f => x.run >>= fun b => (f b).run
  | _, _, .caught x => fun s => (settle (x.run s).1, (x.run s).2)
  | _, _, .through enter leave x => Session.through enter leave x.run
  | _, _, .cancel => Session.cancel
  | _, _, .arrive predicates n => Scanner.arrive ⟨fun _ => [], predicates⟩ n

theorem run_caught_apply (x : Routine ν α) (s : Session ν) :
    x.caught.run s = (settle (x.run s).1, (x.run s).2) := rfl

/-- The arrivals and the calls to stop on the way from a session. -/
def events : {ν α : Type} → Routine ν α → Session ν → List Event
  | _, _, .act _, _ => []
  | _, _, .bind x f, s => x.events s ++ match x.run s with
    | (.ok b, t) => (f b).events t
    | (.error _, _) => []
  | _, _, .caught x, s => x.events s
  | _, _, .through enter _ x, s => x.events { s with notes := enter s.notes }
  | _, _, .cancel, _ => [.stop]
  | _, _, .arrive _ n, _ => [.arrival n]

/-- A routine that leaves the call to stop to the arrivals: no other step looks at it, or fails as if it had
been heard. -/
def Heedless : {ν α : Type} → Routine ν α → Prop
  | _, _, .act x => x.Blind
  | _, _, .bind x f => x.Heedless ∧ ∀ b, (f b).Heedless
  | _, _, .caught x => x.Heedless
  | _, _, .through _ _ x => x.Heedless
  | _, _, .cancel => True
  | _, _, .arrive .. => True

/-! ## With a token and without -/

/-- Work that nobody can call off is not called off. -/
theorem run_never {x : Routine ν α} (hx : x.Heedless) : ∀ {s : Session ν}, s.token = .never →
    (x.run s).2.token = .never ∧ (x.run s).1 ≠ .error .cancelled := by
  induction x with
  | act x => exact fun {s} hs => ⟨(Attempt.Blind.token hx s).trans hs, Attempt.Blind.fault hx s⟩
  | bind x f ihx ihf =>
    intro s hs
    obtain ⟨htoken, hfault⟩ := ihx hx.1 hs
    rw [run, Attempt.bind_apply]
    rcases hend : x.run s with ⟨e | b, t⟩ <;> rw [hend] at htoken hfault
    · exact ⟨htoken, fun hcontra => hfault (congrArg _ (Except.error.inj hcontra))⟩
    · exact ihf b (hx.2 b) htoken
  | caught x ih =>
    intro s hs
    obtain ⟨htoken, hfault⟩ := ih hx hs
    exact ⟨htoken, fun hcontra => hfault (settle_eq_cancelled.1 hcontra)⟩
  | through enter leave x ih => exact fun {s} hs => @ih hx { s with notes := enter s.notes } hs
  | cancel =>
    intro s hs
    refine ⟨?_, fun hcontra => nomatch hcontra⟩
    show (⟨s.isStoppable, s.cancelled || s.isStoppable⟩ : Token) = .never
    rw [show s.isStoppable = false from congrArg Token.isStoppable hs,
      show s.cancelled = false from congrArg Token.cancelled hs]
    rfl
  | arrive predicates n =>
    intro s hs
    obtain ⟨x, hblind, heq⟩ := Scanner.arrive_eq ⟨fun _ => [], predicates⟩ n
    have hlive : s.cancelled = false := congrArg Token.cancelled hs
    rw [run, heq, Attempt.bind_apply, Session.goOn_live hlive]
    exact ⟨(hblind.token s).trans hs, hblind.fault s⟩

/-- Work comes to the same with a token, up to the first arrival at which a call to stop is heard. -/
theorem run_withToken {x : Routine ν α} (hx : x.Heedless) : ∀ {s : Session ν}, s.token = .never → ∀ k : Token,
    if k.hears (x.events s) then
      (x.run (s.withToken k)).1 = .error .cancelled ∧ (x.run (s.withToken k)).2.cancelled = true
    else x.run (s.withToken k) = ((x.run s).1, (x.run s).2.withToken (k.after (x.events s))) := by
  induction x with
  | act x => exact fun {s} hs k => Attempt.Blind.apply hx s k
  | bind x f ihx ihf =>
    -- the second part is only reached if nothing is heard in the first, and begins with the token of its end
    intro s hs k
    have hfirst := ihx hx.1 hs k
    obtain ⟨htoken, -⟩ := run_never hx.1 hs
    rw [events, Token.hears_append, Token.after_append, run, Attempt.bind_apply, Attempt.bind_apply]
    cases hheard : k.hears (x.events s) <;> rw [hheard] at hfirst
    · rw [if_neg Bool.false_ne_true] at hfirst
      rw [hfirst]
      rcases hend : x.run s with ⟨e | b, t⟩ <;> rw [hend] at htoken
      · rfl
      · exact ihf b (hx.2 b) htoken _
    · obtain ⟨hres, hcancelled⟩ := hfirst
      rw [Bool.true_or, if_pos rfl]
      rcases hend : x.run (s.withToken k) with ⟨e | b, t⟩ <;> rw [hend] at hres hcancelled <;> cases hres
      exact ⟨rfl, hcancelled⟩
  | caught x ih =>
    intro s hs k
    have hsame := ih hx hs k
    rw [events, run]
    dsimp only
    split at hsame
    · rw [if_pos ‹_›]
      exact ⟨settle_eq_cancelled.2 hsame.1, hsame.2⟩
    · rw [if_neg ‹_›, hsame]
  | through enter leave x ih =>
    intro s hs k
    have hsame := @ih hx { s with notes := enter s.notes } hs k
    rw [events]
    split at hsame
    · rw [if_pos ‹_›]
      exact hsame
    · rw [if_neg ‹_›]
      rw [run, Session.through_apply, Session.through_apply,
        show ({ s.withToken k with notes := enter (s.withToken k).notes } : Session _) =
          Session.withToken { s with notes := enter s.notes } k from rfl, hsame]
      rfl
  | cancel => exact fun {s} hs k => rfl
  | arrive predicates n =>
    intro s hs k
    obtain ⟨x, hblind, heq⟩ := Scanner.arrive_eq ⟨fun _ => [], predicates⟩ n
    have hlive : s.cancelled = false := congrArg Token.cancelled hs
    rw [events, run, heq, Attempt.bind_apply, Attempt.bind_apply, Session.goOn_live hlive]
    rw [show k.hears [.arrival n] = k.cancelled from Bool.or_false _]
    cases hk : k.cancelled
    · rw [Session.goOn_live hk, if_neg Bool.false_ne_true]
      exact hblind.apply s k
    · rw [Session.goOn_stopped hk]
      exact ⟨rfl, hk⟩

/-! ## Routines for trees -/

def skip : Routine ν Unit := .act (pure ())

theorem skip_heedless : (skip : Routine ν Unit).Heedless := Attempt.Blind.pure ()

/-- What is done for each member of a list, in turn. -/
def each {ι : Type w} : List ι → (ι → Routine ν Unit) → Routine ν Unit
  | [], _ => skip
  | i :: rest, f => .bind (f i) fun _ => each rest f

theorem run_each {ι : Type w} {is : List ι} {f : ι → Routine ν Unit} {g : ι → Attempt (Session ν) Unit}
    (h : ∀ i ∈ is, (f i).run = g i) : (each is f).run = forM is g := by
  induction is with
  | nil => rfl
  | cons i rest ih =>
    rw [each, run, h i List.mem_cons_self, ih fun j hj => h j (List.mem_cons_of_mem i hj), List.forM_cons]

theorem each_heedless {ι : Type w} {is : List ι} {f : ι → Routine ν Unit} (h : ∀ i ∈ is, (f i).Heedless) :
    (each is f).Heedless := by
  induction is with
  | nil => exact skip_heedless
  | cons i rest ih =>
    exact ⟨h i List.mem_cons_self, fun _ => ih fun j hj => h j (List.mem_cons_of_mem i hj)⟩

mutual

/-- Goes through the subtree of a node, given what to do at a node and the place of the walk around it. -/
def tour (predicates : List Suppression.Predicate) (handle : Walk → Node → Routine ν Unit) (walk : Walk) :
    Node → Routine ν Unit
  | n@⟨_, _, _, _, _, _, _, _, children⟩ =>
    .bind (.arrive predicates n) fun
      | none => skip
      | some s => .bind (handle (walk.enter n s) n) fun _ => tourAll predicates handle (walk.enter n s) children

def tourAll (predicates : List Suppression.Predicate) (handle : Walk → Node → Routine ν Unit) (walk : Walk) :
    List Node → Routine ν Unit
  | [] => skip
  | n :: ns => .bind (tour predicates handle walk n) fun _ => tourAll predicates handle walk ns

end

variable {handle : Walk → Node → Routine ν Unit}

theorem tour_eq (predicates : List Suppression.Predicate) (walk : Walk) (n : Node) :
    tour predicates handle walk n = .bind (.arrive predicates n) fun
      | none => skip
      | some s => .bind (handle (walk.enter n s) n) fun _ =>
        tourAll predicates handle (walk.enter n s) n.children := by
  cases n; rfl

/-- A tour whose handlers do what a scanner calls does what the scanner does. -/
theorem run_tour (sc : Scanner ν) (h : ∀ walk n, (handle walk n).run = sc.callAll walk n) :
    (∀ (n : Node) (walk : Walk), (tour sc.predicates handle walk n).run = sc.tour walk n) ∧
    ∀ (ns : List Node) (walk : Walk), (tourAll sc.predicates handle walk ns).run = sc.tourAll walk ns := by
  refine Node.forest_induction (fun n ih walk => ?_) (fun _ => rfl) fun n ns ihn ihns walk => ?_
  · rw [tour_eq, Scanner.tour_eq, run]
    congr 1
    funext arrived
    cases arrived with
    | none => rfl
    | some s => simp only [run, h, ih]
  · rw [tourAll, run, ihn, ihns]
    rfl

theorem tour_heedless (h : ∀ walk n, (handle walk n).Heedless) (predicates : List Suppression.Predicate) :
    (∀ (n : Node) (walk : Walk), (tour predicates handle walk n).Heedless) ∧
    ∀ (ns : List Node) (walk : Walk), (tourAll predicates handle walk ns).Heedless := by
  refine Node.forest_induction (fun n ih walk => ?_) (fun _ => skip_heedless) fun n ns ihn ihns walk => ?_
  · rw [tour_eq]
    refine ⟨trivial, fun arrived => ?_⟩
    cases arrived with
    | none => exact skip_heedless
    | some s => exact ⟨h _ n, fun _ => ih _⟩
  · exact ⟨ihn walk, fun _ => ihns walk⟩

/-- A tour begins with the arrival at its root. -/
theorem hears_tour {k : Token} (hk : k.cancelled = true) (predicates : List Suppression.Predicate) (walk : Walk)
    (n : Node) (s : Session ν) : k.hears ((tour predicates handle walk n).events s) = true := by
  rw [tour_eq, events, Token.hears_append]
  show (k.cancelled || false || _) = true
  rw [hk]
  rfl

end Routine

end TreeLint
