/-
The order of the predicates. They are asked up to the first that suppresses everything, so which rules are
suppressed there besides depends on the order. A scan never looks at these, and so comes to the same in every order
and with every repetition. Main statement: `scan_reordered`.
-/
import TreeLint.Proofs.Pattern.Lawful
import TreeLint.Proofs.Walk.Alike
import TreeLint.Proofs.Walk.Quiet

namespace TreeLint

variable {ν α : Type}

/-! ## What predicates suppress together -/

namespace Suppression

theorem combine_assoc (a b c : Suppression) : (a.combine b).combine c = a.combine (b.combine c) := by
  have hrules : a.rules ∪ b.rules ∪ c.rules = a.rules ∪ (b.rules ∪ c.rules) :=
    NameSet.ext fun z => by simp only [NameSet.mem_union, or_assoc]
  simp only [combine, Bool.or_assoc, hrules]

theorem combine_comm (a b : Suppression) : a.combine b = b.combine a := by
  have hrules : a.rules ∪ b.rules = b.rules ∪ a.rules := NameSet.ext fun z => by simp only [NameSet.mem_union, or_comm]
  simp only [combine, Bool.or_comm, hrules]

theorem combine_self (a : Suppression) : a.combine a = a := by
  have hrules : a.rules ∪ a.rules = a.rules := NameSet.ext fun z => by simp only [NameSet.mem_union, or_self]
  simp only [combine, Bool.or_self, hrules]

theorem combine_none (a : Suppression) : a.combine none = a := by
  have hrules : a.rules ∪ ∅ = a.rules :=
    NameSet.ext fun z => NameSet.mem_union.trans (or_iff_left (NameSet.not_mem_empty z))
  simp only [combine, none, Bool.or_false, hrules]

/-- What the predicates of a list suppress if all of them are asked. -/
def total (answer : Predicate → Suppression) (s : Suppression) (ps : List Predicate) : Suppression :=
  ps.foldl (fun s p => s.combine (answer p)) s

/-- A predicate that answers the same to two resolvers that are related, and leaves them related. -/
def Answers (Q : Resolver → Resolver → Prop) (n : Node) (a : Suppression) (p : Predicate) : Prop :=
  ∀ r r', Q r r' → (p n r).1 = a ∧ (p n r').1 = a ∧ Q (p n r).2 r' ∧ Q r (p n r').2

variable {Q : Resolver → Resolver → Prop} {answer : Predicate → Suppression} {n : Node} {ps ps' : List Predicate}
  {r r' : Resolver}

theorem everything_total (s : Suppression) :
    (total answer s ps).everything = true ↔ s.everything = true ∨ ∃ p ∈ ps, (answer p).everything = true := by
  unfold total
  induction ps generalizing s with
  | nil => simp
  | cons p ps ih =>
    rw [List.foldl_cons, ih]
    simp [combine, or_assoc]

theorem mem_rules_total (s : Suppression) (rule : String) :
    rule ∈ (total answer s ps).rules ↔ rule ∈ s.rules ∨ ∃ p ∈ ps, rule ∈ (answer p).rules := by
  unfold total
  induction ps generalizing s with
  | nil => simp
  | cons p ps ih =>
    rw [List.foldl_cons, ih]
    simp [combine, NameSet.mem_union, or_assoc]

/-- Neither order nor repetition matters to what all predicates suppress together. -/
theorem total_congr (hsame : ∀ p, p ∈ ps ↔ p ∈ ps') (s : Suppression) : total answer s ps = total answer s ps' := by
  have heverything : (total answer s ps).everything = (total answer s ps').everything := by
    rw [Bool.eq_iff_iff, everything_total, everything_total]
    simp only [hsame]
  have hrules : (total answer s ps).rules = (total answer s ps').rules := NameSet.ext fun rule => by
    rw [mem_rules_total, mem_rules_total]
    simp only [hsame]
  rcases h : total answer s ps with ⟨_, _⟩
  rcases h' : total answer s ps' with ⟨_, _⟩
  rw [h, h'] at heverything hrules
  exact congr (congrArg Suppression.mk heverything) hrules

/-- Asking up to the first predicate that suppresses everything tells whether everything is suppressed, and if it
is not, what all predicates suppress. -/
theorem addFrom_eq_total (h : ∀ p ∈ ps, Answers Q n (answer p) p) (hr : Q r r') (s : Suppression) :
    Q (addFrom s ps n r).2 r' ∧ (addFrom s ps n r).1.everything = (total answer s ps).everything ∧
      ((total answer s ps).everything = false → (addFrom s ps n r).1 = total answer s ps) := by
  induction ps generalizing s r with
  | nil => exact ⟨hr, rfl, fun _ => rfl⟩
  | cons p ps ih =>
    obtain ⟨hanswer, -, hend, -⟩ := h p List.mem_cons_self r r' hr
    have htotal : total answer s (p :: ps) = total answer (s.combine (answer p)) ps := rfl
    rw [addFrom_cons, hanswer, htotal]
    split
    · rename_i heverything
      have hstays : (total answer (s.combine (answer p)) ps).everything = true :=
        (everything_total _).2 (.inl heverything)
      exact ⟨hend, heverything.trans hstays.symm, fun hnot => absurd hstays (by simp [hnot])⟩
    · exact ih (fun q hq => h q (List.mem_cons_of_mem p hq)) hend _

theorem Answers.flip {a : Suppression} {p : Predicate} (h : Answers Q n a p) : Answers (fun r r' => Q r' r) n a p := by
  intro r r' hr
  obtain ⟨hright, hleft, hend, hend'⟩ := h r' r hr
  exact ⟨hleft, hright, hend', hend⟩

/-- A predicate that is settled has one answer for all fit resolvers. -/
theorem Answers.of_settled {fit : Resolver → Prop} {p : Predicate} (h : Query.Settled fit (p n)) :
    ∃ a, Answers (fun r r' => fit r ∧ fit r') n a p := by
  obtain ⟨a, ha⟩ := h
  exact ⟨a, fun r r' ⟨hr, hr'⟩ => ⟨(ha r hr).1, (ha r' hr').1, ⟨(ha r hr).2, hr'⟩, ⟨hr, (ha r' hr').2⟩⟩⟩

theorem of_reordered (hsame : ∀ p, p ∈ ps ↔ p ∈ ps') (h : ∀ p ∈ ps, ∃ a, Answers Q n a p) (hr : Q r r') :
    Q (of ps n r).2 (of ps' n r').2 ∧ (of ps n r).1.everything = (of ps' n r').1.everything ∧
      ((of ps n r).1.everything = false → (of ps n r).1 = (of ps' n r').1) := by
  have : Nonempty Suppression := ⟨none⟩
  choose! answer hanswer using h
  obtain ⟨hend, heverything, hrules⟩ := addFrom_eq_total hanswer hr none
  have hflip : ∀ p ∈ ps', Answers (fun r r' => Q r' r) n (answer p) p := fun p hp => (hanswer p ((hsame p).2 hp)).flip
  obtain ⟨hend', heverything', hrules'⟩ := addFrom_eq_total hflip hend none
  rw [← total_congr hsame] at heverything' hrules'
  refine ⟨hend', heverything.trans heverything'.symm, fun hnot => ?_⟩
  rw [of, heverything] at hnot
  exact (hrules hnot).trans (hrules' hnot).symm

end Suppression

/-! ## What a scan comes to -/

/-- Two sessions that differ in nothing but their resolvers, which are related. -/
structure Session.UpTo (Q : Resolver → Resolver → Prop) (s t : Session ν) : Prop where
  progress : s.toProgress = t.toProgress
  notes : s.notes = t.notes
  resolver : Q s.resolver t.resolver

open Suppression

variable {Q : Resolver → Resolver → Prop} {n : Node} {ps ps' : List Predicate} {handlers : NodeKind → List (Handler ν)}

namespace Scanner

theorem arrive_apply (sc : Scanner ν) (n : Node) (s : Session ν) :
    sc.arrive n s =
      if s.cancelled then (.error .cancelled, s)
      else
        let found := of sc.predicates n s.resolver
        if found.1.everything then
          let name := n.name.getD ""
          let entry : LogEntry := ⟨.debug, .walk, s!"Skipping generated {n.kind.name} subtree {name}"⟩
          (.ok Option.none, { s with resolver := found.2, log := s.log ++ [entry] })
        else (.ok (some found.1), { s with resolver := found.2 }) := by
  unfold arrive Session.goOn
  rw [Attempt.bind_apply, Attempt.bind_apply, Attempt.state_apply]
  dsimp only
  by_cases hcancelled : s.cancelled = true
  · rw [if_pos hcancelled, if_pos hcancelled]
    rfl
  · rw [if_neg hcancelled, if_neg hcancelled]
    change (if (of sc.predicates n s.resolver).1.everything then _ else _ : Attempt _ (Option Suppression)) _ = _
    split <;> rfl

/-- What is found out on arrival does not depend on the order of the predicates. -/
theorem arrive_reordered (hsame : ∀ p, p ∈ ps ↔ p ∈ ps') (h : ∀ p ∈ ps, ∃ a, Answers Q n a p) :
    Attempt.Alike (Session.UpTo Q) ((Scanner.mk handlers ps).arrive n) ((Scanner.mk handlers ps').arrive n) := by
  intro s t hst
  obtain ⟨hend, heverything, hrules⟩ := of_reordered hsame h hst.resolver
  rw [arrive_apply, arrive_apply]
  dsimp only
  rw [← heverything, ← hst.progress]
  split
  · exact ⟨rfl, hst⟩
  · split
    · exact ⟨rfl, rfl, hst.notes, hend⟩
    · rename_i hnot
      exact ⟨congrArg (fun a => Except.ok (some a)) (hrules (Bool.not_eq_true _ ▸ hnot)), rfl, hst.notes, hend⟩

/-- What a scan does to a session, begun at a place of a walk. -/
def outcome (sc : Scanner ν) (root : Node) (walk : Walk) : Attempt (Session ν) Unit := fun session =>
  let after := sc.scan root ⟨session, walk⟩
  (after.1, after.2.toSession)

theorem outcome_eq_tour (sc : Scanner ν) (root : Node) (walk : Walk) : sc.outcome root walk = sc.tour walk root := by
  funext session
  exact (scan_roundTrip sc root).session session walk

/-- Scans with the same predicates come to the same, if their handlers do where the resolvers are related. -/
theorem outcome_reordered {within : Node → Prop} (hbelow : ∀ n, within n → ∀ m ∈ n.children, within m)
    (hsame : ∀ p, p ∈ ps ↔ p ∈ ps') (hp : ∀ n, within n → ∀ p ∈ ps, ∃ a, Answers Q n a p)
    (hh : ∀ n, within n → ∀ handle ∈ handlers n.kind, ∀ walk : Walk, walk.Within within →
      Attempt.Alike (Session.UpTo Q) (handle walk n) (handle walk n))
    {root : Node} (hroot : within root) {walk : Walk} (hwalk : walk.Within within) :
    Attempt.Alike (Session.UpTo Q) ((Scanner.mk handlers ps).outcome root walk)
      ((Scanner.mk handlers ps').outcome root walk) := by
  rw [outcome_eq_tour, outcome_eq_tour]
  have halike : Alike (Session.UpTo Q) within (Scanner.mk handlers ps) (Scanner.mk handlers ps') :=
    ⟨hbelow, fun n hn => arrive_reordered hsame (hp n hn), fun n hn walk hw =>
      List.forall₂_same.2 fun handle hmem => hh n hn handle hmem walk hw⟩
  exact halike.tour.1 root walk hroot hwalk

/-- Where the predicates answer alike, the steps are the same. -/
theorem steps_congr {answer answer' : Node → Suppression}
    (heverything : ∀ n, (answer n).everything = (answer' n).everything)
    (hopen : ∀ n, (answer n).everything = false → answer n = answer' n) :
    (∀ (n : Node) (walk : Walk), (Scanner.mk handlers ps).steps answer walk n =
      (Scanner.mk handlers ps').steps answer' walk n) ∧
    ∀ (ns : List Node) (walk : Walk), (Scanner.mk handlers ps).stepsAll answer walk ns =
      (Scanner.mk handlers ps').stepsAll answer' walk ns := by
  refine Node.forest_induction (fun n ih walk => ?_) (fun _ => rfl) fun n ns ihn ihns walk => ?_
  · rw [steps_eq, steps_eq, ← heverything]
    cases hn : (answer n).everything
    · rw [← hopen n hn, if_neg Bool.false_ne_true, if_neg Bool.false_ne_true, ih]
      rfl
    · rfl
  · rw [stepsAll, stepsAll, ihn, ihns]

/-- Whatever asking does to the resolver, and whatever the handlers do, scans with the same predicates carry out the
same steps up to the first that fails. -/
theorem outcome_eq_perform (hsame : ∀ p, p ∈ ps ↔ p ∈ ps')
    (hp : ∀ p ∈ ps, ∃ answer : Node → Suppression, ∀ n r, (p n r).1 = answer n) (root : Node) (walk : Walk) :
    ∃ steps, (Scanner.mk handlers ps).outcome root walk = (Scanner.mk handlers ps).perform steps ∧
      (Scanner.mk handlers ps').outcome root walk = (Scanner.mk handlers ps').perform steps := by
  have hsteady : ∀ p ∈ ps, Steady (fun _ => True) (fun _ => True) p := fun p hmem n _ => by
    obtain ⟨answer, hanswer⟩ := hp p hmem
    exact ⟨answer n, fun r _ => ⟨hanswer n r, trivial⟩⟩
  have hkeeps {qs : List Predicate} (hqs : ∀ p ∈ qs, Steady (fun _ => True) (fun _ => True) p) :
      (Scanner.mk handlers qs).Keeps (fun _ => True) (fun _ => True) fun n => (of qs n {}).1 :=
    ⟨fun _ _ _ _ => trivial, fun n hn r _ => ⟨(Steady.of hqs n hn).answer trivial trivial, trivial⟩,
      fun _ _ _ _ _ _ _ _ => trivial⟩
  have hanswers (n : Node) : ∀ p ∈ ps, ∃ a, Answers (fun _ _ => True) n a p := fun p hmem => by
    obtain ⟨answer, hanswer⟩ := hp p hmem
    exact ⟨answer n, fun r r' _ => ⟨hanswer n r, hanswer n r', trivial, trivial⟩⟩
  have htold (n : Node) : (of ps n {}).1.everything = (of ps' n {}).1.everything ∧
      ((of ps n {}).1.everything = false → (of ps n {}).1 = (of ps' n {}).1) :=
    (of_reordered hsame (hanswers n) trivial).2
  have hwithin : walk.Within fun _ => True := ⟨fun _ _ => trivial, fun _ _ => trivial⟩
  have hsteps : (Scanner.mk handlers ps).steps (fun n => (of ps n {}).1) walk root =
      (Scanner.mk handlers ps').steps (fun n => (of ps' n {}).1) walk root :=
    (steps_congr (fun n => (htold n).1) fun n => (htold n).2).1 root walk
  refine ⟨(Scanner.mk handlers ps).steps (fun n => (of ps n {}).1) walk root, ?_, ?_⟩
  · rw [outcome_eq_tour]
    funext session
    exact ((tour_eq_perform (hkeeps hsteady)).1 root walk session trivial hwithin trivial).1
  · rw [outcome_eq_tour, hsteps]
    funext session
    exact ((tour_eq_perform (hkeeps fun p hmem => hsteady p ((hsame p).2 hmem))).1 root walk session trivial hwithin
      trivial).1

end Scanner

/-! ## Calls written down -/

namespace Session

/-- Does something with the notes of a handler, next to which calls are written down. -/
def besideCalls (x : Attempt (Session ν) α) : Attempt (Session (ν × List (Call ν))) α :=
  Attempt.within (fun s => { s with notes := s.notes.1 }) (fun t s => { t with notes := (t.notes, s.notes.2) }) x

end Session

/-- A handler that writes its call down before it does its work. -/
def Handler.recorded (handle : Handler ν) : Handler (ν × List (Call ν)) := fun walk n => do
  Session.note fun notes => (notes.1, notes.2 ++ [⟨handle, walk, n⟩])
  Session.besideCalls (handle walk n)

/-- A scanner whose handlers write down their calls. -/
def Scanner.recorded (sc : Scanner ν) : Scanner (ν × List (Call ν)) where
  handlers kind := (sc.handlers kind).map Handler.recorded
  predicates := sc.predicates

theorem Handler.recorded_alike {handle : Handler ν} {walk : Walk}
    (h : Attempt.Alike (Session.UpTo Q) (handle walk n) (handle walk n)) :
    Attempt.Alike (Session.UpTo Q) (handle.recorded walk n) (handle.recorded walk n) := by
  have hnote : Attempt.Alike (Session.UpTo Q)
      (Session.note fun notes : ν × List (Call ν) => (notes.1, notes.2 ++ [⟨handle, walk, n⟩]))
      (Session.note fun notes => (notes.1, notes.2 ++ [⟨handle, walk, n⟩])) := fun s t hst =>
    ⟨rfl, hst.progress, congrArg (fun notes => (notes.1, notes.2 ++ [_])) hst.notes, hst.resolver⟩
  refine hnote.bind fun _ s t hst => ?_
  obtain ⟨hres, hend⟩ := h { s with notes := s.notes.1 } { t with notes := t.notes.1 }
    ⟨hst.progress, congrArg Prod.fst hst.notes, hst.resolver⟩
  exact ⟨hres, hend.progress, congrArg₂ Prod.mk hend.notes (congrArg Prod.snd hst.notes), hend.resolver⟩

/-! ## Orders and repetitions -/

namespace Scanner

theorem outcome_of_pure (hsame : ∀ p, p ∈ ps ↔ p ∈ ps')
    (hp : ∀ p ∈ ps, ∃ answer : Node → Suppression, p = fun n => pure (answer n)) (root : Node) (walk : Walk) :
    (Scanner.mk handlers ps).outcome root walk = (Scanner.mk handlers ps').outcome root walk := by
  have heq {s t : Session ν} (hst : Session.UpTo Eq s t) : s = t := by
    rcases s with ⟨_, _, _⟩
    rcases t with ⟨_, _, _⟩
    obtain ⟨hprogress, hnotes, hresolver⟩ := hst
    cases hprogress
    cases hnotes
    cases hresolver
    rfl
  have hself (x : Attempt (Session ν) Unit) : Attempt.Alike (Session.UpTo Eq) x x := fun s t hst => by
    cases heq hst
    exact ⟨rfl, rfl, rfl, rfl⟩
  have hanswers : ∀ n, True → ∀ p ∈ ps, ∃ a, Answers Eq n a p := fun n _ p hmem => by
    obtain ⟨answer, rfl⟩ := hp p hmem
    exact ⟨answer n, fun r r' hr => ⟨rfl, rfl, hr, hr⟩⟩
  have hwithin : walk.Within fun _ => True := ⟨fun _ _ => trivial, fun _ _ => trivial⟩
  funext session
  obtain ⟨hres, hend⟩ := outcome_reordered (fun _ _ _ _ => trivial) hsame hanswers (fun _ _ _ _ _ _ => hself _) trivial
    hwithin session session ⟨rfl, rfl, rfl⟩
  exact Prod.ext hres (heq hend)

/-- Scans with the same predicates, in any order and with any repetitions, come to the same in any tree and from any
state. Where the predicates ask the resolver nothing, this holds whatever the handlers do: the result and the session
left behind are the same, and so are the calls of handlers that write down which of them is called, at which node and
in which place of the walk. Where the predicates do ask, but answer by the node alone, both scans carry out the same
steps up to the first that fails, and they come to the same in all but the resolver if what is asked does no harm to
the handlers. What predicates suppress is combined in any order, with any repetition, and with nothing. -/
theorem scan_reordered (handlers : NodeKind → List (Handler ν)) {ps ps' : List Predicate}
    (hsame : ∀ p, p ∈ ps ↔ p ∈ ps') (root : Node) (walk : Walk) :
    let sc : Scanner ν := ⟨handlers, ps⟩
    let sc' : Scanner ν := ⟨handlers, ps'⟩
    ((∀ p ∈ ps, ∃ answer : Node → Suppression, p = fun n => pure (answer n)) →
      sc.outcome root walk = sc'.outcome root walk ∧
      sc.recorded.outcome root walk = sc'.recorded.outcome root walk) ∧
    ((∀ p ∈ ps, ∃ answer : Node → Suppression, ∀ n r, (p n r).1 = answer n) →
      ∃ steps, sc.outcome root walk = sc.perform steps ∧ sc'.outcome root walk = sc'.perform steps) ∧
    (∀ (within : Node → Prop) (Q : Resolver → Resolver → Prop), (∀ n, within n → ∀ m ∈ n.children, within m) →
      (∀ n, within n → ∀ p ∈ ps, ∃ a, Answers Q n a p) →
      (∀ n, within n → ∀ handle ∈ handlers n.kind, ∀ walk : Walk, walk.Within within →
        Attempt.Alike (Session.UpTo Q) (handle walk n) (handle walk n)) →
      within root → walk.Within within →
        Attempt.Alike (Session.UpTo Q) (sc.outcome root walk) (sc'.outcome root walk) ∧
        Attempt.Alike (Session.UpTo Q) (sc.recorded.outcome root walk) (sc'.recorded.outcome root walk)) ∧
    (∀ a b c : Suppression, (a.combine b).combine c = a.combine (b.combine c)) ∧
    (∀ a b : Suppression, a.combine b = b.combine a) ∧ (∀ a : Suppression, a.combine a = a) ∧
    ∀ a : Suppression, a.combine .none = a ∧ Suppression.none.combine a = a := by
  intro sc sc'
  refine ⟨fun hp => ⟨outcome_of_pure hsame hp root walk, outcome_of_pure hsame hp root walk⟩,
    fun hp => outcome_eq_perform hsame hp root walk, fun within Q hbelow hp hh hroot hwalk => ⟨?_, ?_⟩,
    combine_assoc, combine_comm, combine_self, fun a => ⟨combine_none a, (combine_comm _ a).trans (combine_none a)⟩⟩
  · exact outcome_reordered hbelow hsame hp hh hroot hwalk
  · refine outcome_reordered hbelow hsame hp (fun n hn handle hmem walk hw => ?_) hroot hwalk
    obtain ⟨handle, hhandle, rfl⟩ := List.mem_map.1 hmem
    exact handle.recorded_alike (hh n hn handle hhandle walk hw)

/-- A generated class is passed over in either order, though in one of them a rule is suppressed there besides. The
handlers call the scan off at the second node they come to, and it ends in the same way. The usual predicates may
change places, too: in a coherent unit, what they ask does no harm to handlers that ask nothing. -/
theorem scan_reordered_nestedClass :
    let skipped := Suppression.ofNodes none (some (some "Generated")) .all
    let silenced := Suppression.ofNodes none (some (some "Generated")) { rules := .ofList ["RandomRemainder"] }
    let marked := Suppression.ofMarking "SuppressWarnings"
    let sc := Trace.scanner { cancelAt := some 2 } [.classDecl, .method] 1 [skipped, marked, silenced]
    let sc' := Trace.scanner { cancelAt := some 2 } [.classDecl, .method] 1 [silenced, skipped, silenced, marked]
    let generated : Node := { id := 3, kind := .classDecl, name := some "Generated" }
    let module : Node := { id := 9, kind := .compilationUnit, children := [Node.nestedClass] }
    let u : CompilationUnit := { path := "nested.py", source := "", tree := module }
    let fit := u.Truthful declaredProvenance
    (of sc.predicates generated {}).1 ≠ (of sc'.predicates generated {}).1 ∧
    sc.recorded.outcome Node.nestedClass {} = sc'.recorded.outcome Node.nestedClass {} ∧
    u.IsCoherent declaredProvenance ∧
    Attempt.Alike (Session.UpTo fun r r' => fit r ∧ fit r')
      ((Trace.scanner {} [.classDecl] 2 (usual "SuppressWarnings")).recorded.outcome u.tree {})
      ((Trace.scanner {} [.classDecl] 2 (usual "SuppressWarnings").reverse).recorded.outcome u.tree {}) := by
  intro skipped silenced marked sc sc' generated module u fit
  have hpure : ∀ p ∈ sc.predicates, ∃ answer : Node → Suppression, p = fun n => pure (answer n) := by
    simp only [sc, Trace.scanner, List.forall_mem_cons]
    exact ⟨⟨_, rfl⟩, ⟨_, rfl⟩, ⟨_, rfl⟩, List.forall_mem_nil _⟩
  have hsame (p : Predicate) : p ∈ sc.predicates ↔ p ∈ sc'.predicates := by
    simp only [sc, sc', Trace.scanner, List.mem_cons, List.not_mem_nil, or_false]
    tauto
  have hcoherent : u.IsCoherent declaredProvenance := CompilationUnit.isCoherent_of_plain fun _ =>
    CompilationUnit.HasNode.all rfl (by decide)
  have hhandle (walk : Walk) (n : Node) : Attempt.Alike (Session.UpTo fun r r' => fit r ∧ fit r')
      (Trace.handle {} walk n) (Trace.handle {} walk n) := fun s t hst =>
    ⟨rfl, hst.progress, congrArg (· ++ [walk]) hst.notes, hst.resolver⟩
  refine ⟨by decide, ((scan_reordered sc.handlers hsame Node.nestedClass {}).1 hpure).2, hcoherent, ?_⟩
  have hreversed (p : Predicate) : p ∈ usual "SuppressWarnings" ↔ p ∈ (usual "SuppressWarnings").reverse :=
    List.mem_reverse.symm
  obtain ⟨-, -, hany, -⟩ := scan_reordered (Trace.scanner {} [.classDecl] 2 []).handlers hreversed u.tree {}
  refine (hany u.HasNode _ (fun n hn m hm => hn.child hm) (fun n hn p hp => ?_) (fun n hn handle hmem walk _ => ?_)
    u.hasNode_tree (Walk.within_start _ _)).2
  · exact Answers.of_settled (((usual_lawful _ p hp).steady hcoherent) n hn)
  · simp only [Trace.scanner] at hmem
    split at hmem
    · rw [List.eq_of_mem_replicate hmem]
      exact hhandle walk n
    · cases hmem

end Scanner

end TreeLint
