/-
What an analysis with the rules that come with the program finds, and where. Neither rule fails or calls the
analysis off, so the report is known from the tree and from what a fresh resolver answers. Main statement:
`analyze_builtin`.
-/
import TreeLint.Proofs.Analysis.Nested

namespace TreeLint.Analyzer

open RuleM

variable {ν α : Type} {a : Analyzer} {u : CompilationUnit} {p : Progress} {r : Rule} {walk : Walk} {n : Node}

/-! ## Questions on the way -/

/-- What a fresh resolver answers. -/
def answerTo (a : Analyzer) (q : Query α) : α := (q { provenance := a.provenance }).1

/-- In the midst of an analysis a question has the answer of a fresh resolver. -/
theorem answer_going (hc : u.IsCoherent a.provenance) {q : Query α} (hq : Query.Lawful u q)
    {s : Session ν} (hs : a.Going u p s) :
    (q s.resolver).1 = a.answerTo q ∧ a.Going u p { s with resolver := (q s.resolver).2 } := by
  have hsettled := hq.settled hc
  have hfresh := u.truthful_fresh a.provenance
  exact ⟨hsettled.answer hs.truthful hfresh, .of (hsettled.stays hs.truthful) hs.stoppable hs.live⟩

/-! ## Scans below a spot -/

theorem openScanner_keeps (hc : u.IsCoherent a.provenance) (hp : ∀ q ∈ a.predicates, Suppression.Lawful u q)
    {handlers : Handlers} (hh : ∀ n, u.HasNode n → ∀ handle ∈ handlers n.kind, RuleM.Lawful u (handle n))
    (r : Rule) : (openScanner (a.sceneFor u r) handlers).Keeps u.HasNode (u.Truthful a.provenance) a.answer where
  below _ hn _ hm := hn.child hm
  predicates n hn r hr := by
    have hsteady := Suppression.Steady.of (fun p hmem => (hp p hmem).steady hc) n hn
    exact ⟨hsteady.answer hr (u.truthful_fresh a.provenance), hsteady.stays hr⟩
  handlers n hn handle hmem walk hw s hs := by
    obtain ⟨inner, hinner, rfl⟩ := List.mem_map.1 hmem
    let begun : Session Visit := { s with notes := { s.notes with traversal := walk } }
    have hstart : Session.Same u a.provenance s.isStoppable False begun begun :=
      ⟨⟨hs, hs, rfl, rfl, rfl, False.elim⟩, rfl⟩
    exact ((hh n hn inner hinner).fair hc (a.sceneFor u r) ⟨rfl, hp⟩ begun begun ⟨hstart, hw⟩).2.1.left

/-- A session in the midst of an analysis, of a rule that has a walk in hand. -/
structure GoingAt (a : Analyzer) (u : CompilationUnit) (p : Progress) (walk : Walk) (s : Session Visit) : Prop
    extends a.Going u p s where
  traversal : s.notes.traversal = walk

/-- A scan started at a visited spot finds what its calls find. -/
theorem scanBelow_finds (hc : u.IsCoherent a.provenance) (hp : ∀ q ∈ a.predicates, Suppression.Lawful u q)
    {handlers : Handlers} (hh : ∀ n, u.HasNode n → ∀ handle ∈ handlers n.kind, RuleM.Lawful u (handle n)) {q : Spot}
    (hq : q ∈ a.visited u) (r : Rule) (found : Call Visit → List Diagnostic)
    (hfound : ∀ n, u.HasNode n → ∀ handle ∈ handlers n.kind, ∀ walk : Walk,
      Finds Visit.found (a.Going u p) (handler (a.sceneFor u r) handle walk n)
        (found ⟨handler (a.sceneFor u r) handle, walk, n⟩)) :
    Finds Visit.found (a.GoingAt u p (a.placeAt q)) (scanBelow q.node handlers (a.sceneFor u r))
      (((stepsBelow (a.sceneFor u r) handlers a.answer (a.placeAt q) q.node).filterMap Step.call?).flatMap found) := by
  intro s hs
  have hkeeps := openScanner_keeps hc hp hh r
  have hroot := (within_of_visited hq).1
  have hallows : ∀ step ∈ stepsBelow (a.sceneFor u r) handlers a.answer (a.placeAt q) q.node,
      (openScanner (a.sceneFor u r) handlers).Allows u.HasNode step :=
    allows_stepsBelow hkeeps.below hroot
  have hback := traversal_scanBelow q.node handlers (a.sceneFor u r) s
  rw [scanBelow_eq_perform hkeeps hroot hs.truthful, hs.traversal] at hback ⊢
  have hcalls (c : Call Visit) (hcall : .call c ∈ stepsBelow (a.sceneFor u r) handlers a.answer (a.placeAt q) q.node) :
      Finds Visit.found (a.Going u p) (c.handle c.walk c.node) (found c) := by
    cases hallows _ hcall with
    | call hn hmem =>
      obtain ⟨handle, walk, n⟩ := c
      obtain ⟨inner, hinner, rfl⟩ := List.mem_map.1 hmem
      exact hfound n hn inner hinner walk
  obtain ⟨hres, hend, hnotes⟩ := perform_finds hkeeps hallows found hcalls s hs.toGoing
  exact ⟨hres, ⟨hend, hback⟩, hnotes⟩

/-! ## What a trial finds -/

/-- A computation that completes, and whose result, behind what it reported, makes up some findings. -/
def Describes (inv : Session Visit → Prop) (x : Attempt (Session Visit) (Option Diagnostic))
    (found : List Diagnostic) : Prop :=
  ∀ s, inv s → ∃ last, (x s).1 = .ok last ∧ inv (x s).2 ∧ (x s).2.notes.found ++ last.toList = s.notes.found ++ found

/-- A rule that goes by its pattern and whose description completes. -/
theorem trial_of_describes (hc : u.IsCoherent a.provenance) (hpc : p.cancelled = false)
    (htest : r.test n = .ok <$> r.pattern.isMatch n) (hn : u.HasNode n) {found : List Diagnostic}
    (hdescribe : Describes (a.GoingAt u p walk) (r.describe n (a.sceneFor u r)) found) :
    (a.trial u r walk n (a.fresh p)).1 = .ok (if a.answerTo (r.pattern.isMatch n) then found else []) ∧
      (a.trial u r walk n (a.fresh p)).2.cancelled = false := by
  let start := begun walk (a.fresh p)
  have hstart : a.Going u p start := .of (u.truthful_fresh a.provenance) rfl hpc
  obtain ⟨hanswer, hgoing⟩ := answer_going hc (Pattern.isMatch_lawful r.pattern hn) hstart
  obtain ⟨last, hres, hend, hnotes⟩ := hdescribe _ ⟨hgoing, rfl⟩
  have hask : Session.ask (r.test n) start = (.ok (.ok (a.answerTo (r.pattern.isMatch n))),
      { start with resolver := (r.pattern.isMatch n start.resolver).2 }) := by
    rw [htest]
    rfl
  rw [trial_apply, findings_eq, Attempt.bind_apply, hask]
  dsimp only
  rw [Attempt.bind_apply, Attempt.lift_apply]
  cases a.answerTo (r.pattern.isMatch n)
  · exact ⟨rfl, hgoing.live⟩
  · rw [if_pos rfl]
    rcases hd : r.describe n (a.sceneFor u r) { start with resolver := (r.pattern.isMatch n start.resolver).2 } with
      ⟨res, t⟩
    rw [hd] at hres hend hnotes
    cases hres
    simp only [Bool.not_true, Bool.false_eq_true, if_false, Attempt.bind_apply, hd]
    exact ⟨congrArg Except.ok hnotes, hend.live⟩

/-! ## The rules that come with the program -/

/-- A finding and the spot at which it was made. -/
structure Placed where
  spot : Spot
  finding : Diagnostic

variable {leaked : LeakedSubclass.Names} {random : RandomRemainder.Names} {q : Spot}

/-- Whether a node refers to a leaked subclass, seen from a root. -/
def isLeakAt (a : Analyzer) (leaked : LeakedSubclass.Names) (root n : Node) : Bool :=
  LeakedSubclass.isReferenceKind n.kind &&
    a.answerTo (LeakedSubclass.isLeaked leaked.generatedStart (LeakedSubclass.markedTypes leaked.marker root) n)

/-- The leaked subclasses found from a spot: references at the spots below where the rule is not suppressed. -/
def leaksAt (a : Analyzer) (u : CompilationUnit) (leaked : LeakedSubclass.Names) (q : Spot) : List Placed :=
  let rule := LeakedSubclass.rule leaked
  ((q.node.spots (fun n => (a.answer n).everything) q.around).filter fun m =>
      a.isLeakAt leaked q.node m.node && !(a.placeAt m).isSuppressed rule.id).map fun m =>
    ⟨m, finding (a.sceneFor u rule) (a.placeBelow q m) m.node none⟩

/-- What is found in a call of the scan for leaked subclasses. -/
def leakOf (a : Analyzer) (u : CompilationUnit) (leaked : LeakedSubclass.Names) (root : Node)
    (c : Call Visit) : List Diagnostic :=
  if a.answerTo (LeakedSubclass.isLeaked leaked.generatedStart (LeakedSubclass.markedTypes leaked.marker root) c.node)
  then [finding (a.sceneFor u (LeakedSubclass.rule leaked)) c.walk c.node none] else []

theorem reportLeaked_finds (hc : u.IsCoherent a.provenance) {root : Node} (hn : u.HasNode n) {handle : Node → RuleM Unit}
    (hmem : handle ∈ LeakedSubclass.handlers leaked root n.kind) (walk : Walk) :
    let scene := a.sceneFor u (LeakedSubclass.rule leaked)
    Finds Visit.found (a.Going u p) (handler scene handle walk n)
      (a.leakOf u leaked root ⟨handler scene handle, walk, n⟩) := by
  intro scene s hs
  unfold LeakedSubclass.handlers at hmem
  split at hmem
  · rcases List.mem_singleton.1 hmem with rfl
    obtain ⟨hanswer, hgoing⟩ := answer_going hc (LeakedSubclass.isLeaked_lawful leaked.generatedStart _ hn) hs
    obtain ⟨log, heq⟩ := LeakedSubclass.reportLeaked_apply leaked
      (LeakedSubclass.markedTypes leaked.marker root) n scene { s with notes := { s.notes with traversal := walk } }
    rw [handler, visiting_eq, Session.through_apply, heq, leakOf, ← hanswer]
    exact ⟨rfl, .of hgoing.truthful hgoing.stoppable hgoing.live, rfl⟩
  · cases hmem

theorem leakOf_calls (a : Analyzer) (u : CompilationUnit) (leaked : LeakedSubclass.Names) (q : Spot) :
    ((stepsBelow (a.sceneFor u (LeakedSubclass.rule leaked)) (LeakedSubclass.handlers leaked q.node)
        a.answer (a.placeAt q) q.node).filterMap Step.call?).flatMap (a.leakOf u leaked q.node) =
      (a.leaksAt u leaked q).map Placed.finding := by
  have hspot (m : Spot) (scene : Scene) (walk : Walk) :
      ((LeakedSubclass.handlers leaked q.node m.node.kind).map fun handle =>
        (⟨handler scene handle, walk, m.node⟩ : Call Visit)).flatMap (a.leakOf u leaked q.node) =
      if a.isLeakAt leaked q.node m.node then
        [finding (a.sceneFor u (LeakedSubclass.rule leaked)) walk m.node none] else [] := by
    unfold LeakedSubclass.handlers isLeakAt
    cases LeakedSubclass.isReferenceKind m.node.kind
    · rfl
    · exact List.append_nil _
  rw [calls_below, List.flatMap_assoc]
  simp only [hspot]
  rw [leaksAt, List.map_map, ← List.filter_filter]
  induction (q.node.spots (fun n => (a.answer n).everything) q.around).filter
    fun m => !(a.placeAt m).isSuppressed (LeakedSubclass.rule leaked).id with
  | nil => rfl
  | cons m rest ih =>
    rw [List.flatMap_cons, ih]
    cases hleak : a.isLeakAt leaked q.node m.node
    · rw [List.filter_cons_of_neg (by simp [hleak])]
      rfl
    · rw [List.filter_cons_of_pos (by simp [hleak])]
      rfl

theorem leak_describes (hc : u.IsCoherent a.provenance) (hp : ∀ q ∈ a.predicates, Suppression.Lawful u q)
    (hq : q ∈ a.visited u) :
    Describes (a.GoingAt u p (a.placeAt q))
      ((LeakedSubclass.rule leaked).describe q.node (a.sceneFor u (LeakedSubclass.rule leaked)))
      ((a.leaksAt u leaked q).map Placed.finding) := by
  intro s hs
  obtain ⟨hres, hend, hnotes⟩ := scanBelow_finds hc hp (fun n hn => LeakedSubclass.handlers_lawful leaked q.node hn) hq
    (LeakedSubclass.rule leaked) (a.leakOf u leaked q.node)
    (fun n hn handle hmem walk => reportLeaked_finds hc hn hmem walk) s hs
  rw [leakOf_calls] at hnotes
  have hdescribe : (LeakedSubclass.rule leaked).describe q.node (a.sceneFor u (LeakedSubclass.rule leaked)) s =
      (.ok none, (scanBelow q.node (LeakedSubclass.handlers leaked q.node)
        (a.sceneFor u (LeakedSubclass.rule leaked)) s).2) := by
    rw [LeakedSubclass.describe_eq]
    show (scanBelow q.node _ _ >>= fun _ => pure none) s = _
    rw [Attempt.bind_apply, show scanBelow q.node (LeakedSubclass.handlers leaked q.node) _ s = (.ok (), _) from
      Prod.ext hres rfl]
    rfl
  rw [hdescribe]
  exact ⟨none, rfl, hend, (List.append_nil _).trans hnotes⟩

theorem remainder_describes (random : RandomRemainder.Names) (walk : Walk) (n : Node) (scene : Scene) :
    Describes (a.GoingAt u p walk) ((RandomRemainder.rule random).describe n scene)
      (RandomRemainder.found random scene walk n).toList := by
  intro s hs
  obtain ⟨log, heq⟩ := RandomRemainder.describe_apply random n scene s
  rw [heq, hs.traversal]
  exact ⟨_, rfl, ⟨.of hs.truthful hs.stoppable hs.live, hs.traversal⟩, rfl⟩

/-! ## The whole unit -/

/-- An analyzer with no other rules than those that come with the program. -/
def IsBuiltin (a : Analyzer) (leaked : LeakedSubclass.Names) (random : RandomRemainder.Names) : Prop :=
  ∀ kind, ∀ r ∈ a.rules.forKind kind, r = LeakedSubclass.rule leaked ∨ r = RandomRemainder.rule random

/-- What a rule finds from a spot, with the spots at which it finds it. -/
def placedBy (a : Analyzer) (u : CompilationUnit) (leaked : LeakedSubclass.Names) (random : RandomRemainder.Names)
    (q : Spot) (r : Rule) : List Placed :=
  if r.id = (LeakedSubclass.rule leaked).id then a.leaksAt u leaked q
  else if a.answerTo ((RandomRemainder.rule random).pattern.isMatch q.node) then
    (RandomRemainder.found random (a.sceneFor u (RandomRemainder.rule random)) (a.placeAt q) q.node).toList.map (⟨q, ·⟩)
  else []

/-- The findings in a unit, with the spots at which they are made. -/
def placed (a : Analyzer) (u : CompilationUnit) (leaked : LeakedSubclass.Names) (random : RandomRemainder.Names) :
    List Placed :=
  (a.visited u).flatMap fun q => (a.called (a.placeAt q) q.node).flatMap (a.placedBy u leaked random q)

theorem placedBy_leaked (a : Analyzer) (u : CompilationUnit) (leaked : LeakedSubclass.Names)
    (random : RandomRemainder.Names) (q : Spot) :
    a.placedBy u leaked random q (LeakedSubclass.rule leaked) = a.leaksAt u leaked q :=
  if_pos rfl

theorem placedBy_random (a : Analyzer) (u : CompilationUnit) (leaked : LeakedSubclass.Names)
    (random : RandomRemainder.Names) (q : Spot) :
    a.placedBy u leaked random q (RandomRemainder.rule random) =
      if a.answerTo ((RandomRemainder.rule random).pattern.isMatch q.node) then
        (RandomRemainder.found random (a.sceneFor u (RandomRemainder.rule random)) (a.placeAt q) q.node).toList.map
          (⟨q, ·⟩)
      else [] := by
  have hne : (RandomRemainder.rule random).id ≠ (LeakedSubclass.rule leaked).id := by
    show "RandomModInteger" ≠ "GeneratedSubclassLeaked"
    decide
  rw [placedBy, if_neg hne]

/-- Each finding goes under the id of its rule, and no fix is malformed. -/
theorem finding_placedBy (hr : r = LeakedSubclass.rule leaked ∨ r = RandomRemainder.rule random) :
    ∀ m ∈ a.placedBy u leaked random q r, m.finding.rule = r.id ∧ withSoundFix m.finding = m.finding := by
  intro m hm
  rcases hr with rfl | rfl
  · rw [placedBy_leaked] at hm
    obtain ⟨spot, -, rfl⟩ := List.mem_map.1 hm
    exact ⟨rfl, rfl⟩
  · rw [placedBy_random] at hm
    split at hm
    · obtain ⟨d, hd, rfl⟩ := List.mem_map.1 hm
      obtain ⟨hrule, hfix⟩ := RandomRemainder.found_sound (Option.mem_toList.1 hd)
      exact ⟨hrule, if_pos hfix⟩
    · cases hm

theorem trial_builtin (hc : u.IsCoherent a.provenance) (hp : ∀ q ∈ a.predicates, Suppression.Lawful u q)
    (hpc : p.cancelled = false) (hq : q ∈ a.visited u)
    (hr : r = LeakedSubclass.rule leaked ∨ r = RandomRemainder.rule random) :
    (a.trial u r (a.placeAt q) q.node (a.fresh p)).1 = .ok ((a.placedBy u leaked random q r).map Placed.finding) ∧
      (a.trial u r (a.placeAt q) q.node (a.fresh p)).2.cancelled = false := by
  have hn := (within_of_visited hq).1
  rcases hr with rfl | rfl
  · rw [placedBy_leaked]
    exact trial_of_describes hc hpc rfl hn (leak_describes hc hp hq)
  · obtain ⟨hres, hlive⟩ :=
      trial_of_describes hc hpc rfl hn (remainder_describes random (a.placeAt q) q.node (a.sceneFor u _))
    refine ⟨hres.trans (congrArg Except.ok ?_), hlive⟩
    rw [placedBy_random]
    split
    · rw [List.map_map]
      exact (List.map_id _).symm
    · rfl

theorem outcome_builtin (hc : u.IsCoherent a.provenance) (hp : ∀ q ∈ a.predicates, Suppression.Lawful u q)
    (hpc : p.cancelled = false) (hq : q ∈ a.visited u)
    (hr : r = LeakedSubclass.rule leaked ∨ r = RandomRemainder.rule random) :
    a.outcome u p r (a.placeAt q) q.node = (a.placedBy u leaked random q r).map Placed.finding := by
  obtain ⟨hres, -⟩ := trial_builtin hc hp hpc hq hr
  rw [outcome_eq (fun hcontra => (nomatch hres.symm.trans hcontra)), hres, kept, List.map_map]
  exact List.map_congr_left fun m hm => (finding_placedBy hr m hm).2

theorem IsBuiltin.lawful (hb : a.IsBuiltin leaked random) (hp : ∀ q ∈ a.predicates, Suppression.Lawful u q) :
    a.Lawful u where
  predicates := hp
  rules kind r hr := by
    rcases hb kind r hr with rfl | rfl
    · exact LeakedSubclass.rule_lawful leaked
    · exact RandomRemainder.rule_lawful random

theorem IsBuiltin.found (hc : u.IsCoherent a.provenance) (hp : ∀ q ∈ a.predicates, Suppression.Lawful u q)
    (hb : a.IsBuiltin leaked random) (hpc : p.cancelled = false) :
    a.Calm u p ∧ a.found u p = (a.placed u leaked random).map Placed.finding := by
  have hcalled {q : Spot} {r : Rule} (hr : r ∈ a.called (a.placeAt q) q.node) := hb _ r (List.mem_of_mem_filter hr)
  refine ⟨fun i hi => ?_, ?_⟩
  · obtain ⟨q, hq, r, hr, rfl⟩ := mem_invocations.1 hi
    obtain ⟨hres, hlive⟩ := trial_builtin hc hp hpc hq (hcalled hr)
    exact ⟨fun hcontra => (nomatch hres.symm.trans hcontra), hlive⟩
  · rw [found_eq, placed, List.map_flatMap]
    refine List.flatMap_congr fun q hq => ?_
    rw [foundAt, List.map_flatMap]
    exact List.flatMap_congr fun r hr => outcome_builtin hc hp hpc hq (hcalled hr)

/-- The report of an analysis with the rules that come with the program. -/
theorem analyze_builtin (hc : u.IsCoherent a.provenance) (hp : ∀ q ∈ a.predicates, Suppression.Lawful u q)
    (hb : a.IsBuiltin leaked random) (hpc : p.cancelled = false) :
    (a.analyze u p).1 = .ok {
      path := u.path
      diagnostics := Diagnostic.sorted ((a.placed u leaked random).map Placed.finding) } := by
  obtain ⟨hcalm, hfound⟩ := hb.found hc hp hpc
  rw [analyze_calm hc (hb.lawful hp) hpc hcalm, hfound]

end TreeLint.Analyzer
