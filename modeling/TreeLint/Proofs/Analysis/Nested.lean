/-
A scan that a rule starts and the walk that called the rule agree on what is suppressed where. Main
statement: `scanBelow_agrees`.
-/
import TreeLint.Proofs.Analysis.Calm
import TreeLint.Proofs.Rule.Nested
import TreeLint.Proofs.Walk.Quiet

namespace TreeLint

open RuleM

variable {a : Analyzer} {u : CompilationUnit} {fit : Resolver → Prop} {handlers : Handlers} {before after : List Spot}
  {p : Spot}

namespace Analyzer

/-- The place below a spot that a scan started there comes to. -/
def placeBelow (a : Analyzer) (p q : Spot) : Walk :=
  ({ suppressed := (a.placeAt p).suppressed } : Walk).along a.answer (p.chainBelow q)

/-- The spots of the subtree at a visited spot are visited without a gap. -/
theorem visited_below (h : a.visited u = before ++ p :: after) :
    p.node.spots (fun n => (a.answer n).everything) p.around = p :: Node.deeper p after :=
  (Node.spots_below _).1 u.tree [] before after p h

/-- The same rules are suppressed below in the scan and in the walk around it. -/
theorem suppressed_placeBelow {q : Spot} (h : p.chain <+: q.chain) :
    (a.placeBelow p q).suppressed = (a.placeAt q).suppressed :=
  Walk.suppressed_below a.answer {} p q h

theorem chain_prefix_of_deeper (h : a.visited u = before ++ p :: after) :
    ∀ q ∈ p :: Node.deeper p after, p.chain <+: q.chain := by
  rw [← visited_below h]
  exact (Node.prefix_chain _).1 p.node p.around

/-- A scan started at a spot calls its handlers at the spots below where the walk would call the rule. -/
theorem calls_below (a : Analyzer) (u : CompilationUnit) (p : Spot) (r : Rule) (handlers : Handlers) :
    let scene := a.sceneFor u r
    (stepsBelow scene handlers a.answer (a.placeAt p) p.node).filterMap Step.call? =
      ((p.node.spots (fun n => (a.answer n).everything) p.around).filter
          fun q => !(a.placeAt q).isSuppressed r.id).flatMap fun q =>
        (handlers q.node.kind).map fun handle => ⟨handler scene handle, a.placeBelow p q, q.node⟩ := by
  intro scene
  rw [calls_stepsBelow, Node.spots_eq_map _ p.around]
  have hplace (q : Spot) : (start (a.placeAt p)).along a.answer q.chain = a.placeBelow p (q.inside p.around) := by
    rw [placeBelow, Spot.chainBelow_inside]
    rfl
  have hopen : ∀ q ∈ p.node.spots (fun n => (a.answer n).everything) [],
      (!((start (a.placeAt p)).along a.answer q.chain).isSuppressed scene.rule.id) =
        !(a.placeAt (q.inside p.around)).isSuppressed r.id := by
    intro q hq
    have hprefix : p.chain <+: (q.inside p.around).chain := by
      rw [Spot.chain_inside]
      exact List.prefix_append_right_inj p.around |>.2 ((Node.prefix_chain _).1 p.node [] q hq)
    rw [hplace, Walk.isSuppressed, Walk.isSuppressed, suppressed_placeBelow hprefix]
    rfl
  rw [List.filter_map, List.flatMap_map, List.filter_congr hopen]
  simp only [hplace]
  rfl

/-- A scan that a rule starts at a visited spot agrees with the walk that called the rule. The spots below
that the walk comes to are this one and the deeper ones that follow it. The scan arrives there in the same
order, and calls each of its handlers at those where the walk would call the rule, with places in hand in which
the same rules are suppressed. If no handler fails, neither does the scan. Whatever the handlers do and however the
scan ends, the rule has the walk in hand that it had before. -/
theorem scanBelow_agrees (hp : ∀ q ∈ a.predicates, Suppression.Steady fit u.HasNode q)
    (hfresh : fit { provenance := a.provenance }) (hspot : a.visited u = before ++ p :: after) (r : Rule)
    (hhandlers : ∀ n, u.HasNode n → ∀ handle ∈ handlers n.kind, ∀ walk : Walk, walk.Within u.HasNode →
      ∀ s : Session Visit, fit s.resolver → fit (handler (a.sceneFor u r) handle walk n s).2.resolver)
    {s : Session Visit} (hs : fit s.resolver) (hlive : s.cancelled = false) (hwalk : s.notes.traversal = a.placeAt p) :
    let scene := a.sceneFor u r
    let scan := scanBelow p.node handlers
    let steps := stepsBelow scene handlers a.answer (a.placeAt p) p.node
    let below := p :: Node.deeper p after
    ((a.scanner u).steps a.answer {} u.tree).filterMap Step.call? =
      (a.visited u).map (fun q => ⟨a.dispatch u, a.placeAt q, q.node⟩) ∧
    p.node.spots (fun n => (a.answer n).everything) p.around = below ∧
    scan scene s = (openScanner scene handlers).perform steps s ∧
    steps.filterMap Step.call? =
      ((below.filter fun q => !(a.placeAt q).isSuppressed r.id).flatMap fun q =>
        (handlers q.node.kind).map fun handle => ⟨handler scene handle, a.placeBelow p q, q.node⟩) ∧
    (∀ q ∈ below, (a.placeBelow p q).suppressed = (a.placeAt q).suppressed) ∧
    ((∀ n, u.HasNode n → ∀ handle ∈ handlers n.kind, ∀ walk : Walk, walk.Within u.HasNode →
        ∀ s : Session Visit, fit s.resolver → (handler scene handle walk n s).1 = .ok () ∧
          (handler scene handle walk n s).2.cancelled = s.cancelled) →
      (scan scene s).1 = .ok ()) ∧
    ∀ t : Session Visit, (scan scene t).2.notes.traversal = t.notes.traversal := by
  intro scene scan steps below
  have hkeeps : (openScanner scene handlers).Keeps u.HasNode fit a.answer := by
    refine ⟨fun n hn m hm => hn.child hm, fun n hn r hr => ?_, fun n hn handle hmem walk hw s hs => ?_⟩
    · have hsteady := Suppression.Steady.of hp n hn
      exact ⟨hsteady.answer hr hfresh, hsteady.stays hr⟩
    · obtain ⟨inner, hinner, rfl⟩ := List.mem_map.1 hmem
      exact hhandlers n hn inner hinner walk hw s hs
  have hroot : u.HasNode p.node := (within_of_visited (by rw [hspot]; simp)).1
  have hperform : scan scene s = (openScanner scene handlers).perform steps s := by
    have hscan := scanBelow_eq_perform hkeeps hroot hs
    rw [hwalk] at hscan
    exact hscan
  have hcalls := calls_below a u p r handlers
  rw [visited_below hspot] at hcalls
  refine ⟨calls_scanner a u, visited_below hspot, hperform, hcalls, fun q hq => ?_, fun hcomplete => ?_,
    traversal_scanBelow p.node handlers scene⟩
  · exact suppressed_placeBelow (chain_prefix_of_deeper hspot q hq)
  · rw [hperform]
    refine Scanner.perform_completes hkeeps (fun n hn handle hmem walk hw s hs => ?_)
      (allows_stepsBelow hkeeps.below hroot) hs hlive
    obtain ⟨inner, hinner, rfl⟩ := List.mem_map.1 hmem
    exact hcomplete n hn inner hinner walk hw s hs

end Analyzer

/-! ## A class with suppressions inside -/

/-- A class, in which rules are suppressed, with a method in which another rule is suppressed, a generated
class and a plain method. -/
def Node.layered : Node where
  id := 1
  kind := .classDecl
  annotations := [⟨"SuppressWarnings", ["Other"]⟩]
  children := [
    { id := 2, kind := .method, annotations := [⟨"SuppressWarnings", ["Below"]⟩],
      children := [{ id := 3, kind := .identifier }] },
    { id := 4, kind := .identifier },
    { id := 5, kind := .classDecl, name := some "Generated", children := [{ id := 6, kind := .identifier }] },
    { id := 7, kind := .method, children := [{ id := 8, kind := .identifier }] }]

def CompilationUnit.layered : CompilationUnit where
  path := "layered.py"
  source := ""
  tree := { id := 0, kind := .compilationUnit, children := [Node.layered, { id := 9, kind := .identifier }] }

/-- Reports the identifiers below a class. -/
def Rule.below : Rule :=
  Script.rule { id := "Below", severity := .warning, summary := "below", kinds := [.classDecl] }
    [.scan .node ["identifier"] [.report .node none .none]]

def Analyzer.layered : Analyzer where
  rules := .ofRules [Rule.below]
  predicates := [Suppression.ofMarking "SuppressWarnings", Suppression.ofNodes none (some (some "Generated")) .all]

theorem Analyzer.scanBelow_layered :
    let scene := layered.sceneFor .layered Rule.below
    let outer := layered.placeAt ⟨[CompilationUnit.layered.tree], Node.layered⟩
    let handlers : Handlers := fun kind =>
      if kind = .identifier then [fun n => do RuleM.report (← RuleM.describeMatch n)] else []
    let scan := scanBelow Node.layered handlers scene (begun outer (layered.fresh {}))
    scan.1 = .ok () ∧ scan.2.notes.traversal = outer ∧
    ((stepsBelow scene handlers layered.answer outer Node.layered).filterMap Step.call?).map
      (fun c => (c.node.id, c.walk.suppressed.toList)) = [(4, ["Other"]), (8, ["Other"])] := by
  intro scene outer handlers scan
  have hp : ∀ q ∈ layered.predicates, Suppression.Steady (fun _ => True) CompilationUnit.layered.HasNode q := by
    intro q hq
    rcases List.mem_cons.1 hq with rfl | hq
    · exact Suppression.Steady.of_pure _
    · rcases List.mem_singleton.1 hq with rfl
      exact Suppression.Steady.of_pure _
  have hspot : layered.visited .layered = [⟨[], CompilationUnit.layered.tree⟩] ++
      ⟨[CompilationUnit.layered.tree], Node.layered⟩ :: (layered.visited .layered).drop 2 := rfl
  obtain ⟨-, -, -, hcalls, -, hcomplete, hback⟩ :=
    @scanBelow_agrees layered .layered (fun _ => True) handlers _ _ _ hp trivial hspot Rule.below
      (fun _ _ _ _ _ _ _ _ => trivial) (begun outer (layered.fresh {})) trivial rfl rfl
  refine ⟨hcomplete fun n _ handle hmem walk _ s _ => ?_, hback _, ?_⟩
  · simp only [handlers] at hmem
    split at hmem
    · rcases List.mem_singleton.1 hmem with rfl
      exact ⟨rfl, rfl⟩
    · cases hmem
  · rw [hcalls]
    decide

end TreeLint
