/-
Rules that keep to themselves. The findings of each rule stand in the report as if it were the only rule, so
neither the order of registration nor the other rules make a difference. Main statement:
`analyze_rules_apart`.
-/
import TreeLint.Proofs.Analysis.Builtin

namespace TreeLint

/-! ## Selections -/

/-- Where all that a member comes to is selected or none of it, one may as well select the members. -/
theorem filter_flatMap_of_mem {ι α : Type} {f : ι → List α} {p : α → Bool} {q : ι → Bool} {xs : List ι}
    (h : ∀ x ∈ xs, ∀ y ∈ f x, p y = q x) : (xs.flatMap f).filter p = (xs.filter q).flatMap f := by
  induction xs with
  | nil => rfl
  | cons x xs ih =>
    have hx := h x List.mem_cons_self
    rw [List.flatMap_cons, List.filter_append, ih fun z hz => h z (List.mem_cons_of_mem x hz)]
    cases hq : q x
    · rw [List.filter_cons_of_neg (by simp [hq]), List.filter_eq_nil_iff.2 fun y hy => by simp [hx y hy, hq]]
      rfl
    · rw [List.filter_cons_of_pos hq, List.filter_eq_self.2 fun y hy => (hx y hy).trans hq]
      rfl

/-- A selection by name has all members with a name or none of them. -/
theorem filter_name_eq {α : Type} (name : α → String) (keep : String → Bool) (x : String) (xs : List α) :
    (xs.filter fun a => keep (name a)).filter (name · = x) = if keep x then xs.filter (name · = x) else [] := by
  rw [List.filter_filter]
  split
  · rename_i hkeep
    refine List.filter_congr fun a _ => ?_
    by_cases ha : name a = x
    · simp [ha, hkeep]
    · simp [ha]
  · rename_i hkeep
    refine List.filter_eq_nil_iff.2 fun a _ ha => ?_
    obtain ⟨hname, ha⟩ := (Bool.and_eq_true _ _).mp ha
    exact hkeep (of_decide_eq_true hname ▸ ha)

theorem length_filter_id {rules : List Rule} (hids : (rules.map (·.id)).Nodup) (id : String) :
    (rules.filter (·.id = id)).length ≤ 1 := by
  have hnodup : ((rules.filter (·.id = id)).map (·.id)).Nodup := hids.sublist (List.filter_sublist.map _)
  have hsame : (rules.filter (·.id = id)).map (·.id) = List.replicate (rules.filter (·.id = id)).length id := by
    refine List.eq_replicate_iff.2 ⟨List.length_map _, fun x hx => ?_⟩
    obtain ⟨r, hr, rfl⟩ := List.mem_map.1 hx
    exact of_decide_eq_true (List.mem_filter.1 hr).2
  rw [hsame] at hnodup
  exact List.nodup_replicate.1 hnodup

theorem filter_id_of_mem {rules : List Rule} (hids : (rules.map (·.id)).Nodup) {r : Rule} (hr : r ∈ rules) :
    rules.filter (·.id = r.id) = [r] := by
  obtain ⟨s, hs⟩ := List.length_eq_one_iff.1 (Nat.le_antisymm (length_filter_id hids r.id)
    (List.length_pos_of_mem (List.mem_filter.2 ⟨hr, decide_eq_true rfl⟩)))
  have hmem : r ∈ rules.filter (·.id = r.id) := List.mem_filter.2 ⟨hr, decide_eq_true rfl⟩
  rw [hs] at hmem ⊢
  rw [List.mem_singleton.1 hmem]

/-- Among rules with ids of their own, the order does not matter to the choice of one by its id. -/
theorem filter_id_eq_of_perm {rules rules' : List Rule} (hids : (rules.map (·.id)).Nodup) (hperm : rules'.Perm rules)
    (id : String) : rules'.filter (·.id = id) = rules.filter (·.id = id) := by
  have hshort := length_filter_id hids id
  have hfilter := hperm.filter (·.id = id)
  rcases hrules : rules.filter (·.id = id) with _ | ⟨r, _ | ⟨r', rest⟩⟩ <;>
    rw [hrules] at hshort hfilter ⊢
  · exact hfilter.eq_nil
  · exact List.perm_singleton.1 hfilter
  · simp at hshort

namespace Analyzer

variable {a : Analyzer} {u : CompilationUnit} {p : Progress} {rules : List Rule}

/-! ## Rules that keep to themselves -/

/-- A rule that, tried at a place, completes with findings of its own, and does not call the analysis off. -/
structure TidyAt (a : Analyzer) (u : CompilationUnit) (p : Progress) (i : Invocation) : Prop where
  completes : ∃ found, (a.trial u i.rule i.walk i.node (a.fresh p)).1 = .ok found ∧ ∀ d ∈ found, d.rule = i.rule.id
  live : (a.trial u i.rule i.walk i.node (a.fresh p)).2.cancelled = false

/-- The rules of the analyzer keep to themselves wherever they are tried. -/
def Tidy (a : Analyzer) (u : CompilationUnit) (p : Progress) : Prop :=
  ∀ i ∈ a.invocations u, a.TidyAt u p i

theorem TidyAt.calm {i : Invocation} (h : a.TidyAt u p i) : a.CalmAt u p i := by
  obtain ⟨found, hres, -⟩ := h.completes
  exact ⟨fun hcontra => (nomatch hres.symm.trans hcontra), h.live⟩

theorem TidyAt.rule {i : Invocation} (h : a.TidyAt u p i) :
    ∀ d ∈ a.outcome u p i.rule i.walk i.node, d.rule = i.rule.id := by
  intro d hd
  obtain ⟨found, hres, hrule⟩ := h.completes
  rw [outcome_eq h.calm.passes, hres, kept] at hd
  obtain ⟨e, he, rfl⟩ := List.mem_map.1 hd
  rw [withSoundFix_rule, hrule e he]

/-- The rules that come with the program keep to themselves. -/
theorem tidyAt_builtin {leaked : LeakedSubclass.Names} {random : RandomRemainder.Names} (hc : u.IsCoherent a.provenance)
    (hp : ∀ q ∈ a.predicates, Suppression.Lawful u q) (hpc : p.cancelled = false) {q : Spot} (hq : q ∈ a.visited u)
    {r : Rule} (hr : r = LeakedSubclass.rule leaked ∨ r = RandomRemainder.rule random) :
    a.TidyAt u p ⟨r, a.placeAt q, q.node⟩ := by
  obtain ⟨hres, hlive⟩ := trial_builtin hc hp hpc hq hr
  refine ⟨⟨_, hres, fun d hd => ?_⟩, hlive⟩
  obtain ⟨m, hm, rfl⟩ := List.mem_map.1 hd
  exact (finding_placedBy hr m hm).1

/-! ## The findings of one rule -/

/-- Where the rule with an id is tried. -/
theorem invocations_of_id (hrules : a.rules = RuleSet.ofRules rules) (u : CompilationUnit) (id : String) :
    (a.invocations u).filter (·.rule.id = id) =
      (a.visited u).flatMap fun q =>
        (((rules.filter (·.id = id)).filter (q.node.kind ∈ ·.kinds)).filter fun r =>
          !(a.placeAt q).isSuppressed r.id).map fun r => ⟨r, a.placeAt q, q.node⟩ := by
  unfold invocations
  rw [List.filter_flatMap]
  refine List.flatMap_congr fun q _ => ?_
  rw [List.filter_map, called, hrules, RuleSet.forKind_ofRules]
  simp only [List.filter_filter]
  refine congrArg _ (List.filter_congr fun r _ => ?_)
  exact (Bool.and_comm ..).trans (Bool.and_assoc ..)

theorem found_of_id (h : a.Tidy u p) (id : String) :
    (a.found u p).filter (·.rule = id) =
      ((a.invocations u).filter (·.rule.id = id)).flatMap fun i => a.outcome u p i.rule i.walk i.node := by
  refine filter_flatMap_of_mem fun i hi d hd => ?_
  rw [(h i hi).rule d hd]

/-! ## Some of the rules -/

/-- The analyzer with other rules. -/
def withRules (a : Analyzer) (rules : List Rule) : Analyzer := { a with rules := RuleSet.ofRules rules }

theorem mem_forKind_withRules (hrules : a.rules = RuleSet.ofRules rules) {selected : List Rule}
    (hsub : ∀ r ∈ selected, r ∈ rules) {kind : NodeKind} {r : Rule} (hr : r ∈ (a.withRules selected).rules.forKind kind) :
    r ∈ a.rules.forKind kind := by
  have hkind : r ∈ selected.filter (kind ∈ ·.kinds) := by
    rw [← RuleSet.forKind_ofRules]
    exact hr
  rw [hrules, RuleSet.forKind_ofRules]
  obtain ⟨hmem, hlooks⟩ := List.mem_filter.1 hkind
  exact List.mem_filter.2 ⟨hsub r hmem, hlooks⟩

theorem Tidy.withRules (h : a.Tidy u p) (hrules : a.rules = RuleSet.ofRules rules) {selected : List Rule}
    (hsub : ∀ r ∈ selected, r ∈ rules) : (a.withRules selected).Tidy u p := by
  intro i hi
  have hi' : i ∈ a.invocations u := by
    obtain ⟨q, hq, r, hr, rfl⟩ := mem_invocations.1 hi
    obtain ⟨hkind, hopen⟩ := List.mem_filter.1 hr
    exact mem_invocations.2 ⟨q, hq, r, List.mem_filter.2 ⟨mem_forKind_withRules hrules hsub hkind, hopen⟩, rfl⟩
  -- a trial takes no notice of the rules that are registered
  exact ⟨(h i hi').completes, (h i hi').live⟩

/-- The findings of some of the rules, in whatever order these are registered. -/
theorem sorted_found_withRules (hrules : a.rules = RuleSet.ofRules rules) (hids : (rules.map (·.id)).Nodup)
    (h : a.Tidy u p) {keep : String → Bool} {selected : List Rule}
    (hperm : selected.Perm (rules.filter fun r => keep r.id)) :
    Diagnostic.sorted ((a.withRules selected).found u p) =
      (Diagnostic.sorted (a.found u p)).filter fun d => keep d.rule := by
  have hsub : ∀ r ∈ selected, r ∈ rules := fun r hr => List.mem_of_mem_filter (hperm.mem_iff.1 hr)
  have htidy := h.withRules hrules hsub
  have hselected (id : String) : selected.filter (·.id = id) = if keep id then rules.filter (·.id = id) else [] := by
    rw [filter_id_eq_of_perm (hids.sublist (List.filter_sublist.map _)) hperm id]
    exact filter_name_eq (·.id) keep id rules
  rw [Diagnostic.filter_sorted]
  refine Diagnostic.eq_of_rules fun id => ?_
  rw [Diagnostic.filter_sorted, Diagnostic.filter_sorted, filter_name_eq Diagnostic.rule]
  refine congrArg Diagnostic.sorted ?_
  rw [found_of_id htidy, found_of_id h, invocations_of_id rfl, invocations_of_id hrules, hselected]
  cases keep id
  · rw [if_neg Bool.false_ne_true, if_neg Bool.false_ne_true]
    simp
  · rfl

/-- The report of an analysis with some of the rules has what is found by these. -/
theorem analyze_withRules (hrules : Registry.ofRules rules = .ok a.rules) (hc : u.IsCoherent a.provenance)
    (ha : a.Lawful u) (h : a.Tidy u { p with cancelled := false }) (keep : String → Bool) {selected : List Rule}
    (hperm : selected.Perm (rules.filter fun r => keep r.id)) {report : UnitReport}
    (hreport : (a.analyze u p).1 = .ok report) :
    ∃ set, Registry.ofRules selected = .ok set ∧
      ({ a with rules := set }.analyze u p).1 =
        .ok { report with diagnostics := report.diagnostics.filter fun d => keep d.rule } := by
  obtain ⟨hall, hset⟩ := Registry.ofRules_eq_ok_iff.1 hrules
  have hsub : ∀ r ∈ selected, r ∈ rules := fun r hr => List.mem_of_mem_filter (hperm.mem_iff.1 hr)
  have hlawful : (a.withRules selected).Lawful u :=
    ⟨ha.predicates, fun kind r hr => ha.rules kind r (mem_forKind_withRules hset hsub hr)⟩
  refine ⟨_, Registry.ofRules_eq_ok_iff.2 ⟨(hall.sublist List.filter_sublist).perm hperm, rfl⟩, ?_⟩
  show ((a.withRules selected).analyze u p).1 = _
  cases hpc : p.cancelled
  · rw [show { p with cancelled := false } = p by rw [← hpc]] at h
    rw [analyze_calm hc ha hpc fun i hi => (h i hi).calm] at hreport
    cases hreport
    rw [analyze_calm (a := a.withRules selected) hc hlawful hpc fun i hi => (h.withRules hset hsub i hi).calm,
      sorted_found_withRules hset hall.ids h hperm]
  · rw [analyze_stopped hc ha hpc] at hreport
    cases hreport
    exact analyze_stopped (a := a.withRules selected) hc hlawful hpc

/-- Rules that keep to themselves do not notice each other. The findings of a rule are the report of an
analysis with this rule alone. The report does not depend on the order of registration, and disabling rules
takes their findings away and no others. -/
theorem analyze_rules_apart (hrules : Registry.ofRules rules = .ok a.rules) (hc : u.IsCoherent a.provenance)
    (ha : a.Lawful u) (p : Progress) (h : a.Tidy u { p with cancelled := false }) :
    ∃ report, (a.analyze u p).1 = .ok report ∧
      (∀ r ∈ rules, ∃ alone, Registry.ofRules [r] = .ok alone ∧
        ({ a with rules := alone }.analyze u p).1 = .ok { report with diagnostics := report.byRule r.id }) ∧
      (∀ reordered : List Rule, reordered.Perm rules → ∃ set, Registry.ofRules reordered = .ok set ∧
        ({ a with rules := set }.analyze u p).1 = .ok report) ∧
      ∀ disabled : NameSet, ∃ set, Registry.ofRules (rules.filter fun r => !disabled.contains r.id) = .ok set ∧
        ({ a with rules := set }.analyze u p).1 =
          .ok { report with diagnostics := report.diagnostics.filter fun d => !disabled.contains d.rule } := by
  obtain ⟨report, hreport⟩ : ∃ report, (a.analyze u p).1 = .ok report := by
    rcases analyze_report hc ha p with hreport | ⟨report, hreport, -⟩
    · exact ⟨_, hreport⟩
    · exact ⟨report, hreport⟩
  have hids := (Registry.ofRules_eq_ok_iff.1 hrules).1.ids
  refine ⟨report, hreport, fun r hr => ?_, fun reordered hperm => ?_, fun disabled => ?_⟩
  · refine analyze_withRules hrules hc ha h (fun id => decide (id = r.id)) ?_ hreport
    rw [filter_id_of_mem hids hr]
  · rw [← List.filter_true rules] at hperm
    obtain ⟨set, hset, heq⟩ := analyze_withRules hrules hc ha h (fun _ => true) hperm hreport
    refine ⟨set, hset, heq.trans ?_⟩
    rw [List.filter_true]
  · exact analyze_withRules hrules hc ha h (fun id => !disabled.contains id) (.refl _) hreport

end Analyzer

/-! ## Two rules at one node -/

/-- A unit that refers to a generated class twice, once where reads are not reported. -/
def CompilationUnit.references : CompilationUnit where
  path := "references.py"
  source := "Made_A\nMade_A"
  tree := {
    id := 0
    kind := .compilationUnit
    children := [
      { id := 1, kind := .identifier, symbol := some { name := "Made_A", kind := .classDecl },
        span := some ⟨0, 6, by decide⟩ },
      { id := 2, kind := .method, annotations := [⟨"SuppressWarnings", ["Reads"]⟩], children := [
        { id := 3, kind := .identifier, symbol := some { name := "Made_A", kind := .classDecl },
          span := some ⟨7, 13, by decide⟩ }] }] }

/-- The rule that reports every identifier. -/
def Rule.reads : Rule :=
  Script.rule { id := "Reads", severity := .warning, summary := "is read", kinds := [.identifier] }
    [.report .node none .none]

def Analyzer.readsAndLeaks : Analyzer where
  rules := .ofRules [Rule.reads, LeakedSubclass.rule ⟨"Made", "Made_"⟩]
  predicates := Suppression.usual "SuppressWarnings"

theorem CompilationUnit.references_isCoherent : references.IsCoherent declaredProvenance :=
  isCoherent_of_plain fun _ => HasNode.all rfl (by decide)

namespace Analyzer

theorem readsAndLeaks_rules {kind : NodeKind} {r : Rule} (hr : r ∈ readsAndLeaks.rules.forKind kind) :
    r = Rule.reads ∨ r = LeakedSubclass.rule ⟨"Made", "Made_"⟩ := by
  rcases List.mem_cons.1 (RuleSet.mem_of_mem_forKind hr) with rfl | hr
  · exact .inl rfl
  · exact .inr (List.mem_singleton.1 hr)

theorem readsAndLeaks_lawful : readsAndLeaks.Lawful .references where
  predicates := Suppression.usual_lawful "SuppressWarnings"
  rules kind r hr := by
    rcases readsAndLeaks_rules hr with rfl | rfl
    · exact Script.rule_lawful _ _
    · exact LeakedSubclass.rule_lawful _

theorem readsAndLeaks_tidy : readsAndLeaks.Tidy .references {} := by
  intro i hi
  obtain ⟨q, hq, r, hr, rfl⟩ := mem_invocations.1 hi
  have hc := CompilationUnit.references_isCoherent
  have hlive : ({} : Progress).cancelled = false := rfl
  rcases readsAndLeaks_rules (List.mem_of_mem_filter hr) with rfl | rfl
  · have hdescribe (scene : Scene) (walk : Walk) : Describes (readsAndLeaks.GoingAt .references {} walk)
        (Rule.reads.describe q.node scene) [RuleM.finding scene walk q.node none] := by
      intro s hs
      rw [← hs.traversal]
      exact ⟨none, rfl, ⟨.of hs.truthful hs.stoppable hs.live, rfl⟩, List.append_nil _⟩
    obtain ⟨hres, hend⟩ := trial_of_describes hc hlive rfl (within_of_visited hq).1
      (hdescribe (readsAndLeaks.sceneFor .references Rule.reads) (readsAndLeaks.placeAt q))
    refine ⟨⟨_, hres, fun d hd => ?_⟩, hend⟩
    rcases List.mem_singleton.1 hd with rfl
    rfl
  · have hr : LeakedSubclass.rule ⟨"Made", "Made_"⟩ = LeakedSubclass.rule ⟨"Made", "Made_"⟩ ∨
        LeakedSubclass.rule ⟨"Made", "Made_"⟩ = RandomRemainder.rule ⟨"Random", "nextInt"⟩ := .inl rfl
    exact tidyAt_builtin hc readsAndLeaks_lawful.predicates hlive hq hr

theorem analyze_readsAndLeaks :
    ∃ report alone, (readsAndLeaks.analyze .references {}).1 = .ok report ∧
      Registry.ofRules [LeakedSubclass.rule ⟨"Made", "Made_"⟩] = .ok alone ∧
      ({ readsAndLeaks with rules := alone }.analyze .references {}).1 =
        .ok { report with diagnostics := report.byRule "GeneratedSubclassLeaked" } ∧
      (report.byRule "GeneratedSubclassLeaked").map (·.span.map (·.start)) = [some 0, some 7] ∧
      ((readsAndLeaks.withRules [LeakedSubclass.rule ⟨"Made", "Made_"⟩, Rule.reads]).analyze .references {}).1 =
        .ok report := by
  have hrules : Registry.ofRules [Rule.reads, LeakedSubclass.rule ⟨"Made", "Made_"⟩] = .ok readsAndLeaks.rules := rfl
  obtain ⟨report, hreport, halone, hreordered, -⟩ := analyze_rules_apart hrules
    CompilationUnit.references_isCoherent readsAndLeaks_lawful {} readsAndLeaks_tidy
  obtain ⟨alone, hset, heq⟩ := halone _ (List.mem_cons_of_mem _ List.mem_cons_self)
  obtain ⟨reordered, hset', heq'⟩ := hreordered [LeakedSubclass.rule ⟨"Made", "Made_"⟩, Rule.reads] (.swap ..)
  refine ⟨report, alone, hreport, hset, heq, ?_, ?_⟩
  · cases hset
    let leaks := readsAndLeaks.withRules [LeakedSubclass.rule ⟨"Made", "Made_"⟩]
    have hbuiltin : leaks.IsBuiltin ⟨"Made", "Made_"⟩ ⟨"Random", "nextInt"⟩ := fun kind r hr =>
      .inl (List.mem_singleton.1 (RuleSet.mem_of_mem_forKind hr))
    have hleaks := analyze_builtin (a := leaks) (p := {}) CompilationUnit.references_isCoherent readsAndLeaks_lawful.predicates
      hbuiltin rfl
    have hsorted := congrArg UnitReport.diagnostics (Except.ok.inj (heq.symm.trans hleaks))
    rw [show report.byRule "GeneratedSubclassLeaked" = _ from hsorted, Diagnostic.sorted,
      List.mergeSort_of_pairwise (by decide)]
    decide
  · cases hset'
    exact heq'

end Analyzer

end TreeLint
