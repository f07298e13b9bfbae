/-
The places of the findings in a report, where the rules make their findings of matches. A finding, that of a rule
that failed too, has no span or one that lies in the source, and its location tells where the span starts; the
findings are printed in the order of these places, those without a span first. Nothing is asked of the unit: spans
may be missing or stray out of the source. Main statement: `analyze_places`.
-/
import TreeLint.Proofs.Analysis.Log
import TreeLint.Proofs.Report.Location
import TreeLint.Proofs.Report.Order
import TreeLint.Proofs.Rule.Matches

namespace TreeLint

open Session (Noted)

namespace Analyzer

variable {a : Analyzer} {u : CompilationUnit} {r : Rule} {walk : Walk} {n : Node}

/-! ## One rule at one node -/

theorem failure_placed (f : Fault) : Placed u (failure u r walk n f) :=
  ⟨Source.stop_le_of_enclosingSpan, rfl⟩

theorem withSoundFix_placed {d : Diagnostic} (h : Placed u d) : Placed u (withSoundFix d) := by
  unfold withSoundFix
  split
  · exact h
  · exact ⟨h.within, h.location⟩

/-- Whatever a trial came to, what is kept of it has a place. -/
theorem kept_placed {result : Except Fault (List Diagnostic)}
    (h : ∀ found, result = .ok found → ∀ d ∈ found, Placed u d) :
    ∀ d ∈ kept u r walk n result, Placed u d := by
  intro d hd
  cases result with
  | ok found =>
    obtain ⟨d', hd', rfl⟩ := List.mem_map.1 hd
    exact withSoundFix_placed (h found rfl d' hd')
  | error f => exact List.mem_singleton.1 hd ▸ failure_placed f

theorem findings_findsMatches (hr : r.FindsMatches u) :
    RuleM.FindsMatches u (fun found => ∀ d ∈ found, IsMatchIn u d) (findings r n) := by
  intro scene hu
  rw [findings_eq]
  refine (Session.ask_noted _).bind fun tested _ => (Attempt.Preserves.lift tested).bind fun found _ => ?_
  split
  · exact .pure (List.forall_mem_nil _)
  · refine (hr n scene hu).bind fun last hlast => ?_
    refine (RuleM.FindsMatches.reported scene hu).bind fun reported hreported => .pure fun d hd => ?_
    rcases List.mem_append.1 hd with hd | hd
    · exact hreported d hd
    · exact hlast d (Option.mem_toList.1 hd)

theorem tryRule_noted (hr : r.FindsMatches u) :
    (a.tryRule u r walk n).Preserves (Noted fun ds => ∀ d ∈ ds, Placed u d) fun _ => True := by
  refine fun s hs => ⟨?_, fun _ _ => trivial⟩
  obtain ⟨-, hfound⟩ := findings_findsMatches hr (a.sceneFor u r) rfl (begun walk s) (List.forall_mem_nil _)
  by_cases hc : (a.trial u r walk n s).1 = .error .cancelled
  · -- a trial that is called off leaves the findings made so far
    rw [tryRule_apply, hc]
    exact hs
  · obtain ⟨log, hkept⟩ := tryRule_kept hc
    rw [hkept]
    intro d hd
    rcases List.mem_append.1 hd with hd | hd
    · exact hs d hd
    · exact kept_placed (fun found hres d hd => (hfound found hres d hd).placed) d hd

/-! ## The report -/

theorem analyze_placed (h : ∀ kind, ∀ r ∈ a.rules.forKind kind, r.FindsMatches u) (p : Progress) :
    ∃ report, (a.analyze u p).1 = .ok report ∧ (∀ d ∈ report.diagnostics, Placed u d) ∧
      report.diagnostics.Pairwise fun d e => d.precedes e = true := by
  have hcall (walk : Walk) (n : Node) : ((a.scanner u).callAll walk n).Preserves
      (Noted fun ds => ∀ d ∈ ds, Placed u d) fun _ => True := by
    rw [callAll_scanner]
    exact .forM fun r hr => tryRule_noted (h n.kind r (List.mem_of_mem_filter hr))
  obtain ⟨hnotes, -⟩ := (Scanner.tour_noted hcall).1 u.tree {} (a.fresh p) (List.forall_mem_nil _)
  obtain ⟨report, hreport⟩ := a.analyze_total u p
  refine ⟨report, hreport, ?_⟩
  rw [(analyze_eq a u p).1] at hreport
  rcases htour : (a.scanner u).tour {} u.tree (a.fresh p) with ⟨f | _, s⟩ <;> rw [htour] at hreport hnotes
  · cases f <;> cases hreport
    exact ⟨List.forall_mem_nil _, .nil⟩
  · obtain rfl := Except.ok.inj hreport
    exact ⟨fun d hd => hnotes d (List.mem_mergeSort.1 hd),
      List.pairwise_mergeSort Diagnostic.precedes_trans Diagnostic.precedes_total _⟩

/-- A finding that stands in front of another has no span if that one has none, and starts no further on. -/
theorem start_le_of_precedes {d e : Diagnostic} (h : d.precedes e = true) :
    (e.span = none → d.span = none) ∧ ∀ s ∈ d.span, ∀ t ∈ e.span, s.start ≤ t.start := by
  rw [Diagnostic.precedes_iff] at h
  have hstart : d.sortKey.1 ≤ e.sortKey.1 := by omega
  unfold Diagnostic.sortKey at hstart
  rcases hd : d.span with _ | s <;> rcases he : e.span with _ | t <;> rw [hd, he] at hstart <;> dsimp only at hstart
  · exact ⟨fun _ => rfl, nofun⟩
  · exact ⟨fun _ => rfl, nofun⟩
  · omega
  · refine ⟨nofun, ?_⟩
    rintro s' hs t' ht
    obtain rfl := Option.some.inj hs
    obtain rfl := Option.some.inj ht
    omega

/-- Where the rules make their findings of matches, at whatever nodes: the span of a finding lies in the source, its
location tells the line and the column of the start and nothing else, and these tell the start; the location tells
line 0 and column 0 just if there is no span; and the findings stand in the order of their places, those without a
span first and the others by their starts. -/
theorem analyze_places (h : ∀ kind, ∀ r ∈ a.rules.forKind kind, r.FindsMatches u) (p : Progress) :
    ∃ report, (a.analyze u p).1 = .ok report ∧
      (∀ d ∈ report.diagnostics, (∀ s ∈ d.span, s.stop ≤ u.source.length) ∧
        (∀ line col, d.location = s!"{u.path}:{line}:{col}" ↔ Source.place u d.span = (line, col)) ∧
        (∀ s ∈ d.span, Text.offsetOf u.source.toList (Source.place u d.span) = s.start) ∧
        (d.location = s!"{u.path}:0:0" ↔ d.span = none)) ∧
      report.diagnostics.Pairwise fun d e => toLex (Source.place u d.span) ≤ toLex (Source.place u e.span) ∧
        (e.span = none → d.span = none) ∧ ∀ s ∈ d.span, ∀ t ∈ e.span, s.start ≤ t.start := by
  obtain ⟨report, hreport, hplaced, hsorted⟩ := analyze_placed h p
  refine ⟨report, hreport, fun d hd => ?_, hsorted.imp fun hde => ?_⟩
  · obtain ⟨hwithin, hlocation⟩ := hplaced d hd
    rw [hlocation]
    refine ⟨hwithin, Source.location_eq_iff u d.span, fun s hs => ?_, ?_⟩
    · rw [show d.span = some s from hs]
      exact (Source.offsetOf_place (hwithin s hs)).2
    · exact Source.location_eq_none_iff hwithin
  · obtain ⟨hnone, hstart⟩ := start_le_of_precedes hde
    exact ⟨Source.place_le hnone hstart, hnone, hstart⟩

end Analyzer

/-! ## Spans that are missing or stray -/

/-- A unit whose nodes have no span of their own, one that reaches past the end of the source, or one within it. -/
def CompilationUnit.strayed : CompilationUnit where
  path := "strayed.py"
  source := "x\ny zz"
  tree := {
    id := 0
    kind := .compilationUnit
    children := [
      { id := 1, kind := .identifier, span := some ⟨4, 7, by decide⟩ },
      { id := 2, kind := .classDecl, span := some ⟨2, 6, by decide⟩, children := [
          { id := 3, kind := .identifier },
          { id := 4, kind := .literal, span := some ⟨4, 6, by decide⟩ }] }] }

/-- A rule that reports the identifiers below the root, and one that reports classes and literals and then fails. -/
def Analyzer.nestedAndFailing : Analyzer where
  rules := .ofRules [
    Script.rule { id := "Nested", severity := .warning, summary := "is nested", kinds := [.compilationUnit] }
      [.scan .node ["identifier"] [.report .node none .none]],
    Script.rule { id := "Failing", severity := .error, summary := "fails", kinds := [.classDecl, .literal] }
      [.report .node none .none, .fail (.raised "RuntimeError" "no answer")]]
  predicates := []

namespace Analyzer

theorem nestedAndFailing_findsMatches (u : CompilationUnit) (kind : NodeKind) :
    ∀ r ∈ nestedAndFailing.rules.forKind kind, r.FindsMatches u := by
  intro r hr
  rcases List.mem_cons.1 (RuleSet.mem_of_mem_forKind hr) with rfl | hr
  · exact Script.rule_findsMatches _ rfl
  · rcases List.mem_singleton.1 hr with rfl
    exact Script.rule_findsMatches _ rfl

/-- One finding has no place; two are told at the class, which is around a node without a span, and one at a literal. -/
theorem analyze_places_strayed : ∃ report, (nestedAndFailing.analyze .strayed {}).1 = .ok report ∧
    report.diagnostics.map (fun d => (d.rule, d.location)) =
      [("Nested", "strayed.py:0:0"), ("Nested", "strayed.py:2:0"), ("RuleFailure", "strayed.py:2:0"),
        ("RuleFailure", "strayed.py:2:2")] ∧
    report.diagnostics.map (·.span.map (·.start)) = [none, some 2, some 2, some 4] ∧
    report.diagnostics.Pairwise fun d e =>
      toLex (Source.place .strayed d.span) ≤ toLex (Source.place .strayed e.span) := by
  obtain ⟨report, hreport, -, hsorted⟩ := analyze_places (nestedAndFailing_findsMatches .strayed) {}
  -- the findings are made in the order in which they are reported
  have htour : ∃ s, (nestedAndFailing.scanner .strayed).tour {} CompilationUnit.strayed.tree
        (nestedAndFailing.fresh {}) = (.ok (), s) ∧
      s.notes.Pairwise (fun d e => d.precedes e = true) ∧
      s.notes.map (fun d => (d.rule, d.location)) =
        [("Nested", "strayed.py:0:0"), ("Nested", "strayed.py:2:0"), ("RuleFailure", "strayed.py:2:0"),
          ("RuleFailure", "strayed.py:2:2")] ∧
      s.notes.map (·.span.map (·.start)) = [none, some 2, some 2, some 4] :=
    ⟨_, Prod.ext (by decide +kernel) rfl, by decide +kernel, by decide +kernel, by decide +kernel⟩
  obtain ⟨s, hend, hinOrder, hlocations, hstarts⟩ := htour
  have hfound := congrArg Prod.fst (analyze_ok hend)
  rw [List.mergeSort_of_pairwise hinOrder] at hfound
  obtain rfl := Except.ok.inj (hreport.symm.trans hfound)
  exact ⟨_, hfound, hlocations, hstarts, hsorted.imp And.left⟩

end Analyzer

end TreeLint
