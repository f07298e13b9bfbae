/-
The rules that come with the program complete at every node of every tree, whatever is missing there and
whatever the resolver answers. Main statement: `analyze_enabledRules`.
-/
import TreeLint.Proofs.Analysis.Notes
import TreeLint.Proofs.Rule.Builtin
import TreeLint.Proofs.Rule.Visit
import TreeLint.Proofs.Walk.Below
import TreeLint.Rule.Builtin

namespace TreeLint

variable {P : Diagnostic → Prop} {a : Analyzer} {u : CompilationUnit} {walk : Walk} {n : Node} {scene : Scene}
  {leaked : LeakedSubclass.Names} {random : RandomRemainder.Names}

open Session (Holds)

open Analyzer (Reports)

/-! ## What the rules do -/

/-- What completes with another walk in hand completes in the midst of the former one. -/
theorem RuleM.visiting_completes {α : Type} {post : α → Prop} {outer : Walk} {x : Attempt (Session Visit) α}
    (hx : x.Completes (Holds (Reports P walk)) post) :
    (visiting walk x).Completes (Holds (Reports P outer)) post := by
  rw [visiting_eq]
  intro s hs
  obtain ⟨b, hres, hpost, hend⟩ := hx { s with notes := { s.notes with traversal := walk } }
    ⟨hs.live, hs.notes.found, rfl⟩
  exact ⟨b, hres, hpost, hend.live, hend.notes.found, hs.notes.traversal⟩

namespace RandomRemainder

theorem found_eq {d : Diagnostic} (h : found random scene walk n = some d) :
    ∃ fix, d = RuleM.finding scene walk n fix := by
  unfold found at h
  obtain ⟨invocation, -, h⟩ := Option.bind_eq_some_iff.1 h
  obtain ⟨modulus, -, h⟩ := Option.bind_eq_some_iff.1 h
  exact ⟨_, (Option.some.inj h).symm⟩

theorem describe_completes (h : ∀ d ∈ found random scene walk n, P d) :
    ((rule random).describe n scene).Completes (Holds (Reports P walk)) fun last => ∀ d ∈ last, P d := by
  intro s hs
  obtain ⟨log, hdescribe⟩ := describe_apply random n scene s
  rw [hdescribe, hs.notes.traversal]
  exact ⟨_, rfl, h, hs.live, hs.notes⟩

end RandomRemainder

namespace LeakedSubclass

theorem reportLeaked_completes (owned : List TypeRef) (h : P (RuleM.finding scene walk n none)) :
    (reportLeaked leaked owned n scene).Completes (Holds (Reports P walk)) fun _ => True := by
  intro s hs
  obtain ⟨log, hreport⟩ := reportLeaked_apply leaked owned n scene s
  rw [hreport, hs.notes.traversal]
  refine ⟨(), rfl, trivial, hs.live, fun d hd => ?_, hs.notes.traversal⟩
  rcases List.mem_append.1 hd with hd | hd
  · exact hs.notes.found d hd
  · split at hd
    · rcases List.mem_singleton.1 hd with rfl
      exact h
    · cases hd

/-- The scan for references comes to an end below any node. -/
theorem describe_completes (root : Node) (h : ∀ (walk : Walk) (n : Node), P (RuleM.finding scene walk n none)) :
    ((rule leaked).describe root scene).Completes (Holds (Reports P walk)) fun last => ∀ d ∈ last, P d := by
  have hcall (inner : Walk) (n : Node) : ((RuleM.scannerBelow scene (handlers leaked root)).callAll inner n).Completes
      (Holds (Reports P walk)) fun _ => True := by
    refine .forM fun handle hhandle => ?_
    obtain ⟨handle, hmem, rfl⟩ := List.mem_map.1 hhandle
    unfold RuleM.guarded
    split
    · exact .pure trivial
    · unfold handlers at hmem
      split at hmem
      · rcases List.mem_singleton.1 hmem with rfl
        exact RuleM.visiting_completes (reportLeaked_completes _ (h inner n))
      · cases hmem
  have hbelow (n : Node) (_ : True) (m : Node) (_ : m ∈ n.children) : True := trivial
  have hscan : (RuleM.scanBelow root (handlers leaked root) scene).Completes (Holds (Reports P walk))
      fun _ => True := by
    rw [RuleM.scanBelow_eq]
    have hlook : (RuleM.traversal scene).Completes (Holds (Reports P walk)) fun _ => True :=
      fun s hs => ⟨s.notes.traversal, rfl, trivial, hs⟩
    exact hlook.bind fun outer _ =>
      (Scanner.tour_completes hbelow fun inner n _ => hcall inner n).1 root _ trivial
  rw [describe_eq]
  exact hscan.bind fun _ _ => .pure fun _ hd => nomatch hd

end LeakedSubclass

namespace Analyzer

variable {r : Rule}

/-- A rule that comes with the program completes at each node, with findings of the sort that it makes. -/
theorem trial_completes_builtin (hr : r = LeakedSubclass.rule leaked ∨ r = RandomRemainder.rule random)
    (hleaked : r = LeakedSubclass.rule leaked →
      ∀ (walk : Walk) (m : Node), P (RuleM.finding (a.sceneFor u r) walk m none))
    (hrandom : r = RandomRemainder.rule random → ∀ resolver, (r.pattern.isMatch n resolver).1 = true →
      ∀ d ∈ RandomRemainder.found random (a.sceneFor u r) walk n, P d) :
    (a.trial u r walk n).Completes (Holds fun ds => ∀ d ∈ ds, P d) fun found => ∀ d ∈ found, P d := by
  rcases hr with rfl | rfl
  · exact trial_completes rfl fun _ _ => LeakedSubclass.describe_completes n fun walk m => hleaked rfl walk m
  · exact trial_completes rfl fun resolver hmatch => RandomRemainder.describe_completes (hrandom rfl resolver hmatch)

end Analyzer

/-! ## The enabled rules -/

namespace Settings

theorem eq_of_mem_enabledRules {s : Settings} {r : Rule} (h : r ∈ s.enabledRules) :
    r = LeakedSubclass.rule ⟨s.markerName, s.generatedStart⟩ ∨
      r = RandomRemainder.rule ⟨s.randomType, s.randomMethod⟩ := by
  have hall := List.mem_of_mem_filter h
  simpa [allRules] using hall

theorem allRules_admissible (s : Settings) : Registry.Admissible s.allRules where
  kinds r hr := by
    rcases List.mem_cons.1 hr with rfl | hr
    · exact nofun
    · rcases List.mem_singleton.1 hr with rfl
      exact nofun
  ids := by
    show ["GeneratedSubclassLeaked", "RandomModInteger"].Nodup
    decide

/-- The enabled rules can always be registered. -/
theorem ruleSet_eq (s : Settings) : s.ruleSet = .ok (.ofRules s.enabledRules) :=
  Registry.ofRules_eq_ok_iff.2 ⟨s.allRules_admissible.sublist List.filter_sublist, rfl⟩

/-- An analysis with the rules that come with the program has a report for every unit, in which no rule failed
and each finding goes under the id and the severity of an enabled rule. -/
theorem analyze_enabledRules (s : Settings) (name : String) (provenance : Provenance) (u : CompilationUnit)
    (p : Progress) : ∃ rules report, s.ruleSet = .ok rules ∧
    (Analyzer.analyze { rules, predicates := Suppression.usual name, provenance } u p).1 = .ok report ∧
    report.cancelled = p.cancelled ∧
    ∀ d ∈ report.diagnostics, d.rule ≠ Analyzer.failureRule ∧
      ∃ r ∈ s.enabledRules, d.rule = r.id ∧ d.severity = r.severity := by
  let a : Analyzer := { rules := .ofRules s.enabledRules, predicates := Suppression.usual name, provenance }
  let P (d : Diagnostic) : Prop := ∃ r ∈ s.enabledRules, d.rule = r.id ∧ d.severity = r.severity
  have hfix (d : Diagnostic) (hd : P d) : P (Analyzer.withSoundFix d) := by
    simpa [P] using hd
  have htrial (n : Node) (r : Rule) (hr : r ∈ a.rules.forKind n.kind) (walk : Walk) :
      (a.trial u r walk n).Completes (Holds fun ds => ∀ d ∈ ds, P d) fun found => ∀ d ∈ found, P d := by
    have hmem := RuleSet.mem_of_mem_forKind hr
    refine Analyzer.trial_completes_builtin (eq_of_mem_enabledRules hmem) (fun _ _ _ => ⟨r, hmem, rfl, rfl⟩) fun _ _ _ d hd => ?_
    obtain ⟨fix, rfl⟩ := RandomRemainder.found_eq hd
    exact ⟨r, hmem, rfl, rfl⟩
  obtain ⟨report, hreport, hcancelled, hfound⟩ :=
    Analyzer.analyze_holds (a := a) (u := u) hfix (fun n _ r hr walk => htrial n r hr walk) p
  refine ⟨_, report, s.ruleSet_eq, hreport, hcancelled, fun d hd => ⟨?_, hfound d hd⟩⟩
  -- no rule that comes with the program goes by the id of failures
  obtain ⟨r, hr, hrule, -⟩ := hfound d hd
  rw [hrule]
  rcases eq_of_mem_enabledRules hr with rfl | rfl
  · show "GeneratedSubclassLeaked" ≠ "RuleFailure"
    decide
  · show "RandomModInteger" ≠ "RuleFailure"
    decide

end Settings

end TreeLint
