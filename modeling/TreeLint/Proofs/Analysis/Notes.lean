/-
Analyses in which no rule fails. If whatever is tried at a node of the tree completes with findings of some
sort, the analysis has a report with findings of that sort alone, or was called off before it began. Nothing
is asked of the unit or of the resolver. Main statement: `analyze_holds`.
-/
import TreeLint.Proofs.Analysis.Cancellation

namespace TreeLint

/-! ## Sessions -/

namespace Session

variable {ν α : Type} {P : ν → Prop}

/-- A session that was not called off and whose notes are of a sort. -/
structure Holds (P : ν → Prop) (s : Session ν) : Prop where
  live : s.cancelled = false
  notes : P s.notes

/-- The answer is one that the resolver gives in some state. -/
theorem ask_completes (q : Query α) : (ask q).Completes (Holds P) fun a => ∃ resolver, (q resolver).1 = a :=
  fun s hs => ⟨_, rfl, ⟨s.resolver, rfl⟩, hs.live, hs.notes⟩

theorem tell_completes (level : LogLevel) (channel : Channel) (message : String) :
    (tell level channel message).Completes (Holds P) fun _ => True :=
  fun _ hs => ⟨_, rfl, trivial, hs.live, hs.notes⟩

theorem goOn_completes : goOn.Completes (Holds P) fun _ => True := by
  intro s hs
  rw [goOn_live hs.live]
  exact ⟨_, rfl, trivial, hs⟩

end Session

open Session (Holds)

namespace Scanner

variable {ν : Type} {P : ν → Prop} {sc : Scanner ν}

theorem arrive_completes (n : Node) : (sc.arrive n).Completes (Holds P) fun _ => True := by
  unfold arrive
  refine Session.goOn_completes.bind fun _ _ => (Session.ask_completes _).bind fun s _ => ?_
  split
  · exact (Session.tell_completes _ _ _).bind fun _ _ => .pure trivial
  · exact .pure trivial

/-- A tour completes if the handlers do at the nodes that it comes to. -/
theorem tour_completes {within : Node → Prop} (hbelow : ∀ n, within n → ∀ m ∈ n.children, within m)
    (hcall : ∀ walk n, within n → (sc.callAll walk n).Completes (Holds P) fun _ => True) :
    (∀ (n : Node) (walk : Walk), within n → (sc.tour walk n).Completes (Holds P) fun _ => True) ∧
    ∀ (ns : List Node) (walk : Walk), (∀ n ∈ ns, within n) → (sc.tourAll walk ns).Completes (Holds P) fun _ => True := by
  refine Node.forest_induction (fun n ih walk hn => ?_) (fun _ _ => .pure trivial) fun n ns ihn ihns walk hns => ?_
  · rw [tour_eq]
    refine (arrive_completes n).bind fun arrived _ => ?_
    cases arrived with
    | none => exact .pure trivial
    | some s => exact (hcall _ n hn).bind fun _ _ => ih _ (hbelow n hn)
  · rw [tourAll]
    exact (ihn walk (hns n List.mem_cons_self)).bind fun _ _ => ihns walk fun m hm => hns m (List.mem_cons_of_mem n hm)

/-- Work that was called off before it began does not get to the first node. -/
theorem tour_called_off {s : Session ν} (hs : s.cancelled = true) (walk : Walk) (n : Node) :
    sc.tour walk n s = (.error .cancelled, s) := by
  rw [tour_eq, Attempt.bind_apply]
  unfold arrive
  rw [Attempt.bind_apply, Session.goOn_stopped hs]

end Scanner

namespace Analyzer

variable {a : Analyzer} {u : CompilationUnit} {r : Rule} {walk : Walk} {n : Node} {P : Diagnostic → Prop}

/-! ## One rule at one node -/

/-- The notes of a rule at a place of the walk whose findings are of a sort. -/
structure Reports (P : Diagnostic → Prop) (walk : Walk) (v : Visit) : Prop where
  found : ∀ d ∈ v.found, P d
  traversal : v.traversal = walk

/-- A trial of a rule that goes by its pattern completes if the rule does wherever the pattern matches, whatever
the resolver answered on the way there. -/
theorem trial_completes {Q : List Diagnostic → Prop} (htest : r.test n = .ok <$> r.pattern.isMatch n)
    (hdescribe : ∀ resolver, (r.pattern.isMatch n resolver).1 = true →
      (r.describe n (a.sceneFor u r)).Completes (Holds (Reports P walk)) fun last => ∀ d ∈ last, P d) :
    (a.trial u r walk n).Completes (Holds Q) fun found => ∀ d ∈ found, P d := by
  have hfindings : (findings r n (a.sceneFor u r)).Completes (Holds (Reports P walk))
      fun found => ∀ d ∈ found, P d := by
    rw [findings_eq, htest]
    refine (Session.ask_completes _).bind fun tested ⟨resolver, htested⟩ => ?_
    have hlift : (Attempt.lift tested).Completes (Holds (Reports P walk)) fun found =>
        found = (r.pattern.isMatch n resolver).1 := by
      subst htested
      exact fun s hs => ⟨_, rfl, rfl, hs⟩
    refine hlift.bind fun found hfound => ?_
    cases found
    · exact .pure (List.forall_mem_nil _)
    · have hreported : (RuleM.reported (a.sceneFor u r)).Completes (Holds (Reports P walk)) fun ds => ∀ d ∈ ds, P d :=
        fun s hs => ⟨s.notes.found, rfl, hs.notes.found, hs⟩
      refine (hdescribe resolver hfound.symm).bind fun last hlast => hreported.bind fun reported hreported => ?_
      refine .pure fun d hd => ?_
      rcases List.mem_append.1 hd with hd | hd
      · exact hreported d hd
      · exact hlast d (Option.mem_toList.1 hd)
  intro s hs
  obtain ⟨found, hres, hfound, hend⟩ := hfindings (begun walk s) ⟨hs.live, List.forall_mem_nil _, rfl⟩
  exact ⟨found, hres, hfound, hend.live, hs.notes⟩

/-- What a trial comes to is kept, once fixes that are not well formed are let go of. -/
theorem tryRule_completes (hfix : ∀ d, P d → P (withSoundFix d))
    (h : (a.trial u r walk n).Completes (Holds fun ds => ∀ d ∈ ds, P d) fun found => ∀ d ∈ found, P d) :
    (a.tryRule u r walk n).Completes (Holds fun ds => ∀ d ∈ ds, P d) fun _ => True := by
  intro s hs
  obtain ⟨found, hres, hfound, hend⟩ := h s hs
  have hc : (a.trial u r walk n s).1 ≠ .error .cancelled := by
    rw [hres]
    exact nofun
  obtain ⟨log, hkept⟩ := tryRule_kept hc
  rw [hkept, hres]
  refine ⟨(), rfl, trivial, hend.live, fun d hd => ?_⟩
  rcases List.mem_append.1 hd with hd | hd
  · exact hs.notes d hd
  · obtain ⟨d', hd', rfl⟩ := List.mem_map.1 hd
    exact hfix d' (hfound d' hd')

/-! ## The report -/

/-- If no trial at a node of the tree fails, the report has findings of the sort that the trials have, and it
tells that the analysis was called off just if it was before it began. -/
theorem analyze_holds (hfix : ∀ d, P d → P (withSoundFix d))
    (h : ∀ n ∈ u.tree.preorder, ∀ r ∈ a.rules.forKind n.kind, ∀ walk,
      (a.trial u r walk n).Completes (Holds fun ds => ∀ d ∈ ds, P d) fun found => ∀ d ∈ found, P d) (p : Progress) :
    ∃ report, (a.analyze u p).1 = .ok report ∧ report.cancelled = p.cancelled ∧ ∀ d ∈ report.diagnostics, P d := by
  rw [(analyze_eq a u p).1]
  cases hp : p.cancelled
  · have hcall (walk : Walk) (n : Node) (hn : n ∈ u.tree.preorder) :
        ((a.scanner u).callAll walk n).Completes (Holds fun ds => ∀ d ∈ ds, P d) fun _ => True := by
      rw [callAll_scanner]
      exact .forM fun r hr => tryRule_completes hfix (h n hn r (List.mem_of_mem_filter hr) walk)
    have hbelow (n : Node) (hn : n ∈ u.tree.preorder) (m : Node) (hm : m ∈ n.children) : m ∈ u.tree.preorder :=
      Node.mem_preorder_of_child hn hm
    have htour := (Scanner.tour_completes hbelow hcall).1 u.tree {} u.tree.mem_preorder_self
    obtain ⟨⟨⟩, hres, -, hend⟩ := htour (a.fresh p) ⟨hp, List.forall_mem_nil _⟩
    rcases ht : (a.scanner u).tour {} u.tree (a.fresh p) with ⟨result, t⟩
    rw [ht] at hres hend
    cases hres
    exact ⟨_, rfl, rfl, fun d hd => hend.notes d (List.mem_mergeSort.1 hd)⟩
  · rw [Scanner.tour_called_off (s := a.fresh p) hp]
    exact ⟨_, rfl, rfl, List.forall_mem_nil _⟩

end Analyzer

end TreeLint
