/-
The findings of one rule in a report, told by the spots of the unit. A rule is tried at the spots on the way to which
no node is passed over and none suppresses it, and what it finds there stands in the report, whatever the other rules
find. Main statement: `analyze_byRule`.
-/
import TreeLint.Proofs.Analysis.Rules
import TreeLint.Proofs.Resolver.Subtypes

namespace TreeLint

/-! ## Spots -/

/-- All spots of a unit, in pre-order. -/
def CompilationUnit.spots (u : CompilationUnit) : List Spot :=
  u.tree.spots (fun _ => false) []

theorem CompilationUnit.hasNode_of_mem_spots {u : CompilationUnit} {q : Spot} (hq : q ∈ u.spots) :
    u.HasNode q.node := by
  refine .inl ?_
  rw [← Node.map_node_spots.1 u.tree []]
  exact List.mem_map_of_mem hq

/-- Where subtrees are cut off, those spots are left on the way to which nothing is cut off. -/
theorem Node.spots_eq_filter (cut : Node → Bool) :
    (∀ (n : Node) (around : List Node), (∀ k ∈ around, cut k = false) →
      n.spots cut around = (n.spots (fun _ => false) around).filter fun q => q.chain.all fun k => !cut k) ∧
    ∀ (ns : List Node) (around : List Node), (∀ k ∈ around, cut k = false) →
      spotsAll cut around ns = (spotsAll (fun _ => false) around ns).filter fun q => q.chain.all fun k => !cut k := by
  refine forest_induction (fun n ih around h => ?_) (fun around h => rfl) fun n ns ihn ihns around h => ?_
  · cases hcut : cut n with
    | true =>
      -- the node that is cut off is on the way to all spots of its subtree
      rw [spots_eq, hcut, if_pos rfl]
      refine (List.filter_eq_nil_iff.2 fun q hq => ?_).symm
      have hn : n ∈ q.chain := ((prefix_chain _).1 n around q hq).subset (by simp)
      simp only [List.all_eq_true, not_forall]
      exact ⟨n, hn, by simp [hcut]⟩
    | false =>
      have hchain : ∀ k ∈ around ++ [n], cut k = false := by
        intro k hk
        rcases List.mem_append.1 hk with hk | hk
        · exact h k hk
        · rcases List.mem_singleton.1 hk with rfl
          exact hcut
      have hopen : (Spot.chain ⟨around, n⟩).all (fun k => !cut k) = true :=
        List.all_eq_true.2 fun k hk => by rw [hchain k hk]; rfl
      rw [spots_eq, spots_eq, hcut, if_neg Bool.false_ne_true, if_neg Bool.false_ne_true, ih _ hchain, List.filter_cons,
        if_pos hopen]
  · rw [spotsAll, spotsAll, List.filter_append, ihn around h, ihns around h]

/-- The finding of a rule at a spot: at its node, or at the nearest one around it that has a place. -/
def Spot.finding (q : Spot) (u : CompilationUnit) (r : RuleInfo) (fix : Option Fix) : Diagnostic :=
  let span := Source.enclosingSpan u.source q.node q.around.reverse
  { rule := r.id
    severity := r.severity
    span
    message := r.summary
    fix
    location := Source.location u span }

namespace Analyzer

variable {α β : Type} {a : Analyzer} {u : CompilationUnit} {p : Progress} {r : Rule} {rules : List Rule} {q : Spot}

/-- Whether a rule is called for at a spot: no node on the way is passed over, and none suppresses the rule. -/
def isOpen (a : Analyzer) (rule : String) (q : Spot) : Bool :=
  q.chain.all fun n => !(a.answer n).everything && !(a.answer n).rules.contains rule

/-- What is open is reached by way of spots that are. -/
theorem isOpen_of_prefix {rule : String} {p q : Spot} (h : p.chain <+: q.chain) (hq : a.isOpen rule q = true) :
    a.isOpen rule p = true :=
  List.all_eq_true.2 fun n hn => List.all_eq_true.1 hq n (h.subset hn)

theorem isSuppressed_eq (a : Analyzer) (rule : String) (q : Spot) :
    (a.placeAt q).isSuppressed rule = q.chain.any fun n => (a.answer n).rules.contains rule := by
  rw [Bool.eq_iff_iff, Walk.isSuppressed, NameSet.contains_iff, placeAt, Walk.mem_suppressed_along, List.any_eq_true]
  simp only [NameSet.contains_iff]
  exact or_iff_right (NameSet.not_mem_empty rule)

/-- The walk comes with a rule to the spots that are open to it. -/
theorem visited_filter (a : Analyzer) (u : CompilationUnit) (rule : String) :
    (a.visited u).filter (fun q => !(a.placeAt q).isSuppressed rule) = u.spots.filter (a.isOpen rule) := by
  rw [visited, (Node.spots_eq_filter _).1 u.tree [] (List.forall_mem_nil _), List.filter_filter]
  refine List.filter_congr fun q _ => ?_
  rw [isSuppressed_eq, Bool.eq_iff_iff, isOpen]
  simp only [Bool.and_eq_true, Bool.not_eq_true', List.all_eq_true, List.any_eq_false]
  grind

theorem visited_of_isOpen {rule : String} (hq : q ∈ u.spots) (hopen : a.isOpen rule q = true) : q ∈ a.visited u := by
  have hmem := List.mem_filter.2 ⟨hq, hopen⟩
  rw [← visited_filter] at hmem
  exact List.mem_of_mem_filter hmem

theorem finding_eq {walk : Walk} (h : walk.path = q.chain.reverse) (fix : Option Fix) :
    RuleM.finding (a.sceneFor u r) walk q.node fix = q.finding u r.toRuleInfo fix := by
  have hpath : walk.path = q.node :: q.around.reverse := by
    rw [h, Spot.chain, List.reverse_append]
    rfl
  have hcurrent : walk.current.any (·.is q.node) = true := by
    rw [Walk.current, hpath]
    exact beq_self_eq_true q.node.id
  unfold RuleM.finding
  rw [sceneFor, if_pos hcurrent, Walk.ancestors, hpath]
  rfl

theorem path_placeAt (a : Analyzer) (q : Spot) : (a.placeAt q).path = q.chain.reverse := by
  rw [placeAt, Walk.path_along]
  exact List.append_nil _

/-! ## The report -/

/-- What selected members come to is what all members come to if the others come to nothing. -/
theorem flatMap_filter (keep : α → Bool) (f : α → List β) (xs : List α) :
    (xs.filter keep).flatMap f = xs.flatMap fun x => if keep x then f x else [] := by
  induction xs with
  | nil => rfl
  | cons x xs ih =>
    rw [List.filter_cons, List.flatMap_cons, ← ih]
    cases keep x <;> rfl

/-- The findings of a rule in a report are those that it makes at the spots that are open to it, if all rules keep to
themselves. -/
theorem analyze_byRule (hrules : Registry.ofRules rules = .ok a.rules) (hr : r ∈ rules) (hc : u.IsCoherent a.provenance)
    (ha : a.Lawful u) (hpc : p.cancelled = false) (h : a.Tidy u p) :
    ∃ report, (a.analyze u p).1 = .ok report ∧ report.byRule r.id = Diagnostic.sorted
      ((u.spots.filter fun q => decide (q.node.kind ∈ r.kinds) && a.isOpen r.id q).flatMap fun q =>
        a.outcome u p r (a.placeAt q) q.node) := by
  obtain ⟨hall, hset⟩ := Registry.ofRules_eq_ok_iff.1 hrules
  refine ⟨_, analyze_calm hc ha hpc fun i hi => (h i hi).calm, ?_⟩
  rw [UnitReport.byRule, Diagnostic.filter_sorted, found_of_id h, invocations_of_id hset, filter_id_of_mem hall.ids hr,
    List.flatMap_assoc, ← List.filter_filter, ← visited_filter, List.filter_filter, flatMap_filter]
  refine congrArg Diagnostic.sorted (List.flatMap_congr fun q _ => ?_)
  rw [List.filter_cons]
  cases hkind : decide (q.node.kind ∈ r.kinds)
  · simp
  · rw [if_pos rfl, List.filter_nil, List.filter_cons]
    cases (a.placeAt q).isSuppressed r.id <;> simp

/-- A rule that comes with the program keeps to itself, so all rules do if the others do. -/
theorem tidy_of_others {leaked : LeakedSubclass.Names} {random : RandomRemainder.Names}
    (hrules : Registry.ofRules rules = .ok a.rules) (hr : r ∈ rules)
    (hbuiltin : r = LeakedSubclass.rule leaked ∨ r = RandomRemainder.rule random) (hc : u.IsCoherent a.provenance)
    (hp : ∀ q ∈ a.predicates, Suppression.Lawful u q) (hpc : p.cancelled = false)
    (hothers : ∀ i ∈ a.invocations u, i.rule.id ≠ r.id → a.TidyAt u p i) : a.Tidy u p := by
  obtain ⟨hall, hset⟩ := Registry.ofRules_eq_ok_iff.1 hrules
  intro i hi
  by_cases hid : i.rule.id = r.id
  · obtain ⟨q, hq, s, hs, rfl⟩ := mem_invocations.1 hi
    have hmem : s ∈ rules := by
      have := List.mem_of_mem_filter hs
      rw [hset] at this
      exact RuleSet.mem_of_mem_forKind this
    have hsame : s ∈ rules.filter (·.id = r.id) := List.mem_filter.2 ⟨hmem, decide_eq_true hid⟩
    rw [filter_id_of_mem hall.ids hr, List.mem_singleton] at hsame
    subst hsame
    exact tidyAt_builtin hc hp hpc hq hbuiltin
  · exact hothers i hi hid

/-- The findings of a rule that comes with the program are those that it makes from the spots that are open to it. -/
theorem analyze_builtinRule {leaked : LeakedSubclass.Names} {random : RandomRemainder.Names}
    (hrules : Registry.ofRules rules = .ok a.rules) (hr : r ∈ rules)
    (hbuiltin : r = LeakedSubclass.rule leaked ∨ r = RandomRemainder.rule random) (hc : u.IsCoherent a.provenance)
    (ha : a.Lawful u) (hpc : p.cancelled = false)
    (hothers : ∀ i ∈ a.invocations u, i.rule.id ≠ r.id → a.TidyAt u p i) :
    ∃ report, (a.analyze u p).1 = .ok report ∧ report.byRule r.id = Diagnostic.sorted
      ((u.spots.filter fun q => decide (q.node.kind ∈ r.kinds) && a.isOpen r.id q).flatMap fun q =>
        (a.placedBy u leaked random q r).map Placed.finding) := by
  obtain ⟨report, hreport, hfound⟩ :=
    analyze_byRule hrules hr hc ha hpc (tidy_of_others hrules hr hbuiltin hc ha.predicates hpc hothers)
  refine ⟨report, hreport, hfound.trans (congrArg Diagnostic.sorted (List.flatMap_congr fun q hq => ?_))⟩
  obtain ⟨hq, hkept⟩ := List.mem_filter.1 hq
  exact outcome_builtin hc ha.predicates hpc (visited_of_isOpen hq ((Bool.and_eq_true _ _).mp hkept).2) hbuiltin

theorem IsBuiltin.tidy {leaked : LeakedSubclass.Names} {random : RandomRemainder.Names} (hb : a.IsBuiltin leaked random)
    (hc : u.IsCoherent a.provenance) (hp : ∀ q ∈ a.predicates, Suppression.Lawful u q) (hpc : p.cancelled = false) :
    a.Tidy u p := by
  intro i hi
  obtain ⟨q, hq, r, hr, rfl⟩ := mem_invocations.1 hi
  exact tidyAt_builtin hc hp hpc hq (hb _ r (List.mem_of_mem_filter hr))

/-! ## Answers -/

theorem answerTo_guarded (a : Analyzer) (b : Prop) [Decidable b] (q : Query Bool) :
    a.answerTo (if b then pure false else q) = (!decide b && a.answerTo q) := by
  by_cases hb : b
  · rw [if_pos hb, decide_eq_true hb]
    rfl
  · rw [if_neg hb, decide_eq_false hb]
    rfl

theorem answerTo_bind (hc : u.IsCoherent a.provenance) {question : Query α} {f : α → Query β}
    (hq : Query.Lawful u question) (hf : ∀ x, Query.Lawful u (f x)) :
    a.answerTo (question >>= f) = a.answerTo (f (a.answerTo question)) :=
  ((hf _).settled hc).answer ((hq.settled hc).stays (u.truthful_fresh _)) (u.truthful_fresh _)

theorem answerTo_anyM (hc : u.IsCoherent a.provenance) {f : α → Query Bool} :
    ∀ {xs : List α}, (∀ x ∈ xs, Query.Lawful u (f x)) → a.answerTo (xs.anyM f) = xs.any fun x => a.answerTo (f x)
  | [], _ => rfl
  | x :: xs, h => by
    have hrest := fun y hy => h y (List.mem_cons_of_mem x hy)
    have hlawful (found : Bool) : Query.Lawful u (match found with | true => pure true | false => xs.anyM f) := by
      cases found
      · exact .anyM hrest
      · exact .pure true
    rw [List.anyM, List.any_cons]
    refine (answerTo_bind hc (h x List.mem_cons_self) hlawful).trans ?_
    cases a.answerTo (f x)
    · exact answerTo_anyM hc hrest
    · rfl

end Analyzer

/-- Whether a name is met in the search from a type upwards, that of the type itself or of a supertype. -/
def TypeRef.goesBy (name : String) (t : TypeRef) : Bool :=
  (supertypeClosure ∅ [t]).contains name

theorem Analyzer.answerTo_isSubtypeOfName (a : Analyzer) (t : Option TypeRef) (name : String) :
    a.answerTo (Resolver.isSubtypeOfName t name) = t.any (·.goesBy name) := by
  cases t with
  | none => rfl
  | some t => exact congrArg Prod.fst (Resolver.isSubtypeOfName_apply t name { provenance := a.provenance })

end TreeLint
