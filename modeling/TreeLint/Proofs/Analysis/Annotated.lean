/-
One more annotation that suppresses rules. The report loses what these rules find at the annotated nodes and
below them, and stays the same in all else. Main statement: `analyze_annotated`.
-/
import TreeLint.Proofs.Analysis.Builtin
import TreeLint.Proofs.Rule.Annotated

namespace TreeLint

variable {a : Analyzer} {u : CompilationUnit} {p : Progress} {leaked : LeakedSubclass.Names}
  {random : RandomRemainder.Names} {m : Marking} {name : String} {q : Spot}

/-! ## What is suppressed -/

namespace Suppression

theorem generatedCode_answer (n : Node) (r : Resolver) :
    (generatedCode n r).1 = if n.kind.isDeclaration && (Resolver.isGenerated n.symbol r).1 then all else none := by
  unfold generatedCode
  cases n.kind.isDeclaration
  · rfl
  · show ((if (Resolver.isGenerated n.symbol r).1 then pure all else pure none : Query Suppression) _).1 = _
    cases (Resolver.isGenerated n.symbol r).1 <;> rfl

/-- By the usual predicates a generated declaration is passed over, and in another one the rules are
suppressed that it lists. -/
theorem usual_answer (name : String) (n : Node) (r : Resolver) :
    (of (usual name) n r).1 =
      if n.kind.isDeclaration && (Resolver.isGenerated n.symbol r).1 then none.combine all
      else (none.combine none).combine
        (if n.kind.isDeclaration then { rules := listed n.allAnnotations name } else none) := by
  unfold of usual
  rw [addFrom_cons, addFrom_cons, generatedCode_answer]
  cases n.kind.isDeclaration && (Resolver.isGenerated n.symbol r).1
  · have hmarking (r' : Resolver) : (ofMarking name n r').1 =
        if n.kind.isDeclaration then { rules := listed n.allAnnotations name } else none := rfl
    rw [hmarking]
    cases n.kind.isDeclaration <;> rfl
  · rfl

end Suppression

namespace Analyzer

theorem everything_answer (h : a.predicates = Suppression.usual name) (n : Node) :
    (a.answer n).everything = (n.kind.isDeclaration && a.answerTo (Resolver.isGenerated n.symbol)) := by
  rw [answer, h, Suppression.usual_answer, answerTo]
  cases n.kind.isDeclaration && (Resolver.isGenerated n.symbol { provenance := a.provenance }).1
  · cases n.kind.isDeclaration <;> rfl
  · rfl

theorem mem_rules_answer (h : a.predicates = Suppression.usual name) {n : Node} (hopen : (a.answer n).everything = false)
    (rule : String) : rule ∈ (a.answer n).rules ↔
      n.kind.isDeclaration = true ∧ ∃ x ∈ n.allAnnotations, x.isNamed name = true ∧ rule ∈ x.arguments := by
  rw [everything_answer h] at hopen
  rw [answer, h, Suppression.usual_answer, if_neg (by rw [← answerTo, hopen]; exact Bool.false_ne_true)]
  cases n.kind.isDeclaration
  · simp [Suppression.combine, Suppression.none, NameSet.mem_union, NameSet.not_mem_empty]
  · simp [Suppression.combine, Suppression.none, Suppression.listed, NameSet.mem_union, NameSet.not_mem_empty,
      NameSet.mem_ofList, and_assoc]

/-! ## Places -/

/-- A marking that suppresses rules by an annotation with a name, and is put on declarations of a unit only. -/
structure Suppresses (name : String) (u : CompilationUnit) (m : Marking) : Prop where
  named : m.annotation.isNamed name = true
  declared : ∀ n, u.HasNode n → n.id = m.target → n.kind.isDeclaration = true

end Analyzer

/-- Whether a marking suppresses a rule at a spot, being on its node or on one around it. -/
def Marking.silences (m : Marking) (rule : String) (q : Spot) : Bool :=
  m.annotation.arguments.contains rule && q.chain.any (·.id = m.target)

namespace Analyzer

theorem everything_mark (h : a.predicates = Suppression.usual name) (n : Node) :
    (a.answer (m.mark n)).everything = (a.answer n).everything := by
  rw [everything_answer h, everything_answer h, Marking.kind_mark, Marking.symbol_mark]

theorem mem_rules_mark (h : a.predicates = Suppression.usual name) (hm : Suppresses name u m) {n : Node}
    (hn : u.HasNode n) (hopen : (a.answer n).everything = false) (rule : String) :
    rule ∈ (a.answer (m.mark n)).rules ↔
      rule ∈ (a.answer n).rules ∨ n.id = m.target ∧ rule ∈ m.annotation.arguments := by
  have hcarried (x : Annotation) : x ∈ (m.mark n).allAnnotations ↔
      x ∈ n.allAnnotations ∨ n.id = m.target ∧ x = m.annotation := by
    rw [Node.allAnnotations, Node.allAnnotations, Marking.annotations_mark, Marking.symbol_mark, List.mem_append,
      List.mem_append, Marking.mem_among]
    grind
  rw [mem_rules_answer h ((everything_mark h n).trans hopen), mem_rules_answer h hopen, Marking.kind_mark]
  simp only [hcarried]
  constructor
  · rintro ⟨hdecl, x, hx | ⟨hid, rfl⟩, hnamed, hrule⟩
    · exact .inl ⟨hdecl, x, hx, hnamed, hrule⟩
    · exact .inr ⟨hid, hrule⟩
  · rintro (⟨hdecl, x, hx, hnamed, hrule⟩ | ⟨hid, hrule⟩)
    · exact ⟨hdecl, x, .inl hx, hnamed, hrule⟩
    · exact ⟨hm.declared n hn hid, m.annotation, .inr ⟨hid, rfl⟩, hm.named, hrule⟩

theorem visited_mark (h : a.predicates = Suppression.usual name) :
    a.visited (m.markUnit u) = (a.visited u).map m.markSpot :=
  (m.spots_mark (everything_mark h)).1 u.tree []

/-- The nodes on the way to a visited spot are nodes of the unit that are not passed over. -/
theorem chain_visited (hq : q ∈ a.visited u) : ∀ n ∈ q.chain, u.HasNode n ∧ (a.answer n).everything = false := by
  intro n hn
  refine ⟨(within_of_visited hq).2.path n ?_, ?_⟩
  · rw [placeAt, Walk.path_along]
    simpa using hn
  · exact (Node.open_of_mem_chain _).1 u.tree [] (fun _ hk => nomatch hk) q hq n hn

theorem isSuppressed_mark (h : a.predicates = Suppression.usual name) (hm : Suppresses name u m)
    (hq : q ∈ a.visited u) (rule : String) :
    (a.placeAt (m.markSpot q)).isSuppressed rule = ((a.placeAt q).isSuppressed rule || m.silences rule q) := by
  have hchain := chain_visited hq
  rw [Bool.eq_iff_iff, Bool.or_eq_true, Walk.isSuppressed, Walk.isSuppressed, NameSet.contains_iff, NameSet.contains_iff,
    placeAt, placeAt, Walk.mem_suppressed_along, Walk.mem_suppressed_along, Marking.chain_markSpot, Marking.silences,
    Bool.and_eq_true, List.any_eq_true, List.contains_iff_mem]
  constructor
  · rintro (hstart | ⟨k, hk, hrule⟩)
    · exact .inl (.inl hstart)
    · obtain ⟨n, hn, rfl⟩ := List.mem_map.1 hk
      rcases (mem_rules_mark h hm (hchain n hn).1 (hchain n hn).2 rule).1 hrule with hrule | ⟨hid, hrule⟩
      · exact .inl (.inr ⟨n, hn, hrule⟩)
      · exact .inr ⟨hrule, n, hn, decide_eq_true hid⟩
  · rintro ((hstart | ⟨n, hn, hrule⟩) | ⟨hrule, n, hn, hid⟩)
    · exact .inl hstart
    · exact .inr ⟨m.mark n, List.mem_map_of_mem hn,
        (mem_rules_mark h hm (hchain n hn).1 (hchain n hn).2 rule).2 (.inl hrule)⟩
    · exact .inr ⟨m.mark n, List.mem_map_of_mem hn,
        (mem_rules_mark h hm (hchain n hn).1 (hchain n hn).2 rule).2 (.inr ⟨of_decide_eq_true hid, hrule⟩)⟩

/-! ## Findings -/

/-- A finding at its spot in the tree with the marking. -/
def markPlaced (m : Marking) (x : Placed) : Placed := ⟨m.markSpot x.spot, x.finding⟩

/-- Whether a marking leaves a finding in the report. -/
def spares (m : Marking) (x : Placed) : Bool := !m.silences x.finding.rule x.spot

/-- Below a spot that is silenced, all is silenced. -/
theorem silences_below {rule : String} {x : Spot} (hq : m.silences rule q = true) (hx : q.chain <+: x.chain) :
    m.silences rule x = true := by
  obtain ⟨hrule, hchain⟩ := (Bool.and_eq_true _ _).mp hq
  obtain ⟨n, hn, hid⟩ := List.any_eq_true.1 hchain
  exact (Bool.and_eq_true _ _).mpr ⟨hrule, List.any_eq_true.2 ⟨n, hx.subset hn, hid⟩⟩

theorem sameScene_mark {walk walk' : Walk} (h : walk'.path = walk.path.map m.mark) (r : Rule) :
    m.SameScene (a.sceneFor u r) (a.sceneFor (m.markUnit u) r) walk walk' :=
  ⟨rfl, rfl, h⟩

theorem path_placeAt_mark (q : Spot) : (a.placeAt (m.markSpot q)).path = (a.placeAt q).path.map m.mark := by
  rw [placeAt, placeAt, Walk.path_along, Walk.path_along, Marking.chain_markSpot, ← List.map_reverse, List.map_append]
  rfl

theorem path_placeBelow_mark (q x : Spot) :
    (a.placeBelow (m.markSpot q) (m.markSpot x)).path = (a.placeBelow q x).path.map m.mark := by
  have hbelow : (m.markSpot q).chainBelow (m.markSpot x) = (q.chainBelow x).map m.mark := by
    rw [Spot.chainBelow, Spot.chainBelow, Marking.chain_markSpot, ← List.map_drop, Spot.depth, Spot.depth, Marking.markSpot,
      List.length_map]
  rw [placeBelow, placeBelow, Walk.path_along, Walk.path_along, hbelow, ← List.map_reverse, List.map_append]
  rfl

theorem isLeakAt_mark (hmarker : m.annotation.isNamed leaked.marker = false) (root n : Node) :
    a.isLeakAt leaked (m.mark root) (m.mark n) = a.isLeakAt leaked root n := by
  rw [isLeakAt, isLeakAt, Marking.kind_mark, Marking.markedTypes_mark hmarker, Marking.isLeaked_mark]

/-- The spots of the subtree at a visited spot are visited. -/
theorem mem_visited_below (hq : q ∈ a.visited u) {x : Spot}
    (hx : x ∈ q.node.spots (fun n => (a.answer n).everything) q.around) : x ∈ a.visited u ∧ q.chain <+: x.chain := by
  refine ⟨?_, (Node.prefix_chain _).1 q.node q.around x hx⟩
  obtain ⟨before, after, hspot⟩ := List.append_of_mem hq
  rw [visited_below hspot] at hx
  rw [hspot]
  rcases List.mem_cons.1 hx with rfl | hx
  · simp
  · exact List.mem_append_right _ (List.mem_cons_of_mem _ ((List.takeWhile_prefix _).subset hx))

theorem leaksAt_mark (h : a.predicates = Suppression.usual name) (hm : Suppresses name u m)
    (hmarker : m.annotation.isNamed leaked.marker = false) (hq : q ∈ a.visited u) :
    a.leaksAt (m.markUnit u) leaked (m.markSpot q) = ((a.leaksAt u leaked q).filter (spares m)).map (markPlaced m) := by
  have hspots : (m.markSpot q).node.spots (fun n => (a.answer n).everything) (m.markSpot q).around =
      (q.node.spots (fun n => (a.answer n).everything) q.around).map m.markSpot :=
    (m.spots_mark (everything_mark h)).1 q.node q.around
  rw [leaksAt, leaksAt, hspots, List.filter_map, List.map_map, List.filter_map, List.map_map, List.filter_filter]
  have hkept : (q.node.spots (fun n => (a.answer n).everything) q.around).filter
      ((fun x => a.isLeakAt leaked (m.markSpot q).node x.node &&
        !(a.placeAt x).isSuppressed (LeakedSubclass.rule leaked).id) ∘ m.markSpot) =
      (q.node.spots (fun n => (a.answer n).everything) q.around).filter fun x =>
        !m.silences (LeakedSubclass.rule leaked).id x &&
          (a.isLeakAt leaked q.node x.node && !(a.placeAt x).isSuppressed (LeakedSubclass.rule leaked).id) := by
    refine List.filter_congr fun x hx => ?_
    have hsuppressed := isSuppressed_mark h hm (mem_visited_below hq hx).1 (LeakedSubclass.rule leaked).id
    show (a.isLeakAt leaked (m.mark q.node) (m.mark x.node) && !(a.placeAt (m.markSpot x)).isSuppressed _) = _
    rw [isLeakAt_mark hmarker, hsuppressed]
    cases m.silences (LeakedSubclass.rule leaked).id x <;> simp
  rw [hkept]
  refine List.map_congr_left fun x _ => ?_
  have hscene := sameScene_mark (a := a) (u := u) (path_placeBelow_mark (a := a) (m := m) q x)
    (LeakedSubclass.rule leaked)
  exact congrArg (Placed.mk (m.markSpot x)) (Marking.finding_mark hscene x.node none)

theorem remainderAt_mark (q : Spot) :
    a.placedBy (m.markUnit u) leaked random (m.markSpot q) (RandomRemainder.rule random) =
      (a.placedBy u leaked random q (RandomRemainder.rule random)).map (markPlaced m) := by
  have hscene := sameScene_mark (a := a) (u := u) (path_placeAt_mark (a := a) (m := m) q) (RandomRemainder.rule random)
  have hfound := Marking.found_mark hscene random q.node
  rw [placedBy_random, placedBy_random, show (m.markSpot q).node = m.mark q.node from rfl,
    Marking.isMatch_remainder_mark, hfound]
  split
  · rw [List.map_map]
    rfl
  · rfl

/-- Where a finding is made: at the spot at which the rule is tried, or at a visited one below. -/
theorem spot_placedBy (hq : q ∈ a.visited u) {r : Rule}
    (hr : r = LeakedSubclass.rule leaked ∨ r = RandomRemainder.rule random) :
    ∀ x ∈ a.placedBy u leaked random q r, x.spot ∈ a.visited u ∧ q.chain <+: x.spot.chain := by
  intro x hx
  rcases hr with rfl | rfl
  · rw [placedBy_leaked] at hx
    obtain ⟨spot, hspot, rfl⟩ := List.mem_map.1 hx
    exact mem_visited_below hq (List.mem_of_mem_filter hspot)
  · rw [placedBy_random] at hx
    split at hx
    · obtain ⟨d, -, rfl⟩ := List.mem_map.1 hx
      exact ⟨hq, List.prefix_rfl⟩
    · cases hx

/-- Where a rule is still tried, its findings are those that the marking spares. -/
theorem placedBy_mark (h : a.predicates = Suppression.usual name) (hm : Suppresses name u m)
    (hmarker : m.annotation.isNamed leaked.marker = false) (hq : q ∈ a.visited u) {r : Rule}
    (hr : r = LeakedSubclass.rule leaked ∨ r = RandomRemainder.rule random) (hopen : m.silences r.id q = false) :
    a.placedBy (m.markUnit u) leaked random (m.markSpot q) r =
      ((a.placedBy u leaked random q r).filter (spares m)).map (markPlaced m) := by
  rcases hr with rfl | rfl
  · rw [placedBy_leaked, placedBy_leaked]
    exact leaksAt_mark h hm hmarker hq
  · have hspared : ∀ x ∈ a.placedBy u leaked random q (RandomRemainder.rule random), spares m x = true := by
      intro x hx
      have hrule := (finding_placedBy (.inr rfl) x hx).1
      rw [placedBy_random] at hx
      split at hx
      · obtain ⟨d, -, rfl⟩ := List.mem_map.1 hx
        rw [spares, hrule, hopen]
        rfl
      · cases hx
    rw [List.filter_eq_self.2 hspared]
    exact remainderAt_mark q

/-- Members that are left out may as well come to nothing. -/
theorem flatMap_filter_congr {ι α : Type} {f g : ι → List α} {keep : ι → Bool} {xs : List ι}
    (hkept : ∀ x ∈ xs, keep x = true → f x = g x) (hleft : ∀ x ∈ xs, keep x = false → g x = []) :
    (xs.filter keep).flatMap f = xs.flatMap g := by
  induction xs with
  | nil => rfl
  | cons x xs ih =>
    have ih := ih (fun y hy => hkept y (List.mem_cons_of_mem x hy)) fun y hy => hleft y (List.mem_cons_of_mem x hy)
    rw [List.flatMap_cons, ← ih]
    cases hx : keep x
    · rw [List.filter_cons_of_neg (by simp [hx]), hleft x List.mem_cons_self hx]
      rfl
    · rw [List.filter_cons_of_pos hx, List.flatMap_cons, hkept x List.mem_cons_self hx]

/-- The findings in the unit with the marking are those that it spares, in the same order. -/
theorem placed_mark (h : a.predicates = Suppression.usual name) (hb : a.IsBuiltin leaked random)
    (hm : Suppresses name u m) (hmarker : m.annotation.isNamed leaked.marker = false) :
    a.placed (m.markUnit u) leaked random = ((a.placed u leaked random).filter (spares m)).map (markPlaced m) := by
  unfold placed
  rw [visited_mark h, List.flatMap_map, List.filter_flatMap, List.map_flatMap]
  refine List.flatMap_congr fun q hq => ?_
  rw [List.filter_flatMap, List.map_flatMap]
  have hcalled : a.called (a.placeAt (m.markSpot q)) (m.markSpot q).node =
      (a.called (a.placeAt q) q.node).filter fun r => !m.silences r.id q := by
    unfold called
    rw [List.filter_filter, show (m.markSpot q).node.kind = q.node.kind from m.kind_mark q.node]
    refine List.filter_congr fun r _ => ?_
    rw [isSuppressed_mark h hm hq, Bool.not_or, Bool.and_comm]
  rw [hcalled]
  refine flatMap_filter_congr (fun r hr hopen => ?_) fun r hr hsilenced => ?_
  · exact placedBy_mark h hm hmarker hq (hb _ r (List.mem_of_mem_filter hr)) (by simpa using hopen)
  · have hrule := hb _ r (List.mem_of_mem_filter hr)
    rw [List.filter_eq_nil_iff.2 fun x hx => ?_]
    · rfl
    · rw [spares, (finding_placedBy hrule x hx).1,
        silences_below (by simpa using hsilenced) (spot_placedBy hq hrule x hx).2]
      simp

/-! ## The report -/

/-- The findings of a report, in its order, with the spots at which they are made. -/
def reported (a : Analyzer) (u : CompilationUnit) (leaked : LeakedSubclass.Names) (random : RandomRemainder.Names) :
    List Placed :=
  (a.placed u leaked random).mergeSort fun x y => x.finding.precedes y.finding

theorem map_finding_mergeSort (xs : List Placed) :
    (xs.mergeSort fun x y => x.finding.precedes y.finding).map Placed.finding =
      Diagnostic.sorted (xs.map Placed.finding) :=
  List.map_mergeSort fun _ _ _ _ => rfl

theorem analyze_reported (hc : u.IsCoherent a.provenance) (hp : ∀ q ∈ a.predicates, Suppression.Lawful u q)
    (hb : a.IsBuiltin leaked random) (p : Progress) :
    (a.analyze u p).1 = .ok {
      path := u.path
      diagnostics := (if p.cancelled then [] else a.reported u leaked random).map Placed.finding
      cancelled := p.cancelled } := by
  cases hpc : p.cancelled
  · rw [analyze_builtin hc hp hb hpc, if_neg Bool.false_ne_true, reported, map_finding_mergeSort]
  · exact analyze_stopped hc (hb.lawful hp) hpc

theorem reported_mark (h : a.predicates = Suppression.usual name) (hb : a.IsBuiltin leaked random)
    (hm : Suppresses name u m) (hmarker : m.annotation.isNamed leaked.marker = false) :
    (a.reported (m.markUnit u) leaked random).map Placed.finding =
      ((a.reported u leaked random).filter (spares m)).map Placed.finding := by
  have hmap : (((a.placed u leaked random).filter (spares m)).map (markPlaced m)).map Placed.finding =
      ((a.placed u leaked random).filter (spares m)).map Placed.finding := List.map_map ..
  have hfilter : (a.reported u leaked random).filter (spares m) =
      ((a.placed u leaked random).filter (spares m)).mergeSort fun x y => x.finding.precedes y.finding :=
    filter_mergeSort (fun x y z => Diagnostic.precedes_trans x.finding y.finding z.finding)
      (fun x y => Diagnostic.precedes_total x.finding y.finding) (spares m) _
  rw [hfilter, map_finding_mergeSort, reported, map_finding_mergeSort, placed_mark h hb hm hmarker, hmap]

/-- Each finding of a report is made by a rule that is tried at a visited spot, there or at a visited spot
below. -/
theorem mem_reported (hb : a.IsBuiltin leaked random) {x : Placed} (hx : x ∈ a.reported u leaked random) :
    ∃ q ∈ a.visited u, ∃ r ∈ a.called (a.placeAt q) q.node, x ∈ a.placedBy u leaked random q r ∧
      x.finding.rule = r.id ∧ x.spot ∈ a.visited u ∧ q.chain <+: x.spot.chain := by
  obtain ⟨q, hq, hx⟩ := List.mem_flatMap.1 (List.mem_mergeSort.1 hx)
  obtain ⟨r, hr, hx⟩ := List.mem_flatMap.1 hx
  have hrule := hb _ r (List.mem_of_mem_filter hr)
  exact ⟨q, hq, r, hr, hx, (finding_placedBy hrule x hx).1, spot_placedBy hq hrule x hx⟩

/-- One more annotation that suppresses rules takes away just what these rules find while a node that carries
it is visited, at the node or below it. All else stays in the report, in the same order; and all of it if the
annotation is only on nodes that are passed over. -/
theorem analyze_annotated (hc : u.IsCoherent a.provenance) (hb : a.IsBuiltin leaked random)
    (h : a.predicates = Suppression.usual name) (hm : Suppresses name u m)
    (hmarker : m.annotation.isNamed leaked.marker = false) (p : Progress) :
    let found := if p.cancelled then [] else a.reported u leaked random
    (a.analyze u p).1 =
      .ok { path := u.path, diagnostics := found.map Placed.finding, cancelled := p.cancelled } ∧
    (a.analyze (m.markUnit u) p).1 =
      .ok { path := u.path, diagnostics := (found.filter (spares m)).map Placed.finding, cancelled := p.cancelled } ∧
    ((∀ q ∈ a.visited u, ∀ n ∈ q.chain, n.id ≠ m.target) →
      (a.analyze (m.markUnit u) p).1 = (a.analyze u p).1) ∧
    (∀ x ∈ a.reported u leaked random, ∃ q ∈ a.visited u, ∃ r ∈ a.called (a.placeAt q) q.node,
      x ∈ a.placedBy u leaked random q r ∧ x.finding.rule = r.id ∧ x.spot ∈ a.visited u ∧
        q.chain <+: x.spot.chain) ∧
    (p.cancelled = false → ∀ q ∈ a.visited u, ∀ r ∈ a.called (a.placeAt q) q.node,
      a.outcome u p r (a.placeAt q) q.node = (a.placedBy u leaked random q r).map Placed.finding) := by
  intro found
  have hp {v : CompilationUnit} : ∀ q ∈ a.predicates, Suppression.Lawful v q := by
    rw [h]
    exact Suppression.usual_lawful name
  have hreport : (a.analyze u p).1 = _ := analyze_reported hc hp hb p
  have hmarked : (a.analyze (m.markUnit u) p).1 = .ok {
      path := u.path, diagnostics := (found.filter (spares m)).map Placed.finding, cancelled := p.cancelled } := by
    have hfound : (if p.cancelled then [] else a.reported (m.markUnit u) leaked random).map Placed.finding =
        (found.filter (spares m)).map Placed.finding := by
      unfold found
      cases p.cancelled
      · exact reported_mark h hb hm hmarker
      · rfl
    rw [analyze_reported (Marking.isCoherent_mark hc) hp hb p, hfound]
    rfl
  refine ⟨hreport, hmarked, fun hpassed => ?_, fun x hx => mem_reported hb hx, fun hpc q hq r hr => ?_⟩
  · have hspared : ∀ x ∈ found, spares m x = true := by
      intro x hx
      have hx : x ∈ a.reported u leaked random := by
        unfold found at hx
        split at hx
        · cases hx
        · exact hx
      obtain ⟨q, hq, r, hr, -, -, hspot, -⟩ := mem_reported hb hx
      have hchain : x.spot.chain.any (·.id = m.target) = false :=
        List.any_eq_false.2 fun n hn => by simpa using hpassed x.spot hspot n hn
      rw [spares, Marking.silences, hchain, Bool.and_false]
      rfl
    rw [hmarked, hreport, List.filter_eq_self.2 hspared]
  · exact outcome_builtin hc hp hpc hq (hb _ r (List.mem_of_mem_filter hr))

end Analyzer

/-! ## A class with one more annotation -/

/-- A reference to a generated class outside a class, and one inside. -/
def CompilationUnit.nestedReference : CompilationUnit where
  path := "nested.py"
  source := "Made_List\nMade_List"
  tree := {
    id := 0
    kind := .compilationUnit
    children := [
      { id := 1, kind := .identifier, symbol := some { name := "Made_List", kind := .classDecl },
        span := some ⟨0, 9, by decide⟩ },
      { id := 2, kind := .classDecl, annotations := [⟨"SuppressWarnings", ["RandomModInteger"]⟩], children := [
        { id := 3, kind := .identifier, symbol := some { name := "Made_List", kind := .classDecl },
          span := some ⟨10, 19, by decide⟩ }] }] }

theorem CompilationUnit.nestedReference_isCoherent : nestedReference.IsCoherent declaredProvenance :=
  isCoherent_of_plain fun _ => HasNode.all rfl (by decide)

namespace Analyzer

def leaksAndDraws : Analyzer where
  rules := .ofRules [LeakedSubclass.rule ⟨"Made", "Made_"⟩, RandomRemainder.rule ⟨"Random", "nextInt"⟩]
  predicates := Suppression.usual "SuppressWarnings"

theorem leaksAndDraws_isBuiltin : leaksAndDraws.IsBuiltin ⟨"Made", "Made_"⟩ ⟨"Random", "nextInt"⟩ := by
  intro kind r hr
  rcases List.mem_cons.1 (RuleSet.mem_of_mem_forKind hr) with rfl | hr
  · exact .inl rfl
  · exact .inr (List.mem_singleton.1 hr)

/-- The class is annotated once more. -/
def leaksSuppressed : Marking := ⟨2, 0, ⟨"SuppressWarnings", ["GeneratedSubclassLeaked"]⟩⟩

theorem analyze_leaksSuppressed :
    ∃ report report', (leaksAndDraws.analyze .nestedReference {}).1 = .ok report ∧
      (leaksAndDraws.analyze (leaksSuppressed.markUnit .nestedReference) {}).1 = .ok report' ∧
      report.diagnostics.map (·.span.map (·.start)) = [some 0, some 10] ∧
      report'.diagnostics.map (·.span.map (·.start)) = [some 0] := by
  have hm : Suppresses "SuppressWarnings" .nestedReference leaksSuppressed := by
    refine ⟨by decide, fun n hn hid => ?_⟩
    have hdeclared : CompilationUnit.nestedReference.tree.preorder.all
        (fun n => n.id != leaksSuppressed.target || n.kind.isDeclaration) = true := by decide
    simpa [hid] using hn.all rfl hdeclared
  obtain ⟨hreport, hreport', -⟩ := analyze_annotated CompilationUnit.nestedReference_isCoherent
    leaksAndDraws_isBuiltin rfl hm (by decide) {}
  have hsorted : leaksAndDraws.reported .nestedReference ⟨"Made", "Made_"⟩ ⟨"Random", "nextInt"⟩ =
      leaksAndDraws.placed .nestedReference ⟨"Made", "Made_"⟩ ⟨"Random", "nextInt"⟩ :=
    List.mergeSort_of_pairwise (by decide)
  rw [hsorted] at hreport hreport'
  exact ⟨_, _, hreport, hreport', by decide, by decide⟩

end Analyzer

end TreeLint
