/-
Where references to leaked subclasses are reported. The marked types are those of the whole tree, and the scan that the
rule starts at the root finds the references at the spots that the walk around it comes to. Main statement:
`analyze_leaks`.
-/
import TreeLint.Proofs.Analysis.Annotated
import TreeLint.Proofs.Analysis.ByRule

namespace TreeLint.LeakedSubclass

variable {a : Analyzer} {u : CompilationUnit} {n : Node} {names : Names}

/-! ## Marked types -/

/-- Whether a property of the name of a type holds of some marked class in a tree. -/
def ofMarked (marker : String) (root : Node) (f : String → Bool) : Bool :=
  root.preorder.any fun m => decide (m.kind = .classDecl) && m.carries marker && m.resolvedType.any (f ·.erasure)

/-- A type that is left out goes by the name of one that is there. -/
theorem any_addType (f : String → Bool) (types : List TypeRef) (t : TypeRef) :
    (addType types t).any (f ·.erasure) = (types.any (f ·.erasure) || f t.erasure) := by
  unfold addType
  split
  · rename_i hsame
    -- equal types need not have the same supertypes, but do have the same name
    obtain ⟨s, hs, hkey⟩ := List.any_eq_true.1 hsame
    have hname : s.erasure = t.erasure := erasure_eq_of_key (eq_of_beq hkey)
    cases hf : f t.erasure
    · rw [Bool.or_false]
    · rw [Bool.or_true, List.any_eq_true]
      exact ⟨s, hs, by rw [hname, hf]⟩
  · rw [List.any_append, List.any_cons, List.any_nil, Bool.or_false]

theorem any_foldl_addType (f : String → Bool) (ts types : List TypeRef) :
    (ts.foldl addType types).any (f ·.erasure) = (types.any (f ·.erasure) || ts.any (f ·.erasure)) := by
  induction ts generalizing types with
  | nil => rw [List.foldl_nil, List.any_nil, Bool.or_false]
  | cons t ts ih => rw [List.foldl_cons, ih, any_addType, List.any_cons, Bool.or_assoc]

theorem any_markedTypes (marker : String) (root : Node) (f : String → Bool) :
    (markedTypes marker root).any (f ·.erasure) = ofMarked marker root f := by
  rw [markedTypes, any_foldl_addType, List.any_nil, Bool.false_or, ofMarked, List.any_filterMap]
  refine List.any_congr rfl fun m => ?_
  unfold markedType?
  by_cases hkind : m.kind = .classDecl
  · simp only [hkind, true_and, decide_true, Bool.true_and]
    cases m.carries marker
    · rfl
    · simp only [if_true, Bool.true_and]
      cases m.resolvedType <;> rfl
  · simp only [hkind, false_and, if_false, decide_false, Bool.false_and]

/-! ## Leaked references -/

/-- Whether a node refers to a generated class that descends from no marked class of the tree. -/
def leaks (names : Names) (root n : Node) : Bool :=
  isReferenceKind n.kind && n.symbol.any fun s =>
    s.kind.isType && names.generatedStart.toList.isPrefixOf s.name.toList &&
      !ofMarked names.marker root fun base => (s.type.or n.resolvedType).any (·.goesBy base)

/-- A reference has one answer in the midst of an analysis. -/
theorem answerTo_isLeaked (hc : u.IsCoherent a.provenance) (hn : u.HasNode n) (names : Names) (root : Node) :
    a.answerTo (isLeaked names.generatedStart (markedTypes names.marker root) n) =
      n.symbol.any fun s => s.kind.isType && names.generatedStart.toList.isPrefixOf s.name.toList &&
        !ofMarked names.marker root fun base => (s.type.or n.resolvedType).any (·.goesBy base) := by
  unfold isLeaked
  cases hs : n.symbol with
  | none => rfl
  | some s =>
    have hbelow (t : TypeRef) : Query.Lawful u (Resolver.isSubtype (s.type.or n.resolvedType) (some t)) :=
      .isSubtype (referenced_hasType hn hs) (some t)
    have howned : a.answerTo ((markedTypes names.marker root).anyM fun t =>
        Resolver.isSubtype (s.type.or n.resolvedType) (some t)) =
        ofMarked names.marker root fun base => (s.type.or n.resolvedType).any (·.goesBy base) := by
      rw [Analyzer.answerTo_anyM hc fun t _ => hbelow t, ← any_markedTypes]
      exact List.any_congr rfl fun t => a.answerTo_isSubtypeOfName _ t.erasure
    dsimp only
    rw [Analyzer.answerTo_guarded, Analyzer.answerTo_guarded, Option.any_some]
    rw [Analyzer.answerTo_bind hc (.anyM fun t _ => hbelow t) fun found => .pure (!found), howned]
    simp only [Bool.decide_eq_true, Bool.not_not, Bool.and_assoc]
    rfl

theorem isLeakAt_eq (hc : u.IsCoherent a.provenance) (hn : u.HasNode n) (names : Names) (root : Node) :
    a.isLeakAt names root n = leaks names root n := by
  rw [Analyzer.isLeakAt, answerTo_isLeaked hc hn, leaks]

/-! ## The report -/

/-- In a unit with no other unit inside, the rule is tried at the root only. -/
theorem spots_of_kind (hinside : ∀ n ∈ Node.preorderAll u.tree.children, n.kind ≠ .compilationUnit)
    (names : Names) :
    u.spots.filter (fun q => decide (q.node.kind ∈ (rule names).kinds)) = [⟨[], u.tree⟩] := by
  have hkinds (k : NodeKind) : k ∈ (rule names).kinds ↔ k = .compilationUnit := List.mem_singleton
  have hspots : u.spots = ⟨[], u.tree⟩ :: Node.spotsAll (fun _ => false) [u.tree] u.tree.children :=
    Node.spots_eq _ [] u.tree
  rw [hspots, List.filter_cons, if_pos (decide_eq_true ((hkinds u.tree.kind).2 u.kind_tree))]
  refine congrArg _ (List.filter_eq_nil_iff.2 fun q hq => ?_)
  have hnode : q.node ∈ Node.preorderAll u.tree.children := by
    rw [← Node.map_node_spots.2 u.tree.children [u.tree]]
    exact List.mem_map_of_mem hq
  rw [decide_eq_true_eq, hkinds]
  exact hinside q.node hnode

/-- Tried at the root, the rule makes a finding at each spot that is open to it and has a leaked reference. -/
theorem finding_placedBy_root (hc : u.IsCoherent a.provenance) (random : RandomRemainder.Names) :
    (a.placedBy u names random ⟨[], u.tree⟩ (rule names)).map Analyzer.Placed.finding =
      (u.spots.filter fun q => a.isOpen (rule names).id q && leaks names u.tree q.node).map fun q =>
        q.finding u (rule names).toRuleInfo none := by
  have hleaks : a.leaksAt u names ⟨[], u.tree⟩ =
      ((a.visited u).filter fun m => a.isLeakAt names u.tree m.node && !(a.placeAt m).isSuppressed (rule names).id).map
        fun m => ⟨m, RuleM.finding (a.sceneFor u (rule names)) (a.placeBelow ⟨[], u.tree⟩ m) m.node none⟩ := rfl
  -- the scan from the root leaves out what the walk around it leaves out
  have hkept : ((a.visited u).filter fun m =>
      a.isLeakAt names u.tree m.node && !(a.placeAt m).isSuppressed (rule names).id) =
      u.spots.filter fun q => a.isOpen (rule names).id q && leaks names u.tree q.node := by
    rw [← List.filter_filter, Analyzer.visited_filter, List.filter_filter]
    refine List.filter_congr fun q hq => ?_
    rw [isLeakAt_eq hc (CompilationUnit.hasNode_of_mem_spots hq), Bool.and_comm]
  rw [Analyzer.placedBy_leaked, hleaks, hkept, List.map_map]
  refine List.map_congr_left fun q _ => Analyzer.finding_eq ?_ none
  rw [Analyzer.placeBelow, Walk.path_along]
  exact List.append_nil _

/-- In a unit with no other unit inside, the report has one finding of the rule, without a fix, at each leaked
reference that is visited and at which the rule is not suppressed, and no other. What is marked is looked for in the
whole tree. -/
theorem analyze_leaks {rules : List Rule} {p : Progress} (hrules : Registry.ofRules rules = .ok a.rules)
    (hr : rule names ∈ rules) (hc : u.IsCoherent a.provenance) (ha : a.Lawful u) (hpc : p.cancelled = false)
    (hothers : ∀ i ∈ a.invocations u, i.rule.id ≠ (rule names).id → a.TidyAt u p i)
    (hinside : ∀ n ∈ Node.preorderAll u.tree.children, n.kind ≠ .compilationUnit) :
    ∃ report, (a.analyze u p).1 = .ok report ∧
      report.byRule "GeneratedSubclassLeaked" = Diagnostic.sorted
        ((u.spots.filter fun q => a.isOpen "GeneratedSubclassLeaked" q && leaks names u.tree q.node).map fun q =>
          q.finding u (rule names).toRuleInfo none) := by
  have hbuiltin : rule names = rule names ∨ rule names = RandomRemainder.rule ⟨"", ""⟩ := .inl rfl
  obtain ⟨report, hreport, hfound⟩ := Analyzer.analyze_builtinRule hrules hr hbuiltin hc ha hpc hothers
  refine ⟨report, hreport, hfound.trans (congrArg Diagnostic.sorted ?_)⟩
  have hsplit : (u.spots.filter fun q => decide (q.node.kind ∈ (rule names).kinds) && a.isOpen (rule names).id q) =
      [(⟨[], u.tree⟩ : Spot)].filter (a.isOpen (rule names).id) := by
    rw [← spots_of_kind hinside names, List.filter_filter]
    exact List.filter_congr fun q _ => Bool.and_comm ..
  rw [hsplit]
  cases hopen : a.isOpen (rule names).id ⟨[], u.tree⟩
  · -- the root is on the way to every spot, so nothing is open to the rule where it is not tried
    have hclosed :
        (u.spots.filter fun q => a.isOpen "GeneratedSubclassLeaked" q && leaks names u.tree q.node) = [] := by
      refine List.filter_eq_nil_iff.2 fun q hq hkept => ?_
      have habove : Spot.chain ⟨[], u.tree⟩ <+: q.chain := (Node.prefix_chain _).1 u.tree [] q hq
      have hbelow := ((Bool.and_eq_true _ _).mp hkept).1
      exact Bool.false_ne_true (hopen.symm.trans (Analyzer.isOpen_of_prefix habove hbelow))
    rw [List.filter_cons_of_neg (by simp [hopen]), hclosed]
    rfl
  · rw [List.filter_cons_of_pos hopen, List.filter_nil, List.flatMap_singleton]
    exact finding_placedBy_root hc _

end TreeLint.LeakedSubclass

namespace TreeLint

/-! ## A marked class in a generated one -/

def TypeRef.base : TypeRef := { qualifiedName := "Base" }

def TypeRef.madeBase : TypeRef := { qualifiedName := "Made_Base", supertypes := [base] }

/-- References to two generated classes. The marked class that one of them descends from comes after them, in a class
that is passed over. -/
def CompilationUnit.markedLast : CompilationUnit where
  path := "marked.py"
  source := "from tables import Made_Base, Made_List\nMade_List"
  tree := {
    id := 0
    kind := .compilationUnit
    children := [
      { id := 1, kind := .identifier, span := some ⟨19, 28, by decide⟩,
        symbol := some { name := "Made_Base", kind := .classDecl, type := some .madeBase } },
      { id := 2, kind := .identifier, symbol := some { name := "Made_List", kind := .classDecl },
        span := some ⟨30, 39, by decide⟩ },
      { id := 3, kind := .classDecl, children := [
          { id := 4, kind := .classDecl, type := some .base, annotations := [⟨"Made", []⟩] },
          { id := 5, kind := .identifier, symbol := some { name := "Made_List", kind := .classDecl },
            span := some ⟨40, 49, by decide⟩ }],
        symbol := some { name := "Tables", kind := .classDecl, generatedBy := .ofList ["tables"] } }] }

namespace CompilationUnit

theorem markedLast_node {n : Node} (hn : markedLast.HasNode n) :
    (∀ t ∈ n.type, t = .base) ∧ ∀ s ∈ n.symbol, s.owner = none ∧ (∀ t ∈ s.type, t = .madeBase) ∧
      s.generatedBy.toList = if s.name = "Tables" then ["tables"] else [] := by
  rcases hn with hn | ⟨m, hm, -⟩
  · simp only [markedLast, Node.preorder, Node.preorderAll, List.append_nil, List.mem_cons, List.cons_append,
      List.nil_append, List.not_mem_nil, or_false] at hn
    rcases hn with rfl | rfl | rfl | rfl | rfl | rfl
    all_goals simp
    all_goals decide
  · exact absurd hm (Array.not_mem_empty m)

theorem markedLast_symbol {s : Symbol} (hs : markedLast.HasSymbol s) :
    s.owner = none ∧ (∀ t ∈ s.type, t = .madeBase) ∧
      s.generatedBy.toList = if s.name = "Tables" then ["tables"] else [] := by
  induction hs with
  | ofNode hn hs => exact (markedLast_node hn).2 _ hs
  | owner _ ho ih => exact nomatch ih.1.symm.trans ho

theorem markedLast_type {t : TypeRef} (ht : markedLast.HasType t) : t = .base ∨ t = .madeBase := by
  induction ht with
  | ofNode hn ht => exact .inl ((markedLast_node hn).1 _ ht)
  | ofSymbol hs ht => exact .inr ((markedLast_symbol hs).2.1 _ ht)
  | argument _ ha ih => rcases ih with rfl | rfl <;> cases ha
  | supertype _ ha ih =>
    rcases ih with rfl | rfl
    · cases ha
    · exact .inl (List.mem_singleton.1 ha)

theorem markedLast_isCoherent : markedLast.IsCoherent declaredProvenance where
  supertypes s t hs ht hkey := by
    have hname : s.erasure = t.erasure := erasure_eq_of_key hkey
    rcases markedLast_type hs with rfl | rfl <;> rcases markedLast_type ht with rfl | rfl
    · rfl
    · exact absurd hname (by decide)
    · exact absurd hname (by decide)
    · rfl
  mechanisms s t hs ht hkey := by
    have hname : s.name = t.name := congrArg SymbolHead.name (Symbol.head_eq_of_key hkey)
    refine NameSet.ext fun z => ?_
    rw [declaredProvenance, declaredProvenance, NameSet.mem_def, NameSet.mem_def, (markedLast_symbol hs).2.2,
      (markedLast_symbol ht).2.2, hname]

end CompilationUnit

namespace LeakedSubclass

theorem analyze_leaks_markedLast : ∃ report, (Analyzer.leaksAndDraws.analyze .markedLast {}).1 = .ok report ∧
    (report.byRule "GeneratedSubclassLeaked").map (fun d => (d.span.map (·.start), d.fix)) = [(some 30, none)] := by
  let rules : List Rule := [rule ⟨"Made", "Made_"⟩, RandomRemainder.rule ⟨"Random", "nextInt"⟩]
  have hrules : Registry.ofRules rules = .ok Analyzer.leaksAndDraws.rules := rfl
  have hc := CompilationUnit.markedLast_isCoherent
  have hp := Suppression.usual_lawful (u := .markedLast) "SuppressWarnings"
  have hb := Analyzer.leaksAndDraws_isBuiltin
  obtain ⟨report, hreport, hfound⟩ := analyze_leaks hrules List.mem_cons_self hc (hb.lawful hp) (p := {}) rfl
    (fun i hi _ => hb.tidy hc hp rfl i hi) (by decide)
  refine ⟨report, hreport, ?_⟩
  rw [hfound, Diagnostic.sorted, List.mergeSort_of_pairwise (by decide +kernel)]
  decide +kernel

end LeakedSubclass

end TreeLint
