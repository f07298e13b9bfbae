/-
Where remainders of unbounded draws are reported, and what mends them. A test on a node has one answer in the midst of
an analysis, so the pattern of the rule is a condition on the node alone, and the fix is one edit that is there just if
the texts that it is put together from are. Main statement: `analyze_remainders`.
-/
import TreeLint.Proofs.Analysis.Annotated
import TreeLint.Proofs.Analysis.ByRule
import TreeLint.Proofs.Fix.Splice

namespace TreeLint

variable {a : Analyzer} {u : CompilationUnit} {n call modulus : Node} {names : RandomRemainder.Names} {source : String}

/-! ## Calls -/

/-- Whether a type, if there is one, is the owner asked for. -/
def OwnerConstraint.fits (o : OwnerConstraint) (t : Option TypeRef) : Bool :=
  t.any fun t => if o.exactly then decide (t.erasure = o.type) else t.goesBy o.type

/-- Whether a node is a call of a method with all that a pattern asks for. -/
def CallPattern.fits (c : CallPattern) (n : Node) : Bool :=
  decide (n.kind = .invocation) && (method? n).any fun s =>
    decide (s.isStatic = c.isStatic) && c.name.all (· = s.name) &&
      c.parameterCount.all (· = (s.parameters.length : Int)) && c.argumentCount.all (· = (n.arguments.length : Int)) &&
      c.owner.all fun o => o.fits (n.receiver.bind (·.resolvedType)) || o.fits (s.enclosingClass.bind (·.type))

namespace Analyzer

theorem answerTo_ownedBy (a : Analyzer) (o : OwnerConstraint) (t : Option TypeRef) :
    a.answerTo (CallPattern.ownedBy o t) = o.fits t := by
  unfold CallPattern.ownedBy OwnerConstraint.fits
  cases o.exactly
  · exact a.answerTo_isSubtypeOfName t o.type
  · rfl

theorem not_any_ne {α : Type} [DecidableEq α] (o : Option α) (b : α) : (!o.any (· ≠ b)) = o.all (· = b) := by
  cases o <;> simp

/-- A test on a call has the same answer whatever was asked before. -/
theorem answerTo_call (hc : u.IsCoherent a.provenance) (c : CallPattern) (hn : u.HasNode n) :
    a.answerTo (c.isMatch n) = c.fits n := by
  unfold CallPattern.isMatch CallPattern.fits
  rw [answerTo_guarded, decide_not, Bool.not_not]
  cases hm : CallPattern.method? n with
  | none => rfl
  | some s =>
    dsimp only
    rw [answerTo_guarded, answerTo_guarded, answerTo_guarded, answerTo_guarded, decide_not, Bool.not_not,
      Bool.decide_eq_true, Bool.decide_eq_true, Bool.decide_eq_true, not_any_ne, not_any_ne, not_any_ne,
      Option.any_some]
    simp only [Bool.and_assoc]
    congr 5
    cases c.owner with
    | none => rfl
    | some o =>
      -- the declaring class is asked about only if the receiver does not fit, after what was asked about the receiver
      have hreceiver := CallPattern.ownedBy_lawful o (CallPattern.receiver_hasType hn)
      have hdeclaring := CallPattern.ownedBy_lawful o (CallPattern.declaring_hasType hn hm)
      refine (answerTo_bind hc hreceiver fun owned => .orElse true hdeclaring).trans ?_
      rw [answerTo_ownedBy, Option.all_some]
      cases o.fits (n.receiver.bind (·.resolvedType))
      · exact a.answerTo_ownedBy o _
      · rfl

/-- A conjunction is tested operand by operand. -/
theorem answerTo_allMatch (hc : u.IsCoherent a.provenance) (hn : u.HasNode n) : ∀ ps : List Pattern,
    a.answerTo (Pattern.allMatch ps n) = ps.all fun p => a.answerTo (p.isMatch n)
  | [] => rfl
  | p :: ps => by
    have hrest (found : Bool) : Query.Lawful u (if found then Pattern.allMatch ps n else pure false) := by
      cases found
      · exact .pure false
      · exact Pattern.allMatch_lawful ps hn
    unfold Pattern.allMatch
    refine (answerTo_bind hc (Pattern.isMatch_lawful p hn) hrest).trans ?_
    rw [List.all_cons, ← answerTo_allMatch hc hn ps]
    cases a.answerTo (p.isMatch n) <;> rfl

end Analyzer

/-! ## Remainders -/

namespace RandomRemainder

/-- Whether a node is an unbounded draw: a call without arguments of a method, not a static one, with the name that is
looked for, where the receiver or the declaring class is a generator. -/
def isDraw (names : Names) (call : Node) : Bool :=
  decide (call.kind = .invocation) && call.arguments.isEmpty &&
    (call.symbol.or (call.callee.bind (·.symbol))).any fun s =>
      s.kind.isMethod && !s.isStatic && decide (s.name = names.method) &&
        ((call.receiver.bind (·.resolvedType)).any (·.goesBy names.generatorType) ||
          (s.enclosingClass.bind (·.type)).any (·.goesBy names.generatorType))

/-- Whether a node is a remainder of an unbounded draw by something. -/
def isRemainder (names : Names) (n : Node) : Bool :=
  decide (n.kind = .binary) && decide (n.operator = some "%") && n.children[0]?.any (isDraw names) &&
    n.children[1]?.isSome

theorem fits_draw (names : Names) (call : Node) : (draw names).fits call = isDraw names call := by
  have hdraw : draw names =
    { isStatic := false, owner := some ⟨names.generatorType, false⟩, name := some names.method,
      argumentCount := some 0 } := rfl
  have howner (t : Option TypeRef) :
      OwnerConstraint.fits ⟨names.generatorType, false⟩ t = t.any (·.goesBy names.generatorType) := rfl
  have hcount : decide (0 = (call.arguments.length : Int)) = call.arguments.isEmpty := by
    cases call.arguments <;> simp
    omega
  unfold CallPattern.fits isDraw CallPattern.method?
  rw [Bool.and_assoc, hdraw]
  refine congrArg _ ?_
  cases call.symbol.or (call.callee.bind (·.symbol)) with
  | none => simp
  | some s =>
    simp only [Option.filter_some, Option.any_some, Option.all_some, Option.all_none, howner, hcount, Bool.and_true]
    cases s.kind.isMethod
    · simp
    · rw [if_pos rfl, Option.any_some, Bool.eq_iff_iff]
      simp only [Bool.and_eq_true, Bool.not_eq_true', decide_eq_true_eq, Bool.true_and]
      grind

/-- The pattern of the rule is a condition on the node. -/
theorem answerTo_pattern (hc : u.IsCoherent a.provenance) (names : Names) (hn : u.HasNode n) :
    a.answerTo ((rule names).pattern.isMatch n) =
      (decide (n.kind = .binary) && decide (n.operator = some "%") && n.children[0]?.any (isDraw names)) := by
  have hpattern : (rule names).pattern.isMatch n = Pattern.allMatch [.binary "%", .left (.call (draw names))] n := rfl
  have hleft : a.answerTo ((Pattern.left (.call (draw names))).isMatch n) =
      (Pattern.operand? n 0).any (isDraw names) := by
    unfold Pattern.isMatch
    cases hoperand : Pattern.operand? n 0 with
    | none => rfl
    | some call =>
      dsimp only
      unfold Pattern.isMatch
      rw [Analyzer.answerTo_call hc (draw names) (hn.operand hoperand), fits_draw]
      rfl
  have hbinary : a.answerTo ((Pattern.binary "%").isMatch n) =
      (decide (n.kind = .binary) && decide (n.operator = some "%")) := rfl
  rw [hpattern, Analyzer.answerTo_allMatch hc hn, List.all_cons, List.all_cons, List.all_nil, Bool.and_true, hbinary,
    hleft, Pattern.operand?]
  by_cases hkind : n.kind = .binary
  · rw [if_pos hkind]
  · rw [decide_eq_false hkind]
    rfl

/-! ## Fixes -/

/-- The text of a node that has a span inside the source. -/
def textAt (source : String) (n : Node) : String :=
  ((Source.span? source n).map (Source.slice source)).getD ""

/-- The name under which a draw is made bounded: that of what is called, if it has one. -/
def boundedName (names : Names) (call : Node) : String :=
  ((call.callee.bind (·.name)).filter (· ≠ "")).getD names.method

/-- The bounded draw with a modulus, on the receiver of the unbounded one, if there is one. -/
def bounded (names : Names) (source : String) (call modulus : Node) : String :=
  let drawn := boundedName names call ++ "(" ++ textAt source modulus ++ ")"
  call.receiver.elim drawn fun receiver =>
    let text := textAt source receiver
    (if isPrimary receiver.kind then text else "(" ++ text ++ ")") ++ "." ++ drawn

/-- The fix of a remainder. -/
def fixAt (names : Names) (source : String) (n : Node) : Option Fix := do
  let call ← n.children[0]?
  let modulus ← n.children[1]?
  (boundedDraw source (boundedName names call) n modulus call.receiver).toOption

theorem toOption_bind {α β : Type} (x : Except Fault α) (f : α → Except Fault β) :
    (x >>= f).toOption = x.toOption.bind fun a => (f a).toOption := by
  cases x <;> rfl

theorem textOf_eq (source : String) (n : Node) :
    (Source.textOf source n).toOption = if Source.hasSpan source n then some (textAt source n) else none := by
  unfold Source.textOf Source.spanOf Source.hasSpan textAt
  cases Source.span? source n <;> rfl

/-- The fix is one edit, and is there just if all that it is put together from has a place in the source. -/
theorem fixAt_eq (names : Names) (source : String) (hcall : n.children[0]? = some call)
    (hmodulus : n.children[1]? = some modulus) :
    fixAt names source n =
      if Source.hasSpan source modulus && call.receiver.all (Source.hasSpan source) then
        (Source.span? source n).map fun span => ⟨[⟨span, bounded names source call modulus⟩]⟩
      else none := by
  have hbuild (text : String) :
      (Fix.build source [.replace n text]).toOption = (Source.span? source n).map fun span => ⟨[⟨span, text⟩]⟩ := by
    rw [Fix.build_replace, Source.spanOf]
    cases Source.span? source n <;> rfl
  have hdraw : fixAt names source n =
      (boundedDraw source (boundedName names call) n modulus call.receiver).toOption := by
    rw [fixAt, hcall, hmodulus]
    rfl
  rw [hdraw]
  unfold boundedDraw bounded
  rw [toOption_bind, textOf_eq]
  cases Source.hasSpan source modulus with
  | false => rfl
  | true =>
    rw [if_pos rfl, Option.bind_some, Bool.true_and]
    cases call.receiver with
    | none => exact hbuild _
    | some receiver =>
      have hreceiver : (receiverText source receiver).toOption =
          if Source.hasSpan source receiver then
            some (if isPrimary receiver.kind then textAt source receiver else "(" ++ textAt source receiver ++ ")")
          else none := by
        rw [receiverText, toOption_bind, textOf_eq]
        cases Source.hasSpan source receiver <;> rfl
      dsimp only
      rw [toOption_bind, hreceiver, Option.all_some]
      cases Source.hasSpan source receiver
      · rfl
      · exact hbuild _

/-- One edit leaves the text around its span as it is. -/
theorem apply_edit {span : Span} (h : span.stop ≤ source.length) (text : String) :
    (Fix.mk [⟨span, text⟩]).apply source =
      .ok (String.ofList (source.toList.take span.start ++ text.toList ++ source.toList.drop span.stop)) := by
  have hin : ∀ e ∈ [(⟨span, text⟩ : Edit)], e.span.stop ≤ source.toList.length :=
    List.forall_mem_singleton.2 (String.length_toList ▸ h)
  rw [Fix.apply, Fix.applyTo_eq_splice (List.pairwise_singleton _ _) hin]
  rfl

theorem isSome_fixAt_iff (hcall : n.children[0]? = some call) (hmodulus : n.children[1]? = some modulus) :
    (fixAt names source n).isSome = true ↔ Source.hasSpan source n = true ∧ Source.hasSpan source modulus = true ∧
      ∀ receiver ∈ call.receiver, Source.hasSpan source receiver = true := by
  have hreceivers : call.receiver.all (Source.hasSpan source) = true ↔
      ∀ receiver ∈ call.receiver, Source.hasSpan source receiver = true := Option.all_eq_true _ _
  rw [fixAt_eq names source hcall hmodulus, ← hreceivers, ← Bool.and_eq_true]
  cases Source.hasSpan source modulus && call.receiver.all (Source.hasSpan source)
  · exact ⟨nofun, fun h => nomatch h.2⟩
  · rw [if_pos rfl, Option.isSome_map]
    exact (and_iff_left rfl).symm

/-- The fix puts the bounded draw in place of the remainder. -/
theorem apply_fixAt (hcall : n.children[0]? = some call) (hmodulus : n.children[1]? = some modulus) :
    ∀ fix ∈ fixAt names source n, ∃ span ∈ Source.span? source n,
      fix = ⟨[⟨span, bounded names source call modulus⟩]⟩ ∧
      fix.apply source = .ok (String.ofList (source.toList.take span.start ++
        (bounded names source call modulus).toList ++ source.toList.drop span.stop)) := by
  intro fix hfix
  rw [fixAt_eq names source hcall hmodulus] at hfix
  split at hfix
  · obtain ⟨span, hspan, rfl⟩ := Option.map_eq_some_iff.1 hfix
    have hinside : span.stop ≤ source.length := of_decide_eq_true (Option.filter_eq_some_iff.1 hspan).2
    exact ⟨span, hspan, rfl, apply_edit hinside _⟩
  · cases hfix

/-- What the rule finds at a spot: the remainder of an unbounded draw, if the node is one. -/
theorem finding_placedBy_eq {q : Spot} (hc : u.IsCoherent a.provenance) (hn : u.HasNode q.node)
    (leaked : LeakedSubclass.Names) :
    (a.placedBy u leaked names q (rule names)).map Analyzer.Placed.finding =
      if isRemainder names q.node then [q.finding u (rule names).toRuleInfo (fixAt names u.source q.node)] else [] := by
  rw [Analyzer.placedBy_random, answerTo_pattern hc names hn, isRemainder]
  cases hpattern : decide (q.node.kind = .binary) && decide (q.node.operator = some "%") &&
      q.node.children[0]?.any (isDraw names)
  · rfl
  · rw [if_pos rfl, Bool.true_and, List.map_map]
    obtain ⟨call, hcall, -⟩ := (Option.any_eq_true _ _).1 ((Bool.and_eq_true _ _).mp hpattern).2
    unfold found fixAt
    rw [hcall]
    cases q.node.children[1]? with
    | none => rfl
    | some modulus =>
      exact congrArg (fun d => [d]) (Analyzer.finding_eq (a.path_placeAt q) _)

/-- The report has one finding of the rule at each remainder of an unbounded draw that is visited and at which the rule
is not suppressed, and no other. It comes with a fix just if the remainder, the modulus and the receiver, if there is
one, have places in the source; then the remainder is replaced by the bounded draw, and the text around it stays. -/
theorem analyze_remainders {rules : List Rule} {p : Progress} (hrules : Registry.ofRules rules = .ok a.rules)
    (hr : rule names ∈ rules) (hc : u.IsCoherent a.provenance) (ha : a.Lawful u) (hpc : p.cancelled = false)
    (hothers : ∀ i ∈ a.invocations u, i.rule.id ≠ (rule names).id → a.TidyAt u p i) :
    ∃ report, (a.analyze u p).1 = .ok report ∧
      report.byRule "RandomModInteger" = Diagnostic.sorted
        ((u.spots.filter fun q => a.isOpen "RandomModInteger" q && isRemainder names q.node).map fun q =>
          q.finding u (rule names).toRuleInfo (fixAt names u.source q.node)) ∧
      ∀ n call modulus, n.children[0]? = some call → n.children[1]? = some modulus →
        ((fixAt names u.source n).isSome = true ↔
          Source.hasSpan u.source n = true ∧ Source.hasSpan u.source modulus = true ∧
            ∀ receiver ∈ call.receiver, Source.hasSpan u.source receiver = true) ∧
        ∀ fix ∈ fixAt names u.source n, ∃ span ∈ Source.span? u.source n,
          fix = ⟨[⟨span, bounded names u.source call modulus⟩]⟩ ∧
          fix.apply u.source = .ok (String.ofList (u.source.toList.take span.start ++
            (bounded names u.source call modulus).toList ++ u.source.toList.drop span.stop)) := by
  have hbuiltin : rule names = LeakedSubclass.rule ⟨"", ""⟩ ∨ rule names = rule names := .inr rfl
  obtain ⟨report, hreport, hfound⟩ := Analyzer.analyze_builtinRule hrules hr hbuiltin hc ha hpc hothers
  refine ⟨report, hreport, hfound.trans (congrArg Diagnostic.sorted ?_), fun n call modulus hcall hmodulus =>
    ⟨isSome_fixAt_iff hcall hmodulus, apply_fixAt hcall hmodulus⟩⟩
  rw [List.map_eq_flatMap, Analyzer.flatMap_filter, Analyzer.flatMap_filter]
  refine List.flatMap_congr fun q hq => ?_
  have hkinds : decide (q.node.kind ∈ (rule names).kinds) = decide (q.node.kind = .binary) :=
    decide_eq_decide.2 List.mem_singleton
  have hid : (rule names).id = "RandomModInteger" := rfl
  rw [hkinds, hid, finding_placedBy_eq hc (CompilationUnit.hasNode_of_mem_spots hq), isRemainder]
  cases a.isOpen "RandomModInteger" q <;> cases decide (q.node.kind = .binary) <;> rfl

end RandomRemainder

/-! ## Three remainders -/

/-- Remainders of draws, two of them on a receiver that has to be put in parentheses. The last is where the rule is
suppressed. -/
def CompilationUnit.drawn : CompilationUnit where
  path := "drawn.py"
  source := "pick = r.nextInt() % n\nroll = (f or g).nextInt() % 2\ntoss = (f or g).nextInt() % 3"
  tree :=
    let draw (id : Nat) (receiver : Node) : Node :=
      { id, kind := .invocation, children := [{
          id := id + 1, kind := .memberAccess, name := some "nextInt", children := [receiver],
          symbol := some { name := "nextInt", kind := .method } }] }
    let random : Option TypeRef := some { qualifiedName := "Random" }
    { id := 0
      kind := .compilationUnit
      children := [
        { id := 1, kind := .binary, operator := some "%", span := some ⟨7, 22, by decide⟩, children := [
          draw 2 { id := 4, kind := .identifier, type := random, span := some ⟨7, 8, by decide⟩ },
          { id := 5, kind := .identifier, span := some ⟨21, 22, by decide⟩ }] },
        { id := 6, kind := .binary, operator := some "%", span := some ⟨30, 52, by decide⟩, children := [
          draw 7 { id := 9, kind := .binary, type := random, span := some ⟨31, 37, by decide⟩ },
          { id := 10, kind := .literal, span := some ⟨51, 52, by decide⟩ }] },
        { id := 11, kind := .method, annotations := [⟨"SuppressWarnings", ["RandomModInteger"]⟩], children := [
          { id := 12, kind := .binary, operator := some "%", span := some ⟨60, 82, by decide⟩, children := [
            draw 13 { id := 15, kind := .binary, type := random, span := some ⟨61, 67, by decide⟩ },
            { id := 16, kind := .literal, span := some ⟨81, 82, by decide⟩ }] }] }] }

theorem CompilationUnit.drawn_isCoherent : drawn.IsCoherent declaredProvenance :=
  isCoherent_of_plain fun _ => HasNode.all rfl (by decide)

namespace RandomRemainder

theorem analyze_remainders_drawn : ∃ report, (Analyzer.leaksAndDraws.analyze .drawn {}).1 = .ok report ∧
    (report.byRule "RandomModInteger").map (·.fix) =
      [some ⟨[⟨⟨7, 22, by decide⟩, "r.nextInt(n)"⟩]⟩, some ⟨[⟨⟨30, 52, by decide⟩, "(f or g).nextInt(2)"⟩]⟩] := by
  let rules : List Rule := [LeakedSubclass.rule ⟨"Made", "Made_"⟩, rule ⟨"Random", "nextInt"⟩]
  have hrules : Registry.ofRules rules = .ok Analyzer.leaksAndDraws.rules := rfl
  have hr : rule ⟨"Random", "nextInt"⟩ ∈ rules := List.mem_cons_of_mem _ List.mem_cons_self
  have hc := CompilationUnit.drawn_isCoherent
  have hp := Suppression.usual_lawful (u := .drawn) "SuppressWarnings"
  have hb := Analyzer.leaksAndDraws_isBuiltin
  obtain ⟨report, hreport, hfound, -⟩ := analyze_remainders hrules hr hc (hb.lawful hp) (p := {}) rfl fun i hi _ =>
    hb.tidy hc hp rfl i hi
  refine ⟨report, hreport, ?_⟩
  rw [hfound, Diagnostic.sorted, List.mergeSort_of_pairwise (by decide +kernel)]
  decide +kernel

end RandomRemainder

end TreeLint
