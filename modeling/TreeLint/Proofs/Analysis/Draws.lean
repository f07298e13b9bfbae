/-
What an analysis takes for random draws. A call goes by the method that its function expression denotes. Where
that expression is a call in turn, this is the method that the inner call goes by, whatever the outer one calls, so
that a remainder of what a draw gives may be reported as one of the draw. Main statement: `analyze_draws`.
-/
import TreeLint.Proofs.Analysis.Enabled
import TreeLint.Proofs.Facts.Shape
import TreeLint.Proofs.Pattern.Match

namespace TreeLint

/-! ## Matches -/

namespace RandomRemainder

variable {n : Node} {names : Names} {resolver : Resolver}

theorem admits_of_isMatch (h : ((rule names).pattern.isMatch n resolver).1 = true) :
    n.kind = .binary ∧ n.operator = some "%" ∧ ∃ call s, n.children[0]? = some call ∧ (draw names).Admits call s := by
  have hall : (Pattern.allMatch [.binary "%", .left (.call (draw names))] n resolver).1 = true := h
  obtain ⟨⟨_, hbinary⟩, ⟨_, hleft⟩, -⟩ := List.forall_mem_cons.1 (Pattern.isMatch_of_allMatch hall) |>.imp_right
    List.forall_mem_cons.1
  obtain ⟨call, hoperand, hcall⟩ := Pattern.isMatch_of_left hleft
  obtain ⟨s, hs⟩ := CallPattern.admits_of_isMatch hcall
  obtain ⟨hkind, hoperator⟩ : n.kind = .binary ∧ n.operator = some "%" := by
    simpa using (show (decide (n.kind = .binary) && decide (n.operator = some "%")) = true from hbinary)
  rw [Pattern.operand?, if_pos hkind] at hoperand
  exact ⟨hkind, hoperator, call, s, hoperand, hs⟩

end RandomRemainder

/-! ## Calls -/

namespace Facts

variable {facts : Facts} {position : Nat} {f : FunctionFacts}

/-- A call of the function expression in a row. -/
def Form.Calls (form : Form) (callee : Nat) : Prop :=
  ∃ arguments keywords inferred, form = .call (some callee) arguments keywords inferred

/-- The function that a row declares, or that the inference comes up with for the name or attribute in it. -/
def ResolvesTo (facts : Facts) (position : Nat) (f : FunctionFacts) : Prop :=
  match facts.form position with
  | .function f' => f = f'
  | .name _ inferred _ | .memberAccess _ _ inferred => facts.Resolves inferred f
  | _ => False

/-- What is not a call denotes what it resolves to. -/
theorem denotes_iff_resolvesTo (h : ∀ callee, ¬ (facts.form position).Calls callee) :
    facts.Denotes position f ↔ facts.ResolvesTo position f := by
  rw [denotes_iff, ResolvesTo]
  cases hform : facts.form position with
  | call callee arguments keywords inferred =>
    cases callee with
    | none => rfl
    | some q => exact absurd ⟨_, _, _, hform⟩ (h q)
  | _ => rfl

end Facts

/-- A node made of a call of the function expression in a row. -/
def Node.IsCallOf (n : Node) (facts : Facts) (callee : Nat) : Prop :=
  ∃ position, n.id = 2 * position ∧ (facts.form position).Calls callee

namespace Facts

variable {r : Reading} {tree n : Node}

theorem Stands.isMethodOf {denotes : FunctionFacts → Prop} {symbol : Option Symbol} (h : Stands denotes symbol)
    {s : Symbol} (hs : s ∈ symbol) (hkind : s.kind.isMethod = true) : ∃ f, denotes f ∧ s.IsMethodOf f := by
  have hor : s.kind = .method ∨ s.kind = .constructor := by
    revert hkind
    cases s.kind <;> simp [SymbolKind.isMethod]
  exact h.method s hs (hor.resolve_right (h.kind s hs))

/-- An invocation goes by the method that its function expression denotes. -/
theorem Reading.Formed.invocation (htree : ∀ m ∈ tree.preorder, r.Formed m) (hn : n ∈ tree.preorder)
    (hkind : n.kind = .invocation) : ∃ callee, n.IsCallOf r.facts callee ∧ Stands (r.facts.Denotes callee) n.symbol ∧
      ∀ s, CallPattern.method? n = some s → ∃ f, r.facts.Denotes callee f ∧ s.IsMethodOf f := by
  obtain ⟨position, callee, arguments, keywords, inferred, first, rest, hid, hform, hchildren, hfirst⟩ :=
    (htree n hn).call hkind
  have hsymbol : Stands (r.facts.Denotes callee) n.symbol := by
    refine ((htree n hn).symbol position hid).congr fun f => ?_
    rw [denotes_iff, hform]
  have hcallee : n.callee = some first := by
    rw [Node.callee, if_pos hkind, hchildren]
    rfl
  have hmem : first ∈ tree.preorder := by
    refine Node.mem_preorder_of_child hn ?_
    rw [hchildren]
    exact List.mem_cons_self
  refine ⟨callee, ⟨position, hid, arguments, keywords, inferred, hform⟩, hsymbol, fun s hs => ?_⟩
  obtain ⟨hs, hmethod⟩ := Option.filter_eq_some_iff.1 hs
  rcases Option.or_eq_some_iff.1 hs with hs | ⟨-, hs⟩
  · exact hsymbol.isMethodOf hs hmethod
  · rw [hcallee] at hs
    exact ((htree first hmem).symbol callee hfirst).isMethodOf hs hmethod

end Facts

/-! ## Findings -/

/-- A remainder of a call without arguments, whose function expression denotes a method that is bound to an instance. -/
structure Facts.IsRemainder (facts : Facts) (method : String) (n call : Node) (callee : Nat) (f : FunctionFacts) :
    Prop where
  kind : n.kind = .binary
  operator : n.operator = some "%"
  left : n.children[0]? = some call
  arguments : call.arguments = []
  calls : call.IsCallOf facts callee
  denotes : facts.Denotes callee f
  binding : f.binding = .method
  name : f.name = some method

namespace RandomRemainder

variable {r : Facts.Reading} {tree n : Node} {names : Names} {resolver : Resolver}

theorem isRemainder_of_isMatch (htree : ∀ m ∈ tree.preorder, r.Formed m) (hn : n ∈ tree.preorder)
    (h : ((rule names).pattern.isMatch n resolver).1 = true) :
    ∃ call callee f, r.facts.IsRemainder names.method n call callee f := by
  obtain ⟨hkind, hoperator, call, s, hleft, hs⟩ := admits_of_isMatch h
  have hcall : call ∈ tree.preorder := Node.mem_preorder_of_child hn (List.mem_of_getElem? hleft)
  obtain ⟨callee, hcallee, -, hmethod⟩ := Facts.Reading.Formed.invocation htree hcall hs.kind
  obtain ⟨f, hf, hsf⟩ := hmethod s hs.method
  have hstatic : decide (f.binding ≠ .method) = false := hsf.isStatic.symm.trans hs.isStatic
  refine ⟨call, callee, f, hkind, hoperator, hleft, ?_, hcallee, hf, by simpa using hstatic, ?_⟩
  · exact List.length_eq_zero_iff.1 (Int.ofNat_eq_zero.1 (hs.arguments 0 rfl))
  · rw [hsf.name, hs.name names.method rfl]

end RandomRemainder

namespace Settings

/-- What an analysis with the rules that come with the program reports: the rules, with the fixes. -/
def reported (s : Settings) (u : CompilationUnit) : List (String × Option Fix) :=
  match (Analyzer.analyze { rules := .ofRules s.enabledRules, predicates := Suppression.usual "" } u {}).1 with
  | .ok report => report.diagnostics.map fun d => (d.rule, d.fix)
  | .error _ => []

theorem reported_eq {s : Settings} {u : CompilationUnit} {rules : RuleSet} {report : UnitReport}
    (hrules : s.ruleSet = .ok rules)
    (hreport : (Analyzer.analyze { rules, predicates := Suppression.usual "" } u {}).1 = .ok report) :
    report.diagnostics.map (fun d => (d.rule, d.fix)) = s.reported u := by
  cases s.ruleSet_eq.symm.trans hrules
  rw [reported, hreport]

end Settings

namespace FrontEnd

/-- Every invocation in a tree made of facts goes by the method that its function expression denotes, and by none if
that denotes none; every finding of the rule against remainders is of a call whose function expression denotes a method
with the name that is set. An expression that is no call denotes what the inference comes up with for it. -/
theorem analyze_draws (fe : FrontEnd) (path source : String) (log : Log) (s : Settings) (name : String)
    (provenance : Provenance) (p : Progress) {v : Value} {facts : Facts} {u : CompilationUnit} {log' : Log}
    (hread : (Facts.ofValue v).run = .ok (some facts)) (hparse : fe.parse path source = .facts facts)
    (hunit : fe.unitOf path source log = (.ok u, log')) :
    (∀ n ∈ u.tree.preorder, n.kind = .invocation →
      ∃ callee, n.IsCallOf facts callee ∧ Facts.Stands (facts.Denotes callee) n.symbol) ∧
    (∀ position, (∀ callee, ¬ (facts.form position).Calls callee) →
      ∀ f, facts.Denotes position f ↔ facts.ResolvesTo position f) ∧
    ∃ rules report, s.ruleSet = .ok rules ∧
      (Analyzer.analyze { rules, predicates := Suppression.usual name, provenance } u p).1 = .ok report ∧
      ∀ d ∈ report.diagnostics, d.rule = "RandomModInteger" → ∃ n ∈ u.tree.preorder, ∃ call callee f scene walk,
        facts.IsRemainder s.randomMethod n call callee f ∧ scene.unit = u ∧
        RandomRemainder.found ⟨s.randomType, s.randomMethod⟩ scene walk n = some d := by
  have htree := unitOf_formed hread hparse hunit
  refine ⟨fun n hn hkind => ?_, fun position h f => Facts.denotes_iff_resolvesTo h, ?_⟩
  · obtain ⟨callee, hcallee, hsymbol, -⟩ := Facts.Reading.Formed.invocation htree hn hkind
    exact ⟨callee, hcallee, hsymbol⟩
  let names : RandomRemainder.Names := ⟨s.randomType, s.randomMethod⟩
  let a : Analyzer := { rules := .ofRules s.enabledRules, predicates := Suppression.usual name, provenance }
  let P (d : Diagnostic) : Prop := d.rule = "RandomModInteger" → ∃ n ∈ u.tree.preorder, ∃ call callee f scene walk,
    facts.IsRemainder s.randomMethod n call callee f ∧ scene.unit = u ∧
    RandomRemainder.found names scene walk n = some d
  have hfix (d : Diagnostic) (hd : P d) : P (Analyzer.withSoundFix d) := by
    intro hrule
    rw [Analyzer.withSoundFix_rule] at hrule
    obtain ⟨n, hn, call, callee, f, scene, walk, hf, hunit, hfound⟩ := hd hrule
    have hsound : Analyzer.withSoundFix d = d := if_pos (RandomRemainder.found_sound hfound).2
    exact ⟨n, hn, call, callee, f, scene, walk, hf, hunit, hfound.trans (congrArg some hsound.symm)⟩
  have htrial (n : Node) (hn : n ∈ u.tree.preorder) (r : Rule) (hr : r ∈ a.rules.forKind n.kind) (walk : Walk) :
      (a.trial u r walk n).Completes (Session.Holds fun ds => ∀ d ∈ ds, P d) fun found => ∀ d ∈ found, P d := by
    refine Analyzer.trial_completes_builtin (Settings.eq_of_mem_enabledRules (RuleSet.mem_of_mem_forKind hr))
      (fun hrule walk m hd => ?_) fun hrule resolver hmatch d hd _ => ?_
    · subst hrule
      exact absurd hd (by show "GeneratedSubclassLeaked" ≠ "RandomModInteger"; decide)
    · subst hrule
      obtain ⟨call, callee, f, hf⟩ := RandomRemainder.isRemainder_of_isMatch htree hn hmatch
      exact ⟨n, hn, call, callee, f, _, walk, hf, rfl, hd⟩
  obtain ⟨report, hreport, -, hfound⟩ :=
    Analyzer.analyze_holds (a := a) (u := u) hfix (fun n hn r hr walk => htrial n hn r hr walk) p
  exact ⟨_, report, s.ruleSet_eq, hreport, hfound⟩

/-- A module that is a remainder by 6, in a text of some length, of the call in a row: row 4 is a draw, and row 3 a call
of the class that the draw gives. -/
def remainderOf (call length : Int) : Value :=
  let row (cls : String) (parts : Table) : Value := .table (("cls", .str cls) :: parts)
  let pos (start stop : Int) : Value := .list [.int 1, .int start, .int 1, .int stop]
  let infer (what : Value) : Value := .list [what]
  .table [
    ("nodes", .list [
      row "Module" [("name", .str "m"), ("body", .list [.int 1])],
      row "BinOp" [("op", .str "%"), ("left", .int call), ("right", .int 2), ("pos", pos 0 length)],
      row "Const" [("pytype", .str "int"), ("pos", pos (length - 1) length)],
      row "Call" [("func", .int 4), ("infer", infer (.table [("instance", .int 10)]))],
      row "Call" [("func", .int 5), ("infer", infer (.table [("ref", .int 10)]))],
      row "Attribute" [("name", .str "nextInt"), ("expr", .int 6),
        ("infer", infer (.table [("method", .table [("ref", .int 9)])]))],
      row "Name" [("name", .str "r"), ("infer", infer (.table [("instance", .int 8)])), ("pos", pos 0 1)],
      row "Module" [("name", .str "dice")],
      row "ClassDef" [("name", .str "Random"), ("qname", .str "dice.Random"), ("frame", .int 7)],
      row "FunctionDef" [("name", .str "nextInt"), ("ftype", .str "method"), ("frame", .int 8)],
      row "ClassDef" [("name", .str "int"), ("qname", .str "int")]]),
    ("root", .int 0)]

/-- Settings by which the generators are those of the class in `remainderOf`. -/
def diceSettings : Settings where
  table := [("random-mod-integer", .table [("random_type", .str "dice.Random")])]

theorem analyze_draws_remainder : ∃ facts u log rules report,
    (Facts.ofValue (remainderOf 4 15)).run = .ok (some facts) ∧
    (telling (remainderOf 4 15)).unitOf "m.py" "r.nextInt() % 6" [] = (.ok u, log) ∧
    diceSettings.ruleSet = .ok rules ∧
    (Analyzer.analyze { rules, predicates := Suppression.usual "" } u {}).1 = .ok report ∧
    report.diagnostics.map (fun d => (d.rule, d.fix)) =
      [("RandomModInteger", some ⟨[⟨⟨0, 15, by decide⟩, "r.nextInt(6)"⟩]⟩)] ∧
    ∀ d ∈ report.diagnostics, ∃ n ∈ u.tree.preorder, ∃ call callee f, facts.IsRemainder "nextInt" n call callee f := by
  obtain ⟨-, -, rules, report, hrules, hreport, hfound⟩ := analyze_draws (telling (remainderOf 4 15)) "m.py"
    "r.nextInt() % 6" [] diceSettings "" declaredProvenance {} (v := remainderOf 4 15) rfl rfl rfl
  have hreported : report.diagnostics.map (fun d => (d.rule, d.fix)) =
      [("RandomModInteger", some ⟨[⟨⟨0, 15, by decide⟩, "r.nextInt(6)"⟩]⟩)] := by
    rw [Settings.reported_eq hrules hreport, Settings.reported, (Analyzer.analyze_eq _ _ _).1]
    decide +kernel
  refine ⟨_, _, _, rules, report, rfl, rfl, hrules, hreport, hreported, fun d hd => ?_⟩
  have hrule : (d.rule, d.fix) ∈ report.diagnostics.map (fun d => (d.rule, d.fix)) := List.mem_map_of_mem hd
  rw [hreported, List.mem_singleton] at hrule
  obtain ⟨n, hn, call, callee, f, -, -, hf, -⟩ := hfound d hd (congrArg Prod.fst hrule)
  exact ⟨n, hn, call, callee, f, hf⟩

/-- What a draw gives may be called in turn. The remainder of that call is reported as well, and the fix would take
the call away. -/
theorem analyze_draws_called : ∃ facts u log remainder call inferred,
    (Facts.ofValue (remainderOf 3 17)).run = .ok (some facts) ∧
    (telling (remainderOf 3 17)).unitOf "m.py" "r.nextInt()() % 6" [] = (.ok u, log) ∧
    diceSettings.reported u = [("RandomModInteger", some ⟨[⟨⟨0, 17, by decide⟩, "r.nextInt(6)"⟩]⟩)] ∧
    u.tree.children = [remainder] ∧ remainder.children.head? = some call ∧ call.IsCallOf facts 4 ∧
    call.symbol.map (fun s => (s.kind, s.name)) = some (.method, "nextInt") ∧
    facts.form 4 = .call (some 5) [] [] inferred ∧ ∀ f, ¬ facts.Resolves inferred f := by
  refine ⟨_, _, _, _, _, _, rfl, rfl, ?_, rfl, rfl, ⟨3, rfl, [], [], _, rfl⟩, rfl, rfl, ?_⟩
  · rw [Settings.reported, (Analyzer.analyze_eq _ _ _).1]
    decide +kernel
  · rintro f ⟨i, position, hi, hposition, hform⟩
    cases hi
    cases hposition
    cases hform

end FrontEnd

end TreeLint
