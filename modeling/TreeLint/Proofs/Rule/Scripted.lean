/-
The rules at hand are lawful: every script, and the rules that come with the program.
-/
import TreeLint.Proofs.Rule.Builtin
import TreeLint.Proofs.Rule.Lawful
import TreeLint.Rule.Script

namespace TreeLint

variable {u : CompilationUnit}

/-- A rule whose test and whose description of a match are lawful at the nodes of a unit. -/
structure Rule.Lawful (u : CompilationUnit) (r : Rule) : Prop where
  test : ∀ n, u.HasNode n → Query.Lawful u (r.test n)
  describe : ∀ n, u.HasNode n → RuleM.Lawful u (r.describe n)

/-! ## Findings -/

namespace RuleM

theorem keepFix_lawful (n : Node) (fix : Except Fault (Option Fix)) : Lawful u (keepFix n fix) := by
  unfold keepFix
  cases fix with
  | ok f => exact .pure f
  | error f =>
    exact .ite (.look fun _ _ => (Lawful.tell _ _ _).bind fun _ => .pure none) (.ofExcept _)

theorem describeMatch_lawful (n : Node) (message : Option String) (fix : Except Fault (Option Fix)) :
    Lawful u (describeMatch n message fix) :=
  .look fun _ _ => .traversal fun _ _ => (keepFix_lawful n fix).bind fun _ => .pure _

end RuleM

/-! ## Scripts -/

namespace Script

theorem select_hasNode {s : Selector} {n m : Node} (hn : u.HasNode n) (h : s.select u n = .ok m) : u.HasNode m := by
  cases s with
  | node =>
    cases h
    exact hn
  | receiver =>
    cases h
    cases hr : n.receiver with
    | none => exact hn
    | some m => exact hn.receiver hr
  | child index =>
    cases h
    cases hc : n.child? index with
    | none => exact hn
    | some m =>
      cases index with
      | ofNat i => exact hn.child (List.mem_of_getElem? hc)
      | negSucc i => cases hc
  | pooled position =>
    have hat : (fun index : Fin u.pool.size => u.pool[index]) <$> indexOf u.pool.size position = .ok m := h
    cases hi : indexOf u.pool.size position with
    | error f =>
      rw [hi] at hat
      cases hat
    | ok index =>
      rw [hi] at hat
      cases hat
      exact .inr ⟨u.pool[index], Array.getElem_mem index.isLt, Node.mem_preorder_self _⟩

theorem findAt_lawful (target : Selector) (message : Option String) (fix : FixScript) (n : Node) :
    RuleM.Lawful u (findAt target message fix n) := by
  refine .look fun scene hs => ?_
  cases fix with
  | none => exact (RuleM.Lawful.ofExcept _).bind fun found => RuleM.describeMatch_lawful found message _
  | raw edits =>
    exact (RuleM.Lawful.ofExcept _).bind fun fix => (RuleM.Lawful.ofExcept _).bind fun found =>
      RuleM.describeMatch_lawful found message _
  | built edits => exact (RuleM.Lawful.ofExcept _).bind fun found => RuleM.describeMatch_lawful found message _

mutual

theorem runAction_lawful : ∀ (action : Action) {n : Node}, u.HasNode n → RuleM.Lawful u (runAction action n)
  | .report target message fix, n, _ =>
    (findAt_lawful target message fix n).bind fun d => (RuleM.Lawful.report d).bind fun _ => .pure none
  | .answer target message fix, n, _ => (findAt_lawful target message fix n).map some
  | .reportRaw finding, _, _ =>
    (RuleM.Lawful.ofExcept finding.diagnostic).bind fun d => (RuleM.Lawful.report d).bind fun _ => .pure none
  | .answerRaw finding, _, _ => (RuleM.Lawful.ofExcept finding.diagnostic).map some
  | .quote target, n, _ =>
    .look fun _ _ => (RuleM.Lawful.ofExcept _).bind fun text =>
      (RuleM.describeMatch_lawful n (some text) _).bind fun d => (RuleM.Lawful.report d).bind fun _ => .pure none
  | .fail fault, _, _ => .ofExcept _
  | .cancel, _, _ => RuleM.Lawful.cancel.bind fun _ => .pure none
  | .scan root kinds body, n, hn => by
    refine .look fun scene hs => .ofExcept_bind fun start hstart => (RuleM.Lawful.ofExcept _).bind fun kinds => ?_
    rw [hs.unit] at hstart
    refine (RuleM.Lawful.scanBelow (select_hasNode hn hstart) fun m hm handle hmem => ?_).bind fun _ => .pure none
    split at hmem
    · rcases List.mem_singleton.1 hmem with rfl
      exact (runActions_lawful body hm).map fun _ => ()
    · cases hmem

theorem runActions_lawful : ∀ (actions : List Action) {n : Node}, u.HasNode n → RuleM.Lawful u (runActions actions n)
  | [], _, _ => .pure none
  | action :: rest, _, hn => (runAction_lawful action hn).bind fun answer => by
    cases answer with
    | some d => exact .pure (some d)
    | none => exact runActions_lawful rest hn

end

theorem rule_lawful (info : RuleInfo) (actions : List Action) : (rule info actions).Lawful u where
  test _ hn := (Pattern.isMatch_lawful info.pattern hn).map Except.ok
  describe _ hn := runActions_lawful actions hn

end Script

/-! ## The rules that come with the program -/

theorem LeakedSubclass.referenced_hasType {n : Node} (hn : u.HasNode n) {s : Symbol} (hs : s ∈ n.symbol) :
    ∀ t ∈ s.type.or n.resolvedType, u.HasType t := by
  intro t ht
  rcases Option.or_eq_some_iff.1 ht with ht | ⟨-, ht⟩
  · exact .ofSymbol (hn.symbol s hs) ht
  · exact hn.resolvedType t ht

theorem LeakedSubclass.isLeaked_lawful (generatedStart : String) (owned : List TypeRef) {n : Node} (hn : u.HasNode n) :
    Query.Lawful u (isLeaked generatedStart owned n) := by
  unfold isLeaked
  cases hs : n.symbol with
  | none => exact .pure false
  | some s =>
    refine .orElse false (.orElse false ?_)
    have hreferenced := referenced_hasType hn hs
    exact (Query.Lawful.anyM fun t _ => .isSubtype hreferenced (some t)).bind fun found => .pure (!found)

theorem LeakedSubclass.handlers_lawful (names : Names) (root : Node) {n : Node} (hn : u.HasNode n) :
    ∀ handle ∈ handlers names root n.kind, RuleM.Lawful u (handle n) := by
  intro handle hmem
  unfold handlers at hmem
  split at hmem
  · rcases List.mem_singleton.1 hmem with rfl
    refine (RuleM.Lawful.ask (isLeaked_lawful _ _ hn)).bind fun leaked => ?_
    exact .ite ((RuleM.describeMatch_lawful n _ _).bind fun d => .report d) (.pure ())
  · cases hmem

theorem LeakedSubclass.rule_lawful (names : Names) : (rule names).Lawful u where
  test _ hn := (Pattern.isMatch_lawful _ hn).map Except.ok
  describe root hroot := by
    rw [describe_eq]
    exact (RuleM.Lawful.scanBelow hroot fun _ hn => handlers_lawful names root hn).bind fun _ => .pure none

theorem RandomRemainder.rule_lawful (names : Names) : (rule names).Lawful u where
  test _ hn := (Pattern.isMatch_lawful _ hn).map Except.ok
  describe n _ := by
    unfold rule
    dsimp only
    split
    · exact .look fun _ _ => (RuleM.describeMatch_lawful n _ _).map some
    · exact .pure none

end TreeLint
