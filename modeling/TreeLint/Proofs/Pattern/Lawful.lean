/-
The tests of patterns and the predicates of suppression ask about the unit of the node only, and patterns about
its types only. In a coherent unit, therefore, a pattern matches a node or does not, whatever was asked before.
-/
import TreeLint.Pattern.Match
import TreeLint.Proofs.Resolver.Types
import TreeLint.Proofs.Tree.Forest

namespace TreeLint

variable {u : CompilationUnit}

/-! ## Nodes next to a node -/

namespace CompilationUnit.HasNode

theorem below {n m : Node} (hn : u.HasNode n) (hm : m ∈ n.preorder) : u.HasNode m := by
  rcases hn with hn | ⟨k, hk, hn⟩
  · exact .inl ((Node.mem_preorder_trans hm).1 _ hn)
  · exact .inr ⟨k, hk, (Node.mem_preorder_trans hm).1 _ hn⟩

theorem child {n m : Node} (hn : u.HasNode n) (hm : m ∈ n.children) : u.HasNode m :=
  hn.below (Node.mem_preorder_child hm)

theorem receiver {n m : Node} (hn : u.HasNode n) (hm : n.receiver = some m) : u.HasNode m :=
  hn.below (Node.receiver_mem_preorder.1 n m hm)

theorem callee {n m : Node} (hn : u.HasNode n) (hm : n.callee = some m) : u.HasNode m := by
  unfold Node.callee at hm
  split at hm
  · exact hn.child (List.mem_of_mem_head? hm)
  · cases hm

theorem argument {n m : Node} (hn : u.HasNode n) (hm : m ∈ n.arguments) : u.HasNode m := by
  unfold Node.arguments at hm
  split at hm
  · exact hn.child (List.mem_of_mem_tail hm)
  · cases hm

theorem operand {n m : Node} (hn : u.HasNode n) {i : Nat} (hm : Pattern.operand? n i = some m) : u.HasNode m := by
  unfold Pattern.operand? at hm
  split at hm
  · exact hn.child (List.mem_of_getElem? hm)
  · cases hm

theorem symbol {n : Node} (hn : u.HasNode n) : ∀ s ∈ n.symbol, u.HasSymbol s :=
  fun _ hs => .ofNode hn hs

theorem resolvedType {n : Node} (hn : u.HasNode n) : ∀ t ∈ n.resolvedType, u.HasType t :=
  fun _ ht => .ofResolved hn ht

end CompilationUnit.HasNode

/-! ## Patterns -/

namespace CallPattern

theorem ownedBy_asksTypes (o : OwnerConstraint) {t : Option TypeRef} (ht : ∀ s ∈ t, u.HasType s) :
    Query.AsksTypes u (ownedBy o t) := by
  unfold ownedBy
  cases o.exactly
  · exact .isSubtypeOfName ht o.type
  · exact .pure _

theorem ownedBy_lawful (o : OwnerConstraint) {t : Option TypeRef} (ht : ∀ s ∈ t, u.HasType s) :
    Query.Lawful u (ownedBy o t) :=
  (ownedBy_asksTypes o ht).lawful

theorem method_hasSymbol {n : Node} (hn : u.HasNode n) {s : Symbol} (hs : method? n = some s) : u.HasSymbol s := by
  obtain ⟨hs, -⟩ := Option.filter_eq_some_iff.1 hs
  rcases Option.or_eq_some_iff.1 hs with hs | ⟨-, hs⟩
  · exact hn.symbol s hs
  · obtain ⟨m, hm, hs⟩ := Option.bind_eq_some_iff.1 hs
    exact (hn.callee hm).symbol s hs

theorem receiver_hasType {n : Node} (hn : u.HasNode n) : ∀ t ∈ n.receiver.bind (·.resolvedType), u.HasType t := by
  intro t ht
  obtain ⟨m, hreceiver, ht⟩ := Option.bind_eq_some_iff.1 ht
  exact (hn.receiver hreceiver).resolvedType t ht

theorem declaring_hasType {n : Node} (hn : u.HasNode n) {s : Symbol} (hs : method? n = some s) :
    ∀ t ∈ s.enclosingClass.bind (·.type), u.HasType t := by
  intro t ht
  obtain ⟨o, ho, ht⟩ := Option.bind_eq_some_iff.1 ht
  exact .ofSymbol ((method_hasSymbol hn hs).chain o (List.mem_of_find?_eq_some ho)) ht

theorem isMatch_asksTypes (c : CallPattern) {n : Node} (hn : u.HasNode n) : Query.AsksTypes u (c.isMatch n) := by
  unfold isMatch
  refine .orElse false ?_
  cases hm : method? n with
  | none => exact .pure false
  | some method =>
    refine .orElse false (.orElse false (.orElse false (.orElse false ?_)))
    cases c.owner with
    | none => exact .pure true
    | some o =>
      exact .bind (ownedBy_asksTypes o (receiver_hasType hn)) fun owned =>
        .orElse true (ownedBy_asksTypes o (declaring_hasType hn hm))

end CallPattern

namespace Pattern

mutual

theorem isMatch_asksTypes : ∀ (p : Pattern) {n : Node}, u.HasNode n → Query.AsksTypes u (p.isMatch n)
  | .anything, _, _ => .pure true
  | .nothing, _, _ => .pure false
  | .allOf ps, _, hn => allMatch_asksTypes ps hn
  | .anyOf ps, _, hn => anyMatch_asksTypes ps hn
  | .not p, _, hn => (isMatch_asksTypes p hn).bind fun found => .pure (!found)
  | .kindIn _, _, _ => .pure _
  | .symbolKindIn _, _, _ => .pure _
  | .binary _, _, _ => .pure _
  | .symbolNamed _, _, _ => .pure _
  | .subtypeOf type, _, hn => .isSubtypeOfName hn.resolvedType type
  | .annotated _, _, _ => .pure _
  | .left p, n, hn => by
    unfold isMatch
    split
    · exact isMatch_asksTypes p (hn.operand ‹_›)
    · exact .pure false
  | .right p, n, hn => by
    unfold isMatch
    split
    · exact isMatch_asksTypes p (hn.operand ‹_›)
    · exact .pure false
  | .receiver p, n, hn => by
    unfold isMatch
    split
    · exact isMatch_asksTypes p (hn.receiver ‹_›)
    · exact .pure false
  | .argument p, n, hn => .anyM fun _ hm => isMatch_asksTypes p (hn.argument hm)
  | .call c, _, hn => CallPattern.isMatch_asksTypes c hn

theorem allMatch_asksTypes : ∀ (ps : List Pattern) {n : Node}, u.HasNode n → Query.AsksTypes u (allMatch ps n)
  | [], _, _ => .pure true
  | p :: ps, _, hn => (isMatch_asksTypes p hn).bind fun found => by
    cases found
    · exact .pure false
    · exact allMatch_asksTypes ps hn

theorem anyMatch_asksTypes : ∀ (ps : List Pattern) {n : Node}, u.HasNode n → Query.AsksTypes u (anyMatch ps n)
  | [], _, _ => .pure false
  | p :: ps, _, hn => (isMatch_asksTypes p hn).bind fun found => by
    cases found
    · exact anyMatch_asksTypes ps hn
    · exact .pure true

end

theorem isMatch_lawful (p : Pattern) {n : Node} (hn : u.HasNode n) : Query.Lawful u (p.isMatch n) :=
  (isMatch_asksTypes p hn).lawful

theorem allMatch_lawful (ps : List Pattern) {n : Node} (hn : u.HasNode n) : Query.Lawful u (allMatch ps n) :=
  (allMatch_asksTypes ps hn).lawful

end Pattern

/-! ## Predicates of suppression -/

namespace Suppression

/-- A predicate that asks about the unit of the node only. -/
def Lawful (u : CompilationUnit) (p : Predicate) : Prop :=
  ∀ n, u.HasNode n → Query.Lawful u (p n)

theorem Lawful.steady {provenance : Provenance} (h : u.IsCoherent provenance) {p : Predicate} (hp : Lawful u p) :
    Steady (u.Truthful provenance) u.HasNode p :=
  fun n hn => (hp n hn).settled h

theorem generatedCode_lawful : Lawful u generatedCode := by
  intro n hn
  unfold generatedCode
  split
  · refine (Query.Lawful.isGenerated hn.symbol).bind fun generated => ?_
    exact .orElse all (.pure none)
  · exact .pure none

theorem ofMarking_lawful (name : String) : Lawful u (ofMarking name) :=
  fun _ _ => .pure _

theorem ofNodes_lawful (kind name : Option (Option String)) (s : Suppression) : Lawful u (ofNodes kind name s) :=
  fun _ _ => .pure _

theorem usual_lawful (name : String) : ∀ p ∈ usual name, Lawful u p := by
  intro p hp
  rcases List.mem_cons.1 hp with rfl | hp
  · exact generatedCode_lawful
  · rcases List.mem_singleton.1 hp with rfl
    exact ofMarking_lawful name

end Suppression

end TreeLint
