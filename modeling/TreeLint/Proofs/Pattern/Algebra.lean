/-
Patterns as predicates. However an expression over patterns is put together with the operators, it matches a
node where the truth values of its leaves make it true, whatever was asked before; so the operators obey the
laws of Boolean algebra, and the patterns on operands, receivers and arguments pass them on. Main statement:
`isMatch_algebra`.
-/
import Mathlib.Data.List.Nodup
import TreeLint.Proofs.Pattern.Lawful

namespace TreeLint

namespace Pattern

/-- An expression over patterns. -/
inductive Expression
  | leaf (p : Pattern)
  | and (e f : Expression)
  | or (e f : Expression)
  | inverse (e : Expression)

/-- The pattern that the operators make of an expression. -/
def Expression.build : Expression → Pattern
  | leaf p => p
  | and e f => e.build.and f.build
  | or e f => e.build.or f.build
  | inverse e => e.build.inverse

/-- The truth value of an expression, given those of its leaves. -/
def Expression.eval (value : Pattern → Bool) : Expression → Bool
  | leaf p => value p
  | and e f => e.eval value && f.eval value
  | or e f => e.eval value || f.eval value
  | inverse e => !e.eval value

/-- Two patterns that match the same nodes of a unit, each after any questions about the unit. -/
def Agree (u : CompilationUnit) (p q : Pattern) : Prop :=
  ∀ n, u.HasNode n → ∀ r r', r.Asked u → r'.Asked u → (p.isMatch n r).1 = (q.isMatch n r').1

variable {u : CompilationUnit} {n : Node} {α β : Type}

/-! ## One answer for each node -/

/-- Whether a node matches a pattern, where nothing was asked before. -/
def answer (p : Pattern) (n : Node) : Bool := (p.isMatch n {}).1

theorem isMatch_eq_answer (h : u.TypesAgree) {r : Resolver} (hr : r.Asked u) (hn : u.HasNode n) (p : Pattern) :
    (p.isMatch n r).1 = p.answer n :=
  ((isMatch_asksTypes p hn).settled h).answer (hr.recalls h) fun _ _ => rfl

theorem agree_of_answer (h : u.TypesAgree) {p q : Pattern} (hsame : ∀ n, u.HasNode n → p.answer n = q.answer n) :
    Agree u p q := by
  intro n hn r r' hr hr'
  rw [isMatch_eq_answer h hr hn, isMatch_eq_answer h hr' hn, hsame n hn]

/-- What was asked first makes no difference to what is asked next. -/
theorem answer_bind (h : u.TypesAgree) {question : Query α} {f : α → Query β} (hq : Query.AsksTypes u question)
    (hf : ∀ a, Query.AsksTypes u (f a)) : ((question >>= f) {}).1 = (f (question {}).1 {}).1 :=
  ((hf _).settled h).answer ((hq.settled h).stays fun _ _ => rfl) fun _ _ => rfl

theorem answer_allOf (h : u.TypesAgree) (hn : u.HasNode n) (ps : List Pattern) :
    (allOf ps).answer n = ps.all (·.answer n) := by
  change (allMatch ps n {}).1 = _
  induction ps with
  | nil => rfl
  | cons p ps ih =>
    have hrest : ∀ found : Bool, Query.AsksTypes u (if found then allMatch ps n else pure false) :=
      Bool.forall_bool.2 ⟨.pure false, allMatch_asksTypes ps hn⟩
    rw [List.all_cons, ← ih, answer]
    refine (answer_bind h (isMatch_asksTypes p hn) hrest).trans ?_
    cases (p.isMatch n {}).1 <;> rfl

theorem answer_anyOf (h : u.TypesAgree) (hn : u.HasNode n) (ps : List Pattern) :
    (anyOf ps).answer n = ps.any (·.answer n) := by
  change (anyMatch ps n {}).1 = _
  induction ps with
  | nil => rfl
  | cons p ps ih =>
    have hrest : ∀ found : Bool, Query.AsksTypes u (if found then pure true else anyMatch ps n) :=
      Bool.forall_bool.2 ⟨anyMatch_asksTypes ps hn, .pure true⟩
    rw [List.any_cons, ← ih, answer]
    refine (answer_bind h (isMatch_asksTypes p hn) hrest).trans ?_
    cases (p.isMatch n {}).1 <;> rfl

theorem answer_argument (h : u.TypesAgree) (hn : u.HasNode n) (p : Pattern) :
    (argument p).answer n = n.arguments.any (p.answer ·) := by
  have hall : ∀ m ∈ n.arguments, u.HasNode m := fun m hm => hn.argument hm
  change (n.arguments.anyM (fun m => p.isMatch m) {}).1 = _
  generalize n.arguments = ms at hall
  induction ms with
  | nil => rfl
  | cons m ms ih =>
    obtain ⟨hm, hms⟩ := List.forall_mem_cons.1 hall
    have hrest : ∀ found : Bool,
        Query.AsksTypes u (match found with | true => pure true | false => ms.anyM fun m => p.isMatch m) :=
      Bool.forall_bool.2 ⟨.anyM fun m hm => isMatch_asksTypes p (hms m hm), .pure true⟩
    rw [List.anyM, List.any_cons, ← ih hms, answer]
    refine (answer_bind h (isMatch_asksTypes p hm) hrest).trans ?_
    cases (p.isMatch m {}).1 <;> rfl

theorem answer_not (p : Pattern) (n : Node) : (not p).answer n = !p.answer n := rfl

theorem answer_left (p : Pattern) (n : Node) : (left p).answer n = (operand? n 0).any (p.answer ·) := by
  simp only [answer, isMatch]
  cases operand? n 0 <;> rfl

theorem answer_right (p : Pattern) (n : Node) : (right p).answer n = (operand? n 1).any (p.answer ·) := by
  simp only [answer, isMatch]
  cases operand? n 1 <;> rfl

theorem answer_receiver (p : Pattern) (n : Node) : (receiver p).answer n = n.receiver.any (p.answer ·) := by
  simp only [answer, isMatch]
  cases n.receiver <;> rfl

/-! ## The operators -/

theorem answer_and (h : u.TypesAgree) (hn : u.HasNode n) (p q : Pattern) :
    (p.and q).answer n = (p.answer n && q.answer n) := by
  unfold Pattern.and
  split <;> simp [answer_allOf h hn]

theorem answer_or (h : u.TypesAgree) (hn : u.HasNode n) (p q : Pattern) :
    (p.or q).answer n = (p.answer n || q.answer n) := by
  unfold Pattern.or
  split <;> simp [answer_anyOf h hn]

theorem answer_inverse (p : Pattern) (n : Node) : p.inverse.answer n = !p.answer n := by
  unfold inverse
  split <;> simp [answer_not]

theorem answer_build (h : u.TypesAgree) (hn : u.HasNode n) (e : Expression) :
    e.build.answer n = e.eval (·.answer n) := by
  induction e with
  | leaf p => rfl
  | and e f ihe ihf => rw [Expression.build, answer_and h hn, ihe, ihf, Expression.eval]
  | or e f ihe ihf => rw [Expression.build, answer_or h hn, ihe, ihf, Expression.eval]
  | inverse e ih => rw [Expression.build, answer_inverse, ih, Expression.eval]

/-- Patterns that look at another node, if it is there, pass on a conjunction and a disjunction. -/
theorem answer_elsewhere (h : u.TypesAgree) {m : Option Node} (hm : ∀ n ∈ m, u.HasNode n) (p q : Pattern) :
    (m.any ((p.and q).answer ·) = (m.any (p.answer ·) && m.any (q.answer ·))) ∧
      m.any ((p.or q).answer ·) = (m.any (p.answer ·) || m.any (q.answer ·)) := by
  cases m with
  | none => exact ⟨rfl, rfl⟩
  | some n => exact ⟨answer_and h (hm n rfl) p q, answer_or h (hm n rfl) p q⟩

/-- Where equal types carry the same supertypes: an expression matches a node just if it is true of what its
leaves answer there, after whatever questions; negation, conjunction and disjunction obey the laws of Boolean
algebra; and the patterns on operands and the receiver distribute over conjunction and disjunction, the one on
arguments over disjunction. -/
theorem isMatch_algebra (h : u.TypesAgree) :
    (∀ e n, u.HasNode n → ∀ r r', r.Asked u → r'.Asked u →
      ((Expression.build e).isMatch n r).1 = e.eval fun p => (p.isMatch n r').1) ∧
    (∀ p : Pattern, Agree u p.inverse.inverse p) ∧
    (∀ p q : Pattern, Agree u (p.and q).inverse (p.inverse.or q.inverse) ∧
      Agree u (p.or q).inverse (p.inverse.and q.inverse) ∧
      Agree u (p.and q) (q.and p) ∧ Agree u (p.or q) (q.or p) ∧
      Agree u (p.and (p.or q)) p ∧ Agree u (p.or (p.and q)) p) ∧
    (∀ p q s : Pattern, Agree u ((p.and q).and s) (p.and (q.and s)) ∧ Agree u ((p.or q).or s) (p.or (q.or s))) ∧
    ∀ p q : Pattern, Agree u (left (p.and q)) ((left p).and (left q)) ∧ Agree u (left (p.or q)) ((left p).or (left q)) ∧
      Agree u (right (p.and q)) ((right p).and (right q)) ∧ Agree u (right (p.or q)) ((right p).or (right q)) ∧
      Agree u (receiver (p.and q)) ((receiver p).and (receiver q)) ∧
      Agree u (receiver (p.or q)) ((receiver p).or (receiver q)) ∧
      Agree u (argument (p.or q)) ((argument p).or (argument q)) := by
  refine ⟨fun e n hn r r' hr hr' => ?_, fun p => agree_of_answer h fun n hn => ?_, fun p q => ?_, fun p q s => ?_,
    fun p q => ?_⟩
  · rw [isMatch_eq_answer h hr hn, answer_build h hn]
    exact congrArg e.eval (funext fun p => (isMatch_eq_answer h hr' hn p).symm)
  · rw [answer_inverse, answer_inverse, Bool.not_not]
  · refine ⟨?_, ?_, ?_, ?_, ?_, ?_⟩ <;> refine agree_of_answer h fun n hn => ?_ <;>
      simp only [answer_inverse, answer_and h hn, answer_or h hn] <;>
      cases p.answer n <;> cases q.answer n <;> rfl
  · constructor <;> refine agree_of_answer h fun n hn => ?_
    · simp only [answer_and h hn, Bool.and_assoc]
    · simp only [answer_or h hn, Bool.or_assoc]
  · refine ⟨?_, ?_, ?_, ?_, ?_, ?_, ?_⟩ <;> refine agree_of_answer h fun n hn => ?_
    · simpa only [answer_and h hn, answer_left] using (answer_elsewhere h (fun m hm => hn.operand hm) p q).1
    · simpa only [answer_or h hn, answer_left] using (answer_elsewhere h (fun m hm => hn.operand hm) p q).2
    · simpa only [answer_and h hn, answer_right] using (answer_elsewhere h (fun m hm => hn.operand hm) p q).1
    · simpa only [answer_or h hn, answer_right] using (answer_elsewhere h (fun m hm => hn.operand hm) p q).2
    · simpa only [answer_and h hn, answer_receiver] using (answer_elsewhere h (fun m hm => hn.receiver hm) p q).1
    · simpa only [answer_or h hn, answer_receiver] using (answer_elsewhere h (fun m hm => hn.receiver hm) p q).2
    · rw [answer_or h hn, answer_argument h hn, answer_argument h hn, answer_argument h hn, Bool.eq_iff_iff]
      simp only [List.any_eq_true, Bool.or_eq_true, ← exists_or, ← and_or_left]
      refine exists_congr fun m => and_congr_right fun hm => ?_
      rw [answer_or h (hn.argument hm), Bool.or_eq_true]

end Pattern

/-! ## A sum with a missing operand -/

/-- A number and a sequence, added. -/
def Node.sum : Node :=
  { id := 1, kind := .binary, operator := some "+"
    children := [
      { id := 2, kind := .literal, type := some { qualifiedName := "int" } },
      { id := 3, kind := .identifier, type := some (.sequence { qualifiedName := "int" }) }] }

/-- A sum without a second operand. -/
def Node.brokenSum : Node :=
  { id := 4, kind := .binary, operator := some "+"
    children := [{ id := 5, kind := .identifier, type := some (.sequence { qualifiedName := "int" }) }] }

namespace CompilationUnit

def sums : CompilationUnit where
  path := "sums.py"
  source := "1 + s; s +"
  tree := { id := 0, kind := .compilationUnit, children := [.sum, .brokenSum] }

/-- The types that come up in the sums. -/
def sumTypes : List TypeRef :=
  let int : TypeRef := { qualifiedName := "int" }
  [int, .sequence int, .collection int, .sized, .iterable]

theorem sums_node {n : Node} (hn : sums.HasNode n) : n.symbol = none ∧ ∀ t ∈ n.type, t ∈ sumTypes := by
  rcases hn with hn | ⟨m, hm, -⟩
  · simp only [sums, Node.sum, Node.brokenSum, Node.preorder, Node.preorderAll, List.append_nil, List.mem_cons,
      List.cons_append, List.nil_append, List.not_mem_nil, or_false] at hn
    rcases hn with rfl | rfl | rfl | rfl | rfl | rfl <;> simp [sumTypes]
  · exact absurd hm (Array.not_mem_empty m)

theorem sumTypes_closed :
    ∀ t ∈ sumTypes, (∀ a ∈ t.arguments, a ∈ sumTypes) ∧ ∀ a ∈ t.supertypes, a ∈ sumTypes := by
  simp [sumTypes, TypeRef.sequence, TypeRef.collection, TypeRef.sized, TypeRef.iterable]

theorem sums_symbol {s : Symbol} : ¬ sums.HasSymbol s := by
  intro hs
  induction hs with
  | ofNode hn hs => simp [(sums_node hn).1] at hs
  | owner _ _ ih => exact ih

theorem sums_type {t : TypeRef} (ht : sums.HasType t) : t ∈ sumTypes := by
  induction ht with
  | ofNode hn ht => exact (sums_node hn).2 _ ht
  | ofSymbol hs _ => exact absurd hs sums_symbol
  | argument _ ha ih => exact (sumTypes_closed _ ih).1 _ ha
  | supertype _ ha ih => exact (sumTypes_closed _ ih).2 _ ha

theorem sums_typesAgree : sums.TypesAgree := by
  intro s t hs ht hkey
  have hnames : (sumTypes.map TypeRef.erasure).Nodup := by decide
  rw [List.inj_on_of_nodup_map hnames (sums_type hs) (sums_type ht) (erasure_eq_of_key hkey)]

end CompilationUnit

namespace Pattern

/-- The sum adds a sequence on the right, and the broken one does not, whatever was asked before. -/
theorem isMatch_algebra_sums :
    let e : Expression := .inverse (.and (.leaf (right (subtypeOf "Sized"))) (.leaf (binary "+")))
    CompilationUnit.sums.TypesAgree ∧ ∀ r, r.Asked .sums →
      (e.build.isMatch .sum r).1 = false ∧ (e.build.isMatch .brokenSum r).1 = true := by
  intro e
  obtain ⟨heval, -⟩ := isMatch_algebra CompilationUnit.sums_typesAgree
  have hsum : CompilationUnit.sums.HasNode .sum :=
    (CompilationUnit.hasNode_tree _).child (by simp [CompilationUnit.sums])
  have hbroken : CompilationUnit.sums.HasNode .brokenSum :=
    (CompilationUnit.hasNode_tree _).child (by simp [CompilationUnit.sums])
  refine ⟨CompilationUnit.sums_typesAgree, fun r hr => ⟨?_, ?_⟩⟩
  · rw [heval e _ hsum r {} hr (.fresh _)]
    decide +kernel
  · rw [heval e _ hbroken r {} hr (.fresh _)]
    decide +kernel

end Pattern

end TreeLint
