/-
Questions whose answer does not depend on what was asked before. Every resolver that is fit, in a
sense to be chosen, gives the same answer and stays fit.
-/
import TreeLint.Suppression

namespace TreeLint

variable {α β : Type}

/-! ## Questions -/

namespace Query

/-- A question with one answer from every fit resolver, and that leaves a fit one behind. -/
def Settled (fit : Resolver → Prop) (q : Query α) : Prop :=
  ∃ answer, ∀ r, fit r → (q r).1 = answer ∧ fit (q r).2

variable {fit : Resolver → Prop}

theorem Settled.of_pure (a : α) : Settled fit (pure a) :=
  ⟨a, fun _ hr => ⟨rfl, hr⟩⟩

theorem Settled.bind {q : Query α} {f : α → Query β} (hq : q.Settled fit) (hf : ∀ a, (f a).Settled fit) :
    Settled fit (q >>= f) := by
  obtain ⟨a, ha⟩ := hq
  obtain ⟨b, hb⟩ := hf a
  refine ⟨b, fun r hr => ?_⟩
  obtain ⟨hval, hfit⟩ := ha r hr
  rw [← hval] at hb
  exact hb _ hfit

/-- The answer of one fit resolver is that of any other. -/
theorem Settled.answer {q : Query α} (hq : q.Settled fit) {r r' : Resolver} (hr : fit r) (hr' : fit r') :
    (q r).1 = (q r').1 := by
  obtain ⟨a, ha⟩ := hq
  rw [(ha r hr).1, (ha r' hr').1]

theorem Settled.stays {q : Query α} (hq : q.Settled fit) {r : Resolver} (hr : fit r) : fit (q r).2 := by
  obtain ⟨a, ha⟩ := hq
  exact (ha r hr).2

end Query

/-! ## What is suppressed -/

namespace Suppression

/-- A predicate whose answer is settled at the nodes of some tree. -/
def Steady (fit : Resolver → Prop) (within : Node → Prop) (p : Predicate) : Prop :=
  ∀ n, within n → Query.Settled fit (p n)

variable {fit : Resolver → Prop} {within : Node → Prop}

/-- Predicates that ask the resolver nothing are steady. -/
theorem Steady.of_pure (answer : Node → Suppression) : Steady fit within fun n => pure (answer n) :=
  fun n _ => .of_pure (answer n)

theorem addFrom_cons (s : Suppression) (q : Predicate) (qs : List Predicate) (n : Node) (r : Resolver) :
    addFrom s (q :: qs) n r =
      if (s.combine (q n r).1).everything then (s.combine (q n r).1, (q n r).2)
      else addFrom (s.combine (q n r).1) qs n (q n r).2 := by
  show (if (s.combine (q n r).1).everything then pure (s.combine (q n r).1)
    else addFrom (s.combine (q n r).1) qs n : Query Suppression) (q n r).2 = _
  split <;> rfl

theorem Steady.addFrom :
    ∀ {ps : List Predicate}, (∀ p ∈ ps, Steady fit within p) → ∀ s, Steady fit within (addFrom s ps)
  | [], _, s, _, _ => .of_pure s
  | p :: ps, h, s, n, hn => by
    unfold Suppression.addFrom
    refine Query.Settled.bind (h p List.mem_cons_self n hn) fun found => ?_
    dsimp only
    cases (s.combine found).everything
    · exact Steady.addFrom (fun q hq => h q (List.mem_cons_of_mem p hq)) (s.combine found) n hn
    · exact .of_pure (s.combine found)

/-- The predicates of a list are steady together. -/
theorem Steady.of {ps : List Predicate} (h : ∀ p ∈ ps, Steady fit within p) : Steady fit within (of ps) :=
  Steady.addFrom h none

end Suppression

end TreeLint
