/-
What a match tells of a node, whatever was asked before: its kind, its operands and the method that it calls.
Main statement: `CallPattern.admits_of_isMatch`.
-/
import Mathlib.Logic.Basic
import TreeLint.Pattern.Match

namespace TreeLint

/-! ## Calls -/

namespace CallPattern

variable {c : CallPattern} {n : Node} {resolver : Resolver}

/-- A call of a method with all that a pattern asks for, but for the owner. -/
structure Admits (c : CallPattern) (n : Node) (s : Symbol) : Prop where
  kind : n.kind = .invocation
  method : method? n = some s
  isStatic : s.isStatic = c.isStatic
  name : ∀ name ∈ c.name, s.name = name
  parameters : ∀ count ∈ c.parameterCount, (s.parameters.length : Int) = count
  arguments : ∀ count ∈ c.argumentCount, (n.arguments.length : Int) = count

/-- A test that goes on past one of its conditions. -/
theorem of_guarded {b : Prop} [Decidable b] {q : Query Bool}
    (h : ((if b then pure false else q : Query Bool) resolver).1 = true) : ¬ b ∧ (q resolver).1 = true := by
  split at h
  · cases h
  · exact ⟨‹_›, h⟩

theorem eq_of_any {α : Type} [DecidableEq α] {o : Option α} {a : α} (h : ¬ o.any (· ≠ a) = true) : ∀ b ∈ o, a = b := by
  rintro b rfl
  exact (not_not.1 fun hne => h (decide_eq_true hne)).symm

theorem admits_of_isMatch (h : (c.isMatch n resolver).1 = true) : ∃ s, c.Admits n s := by
  unfold isMatch at h
  obtain ⟨hkind, h⟩ := of_guarded h
  cases hmethod : method? n with
  | none =>
    rw [hmethod] at h
    cases h
  | some s =>
    rw [hmethod] at h
    obtain ⟨hstatic, h⟩ := of_guarded h
    obtain ⟨hname, h⟩ := of_guarded h
    obtain ⟨hparameters, h⟩ := of_guarded h
    obtain ⟨harguments, -⟩ := of_guarded h
    exact ⟨s, not_not.1 hkind, hmethod, not_not.1 hstatic, eq_of_any hname, eq_of_any hparameters, eq_of_any harguments⟩

end CallPattern

/-! ## Operands -/

namespace Pattern

variable {n : Node} {p : Pattern}

/-- Every pattern of a conjunction matches, whatever was asked before. -/
theorem isMatch_of_allMatch : ∀ {ps : List Pattern} {resolver : Resolver}, (allMatch ps n resolver).1 = true →
    ∀ p ∈ ps, ∃ resolver, (p.isMatch n resolver).1 = true
  | [], _, _ => List.forall_mem_nil _
  | p :: ps, resolver, h => by
    have hboth : ((if (p.isMatch n resolver).1 = true then allMatch ps n else pure false : Query Bool)
        (p.isMatch n resolver).2).1 = true := h
    split at hboth
    · exact List.forall_mem_cons.2 ⟨⟨resolver, ‹_›⟩, isMatch_of_allMatch hboth⟩
    · cases hboth

theorem isMatch_of_left {resolver : Resolver} (h : ((left p).isMatch n resolver).1 = true) :
    ∃ m, operand? n 0 = some m ∧ (p.isMatch m resolver).1 = true := by
  unfold isMatch at h
  cases hoperand : operand? n 0 with
  | none =>
    rw [hoperand] at h
    cases h
  | some m =>
    rw [hoperand] at h
    exact ⟨m, rfl, h⟩

end Pattern

end TreeLint
