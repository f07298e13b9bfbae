/-
Questions about the types of a unit only. Where equal types carry the same supertypes, each has one answer,
wherever the symbols come from and whatever was asked before about the types and symbols of the unit. Main
statements: `Query.AsksTypes.settled` and `Resolver.Asked.recalls`.
-/
import TreeLint.Proofs.Resolver.Coherence
import TreeLint.Proofs.Resolver.Subtypes

namespace TreeLint

variable {u : CompilationUnit} {r : Resolver} {α β : Type}

namespace CompilationUnit

/-- Equal types carry the same supertypes. -/
def TypesAgree (u : CompilationUnit) : Prop :=
  ∀ s t, u.HasType s → u.HasType t → s.key = t.key → s.supertypes.map TypeRef.key = t.supertypes.map TypeRef.key

/-- The types of a unit are as they are, whatever is said of the symbols. -/
theorem TypesAgree.isCoherent (h : u.TypesAgree) : u.IsCoherent fun _ => ∅ :=
  ⟨h, fun _ _ _ _ _ => rfl⟩

theorem TypesAgree.recalls_supertypeNames (h : u.TypesAgree) {t : TypeRef} (ht : u.HasType t)
    (hr : r.Recalls u.HasType) : (Resolver.supertypeNames t r).2.Recalls u.HasType := by
  refine hr.ask ht fun s hs hkey => ?_
  exact h.isCoherent.closure_eq ∅ [t] [s] (by simpa using ht) (by simpa using hs) (by simpa using hkey)

end CompilationUnit

/-! ## Questions about types -/

namespace Query

/-- A question that is put together from questions about the types of a unit. -/
inductive AsksTypes (u : CompilationUnit) : {α : Type} → Query α → Prop
  | pure {α : Type} (a : α) : AsksTypes u (pure a)
  | bind {α β : Type} {q : Query α} {f : α → Query β} :
    AsksTypes u q → (∀ a, AsksTypes u (f a)) → AsksTypes u (q >>= f)
  | supertypeNames {t : TypeRef} : u.HasType t → AsksTypes u (Resolver.supertypeNames t)

theorem AsksTypes.lawful {q : Query α} (hq : AsksTypes u q) : Lawful u q := by
  induction hq with
  | pure a => exact .pure a
  | bind _ _ ihq ihf => exact ihq.bind ihf
  | supertypeNames ht => exact .supertypeNames ht

/-- Where equal types carry the same supertypes, the answer does not depend on what was asked before. -/
theorem AsksTypes.settled (h : u.TypesAgree) {q : Query α} (hq : AsksTypes u q) :
    q.Settled (·.Recalls u.HasType) := by
  induction hq with
  | pure a => exact .of_pure a
  | bind _ _ ihq ihf => exact ihq.bind ihf
  | @supertypeNames t ht =>
    refine ⟨supertypeClosure ∅ [t], fun r hr => ⟨?_, h.recalls_supertypeNames ht hr⟩⟩
    rw [Resolver.supertypeNames_answer]
    exact hr t ht

theorem AsksTypes.orElse {c : Prop} [Decidable c] {q : Query α} (a : α) (hq : AsksTypes u q) :
    AsksTypes u (if c then Pure.pure a else q) := by
  split
  · exact .pure a
  · exact hq

theorem AsksTypes.anyM {ι : Type} {f : ι → Query Bool} :
    ∀ {xs : List ι}, (∀ x ∈ xs, AsksTypes u (f x)) → AsksTypes u (xs.anyM f)
  | [], _ => .pure false
  | x :: xs, h => by
    rw [List.anyM]
    refine (h x List.mem_cons_self).bind fun found => ?_
    cases found
    · exact AsksTypes.anyM fun y hy => h y (List.mem_cons_of_mem x hy)
    · exact .pure true

theorem AsksTypes.isSubtypeOfName {t : Option TypeRef} (ht : ∀ s ∈ t, u.HasType s) (name : String) :
    AsksTypes u (Resolver.isSubtypeOfName t name) := by
  cases t with
  | none => exact .pure false
  | some t => exact (supertypeNames (ht t rfl)).bind fun names => .pure (names.contains name)

end Query

/-! ## After other questions -/

namespace Resolver

/-- A resolver after any questions about the types and symbols of a unit. -/
inductive Asked (u : CompilationUnit) : Resolver → Prop
  | fresh (provenance : Provenance) : Asked u { provenance }
  | after {r : Resolver} {α : Type} {q : Query α} : Asked u r → Query.Lawful u q → Asked u (q r).2

theorem Recalls.lawful (h : u.TypesAgree) {q : Query α} (hq : Query.Lawful u q) (hr : r.Recalls u.HasType) :
    (q r).2.Recalls u.HasType := by
  induction hq generalizing r with
  | pure a => exact hr
  | bind _ _ ihq ihf => exact ihf _ (ihq hr)
  | supertypeNames ht => exact h.recalls_supertypeNames ht hr
  | generatedBy _ => exact hr.generatedBy _

theorem Asked.recalls (h : u.TypesAgree) (hr : r.Asked u) : r.Recalls u.HasType := by
  induction hr with
  | fresh provenance => exact fun _ _ => rfl
  | after _ hq ih => exact ih.lawful h hq

end Resolver

end TreeLint
