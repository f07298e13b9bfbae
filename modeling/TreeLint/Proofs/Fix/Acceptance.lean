/-
Which edits make a fix. `Fix.of` sorts them and compares neighbours only, and conflicts do not carry over
from one pair to the next; still it accepts edits if and only if no two of them conflict, wherever they
stand, and it names two that do when it refuses. The validator of a fix agrees with it. Main statement:
`of_accepts_free`.
-/
import Mathlib.Data.List.Perm.Subperm
import TreeLint.Proofs.Fix.Order

namespace TreeLint.Fix

/-! ## What is refused -/

/-- The conflict that is found is one of two neighbours. -/
theorem sublist_of_firstConflict {a b : Edit} :
    ∀ {l : List Edit}, firstConflict l = some (a, b) → [a, b].Sublist l ∧ a.conflicts b = true
  | [], h => by cases h
  | [x], h => by cases h
  | x :: y :: rest, h => by
    unfold firstConflict at h
    by_cases hxy : x.conflicts y = true
    · rw [if_pos hxy] at h
      cases h
      exact ⟨((List.nil_sublist rest).cons_cons _).cons_cons _, hxy⟩
    · rw [if_neg hxy] at h
      obtain ⟨hsub, hab⟩ := sublist_of_firstConflict h
      exact ⟨hsub.cons x, hab⟩

/-- Edits are refused for two of them that conflict, and the fault names these two. -/
theorem conflict_of_refused {edits : List Edit} {fault : Fault} (h : Fix.of edits = .error fault) :
    ∃ a b, [a, b].Subperm edits ∧ a.conflicts b = true ∧ fault = .conflictingEdits a.span b.span := by
  have hperm : (edits.mergeSort Edit.precedes).Perm edits := List.mergeSort_perm ..
  unfold Fix.of at h
  simp only at h
  split at h
  · rename_i a b hfound
    cases h
    obtain ⟨hsub, hab⟩ := sublist_of_firstConflict hfound
    exact ⟨a, b, hsub.subperm.trans hperm.subperm, hab, rfl⟩
  · cases h

theorem label_of_refused {edits : List Edit} {fault : Fault} (h : Fix.of edits = .error fault) :
    fault.label = "OverlappingEditsError" := by
  obtain ⟨a, b, -, -, rfl⟩ := conflict_of_refused h
  rfl

theorem refused_iff {edits : List Edit} : (∃ fault, Fix.of edits = .error fault) ↔ ¬ Free edits := by
  rw [← of_isOk_iff]
  cases Fix.of edits <;> simp

/-- Edits are not free of conflicts just if two of them, one somewhere behind the other, conflict. -/
theorem not_free_iff {edits : List Edit} :
    ¬ Free edits ↔ ∃ a b, [a, b].Sublist edits ∧ a.conflicts b = true := by
  unfold Free
  rw [List.pairwise_iff_forall_sublist]
  simp

/-! ## What is accepted -/

/-- The order in which edits are given plays no part. -/
theorem of_perm {edits edits' : List Edit} (h : edits'.Perm edits) {f : Fix} (hf : Fix.of edits = .ok f) :
    Fix.of edits' = .ok f :=
  of_eq_ok_iff.2 ((Row.congr h).2 (of_eq_ok_iff.1 hf))

/-- The validator accepts the fixes whose edits are accepted as they stand. -/
theorem isWellFormed_iff_of {f : Fix} : f.isWellFormed = true ↔ Fix.of f.edits = .ok f := by
  rw [isWellFormed, ascends_iff, of_eq_ok_iff]
  exact ⟨fun h => ⟨.refl f.edits, h⟩, fun h => h.before⟩

/-- Edits are accepted if and only if no two of them conflict, and refused for two that do. Accepted edits
come out in a row, each before all later ones, which is the same for every order they are given in; and
edits are well formed, however they were put together, if and only if they are accepted and stand in that
row already. -/
theorem of_accepts_free (edits : List Edit) :
    ((∃ f, Fix.of edits = .ok f) ↔ Free edits) ∧
    (∀ fault, Fix.of edits = .error fault →
      ∃ a b, [a, b].Subperm edits ∧ a.conflicts b = true ∧ fault = .conflictingEdits a.span b.span) ∧
    (∀ f, Fix.of edits = .ok f →
      f.edits.Perm edits ∧ f.edits.Pairwise (·.span.start < ·.span.start) ∧
      f.edits.Pairwise (·.span.stop ≤ ·.span.start) ∧ ∀ edits', edits'.Perm edits → Fix.of edits' = .ok f) ∧
    ((Fix.mk edits).isWellFormed = true ↔ Fix.of edits = .ok ⟨edits⟩) := by
  refine ⟨of_isOk_iff, fun fault => conflict_of_refused, fun f hf => ?_, isWellFormed_iff_of⟩
  have row := of_eq_ok_iff.1 hf
  refine ⟨row.perm, ?_, ?_, fun edits' h => of_perm h hf⟩
  · exact row.before.imp And.left
  · exact row.before.imp And.right

/-- Of three edits the outer two may conflict where neighbours of the list do not. -/
example : Edit.conflicts ⟨⟨4, 9, by decide⟩, "a"⟩ ⟨⟨1, 2, by decide⟩, "b"⟩ = false ∧
    Edit.conflicts ⟨⟨1, 2, by decide⟩, "b"⟩ ⟨⟨6, 6, by decide⟩, "c"⟩ = false ∧
    Edit.conflicts ⟨⟨4, 9, by decide⟩, "a"⟩ ⟨⟨6, 6, by decide⟩, "c"⟩ = true := by decide

end TreeLint.Fix
