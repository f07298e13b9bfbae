/-
Merging. The merged fix does not depend on what has been logged, and its edits stand in a row and are
edits of the fixes. Main statement: `mergeAll_row`.
-/
import TreeLint.Fix.Merge
import TreeLint.Proofs.Attempt
import TreeLint.Proofs.Fix.Order

namespace TreeLint.Fix

/-- The fixes of a list in one, as far as they agree, whatever is logged about it. -/
def merged (fixes : List (Option Fix)) : Except Fault Fix := (mergeAll fixes []).1

/-- Computations on a log that come to the same whatever is in the log. -/
abbrev Unlogged {α : Type} (x : Attempt Log α) : Prop := Attempt.Alike (fun _ _ => True) x x

/-- What is logged of a fix that is left out. -/
def leftOutEntry (f : Fix) : LogEntry :=
  ⟨.info, .fixer, s!"Skipping fix that conflicts with an earlier fix: {f.display}"⟩

/-- Missing fixes and fixes without edits play no part. -/
theorem takeInto_of_empty (m : Fix) {next : Option Fix} (h : ∀ f, next = some f → f.isEmpty = true) :
    takeInto m next = pure m := by
  cases next with
  | none => rfl
  | some f => simp [takeInto, h f rfl]

/-- A fix with edits is left out and logged, or merged. -/
theorem takeInto_of_edits (m : Fix) {f : Fix} (h : f.isEmpty = false) (log : Log) :
    takeInto m (some f) log =
      if m.conflictsWith f then (.ok m, log ++ [leftOutEntry f]) else (m.merge f, log) := by
  unfold takeInto
  by_cases hconflict : m.conflictsWith f
  · simp [h, hconflict, Attempt.tell, Attempt.bind_apply, leftOutEntry]
  · simp [h, hconflict]

theorem takeInto_unlogged (m : Fix) (next : Option Fix) : Unlogged (takeInto m next) := by
  cases next with
  | none => exact .pure m
  | some f =>
    cases hempty : f.isEmpty with
    | true =>
      rw [takeInto_of_empty m fun f' hf' => Option.some.inj hf' ▸ hempty]
      exact .pure m
    | false =>
      intro s t h
      rw [takeInto_of_edits m hempty, takeInto_of_edits m hempty]
      cases m.conflictsWith f <;> exact ⟨rfl, h⟩

theorem mergeAll_fst (fixes : List (Option Fix)) (log : Log) : (mergeAll fixes log).1 = merged fixes :=
  (Attempt.Alike.foldlM (fun m next _ => takeInto_unlogged m next) empty log [] trivial).1

/-! ## One step -/

theorem not_conflictsWith_iff {m f : Fix} :
    m.conflictsWith f = false ↔ ∀ a ∈ m.edits, ∀ b ∈ f.edits, a.conflicts b = false := by
  simp [conflictsWith]

/-- A fix is left out, or its edits are put in a row with those taken before it. -/
theorem takeInto_cases (m : Fix) (next : Option Fix) (log : Log) :
    (takeInto m next log).1 = .ok m ∨
    ∃ f, next = some f ∧ m.conflictsWith f = false ∧ (takeInto m next log).1 = m.merge f := by
  cases next with
  | none => exact .inl rfl
  | some f =>
    cases hempty : f.isEmpty with
    | true => exact .inl (by rw [takeInto_of_empty m fun f' hf' => Option.some.inj hf' ▸ hempty]; rfl)
    | false =>
      rw [takeInto_of_edits m hempty]
      cases hconflict : m.conflictsWith f with
      | true => exact .inl rfl
      | false => exact .inr ⟨f, rfl, hconflict, rfl⟩

theorem takeInto_row {m m' : Fix} {next : Option Fix} {log : Log} (hm : m.edits.Pairwise Edit.Before)
    (h : (takeInto m next log).1 = .ok m') :
    m'.edits.Pairwise Edit.Before ∧ ∀ e ∈ m'.edits, e ∈ m.edits ∨ ∃ f, next = some f ∧ e ∈ f.edits := by
  rcases takeInto_cases m next log with hout | ⟨f, hf, -, htaken⟩
  · obtain rfl : m = m' := Except.ok.inj (hout.symm.trans h)
    exact ⟨hm, fun e he => .inl he⟩
  · have row := of_eq_ok_iff.1 (htaken.symm.trans h)
    refine ⟨row.before, fun e he => ?_⟩
    rcases List.mem_append.1 (row.perm.mem_iff.1 he) with he | he
    · exact .inl he
    · exact .inr ⟨f, hf, he⟩

theorem merged_singleton (e : Edit) : merged [some ⟨[e]⟩] = .ok ⟨[e]⟩ := by
  simpa [merged, mergeAll, takeInto, isEmpty, empty, conflictsWith, merge] using of_singleton e

/-! ## All fixes -/

/-- The edits of a merged fix stand in a row, and each is an edit of one of the fixes. -/
theorem mergeAll_row {fixes : List (Option Fix)} {m : Fix} (h : merged fixes = .ok m) :
    m.edits.Pairwise Edit.Before ∧ ∀ e ∈ m.edits, ∃ f, some f ∈ fixes ∧ e ∈ f.edits := by
  refine Attempt.foldlM_keeps
    (P := fun m => m.edits.Pairwise Edit.Before ∧ ∀ e ∈ m.edits, ∃ f, some f ∈ fixes ∧ e ∈ f.edits)
    (fun m next hnext log m' hm hstep => ?_) ⟨.nil, fun e he => absurd he List.not_mem_nil⟩ h
  obtain ⟨hrow, hfrom⟩ := takeInto_row hm.1 hstep
  refine ⟨hrow, fun e he => ?_⟩
  rcases hfrom e he with he | ⟨f, rfl, he⟩
  · exact hm.2 e he
  · exact ⟨f, hnext, he⟩

end TreeLint.Fix
