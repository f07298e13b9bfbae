/-
The order of the edits of a fix. One edit lies before another if it starts before it and ends
where the other starts, at the latest. Main statement: `of_eq_ok_iff`, by which `Fix.of` accepts
edits if and only if they can be put into a row in which each lies before all later ones, and
gives them in that row.
-/
import TreeLint.Fix.Basic

namespace TreeLint

namespace Edit

/-- The first edit starts before the second and ends where the second starts, at the latest. -/
def Before (a b : Edit) : Prop := a.span.start < b.span.start ∧ a.span.stop ≤ b.span.start

instance (a b : Edit) : Decidable (a.Before b) :=
  inferInstanceAs (Decidable (_ ∧ _))

theorem Before.trans {a b c : Edit} (hab : a.Before b) (hbc : b.Before c) : a.Before c := by
  obtain ⟨h1, h2⟩ := hab
  obtain ⟨h3, h4⟩ := hbc
  exact ⟨by omega, by omega⟩

theorem Before.precedes {a b : Edit} (h : a.Before b) : a.precedes b = true := by
  have := h.1
  simp [Edit.precedes, this]

theorem start_eq_of_precedes {a b : Edit} (hab : a.precedes b = true) (hba : b.precedes a = true) :
    a.span.start = b.span.start := by
  simp only [Edit.precedes, Bool.or_eq_true, Bool.and_eq_true, decide_eq_true_eq, beq_iff_eq] at hab hba
  omega

/-- Of two edits in ascending order, the first lies before the second unless they conflict. -/
theorem before_iff_of_precedes {a b : Edit} (h : a.precedes b = true) :
    a.Before b ↔ a.conflicts b = false := by
  have ha := a.span.start_le_stop
  have hb := b.span.start_le_stop
  simp only [Edit.precedes, Bool.or_eq_true, Bool.and_eq_true, decide_eq_true_eq, beq_iff_eq] at h
  simp only [Before, conflicts, Span.overlaps, Bool.or_eq_false_iff, Bool.and_eq_false_imp,
    decide_eq_true_eq, decide_eq_false_iff_not, beq_eq_false_iff_ne]
  constructor
  · rintro ⟨h1, h2⟩
    exact ⟨fun _ => by omega, by omega⟩
  · rintro ⟨h1, h2⟩
    have h3 : a.span.start < b.span.start := by omega
    exact ⟨h3, by have := h1 (by omega); omega⟩

end Edit

namespace Fix

/-- Edits that lie before one another are told apart by their starts. -/
theorem eq_of_start_eq {row : List Edit} (h : row.Pairwise Edit.Before) {a b : Edit} (ha : a ∈ row) (hb : b ∈ row)
    (hab : a.span.start = b.span.start) : a = b := by
  obtain ⟨i, hi, rfl⟩ := List.mem_iff_getElem.1 ha
  obtain ⟨j, hj, rfl⟩ := List.mem_iff_getElem.1 hb
  rcases Nat.lt_trichotomy i j with hij | rfl | hji
  · exact absurd hab (Nat.ne_of_lt (List.pairwise_iff_getElem.1 h i j hi hj hij).1)
  · rfl
  · exact absurd hab.symm (Nat.ne_of_lt (List.pairwise_iff_getElem.1 h j i hj hi hji).1)

/-! ## Neighbours and all pairs -/

/-- Among ascending edits, no two neighbours conflict if and only if each edit lies before all
later ones. -/
theorem firstConflict_eq_none_iff : ∀ {l : List Edit}, l.Pairwise (·.precedes · = true) →
    (firstConflict l = none ↔ l.Pairwise Edit.Before)
  | [], _ => by simp [firstConflict]
  | [a], _ => by simp [firstConflict]
  | a :: b :: rest, h => by
    have ⟨ha, hrest⟩ := List.pairwise_cons.1 h
    have hab := ha b List.mem_cons_self
    have ih := firstConflict_eq_none_iff hrest
    unfold firstConflict
    cases hc : a.conflicts b with
    | true =>
      refine iff_of_false (by simp) fun hp => ?_
      have hbefore := (List.pairwise_cons.1 hp).1 b List.mem_cons_self
      rw [(Edit.before_iff_of_precedes hab).1 hbefore] at hc
      cases hc
    | false =>
      rw [if_neg (by simp), ih]
      refine ⟨fun hp => List.pairwise_cons.2 ⟨fun c hmem => ?_, hp⟩, fun hp => (List.pairwise_cons.1 hp).2⟩
      have hbefore : a.Before b := (Edit.before_iff_of_precedes hab).2 hc
      rcases List.mem_cons.1 hmem with rfl | hmem
      · exact hbefore
      · exact hbefore.trans ((List.pairwise_cons.1 hp).1 c hmem)

/-- Each edit of the first list once, in the order in which each lies before all later ones. -/
structure Row (edits row : List Edit) : Prop where
  perm : row.Perm edits
  before : row.Pairwise Edit.Before

/-- There is one such order at most. -/
theorem Row.unique {edits row row' : List Edit} (h : Row edits row) (h' : Row edits row') : row = row' := by
  refine (h.perm.trans h'.perm.symm).eq_of_pairwise (fun a b _ _ hab hba => ?_) h.before h'.before
  have := hab.1
  have := hba.1
  omega

theorem Row.congr {edits edits' row : List Edit} (h : edits.Perm edits') : Row edits row ↔ Row edits' row :=
  ⟨fun r => ⟨r.perm.trans h, r.before⟩, fun r => ⟨r.perm.trans h.symm, r.before⟩⟩

theorem precedes_mergeSort (edits : List Edit) :
    (edits.mergeSort Edit.precedes).Pairwise (·.precedes · = true) :=
  @List.pairwise_mergeSort _ Edit.precedes (fun _ _ _ => Edit.precedes_trans) Edit.precedes_total edits

/-- Edits are accepted if and only if they stand in such an order, and then in that order. -/
theorem of_eq_ok_iff {edits : List Edit} {f : Fix} : Fix.of edits = .ok f ↔ Row edits f.edits := by
  have hs := precedes_mergeSort edits
  have hp : (edits.mergeSort Edit.precedes).Perm edits := List.mergeSort_perm ..
  unfold Fix.of
  constructor
  · intro h
    simp only at h
    split at h
    · cases h
    · rename_i hnone
      cases h
      exact ⟨hp, (firstConflict_eq_none_iff hs).1 hnone⟩
  · intro h
    -- sorting finds the order, as no other one is ascending
    have hsame := hp.trans h.perm.symm
    have hsorted : edits.mergeSort Edit.precedes = f.edits :=
      hsame.eq_of_pairwise (fun a b ha hb hab hba =>
        eq_of_start_eq h.before (hsame.mem_iff.1 ha) hb (Edit.start_eq_of_precedes hab hba)) hs
        (h.before.imp Edit.Before.precedes)
    simp only [hsorted, (firstConflict_eq_none_iff (hsorted ▸ hs)).2 h.before]

theorem of_singleton (e : Edit) : Fix.of [e] = .ok ⟨[e]⟩ :=
  of_eq_ok_iff.2 ⟨.refl [e], List.pairwise_singleton Edit.Before e⟩

/-! ## Edits without conflicts -/

theorem ascends_iff : ∀ {l : List Edit}, ascends l = true ↔ l.Pairwise Edit.Before
  | [] => by simp [ascends]
  | [a] => by simp [ascends]
  | a :: b :: rest => by
    simp only [ascends, Bool.and_eq_true, decide_eq_true_eq, Bool.not_eq_true', ascends_iff (l := b :: rest),
      List.pairwise_cons (a := a)]
    have hab (h : a.span.start < b.span.start) : a.Before b ↔ a.conflicts b = false :=
      Edit.before_iff_of_precedes (by simp [Edit.precedes, h])
    constructor
    · rintro ⟨⟨hlt, hfree⟩, hrest⟩
      have hbefore := (hab hlt).2 hfree
      refine ⟨fun c hc => ?_, hrest⟩
      rcases List.mem_cons.1 hc with rfl | hc
      · exact hbefore
      · exact hbefore.trans ((List.pairwise_cons.1 hrest).1 c hc)
    · rintro ⟨ha, hrest⟩
      have hbefore := ha b List.mem_cons_self
      exact ⟨⟨hbefore.1, (hab hbefore.1).1 hbefore⟩, hrest⟩

/-- No two edits of a list conflict. -/
def Free (edits : List Edit) : Prop := edits.Pairwise fun a b => a.conflicts b = false

theorem Free.of_before {edits : List Edit} (h : edits.Pairwise Edit.Before) : Free edits :=
  h.imp fun hab => (Edit.before_iff_of_precedes hab.precedes).1 hab

theorem Free.perm {edits edits' : List Edit} (h : Free edits) (hperm : edits.Perm edits') : Free edits' :=
  hperm.pairwise h fun hab => Edit.conflicts_comm _ _ ▸ hab

theorem Row.free {edits row : List Edit} (h : Row edits row) : Free edits :=
  (Free.of_before h.before).perm h.perm

/-- Edits are accepted if and only if no two of them conflict. -/
theorem of_isOk_iff {edits : List Edit} : (∃ f, Fix.of edits = .ok f) ↔ Free edits := by
  constructor
  · rintro ⟨f, hf⟩
    exact (of_eq_ok_iff.1 hf).free
  · intro h
    have hp : (edits.mergeSort Edit.precedes).Perm edits := List.mergeSort_perm ..
    have hbefore : (edits.mergeSort Edit.precedes).Pairwise Edit.Before :=
      (precedes_mergeSort edits).imp₂ (fun a b hab hfree => (Edit.before_iff_of_precedes hab).2 hfree) (h.perm hp.symm)
    exact ⟨⟨edits.mergeSort Edit.precedes⟩, of_eq_ok_iff.2 ⟨hp, hbefore⟩⟩

end Fix

end TreeLint
