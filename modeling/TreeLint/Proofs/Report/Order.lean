/-
The order of the findings in a report. It is a stable sort by a key that holds the rule, so the findings
of each rule stand in it as they would stand alone, and they decide the whole. Main statements:
`filter_mergeSort` and `eq_of_rules`.
-/
import Mathlib.Data.List.Basic
import TreeLint.Diagnostic

namespace TreeLint

/-! ## Sorted lists -/

section Sorted

variable {α : Type} {le : α → α → Bool}

/-- A list that is cut where a member may stand is cut there by the order. -/
theorem takeWhile_of_sorted {a : α} {before after : List α} (hbefore : ∀ b ∈ before, (!le a b) = true)
    (hafter : ∀ b ∈ after, le a b = true) : (before ++ after).takeWhile (fun b => !le a b) = before := by
  rw [List.takeWhile_append_of_pos hbefore]
  cases after with
  | nil => simp
  | cons b rest => simp [hafter b List.mem_cons_self]

/-- Where a sort puts the head of a list: behind what has to stand in front of it, and in front of all else. -/
theorem mergeSort_cons_cut (trans : ∀ a b c, le a b = true → le b c = true → le a c = true)
    (total : ∀ a b, (le a b || le b a) = true) (a : α) (l : List α) :
    ∃ before after, (a :: l).mergeSort le = before ++ a :: after ∧ l.mergeSort le = before ++ after ∧
      (∀ b ∈ before, (!le a b) = true) ∧ ∀ b ∈ after, le a b = true := by
  obtain ⟨before, after, hcons, hl, hbefore⟩ := List.mergeSort_cons trans total a l
  have hall := List.pairwise_mergeSort trans total (a :: l)
  rw [hcons] at hall
  exact ⟨before, after, hcons, hl, hbefore, (List.pairwise_cons.1 (List.pairwise_append.1 hall).2.1).1⟩

/-- Sorting leaves some members in the order in which they would be sorted alone. -/
theorem filter_mergeSort (trans : ∀ a b c, le a b = true → le b c = true → le a c = true)
    (total : ∀ a b, (le a b || le b a) = true) (p : α → Bool) (l : List α) :
    (l.mergeSort le).filter p = (l.filter p).mergeSort le := by
  induction l with
  | nil => simp
  | cons a l ih =>
    obtain ⟨before, after, hcons, hl, hbefore, hafter⟩ := mergeSort_cons_cut trans total a l
    rw [hl, List.filter_append] at ih
    rw [hcons, List.filter_append]
    cases hp : p a
    · rw [List.filter_cons_of_neg (by simp [hp]), List.filter_cons_of_neg (by simp [hp]), ih]
    · rw [List.filter_cons_of_pos hp, List.filter_cons_of_pos hp]
      obtain ⟨before', after', hcons', hl', hbefore', hafter'⟩ := mergeSort_cons_cut trans total a (l.filter p)
      -- both lists are cut where the order puts the head
      have hsame : before.filter p ++ after.filter p = before' ++ after' := ih.trans hl'
      have hfront : before.filter p = before' := by
        rw [← takeWhile_of_sorted (fun b hb => hbefore b (List.mem_of_mem_filter hb))
          (fun b hb => hafter b (List.mem_of_mem_filter hb)), hsame, takeWhile_of_sorted hbefore' hafter']
      rw [hfront] at hsame
      rw [hcons', hfront, List.append_cancel_left hsame]

/-- Sorted lists are equal if they have the same members, in the same order, at each place that the order
tells apart. -/
theorem eq_of_sorted {κ : Type} [DecidableEq κ] {key : α → κ}
    (antisymm : ∀ a b, le a b = true → le b a = true → key a = key b) :
    ∀ {l m : List α}, l.Pairwise (fun a b => le a b = true) → m.Pairwise (fun a b => le a b = true) →
      (∀ a, le a a = true) → (∀ k, l.filter (key · = k) = m.filter (key · = k)) → l = m
  | [], [], _, _, _, _ => rfl
  | [], b :: m, _, _, _, h => by simpa using h (key b)
  | a :: l, [], _, _, _, h => by simpa using h (key a)
  | a :: l, b :: m, hl, hm, refl, h => by
    have hmem {x y : α} {xs ys : List α} (hxy : ∀ k, (x :: xs).filter (key · = k) = (y :: ys).filter (key · = k)) :
        x ∈ y :: ys := by
      have hx : x ∈ (y :: ys).filter (key · = key x) := by rw [← hxy]; simp
      exact List.mem_of_mem_filter hx
    have hab : le a b = true := by
      rcases List.mem_cons.1 (hmem fun k => (h k).symm) with rfl | hb
      · exact refl b
      · exact List.rel_of_pairwise_cons hl hb
    have hba : le b a = true := by
      rcases List.mem_cons.1 (hmem h) with rfl | ha
      · exact refl a
      · exact List.rel_of_pairwise_cons hm ha
    have hkey : key a = key b := antisymm a b hab hba
    have hhead : a = b := by
      have := h (key b)
      rw [List.filter_cons_of_pos (by simp [hkey]), List.filter_cons_of_pos (by simp)] at this
      exact (List.cons.inj this).1
    subst hhead
    refine congrArg (a :: ·) (eq_of_sorted antisymm hl.of_cons hm.of_cons refl fun k => ?_)
    have := h k
    by_cases hk : key a = k
    · rw [List.filter_cons_of_pos (by simp [hk]), List.filter_cons_of_pos (by simp [hk])] at this
      exact (List.cons.inj this).2
    · rwa [List.filter_cons_of_neg (by simp [hk]), List.filter_cons_of_neg (by simp [hk])] at this

end Sorted

/-! ## Findings -/

namespace Diagnostic

theorem precedes_iff (a b : Diagnostic) : a.precedes b = true ↔
    a.sortKey.1 < b.sortKey.1 ∨ a.sortKey.1 = b.sortKey.1 ∧
      (a.sortKey.2.1 < b.sortKey.2.1 ∨ a.sortKey.2.1 = b.sortKey.2.1 ∧ a.sortKey.2.2 ≤ b.sortKey.2.2) := by
  unfold precedes
  rcases a.sortKey with ⟨s, e, r⟩
  rcases b.sortKey with ⟨s', e', r'⟩
  simp

theorem precedes_trans (a b c : Diagnostic) (hab : a.precedes b = true) (hbc : b.precedes c = true) :
    a.precedes c = true := by
  rw [precedes_iff] at *
  rcases hab with hab | ⟨hab, hab' | ⟨hab', hab''⟩⟩ <;> rcases hbc with hbc | ⟨hbc, hbc' | ⟨hbc', hbc''⟩⟩
  case inr.inr.inr.inr =>
    exact .inr ⟨hab.trans hbc, .inr ⟨hab'.trans hbc', String.le_trans hab'' hbc''⟩⟩
  all_goals omega

theorem precedes_total (a b : Diagnostic) : (a.precedes b || b.precedes a) = true := by
  rw [Bool.or_eq_true, precedes_iff, precedes_iff]
  rcases String.le_total a.sortKey.2.2 b.sortKey.2.2 with h | h
  · by_cases hlt : a.sortKey.1 = b.sortKey.1 ∧ a.sortKey.2.1 = b.sortKey.2.1
    · exact .inl (.inr ⟨hlt.1, .inr ⟨hlt.2, h⟩⟩)
    · omega
  · by_cases hlt : a.sortKey.1 = b.sortKey.1 ∧ a.sortKey.2.1 = b.sortKey.2.1
    · exact .inr (.inr ⟨hlt.1.symm, .inr ⟨hlt.2.symm, h⟩⟩)
    · omega

theorem precedes_antisymm (a b : Diagnostic) (hab : a.precedes b = true) (hba : b.precedes a = true) :
    a.sortKey = b.sortKey := by
  rw [precedes_iff] at hab hba
  have hstart : a.sortKey.1 = b.sortKey.1 := by omega
  have hstop : a.sortKey.2.1 = b.sortKey.2.1 := by omega
  have hrule : a.sortKey.2.2 = b.sortKey.2.2 := by
    refine String.le_antisymm ?_ ?_
    · rcases hab with hab | ⟨-, hab | ⟨-, hab⟩⟩
      · omega
      · omega
      · exact hab
    · rcases hba with hba | ⟨-, hba | ⟨-, hba⟩⟩
      · omega
      · omega
      · exact hba
  exact Prod.ext hstart (Prod.ext hstop hrule)

theorem precedes_refl (a : Diagnostic) : a.precedes a = true := by
  simpa using precedes_total a a

theorem rule_of_sortKey (d : Diagnostic) : d.sortKey.2.2 = d.rule := by
  unfold sortKey
  split <;> rfl

/-- The findings of a report, in its order. -/
def sorted (ds : List Diagnostic) : List Diagnostic := ds.mergeSort precedes

theorem filter_sorted (p : Diagnostic → Bool) (ds : List Diagnostic) : (sorted ds).filter p = sorted (ds.filter p) :=
  filter_mergeSort precedes_trans precedes_total p ds

/-- Reports with the same findings of each rule are the same. -/
theorem eq_of_rules {ds es : List Diagnostic}
    (h : ∀ rule, (sorted ds).filter (·.rule = rule) = (sorted es).filter (·.rule = rule)) : sorted ds = sorted es := by
  refine eq_of_sorted precedes_antisymm (List.pairwise_mergeSort precedes_trans precedes_total ds)
    (List.pairwise_mergeSort precedes_trans precedes_total es) precedes_refl fun key => ?_
  -- findings at one place in the order are findings of one rule
  have hrule (fs : List Diagnostic) :
      fs.filter (·.sortKey = key) = (fs.filter (·.rule = key.2.2)).filter (·.sortKey = key) := by
    rw [List.filter_filter]
    refine List.filter_congr fun d _ => ?_
    rw [← rule_of_sortKey d]
    by_cases hkey : d.sortKey = key
    · simp [hkey]
    · simp [hkey]
  rw [hrule, h, ← hrule]

end Diagnostic

end TreeLint
