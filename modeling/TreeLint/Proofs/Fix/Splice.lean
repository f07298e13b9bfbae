/-
Applying a fix. Its edits are carried out from the last to the first, each on a text that the later
ones have already changed; the outcome is the text in which all of them are replaced at once.
Main statement: `apply_eq_splice`.
-/
import Mathlib.Algebra.Ring.Int.Defs
import TreeLint.Proofs.Fix.Order

namespace TreeLint.Fix

/-! ## Replacing all at once -/

/-- What is left of a text behind an offset, with the span of each edit replaced. -/
def splice (text : List Char) (offset : Nat) : List Edit → List Char
  | [] => text.drop offset
  | e :: es => (text.drop offset).take (e.span.start - offset) ++ e.replacement.toList ++ splice text e.span.stop es

/-- How much longer an edit makes the text. -/
def growth (e : Edit) : Int := e.replacement.length - (e.span.stop - e.span.start : Nat)

theorem length_splice {text : List Char} : ∀ {es : List Edit} {offset : Nat}, es.Pairwise Edit.Before →
    (∀ e ∈ es, e.span.stop ≤ text.length) → (∀ e ∈ es, offset ≤ e.span.start) → offset ≤ text.length →
      ((splice text offset es).length : Int) = text.length - offset + (es.map growth).sum
  | [], offset, _, _, _, ho => by
    simp only [splice, List.length_drop, List.map_nil, List.sum_nil]
    omega
  | e :: es, offset, hp, hin, hlo, _ => by
    have ⟨he, hes⟩ := List.pairwise_cons.1 hp
    have h1 := e.span.start_le_stop
    have h2 := hin e List.mem_cons_self
    have h3 := hlo e List.mem_cons_self
    have ih := length_splice hes (fun x hx => hin x (List.mem_cons_of_mem _ hx)) (fun x hx => (he x hx).2) h2
    simp only [splice, List.length_append, List.length_take, List.length_drop, List.map_cons, List.sum_cons,
      Int.natCast_add, ih, growth, String.length_toList]
    omega

/-! ## From the last edit to the first -/

/-- Carrying out edits from the last to the first puts the replaced rest behind what lies in front of
the first of them. -/
theorem foldr_applyTo {text : List Char} : ∀ {es : List Edit} {offset : Nat}, es.Pairwise Edit.Before →
    (∀ e ∈ es, e.span.stop ≤ text.length) → (∀ e ∈ es, offset ≤ e.span.start) →
      es.foldr Edit.applyTo text = text.take offset ++ splice text offset es
  | [], offset, _, _, _ => (List.take_append_drop offset text).symm
  | e :: es, offset, hp, hin, hlo => by
    have ⟨he, hes⟩ := List.pairwise_cons.1 hp
    have h1 := e.span.start_le_stop
    have h2 := hin e List.mem_cons_self
    have h3 := hlo e List.mem_cons_self
    have ih : es.foldr Edit.applyTo text = text.take e.span.stop ++ splice text e.span.stop es :=
      foldr_applyTo hes (fun x hx => hin x (List.mem_cons_of_mem _ hx)) fun x hx => (he x hx).2
    have hlen : (text.take e.span.stop).length = e.span.stop := by rw [List.length_take]; omega
    -- the later edits have left alone what lies in front of the end of this one
    have hfront : (text.take e.span.stop ++ splice text e.span.stop es).take e.span.start = text.take e.span.start := by
      rw [List.take_append_of_le_length (by omega), List.take_take, Nat.min_eq_left h1]
    have hback : (text.take e.span.stop ++ splice text e.span.stop es).drop e.span.stop =
        splice text e.span.stop es := by
      rw [List.drop_append_of_le_length (by omega), List.drop_of_length_le (by omega), List.nil_append]
    have hsplit : text.take e.span.start = text.take offset ++ (text.drop offset).take (e.span.start - offset) := by
      rw [← List.take_add, Nat.add_sub_cancel' h3]
    rw [List.foldr_cons, ih, Edit.applyTo, hfront, hback, hsplit, splice]
    simp only [List.append_assoc]

theorem foldlM_checked {n : Nat} : ∀ {es : List Edit} (edited : List Char), (∀ e ∈ es, e.span.stop ≤ n) →
    es.foldlM (fun edited e => if n < e.span.stop then .error (.editOutside e.span) else .ok (e.applyTo edited))
        edited = (.ok (es.foldl (fun edited e => e.applyTo edited) edited) : Except Fault (List Char))
  | [], _, _ => rfl
  | e :: es, edited, h => by
    have he : ¬ n < e.span.stop := Nat.not_lt.2 (h e List.mem_cons_self)
    rw [List.foldlM_cons, if_neg he, List.foldl_cons]
    exact foldlM_checked _ fun x hx => h x (List.mem_cons_of_mem _ hx)

theorem foldlM_outside {n : Nat} : ∀ (es : List Edit) (edited : List Char), (∃ e ∈ es, n < e.span.stop) →
    ∃ e ∈ es, n < e.span.stop ∧
      es.foldlM (fun edited e => if n < e.span.stop then .error (.editOutside e.span) else .ok (e.applyTo edited))
        edited = (.error (.editOutside e.span) : Except Fault (List Char))
  | e :: es, edited, h => by
    rw [List.foldlM_cons]
    by_cases he : n < e.span.stop
    · rw [if_pos he]
      exact ⟨e, List.mem_cons_self, he, rfl⟩
    · rw [if_neg he]
      obtain ⟨x, hx, hxn⟩ := h
      have hx : x ∈ es := (List.mem_cons.1 hx).resolve_left fun heq => he (heq ▸ hxn)
      obtain ⟨y, hy, hyn, hf⟩ := foldlM_outside es (e.applyTo edited) ⟨x, hx, hxn⟩
      exact ⟨y, List.mem_cons_of_mem _ hy, hyn, hf⟩

/-- Edits that lie before one another are carried out in the opposite order. -/
theorem descending_eq_reverse {f : Fix} (h : f.edits.Pairwise Edit.Before) : f.descending = f.edits.reverse := by
  have hperm : f.descending.Perm f.edits := List.mergeSort_perm ..
  have hsorted : f.descending.Pairwise fun a b => decide (b.span.start ≤ a.span.start) = true :=
    @List.pairwise_mergeSort _ (fun a b : Edit => decide (b.span.start ≤ a.span.start))
      (fun a b c hab hbc => by simp only [decide_eq_true_eq] at *; omega)
      (fun a b => by simp only [Bool.or_eq_true, decide_eq_true_eq]; omega) f.edits
  have hreverse : f.edits.reverse.Pairwise fun a b => decide (b.span.start ≤ a.span.start) = true :=
    List.pairwise_reverse.2 (h.imp fun hab => decide_eq_true (Nat.le_of_lt hab.1))
  refine (hperm.trans (List.reverse_perm f.edits).symm).eq_of_pairwise (fun a b ha hb hab hba => ?_) hsorted hreverse
  simp only [decide_eq_true_eq] at hab hba
  exact eq_of_start_eq h (hperm.mem_iff.1 ha) (List.mem_reverse.1 hb) (Nat.le_antisymm hba hab)

theorem applyTo_eq_splice {f : Fix} (h : f.edits.Pairwise Edit.Before) {text : List Char}
    (hin : ∀ e ∈ f.edits, e.span.stop ≤ text.length) : f.applyTo text = .ok (splice text 0 f.edits) := by
  rw [applyTo, descending_eq_reverse h, foldlM_checked text fun e he => hin e (List.mem_reverse.1 he),
    List.foldl_reverse, foldr_applyTo h hin fun _ _ => Nat.zero_le _]
  rfl

theorem apply_of_splice {f : Fix} (h : f.edits.Pairwise Edit.Before) {source edited : String}
    (hin : ∀ e ∈ f.edits, e.span.stop ≤ source.toList.length) (hsplice : splice source.toList 0 f.edits = edited.toList) :
    f.apply source = .ok edited := by
  rw [apply, applyTo_eq_splice h hin, hsplice]
  exact congrArg Except.ok String.ofList_toList

theorem applyTo_outside {f : Fix} (h : f.edits.Pairwise Edit.Before) (text : List Char)
    (hout : ∃ e ∈ f.edits, text.length < e.span.stop) :
    ∃ e ∈ f.edits, text.length < e.span.stop ∧ f.applyTo text = .error (.editOutside e.span) := by
  rw [applyTo, descending_eq_reverse h]
  obtain ⟨e, he, hn, hf⟩ := foldlM_outside f.edits.reverse text (by simpa using hout)
  exact ⟨e, List.mem_reverse.1 he, hn, hf⟩

theorem inside_of_applyTo {f : Fix} (h : f.edits.Pairwise Edit.Before) {text edited : List Char}
    (happly : f.applyTo text = .ok edited) : ∀ e ∈ f.edits, e.span.stop ≤ text.length := by
  intro e he
  refine Nat.not_lt.1 fun hlt => ?_
  obtain ⟨x, -, -, hf⟩ := applyTo_outside h text ⟨e, he, hlt⟩
  rw [hf] at happly
  cases happly

theorem toList_of_apply {f : Fix} (h : f.edits.Pairwise Edit.Before) {source edited : String}
    (happly : f.apply source = .ok edited) : edited.toList = splice source.toList 0 f.edits := by
  cases happlyTo : f.applyTo source.toList with
  | error fault =>
    rw [apply, happlyTo] at happly
    cases happly
  | ok text =>
    rw [apply, applyTo_eq_splice h (inside_of_applyTo h happlyTo)] at happly
    cases happly
    exact String.toList_ofList

/-! ## The text after a fix -/

/-- An accepted fix has its edits in a row, each before all later ones. It fails on a source if and
only if some edit ends past the end of the source, and then with a `ValueError`; else it gives the
source with all spans replaced at once, which is as much longer as the edits make it. -/
theorem apply_eq_splice {edits : List Edit} {f : Fix} (accepted : Fix.of edits = .ok f) (source : String) :
    Row edits f.edits ∧
    ((∃ fault, f.apply source = .error fault) ↔ ∃ e ∈ f.edits, source.length < e.span.stop) ∧
    (∀ fault, f.apply source = .error fault → fault.label = "ValueError") ∧
    ((∀ e ∈ f.edits, e.span.stop ≤ source.length) → ∃ result, f.apply source = .ok result ∧
      result.toList = splice source.toList 0 f.edits ∧
      (result.length : Int) = source.length + (f.edits.map growth).sum) := by
  have row := of_eq_ok_iff.1 accepted
  have hlen : source.toList.length = source.length := String.length_toList
  have inside (hin : ∀ e ∈ f.edits, e.span.stop ≤ source.length) :
      f.apply source = .ok (String.ofList (splice source.toList 0 f.edits)) := by
    rw [apply, applyTo_eq_splice row.before fun e he => hlen ▸ hin e he]
    rfl
  have outside (hout : ∃ e ∈ f.edits, source.length < e.span.stop) :
      ∃ e ∈ f.edits, f.apply source = .error (.editOutside e.span) := by
    obtain ⟨e, he, -, hf⟩ := applyTo_outside row.before source.toList (hlen ▸ hout)
    exact ⟨e, he, by rw [apply, hf]; rfl⟩
  refine ⟨row, ⟨fun ⟨fault, hf⟩ => ?_, fun hout => ?_⟩, fun fault hf => ?_, fun hin => ⟨_, inside hin, ?_, ?_⟩⟩
  · apply Classical.byContradiction
    intro hnone
    rw [inside fun e he => Nat.not_lt.1 fun hlt => hnone ⟨e, he, hlt⟩] at hf
    cases hf
  · obtain ⟨e, -, hf⟩ := outside hout
    exact ⟨_, hf⟩
  · by_cases hout : ∃ e ∈ f.edits, source.length < e.span.stop
    · obtain ⟨e, -, hf'⟩ := outside hout
      rw [hf'] at hf
      cases hf
      rfl
    · rw [inside fun e he => Nat.not_lt.1 fun hlt => hout ⟨e, he, hlt⟩] at hf
      cases hf
  · exact String.toList_ofList
  · have := length_splice row.before (fun e he => hlen ▸ hin e he) (fun _ _ => Nat.zero_le _) (Nat.zero_le _)
    rw [String.length_ofList, this, hlen]
    simp

/-- Neighbours that touch and insertions at the end of a replaced span and of the text. -/
theorem apply_touching_edits :
    let edits : List Edit := [⟨⟨8, 11, by decide⟩, "third"⟩, ⟨⟨11, 11, by decide⟩, "."⟩, ⟨⟨0, 3, by decide⟩, "first"⟩,
      ⟨⟨7, 7, by decide⟩, "!"⟩, ⟨⟨3, 7, by decide⟩, "2"⟩]
    let row : List Edit := [⟨⟨0, 3, by decide⟩, "first"⟩, ⟨⟨3, 7, by decide⟩, "2"⟩, ⟨⟨7, 7, by decide⟩, "!"⟩,
      ⟨⟨8, 11, by decide⟩, "third"⟩, ⟨⟨11, 11, by decide⟩, "."⟩]
    Fix.of edits = .ok ⟨row⟩ ∧ Fix.apply ⟨row⟩ "one two six" = .ok "first2! third." := by
  intro edits row
  have accepted : Fix.of edits = .ok ⟨row⟩ := of_eq_ok_iff.2 ⟨by decide, by decide⟩
  obtain ⟨-, -, -, inside⟩ := apply_eq_splice accepted "one two six"
  obtain ⟨result, happly, htext, -⟩ := inside (by decide)
  have : result = "first2! third." := String.toList_inj.1 (htext.trans (by decide))
  exact ⟨accepted, this ▸ happly⟩

end TreeLint.Fix
