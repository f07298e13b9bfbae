/-
Fixes one after the other. Merging is refused just for fixes that conflict, and where it is not refused
the order and the grouping play no part. Fixes that stand one behind the other in the text may be applied
singly, from the last to the first, in place of their merge: what the later ones do to the length of the
text is behind the places of the earlier ones. Main statement: `merge_apply_in_turn`.
-/
import TreeLint.Proofs.Fix.Acceptance
import TreeLint.Proofs.Fix.Merge
import TreeLint.Proofs.Fix.Splice

namespace TreeLint.Fix

/-- Whether a fix is one that `Fix.of` gives. -/
def Accepted (f : Fix) : Prop := ∃ edits, Fix.of edits = .ok f

theorem Accepted.before {f : Fix} (h : Accepted f) : f.edits.Pairwise Edit.Before := by
  obtain ⟨edits, hf⟩ := h
  exact (of_eq_ok_iff.1 hf).before

theorem Accepted.row {f : Fix} (h : Accepted f) : Row f.edits f.edits := ⟨.refl f.edits, h.before⟩

theorem accepted_of_before {f : Fix} (h : f.edits.Pairwise Edit.Before) : Accepted f :=
  ⟨f.edits, of_eq_ok_iff.2 ⟨.refl f.edits, h⟩⟩

/-! ## Merging -/

/-- Two accepted fixes are refused to be merged if and only if they conflict. -/
theorem merge_refused_iff {a b : Fix} (ha : Accepted a) (hb : Accepted b) :
    (∃ fault, a.merge b = .error fault) ↔ a.conflictsWith b = true := by
  have hcross : Free (a.edits ++ b.edits) ↔ a.conflictsWith b = false := by
    rw [Free, List.pairwise_append, not_conflictsWith_iff]
    exact ⟨fun h => h.2.2, fun h => ⟨Free.of_before ha.before, Free.of_before hb.before, h⟩⟩
  rw [merge, refused_iff, hcross, Bool.not_eq_false]

theorem exists_merge {a b : Fix} (ha : Accepted a) (hb : Accepted b) (h : a.conflictsWith b = false) :
    ∃ m, a.merge b = .ok m := by
  cases hmerge : a.merge b with
  | ok m => exact ⟨m, rfl⟩
  | error fault =>
    rw [(merge_refused_iff ha hb).1 ⟨fault, hmerge⟩] at h
    cases h

theorem merge_comm {a b m : Fix} (h : a.merge b = .ok m) : b.merge a = .ok m :=
  of_perm List.perm_append_comm h

/-- A fix whose edits are the row of some edits is merged with a further one into the row of both. -/
theorem merge_row_iff {edits : List Edit} {a b m : Fix} (ha : Row edits a.edits) :
    a.merge b = .ok m ↔ Row (edits ++ b.edits) m.edits := by
  rw [merge, of_eq_ok_iff, Row.congr (ha.perm.append_right b.edits)]

/-- Merging fixes from the left comes to the row of all their edits, as soon as there is one. -/
theorem foldlM_merge_iff {edits : List Edit} {first m : Fix} (fixes : List Fix) (h : Row edits first.edits) :
    fixes.foldlM merge first = .ok m ↔ Row (edits ++ fixes.flatMap Fix.edits) m.edits := by
  induction fixes generalizing edits first with
  | nil =>
    rw [List.flatMap_nil, List.append_nil]
    constructor
    · rintro ⟨⟩
      exact h
    · intro hm
      obtain rfl : first = m := congrArg Fix.mk (h.unique hm)
      rfl
  | cons f fixes ih =>
    rw [List.foldlM_cons, List.flatMap_cons, ← List.append_assoc]
    cases hmerge : first.merge f with
    | ok next => exact ih ((merge_row_iff h).1 hmerge)
    | error fault =>
      -- a row of all edits would be free of the conflict for which the first two are refused
      refine iff_of_false (by rintro ⟨⟩) fun hm => refused_iff.1 ⟨fault, hmerge⟩ ?_
      have hfront : Free (edits ++ f.edits) := (List.pairwise_append.1 hm.free).1
      exact hfront.perm (h.perm.symm.append_right f.edits)

theorem merge_merge_iff {a b c m : Fix} (ha : Accepted a) :
    (a.merge b >>= (·.merge c)) = .ok m ↔ Row (a.edits ++ (b.edits ++ c.edits)) m.edits := by
  have h := foldlM_merge_iff (m := m) [b, c] ha.row
  simpa only [List.foldlM_cons, List.foldlM_nil, bind_pure, List.flatMap_cons, List.flatMap_nil, List.append_nil] using h

/-- Three fixes are merged to the same, whichever two of them come first. -/
theorem merge_assoc_iff {a b c m : Fix} (ha : Accepted a) (hb : Accepted b) :
    (a.merge b >>= (·.merge c)) = .ok m ↔ (b.merge c >>= a.merge) = .ok m := by
  have hturn : (b.merge c >>= a.merge) = .ok m ↔ (b.merge c >>= (·.merge a)) = .ok m := by
    cases b.merge c with
    | error fault => rfl
    | ok bc => exact ⟨merge_comm, merge_comm⟩
  rw [hturn, merge_merge_iff ha, merge_merge_iff hb, ← List.append_assoc b.edits]
  exact Row.congr List.perm_append_comm

/-! ## Two fixes in turn -/

/-- What stands in front of the edits of a fix is still there afterwards. -/
theorem le_length_of_applyTo {f : Fix} (h : f.edits.Pairwise Edit.Before) {text edited : List Char}
    (happly : f.applyTo text = .ok edited) {offset : Nat} (hfront : ∀ e ∈ f.edits, offset ≤ e.span.start)
    (hlen : offset ≤ text.length) : offset ≤ edited.length := by
  have hin := inside_of_applyTo h happly
  have hspliced : edited = text.take offset ++ splice text offset f.edits := by
    rw [applyTo_eq_splice h hin] at happly
    cases happly
    rw [← foldr_applyTo h hin hfront, foldr_applyTo h hin fun _ _ => Nat.zero_le _]
    rfl
  rw [hspliced, List.length_append, List.length_take]
  omega

/-- Applying first the fix behind and then the one in front is applying all edits at once: the text that
the fix in front is applied to has another length, but the places of its edits are within both. -/
theorem applyTo_append {f g : Fix} (h : (f.edits ++ g.edits).Pairwise Edit.Before) (text : List Char) :
    (g.applyTo text >>= f.applyTo) = Fix.applyTo ⟨f.edits ++ g.edits⟩ text := by
  have ⟨hf, hg, hfg⟩ := List.pairwise_append.1 h
  have hsplit : Fix.applyTo ⟨f.edits ++ g.edits⟩ text = g.applyTo text >>= fun edited =>
      f.edits.reverse.foldlM (fun edited e =>
        if text.length < e.span.stop then .error (.editOutside e.span) else .ok (e.applyTo edited)) edited := by
    rw [applyTo, descending_eq_reverse (f := ⟨f.edits ++ g.edits⟩) h, List.reverse_append, List.foldlM_append,
      applyTo, descending_eq_reverse hg]
  rw [hsplit]
  cases hedited : g.applyTo text with
  | error fault => rfl
  | ok edited =>
    rw [ok_bind, ok_bind]
    cases hge : g.edits with
    | nil =>
      have hsame : edited = text := by
        rw [applyTo, descending_eq_reverse hg, hge] at hedited
        cases hedited
        rfl
      rw [hsame, applyTo, descending_eq_reverse hf]
    | cons r _ =>
      have hr : r ∈ g.edits := hge ▸ List.mem_cons_self
      have hin (e : Edit) (he : e ∈ f.edits) : e.span.stop ≤ text.length ∧ e.span.stop ≤ edited.length := by
        have hlen : e.span.stop ≤ text.length :=
          Nat.le_trans (hfg e he r hr).2 (Nat.le_trans r.span.start_le_stop (inside_of_applyTo hg hedited r hr))
        exact ⟨hlen, le_length_of_applyTo hg hedited (fun x hx => (hfg e he x hx).2) hlen⟩
      rw [applyTo, descending_eq_reverse hf, foldlM_checked edited fun e he => (hin e (List.mem_reverse.1 he)).2,
        foldlM_checked edited fun e he => (hin e (List.mem_reverse.1 he)).1]

/-! ## All fixes in turn -/

theorem apply_append {f g : Fix} (h : (f.edits ++ g.edits).Pairwise Edit.Before) (source : String) :
    (g.apply source >>= f.apply) = Fix.apply ⟨f.edits ++ g.edits⟩ source := by
  rw [apply, apply, ← applyTo_append h]
  cases g.applyTo source.toList with
  | error fault => rfl
  | ok edited =>
    show f.apply (String.ofList edited) = String.ofList <$> f.applyTo edited
    rw [apply, String.toList_ofList]

/-- Fixes that stand one behind the other, applied from the last to the first, do what all their edits do
at once. -/
theorem foldrM_apply {fixes : List Fix} (h : (fixes.flatMap Fix.edits).Pairwise Edit.Before) (source : String) :
    fixes.foldrM (fun f text => f.apply text) source = Fix.apply ⟨fixes.flatMap Fix.edits⟩ source := by
  induction fixes with
  | nil => exact (apply_of_splice (f := ⟨[]⟩) .nil nofun rfl).symm
  | cons f fixes ih =>
    rw [List.flatMap_cons] at h
    rw [List.foldrM_cons, ih (List.pairwise_append.1 h).2.1, List.flatMap_cons]
    exact apply_append h source

/-- Fixes that do not conflict and start one behind the other stand one behind the other. -/
theorem before_of_apart {fixes : List Fix} (accepted : ∀ f ∈ fixes, Accepted f)
    (apart : fixes.Pairwise fun f g =>
      f.conflictsWith g = false ∧ ∀ a ∈ f.edits, ∀ b ∈ g.edits, a.span.start < b.span.start) :
    (fixes.flatMap Fix.edits).Pairwise Edit.Before := by
  refine List.pairwise_flatMap.2 ⟨fun f hf => (accepted f hf).before, apart.imp ?_⟩
  rintro f g ⟨hfree, hstart⟩ a ha b hb
  have hab : a.precedes b = true := by simp [Edit.precedes, hstart a ha b hb]
  exact (Edit.before_iff_of_precedes hab).2 (not_conflictsWith_iff.1 hfree a ha b hb)

/-- Of accepted fixes, two that conflict are refused to be merged and only they; conflicts go both ways;
merging gives the same in any order and grouping in which it gives a fix. Accepted fixes that do not
conflict, each starting behind the ones before it, are merged; and on every source, to apply them one at a
time from the last to the first comes to the same text, or the same fault, as to apply their merge. -/
theorem merge_apply_in_turn {a b c : Fix} (ha : Accepted a) (hb : Accepted b) {fixes : List Fix}
    (accepted : ∀ f ∈ fixes, Accepted f)
    (apart : fixes.Pairwise fun f g =>
      f.conflictsWith g = false ∧ ∀ a ∈ f.edits, ∀ b ∈ g.edits, a.span.start < b.span.start) :
    (((∃ fault, a.merge b = .error fault) ↔ a.conflictsWith b = true) ∧
      ∀ fault, a.merge b = .error fault → fault.label = "OverlappingEditsError") ∧
    a.conflictsWith b = b.conflictsWith a ∧
    (∀ m, a.merge b = .ok m ↔ b.merge a = .ok m) ∧
    (∀ m, (a.merge b >>= (·.merge c)) = .ok m ↔ (b.merge c >>= a.merge) = .ok m) ∧
    ∃ m, fixes.foldlM merge empty = .ok m ∧
      ∀ source, fixes.foldrM (fun f text => f.apply text) source = m.apply source := by
  refine ⟨⟨merge_refused_iff ha hb, fun fault => label_of_refused⟩, conflictsWith_comm a b,
    fun m => ⟨merge_comm, merge_comm⟩, fun m => merge_assoc_iff ha hb, ?_⟩
  have hbefore := before_of_apart accepted apart
  refine ⟨⟨fixes.flatMap Fix.edits⟩, ?_, foldrM_apply hbefore⟩
  exact (foldlM_merge_iff fixes ⟨.refl [], .nil⟩).2 ⟨.refl _, hbefore⟩

/-- The fix behind makes the text longer, the one in the middle shorter, and one has no edits. -/
theorem merge_apply_in_turn_lengths :
    let front : Fix := ⟨[⟨⟨0, 3, by decide⟩, "first"⟩, ⟨⟨3, 3, by decide⟩, ","⟩]⟩
    let middle : Fix := ⟨[⟨⟨4, 8, by decide⟩, ""⟩]⟩
    let back : Fix := ⟨[⟨⟨8, 11, by decide⟩, "third"⟩, ⟨⟨11, 11, by decide⟩, "."⟩]⟩
    let fixes : List Fix := [front, middle, empty, back]
    (∀ f ∈ fixes, Accepted f) ∧
    (fixes.Pairwise fun f g =>
      f.conflictsWith g = false ∧ ∀ a ∈ f.edits, ∀ b ∈ g.edits, a.span.start < b.span.start) ∧
    ∃ m, fixes.foldlM merge empty = .ok m ∧ (front.merge back >>= middle.merge) = .ok m ∧
      m.apply "one two six" = .ok "first, third." ∧
      fixes.foldrM (fun f text => f.apply text) "one two six" = .ok "first, third." := by
  intro front middle back fixes
  have accepted : ∀ f ∈ fixes, Accepted f := by
    have hbefore : ∀ f ∈ fixes, f.edits.Pairwise Edit.Before := by decide
    exact fun f hf => accepted_of_before (hbefore f hf)
  have apart : fixes.Pairwise fun f g =>
      f.conflictsWith g = false ∧ ∀ a ∈ f.edits, ∀ b ∈ g.edits, a.span.start < b.span.start := by decide
  have hfront : Accepted front := accepted_of_before (by decide)
  have hmiddle : Accepted middle := accepted_of_before (by decide)
  obtain ⟨-, -, -, hgroup, m, hm, hturn⟩ := merge_apply_in_turn (c := back) hmiddle hfront accepted apart
  have row := (foldlM_merge_iff fixes ⟨.refl [], .nil⟩).1 hm
  have hedits : m.edits = [⟨⟨0, 3, by decide⟩, "first"⟩, ⟨⟨3, 3, by decide⟩, ","⟩, ⟨⟨4, 8, by decide⟩, ""⟩,
      ⟨⟨8, 11, by decide⟩, "third"⟩, ⟨⟨11, 11, by decide⟩, "."⟩] := row.unique ⟨.refl _, by decide⟩
  have happly : m.apply "one two six" = .ok "first, third." :=
    apply_of_splice row.before (by rw [hedits]; decide) (by rw [hedits]; decide)
  have hmerged : (middle.merge front >>= (·.merge back)) = .ok m :=
    (merge_merge_iff hmiddle).2 ⟨by rw [hedits]; decide, row.before⟩
  exact ⟨accepted, apart, m, hm, (hgroup m).1 hmerged, happly, (hturn _).trans happly⟩

end TreeLint.Fix
