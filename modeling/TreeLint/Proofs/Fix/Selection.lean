/-
Which of several fixes are taken. Merging asks of each fix in turn whether it conflicts with what is merged
so far; that is the same as asking whether it conflicts with a fix that is taken before it, and this says
which are taken by their positions alone. The merged fix has the edits of these and no others, and each of
the remaining fixes is logged. Main statement: `mergeAll_selection`.
-/
import TreeLint.Proofs.Fix.Sequence

namespace TreeLint.Fix

/-! ## The fixes that are taken -/

/-- The fixes of a list that are not missing and have edits. -/
def proposals (fixes : List (Option Fix)) : List Fix :=
  fixes.filterMap fun next => next.filter fun f => !f.isEmpty

/-- Whether the fix at a position is taken: it conflicts with no fix that is taken before it. -/
def isTaken (fixes : List Fix) (i : Nat) : Bool :=
  fixes[i]?.any fun f => i.all fun j _ => !isTaken fixes j || fixes[j]?.all fun g => !g.conflictsWith f

/-- The fixes at some of the first `n` positions of a list. -/
def fixesAt (positions : Nat → Bool) (fixes : List Fix) (n : Nat) : List Fix :=
  ((List.range n).filter positions).filterMap (fixes[·]?)

/-- The fixes of a list that are taken. -/
def taken (fixes : List Fix) : List Fix := fixesAt (isTaken fixes) fixes fixes.length

/-- The fixes of a list that are not taken. -/
def leftOut (fixes : List Fix) : List Fix := fixesAt (fun i => !isTaken fixes i) fixes fixes.length

variable {fixes : List Fix}

theorem isTaken_iff {i : Nat} :
    isTaken fixes i = true ↔ ∃ f, fixes[i]? = some f ∧
      ∀ j < i, isTaken fixes j = true → ∀ g, fixes[j]? = some g → g.conflictsWith f = false := by
  rw [isTaken, Option.any_eq_true]
  refine exists_congr fun f => and_congr_right fun _ => ?_
  simp only [Nat.all_eq_finRange_all, List.all_eq_true, List.mem_finRange, Bool.or_eq_true, Bool.not_eq_true',
    Option.all_eq_true, forall_const, Fin.forall_iff, ← Bool.not_eq_true, Decidable.imp_iff_not_or]

theorem isTaken_iff_of_getElem {i : Nat} {f : Fix} (h : fixes[i]? = some f) :
    isTaken fixes i = true ↔ ∀ j < i, isTaken fixes j = true → ∀ g, fixes[j]? = some g → g.conflictsWith f = false := by
  rw [isTaken_iff]
  constructor
  · rintro ⟨f', hf', hfree⟩
    obtain rfl : f = f' := Option.some.inj (h.symm.trans hf')
    exact hfree
  · exact fun hfree => ⟨f, h, hfree⟩

/-- A fix that is not taken conflicts with one that is taken before it. -/
theorem exists_conflict_of_not_taken {i : Nat} {f : Fix} (h : fixes[i]? = some f) (hout : isTaken fixes i = false) :
    ∃ j < i, isTaken fixes j = true ∧ ∃ g, fixes[j]? = some g ∧ g.conflictsWith f = true := by
  by_contra hnone
  have htaken : isTaken fixes i = true := by
    refine (isTaken_iff_of_getElem h).2 fun j hj hj' g hg => ?_
    cases hconflict : g.conflictsWith f with
    | false => rfl
    | true => exact absurd ⟨j, hj, hj', g, hg, hconflict⟩ hnone
  rw [hout] at htaken
  cases htaken

theorem mem_fixesAt {positions : Nat → Bool} {n : Nat} {g : Fix} :
    g ∈ fixesAt positions fixes n ↔ ∃ j < n, positions j = true ∧ fixes[j]? = some g := by
  simp only [fixesAt, List.mem_filterMap, List.mem_filter, List.mem_range, and_assoc]

theorem fixesAt_add_one (positions : Nat → Bool) {n : Nat} {f : Fix} (h : fixes[n]? = some f) :
    fixesAt positions fixes (n + 1) = fixesAt positions fixes n ++ if positions n then [f] else [] := by
  rw [fixesAt, List.range_succ, List.filter_append, List.filterMap_append, ← fixesAt]
  cases hn : positions n <;> simp [hn, h]

theorem isTaken_iff_fixesAt {i : Nat} {f : Fix} (h : fixes[i]? = some f) :
    isTaken fixes i = true ↔ ∀ g ∈ fixesAt (isTaken fixes) fixes i, g.conflictsWith f = false := by
  rw [isTaken_iff_of_getElem h]
  constructor
  · intro hfree g hg
    obtain ⟨j, hj, htaken, hg⟩ := mem_fixesAt.1 hg
    exact hfree j hj htaken g hg
  · intro hfree j hj htaken g hg
    exact hfree g (mem_fixesAt.2 ⟨j, hj, htaken, hg⟩)

theorem filterMap_range (n : Nat) : (List.range n).filterMap (fixes[·]?) = fixes.take n := by
  induction n with
  | zero => rfl
  | succ n ih =>
    rw [List.range_succ, List.filterMap_append, ih, List.take_add_one]
    cases h : fixes[n]? <;> simp [h]

/-- Each fix is taken or left out, and not both. -/
theorem taken_append_leftOut : (taken fixes ++ leftOut fixes).Perm fixes := by
  rw [taken, leftOut, fixesAt, fixesAt, ← List.filterMap_append]
  have hsplit := (List.filter_append_perm (isTaken fixes) (List.range fixes.length)).filterMap (fixes[·]?)
  rwa [filterMap_range, List.take_length] at hsplit

/-! ## The fixes that have edits -/

theorem foldlM_takeInto_eq (fixes : List (Option Fix)) (m : Fix) :
    fixes.foldlM takeInto m = (proposals fixes).foldlM (fun m f => takeInto m (some f)) m := by
  induction fixes generalizing m with
  | nil => rfl
  | cons next fixes ih =>
    rw [List.foldlM_cons, proposals]
    cases hnext : next.filter fun f => !f.isEmpty with
    | none =>
      have hempty : ∀ f, next = some f → f.isEmpty = true := by
        rintro f rfl
        simpa using hnext
      rw [takeInto_of_empty m hempty, pure_bind, ih, List.filterMap_cons_none hnext, proposals]
    | some f =>
      obtain ⟨rfl, -⟩ := Option.filter_eq_some_iff.1 hnext
      rw [List.filterMap_cons_some hnext, List.foldlM_cons]
      exact congrArg _ (funext ih)

theorem of_mem_proposals {fixes : List (Option Fix)} {f : Fix} (h : f ∈ proposals fixes) :
    some f ∈ fixes ∧ f.isEmpty = false := by
  obtain ⟨next, hmem, hnext⟩ := List.mem_filterMap.1 h
  obtain ⟨rfl, hedits⟩ := Option.filter_eq_some_iff.1 hnext
  exact ⟨hmem, by simpa using hedits⟩

/-! ## One step -/

theorem conflictsWith_of_perm {m f : Fix} {earlier : List Fix} (h : m.edits.Perm (earlier.flatMap Fix.edits)) :
    m.conflictsWith f = false ↔ ∀ g ∈ earlier, g.conflictsWith f = false := by
  simp only [not_conflictsWith_iff]
  constructor
  · intro hfree g hg a ha
    exact hfree a (h.mem_iff.2 (List.mem_flatMap.2 ⟨g, hg, ha⟩))
  · intro hfree a ha
    obtain ⟨g, hg, ha⟩ := List.mem_flatMap.1 (h.mem_iff.1 ha)
    exact hfree g hg a ha

/-- What merging has come to after the first `n` fixes: those that are taken are merged, and of each of the
others an entry has been added to the log. -/
structure Selected (fixes : List Fix) (log : Log) (n : Nat) (m : Fix) (log' : Log) : Prop where
  row : Row ((fixesAt (isTaken fixes) fixes n).flatMap Fix.edits) m.edits
  logged : log' = log ++ (fixesAt (fun i => !isTaken fixes i) fixes n).map leftOutEntry

theorem Selected.start (log : Log) : Selected fixes log 0 empty log :=
  ⟨⟨.refl [], .nil⟩, (List.append_nil log).symm⟩

/-- The next fix is merged if it is taken, and logged otherwise. -/
theorem Selected.step {log log' : Log} {n : Nat} {m f : Fix} (h : Selected fixes log n m log') (hf : fixes[n]? = some f)
    (accepted : Accepted f) (edits : f.isEmpty = false) :
    ∃ m' log'', takeInto m (some f) log' = (.ok m', log'') ∧ Selected fixes log (n + 1) m' log'' := by
  -- to ask what is merged so far is to ask each of the fixes taken before
  have htaken := (isTaken_iff_fixesAt hf).trans (conflictsWith_of_perm h.row.perm).symm
  rw [takeInto_of_edits m edits]
  cases hconflict : m.conflictsWith f with
  | true =>
    have hout : isTaken fixes n = false := by rw [← Bool.not_eq_true, htaken, hconflict]; nofun
    refine ⟨m, _, rfl, ?_, ?_⟩
    · simpa [fixesAt_add_one _ hf, hout] using h.row
    · simp [fixesAt_add_one _ hf, hout, h.logged]
  | false =>
    have hin : isTaken fixes n = true := htaken.2 hconflict
    obtain ⟨m', hm'⟩ := exists_merge (accepted_of_before h.row.before) accepted hconflict
    refine ⟨m', log', by simp [hm'], ?_, ?_⟩
    · simpa [fixesAt_add_one _ hf, hin] using (merge_row_iff h.row).1 hm'
    · simpa [fixesAt_add_one _ hf, hin] using h.logged

/-! ## All steps -/

theorem foldlM_selected (wellFormed : ∀ f ∈ fixes, f.isWellFormed = true) (edits : ∀ f ∈ fixes, f.isEmpty = false)
    (log : Log) {n : Nat} (hn : n ≤ fixes.length) :
    ∃ m log', (fixes.take n).foldlM (fun m f => takeInto m (some f)) empty log = (.ok m, log') ∧
      Selected fixes log n m log' := by
  induction n with
  | zero => exact ⟨empty, log, rfl, .start log⟩
  | succ n ih =>
    obtain ⟨m, log', hrun, selected⟩ := ih (Nat.le_of_succ_le hn)
    have hf : fixes[n]? = some fixes[n] := List.getElem?_eq_getElem hn
    have hmem : fixes[n] ∈ fixes := List.getElem_mem hn
    have accepted : Accepted fixes[n] := accepted_of_before (ascends_iff.1 (wellFormed _ hmem))
    obtain ⟨m', log'', hstep, selected'⟩ := selected.step hf accepted (edits _ hmem)
    refine ⟨m', log'', ?_, selected'⟩
    rw [List.take_add_one, hf, Option.toList_some, List.foldlM_append, Attempt.bind_apply, hrun]
    simp only [List.foldlM_cons, List.foldlM_nil, bind_pure, hstep]

/-- The fixes that are taken are merged, and of each of the others one entry is logged. -/
theorem mergeAll_eq {fixes : List (Option Fix)} (wellFormed : ∀ f ∈ proposals fixes, f.isWellFormed = true) (log : Log) :
    ∃ m, mergeAll fixes log = (.ok m, log ++ (leftOut (proposals fixes)).map leftOutEntry) ∧
      Row ((taken (proposals fixes)).flatMap Fix.edits) m.edits := by
  obtain ⟨m, log', hrun, selected⟩ :=
    foldlM_selected wellFormed (fun f hf => (of_mem_proposals hf).2) log (Nat.le_refl _)
  rw [List.take_length, selected.logged] at hrun
  exact ⟨m, (congrFun (foldlM_takeInto_eq fixes empty) log).trans hrun, selected.row⟩

/-- Fixes that are well formed are merged, whichever of them conflict with each other. -/
theorem mergeAll_succeeds {fixes : List (Option Fix)} (h : ∀ f, some f ∈ fixes → f.isWellFormed = true) :
    ∃ m, merged fixes = .ok m := by
  obtain ⟨m, hrun, -⟩ := mergeAll_eq (fun f hf => h f (of_mem_proposals hf).1) []
  exact ⟨m, congrArg Prod.fst hrun⟩

/-! ## Merging the fixes taken -/

theorem isTaken_of_free (free : fixes.Pairwise fun g f => g.conflictsWith f = false) {i : Nat} (hi : i < fixes.length) :
    isTaken fixes i = true := by
  refine (isTaken_iff_of_getElem (List.getElem?_eq_getElem hi)).2 fun j hj _ g hg => ?_
  obtain ⟨hj', rfl⟩ := List.getElem?_eq_some_iff.1 hg
  exact List.pairwise_iff_getElem.1 free j i hj' hi hj

/-- Fixes without conflicts are taken, all of them. -/
theorem taken_of_free (free : fixes.Pairwise fun g f => g.conflictsWith f = false) :
    taken fixes = fixes ∧ leftOut fixes = [] := by
  have hall : ∀ i ∈ List.range fixes.length, isTaken fixes i = true :=
    fun i hi => isTaken_of_free free (List.mem_range.1 hi)
  constructor
  · rw [taken, fixesAt, List.filter_eq_self.2 hall, filterMap_range, List.take_length]
  · rw [leftOut, fixesAt, List.filter_eq_nil_iff.2 fun i hi => by simp [hall i hi]]
    rfl

/-- Fixes whose edits stand in a row are merged into it, in whatever order they come. -/
theorem mergeAll_of_row {fixes : List (Option Fix)} (wellFormed : ∀ f ∈ proposals fixes, f.isWellFormed = true)
    {m : Fix} (row : Row ((proposals fixes).flatMap Fix.edits) m.edits) (log : Log) :
    mergeAll fixes log = (.ok m, log) := by
  have free : (proposals fixes).Pairwise fun g f => g.conflictsWith f = false :=
    (List.pairwise_flatMap.1 row.free).2.imp not_conflictsWith_iff.2
  obtain ⟨m', hrun, row'⟩ := mergeAll_eq wellFormed log
  rw [(taken_of_free free).1] at row'
  obtain rfl : m = m' := congrArg Fix.mk (row.unique row')
  rw [hrun, (taken_of_free free).2, List.map_nil, List.append_nil]

/-- Well-formed fixes, of which some may be missing or empty, are always merged. A fix with edits is taken if
and only if none of its edits conflicts with an edit of a fix taken before it; so the first is taken, and one
that is left out conflicts with one taken before. The merged fix is well formed and has the edits of the
fixes taken, each whole, and of no others; each fix left out is logged once, and nothing else is. Merging the
fixes taken in any other order comes to the same fix. -/
theorem mergeAll_selection {fixes : List (Option Fix)} (wellFormed : ∀ f, some f ∈ fixes → f.isWellFormed = true)
    (log : Log) :
    let proposed := proposals fixes
    ∃ m, mergeAll fixes log = (.ok m, log ++ (leftOut proposed).map leftOutEntry) ∧
      m.isWellFormed = true ∧ m.edits.Perm ((taken proposed).flatMap Fix.edits) ∧
      (taken proposed ++ leftOut proposed).Perm proposed ∧
      (∀ i f, proposed[i]? = some f →
        (isTaken proposed i = true ↔ ∀ j < i, isTaken proposed j = true → ∀ g, proposed[j]? = some g →
          ∀ a ∈ g.edits, ∀ b ∈ f.edits, a.conflicts b = false)) ∧
      (proposed ≠ [] → isTaken proposed 0 = true) ∧
      (∀ i f, proposed[i]? = some f → isTaken proposed i = false →
        ∃ j < i, isTaken proposed j = true ∧ ∃ g, proposed[j]? = some g ∧ g.conflictsWith f = true) ∧
      ∀ reordered log', (proposals reordered).Perm (taken proposed) → mergeAll reordered log' = (.ok m, log') := by
  intro proposed
  have wellFormed' : ∀ f ∈ proposed, f.isWellFormed = true := fun f hf => wellFormed f (of_mem_proposals hf).1
  obtain ⟨m, hrun, row⟩ := mergeAll_eq wellFormed' log
  refine ⟨m, hrun, ascends_iff.2 row.before, row.perm, taken_append_leftOut, ?_, ?_, ?_, ?_⟩
  · intro i f hf
    simpa only [not_conflictsWith_iff] using isTaken_iff_of_getElem hf
  · intro hne
    have hfirst := List.getElem?_eq_getElem (List.length_pos_iff.2 hne)
    exact (isTaken_iff_of_getElem hfirst).2 fun j hj => absurd hj (Nat.not_lt_zero j)
  · exact fun i f hf hout => exists_conflict_of_not_taken hf hout
  · intro reordered log' hperm
    refine mergeAll_of_row (fun f hf => wellFormed' f ?_) ((Row.congr (hperm.flatMap_right Fix.edits)).2 row) log'
    exact taken_append_leftOut.mem_iff.1 (List.mem_append_left _ (hperm.mem_iff.1 hf))

/-- The second fix conflicts with the first by one of its two edits and is left out whole, so the fourth is
taken, which conflicts with the other. -/
theorem mergeAll_selection_crossing :
    let replaced : Fix := ⟨[⟨⟨4, 8, by decide⟩, "x"⟩]⟩
    let crossing : Fix := ⟨[⟨⟨2, 3, by decide⟩, "y"⟩, ⟨⟨6, 6, by decide⟩, "z"⟩]⟩
    let around : Fix := ⟨[⟨⟨0, 1, by decide⟩, "("⟩, ⟨⟨8, 8, by decide⟩, ")"⟩]⟩
    let between : Fix := ⟨[⟨⟨2, 3, by decide⟩, "w"⟩]⟩
    let fixes : List (Option Fix) := [none, some replaced, some empty, some crossing, some around, none, some between]
    (∀ f, some f ∈ fixes → f.isWellFormed = true) ∧
    ∃ m, mergeAll fixes [] = (.ok m, [leftOutEntry crossing]) ∧
      m.edits = [⟨⟨0, 1, by decide⟩, "("⟩, ⟨⟨2, 3, by decide⟩, "w"⟩, ⟨⟨4, 8, by decide⟩, "x"⟩, ⟨⟨8, 8, by decide⟩, ")"⟩] ∧
      mergeAll [some between, none, some around, some replaced] [] = (.ok m, []) := by
  intro replaced crossing around between fixes
  have wellFormed : ∀ f, some f ∈ fixes → f.isWellFormed = true := by
    have hall : ∀ next ∈ fixes, ∀ f ∈ next, f.isWellFormed = true := by decide
    exact fun f hf => hall (some f) hf f rfl
  have htaken : taken (proposals fixes) = [replaced, around, between] := by cbv
  have hleftOut : leftOut (proposals fixes) = [crossing] := by cbv
  obtain ⟨m, hrun, hm, hedits, -, -, -, -, hreordered⟩ := mergeAll_selection wellFormed []
  rw [htaken] at hedits hreordered
  rw [hleftOut] at hrun
  refine ⟨wellFormed, m, hrun, ?_, hreordered _ [] (by decide)⟩
  have row : Row _ m.edits := ⟨hedits, ascends_iff.1 hm⟩
  exact row.unique ⟨by decide, by decide⟩

end TreeLint.Fix
