/-
Paths from the working directory on, and how they are spelled. A path that is written out and read again is the
same path. Main statement: `ofText_text`.
-/
import Mathlib.Data.List.Basic
import TreeLint.Files.Path

namespace TreeLint.FilePath

variable {p q : FilePath} {s : String} {way : List String}

/-! ## Pieces -/

theorem pieces_cons (c : Char) (cs : List Char) : ∃ piece rest, pieces cs = piece :: rest ∧
    pieces (c :: cs) = if c = '/' then [] :: piece :: rest else (c :: piece) :: rest := by
  induction cs generalizing c with
  | nil => exact ⟨[], [], rfl, rfl⟩
  | cons d ds ih =>
    obtain ⟨piece, rest, -, hds⟩ := ih d
    split at hds <;> exact ⟨_, _, hds, by rw [pieces, hds]⟩

theorem pieces_eq_splitOn (cs : List Char) : pieces cs = cs.splitOn '/' := by
  induction cs with
  | nil => rfl
  | cons c cs ih =>
    obtain ⟨piece, rest, hcs, hcons⟩ := pieces_cons c cs
    rw [hcons, List.splitOn, List.splitOnP_cons_eq_if_modifyHead, ← List.splitOn, ← ih, hcs]
    by_cases hc : c = '/' <;> simp [hc]

theorem not_mem_of_mem_pieces {cs : List Char} : ∀ piece ∈ pieces cs, '/' ∉ piece := by
  induction cs with
  | nil => simp [pieces]
  | cons c cs ih =>
    obtain ⟨piece, rest, hcs, hcons⟩ := pieces_cons c cs
    rw [hcs, List.forall_mem_cons] at ih
    rw [hcons]
    split
    · exact List.forall_mem_cons.2 ⟨List.not_mem_nil, List.forall_mem_cons.2 ih⟩
    · rename_i hc
      exact List.forall_mem_cons.2 ⟨fun hmem => (List.mem_cons.1 hmem).elim (Ne.symm hc) ih.1, ih.2⟩

theorem exists_piece {c : Char} {cs : List Char} (hmem : c ∈ cs) (hc : c ≠ '/') : ∃ piece ∈ pieces cs, c ∈ piece := by
  induction cs with
  | nil => cases hmem
  | cons d cs ih =>
    obtain ⟨piece, rest, hcs, hcons⟩ := pieces_cons d cs
    rw [hcs] at ih
    rw [hcons]
    split
    · rename_i hd
      obtain ⟨found, hfound, hin⟩ := ih ((List.mem_cons.1 hmem).resolve_left (hd ▸ hc))
      exact ⟨found, List.mem_cons_of_mem _ hfound, hin⟩
    · rcases List.mem_cons.1 hmem with rfl | hmem
      · exact ⟨_, List.mem_cons_self, List.mem_cons_self⟩
      · obtain ⟨found, hfound, hin⟩ := ih hmem
        rcases List.mem_cons.1 hfound with rfl | hfound
        · exact ⟨_, List.mem_cons_self, List.mem_cons_of_mem d hin⟩
        · exact ⟨found, List.mem_cons_of_mem _ hfound, hin⟩

/-- Without an empty piece there is no slash in front. -/
theorem takeWhile_slash {cs : List Char} (h : ∀ piece ∈ pieces cs, piece ≠ []) : cs.takeWhile (· = '/') = [] := by
  cases cs with
  | nil => rfl
  | cons c cs =>
    obtain ⟨piece, rest, -, hcons⟩ := pieces_cons c cs
    by_cases hc : c = '/'
    · rw [hcons, if_pos hc] at h
      exact absurd rfl (h [] List.mem_cons_self)
    · exact List.takeWhile_cons_of_neg (by simpa using hc)

/-! ## Plain paths -/

/-- A name that can stand between slashes, and that says something there. -/
structure IsPart (name : String) : Prop where
  ne_empty : name ≠ ""
  ne_dot : name ≠ "."
  slash : '/' ∉ name.toList

/-- A path from the working directory on, made of such names. -/
structure IsPlain (p : FilePath) : Prop where
  lead : p.lead = ""
  parts : ∀ name ∈ p.parts, IsPart name

theorem ofText_isPlain (h : (ofText s).isAbsolute = false) : (ofText s).IsPlain where
  lead := by simpa [isAbsolute] using h
  parts name hname := by
    obtain ⟨hpiece, hkept⟩ := List.mem_filter.1 hname
    obtain ⟨piece, hmem, rfl⟩ := List.mem_map.1 hpiece
    simp only [ne_eq, Bool.and_eq_true, Bool.not_eq_true', decide_not, decide_eq_false_iff_not] at hkept
    exact ⟨hkept.1, hkept.2, by rw [String.toList_ofList]; exact not_mem_of_mem_pieces piece hmem⟩

theorem IsPlain.below (h : p.IsPlain) (hway : ∀ name ∈ way, IsPart name) : (p.below way).IsPlain :=
  ⟨h.lead, List.forall_mem_append.2 ⟨h.parts, hway⟩⟩

theorem IsPlain.text_eq (h : p.IsPlain) : p.text = if p.parts = [] then "." else "/".intercalate p.parts := by
  unfold text isAbsolute
  rw [h.lead]
  cases p.parts <;> rfl

theorem IsPlain.pieces_text (h : p.IsPlain) (hparts : p.parts ≠ []) :
    pieces p.text.toList = p.parts.map String.toList := by
  rw [h.text_eq, if_neg hparts, pieces_eq_splitOn, String.toList_intercalate]
  refine List.splitOn_intercalate '/' (fun piece hpiece => ?_) (mt List.map_eq_nil_iff.1 hparts)
  obtain ⟨name, hname, rfl⟩ := List.mem_map.1 hpiece
  exact (h.parts name hname).slash

/-- A plain path is read back from how it is spelled. -/
theorem IsPlain.ofText_text (h : p.IsPlain) : ofText p.text = p := by
  by_cases hparts : p.parts = []
  · rw [h.text_eq, if_pos hparts]
    obtain ⟨lead, parts⟩ := p
    obtain rfl : lead = "" := h.lead
    obtain rfl : parts = [] := hparts
    rfl
  · have hlead : p.text.toList.takeWhile (· = '/') = [] := takeWhile_slash fun piece hpiece => by
      rw [h.pieces_text hparts] at hpiece
      obtain ⟨name, hname, rfl⟩ := List.mem_map.1 hpiece
      exact mt String.toList_eq_nil_iff.1 (h.parts name hname).ne_empty
    have hnames : ((p.parts.map String.toList).map String.ofList).filter (fun q => q ≠ "" && q ≠ ".") = p.parts := by
      rw [List.map_map, show String.ofList ∘ String.toList = id from funext fun _ => String.ofList_toList, List.map_id]
      refine List.filter_eq_self.2 fun name hname => ?_
      simp [(h.parts name hname).ne_empty, (h.parts name hname).ne_dot]
    unfold ofText
    rw [hlead, h.pieces_text hparts, hnames]
    obtain ⟨lead, parts⟩ := p
    obtain rfl : lead = "" := h.lead
    rfl

theorem IsPlain.text_inj (hp : p.IsPlain) (hq : q.IsPlain) (h : p.text = q.text) : p = q := by
  rw [← hp.ofText_text, h, hq.ofText_text]

theorem IsPlain.hasNull_eq_false (h : p.IsPlain) (hnull : ∀ name ∈ p.parts, '\x00' ∉ name.toList) :
    p.hasNull = false := by
  unfold hasNull
  rw [List.contains_eq_mem, decide_eq_false_iff_not]
  intro hmem
  by_cases hparts : p.parts = []
  · rw [h.text_eq, if_pos hparts] at hmem
    exact absurd hmem (by decide +kernel)
  · obtain ⟨piece, hpiece, hin⟩ := exists_piece hmem (by decide)
    rw [h.pieces_text hparts] at hpiece
    obtain ⟨name, hname, rfl⟩ := List.mem_map.1 hpiece
    exact hnull name hname hin

end TreeLint.FilePath
