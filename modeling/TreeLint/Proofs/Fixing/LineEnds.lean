/-
What fixing a file does to its line ends. The edits are made for the text as it is read and are carried
out on that text, so every line end outside them is written as a line feed. Main statement:
`fixFile_lineEnds`: the file is its raw text with the spans of the edits replaced if and only if that
text has no carriage return outside them.
-/
import Mathlib.Algebra.GroupWithZero.Nat
import TreeLint.Proofs.Fixing.File
import TreeLint.Proofs.Text.LineEnds

namespace TreeLint

open Text

/-! ## What edits leave alone -/

namespace Fix

/-- What a text has behind an offset and outside the spans of edits. -/
def kept (text : List Char) (offset : Nat) : List Edit → List Char
  | [] => text.drop offset
  | e :: es => (text.drop offset).take (e.span.start - offset) ++ kept text e.span.stop es

theorem mem_of_mem_kept {text : List Char} {c : Char} {es : List Edit} {offset : Nat} (h : c ∈ kept text offset es) :
    c ∈ text := by
  induction es generalizing offset with
  | nil => exact List.mem_of_mem_drop h
  | cons e es ih =>
    rcases List.mem_append.1 h with h | h
    · exact List.mem_of_mem_drop (List.mem_of_mem_take h)
    · exact ih h

/-- A text with spans replaced has the characters of what is left alone and of the replacements. -/
theorem count_splice (c : Char) (text : List Char) (offset : Nat) (es : List Edit) :
    (splice text offset es).count c =
      (kept text offset es).count c + (es.map fun e => e.replacement.toList.count c).sum := by
  induction es generalizing offset with
  | nil => simp [splice, kept]
  | cons e es ih =>
    simp only [splice, kept, List.count_append, List.map_cons, List.sum_cons, ih]
    omega

/-- A stretch that no edit touches is still there when the spans are replaced. -/
theorem stretch_infix_splice {text : List Char} {i j : Nat} {es : List Edit} {offset : Nat} (hi : offset ≤ i)
    (hes : ∀ e ∈ es, e.span.stop ≤ i ∨ j ≤ e.span.start) :
    (text.drop i).take (j - i) <:+: splice text offset es := by
  induction es generalizing offset with
  | nil =>
    have hdrop : text.drop i = (text.drop offset).drop (i - offset) := by
      rw [List.drop_drop, Nat.add_sub_cancel' hi]
    rw [splice, hdrop]
    exact (List.take_prefix ..).isInfix.trans (List.drop_suffix ..).isInfix
  | cons e es ih =>
    rcases hes e List.mem_cons_self with hbehind | hfront
    · exact (ih hbehind fun x hx => hes x (List.mem_cons_of_mem e hx)).trans (List.suffix_append ..).isInfix
    · -- the stretch lies in the piece between the offset and the edit
      have hpiece : (text.drop i).take (j - i) =
          (((text.drop offset).take (e.span.start - offset)).drop (i - offset)).take (j - i) := by
        rw [List.drop_take, List.take_take, List.drop_drop]
        congr 1
        · omega
        · rw [Nat.add_sub_cancel' hi]
      rw [hpiece, splice, List.append_assoc]
      exact ((List.take_prefix ..).isInfix.trans (List.drop_suffix ..).isInfix).trans (List.prefix_append ..).isInfix

end Fix

/-! ## Edits of what is read, in the raw text -/

/-- An edit of what is read, as an edit of the raw text. -/
def Edit.inRaw (raw : List Char) (e : Edit) : Edit where
  span := ⟨rawOffset raw e.span.start, rawOffset raw e.span.stop, rawOffset_mono raw e.span.start_le_stop⟩
  replacement := e.replacement

namespace Fix

variable {raw : List Char}

theorem splice_inRaw {es : List Edit} {offset : Nat} (hp : es.Pairwise Edit.Before)
    (hlo : ∀ e ∈ es, offset ≤ e.span.start) (h : '\r' ∉ kept raw (rawOffset raw offset) (es.map (Edit.inRaw raw))) :
    splice (readLineEnds raw) offset es = splice raw (rawOffset raw offset) (es.map (Edit.inRaw raw)) := by
  induction es generalizing offset with
  | nil =>
    exact (readLineEnds_drop raw offset).symm.trans (readLineEnds_eq_self h)
  | cons e es ih =>
    have ⟨he, hes⟩ := List.pairwise_cons.1 hp
    simp only [List.map_cons, kept, Edit.inRaw, List.mem_append, not_or] at h
    -- the piece in front of the edit has no carriage return, so that it is read as it stands
    have hpiece := readLineEnds_eq_self h.1
    rw [readLineEnds_between raw (hlo e List.mem_cons_self)] at hpiece
    simp only [List.map_cons, splice, Edit.inRaw, hpiece]
    rw [ih hes (fun x hx => (he x hx).2) h.2]

/-- Replacing spans of what is read comes to replacing them in the raw text if and only if no carriage return
is left alone by that. -/
theorem splice_inRaw_iff {es : List Edit} (hp : es.Pairwise Edit.Before) :
    splice (readLineEnds raw) 0 es = splice raw 0 (es.map (Edit.inRaw raw)) ↔
      '\r' ∉ kept raw 0 (es.map (Edit.inRaw raw)) := by
  constructor
  · intro h
    -- both have the same carriage returns, and on the left all of them are in the replacements
    have hcount := congrArg (List.count '\r') h
    have hread : '\r' ∉ kept (readLineEnds raw) 0 es := fun hmem => not_mem_readLineEnds raw (mem_of_mem_kept hmem)
    have hreplaced : (es.map (Edit.inRaw raw)).map (fun e => e.replacement.toList.count '\r') =
        es.map fun e => e.replacement.toList.count '\r' := by
      rw [List.map_map]
      rfl
    rw [count_splice, count_splice, hreplaced, List.count_eq_zero_of_not_mem hread] at hcount
    rw [← List.count_eq_zero]
    omega
  · intro h
    have hsplice : splice (readLineEnds raw) 0 es = splice raw (rawOffset raw 0) (es.map (Edit.inRaw raw)) :=
      splice_inRaw hp (fun _ _ => Nat.zero_le _) (by simpa using h)
    simpa using hsplice

end Fix

/-! ## Fixing a file -/

/-- What a file holds is a raw text, as such or in bytes. -/
def Content.Holds (content : Content) (raw : String) : Prop :=
  content = .text raw ∨ ∃ b, content = .bytes b ∧ String.fromUTF8? b = some raw

theorem Content.Holds.read {content : Content} {raw : String} (h : content.Holds raw) :
    content.read = .ok (String.ofList (readLineEnds raw.toList)) := by
  rcases h with rfl | ⟨b, rfl, hb⟩
  · rfl
  · simp [Content.read, Content.decode, hb]

namespace Workspace

variable {parses : String → Bool} {path : String} {fixes : List (Option Fix)} {expected : Option String} {w : Workspace}

/-- A file that is written has the text that was read with the spans of the merged edits replaced. That is its
raw text with these spans replaced just if no carriage return stands outside them; each stretch that no edit
touches is there, with a line feed at each line end. -/
theorem fixFile_lineEnds {place : Place} {content : Content} {raw : String}
    (hopen : w.files.tryOpen (.ofText path) = .ok (.ok (place, content))) (hraw : content.Holds raw)
    (hwritten : (fixFile parses path fixes expected w).1 = .ok true) :
    ∃ m edited, Fix.merged fixes = .ok m ∧
      (fixFile parses path fixes expected w).2.files.at? place = some (.file (.text edited)) ∧
      edited.toList = Fix.splice (readLineEnds raw.toList) 0 m.edits ∧
      (edited.toList = Fix.splice raw.toList 0 (m.edits.map (Edit.inRaw raw.toList)) ↔
        '\r' ∉ Fix.kept raw.toList 0 (m.edits.map (Edit.inRaw raw.toList))) ∧
      ∀ i j, i ≤ j → (∀ e ∈ m.edits, e.span.stop ≤ i ∨ j ≤ e.span.start) →
        readLineEnds ((raw.toList.drop (rawOffset raw.toList i)).take (rawOffset raw.toList j - rawOffset raw.toList i))
          <:+: edited.toList := by
  obtain ⟨p, c, source, edited, hopen', hread, hrevises, -, hfiles⟩ := fixFile_writes hwritten
  cases hopen.symm.trans hopen'
  obtain rfl : source = String.ofList (readLineEnds raw.toList) := Except.ok.inj (hread.symm.trans hraw.read)
  obtain ⟨m, hm, happly⟩ := hrevises.applied
  obtain ⟨hrow, -⟩ := Fix.mergeAll_row hm
  have hedited : edited.toList = Fix.splice (readLineEnds raw.toList) 0 m.edits := by
    rw [Fix.toList_of_apply hrow happly, String.toList_ofList]
  refine ⟨m, edited, hm, hfiles ▸ FileTree.at?_write_self (FileTree.hasFile_of_tryOpen hopen), hedited, ?_, fun i j hij hout => ?_⟩
  · rw [hedited]
    exact Fix.splice_inRaw_iff hrow
  · rw [hedited, readLineEnds_between raw.toList hij]
    exact Fix.stretch_infix_splice (Nat.zero_le i) hout

/-- An edit that replaces the only line end with a carriage return. -/
theorem fixFile_line_end_replaced :
    let w : Workspace := { files := { entries := [(["f.py"], .file (.text "a = 1\r\nb = 2\n"))] } }
    let e : Edit := ⟨⟨4, 6, by decide⟩, "3\n"⟩
    let run := fixFile (fun _ => true) "f.py" [some ⟨[e]⟩] none w
    run.2.files.at? ["f.py"] = some (.file (.text "a = 3\nb = 2\n")) ∧
      "a = 3\nb = 2\n".toList = Fix.splice "a = 1\r\nb = 2\n".toList 0 [e.inRaw "a = 1\r\nb = 2\n".toList] := by
  intro w e run
  have hopen : w.files.tryOpen (.ofText "f.py") = .ok (.ok (["f.py"], .text "a = 1\r\nb = 2\n")) := by rfl
  have happly : Fix.apply ⟨[e]⟩ "a = 1\nb = 2\n" = .ok "a = 3\nb = 2\n" :=
    Fix.apply_of_splice (by decide) (by decide) (by decide)
  have hrevises : Revises (fun _ => true) [some ⟨[e]⟩] none "a = 1\nb = 2\n" "a = 3\nb = 2\n" :=
    ⟨by simp, ⟨_, Fix.merged_singleton e, happly⟩, rfl, by decide⟩
  obtain ⟨m, edited, hm, hfile, hedited, hiff, -⟩ :=
    fixFile_lineEnds hopen (.inl rfl) (fixFile_of_accepted hopen rfl hrevises rfl).1
  obtain rfl : m = ⟨[e]⟩ := Except.ok.inj (hm.symm.trans (Fix.merged_singleton e))
  obtain rfl : edited = "a = 3\nb = 2\n" := String.toList_inj.1 (hedited.trans (by decide))
  exact ⟨hfile, hiff.2 (by decide)⟩

/-- An edit on the first of two lines with carriage returns: both line ends are written anew. -/
theorem fixFile_carriage_returns :
    let w : Workspace := { files := { entries := [(["f.py"], .file (.text "a = 1\r\nb = 2\r\n"))] } }
    let e : Edit := ⟨⟨4, 5, by decide⟩, "3"⟩
    let run := fixFile (fun _ => true) "f.py" [some ⟨[e]⟩] none w
    run.1 = .ok true ∧ run.2.files.at? ["f.py"] = some (.file (.text "a = 3\nb = 2\n")) ∧
      Fix.splice "a = 1\r\nb = 2\r\n".toList 0 [e.inRaw "a = 1\r\nb = 2\r\n".toList] = "a = 3\r\nb = 2\r\n".toList := by
  intro w e run
  have hopen : w.files.tryOpen (.ofText "f.py") = .ok (.ok (["f.py"], .text "a = 1\r\nb = 2\r\n")) := by rfl
  have happly : Fix.apply ⟨[e]⟩ "a = 1\nb = 2\n" = .ok "a = 3\nb = 2\n" :=
    Fix.apply_of_splice (by decide) (by decide) (by decide)
  have hrevises : Revises (fun _ => true) [some ⟨[e]⟩] none "a = 1\nb = 2\n" "a = 3\nb = 2\n" :=
    ⟨by simp, ⟨_, Fix.merged_singleton e, happly⟩, rfl, by decide⟩
  obtain ⟨hrun, hfiles⟩ := fixFile_of_accepted hopen rfl hrevises rfl
  exact ⟨hrun, hfiles ▸ FileTree.at?_write_self (FileTree.hasFile_of_tryOpen hopen), by decide⟩

end Workspace

end TreeLint
