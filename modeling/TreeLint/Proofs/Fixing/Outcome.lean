/-
One file of a fix run. What a run makes of a file depends on what its path opens and on which texts the system
refuses to write, and on nothing else, and it writes that file only. Main statements: `fixOne_apply`, and
`spoils_iff`, which tells the files that make a run fail.
-/
import TreeLint.Fixing.Run
import TreeLint.Proofs.Facts.Log
import TreeLint.Proofs.Fixing.File
import TreeLint.Proofs.Fixing.Offers

namespace TreeLint

/-- What came of one fix run and then of another. -/
def FixSummary.append (s t : FixSummary) : FixSummary :=
  ⟨s.modified ++ t.modified, s.skipped ++ t.skipped, s.offered + t.offered⟩

namespace FileTree

/-- The path opens the file at a place. -/
def Opens (t : FileTree) (p : String) (place : Place) : Prop :=
  ∃ content, t.tryOpen (.ofText p) = .ok (.ok (place, content))

/-- Two paths do not open the same file. -/
def Apart (t : FileTree) (p q : String) : Prop := ∀ place, t.Opens p place → ¬t.Opens q place

theorem Apart.symm {t : FileTree} {p q : String} (h : t.Apart p q) : t.Apart q p :=
  fun place hq hp => h place hp hq

theorem opens_write {t : FileTree} {place place' : Place} {new : Content} {p : String} (h : t.HasFile place) :
    (t.write place new).Opens p place' ↔ t.Opens p place' := by
  unfold Opens
  rw [tryOpen_write h]
  rcases t.tryOpen (.ofText p) with f | f | ⟨q, content⟩ <;> simp [Except.map]

end FileTree

/-- What a fix run is made of: the front end that reads files, the analyzer, and the parser that new texts have to
pass. -/
structure FixSetup where
  frontEnd : FrontEnd
  analyzer : Analyzer
  parses : String → Bool

namespace FixSetup

open Workspace

variable (x : FixSetup)

/-! ## One file -/

def fixer : Fixer := { unitOf := x.frontEnd.read, analyzer := x.analyzer, parses := x.parses }

/-- What a fix run makes of a file with its unit, given what its path opens: what it adds to the summary, and the place
that it is to write with the new text. -/
def outcomeOf (files : FileTree) (path : String) (u : CompilationUnit)
    (opened : Except AccessFault (Place × Content)) : Except Fault (FixSummary × Option (Place × String)) :=
  if (x.analyzer.offered u).isEmpty then .ok ({}, none)
  else (revision x.parses ((x.analyzer.offered u).map some) (some u.source) opened).map fun r =>
    ({ modified := if files.accepts r then [path] else [], offered := (x.analyzer.offered u).length }, r)

/-- What a fix run makes of a file; only a fault of the front end lets the run go on. -/
def outcome (files : FileTree) (path : String) (opened : Except AccessFault (Place × Content)) :
    Except Fault (FixSummary × Option (Place × String)) :=
  match x.frontEnd.unit path opened with
  | .error (.frontEnd _) => .ok ({ skipped := [path] }, none)
  | .error f => .error f
  | .ok u => x.outcomeOf files path u opened

/-- `outcome` for what a path opens in some files. -/
@[irreducible]
def outcomeIn (files : FileTree) (path : String) : Except Fault (FixSummary × Option (Place × String)) :=
  files.tryOpen (.ofText path) >>= x.outcome files path

/-- The files once a run has got past one file. -/
def after (files : FileTree) (path : String) : FileTree :=
  files.revised ((x.outcomeIn files path).map (·.2))

/-- One file of a run, up to what is logged about it. -/
theorem fixOne_apply (h : x.analyzer.Unlogged) (summary : FixSummary) (path : String) (w : Workspace) : ∃ log,
    fixOne x.fixer summary path w =
      ((x.outcomeIn w.files path).map (summary.append ·.1), ⟨x.after w.files path, log⟩) := by
  unfold fixOne fixer after
  simp only [Attempt.bind_apply, Attempt.state_apply, logged, Attempt.caught_apply, Attempt.within_apply,
    FrontEnd.read_fst]
  unfold outcomeIn
  rcases hopen : w.files.tryOpen (.ofText path) with f | opened
  · obtain ⟨-, rfl⟩ := FileTree.tryOpen_eq_error_iff.1 hopen
    exact ⟨_, rfl⟩
  · rw [ok_bind, ok_bind]
    unfold outcome
    rcases hunit : x.frontEnd.unit path opened with f | u
    · by_cases hfault : ∃ message, f = .frontEnd message
      · obtain ⟨message, rfl⟩ := hfault
        exact ⟨_, by simp [FixSummary.append, Attempt.bind_apply, Attempt.tell, Except.map]; rfl⟩
      · cases f <;> first | exact ⟨_, rfl⟩ | exact absurd ⟨_, rfl⟩ hfault
    · -- the log has grown by then, which neither the analysis nor the fixer takes notice of
      obtain ⟨report, log, hanalyzed, hoffers⟩ :=
        x.analyzer.analyzed_apply h u ⟨w.files, (x.frontEnd.read w.files path w.log).2⟩
      simp only [Attempt.bind_apply, hanalyzed, hoffers]
      unfold outcomeOf
      by_cases hnone : (x.analyzer.offered u).isEmpty = true
      · simp only [hnone, if_true]
        refine ⟨log, ?_⟩
        simp [FixSummary.append, Except.map]
      · simp only [hnone, Bool.false_eq_true, if_false]
        obtain ⟨log', hfix⟩ :=
          fixFile_apply x.parses ((x.analyzer.offered u).map some) (some u.source) path ⟨w.files, log⟩
        rw [hopen, ok_bind] at hfix
        rw [Attempt.bind_apply, hfix]
        rcases revision x.parses ((x.analyzer.offered u).map some) (some u.source) opened with f | r
        · exact ⟨_, rfl⟩
        · refine ⟨log' ++ refusal path w.files (.ok r), ?_⟩
          cases haccepts : w.files.accepts r <;> simp [FixSummary.append, Except.map, haccepts]

/-! ## What a file has to do with others -/

variable {x} {t t' : FileTree} {p q : String}

theorem opened_of_revision {parses : String → Bool} {fixes : List (Option Fix)} {expected : Option String}
    {place : Place} {text : String} {opened : Except AccessFault (Place × Content)}
    (h : revision parses fixes expected opened = .ok (some (place, text))) : ∃ content, opened = .ok (place, content) := by
  rcases opened with f | ⟨p, content⟩
  · cases h
  · rcases hread : content.read with f | source
    · rw [revision_of_unread parses fixes expected hread] at h
      cases h
    · obtain ⟨rfl, -⟩ := (revision_eq_some_iff hread).1 h
      exact ⟨content, rfl⟩

/-- Only the file that its path opens is to be written, and it is told to be modified unless that is refused. -/
theorem outcome_writes {summary : FixSummary} {place : Place} {text : String}
    (h : x.outcomeIn t p = .ok (summary, some (place, text))) :
    (∃ content, t.tryOpen (.ofText p) = .ok (.ok (place, content))) ∧
      summary.modified = if t.accepts (some (place, text)) then [p] else [] := by
  unfold outcomeIn at h
  rcases hopen : t.tryOpen (.ofText p) with f | opened <;> rw [hopen] at h
  · cases h
  · rw [ok_bind] at h
    unfold outcome at h
    split at h
    · cases h
    · cases h
    · unfold outcomeOf at h
      split at h
      · cases h
      · rename_i u _ _
        rcases hr : revision x.parses ((x.analyzer.offered u).map some) (some u.source) opened with f | r <;>
          rw [hr] at h <;> cases h
        obtain ⟨content, rfl⟩ := opened_of_revision hr
        exact ⟨⟨content, rfl⟩, rfl⟩

theorem outcomeIn_congr (hrefuses : t'.refuses = t.refuses) (h : t'.tryOpen (.ofText p) = t.tryOpen (.ofText p)) :
    x.outcomeIn t' p = x.outcomeIn t p := by
  have haccepts : t'.accepts = t.accepts := funext fun r => by rw [FileTree.accepts, FileTree.accepts, hrefuses]
  have houtcome : x.outcome t' p = x.outcome t p := by
    funext opened
    unfold outcome outcomeOf
    rw [haccepts]
  unfold outcomeIn
  rw [h, houtcome]

/-- Either nothing is written, or the file that the path opens. -/
theorem after_cases (x : FixSetup) (t : FileTree) (p : String) : x.after t p = t ∨
    ∃ place new, t.Opens p place ∧ t.HasFile place ∧ x.after t p = t.write place new := by
  unfold after
  rcases h : x.outcomeIn t p with f | ⟨summary, _ | ⟨place, text⟩⟩
  · exact .inl rfl
  · exact .inl rfl
  · obtain ⟨⟨content, hopen⟩, -⟩ := outcome_writes h
    refine (t.save_cases place text).imp_right fun ⟨new, hnew⟩ => ?_
    exact ⟨place, new, ⟨content, hopen⟩, FileTree.hasFile_of_tryOpen hopen, hnew⟩

@[simp] theorem refuses_after : (x.after t p).refuses = t.refuses := by
  rcases x.after_cases t p with hsame | ⟨place, new, -, -, hafter⟩
  · rw [hsame]
  · rw [hafter, FileTree.refuses_write]

theorem opens_after {place : Place} : (x.after t p).Opens q place ↔ t.Opens q place := by
  rcases x.after_cases t p with hsame | ⟨place', text, -, hfile, hafter⟩
  · rw [hsame]
  · rw [hafter, FileTree.opens_write hfile]

theorem tryOpen_after_apart (h : t.Apart p q) : (x.after t p).tryOpen (.ofText q) = t.tryOpen (.ofText q) := by
  rcases x.after_cases t p with hsame | ⟨place, text, hopen, hfile, hafter⟩
  · rw [hsame]
  · rw [hafter, FileTree.tryOpen_write hfile]
    rcases hq : t.tryOpen (.ofText q) with f | f | ⟨place', content⟩
    · rfl
    · rfl
    · have hne : place' ≠ place := by
        rintro rfl
        exact h place' hopen ⟨content, hq⟩
      simp [Except.map, hne]

theorem tryOpen_after_congr (hrefuses : t'.refuses = t.refuses) (h : t'.tryOpen (.ofText p) = t.tryOpen (.ofText p)) :
    (x.after t' p).tryOpen (.ofText p) = (x.after t p).tryOpen (.ofText p) := by
  unfold after
  rw [outcomeIn_congr hrefuses h]
  rcases ho : x.outcomeIn t p with f | ⟨summary, _ | ⟨place, text⟩⟩
  · exact h
  · exact h
  · obtain ⟨⟨content, hopen⟩, -⟩ := outcome_writes ho
    have hleft : t'.left? place text = t.left? place text := by rw [FileTree.left?, FileTree.left?, hrefuses]
    simp only [Except.map, FileTree.revised_some]
    rw [FileTree.tryOpen_save (FileTree.hasFile_of_tryOpen hopen),
      FileTree.tryOpen_save (FileTree.hasFile_of_tryOpen (h.trans hopen)), h, hleft]

theorem at?_after {place : Place} (h : ¬t.Opens p place) : (x.after t p).at? place = t.at? place := by
  rcases x.after_cases t p with hsame | ⟨place', text, hopen, hfile, hafter⟩
  · rw [hsame]
  · rw [hafter]
    refine FileTree.at?_write_of_ne hfile ?_
    rintro rfl
    exact h hopen

/-- A file that is not among the modified ones is left as it was, or as it is where its new text was refused. -/
theorem after_of_unmodified (h : ∀ s r, x.outcomeIn t p = .ok (s, r) → s.modified = []) : x.after t p = t ∨
    ∃ place text fault, t.Opens p place ∧ t.refuses place text = some fault ∧ x.after t p = t.save place text := by
  unfold after
  rcases ho : x.outcomeIn t p with f | ⟨s, _ | ⟨place, text⟩⟩
  · exact .inl rfl
  · exact .inl rfl
  · obtain ⟨hopen, hmodified⟩ := outcome_writes ho
    rw [h s _ ho, FileTree.accepts_some] at hmodified
    cases hrefuses : t.refuses place text with
    | none =>
      rw [hrefuses] at hmodified
      cases hmodified
    | some fault => exact .inr ⟨place, text, fault, hopen, hrefuses, rfl⟩

/-! ## Files that make a run fail -/

/-- What makes a run fail at a path. -/
inductive Spoils (x : FixSetup) (t : FileTree) (p : String) : Prop
  | null : (FilePath.ofText p).hasNull = true → Spoils x t p
  | undecodable {place : Place} {content : Content} : t.tryOpen (.ofText p) = .ok (.ok (place, content)) →
    content.read = .error .undecodable → Spoils x t p
  /-- No unit is made of the text, for another reason than that it is malformed. -/
  | unit {place : Place} {content : Content} {source : String} {f : Fault} :
    t.tryOpen (.ofText p) = .ok (.ok (place, content)) → content.read = .ok source →
    (x.frontEnd.unitOf (FilePath.ofText p).text source []).1 = .error f → (∀ message, f ≠ .frontEnd message) →
    Spoils x t p
  /-- One of the merged fixes ends past the end of the text. -/
  | outside {place : Place} {content : Content} {source : String} {u : CompilationUnit} {m : Fix} {e : Edit} :
    t.tryOpen (.ofText p) = .ok (.ok (place, content)) → content.read = .ok source →
    (x.frontEnd.unitOf (FilePath.ofText p).text source []).1 = .ok u →
    Fix.merged ((x.analyzer.offered u).map some) = .ok m → e ∈ m.edits → source.length < e.span.stop → Spoils x t p

theorem read_eq_undecodable {content : Content} {f : Fault} (h : content.read = .error f) : f = .undecodable := by
  unfold Content.read at h
  obtain ⟨-, -, -, hdecode⟩ | ⟨source, hdecode⟩ := content.decode_cases <;> rw [hdecode] at h <;> cases h
  rfl

/-- Merged fixes that are well formed fail on a text just if one of their edits ends past its end. -/
theorem newText_fails_iff (parses : String → Bool) {fixes : List (Option Fix)} {source : String}
    (h : ∀ f, some f ∈ fixes → f.isWellFormed = true) : (∃ f, newText parses fixes source = .error f) ↔
      ∃ m, Fix.merged fixes = .ok m ∧ ∃ e ∈ m.edits, source.length < e.span.stop := by
  obtain ⟨m, hm⟩ := Fix.mergeAll_succeeds h
  obtain ⟨hrow, -⟩ := Fix.mergeAll_row hm
  have happlyAll : Fix.applyAll fixes source = m.apply source := by
    rw [Fix.applyAll, hm]
    rfl
  unfold newText
  rw [happlyAll]
  by_cases hout : ∃ e ∈ m.edits, source.length < e.span.stop
  · refine iff_of_true ?_ ⟨m, hm, hout⟩
    rw [← String.length_toList] at hout
    obtain ⟨e, -, -, hf⟩ := Fix.applyTo_outside hrow source.toList hout
    exact ⟨_, by rw [Fix.apply, hf]; rfl⟩
  · have hin : ∀ e ∈ m.edits, e.span.stop ≤ source.toList.length := by
      intro e he
      rw [String.length_toList]
      exact Nat.not_lt.1 fun hlt => hout ⟨e, he, hlt⟩
    refine iff_of_false ?_ ?_
    · rintro ⟨f, hf⟩
      rw [Fix.apply, Fix.applyTo_eq_splice hrow hin] at hf
      cases hf
    · rintro ⟨m', hm', hout'⟩
      cases hm.symm.trans hm'
      exact hout hout'

theorem isOk_eq_false_iff {α : Type} {r : Except Fault α} : r.isOk = false ↔ ∃ f, r = .error f := by
  rcases r with f | a <;> simp [Except.isOk, Except.toBool]

theorem outcome_fails_of_no_unit {opened : Except AccessFault (Place × Content)} {f : Fault}
    (h : x.frontEnd.unit p opened = .error f) :
    (∃ f', x.outcome t p opened = .error f') ↔ ∀ message, f ≠ .frontEnd message := by
  unfold outcome
  rw [h]
  cases f <;> simp

/-- What is made of a unit fails just if a merged fix ends past the end of its text. -/
theorem outcomeOf_fails_iff {place : Place} {content : Content} {u : CompilationUnit} (hread : content.read = .ok u.source) :
    (∃ f, x.outcomeOf t p u (.ok (place, content)) = .error f) ↔
      ∃ m, Fix.merged ((x.analyzer.offered u).map some) = .ok m ∧ ∃ e ∈ m.edits, u.source.length < e.span.stop := by
  have hsound : ∀ f, some f ∈ (x.analyzer.offered u).map some → f.isWellFormed = true := by
    intro f hf
    obtain ⟨f', hf', h⟩ := List.mem_map.1 hf
    cases h
    exact x.analyzer.offered_wellFormed u f hf'
  unfold outcomeOf
  by_cases hnone : (x.analyzer.offered u).isEmpty = true
  · simp only [hnone, if_true]
    refine iff_of_false ?_ ?_
    · rintro ⟨f, h⟩
      cases h
    · rw [List.isEmpty_iff.1 hnone]
      rintro ⟨m, hm, e, he, -⟩
      obtain rfl : Fix.empty = m := Except.ok.inj hm
      cases he
  · -- the text is the one that the fixes were made for, so that it is up to the new text
    have hcurrent : (some u.source).any (· ≠ u.source) = false := by simp
    simp only [hnone, Bool.false_eq_true, if_false]
    rw [← newText_fails_iff x.parses hsound, revision_of_read x.parses _ _ hread, hcurrent]
    rcases newText x.parses ((x.analyzer.offered u).map some) u.source with f | r
    · exact iff_of_true ⟨f, rfl⟩ ⟨f, rfl⟩
    · refine iff_of_false ?_ ?_
      · rintro ⟨f, h⟩
        cases h
      · rintro ⟨f, h⟩
        cases h

/-- The outcome for a text that was read is a fault just if no unit is made of it, for another reason than that it is
malformed, or if a merged fix ends past its end. -/
theorem outcome_fails_iff {place : Place} {content : Content} {source : String} (hread : content.read = .ok source) :
    (∃ f, x.outcome t p (.ok (place, content)) = .error f) ↔
      (∃ f, (x.frontEnd.unitOf (FilePath.ofText p).text source []).1 = .error f ∧ ∀ message, f ≠ .frontEnd message) ∨
      ∃ u, (x.frontEnd.unitOf (FilePath.ofText p).text source []).1 = .ok u ∧
        ∃ m, Fix.merged ((x.analyzer.offered u).map some) = .ok m ∧ ∃ e ∈ m.edits, source.length < e.span.stop := by
  have hunit : x.frontEnd.unit p (.ok (place, content)) = (x.frontEnd.unitOf (FilePath.ofText p).text source []).1 := by
    rw [FrontEnd.unit, hread, ok_bind]
  rcases hu : (x.frontEnd.unitOf (FilePath.ofText p).text source []).1 with f | u
  · rw [outcome_fails_of_no_unit (hunit.trans hu)]
    simp
  · obtain rfl := FrontEnd.source_of_unitOf hu
    have houtcome : x.outcome t p (.ok (place, content)) = x.outcomeOf t p u (.ok (place, content)) := by
      rw [outcome, hunit, hu]
    rw [houtcome, outcomeOf_fails_iff hread]
    simp

/-- A run fails at a path just if the path spoils it. -/
theorem spoils_iff : (x.outcomeIn t p).isOk = false ↔ x.Spoils t p := by
  rw [isOk_eq_false_iff]
  unfold outcomeIn
  rcases hopen : t.tryOpen (.ofText p) with f | f | ⟨place, content⟩
  · exact iff_of_true ⟨f, rfl⟩ (.null (FileTree.tryOpen_eq_error_iff.1 hopen).1)
  · refine iff_of_false ?_ ?_
    · rintro ⟨f, h⟩
      cases h
    · rintro (h | ⟨h, -⟩ | ⟨h, -, -, -⟩ | ⟨h, -, -, -, -, -⟩)
      · rw [FileTree.tryOpen, if_pos h] at hopen
        cases hopen
      · cases hopen.symm.trans h
      · cases hopen.symm.trans h
      · cases hopen.symm.trans h
  · rw [ok_bind]
    rcases hread : content.read with f | source
    · obtain rfl := read_eq_undecodable hread
      refine iff_of_true ⟨.undecodable, ?_⟩ (.undecodable hopen hread)
      rw [outcome, FrontEnd.unit, hread]
      rfl
    · rw [outcome_fails_iff hread]
      constructor
      · rintro (⟨f, hunit, hf⟩ | ⟨u, hunit, m, hm, e, he, hlt⟩)
        · exact .unit hopen hread hunit hf
        · exact .outside hopen hread hunit hm he hlt
      · rintro (h | ⟨h, h'⟩ | ⟨h, h', hunit, hf⟩ | ⟨h, h', hunit, hm, he, hlt⟩)
        · rw [FileTree.tryOpen, if_pos h] at hopen
          cases hopen
        · cases hopen.symm.trans h
          cases hread.symm.trans h'
        · cases hopen.symm.trans h
          cases hread.symm.trans h'
          exact .inl ⟨_, hunit, hf⟩
        · cases hopen.symm.trans h
          cases hread.symm.trans h'
          exact .inr ⟨_, hunit, _, hm, _, he, hlt⟩

end FixSetup

end TreeLint
