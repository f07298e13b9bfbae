/-
A fix run over many files. Each file is fixed as it would be alone, up to the first file that makes the run
fail; that one and all later ones are left as they are. Main statement: `fixAll_independent`.
-/
import Mathlib.Algebra.GroupWithZero.Nat
import TreeLint.Proofs.Fixing.Outcome

namespace TreeLint

/-! ## Summaries -/

namespace FixSummary

/-- What came of some fix runs, one after the other. -/
def total (ss : List FixSummary) : FixSummary where
  modified := ss.flatMap (·.modified)
  skipped := ss.flatMap (·.skipped)
  offered := (ss.map (·.offered)).sum

theorem empty_append (s : FixSummary) : append {} s = s := by
  cases s
  simp [append]

theorem append_total_nil (s : FixSummary) : s.append (total []) = s := by
  cases s
  simp [append, total]

theorem append_total_cons (s t : FixSummary) (ts : List FixSummary) :
    s.append (total (t :: ts)) = (s.append t).append (total ts) := by
  simp [append, total, Nat.add_assoc]

end FixSummary

namespace FixSetup

open Workspace

variable {x : FixSetup} {t : FileTree} {p : String}

/-! ## All files -/

/-- The files that a run gets past. -/
def passed (x : FixSetup) (t : FileTree) (paths : List String) : List String :=
  paths.takeWhile fun p => (x.outcomeIn t p).isOk

/-- What files add to the summary, up to the first one that makes the run fail. -/
def results (x : FixSetup) (t : FileTree) (paths : List String) : Except Fault (List FixSummary) :=
  paths.mapM fun p => (x.outcomeIn t p).map (·.1)

theorem results_cons (x : FixSetup) (t : FileTree) (p : String) (paths : List String) :
    x.results t (p :: paths) = match x.outcomeIn t p with
      | .error f => .error f
      | .ok (s, _) => (x.results t paths).map (s :: ·) := by
  rw [results, List.mapM_cons]
  rcases x.outcomeIn t p with f | ⟨s, r⟩
  · rfl
  · change (x.results t paths >>= fun ss => .ok (s :: ss)) = _
    rcases x.results t paths <;> rfl

/-- What a run over files comes to that open as they did at first: they are fixed one by one, up to the first one that
makes the run fail. -/
structure Runs (x : FixSetup) (t : FileTree) (paths : List String) (summary : FixSummary) (w : Workspace)
    (run : Except Fault FixSummary × Workspace) : Prop where
  result : run.1 = (x.results t paths).map (summary.append <| .total ·)
  passed : ∀ p ∈ x.passed t paths, run.2.files.tryOpen (.ofText p) = (x.after t p).tryOpen (.ofText p)
  apart : ∀ q, (∀ p ∈ x.passed t paths, w.files.Apart p q) →
    run.2.files.tryOpen (.ofText q) = w.files.tryOpen (.ofText q)
  unopened : ∀ place, (∀ p ∈ x.passed t paths, ¬w.files.Opens p place) → run.2.files.at? place = w.files.at? place

variable {s summary : FixSummary} {paths : List String} {w w' : Workspace} {run : Except Fault FixSummary × Workspace}

/-- A file that makes the run fail ends it. -/
theorem Runs.failed {f : Fault} (ho : x.outcomeIn t p = .error f) (hres : run.1 = .error f)
    (hfiles : run.2.files = w.files) : x.Runs t (p :: paths) summary w run := by
  have hnone : x.passed t (p :: paths) = [] := by
    simp [FixSetup.passed, ho, Except.isOk, Except.toBool]
  refine ⟨?_, ?_, fun q _ => ?_, fun place _ => ?_⟩
  · rw [hres, results_cons, ho]
    rfl
  · rw [hnone]
    exact List.forall_mem_nil _
  · rw [hfiles]
  · rw [hfiles]

/-- A file that does not touch those after it, and that they do not touch. -/
theorem Runs.cons {r : Option (Place × String)} (ho : x.outcomeIn t p = .ok (s, r))
    (hrefuses : w.files.refuses = t.refuses) (hopen : w.files.tryOpen (.ofText p) = t.tryOpen (.ofText p))
    (hapart : ∀ q ∈ paths, w.files.Apart p q) (hafter : w'.files = x.after w.files p)
    (hrest : x.Runs t paths (summary.append s) w' run) :
    x.Runs t (p :: paths) summary w run := by
  have hpassed : x.passed t (p :: paths) = p :: x.passed t paths := by
    simp [FixSetup.passed, ho, Except.isOk, Except.toBool]
  have hopens {q : String} {place : Place} : w'.files.Opens q place ↔ w.files.Opens q place := by
    rw [hafter, opens_after]
  have hstill {q r : String} : w'.files.Apart q r ↔ w.files.Apart q r := by
    simp only [FileTree.Apart, hopens]
  refine ⟨?_, ?_, fun q hq => ?_, fun place hplace => ?_⟩
  · rw [hrest.result, results_cons, ho]
    rcases x.results t paths with f | ss
    · rfl
    · exact congrArg Except.ok (summary.append_total_cons s ss).symm
  · rw [hpassed]
    refine List.forall_mem_cons.2 ⟨?_, hrest.passed⟩
    -- the files behind it leave this one as it was written
    have hlater : ∀ q ∈ x.passed t paths, w'.files.Apart q p := by
      intro q hq
      exact hstill.2 (hapart q ((List.takeWhile_sublist _).subset hq)).symm
    rw [hrest.apart p hlater, hafter, tryOpen_after_congr hrefuses hopen]
  · rw [hpassed] at hq
    obtain ⟨hpq, hothers⟩ := List.forall_mem_cons.1 hq
    rw [hrest.apart q fun r hr => hstill.2 (hothers r hr), hafter, tryOpen_after_apart hpq]
  · rw [hpassed] at hplace
    obtain ⟨hpp, hothers⟩ := List.forall_mem_cons.1 hplace
    rw [hrest.unopened place fun r hr hr' => hothers r hr (hopens.1 hr'), hafter, at?_after hpp]

theorem runs_foldlM (hlog : x.analyzer.Unlogged) (paths : List String) (summary : FixSummary) (w : Workspace)
    (hrefuses : w.files.refuses = t.refuses) (hopen : ∀ p ∈ paths, w.files.tryOpen (.ofText p) = t.tryOpen (.ofText p))
    (hapart : paths.Pairwise w.files.Apart) :
    x.Runs t paths summary w (paths.foldlM (fixOne x.fixer) summary w) := by
  induction paths generalizing summary w with
  | nil =>
    refine ⟨?_, List.forall_mem_nil _, fun _ _ => rfl, fun _ _ => rfl⟩
    exact congrArg Except.ok summary.append_total_nil.symm
  | cons p paths ih =>
    have ⟨hp, hpaths⟩ := List.pairwise_cons.1 hapart
    have hhere := hopen p List.mem_cons_self
    obtain ⟨log, hone⟩ := fixOne_apply x hlog summary p w
    rw [outcomeIn_congr hrefuses hhere] at hone
    rw [List.foldlM_cons, Attempt.bind_apply, hone]
    rcases ho : x.outcomeIn t p with f | ⟨s, r⟩
    · have hafter : x.after w.files p = w.files := by
        rw [after, outcomeIn_congr hrefuses hhere, ho]
        rfl
      simp only [Except.map, hafter]
      exact .failed ho rfl rfl
    · simp only [Except.map]
      have hfiles : (⟨x.after w.files p, log⟩ : Workspace).files = x.after w.files p := rfl
      -- what the other paths open is still what it was at first, and they still open different files
      refine .cons ho hrefuses hhere hp hfiles
        (ih (summary.append s) _ (refuses_after.trans hrefuses) (fun q hq => ?_) ?_)
      · rw [hfiles, tryOpen_after_apart (hp q hq), hopen q (List.mem_cons_of_mem p hq)]
      · refine hpaths.imp fun h => ?_
        unfold FileTree.Apart
        simp only [opens_after]
        exact h

/-! ## Each file as it would be alone -/

/-- A run over one file alone. -/
def alone (x : FixSetup) (t : FileTree) (p : String) : Except Fault FixSummary × FileTree :=
  let (summary, w) := fixAll x.fixer [p] { files := t }
  (summary, w.files)

theorem alone_eq (hlog : x.analyzer.Unlogged) (t : FileTree) (p : String) :
    x.alone t p = ((x.outcomeIn t p).map (·.1), x.after t p) := by
  obtain ⟨log, hone⟩ := fixOne_apply x hlog {} p { files := t }
  have hrun : fixAll x.fixer [p] { files := t } = ((x.outcomeIn t p).map (·.1), ⟨x.after t p, log⟩) := by
    rw [fixAll, List.foldlM_cons, Attempt.bind_apply, hone]
    rcases x.outcomeIn t p with f | ⟨s, r⟩
    · simp only [Except.map]
    · simp only [Except.map, List.foldlM_nil, Attempt.pure_apply, FixSummary.empty_append]
  rw [alone, hrun]

/-- Files that do not lie at the same place are fixed one by one as each would be alone, up to the first one at which
the run fails. The summary is that of the runs alone, one after the other, or the first fault among them. The files before
that one end as they do alone, it and those behind it are left as they were, and so is everything else. A file makes a
run fail just if it spoils it, and one that is not modified is left as it was, or as it is where the system refused its
new text. -/
theorem fixAll_independent (x : FixSetup) (hlog : x.analyzer.Unlogged) (w : Workspace) {paths : List String}
    (hapart : paths.Pairwise w.files.Apart) :
    let run := fixAll x.fixer paths w
    let alone := x.alone w.files
    let passed := paths.takeWhile fun p => (alone p).1.isOk
    run.1 = (paths.mapM fun p => (alone p).1).map FixSummary.total ∧
    (∀ p ∈ passed, run.2.files.tryOpen (.ofText p) = (alone p).2.tryOpen (.ofText p)) ∧
    (∀ p ∈ paths.drop passed.length, run.2.files.tryOpen (.ofText p) = w.files.tryOpen (.ofText p)) ∧
    (∀ place, (∀ p ∈ passed, ¬w.files.Opens p place) → run.2.files.at? place = w.files.at? place) ∧
    ∀ p, ((alone p).1.isOk = false ↔ x.Spoils w.files p) ∧
      ((∀ s, (alone p).1 = .ok s → s.modified = []) → (alone p).2 = w.files ∨
        ∃ place text fault, w.files.Opens p place ∧ w.files.refuses place text = some fault ∧
          (alone p).2 = w.files.save place text) := by
  intro run alone passed
  have hresult (p : String) : (alone p).1 = (x.outcomeIn w.files p).map (·.1) := congrArg Prod.fst (alone_eq hlog w.files p)
  have hfiles (p : String) : (alone p).2 = x.after w.files p := congrArg Prod.snd (alone_eq hlog w.files p)
  have hok (p : String) : (alone p).1.isOk = (x.outcomeIn w.files p).isOk := by
    rw [hresult]
    rcases x.outcomeIn w.files p <;> rfl
  have hpassed : passed = x.passed w.files paths := by
    unfold FixSetup.passed
    simp only [passed, hok]
  have hresults : (paths.mapM fun p => (alone p).1) = x.results w.files paths := by
    unfold results
    simp only [hresult]
  have hruns : x.Runs w.files paths {} w run := runs_foldlM hlog paths {} w rfl (fun _ _ => rfl) hapart
  rw [hpassed, hresults]
  refine ⟨?_, fun p hp => ?_, fun p hp => hruns.apart p ?_, hruns.unopened, fun p => ⟨?_, fun hnone => ?_⟩⟩
  · rw [hruns.result]
    simp only [FixSummary.empty_append]
  · rw [hruns.passed p hp, hfiles]
  · -- the files that the run does not get past come behind those that it does
    have hsplit : paths = x.passed w.files paths ++ paths.drop (x.passed w.files paths).length :=
      List.prefix_iff_eq_append.1 (List.takeWhile_prefix _) |>.symm
    rw [hsplit, List.pairwise_append] at hapart
    exact fun q hq => hapart.2.2 q hq p hp
  · rw [hok, spoils_iff]
  · rw [hfiles]
    refine after_of_unmodified fun s r ho => hnone s ?_
    rw [hresult, ho]
    rfl

/-! ## Runs over a few files -/

/-- One rule, which offers to change the number in a line of text. -/
def renumbering : FixSetup where
  frontEnd := {
    markers := []
    parse := fun path _ =>
      if path = "bad.py" then .malformed "invalid syntax" else .facts ⟨#[{ form := .moduleDef none [] }], 0⟩ }
  analyzer := {
    rules := .ofRules [
      Script.rule { id := "Renumbers", severity := .warning, summary := "is 1", kinds := [.compilationUnit] }
        [.report .node none (.raw [⟨4, 5, "2"⟩])]]
    predicates := [] }
  parses := fun _ => true

theorem renumbering_unlogged : renumbering.analyzer.Unlogged := by
  refine .of_lawful fun u => ⟨List.forall_mem_nil _, fun kind r hr => ?_⟩
  rcases List.mem_singleton.1 (RuleSet.mem_of_mem_forKind hr) with rfl
  exact Script.rule_lawful _ _

/-- The unit of that line. -/
def numberUnit (path : String) : CompilationUnit where
  path
  source := "x = 1\n"
  tree := {
    id := 0
    kind := .compilationUnit
    symbol := some (Facts.moduleSymbol none)
    span := some { start := 0, stop := "x = 1\n".length } }

/-- The fix offered for it. -/
def numberFix : Fix := ⟨[⟨⟨4, 5, by decide⟩, "2"⟩]⟩

theorem offered_renumbering (path : String) : renumbering.analyzer.offered (numberUnit path) = [numberFix] := by
  let ended := (renumbering.analyzer.scanner (numberUnit path)).tour {} (numberUnit path).tree
    (renumbering.analyzer.fresh { isStoppable := false })
  have hended : ended = (.ok (), ended.2) := Prod.ext rfl rfl
  have hlength : ended.2.notes.length = 1 := rfl
  obtain ⟨d, hd⟩ := List.length_eq_one_iff.1 hlength
  have hfix : ended.2.notes.map (·.fix) = [some numberFix] := rfl
  rw [hd] at hfix
  unfold Analyzer.offered
  rw [Analyzer.analyze_ok hended, hd, List.mergeSort_singleton]
  unfold Workspace.offers Diagnostic.hasFix
  rw [List.map_cons, List.map_nil, List.cons.injEq] at hfix
  simp [hfix.1, numberFix, Fix.isEmpty]

theorem outcomeIn_renumbering {t : FileTree} {p : String} {place : Place}
    (hopen : t.tryOpen (.ofText p) = .ok (.ok (place, .text "x = 1\n"))) (hp : (FilePath.ofText p).text ≠ "bad.py")
    (haccepted : t.refuses place "x = 2\n" = none) :
    renumbering.outcomeIn t p = .ok ({ modified := [p], offered := 1 }, some (place, "x = 2\n")) := by
  have hread : (Content.text "x = 1\n").read = .ok "x = 1\n" := by rfl
  have hunit : renumbering.frontEnd.unit p (.ok (place, .text "x = 1\n")) = .ok (numberUnit (FilePath.ofText p).text) := by
    rw [FrontEnd.unit, hread]
    simp only [renumbering, FrontEnd.unitOf, if_neg hp]
    rfl
  have happly : numberFix.apply "x = 1\n" = .ok "x = 2\n" :=
    Fix.apply_of_splice (by decide) (by decide) (by decide)
  have hrevision : revision renumbering.parses [some numberFix] (some "x = 1\n") (.ok (place, .text "x = 1\n")) =
      .ok (some (place, "x = 2\n")) :=
    (revision_eq_some_iff hread).2 ⟨rfl, by simp, ⟨_, Fix.merged_singleton _, happly⟩, rfl, by decide⟩
  have houtcome : renumbering.outcomeIn t p = renumbering.outcome t p (.ok (place, .text "x = 1\n")) := by
    unfold outcomeIn
    rw [hopen, ok_bind]
  rw [houtcome, outcome, hunit]
  simp only [outcomeOf, offered_renumbering]
  refine (congrArg (Except.map _) hrevision).trans ?_
  simp [Except.map, haccepted]

/-- A path without a file, a file that is fixed, and one that is malformed. -/
theorem fixAll_renumbering :
    let w : Workspace := { files := { entries := [(["one.py"], .file (.text "x = 1\n")), (["bad.py"], .file (.text "x ="))] } }
    let run := fixAll renumbering.fixer ["gone.py", "one.py", "bad.py"] w
    renumbering.analyzer.Unlogged ∧ ["gone.py", "one.py", "bad.py"].Pairwise w.files.Apart ∧
      run.1 = .ok { modified := ["one.py"], skipped := ["gone.py", "bad.py"], offered := 1 } ∧
      run.2.files.tryOpen (.ofText "one.py") = .ok (.ok (["one.py"], .text "x = 2\n")) ∧
      run.2.files.tryOpen (.ofText "bad.py") = .ok (.ok (["bad.py"], .text "x =")) := by
  intro w run
  have hopenGone : w.files.tryOpen (.ofText "gone.py") = .ok (.error .missing) := by rfl
  have hopenOne : w.files.tryOpen (.ofText "one.py") = .ok (.ok (["one.py"], .text "x = 1\n")) := by rfl
  have hopenBad : w.files.tryOpen (.ofText "bad.py") = .ok (.ok (["bad.py"], .text "x =")) := by rfl
  have hapart : ["gone.py", "one.py", "bad.py"].Pairwise w.files.Apart := by
    simp [FileTree.Apart, FileTree.Opens, hopenGone, hopenOne, hopenBad]
  have hgone : renumbering.outcomeIn w.files "gone.py" = .ok ({ skipped := ["gone.py"] }, none) := by
    unfold outcomeIn
    rfl
  have hone := outcomeIn_renumbering hopenOne (by decide) rfl
  have hbad : renumbering.outcomeIn w.files "bad.py" = .ok ({ skipped := ["bad.py"] }, none) := by
    unfold outcomeIn
    rfl
  obtain ⟨hresult, hpassed, -⟩ := fixAll_independent renumbering renumbering_unlogged w hapart
  have hall : (["gone.py", "one.py", "bad.py"].takeWhile fun p => (renumbering.alone w.files p).1.isOk) =
      ["gone.py", "one.py", "bad.py"] := by
    simp [alone_eq renumbering_unlogged, hgone, hone, hbad, Except.map, Except.isOk, Except.toBool]
  rw [hall] at hpassed
  refine ⟨renumbering_unlogged, hapart, ?_, ?_, ?_⟩
  · rw [hresult]
    simp only [alone_eq renumbering_unlogged, List.mapM_cons, hgone, hone, hbad]
    rfl
  · rw [hpassed "one.py" (by simp), alone_eq renumbering_unlogged, after, hone]
    rfl
  · rw [hpassed "bad.py" (by simp), alone_eq renumbering_unlogged, after, hbad]
    exact hopenBad

/-- A file that is not UTF-8 keeps the next one from being fixed, which is modified where it stands alone. -/
theorem fixAll_undecodable :
    let w : Workspace := { files := { entries := [(["bytes.py"], .file (.bytes ⟨#[0xff]⟩)), (["one.py"], .file (.text "x = 1\n"))] } }
    let run := fixAll renumbering.fixer ["bytes.py", "one.py"] w
    let alone := renumbering.alone w.files "one.py"
    run.1 = .error .undecodable ∧ run.2.files.at? ["one.py"] = some (.file (.text "x = 1\n")) ∧
      alone.1 = .ok { modified := ["one.py"], offered := 1 } ∧
      alone.2.at? ["one.py"] = some (.file (.text "x = 2\n")) := by
  intro w run alone
  have hopen : w.files.tryOpen (.ofText "one.py") = .ok (.ok (["one.py"], .text "x = 1\n")) := by rfl
  have hbytes : renumbering.outcomeIn w.files "bytes.py" = .error .undecodable := by
    unfold outcomeIn
    rfl
  have hone := outcomeIn_renumbering hopen (by decide) rfl
  obtain ⟨log, hrun⟩ := fixOne_apply renumbering renumbering_unlogged {} "bytes.py" w
  have hrun : run = (.error .undecodable, ⟨w.files, log⟩) := by
    have hafter : renumbering.after w.files "bytes.py" = w.files := by
      rw [after, hbytes]
      rfl
    simp only [run, fixAll, List.foldlM_cons, Attempt.bind_apply, hrun, hbytes, hafter]
    rfl
  have halone : alone = (.ok { modified := ["one.py"], offered := 1 }, w.files.write ["one.py"] (.text "x = 2\n")) := by
    rw [show alone = _ from alone_eq renumbering_unlogged w.files "one.py", after, hone]
    rfl
  rw [hrun, halone]
  exact ⟨rfl, rfl, rfl, FileTree.at?_write_self ⟨_, rfl⟩⟩

end FixSetup

end TreeLint
