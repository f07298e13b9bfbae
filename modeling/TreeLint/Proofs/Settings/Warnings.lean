/-
Settings that fall back. A value that is malformed counts as if it were not given, and each setting then has
its default. Of all settings only the number of workers is warned of when that happens; the others are
ignored without a word. Main statement: `ofSettings_warns`.
-/
import TreeLint.Services

namespace TreeLint

/-! ## Settings and their values -/

/-- A setting: what is read from a key of the settings table, or of the table of a rule in it. -/
inductive Setting
  | disabledRules | workers | generatedMarkers | suppressionMarking
  | leakedSubclass | markerName | generatedStart
  | randomRemainder | randomType | randomMethod
deriving DecidableEq

namespace Setting

/-- All settings. -/
def all : List Setting :=
  [disabledRules, workers, generatedMarkers, suppressionMarking, leakedSubclass, markerName, generatedStart,
    randomRemainder, randomType, randomMethod]

theorem mem_all (x : Setting) : x ∈ all := by
  cases x <;> decide

/-- What a setting can be. -/
inductive Answer
  | names (s : NameSet)
  | number (v : Value)
  | texts (ts : List String)
  | text (s : String)
  | table (t : Table)

/-- What is asked of the values of a setting. -/
inductive Form
  | names | number | texts | text | table

/-- What a value says, unless it is malformed. -/
def Form.read : Form → Value → Option Answer
  | names, .list items => some (.names (.ofList (items.map Value.display)))
  | number, v => if Settings.isCount v then some (.number v) else none
  | texts, .list (item :: items) => some (.texts ((item :: items).map Value.display))
  | text, .str s => if s = "" then none else some (.text s)
  | table, .table entries => some (.table entries)
  | _, _ => none

/-- What is asked of the values of each setting. -/
def form : Setting → Form
  | disabledRules => .names
  | workers => .number
  | generatedMarkers => .texts
  | leakedSubclass | randomRemainder => .table
  | suppressionMarking | markerName | generatedStart | randomType | randomMethod => .text

/-- The key of a setting. -/
def key : Setting → String
  | disabledRules => "disabled_rules"
  | workers => "max_workers"
  | generatedMarkers => "generated_markers"
  | suppressionMarking => "suppression_annotation"
  | leakedSubclass => "generated-subclass-leaked"
  | markerName => "marker_annotation"
  | generatedStart => "generated_prefix"
  | randomRemainder => "random-mod-integer"
  | randomType => "random_type"
  | randomMethod => "method_name"

/-- The table that the key of a setting is looked up in. -/
def holder (s : Settings) : Setting → Table
  | markerName | generatedStart => s.leakedSubclass
  | randomType | randomMethod => s.randomRemainder
  | _ => s.table

/-- The value that is given for a setting. -/
def given? (s : Settings) (x : Setting) : Option Value := (x.holder s).get? x.key

/-- What a setting is. -/
def answer (s : Settings) : Setting → Answer
  | disabledRules => .names s.disabledRules
  | workers => .number s.maxWorkers
  | generatedMarkers => .texts s.generatedMarkers
  | suppressionMarking => .text s.suppressionMarking
  | leakedSubclass => .table s.leakedSubclass
  | markerName => .text s.markerName
  | generatedStart => .text s.generatedStart
  | randomRemainder => .table s.randomRemainder
  | randomType => .text s.randomType
  | randomMethod => .text s.randomMethod

/-- What a setting is where nothing is given. -/
def default (x : Setting) : Answer := x.answer {}

end Setting

namespace Settings

variable {s : Settings} {x : Setting}

theorem text_textOr (default : String) (t : Table) (key : String) :
    Setting.Answer.text (textOr default t key) = ((t.get? key).bind Setting.Form.text.read).getD (.text default) := by
  unfold textOr
  cases t.get? key with
  | none => rfl
  | some v =>
    cases v with
    | str text =>
      simp only [Option.bind_some, Setting.Form.read]
      split <;> rfl
    | _ => rfl

theorem table_section? (s : Settings) (key : String) :
    Setting.Answer.table (s.section? key) = ((s.table.get? key).bind Setting.Form.table.read).getD (.table []) := by
  unfold section?
  cases s.table.get? key with
  | none => rfl
  | some v => cases v <;> rfl

theorem names_disabledRules (s : Settings) :
    Setting.Answer.names s.disabledRules =
      ((s.table.get? "disabled_rules").bind Setting.Form.names.read).getD (.names ∅) := by
  unfold disabledRules
  cases s.table.get? "disabled_rules" with
  | none => rfl
  | some v => cases v <;> rfl

theorem number_maxWorkers (s : Settings) :
    Setting.Answer.number s.maxWorkers =
      ((s.table.get? "max_workers").bind Setting.Form.number.read).getD (.number (.int defaultWorkers)) := by
  unfold maxWorkers
  cases s.table.get? "max_workers" with
  | none => rfl
  | some v => cases h : isCount v <;> simp [Option.filter, Setting.Form.read, h]

theorem texts_generatedMarkers (s : Settings) :
    Setting.Answer.texts s.generatedMarkers =
      ((s.table.get? "generated_markers").bind Setting.Form.texts.read).getD (.texts ["Generated", "generated"]) := by
  unfold generatedMarkers
  cases s.table.get? "generated_markers" with
  | none => rfl
  | some v =>
    cases v with
    | list items => cases items <;> rfl
    | _ => rfl

/-- A setting is what the value given for it says, and its default where that is malformed or missing. -/
theorem answer_eq (s : Settings) (x : Setting) : x.answer s = ((x.given? s).bind x.form.read).getD x.default := by
  cases x with
  | disabledRules => exact names_disabledRules s
  | workers => exact number_maxWorkers s
  | generatedMarkers => exact texts_generatedMarkers s
  | leakedSubclass | randomRemainder => exact table_section? s _
  | suppressionMarking | markerName | generatedStart | randomType | randomMethod => exact text_textOr _ _ _

/-! ## Warnings -/

/-- The value given for a setting is malformed, and it has its default instead. -/
def Ignores (s : Settings) (x : Setting) : Prop := ∃ v, x.given? s = some v ∧ x.form.read v = none

/-- The warning of a key that no setting is read from. -/
def unknownKeyWarning (key : String) : String :=
  s!"Configuration Warning: unknown key '{key}' in [tool.{sectionName}]."

/-- The warning of a number of workers that is none. -/
def workersWarning : String :=
  s!"Configuration Warning: 'max_workers' must be a positive integer; using {defaultWorkers}."

/-- A setting is warned of: its key is quoted in a warning, and not as one that no setting is read from. -/
def WarnsOf (s : Settings) (x : Setting) : Prop :=
  ∃ text ∈ s.warnings, (∀ key, text ≠ unknownKeyWarning key) ∧ ("'" ++ x.key ++ "'").toList <:+: text.toList

theorem answer_of_ignores (h : s.Ignores x) : x.answer s = x.default := by
  obtain ⟨v, hgiven, hread⟩ := h
  rw [answer_eq, hgiven, Option.bind_some, hread]
  rfl

theorem ignores_workers_iff : s.Ignores .workers ↔ ∃ v, Setting.workers.given? s = some v ∧ isCount v = false := by
  refine exists_congr fun v => and_congr_right fun _ => ?_
  cases h : isCount v <;> simp [Setting.form, Setting.Form.read, h]

theorem warnings_eq (s : Settings) :
    s.warnings = s.unknownKeys.map unknownKeyWarning ++
      match Setting.workers.given? s with
      | none | some .null => []
      | some v => if isCount v then [] else [workersWarning] := rfl

theorem mem_warnings_iff {text : String} : text ∈ s.warnings ↔
    (∃ key ∈ s.unknownKeys, text = unknownKeyWarning key) ∨
      (s.Ignores .workers ∧ Setting.workers.given? s ≠ some .null) ∧ text = workersWarning := by
  rw [warnings_eq, List.mem_append, List.mem_map, ignores_workers_iff]
  refine or_congr (exists_congr fun key => and_congr_right fun _ => eq_comm) ?_
  generalize workersWarning = warning
  cases Setting.workers.given? s with
  | none => simp
  | some v =>
    by_cases hnull : v = .null
    · simp [hnull]
    · have hmatch : (match some v with
          | none | some .null => []
          | some v => if isCount v then [] else [warning]) = if isCount v then [] else [warning] := by
        cases v <;> first | rfl | contradiction
      rw [hmatch]
      cases h : isCount v <;> simp [h, hnull]

theorem workersWarning_ne (key : String) : workersWarning ≠ unknownKeyWarning key := by
  -- the two texts part where the one says what is unknown and the other quotes a key
  have hunknown : (unknownKeyWarning key).toList[23]? = some 'u' := by
    unfold unknownKeyWarning
    simp only [toString, String.toList_append, List.append_assoc]
    rw [List.getElem?_append_left (by decide +kernel)]
    decide +kernel
  intro h
  rw [← h] at hunknown
  cases hunknown

theorem quoted_in_workersWarning : ("'" ++ x.key ++ "'").toList <:+: workersWarning.toList ↔ x = .workers := by
  have hquoted : Setting.all.filter (fun x => ("'" ++ x.key ++ "'").toList <:+: workersWarning.toList) = [.workers] := by
    decide +kernel
  rw [← List.mem_singleton, ← hquoted, List.mem_filter, and_iff_right x.mem_all, decide_eq_true_iff]

/-- The number of workers is the one setting that is ever warned of. -/
theorem warnsOf_iff : s.WarnsOf x ↔ x = .workers ∧ s.Ignores x ∧ x.given? s ≠ some .null := by
  constructor
  · rintro ⟨text, htext, hknown, hquoted⟩
    obtain ⟨key, -, rfl⟩ | ⟨hworkers, rfl⟩ := mem_warnings_iff.1 htext
    · exact absurd rfl (hknown key)
    · obtain rfl := quoted_in_workersWarning.1 hquoted
      exact ⟨rfl, hworkers⟩
  · rintro ⟨rfl, hworkers⟩
    exact ⟨workersWarning, mem_warnings_iff.2 (.inr ⟨hworkers, rfl⟩), workersWarning_ne,
      quoted_in_workersWarning.2 rfl⟩

/-! ## The parts put together -/

theorem forM_tell (texts : List String) (log : Log) :
    (forM texts (Attempt.tell .warning .settings) : Attempt Log PUnit) log =
      (.ok (), log ++ texts.map (⟨.warning, .settings, ·⟩)) := by
  induction texts generalizing log with
  | nil => simp
  | cons text rest ih =>
    rw [List.forM_cons, Attempt.bind_apply, List.map_cons, List.append_cons]
    exact ih _

/-- Each setting is what the value given for it says, and its default where that is malformed or missing. Of
the settings that have their default because the value given is malformed, the number of workers alone is
warned of when the parts of the program are put together, unless that value is null; a number of workers
that stands is never warned of. So no setting is ignored without a word just if none is ignored but this one,
and that not for a null. -/
theorem ofSettings_warns (s : Settings) :
    (∀ x : Setting, x.answer s = ((x.given? s).bind x.form.read).getD x.default) ∧
    (∀ log, (Services.ofSettings s log).2 = log ++ s.warnings.map (⟨.warning, .settings, ·⟩)) ∧
    (∀ text, text ∈ s.warnings ↔ (∃ key ∈ s.unknownKeys, text = unknownKeyWarning key) ∨
      s.WarnsOf .workers ∧ text = workersWarning) ∧
    (∀ x, s.WarnsOf x ↔ x = .workers ∧ s.Ignores x ∧ x.given? s ≠ some .null) ∧
    ((∀ x, s.Ignores x → s.WarnsOf x) ↔ ∀ x, s.Ignores x → x = .workers ∧ x.given? s ≠ some .null) := by
  refine ⟨answer_eq s, fun log => ?_, fun text => ?_, fun x => warnsOf_iff, ?_⟩
  · unfold Services.ofSettings
    rw [List.forM_eq_forM, Attempt.bind_apply, forM_tell]
    simp only [Attempt.bind_apply, Attempt.lift_apply]
    cases s.ruleSet <;> rfl
  · rw [mem_warnings_iff, warnsOf_iff, and_iff_right rfl]
  · refine forall_congr' fun x => forall_congr' fun hignored => ?_
    rw [warnsOf_iff, and_iff_right hignored]

/-- Zero workers are warned of, and nothing else is ignored. -/
theorem ofSettings_warns_workers :
    let s : Settings := { table := [("max_workers", .int 0)] }
    s.Ignores .workers ∧ s.WarnsOf .workers ∧ ∀ x, s.Ignores x → s.WarnsOf x := by
  intro s
  obtain ⟨-, -, -, hwarns, hall⟩ := ofSettings_warns s
  have hignored : s.Ignores .workers := ⟨.int 0, rfl, rfl⟩
  have hgiven : Setting.workers.given? s ≠ some .null := nofun
  refine ⟨hignored, (hwarns .workers).2 ⟨rfl, hignored, hgiven⟩, hall.2 ?_⟩
  rintro x ⟨v, hv, -⟩
  cases x <;> first | exact ⟨rfl, hgiven⟩ | cases hv

/-- Rules that are disabled by a text in the place of a list stay enabled, and nothing is said of it. -/
theorem disabledRules_ignored :
    let s : Settings := { table := [("disabled_rules", .str "RandomModInteger")] }
    s.Ignores .disabledRules ∧ Setting.disabledRules.answer s = Setting.disabledRules.default ∧
      s.warnings = [] ∧ ¬ s.WarnsOf .disabledRules := by
  intro s
  have hignored : s.Ignores .disabledRules := ⟨.str "RandomModInteger", rfl, rfl⟩
  refine ⟨hignored, answer_of_ignores hignored, rfl, ?_⟩
  rw [warnsOf_iff]
  simp

end Settings

end TreeLint
