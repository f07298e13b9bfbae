/-
Settings: a table with a value for each setting. A setting that is missing or malformed has its
default.
-/
import TreeLint.NameSet
import TreeLint.Value.Basic

namespace TreeLint

/-- The settings in a table. -/
structure Settings where
  table : Table := []

namespace Settings

/-- The name of the table. -/
def sectionName : String := "bugscope"

/-- The keys that settings are read from. -/
def knownKeys : List String :=
  ["disabled_rules", "max_workers", "generated_markers", "suppression_annotation",
    "generated-subclass-leaked", "random-mod-integer"]

/-- The number of workers where none is set. -/
def defaultWorkers : Nat := 4

/-- Whether a value is a positive whole number. -/
def isCount (v : Value) : Bool := v.whole?.any (0 < ·)

/-- The text under a key of a table, unless it is empty. -/
def textOr (default : String) (t : Table) (key : String) : String :=
  match t.get? key with
  | some (.str s) => if s = "" then default else s
  | _ => default

/-- The table under a key, or the empty one. -/
def section? (s : Settings) (key : String) : Table :=
  match s.table.get? key with
  | some (.table entries) => entries
  | _ => []

/-! ## Single settings -/

/-- The rules that are not to be tried. -/
def disabledRules (s : Settings) : NameSet :=
  match s.table.get? "disabled_rules" with
  | some (.list items) => .ofList (items.map Value.display)
  | _ => ∅

/-- The number of workers as it is set. -/
def maxWorkers (s : Settings) : Value :=
  ((s.table.get? "max_workers").filter isCount).getD (.int defaultWorkers)

/-- The number of workers. -/
def workers (s : Settings) : Nat :=
  (s.maxWorkers.whole?.getD defaultWorkers).toNat

/-- The markers that tell generated declarations. -/
def generatedMarkers (s : Settings) : List String :=
  match s.table.get? "generated_markers" with
  | some (.list (item :: items)) => (item :: items).map Value.display
  | _ => ["Generated", "generated"]

/-- The annotation that suppresses rules. -/
def suppressionMarking (s : Settings) : String :=
  textOr "SuppressWarnings" s.table "suppression_annotation"

/-- The settings of the rule against leaked subclasses. -/
def leakedSubclass (s : Settings) : Table := s.section? "generated-subclass-leaked"

/-- The annotation of the classes that get a generated subclass. -/
def markerName (s : Settings) : String :=
  textOr "AutoValue" s.leakedSubclass "marker_annotation"

/-- How the names of generated subclasses start. -/
def generatedStart (s : Settings) : String :=
  textOr "AutoValue_" s.leakedSubclass "generated_prefix"

/-- The settings of the rule against remainders of random draws. -/
def randomRemainder (s : Settings) : Table := s.section? "random-mod-integer"

/-- The type of random generators. -/
def randomType (s : Settings) : String :=
  textOr "java.util.Random" s.randomRemainder "random_type"

/-- The method that draws. -/
def randomMethod (s : Settings) : String :=
  textOr "nextInt" s.randomRemainder "method_name"

/-! ## Warnings -/

/-- The keys that no setting is read from, ascending. -/
def unknownKeys (s : Settings) : List String :=
  (NameSet.ofList ((s.table.map (·.1)).filter (!knownKeys.contains ·))).toList

/-- What is wrong with the settings, one text a flaw. -/
def warnings (s : Settings) : List String :=
  s.unknownKeys.map (fun key => s!"Configuration Warning: unknown key '{key}' in [tool.{sectionName}].") ++
    match s.table.get? "max_workers" with
    | none | some .null => []
    | some v =>
      if isCount v then []
      else [s!"Configuration Warning: 'max_workers' must be a positive integer; using {defaultWorkers}."]

end Settings

end TreeLint
