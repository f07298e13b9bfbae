/-
The parts of the program put together from the settings, and the names they are known by.
-/
import TreeLint.Analysis.Batch
import TreeLint.Rule.Builtin

namespace TreeLint

/-- A part of the program. -/
inductive Service
  | settings | frontEnd | fixer | catalog | rules | unitAnalysis | batchAnalysis | fixRun
deriving DecidableEq

namespace Service

/-- The name that a part is known by. -/
def name : Service → String
  | settings => "ConfigurationLoader"
  | frontEnd => "AstroidFrontEnd"
  | fixer => "LibCSTFixerGateway"
  | catalog => "RuleCatalogService"
  | rules => "RegisteredRules"
  | unitAnalysis => "AnalyzeUnitUseCase"
  | batchAnalysis => "AnalyzeBatchUseCase"
  | fixRun => "ApplyFixesUseCase"

/-- All parts. -/
def all : List Service :=
  [settings, frontEnd, fixer, catalog, rules, unitAnalysis, batchAnalysis, fixRun]

/-- The part with a name. -/
def ofName (s : String) : Except Fault Service :=
  match all.find? (·.name = s) with
  | some service => .ok service
  | none => .error (.notRegistered s)

end Service

/-- The parts that depend on the settings. -/
structure Services where
  settings : Settings
  rules : RuleSet
  analyzer : Analyzer
  workers : Nat

namespace Services

/-- Puts the parts together and warns of what is wrong with the settings. -/
def ofSettings (s : Settings) : Attempt Log Services := do
  s.warnings.forM fun message => Attempt.tell .warning .settings message
  let rules ← Attempt.lift s.ruleSet
  return {
    settings := s
    rules
    analyzer := { rules, predicates := Suppression.usual s.suppressionMarking }
    workers := max 1 s.workers
  }

end Services

end TreeLint
