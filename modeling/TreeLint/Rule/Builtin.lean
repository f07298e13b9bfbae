/-
The rules that come with the program, as the settings have them.
-/
import TreeLint.Rule.LeakedSubclass
import TreeLint.Rule.RandomRemainder
import TreeLint.Rule.Registry
import TreeLint.Settings.Basic

namespace TreeLint.Settings

/-- All rules. -/
def allRules (s : Settings) : List Rule :=
  [LeakedSubclass.rule ⟨s.markerName, s.generatedStart⟩,
    RandomRemainder.rule ⟨s.randomType, s.randomMethod⟩]

/-- The rules that are not disabled. -/
def enabledRules (s : Settings) : List Rule :=
  s.allRules.filter fun r => !s.disabledRules.contains r.id

/-- The enabled rules, registered. -/
def ruleSet (s : Settings) : Except Fault RuleSet :=
  Registry.ofRules s.enabledRules

end TreeLint.Settings
