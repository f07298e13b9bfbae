/-
The registry: rules are registered one by one, and freezing it once and for all gives the set of
rules, indexed by the kinds of nodes they look at.
-/
import TreeLint.Rule.Basic

namespace TreeLint

/-- Rules in the order of their registration, with an index by kind. -/
structure RuleSet where
  rules : List Rule := []
  index : List (NodeKind × List Rule) := []

namespace RuleSet

/-- Adds a rule to those of a kind. -/
def file (r : Rule) (index : List (NodeKind × List Rule)) (kind : NodeKind) : List (NodeKind × List Rule) :=
  match index with
  | [] => [(kind, [r])]
  | (k, rs) :: rest => if k = kind then (k, rs ++ [r]) :: rest else (k, rs) :: file r rest kind

/-- The set of some rules. -/
def ofRules (rules : List Rule) : RuleSet where
  rules
  index := rules.foldl (fun index r => (NodeKind.among r.kinds).foldl (file r) index) []

/-- The rules that look at the nodes of a kind. -/
def forKind (s : RuleSet) (kind : NodeKind) : List Rule :=
  (s.index.lookup kind).getD []

/-- The rule with an id. -/
def get? (s : RuleSet) (id : String) : Option Rule :=
  s.rules.find? (·.id = id)

/-- The ids of the rules. -/
def ids (s : RuleSet) : List String := s.rules.map (·.id)

end RuleSet

/-- A registry; once it is frozen it has a view. -/
structure Registry where
  rules : List Rule := []
  view : Option RuleSet := none

namespace Registry

/-- Registers a rule, which must look at some kind of node and have an id of its own. -/
def register (r : Rule) : Attempt Registry Unit := do
  let registry ← Attempt.state
  if registry.view.isSome then Attempt.fail (.registryFrozen r.id)
  if r.kinds.isEmpty then Attempt.fail (.noKinds r.id)
  if registry.rules.any (·.id = r.id) then Attempt.fail (.duplicateRule r.id)
  Attempt.update fun registry => { registry with rules := registry.rules ++ [r] }

/-- The set of the rules, which stays as it is at the first freeze. -/
def freeze : Attempt Registry RuleSet := do
  let registry ← Attempt.state
  match registry.view with
  | some view => return view
  | none =>
    let view := RuleSet.ofRules registry.rules
    Attempt.update fun registry => { registry with view := some view }
    return view

/-- Registers rules in turn and freezes the registry. -/
def freezeWith (rules : List Rule) : Attempt Registry RuleSet := do
  rules.forM register
  freeze

/-- The set of some rules, registered in turn. -/
def ofRules (rules : List Rule) : Except Fault RuleSet :=
  (freezeWith rules {}).1

end Registry

end TreeLint
