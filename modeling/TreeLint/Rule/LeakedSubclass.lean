/-
The rule against leaked subclasses. A class that carries the marker annotation gets a generated
subclass, known by the start of its name; a reference to it is a finding unless it descends from a
marked class of the same unit.
-/
import TreeLint.Rule.Basic

namespace TreeLint.LeakedSubclass

/-- The names the rule goes by. -/
structure Names where
  marker : String
  generatedStart : String

/-- Adds a type to a list, unless it is in it. -/
def addType (types : List TypeRef) (t : TypeRef) : List TypeRef :=
  if types.any (·.same t) then types else types ++ [t]

/-- The type of a class that carries the marker annotation. -/
def markedType? (marker : String) (n : Node) : Option TypeRef :=
  if n.kind = .classDecl ∧ n.carries marker then n.resolvedType else none

/-- The types of the marked classes of a subtree, each once. -/
def markedTypes (marker : String) (root : Node) : List TypeRef :=
  (root.preorder.filterMap (markedType? marker)).foldl addType []

/-- Whether a node refers to a generated class that descends from none of the types. -/
def isLeaked (generatedStart : String) (owned : List TypeRef) (n : Node) : Query Bool := do
  let some s := n.symbol | return false
  if !s.kind.isType then return false
  if !generatedStart.toList.isPrefixOf s.name.toList then return false
  let referenced := s.type.or n.resolvedType
  return !(← owned.anyM fun t => Resolver.isSubtype referenced (some t))

/-- Whether references are found among the nodes of a kind. -/
def isReferenceKind (k : NodeKind) : Bool := k matches .identifier | .memberAccess

/-- The rule. -/
def rule (names : Names) : Rule where
  id := "GeneratedSubclassLeaked"
  severity := .warning
  summary := s!"Do not refer to the generated {names.generatedStart} class outside the file " ++
    s!"containing the corresponding @{names.marker} base class."
  kinds := [.compilationUnit]
  describe root := do
    let owned := markedTypes names.marker root
    let handle (n : Node) : RuleM Unit := do
      if ← RuleM.ask (isLeaked names.generatedStart owned n) then
        RuleM.report (← RuleM.describeMatch n)
    RuleM.scanBelow root fun kind => if isReferenceKind kind then [handle] else []
    return none

end TreeLint.LeakedSubclass
