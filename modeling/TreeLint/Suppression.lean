/-
Suppression: what is left out of the analysis below a node, either everything or the findings of
some rules. It is decided by predicates on the declaration, asked in order until one of them
suppresses everything.
-/
import TreeLint.Resolver

namespace TreeLint

/-- What is suppressed in a subtree. -/
structure Suppression where
  everything : Bool := false
  rules : NameSet := ∅
deriving DecidableEq

namespace Suppression

/-- Nothing is suppressed. -/
def none : Suppression := {}

/-- The whole subtree is skipped. -/
def all : Suppression := { everything := true }

/-- Whether anything is suppressed. -/
def isActive (s : Suppression) : Bool := s.everything || !s.rules.isEmpty

/-- What either of two suppresses. -/
def combine (s t : Suppression) : Suppression where
  everything := s.everything || t.everything
  rules := s.rules ∪ t.rules

/-- Decides what is suppressed from a node on. -/
abbrev Predicate := Node → Query Suppression

/-- Skips declarations that a generator produced. -/
def generatedCode : Predicate := fun n => do
  if n.kind.isDeclaration then
    if ← Resolver.isGenerated n.symbol then return all
  return none

/-- The rules that the annotations with a name list. -/
def listed (annotations : List Annotation) (name : String) : NameSet :=
  .ofList ((annotations.filter (·.isNamed name)).flatMap (·.arguments))

/-- Suppresses the rules that an annotation on a declaration lists. -/
def ofMarking (name : String) : Predicate := fun n =>
  return if n.kind.isDeclaration then { rules := listed n.allAnnotations name } else none

/-- Suppresses something at the nodes of a kind, with a name, or both. A kind or a name that is asked
for may be that there is none: every node has a kind, but not every node has a name. -/
def ofNodes (kind name : Option (Option String)) (s : Suppression) : Predicate := fun n =>
  return if kind.all (· = some n.kind.name) && name.all (· = n.name) then s else none

/-- Adds what the predicates of a list suppress, up to the first that suppresses everything. -/
def addFrom (s : Suppression) : List Predicate → Predicate
  | [], _ => return s
  | p :: ps, n => do
    let s := s.combine (← p n)
    if s.everything then return s else addFrom s ps n

/-- What the predicates of a list suppress from a node on. -/
def of (predicates : List Predicate) : Predicate :=
  addFrom none predicates

/-- Generated code is skipped, and the annotation suppresses the rules that it lists. -/
def usual (name : String) : List Predicate :=
  [generatedCode, ofMarking name]

end Suppression

end TreeLint
