/-
Questions about types and symbols, answered once and remembered. An answer is remembered under the
identity of the type or symbol asked about, so of two that share an identity the one asked about
first decides for both. A query is a state transition on the resolver.
-/
import TreeLint.Tree.Node

namespace TreeLint

/-- The names of the mechanisms that produced a symbol. -/
abbrev Provenance := Symbol → NameSet

/-- The provenance recorded on the symbol itself. -/
def declaredProvenance : Provenance := (·.generatedBy)

/-- What has been asked about the types and symbols of one unit. -/
structure Resolver where
  provenance : Provenance := declaredProvenance
  closures : List (TypeKey × NameSet) := []
  mechanisms : List (SymbolKey × NameSet) := []

/-- A question to the resolver. -/
abbrev Query := StateM Resolver

/-! ## Supertypes -/

attribute [local instance] sumZero

/-- The names met in a breadth-first search from the types in `queue`; a type whose name has been
met is not gone through again. -/
def supertypeClosure (met : NameSet) : List TypeRef → NameSet
  | [] => met
  | t :: queue =>
    if met.contains t.erasure then supertypeClosure met queue
    else supertypeClosure (met.insert t.erasure) (queue ++ t.supertypes)
termination_by queue => (queue.map TypeRef.weight).sum
decreasing_by
  · have := TypeRef.weight_eq t
    simp only [List.map_cons, List.sum_cons]; omega
  · have := TypeRef.weight_eq t
    simp only [List.map_cons, List.map_append, List.sum_cons, List.sum_append]; omega

namespace Resolver

/-! ## Questions -/

/-- The remembered names of a type and its supertypes. -/
def closure? (r : Resolver) (k : TypeKey) : Option NameSet :=
  (r.closures.find? (·.1 = k)).map (·.2)

/-- The remembered mechanisms of a symbol. -/
def mechanisms? (r : Resolver) (k : SymbolKey) : Option NameSet :=
  (r.mechanisms.find? (·.1 = k)).map (·.2)

/-- The names of a type and of all its supertypes. -/
def supertypeNames (t : TypeRef) : Query NameSet := do
  match (← get).closure? t.key with
  | some names => return names
  | none =>
    let names := supertypeClosure ∅ [t]
    modify fun r => { r with closures := (t.key, names) :: r.closures }
    return names

/-- Whether a name is that of a type or of one of its supertypes; nothing is a subtype where the
type is not known. -/
def isSubtypeOfName (t : Option TypeRef) (name : String) : Query Bool := do
  match t with
  | none => return false
  | some t => return (← supertypeNames t).contains name

/-- Whether one type is another or a subtype of it, type arguments aside. -/
def isSubtype (t s : Option TypeRef) : Query Bool := do
  match s with
  | none => return false
  | some s => isSubtypeOfName t s.erasure

/-- The mechanisms that produced a symbol; none for a symbol written by hand or not known. -/
def generatedBy (s : Option Symbol) : Query NameSet := do
  match s with
  | none => return ∅
  | some s =>
    match (← get).mechanisms? s.key with
    | some names => return names
    | none =>
      let names := (← get).provenance s
      modify fun r => { r with mechanisms := (s.key, names) :: r.mechanisms }
      return names

/-- Whether a symbol was produced by a generator. -/
def isGenerated (s : Option Symbol) : Query Bool :=
  return !(← generatedBy s).isEmpty

end Resolver

/-! ## Annotations -/

/-- The annotations on a node, then those on its symbol. -/
def Node.allAnnotations (n : Node) : List Annotation :=
  n.annotations ++ n.symbol.elim [] (·.annotations)

/-- The first annotation with a name. -/
def annotationNamed? (annotations : List Annotation) (name : String) : Option Annotation :=
  annotations.find? (·.isNamed name)

/-- Whether a node or its symbol carries an annotation with a name. -/
def Node.carries (n : Node) (name : String) : Bool :=
  (annotationNamed? n.allAnnotations name).isSome

end TreeLint
