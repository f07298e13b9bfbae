/-
The types of classes. A type is built once for each qualified name and remembered; while it is being
built, a class that comes back to it among its own ancestors refers to it by name alone.
-/
import TreeLint.Attempt
import TreeLint.Facts.Basic
import TreeLint.Tree.TypeRef

namespace TreeLint.Facts

/-- The types built so far, the names of those being built, and the log. -/
structure Known where
  types : List (String × TypeRef) := []
  building : List String := []
  log : Log := []

/-- Writes a log entry. -/
def Known.tell (level : LogLevel) (message : String) : Attempt Known Unit :=
  Attempt.update fun k => { k with log := k.log ++ [⟨level, .lowering, message⟩] }

/-- Takes the steps to the ancestors of a class one by one. The answer is none if the search does
not get through. -/
def ancestorTypes (typeAt : Nat → Attempt Known TypeRef) : List Step → Attempt Known (Option (List TypeRef))
  | [] => return some []
  | .row position :: rest => do
    let t ← typeAt position
    let ts ← ancestorTypes typeAt rest
    return ts.map (t :: ·)
  | .trouble .unresolved :: _ => return none
  | .trouble t :: _ => Attempt.fail t.toFault

/-- Begins to build the type with a name. -/
def beginType (name : String) : Attempt Known Unit :=
  Attempt.update fun k => { k with building := name :: k.building }

/-- No longer builds the type with a name. -/
def endType (name : String) : Attempt Known Unit :=
  Attempt.update fun k => { k with building := k.building.erase name }

/-- Remembers a type under a name. -/
def rememberType (name : String) (t : TypeRef) : Attempt Known Unit :=
  Attempt.update fun k => { k with types := k.types ++ [(name, t)] }

/-- The type of a class, where `typeAt` gives the types of its ancestors. -/
def buildType (typeAt : Nat → Attempt Known TypeRef) (c : ClassFacts) : Attempt Known TypeRef := do
  let name ← Attempt.lift (needed c.qualifiedName)
  let known ← Attempt.state
  match known.types.lookup name with
  | some t => return t
  | none =>
    if known.building.contains name then return { qualifiedName := name }
    beginType name
    let outcome ← Attempt.caught (ancestorTypes typeAt c.ancestors)
    if outcome matches .ok none then
      Known.tell .debug s!"Could not resolve bases of {name}"
    endType name
    let supertypes ← Attempt.lift outcome
    let t : TypeRef := { qualifiedName := name, supertypes := supertypes.getD [] }
    rememberType name t
    return t

/-- The type of the class at a position, going no deeper than `depth`. -/
def typeWithin (facts : Facts) : Nat → Nat → Attempt Known TypeRef
  | 0, _ => Attempt.fail .endless
  | depth + 1, position =>
    match facts.form position with
    | .classDef c => buildType (typeWithin facts depth) c
    | _ => Attempt.fail Trouble.unanswerable.toFault

/-- The type of a class. -/
def typeOf (facts : Facts) (c : ClassFacts) : Attempt Known TypeRef :=
  buildType (typeWithin facts facts.depth) c

end TreeLint.Facts
