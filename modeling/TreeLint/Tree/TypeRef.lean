/-
Types as a front end names them. A type is identified by its qualified name and its type arguments;
its direct supertypes are carried along and take no part in its identity.
-/
import TreeLint.Text.Dotted

namespace TreeLint

/-- The identity of a type. -/
structure TypeKey where
  name : String
  arguments : List TypeKey

namespace TypeKey

mutual

/-- Decides whether two identities are equal. -/
def decEq : (a b : TypeKey) → Decidable (a = b)
  | ⟨n, xs⟩, ⟨m, ys⟩ =>
    if h : n = m then
      match decEqList xs ys with
      | .isTrue h' => .isTrue (by rw [h, h'])
      | .isFalse h' => .isFalse (by intro e; cases e; exact h' rfl)
    else .isFalse (by intro e; cases e; exact h rfl)

/-- Decides whether two lists of identities are equal. -/
def decEqList : (xs ys : List TypeKey) → Decidable (xs = ys)
  | [], [] => .isTrue rfl
  | [], _ :: _ => .isFalse (by simp)
  | _ :: _, [] => .isFalse (by simp)
  | x :: xs, y :: ys =>
    match decEq x y, decEqList xs ys with
    | .isTrue h, .isTrue h' => .isTrue (by rw [h, h'])
    | .isFalse h, _ => .isFalse (by intro e; cases e; exact h rfl)
    | _, .isFalse h => .isFalse (by intro e; cases e; exact h rfl)

end

instance : DecidableEq TypeKey := decEq

end TypeKey

/-- A declared or inferred type. -/
structure TypeRef where
  qualifiedName : String
  arguments : List TypeRef := []
  supertypes : List TypeRef := []
deriving Inhabited

/-- The zero that sums start from, whatever else is imported. -/
local instance sumZero : Zero Nat := Zero.ofOfNat0

namespace TypeRef

mutual

/-- The identity of a type. -/
def key : TypeRef → TypeKey
  | ⟨name, arguments, _⟩ => ⟨name, keys arguments⟩

/-- The identities of several types. -/
def keys : List TypeRef → List TypeKey
  | [] => []
  | t :: ts => t.key :: keys ts

end

/-- Whether two references are the same type. -/
def same (a b : TypeRef) : Bool := a.key == b.key

/-- The name without the path in front of it. -/
def simpleName (t : TypeRef) : String := Text.lastPart t.qualifiedName

/-- The type without its type arguments. -/
def erasure (t : TypeRef) : String := t.qualifiedName

mutual

/-- How a type is written. -/
def display : TypeRef → String
  | ⟨name, [], _⟩ => name
  | ⟨name, a :: as, _⟩ => name ++ "<" ++ ", ".intercalate (a.display :: displays as) ++ ">"

/-- How several types are written. -/
def displays : List TypeRef → List String
  | [] => []
  | t :: ts => t.display :: displays ts

end

mutual

/-- The number of steps that a search through the supertypes can take. -/
def weight : TypeRef → Nat
  | ⟨_, _, supertypes⟩ => 1 + weights supertypes

/-- `weight` of all types in a list together. -/
def weights : List TypeRef → Nat
  | [] => 0
  | t :: ts => t.weight + weights ts

end

theorem weights_eq (ts : List TypeRef) : weights ts = (ts.map weight).sum := by
  induction ts with
  | nil => rfl
  | cons t ts ih => rw [weights, ih, List.map_cons, List.sum_cons]

theorem weight_eq (t : TypeRef) : t.weight = 1 + (t.supertypes.map weight).sum := by
  rw [← weights_eq]
  cases t; rfl

end TypeRef

end TreeLint
