/-
Where a walk over a tree is: the nodes entered and not yet left, those of them that open a scope,
and the rules suppressed there.
-/
import TreeLint.Attempt
import TreeLint.Suppression

namespace TreeLint

/-- A place in a walk; `path` and `scopes` have the innermost node first. -/
structure Walk where
  path : List Node := []
  scopes : List Node := []
  suppressed : NameSet := ∅

namespace Walk

/-! ## Looking around -/

/-- The node entered last. -/
def current (w : Walk) : Option Node := w.path.head?

/-- The nodes around the current one, innermost first. -/
def ancestors (w : Walk) : List Node := w.path.tail

/-- The innermost scope. -/
def scope (w : Walk) : Option Node := w.scopes.head?

/-- The innermost scope of a kind. -/
def enclosing (w : Walk) (kind : NodeKind) : Option Node := w.scopes.find? (·.kind = kind)

/-- Whether the findings of a rule are suppressed here. -/
def isSuppressed (w : Walk) (rule : String) : Bool := w.suppressed.contains rule

/-! ## Moving -/

/-- The walk after entering a node with what is suppressed from there on. -/
def enter (w : Walk) (n : Node) (s : Suppression) : Walk where
  path := n :: w.path
  scopes := if n.isContainer then n :: w.scopes else w.scopes
  suppressed := w.suppressed ∪ s.rules

/-- Takes the innermost scope away. -/
def closeScope : Attempt Walk Unit := fun w =>
  match w.scopes with
  | [] => (.error .nothingToLeave, w)
  | _ :: outer => (.ok (), { w with scopes := outer })

/-- Goes back from a node, which must be the one entered last. -/
def stepBack (n : Node) : Attempt Walk Unit := fun w =>
  match w.path with
  | [] => (.error .nothingToLeave, w)
  | entered :: outer =>
    (if entered.is n then .ok () else .error .pathOutOfBalance, { w with path := outer })

/-- Leaves a node, with the rules that were suppressed before it. -/
def leave (n : Node) (before : NameSet) : Attempt Walk Unit := do
  stepBack n
  if n.isContainer then closeScope
  Attempt.update fun w => { w with suppressed := before }

/-- Leaving the node just entered goes back to the place before. -/
theorem leave_enter (w : Walk) (n : Node) (s : Suppression) :
    leave n w.suppressed (w.enter n s) = (.ok (), w) := by
  cases h : n.isContainer <;>
    simp [leave, enter, stepBack, closeScope, Attempt.bind_apply, Attempt.update, Node.is, h]

end Walk

end TreeLint
