/-
Merging fixes that were made without regard to each other: each is taken whole, or left out when it
conflicts with those taken before it.
-/
import TreeLint.Attempt
import TreeLint.Fix.Basic

namespace TreeLint

/-- How an edit reads in a message. -/
def Edit.display (e : Edit) : String :=
  s!"({e.span.start}, {e.span.stop}, {Text.quoted e.replacement})"

namespace Fix

/-- How a fix reads in a message. -/
def display (f : Fix) : String :=
  "[" ++ ", ".intercalate (f.edits.map Edit.display) ++ "]"

/-- Takes one more fix, unless it is missing, empty or in conflict. -/
def takeInto (merged : Fix) (next : Option Fix) : Attempt Log Fix := do
  let some f := next | return merged
  if f.isEmpty then return merged
  if merged.conflictsWith f then
    Attempt.tell .info .fixer s!"Skipping fix that conflicts with an earlier fix: {f.display}"
    return merged
  Attempt.lift (merged.merge f)

/-- The fixes of a list in one, as far as they agree. -/
def mergeAll (fixes : List (Option Fix)) : Attempt Log Fix :=
  fixes.foldlM takeInto empty

end Fix

end TreeLint
