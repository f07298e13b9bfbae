/-
Fixes: edits that are carried out together on one text. `Fix.of` puts edits into ascending order
and refuses two that conflict; `isWellFormed` tells whether a list of edits is of the form that
`Fix.of` gives.
-/
import TreeLint.Fault
import TreeLint.Fix.Edit

namespace TreeLint

/-- A list of edits of one text. -/
structure Fix where
  edits : List Edit
deriving DecidableEq

namespace Fix

/-- The fix without edits. -/
def empty : Fix := ⟨[]⟩

/-- Whether the fix has no edits. -/
def isEmpty (f : Fix) : Bool := f.edits.isEmpty

/-- The first two neighbours in a list of edits that conflict. -/
def firstConflict : List Edit → Option (Edit × Edit)
  | a :: b :: rest => if a.conflicts b then some (a, b) else firstConflict (b :: rest)
  | _ => none

/-- The fix with some edits, ascending by their spans; two that conflict are a fault. -/
def of (edits : List Edit) : Except Fault Fix :=
  let ordered := edits.mergeSort Edit.precedes
  match firstConflict ordered with
  | some (a, b) => .error (.conflictingEdits a.span b.span)
  | none => .ok ⟨ordered⟩

/-- Whether each edit of a list starts before the next one and does not conflict with it. -/
def ascends : List Edit → Bool
  | a :: b :: rest => a.span.start < b.span.start && !a.conflicts b && ascends (b :: rest)
  | _ => true

/-- Whether the edits ascend without conflicts. -/
def isWellFormed (f : Fix) : Bool := ascends f.edits

/-- Whether some edit of one fix conflicts with some edit of another. -/
def conflictsWith (f g : Fix) : Bool :=
  f.edits.any fun a => g.edits.any fun b => a.conflicts b

/-- One fix with the edits of two. -/
def merge (f g : Fix) : Except Fault Fix := of (f.edits ++ g.edits)

/-- The edits from the last one in the text to the first, so that each leaves the offsets of those
after it as they were. -/
def descending (f : Fix) : List Edit :=
  f.edits.mergeSort fun a b => b.span.start ≤ a.span.start

/-- The text after all edits; one that reaches past the end of the text is a fault. -/
def applyTo (f : Fix) (text : List Char) : Except Fault (List Char) :=
  f.descending.foldlM (fun edited e =>
    if text.length < e.span.stop then .error (.editOutside e.span) else .ok (e.applyTo edited)) text

/-- `applyTo` for a source. -/
def apply (f : Fix) (source : String) : Except Fault String :=
  String.ofList <$> f.applyTo source.toList

theorem conflictsWith_comm (f g : Fix) : f.conflictsWith g = g.conflictsWith f := by
  rw [Bool.eq_iff_iff]
  simp only [conflictsWith, List.any_eq_true]
  constructor <;> rintro ⟨a, ha, b, hb, h⟩ <;> exact ⟨b, hb, a, ha, Edit.conflicts_comm a b ▸ h⟩

end Fix

end TreeLint
