/-
Drafts: edits asked for by the nodes of a unit, which become a fix once each has found its place in
the source. A request without a place fails and leaves the draft as it was.
-/
import TreeLint.Attempt
import TreeLint.Fix.Basic
import TreeLint.Source

namespace TreeLint

/-- One edit as a rule asks for it. -/
inductive EditRequest
  /-- Replaces the text of a node. -/
  | replace (target : Node) (text : String)
  /-- Replaces what lies between two offsets. -/
  | replaceSpan (start stop : Int) (text : String)
  /-- Inserts a text in front of a node. -/
  | prefixWith (target : Node) (text : String)
  /-- Inserts a text behind a node. -/
  | postfixWith (target : Node) (text : String)
  /-- Deletes the text of a node. -/
  | delete (target : Node)

/-- The edit in the source that a request asks for; a place that the source does not have is a
fault. -/
def EditRequest.edit (source : String) : EditRequest → Except Fault Edit
  | replace target text => do return ⟨← Source.spanOf source target, text⟩
  | replaceSpan start stop text => do
    let span ← Span.ofBounds start stop
    if source.length < span.stop then .error (.spanOutside span) else return ⟨span, text⟩
  | prefixWith target text => do return ⟨.point (← Source.spanOf source target).start, text⟩
  | postfixWith target text => do return ⟨.point (← Source.spanOf source target).stop, text⟩
  | delete target => do return ⟨← Source.spanOf source target, ""⟩

/-- The edits gathered for a fix. -/
structure Draft where
  edits : List Edit := []

namespace Draft

/-- Adds the edit that a request asks for. -/
def add (source : String) (r : EditRequest) : Attempt Draft Unit := do
  let e ← Attempt.lift (r.edit source)
  Attempt.update fun d => { d with edits := d.edits ++ [e] }

/-- The fix with the edits gathered; two that conflict are a fault. -/
def fix (d : Draft) : Except Fault Fix := Fix.of d.edits

/-- The draft with the edits that some requests ask for, in turn. -/
def addAll (source : String) (requests : List EditRequest) : Attempt Draft Unit :=
  requests.forM (add source)

end Draft

/-- The fix that some requests ask for. The first of them without a place is the fault, and only
then do the edits have to agree. -/
def Fix.build (source : String) (requests : List EditRequest) : Except Fault Fix := do
  let (result, draft) := Draft.addAll source requests {}
  result
  draft.fix

end TreeLint
