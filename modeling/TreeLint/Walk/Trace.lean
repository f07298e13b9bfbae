/-
Traces: what a scan does, written down by its handlers. Each call is noted with the place of the
walk, and a chosen call may call the scan off or fail.
-/
import TreeLint.Walk.Scanner

namespace TreeLint

/-- A handler that writes down where it was called. -/
structure Trace where
  /-- The number of the call, from 1, that calls the scan off. -/
  cancelAt : Option Int := none
  /-- The number of the call, from 1, that fails. -/
  failAt : Option Int := none

namespace Trace

/-- Writes down the place of the walk. -/
def handle (t : Trace) : Handler (List Walk) := fun walk _ => do
  Session.note (· ++ [walk])
  let calls : Int := (← Attempt.state).notes.length
  if t.cancelAt = some calls then Session.cancel
  if t.failAt = some calls then Attempt.fail (.raised "RuntimeError" "handler failed")

/-- A scanner that traces the nodes of some kinds, `times` times each. -/
def scanner (t : Trace) (kinds : List NodeKind) (times : Nat) (predicates : List Suppression.Predicate) :
    Scanner (List Walk) where
  handlers kind := if kinds.contains kind then List.replicate times t.handle else []
  predicates

end Trace

end TreeLint
