/-
Sessions: what is carried along while one unit is worked on: the answers of the resolver, whether
the work was called off, the log, and the notes of whoever does the work.
-/
import TreeLint.Attempt
import TreeLint.Resolver

namespace TreeLint

/-- What outlives the work on one unit. -/
structure Progress where
  /-- Whether the work can be called off at all. -/
  isStoppable : Bool := true
  /-- Whether the work was called off. -/
  cancelled : Bool := false
  log : Log := []

/-- Writes a log entry. -/
def Progress.tell (level : LogLevel) (channel : Channel) (message : String) : Attempt Progress Unit :=
  Attempt.update fun p => { p with log := p.log ++ [⟨level, channel, message⟩] }

/-- What is carried along while one unit is worked on. -/
structure Session (ν : Type) extends Progress where
  resolver : Resolver := {}
  notes : ν

namespace Session

variable {μ ν α : Type}

/-- The answer of the resolver to a question. -/
def ask (q : Query α) : Attempt (Session ν) α := fun s =>
  let (a, resolver) := q s.resolver
  (.ok a, { s with resolver })

/-- Changes the notes. -/
def note (f : ν → ν) : Attempt (Session ν) Unit :=
  Attempt.update fun s => { s with notes := f s.notes }

/-- Writes a log entry. -/
def tell (level : LogLevel) (channel : Channel) (message : String) : Attempt (Session ν) Unit :=
  Attempt.update fun s => { s with log := s.log ++ [⟨level, channel, message⟩] }

/-- Does something with notes of its own, and takes up the former ones afterwards. -/
def aside (notes : μ) (x : Attempt (Session μ) α) : Attempt (Session ν) α := fun s =>
  let (r, s') := x { s with notes }
  (r, { s' with notes := s.notes })

/-- Calls the work off, if it can be. -/
def cancel : Attempt (Session ν) Unit :=
  Attempt.update fun s => { s with cancelled := s.cancelled || s.isStoppable }

/-- Fails if the work was called off. -/
def goOn : Attempt (Session ν) Unit := do
  if (← Attempt.state).cancelled then Attempt.fail .cancelled

end Session

end TreeLint
