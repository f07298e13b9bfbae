/-
What goes wrong where something may fail: a computation put together from others has no faults but theirs.
-/
import TreeLint.Fault

namespace TreeLint

variable {α β : Type} {p q : Fault → Prop}

theorem ok_bind (a : α) (f : α → Except Fault β) : (Except.ok a >>= f) = f a := rfl

/-- A computation all of whose faults are of a sort. -/
def FailsOnly (p : Fault → Prop) (x : Except Fault α) : Prop := ∀ f, x = .error f → p f

namespace FailsOnly

theorem ok (a : α) : FailsOnly p (.ok a) := fun _ h => nomatch h

theorem error {f : Fault} (h : p f) : FailsOnly p (.error f : Except Fault α) :=
  fun _ hf => Except.error.inj hf ▸ h

theorem mono {x : Except Fault α} (hx : FailsOnly p x) (h : ∀ f, p f → q f) : FailsOnly q x :=
  fun f hf => h f (hx f hf)

theorem bind {x : Except Fault α} {f : α → Except Fault β} (hx : FailsOnly p x) (hf : ∀ a, FailsOnly p (f a)) :
    FailsOnly p (x >>= f) := by
  cases x with
  | error e => exact .error (hx e rfl)
  | ok a => exact hf a

theorem map {x : Except Fault α} (hx : FailsOnly p x) (f : α → β) : FailsOnly p (f <$> x) := by
  rw [← bind_pure_comp]
  exact hx.bind fun a => .ok (f a)

theorem mapM {f : α → Except Fault β} (hf : ∀ a, FailsOnly p (f a)) (as : List α) : FailsOnly p (as.mapM f) := by
  induction as with
  | nil => exact .ok []
  | cons a rest ih =>
    rw [List.mapM_cons]
    exact (hf a).bind fun _ => ih.bind fun _ => .ok _

theorem optionMapM {f : α → Except Fault β} (hf : ∀ a, FailsOnly p (f a)) (a : Option α) :
    FailsOnly p (a.mapM f) := by
  cases a with
  | none => exact .ok none
  | some a => exact (hf a).map some

end FailsOnly

/-- Whether a rule lets go of a fix that comes to a fault, and does not fail itself. -/
def Fault.isLetGo (f : Fault) : Bool := f matches .noSourceSpan _ | .conflictingEdits ..

/-- A computation all of whose faults are let go of. -/
abbrev Lenient (x : Except Fault α) : Prop := FailsOnly (fun f => f.isLetGo = true) x

/-- A computation that does not fail as one that is called off. -/
abbrev Owned (x : Except Fault α) : Prop := FailsOnly (fun f => f ≠ .cancelled) x

theorem Owned.of_lenient {x : Except Fault α} (hx : Lenient x) : Owned x :=
  hx.mono fun f hf hcontra => by
    rw [hcontra] at hf
    cases hf

end TreeLint
