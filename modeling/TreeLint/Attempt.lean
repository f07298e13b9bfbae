/-
Computations on a state that may fail. A failed one still says which state it leaves behind, so
that work done before the failure can be seen after it.
-/
import TreeLint.Fault
import TreeLint.Log

namespace TreeLint

/-- A computation that starts from a state and ends in a state, with a result or a fault. -/
def Attempt (σ α : Type) : Type := σ → Except Fault α × σ

namespace Attempt

variable {σ τ α β : Type}

/-- Ends at once with a result. -/
def done (a : α) : Attempt σ α := fun s => (.ok a, s)

/-- Ends at once with a fault. -/
def fail (f : Fault) : Attempt σ α := fun s => (.error f, s)

/-- Goes on from the result and the state of the first computation, unless it failed. -/
def andThen (x : Attempt σ α) (f : α → Attempt σ β) : Attempt σ β := fun s =>
  match x s with
  | (.ok a, s') => f a s'
  | (.error e, s') => (.error e, s')

instance : Monad (Attempt σ) where
  pure := done
  bind := andThen

theorem andThen_done (x : Attempt σ α) : andThen x done = x := by
  funext s
  unfold andThen done
  rcases x s with ⟨_ | _, _⟩ <;> rfl

theorem andThen_assoc {γ : Type} (x : Attempt σ α) (f : α → Attempt σ β) (g : β → Attempt σ γ) :
    andThen (andThen x f) g = andThen x fun a => andThen (f a) g := by
  funext s
  unfold andThen
  rcases x s with ⟨_ | _, _⟩ <;> rfl

instance : LawfulMonad (Attempt σ) :=
  LawfulMonad.mk' _ andThen_done (fun _ _ => rfl) andThen_assoc

/-- The state. -/
def state : Attempt σ σ := fun s => (.ok s, s)

/-- Changes the state. -/
def update (f : σ → σ) : Attempt σ Unit := fun s => (.ok (), f s)

/-- A result or fault that does not look at the state. -/
def lift (x : Except Fault α) : Attempt σ α := fun s => (x, s)

/-- The result or the fault of a computation, as a result. -/
def caught (x : Attempt σ α) : Attempt σ (Except Fault α) := fun s =>
  let (r, s) := x s
  (.ok r, s)

/-- Writes a log entry. -/
def tell (level : LogLevel) (channel : Channel) (message : String) : Attempt Log Unit :=
  update (· ++ [⟨level, channel, message⟩])

/-- Runs a computation on a part of the state, given how the part is read and put back. -/
def within (get : σ → τ) (put : τ → σ → σ) (x : Attempt τ α) : Attempt σ α := fun s =>
  let (r, t) := x (get s)
  (r, put t s)

/-! ## What each operation does to a state -/

@[simp] theorem pure_apply (a : α) (s : σ) : (pure a : Attempt σ α) s = (.ok a, s) := rfl

@[simp] theorem fail_apply (f : Fault) (s : σ) : (fail f : Attempt σ α) s = (.error f, s) := rfl

@[simp] theorem state_apply (s : σ) : state s = (.ok s, s) := rfl

@[simp] theorem update_apply (f : σ → σ) (s : σ) : update f s = (.ok (), f s) := rfl

@[simp] theorem lift_apply (x : Except Fault α) (s : σ) : lift x s = (x, s) := rfl

@[simp] theorem caught_apply (x : Attempt σ α) (s : σ) : caught x s = (.ok (x s).1, (x s).2) := rfl

@[simp] theorem within_apply (get : σ → τ) (put : τ → σ → σ) (x : Attempt τ α) (s : σ) :
    within get put x s = ((x (get s)).1, put (x (get s)).2 s) := rfl

theorem bind_apply (x : Attempt σ α) (f : α → Attempt σ β) (s : σ) :
    (x >>= f) s = match x s with
      | (.ok a, s') => f a s'
      | (.error e, s') => (.error e, s') := rfl

end Attempt

end TreeLint
