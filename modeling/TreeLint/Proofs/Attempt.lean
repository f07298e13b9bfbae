/-
Computations that come to the same from states that are alike, for a relation between states to be
chosen, and computations whose results and faults are of some sort or that keep an invariant. Sequences,
loops and caught faults of such computations are such computations again.
-/
import Mathlib.Data.List.Forall2
import TreeLint.Attempt
import TreeLint.Proofs.Fault

namespace TreeLint.Attempt

variable {σ α β ι κ : Type} {R : σ → σ → Prop}

theorem map_apply (f : α → β) (x : Attempt σ α) (s : σ) : (f <$> x) s = ((x s).1.map f, (x s).2) := by
  rw [← bind_pure_comp, bind_apply]
  rcases x s with ⟨_ | _, _⟩ <;> rfl

/-- Two computations that have the same result or fault from related states, and end in related ones. -/
def Alike (R : σ → σ → Prop) (x y : Attempt σ α) : Prop :=
  ∀ s t, R s t → (x s).1 = (y t).1 ∧ R (x s).2 (y t).2

theorem Alike.pure (a : α) : Alike R (pure a) (pure a) :=
  fun _ _ h => ⟨rfl, h⟩

theorem Alike.lift (a : Except Fault α) : Alike R (lift a) (lift a) :=
  fun _ _ h => ⟨rfl, h⟩

theorem Alike.bind {x y : Attempt σ α} {f g : α → Attempt σ β} (hx : Alike R x y) (hf : ∀ a, Alike R (f a) (g a)) :
    Alike R (x >>= f) (y >>= g) := by
  intro s t h
  obtain ⟨hres, hend⟩ := hx s t h
  rw [bind_apply, bind_apply]
  rcases hxs : x s with ⟨a | a, s'⟩ <;> rcases hyt : y t with ⟨b | b, t'⟩ <;>
    rw [hxs, hyt] at hres hend <;> cases hres
  · exact ⟨rfl, hend⟩
  · exact hf a s' t' hend

theorem Alike.fail (f : Fault) : Alike R (fail f : Attempt σ α) (fail f) :=
  fun _ _ h => ⟨rfl, h⟩

theorem Alike.map {x y : Attempt σ α} (h : Alike R x y) (f : α → β) : Alike R (f <$> x) (f <$> y) := by
  rw [← bind_pure_comp, ← bind_pure_comp]
  exact h.bind fun a => .pure (f a)

/-- A caught fault is a result like any other. -/
theorem Alike.caught {x y : Attempt σ α} (h : Alike R x y) : Alike R (caught x) (caught y) := by
  intro s t hst
  obtain ⟨hres, hend⟩ := h s t hst
  exact ⟨congrArg Except.ok hres, hend⟩

/-- A loop over two lists whose members give, one by one, computations that come to the same. -/
theorem Alike.forM {f : ι → Attempt σ PUnit} {g : κ → Attempt σ PUnit} :
    ∀ {xs : List ι} {ys : List κ}, List.Forall₂ (fun a b => Alike R (f a) (g b)) xs ys →
      Alike R (forM xs f) (forM ys g)
  | [], [], _ => .pure PUnit.unit
  | a :: xs, b :: ys, h => by
    cases h with
    | cons hab hrest =>
      rw [List.forM_cons, List.forM_cons]
      exact hab.bind fun _ => Alike.forM hrest

theorem Alike.mapM {f : ι → Attempt σ α} {xs : List ι} (hf : ∀ i ∈ xs, Alike R (f i) (f i)) :
    Alike R (xs.mapM f) (xs.mapM f) := by
  induction xs with
  | nil => exact .pure []
  | cons i xs ih =>
    rw [List.mapM_cons]
    refine (hf i List.mem_cons_self).bind fun a => ?_
    exact (ih fun j hj => hf j (List.mem_cons_of_mem i hj)).bind fun as => .pure (a :: as)

theorem Alike.foldlM {f : β → ι → Attempt σ β} {xs : List ι} (hf : ∀ b, ∀ i ∈ xs, Alike R (f b i) (f b i)) (b : β) :
    Alike R (xs.foldlM f b) (xs.foldlM f b) := by
  induction xs generalizing b with
  | nil => exact .pure b
  | cons i xs ih =>
    rw [List.foldlM_cons]
    exact (hf b i List.mem_cons_self).bind fun b' => ih (fun b j hj => hf b j (List.mem_cons_of_mem i hj)) b'

/-! ## What a computation comes to -/

/-- A computation that comes, from whatever state, to a result of one sort or to a fault of another. -/
structure Comes (E : Fault → Prop) (P : α → Prop) (x : Attempt σ α) : Prop where
  result : ∀ s a, (x s).1 = .ok a → P a
  fault : ∀ s, FailsOnly E (x s).1

section Comes

variable {E E' : Fault → Prop} {P : α → Prop} {Q : β → Prop}

theorem Comes.pure {a : α} (h : P a) : Comes (σ := σ) E P (pure a) where
  result s b hb := by
    cases hb
    exact h
  fault s := .ok a

theorem Comes.imp {P' : α → Prop} {x : Attempt σ α} (hx : Comes E P x) (h : ∀ a, P a → P' a) : Comes E P' x :=
  ⟨fun s a ha => h a (hx.result s a ha), hx.fault⟩

theorem Comes.lift {x : Except Fault α} (h : FailsOnly E x) : Comes (σ := σ) E (x = .ok ·) (lift x) :=
  ⟨fun _ _ hx => hx, fun _ => h⟩

theorem Comes.fail {f : Fault} (h : E f) : Comes (σ := σ) E P (fail f) :=
  ⟨nofun, fun _ => .error h⟩

theorem Comes.update (f : σ → σ) : Comes E (fun _ => True) (update f) :=
  ⟨fun _ _ _ => trivial, fun _ => .ok ()⟩

theorem Comes.state : Comes E (fun _ => True) (state : Attempt σ σ) :=
  ⟨fun _ _ _ => trivial, fun s => .ok s⟩

theorem Comes.bind {x : Attempt σ α} {f : α → Attempt σ β} (hx : Comes E P x) (hf : ∀ a, P a → Comes E Q (f a)) :
    Comes E Q (x >>= f) where
  result s b hb := by
    have hres := hx.result s
    rw [bind_apply] at hb
    rcases h : x s with ⟨e | a, t⟩ <;> rw [h] at hb hres
    · cases hb
    · exact (hf a (hres a rfl)).result t b hb
  fault s := by
    have hres := hx.result s
    have hfault := hx.fault s
    rw [bind_apply]
    rcases h : x s with ⟨e | a, t⟩ <;> rw [h] at hres hfault
    · exact .error (hfault e rfl)
    · exact (hf a (hres a rfl)).fault t

theorem Comes.map {x : Attempt σ α} (hx : Comes E P x) {f : α → β} (hf : ∀ a, P a → Q (f a)) : Comes E Q (f <$> x) := by
  rw [← bind_pure_comp]
  exact hx.bind fun a ha => .pure (hf a ha)

/-- A caught fault is a result like any other. -/
theorem Comes.caught {x : Attempt σ α} (hx : Comes E P x) : Comes E' (FailsOnly E) (caught x) where
  result s r hr := by
    cases hr
    exact hx.fault s
  fault s := .ok (x s).1

theorem Comes.mapM {f : ι → Attempt σ α} (hf : ∀ i, Comes E P (f i)) (is : List ι) :
    Comes E (fun as => ∀ a ∈ as, P a) (is.mapM f) := by
  induction is with
  | nil => exact .pure (List.forall_mem_nil _)
  | cons i is ih =>
    rw [List.mapM_cons]
    exact (hf i).bind fun a ha => ih.bind fun as has => .pure (List.forall_mem_cons.2 ⟨ha, has⟩)

end Comes

/-! ## Work that completes -/

/-- A computation that does not fail where an invariant holds, keeps the invariant and has a result of a sort. -/
def Completes (inv : σ → Prop) (post : α → Prop) (x : Attempt σ α) : Prop :=
  ∀ s, inv s → ∃ a, (x s).1 = .ok a ∧ post a ∧ inv (x s).2

section Completes

variable {inv : σ → Prop}

theorem Completes.pure {post : α → Prop} {a : α} (h : post a) : Completes inv post (pure a) :=
  fun _ hs => ⟨a, rfl, h, hs⟩

theorem Completes.bind {post : α → Prop} {post' : β → Prop} {x : Attempt σ α} {f : α → Attempt σ β}
    (hx : Completes inv post x) (hf : ∀ a, post a → Completes inv post' (f a)) : Completes inv post' (x >>= f) := by
  intro s hs
  obtain ⟨a, hres, hpost, hend⟩ := hx s hs
  rw [bind_apply]
  rcases h : x s with ⟨r, t⟩
  rw [h] at hres hend
  cases hres
  exact hf a hpost t hend

theorem Completes.forM {f : ι → Attempt σ PUnit} :
    ∀ {is : List ι}, (∀ i ∈ is, Completes inv (fun _ => True) (f i)) → Completes inv (fun _ => True) (forM is f)
  | [], _ => .pure trivial
  | i :: is, h => by
    rw [List.forM_cons]
    exact (h i List.mem_cons_self).bind fun _ _ => Completes.forM fun j hj => h j (List.mem_cons_of_mem i hj)

end Completes

/-! ## Work that may fail half-way -/

/-- A computation that keeps an invariant, also where it fails, and whose results are of a sort. -/
def Preserves (inv : σ → Prop) (post : α → Prop) (x : Attempt σ α) : Prop :=
  ∀ s, inv s → inv (x s).2 ∧ ∀ a, (x s).1 = .ok a → post a

section Preserves

variable {inv : σ → Prop} {post : α → Prop} {post' : β → Prop}

theorem Preserves.pure {a : α} (h : post a) : Preserves inv post (pure a) :=
  fun _ hs => ⟨hs, fun _ hb => Except.ok.inj hb ▸ h⟩

theorem Preserves.lift (x : Except Fault α) : Preserves inv (x = .ok ·) (lift x) :=
  fun _ hs => ⟨hs, fun _ hx => hx⟩

theorem Preserves.imp {x : Attempt σ α} (hx : Preserves inv post x) {weaker : α → Prop} (h : ∀ a, post a → weaker a) :
    Preserves inv weaker x := by
  intro s hs
  obtain ⟨hend, hpost⟩ := hx s hs
  exact ⟨hend, fun a ha => h a (hpost a ha)⟩

theorem Preserves.bind {x : Attempt σ α} {f : α → Attempt σ β} (hx : Preserves inv post x)
    (hf : ∀ a, post a → Preserves inv post' (f a)) : Preserves inv post' (x >>= f) := by
  intro s hs
  obtain ⟨hend, hpost⟩ := hx s hs
  rw [bind_apply]
  rcases h : x s with ⟨e | a, t⟩ <;> rw [h] at hend hpost
  · exact ⟨hend, fun b hb => nomatch hb⟩
  · exact hf a (hpost a rfl) t hend

theorem Preserves.map {x : Attempt σ α} (hx : Preserves inv post x) {f : α → β} (hf : ∀ a, post a → post' (f a)) :
    Preserves inv post' (f <$> x) := by
  rw [← bind_pure_comp]
  exact hx.bind fun a ha => .pure (hf a ha)

theorem Preserves.forM {f : ι → Attempt σ PUnit} :
    ∀ {is : List ι}, (∀ i ∈ is, Preserves inv (fun _ => True) (f i)) → Preserves inv (fun _ => True) (forM is f)
  | [], _ => .pure trivial
  | i :: is, h => by
    rw [List.forM_cons]
    exact (h i List.mem_cons_self).bind fun _ _ => Preserves.forM fun j hj => h j (List.mem_cons_of_mem i hj)

/-- Computations that come to the same still do so where an invariant holds, if one of them keeps it. -/
theorem Alike.keeping {x y : Attempt σ α} (h : Alike R x y) (hx : Preserves inv post x) :
    Alike (fun s t => R s t ∧ inv s) x y := by
  rintro s t ⟨hst, hs⟩
  obtain ⟨hres, hend⟩ := h s t hst
  exact ⟨hres, hend, (hx s hs).1⟩

end Preserves

/-! ## Loops that carry a result -/

section Foldl

variable {P : β → Prop} {f : β → ι → Attempt σ β}

/-- What each step keeps, the loop keeps. -/
theorem foldlM_keeps {xs : List ι} (step : ∀ b, ∀ i ∈ xs, ∀ s b', P b → (f b i s).1 = .ok b' → P b') {b b' : β}
    {s : σ} (hb : P b) (h : (xs.foldlM f b s).1 = .ok b') : P b' := by
  induction xs generalizing b s with
  | nil =>
    cases h
    exact hb
  | cons i xs ih =>
    rw [List.foldlM_cons, bind_apply] at h
    rcases hi : f b i s with ⟨_ | next, s'⟩ <;> rw [hi] at h
    · cases h
    · have hnext := step b i List.mem_cons_self s next hb (congrArg Prod.fst hi)
      exact ih (fun b j hj => step b j (List.mem_cons_of_mem i hj)) hnext h

end Foldl

end TreeLint.Attempt
