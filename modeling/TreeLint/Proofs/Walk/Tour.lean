/-
The scan of a tree as a recursion that hands the place of the walk down to the children. Nothing
has to be left again, and the session is all that is carried along. The stack of the scan comes to
the same: `scan_eq_descend` leads from the stack to the recursion on the tree, and `scan_roundTrip`
from there to the tour. A scan that does not fail ends where it began.
-/
import TreeLint.Proofs.Tree.Forest
import TreeLint.Walk.Descent

namespace TreeLint

variable {ν : Type}

/-! ## From the stack to the recursion -/

namespace Scanner

theorem descend_eq (sc : Scanner ν) (n : Node) :
    sc.descend n = (do
      match ← sc.enter n with
      | none => return ()
      | some before => do
        sc.descendAll n.children
        Scan.move (Walk.leave n before)) := by
  cases n; rfl

/-- A node on top of the stack is done with, subtree and all, before the tasks below it. -/
theorem run_enter (sc : Scanner ν) :
    (∀ (n : Node) (rest : List Task), sc.run (.enter n :: rest) = (do sc.descend n; sc.run rest)) ∧
    ∀ (ns : List Node) (rest : List Task), sc.run (ns.map .enter ++ rest) = (do sc.descendAll ns; sc.run rest) := by
  refine Node.forest_induction (fun n ih rest => ?_) (fun rest => ?_) fun n ns ihn ihns rest => ?_
  · rw [run, descend_eq, bind_assoc]
    congr 1
    funext entered
    cases entered with
    | none => rw [pure_bind]
    | some before =>
      -- the children stand on the stack in order, above the task of leaving the node
      have hstack : Task.within n before ++ rest = n.children.map Task.enter ++ (Task.leave n before :: rest) := by
        rw [Task.within, List.append_assoc, List.singleton_append]
      simp only
      rw [hstack, ih, run, bind_assoc]
  · rw [descendAll, pure_bind]
    rfl
  · rw [List.map_cons, List.cons_append, ihn, ihns, descendAll, bind_assoc]

theorem run_root (sc : Scanner ν) (root : Node) : sc.run [.enter root] = sc.descend root := by
  rw [(run_enter sc).1, run]
  exact Attempt.andThen_done _

/-! ## The tour -/

/-- What is done on arrival at a node. The answer is what is suppressed from there on, or nothing if
the subtree is passed over. -/
def arrive (sc : Scanner ν) (n : Node) : Attempt (Session ν) (Option Suppression) := do
  Session.goOn
  let s ← Session.ask (Suppression.of sc.predicates n)
  if s.everything then
    let name := n.name.getD ""
    Session.tell .debug .walk s!"Skipping generated {n.kind.name} subtree {name}"
    return none
  return some s

/-- Calls the handlers for a node, given the place of the walk. -/
def callAll (sc : Scanner ν) (walk : Walk) (n : Node) : Attempt (Session ν) Unit :=
  forM (sc.handlers n.kind) fun handle => handle walk n

mutual

/-- Goes through the subtree of a node, given the place of the walk around it. -/
def tour (sc : Scanner ν) (walk : Walk) : Node → Attempt (Session ν) Unit
  | n@⟨_, _, _, _, _, _, _, _, children⟩ => do
    match ← sc.arrive n with
    | none => return ()
    | some s => do
      sc.callAll (walk.enter n s) n
      sc.tourAll (walk.enter n s) children

/-- Goes through several subtrees, one after the other. -/
def tourAll (sc : Scanner ν) (walk : Walk) : List Node → Attempt (Session ν) Unit
  | [] => return ()
  | n :: ns => do
    sc.tour walk n
    sc.tourAll walk ns

end

theorem tour_eq (sc : Scanner ν) (walk : Walk) (n : Node) :
    sc.tour walk n = (do
      match ← sc.arrive n with
      | none => return ()
      | some s => do
        sc.callAll (walk.enter n s) n
        sc.tourAll (walk.enter n s) n.children) := by
  cases n; rfl

/-! ## Entering a node -/

theorem here_apply {α : Type} (x : Walk → Attempt (Session ν) α) (session : Session ν) (walk : Walk) :
    Scan.here x ⟨session, walk⟩ = ((x walk session).1, ⟨(x walk session).2, walk⟩) := rfl

theorem session_apply {α : Type} (x : Attempt (Session ν) α) (session : Session ν) (walk : Walk) :
    Scan.session x ⟨session, walk⟩ = ((x session).1, ⟨(x session).2, walk⟩) := rfl

/-- The handlers do not move the walk. -/
theorem forIn_here (n : Node) (handlers : List (Handler ν)) :
    (forIn handlers PUnit.unit fun handle _ => do
        Scan.here fun walk => handle walk n
        pure (ForInStep.yield PUnit.unit) : Attempt (Scan ν) PUnit) =
      Scan.here fun walk => forM handlers fun handle => handle walk n := by
  funext ⟨session, walk⟩
  induction handlers generalizing session with
  | nil => rfl
  | cons handle rest ih =>
    rw [List.forIn_cons, bind_assoc, Attempt.bind_apply, here_apply, here_apply, List.forM_cons, Attempt.bind_apply]
    rcases handle walk n session with ⟨_ | _, after⟩
    · rfl
    · exact ih after

theorem session_bind {α β : Type} (x : Attempt (Session ν) α) (f : α → Attempt (Session ν) β) :
    Scan.session (x >>= f) = (Scan.session x >>= fun a => Scan.session (f a)) := by
  funext s
  simp only [Scan.session, Attempt.bind_apply, Attempt.within_apply]
  rcases x s.toSession with ⟨_ | _, _⟩ <;> rfl

theorem enter_eq (sc : Scanner ν) (n : Node) :
    sc.enter n = (do
      match ← Scan.session (sc.arrive n) with
      | none => return none
      | some s => do
        let before ← Scan.here fun walk => pure walk.suppressed
        Scan.move (Attempt.update fun walk => walk.enter n s)
        Scan.here fun walk => sc.callAll walk n
        return some before) := by
  unfold enter arrive
  rw [session_bind, bind_assoc]
  congr 1
  funext _
  rw [session_bind, bind_assoc]
  congr 1
  funext s
  cases s.everything
  · simp only [forIn_here]
    rfl
  · rfl

/-! ## There and back -/

/-- A walk that does to the session what a tour from the same place does, and that comes back to
that place unless it fails. -/
structure RoundTrip (x : Attempt (Scan ν) Unit) (y : Walk → Attempt (Session ν) Unit) : Prop where
  session : ∀ session walk, ((x ⟨session, walk⟩).1, (x ⟨session, walk⟩).2.toSession) = y walk session
  back : ∀ session walk, (x ⟨session, walk⟩).1 = .ok () → (x ⟨session, walk⟩).2.walk = walk

theorem RoundTrip.apply {x : Attempt (Scan ν) Unit} {y : Walk → Attempt (Session ν) Unit} (h : RoundTrip x y)
    {s t : Session ν} {walk : Walk} (hy : y walk s = (.ok (), t)) : x ⟨s, walk⟩ = (.ok (), ⟨t, walk⟩) := by
  obtain ⟨hres, hend⟩ := Prod.mk.inj ((h.session s walk).trans hy)
  have hback := h.back s walk hres
  rcases hx : x ⟨s, walk⟩ with ⟨r, ⟨t', walk'⟩⟩
  rw [hx] at hres hend hback
  cases hres
  cases hend
  cases hback
  rfl

/-- A round trip, and another one after it. -/
theorem RoundTrip.andThen {x x' : Attempt (Scan ν) Unit} {y y' : Walk → Attempt (Session ν) Unit}
    (h : RoundTrip x y) (h' : RoundTrip x' y') :
    RoundTrip (do x; x') (fun walk => do y walk; y' walk) := by
  refine ⟨fun session walk => ?_, fun session walk => ?_⟩
  · rw [Attempt.bind_apply, Attempt.bind_apply, ← h.session session walk]
    have hback := h.back session walk
    rcases hx : x ⟨session, walk⟩ with ⟨_ | _, ⟨t, walk'⟩⟩
    · rfl
    · rw [hx] at hback
      cases hback rfl
      exact h'.session t walk'
  · rw [Attempt.bind_apply]
    have hback := h.back session walk
    rcases hx : x ⟨session, walk⟩ with ⟨_ | _, ⟨t, walk'⟩⟩
    · intro hr
      cases hr
    · rw [hx] at hback
      cases hback rfl
      exact h'.back t walk'

theorem here_roundTrip (y : Walk → Attempt (Session ν) Unit) : RoundTrip (Scan.here y) y :=
  ⟨fun _ _ => rfl, fun _ _ _ => rfl⟩

/-- A round trip inside a node that is entered before and left behind it. -/
theorem RoundTrip.inside {x : Attempt (Scan ν) Unit} {y : Walk → Attempt (Session ν) Unit} (h : RoundTrip x y)
    (n : Node) (s : Suppression) :
    RoundTrip (do
      let before ← Scan.here fun walk => pure walk.suppressed
      Scan.move (Attempt.update fun walk => walk.enter n s)
      x
      Scan.move (Walk.leave n before)) fun walk => y (walk.enter n s) := by
  -- what was suppressed before is read once and does not change until it is put back
  have key : ∀ session walk, (do
      let before ← Scan.here fun walk => pure walk.suppressed
      Scan.move (Attempt.update fun walk => walk.enter n s)
      x
      Scan.move (Walk.leave n before)) ⟨session, walk⟩ =
      (do x; Scan.move (Walk.leave n walk.suppressed)) (⟨session, walk.enter n s⟩ : Scan ν) := fun _ _ => rfl
  refine ⟨fun session walk => ?_, fun session walk => ?_⟩ <;>
    rw [key, Attempt.bind_apply] <;>
    have hback := h.back session (walk.enter n s)
  · rw [← h.session session (walk.enter n s)]
    rcases hx : x ⟨session, walk.enter n s⟩ with ⟨_ | _, ⟨t, walk'⟩⟩
    · rfl
    · rw [hx] at hback
      rw [show walk' = walk.enter n s from hback rfl]
      simp only [Scan.move, Attempt.within_apply, Walk.leave_enter]
  · rcases hx : x ⟨session, walk.enter n s⟩ with ⟨_ | _, ⟨t, walk'⟩⟩
    · intro hr
      cases hr
    · rw [hx] at hback
      rw [show walk' = walk.enter n s from hback rfl]
      simp only [Scan.move, Attempt.within_apply, Walk.leave_enter, implies_true]

theorem descend_roundTrip (sc : Scanner ν) :
    (∀ n : Node, RoundTrip (sc.descend n) fun walk => sc.tour walk n) ∧
    ∀ ns : List Node, RoundTrip (sc.descendAll ns) fun walk => sc.tourAll walk ns := by
  refine Node.forest_induction (fun n ih => ?_) ?_ fun n ns ihn ihns => ?_
  · -- the handlers and the subtrees lie together between entering and leaving
    have hinner := ((here_roundTrip fun walk => sc.callAll walk n).andThen ih).inside n
    simp only [bind_assoc] at hinner
    refine ⟨fun session walk => ?_, fun session walk => ?_⟩ <;>
      rw [descend_eq, enter_eq, bind_assoc, Attempt.bind_apply, session_apply]
    · rw [tour_eq, Attempt.bind_apply]
      rcases sc.arrive n session with ⟨_ | _ | s, arrived⟩
      · rfl
      · rfl
      · simp only [bind_assoc, pure_bind]
        exact (hinner s).session arrived walk
    · rcases sc.arrive n session with ⟨_ | _ | s, arrived⟩
      · intro h
        cases h
      · intro _
        rfl
      · simp only [bind_assoc, pure_bind]
        exact (hinner s).back arrived walk
  · exact ⟨fun _ _ => rfl, fun _ _ _ => rfl⟩
  · exact ihn.andThen ihns

/-- A scan never finds its path deeper or less deep than where it began. -/
theorem scan_eq_descend (sc : Scanner ν) (root : Node) : sc.scan root = sc.descend root := by
  funext ⟨session, walk⟩
  have hback := ((descend_roundTrip sc).1 root).back session walk
  unfold scan
  rw [run_root, Attempt.bind_apply, here_apply, Attempt.pure_apply]
  simp only
  rw [Attempt.bind_apply]
  rcases hr : sc.descend root ⟨session, walk⟩ with ⟨_ | _, ⟨t, walk'⟩⟩
  · rfl
  · rw [hr] at hback
    cases hback rfl
    simp only
    rw [Attempt.bind_apply, here_apply]
    simp

theorem scan_roundTrip (sc : Scanner ν) (root : Node) :
    RoundTrip (sc.scan root) fun walk => sc.tour walk root := by
  rw [scan_eq_descend]
  exact (descend_roundTrip sc).1 root

end Scanner

end TreeLint
