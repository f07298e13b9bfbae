/-
The walk in hand of a rule. Where a scan on behalf of a rule calls a handler, the handler has the walk of the scan in
hand; afterwards the rule has its former walk again, whatever the handlers do and however they end. Main statement:
`traversal_scanBelow`.
-/
import TreeLint.Proofs.Session.Notes
import TreeLint.Proofs.Walk.Alike
import TreeLint.Rule.Basic

namespace TreeLint.RuleM

open Session (Noted)

variable {α : Type} {P : Visit → Prop} {scene : Scene} {handlers : Handlers} {root : Node} {walk : Walk}

/-! ## Another walk in hand -/

theorem visiting_eq (walk : Walk) (x : Attempt (Session Visit) α) :
    visiting walk x = Session.through (fun v => { v with traversal := walk })
      (fun former v => { v with traversal := former.traversal }) x := rfl

/-- However the work ended, the former walk is in hand again. -/
theorem visiting_restores (walk : Walk) (x : Attempt (Session Visit) α) (former : Walk) :
    (visiting walk x).Preserves (Noted (·.traversal = former)) fun _ => True := by
  have hx : x.Preserves (Noted fun _ => True) fun _ => True := fun _ _ => ⟨trivial, fun _ _ => trivial⟩
  rw [visiting_eq]
  exact Session.through_noted hx (fun _ _ => trivial) fun _ _ hformer _ => hformer

/-! ## Scans below -/

/-- The scanner that scans a subtree on behalf of a rule. -/
def scannerBelow (scene : Scene) (handlers : Handlers) : Scanner Visit where
  handlers kind := (handlers kind).map (guarded scene)
  predicates := scene.predicates

theorem scanBelow_eq (root : Node) (handlers : Handlers) (scene : Scene) :
    scanBelow root handlers scene = (do
      let outer ← traversal scene
      (scannerBelow scene handlers).tour { suppressed := outer.suppressed } root) := by
  funext session
  exact (Scanner.scan_roundTrip (scannerBelow scene handlers) root).session session _

/-- What the handlers note, each with the walk of the scan in hand, is all that a scan notes. -/
theorem scanBelow_noted (h : ∀ n, ∀ handle ∈ handlers n.kind, ∀ walk,
    (visiting walk (handle n scene)).Preserves (Noted P) fun _ => True) (root : Node) :
    (scanBelow root handlers scene).Preserves (Noted P) fun _ => True := by
  rw [scanBelow_eq]
  refine Attempt.Preserves.bind (fun _ hs => ⟨hs, fun _ _ => trivial⟩) fun outer _ => ?_
  refine (Scanner.tour_noted fun walk n => .forM fun handle hhandle => ?_).1 root _
  obtain ⟨inner, hinner, rfl⟩ := List.mem_map.1 hhandle
  unfold guarded
  split
  · exact .pure trivial
  · exact h n inner hinner walk

/-- A scan gives the walk in hand back, also where a handler fails half-way or the analysis is called off. -/
theorem traversal_scanBelow (root : Node) (handlers : Handlers) (scene : Scene) (s : Session Visit) :
    (scanBelow root handlers scene s).2.notes.traversal = s.notes.traversal :=
  (scanBelow_noted (fun _ _ _ walk => visiting_restores walk _ _) root s rfl).1

/-! ## Scans that are alike -/

/-- Related sessions of a rule whose walk in hand keeps to some nodes. -/
def InHand (R : Session Visit → Session Visit → Prop) (within : Node → Prop) (s t : Session Visit) : Prop :=
  R s t ∧ Noted (·.traversal.Within within) s

section InHand

variable {R : Session Visit → Session Visit → Prop} {within : Node → Prop}

theorem traversal_bind_alike (hnotes : ∀ s t, R s t → s.notes = t.notes) (scene : Scene)
    {f : Walk → Attempt (Session Visit) α}
    (hf : ∀ walk, walk.Within within → Attempt.Alike (InHand R within) (f walk) (f walk)) :
    Attempt.Alike (InHand R within) (traversal scene >>= f) (traversal scene >>= f) := by
  rintro s t ⟨hst, hs⟩
  have hsame := hf _ hs s t ⟨hst, hs⟩
  show (f s.notes.traversal s).1 = (f t.notes.traversal t).1 ∧
    InHand R within (f s.notes.traversal s).2 (f t.notes.traversal t).2
  rw [← hnotes s t hst]
  exact hsame

theorem reported_alike (hnotes : ∀ s t, R s t → s.notes = t.notes) (scene : Scene) :
    Attempt.Alike (InHand R within) (reported scene) (reported scene) :=
  fun s t hst => ⟨congrArg (fun v : Visit => Except.ok v.found) (hnotes s t hst.1), hst⟩

theorem visiting_alike (hnotes : ∀ s t, R s t → s.notes = t.notes)
    (hR : ∀ s t notes, R s t → R { s with notes } { t with notes }) {x : Attempt (Session Visit) α}
    (hx : Attempt.Alike (InHand R within) x x) (hw : walk.Within within) :
    Attempt.Alike (InHand R within) (visiting walk x) (visiting walk x) := by
  rw [visiting_eq]
  rintro s t ⟨hst, hs⟩
  unfold Session.through
  dsimp only
  rw [← hnotes s t hst]
  obtain ⟨hres, hend, -⟩ := hx { s with notes := { s.notes with traversal := walk } }
    { t with notes := { s.notes with traversal := walk } } ⟨hR s t _ hst, hw⟩
  refine ⟨hres, ?_, hs⟩
  rw [← hnotes _ _ hend]
  exact hR _ _ _ hend

/-- A scan comes to the same if its handlers do, each with a walk within the tree in hand. -/
theorem scanBelow_alike (hnotes : ∀ s t, R s t → s.notes = t.notes)
    (hR : ∀ s t notes, R s t → R { s with notes } { t with notes })
    (hbelow : ∀ n, within n → ∀ m ∈ n.children, within m)
    (harrive : ∀ n, within n →
      Attempt.Alike R ((scannerBelow scene handlers).arrive n) ((scannerBelow scene handlers).arrive n))
    (hhandlers : ∀ n, within n → ∀ handle ∈ handlers n.kind,
      Attempt.Alike (InHand R within) (handle n scene) (handle n scene)) (hroot : within root) :
    Attempt.Alike (InHand R within) (scanBelow root handlers scene) (scanBelow root handlers scene) := by
  rw [scanBelow_eq]
  refine traversal_bind_alike hnotes scene fun outer _ => ?_
  refine (Scanner.Alike.tour ⟨hbelow, fun n hn => ?_, fun n hn walk hw => ?_⟩).1 root _ hroot
    (Walk.within_start within outer.suppressed)
  · exact (harrive n hn).keeping (Scanner.arrive_noted n)
  refine List.forall₂_same.2 fun handle hmem => ?_
  obtain ⟨inner, hinner, rfl⟩ := List.mem_map.1 hmem
  unfold guarded
  split
  · exact .pure ()
  · exact visiting_alike hnotes hR (hhandlers n hn inner hinner) hw

end InHand

end TreeLint.RuleM
