/-
What work in a session does to its notes. Questions, the log and the call to stop leave them alone, and a scan
does to them what its handlers do. Main statement: `tour_noted`.
-/
import TreeLint.Proofs.Attempt
import TreeLint.Proofs.Walk.Tour

namespace TreeLint

variable {μ ν α : Type} {P : ν → Prop}

namespace Session

/-- A session whose notes are of a sort. -/
def Noted (P : ν → Prop) (s : Session ν) : Prop := P s.notes

theorem ask_noted (q : Query α) : (ask q).Preserves (Noted P) fun _ => True :=
  fun _ hs => ⟨hs, fun _ _ => trivial⟩

theorem tell_noted (level : LogLevel) (channel : Channel) (message : String) :
    (tell level channel message).Preserves (Noted P) fun _ => True :=
  fun _ hs => ⟨hs, fun _ _ => trivial⟩

theorem cancel_noted : cancel.Preserves (Noted P) fun _ => True :=
  fun _ hs => ⟨hs, fun _ _ => trivial⟩

theorem isCancelled_noted :
    ((·.cancelled) <$> Attempt.state : Attempt (Session ν) Bool).Preserves (Noted P) fun _ => True :=
  fun _ hs => ⟨hs, fun _ _ => trivial⟩

theorem note_noted {f : ν → ν} (h : ∀ notes, P notes → P (f notes)) : (note f).Preserves (Noted P) fun _ => True :=
  fun s hs => ⟨h s.notes hs, fun _ _ => trivial⟩

theorem goOn_noted : goOn.Preserves (Noted P) fun _ => True := by
  intro s hs
  unfold goOn
  rw [Attempt.bind_apply, Attempt.state_apply]
  dsimp only
  split <;> exact ⟨hs, fun _ _ => trivial⟩

/-! ## Other notes for a while -/

/-- Does something with other notes, given how these are made from the former ones and what becomes of both. -/
def through (enter : ν → μ) (leave : ν → μ → ν) (x : Attempt (Session μ) α) : Attempt (Session ν) α := fun s =>
  let (r, t) := x { s with notes := enter s.notes }
  (r, { t with notes := leave s.notes t.notes })

theorem through_apply (enter : ν → μ) (leave : ν → μ → ν) (x : Attempt (Session μ) α) (s : Session ν) :
    through enter leave x s = ((x { s with notes := enter s.notes }).1,
      { (x { s with notes := enter s.notes }).2 with
        notes := leave s.notes (x { s with notes := enter s.notes }).2.notes }) := rfl

theorem aside_eq (notes : μ) (x : Attempt (Session μ) α) :
    (aside notes x : Attempt (Session ν) α) = through (fun _ => notes) (fun former _ => former) x := rfl

theorem through_noted {Q : μ → Prop} {post : α → Prop} {enter : ν → μ} {leave : ν → μ → ν}
    {x : Attempt (Session μ) α} (hx : x.Preserves (Noted Q) post) (henter : ∀ notes, P notes → Q (enter notes))
    (hleave : ∀ notes notes', P notes → Q notes' → P (leave notes notes')) :
    (through enter leave x).Preserves (Noted P) post := by
  intro s hs
  obtain ⟨hend, hpost⟩ := hx { s with notes := enter s.notes } (henter s.notes hs)
  exact ⟨hleave s.notes _ hs hend, hpost⟩

end Session

open Session (Noted)

namespace Scanner

variable {sc : Scanner ν}

theorem arrive_noted (n : Node) : (sc.arrive n).Preserves (Noted P) fun _ => True := by
  unfold arrive
  refine Session.goOn_noted.bind fun _ _ => (Session.ask_noted _).bind fun s _ => ?_
  split
  · exact (Session.tell_noted _ _ _).bind fun _ _ => .pure trivial
  · exact .pure trivial

/-- What the handlers note at each node is all that a tour notes. -/
theorem tour_noted (hcall : ∀ walk n, (sc.callAll walk n).Preserves (Noted P) fun _ => True) :
    (∀ (n : Node) (walk : Walk), (sc.tour walk n).Preserves (Noted P) fun _ => True) ∧
    ∀ (ns : List Node) (walk : Walk), (sc.tourAll walk ns).Preserves (Noted P) fun _ => True := by
  refine Node.forest_induction (fun n ih walk => ?_) (fun _ => .pure trivial) fun n ns ihn ihns walk => ?_
  · rw [tour_eq]
    refine (arrive_noted n).bind fun arrived _ => ?_
    cases arrived with
    | none => exact .pure trivial
    | some s => exact (hcall _ n).bind fun _ _ => ih _
  · rw [tourAll]
    exact (ihn walk).bind fun _ _ => ihns walk

end Scanner

end TreeLint
