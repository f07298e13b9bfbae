/-
Tours of two scanners that come to the same at each node come to the same as a whole.
-/
import TreeLint.Proofs.Attempt
import TreeLint.Proofs.Walk.Calls

namespace TreeLint.Scanner

variable {ν : Type}

/-- Two scanners that come to the same on arrival at a node, and whose handlers do, one by one. -/
structure Alike (R : Session ν → Session ν → Prop) (within : Node → Prop) (sc sc' : Scanner ν) : Prop where
  below : ∀ n, within n → ∀ m ∈ n.children, within m
  arrive : ∀ n, within n → Attempt.Alike R (sc.arrive n) (sc'.arrive n)
  handlers : ∀ n, within n → ∀ walk : Walk, walk.Within within →
    List.Forall₂ (fun h h' => Attempt.Alike R (h walk n) (h' walk n)) (sc.handlers n.kind) (sc'.handlers n.kind)

theorem Alike.tour {R : Session ν → Session ν → Prop} {within : Node → Prop} {sc sc' : Scanner ν}
    (h : Alike R within sc sc') :
    (∀ (n : Node) (walk : Walk), within n → walk.Within within → Attempt.Alike R (sc.tour walk n) (sc'.tour walk n)) ∧
    ∀ (ns : List Node) (walk : Walk), (∀ n ∈ ns, within n) → walk.Within within →
      Attempt.Alike R (sc.tourAll walk ns) (sc'.tourAll walk ns) := by
  refine Node.forest_induction (fun n ih walk hn hw => ?_) (fun walk _ _ => .pure ())
    fun n ns ihn ihns walk hns hw => ?_
  · rw [tour_eq, tour_eq]
    refine (h.arrive n hn).bind fun entered => ?_
    cases entered with
    | none => exact .pure ()
    | some s =>
      have hw' := hw.enter hn s
      exact (Attempt.Alike.forM (h.handlers n hn _ hw')).bind fun _ => ih _ (h.below n hn) hw'
  · rw [tourAll, tourAll]
    exact (ihn walk (hns n List.mem_cons_self) hw).bind fun _ =>
      ihns walk (fun m hm => hns m (List.mem_cons_of_mem n hm)) hw

end TreeLint.Scanner
