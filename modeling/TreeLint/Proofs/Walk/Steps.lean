/-
What a scan does, as a list that the tree and the answers of the predicates decide beforehand: which nodes
are arrived at, which handlers are called there and in which place of the walk. Main statement:
`calls_steps`.
-/
import TreeLint.Proofs.Walk.Tour

namespace TreeLint

variable {ν : Type}

/-! ## Spots -/

/-- A node of a tree and the nodes around it, outermost first. -/
structure Spot where
  around : List Node
  node : Node

/-- The nodes from the root down to that of the spot. -/
def Spot.chain (p : Spot) : List Node := p.around ++ [p.node]

namespace Node

mutual

/-- The spots of a subtree in pre-order, given the nodes around it. Subtrees are cut off at the nodes
of a kind. -/
def spots (cut : Node → Bool) (around : List Node) : Node → List Spot
  | n@⟨_, _, _, _, _, _, _, _, children⟩ =>
    if cut n then [] else ⟨around, n⟩ :: spotsAll cut (around ++ [n]) children

/-- The spots of several subtrees, one after the other. -/
def spotsAll (cut : Node → Bool) (around : List Node) : List Node → List Spot
  | [] => []
  | n :: ns => n.spots cut around ++ spotsAll cut around ns

end

theorem spots_eq (cut : Node → Bool) (around : List Node) (n : Node) :
    n.spots cut around = if cut n then [] else ⟨around, n⟩ :: spotsAll cut (around ++ [n]) n.children := by
  cases n; rfl

/-- With nothing cut off, the spots are the nodes of the subtree in pre-order. -/
theorem map_node_spots :
    (∀ (n : Node) (around : List Node), (n.spots (fun _ => false) around).map Spot.node = n.preorder) ∧
    ∀ (ns : List Node) (around : List Node),
      (spotsAll (fun _ => false) around ns).map Spot.node = preorderAll ns := by
  refine forest_induction (fun n ih around => ?_) (fun around => rfl) fun n ns ihn ihns around => ?_
  · rw [spots_eq, preorder_eq, ← ih (around ++ [n])]
    rfl
  · rw [spotsAll, List.map_append, ihn, ihns, preorderAll]

end Node

/-! ## Places -/

namespace Walk

/-- The walk after entering nodes in turn, given what is suppressed from each of them on. -/
def along (answer : Node → Suppression) (w : Walk) (chain : List Node) : Walk :=
  chain.foldl (fun w n => w.enter n (answer n)) w

theorem along_append (answer : Node → Suppression) (w : Walk) (chain : List Node) (n : Node) :
    w.along answer (chain ++ [n]) = (w.along answer chain).enter n (answer n) := by
  rw [along, List.foldl_append]
  rfl

theorem path_along (answer : Node → Suppression) (w : Walk) (chain : List Node) :
    (w.along answer chain).path = chain.reverse ++ w.path := by
  induction chain generalizing w with
  | nil => rfl
  | cons n ns ih =>
    rw [along, List.foldl_cons, ← along, ih, List.reverse_cons, List.append_assoc]
    rfl

theorem scopes_along (answer : Node → Suppression) (w : Walk) (chain : List Node) :
    (w.along answer chain).scopes = (chain.filter Node.isContainer).reverse ++ w.scopes := by
  induction chain generalizing w with
  | nil => rfl
  | cons n ns ih =>
    rw [along, List.foldl_cons, ← along, ih]
    cases h : n.isContainer <;> simp [enter, h]

theorem mem_suppressed_along (answer : Node → Suppression) (w : Walk) (chain : List Node) (rule : String) :
    rule ∈ (w.along answer chain).suppressed ↔
      rule ∈ w.suppressed ∨ ∃ n ∈ chain, rule ∈ (answer n).rules := by
  induction chain generalizing w with
  | nil => simp [along]
  | cons n ns ih =>
    rw [along, List.foldl_cons, ← along, ih]
    simp [enter, NameSet.mem_union, or_assoc]

end Walk

/-! ## Steps -/

/-- A call of a handler. -/
structure Call (ν : Type) where
  handle : Handler ν
  walk : Walk
  node : Node

/-- What a scan does at a time. -/
inductive Step (ν : Type)
  | arrive (n : Node)
  | call (c : Call ν)

/-- The call that a step is. -/
def Step.call? : Step ν → Option (Call ν)
  | .arrive _ => none
  | .call c => some c

/-- What the steps of a list come to is what the calls among them come to, if all others come to nothing. -/
theorem Step.flatMap_call? {β : Type} (f : Call ν → List β) (steps : List (Step ν)) :
    steps.flatMap (fun step => step.call?.elim [] f) = (steps.filterMap Step.call?).flatMap f := by
  induction steps with
  | nil => rfl
  | cons step rest ih =>
    rw [List.flatMap_cons, ih]
    cases step <;> rfl

namespace Scanner

/-- Carries out one step. -/
def runStep (sc : Scanner ν) : Step ν → Attempt (Session ν) Unit
  | .arrive n => do
    let _ ← sc.arrive n
    return ()
  | .call c => c.handle c.walk c.node

/-- Carries out steps in turn. -/
def perform (sc : Scanner ν) (steps : List (Step ν)) : Attempt (Session ν) Unit :=
  forM steps sc.runStep

theorem perform_append (sc : Scanner ν) (xs ys : List (Step ν)) :
    sc.perform (xs ++ ys) = (do sc.perform xs; sc.perform ys) :=
  List.forM_append

/-- The calls at a node, given the place of the walk. -/
def callsAt (sc : Scanner ν) (walk : Walk) (n : Node) : List (Call ν) :=
  (sc.handlers n.kind).map fun handle => ⟨handle, walk, n⟩

mutual

/-- The steps of a tour, given what the predicates answer. -/
def steps (sc : Scanner ν) (answer : Node → Suppression) (walk : Walk) : Node → List (Step ν)
  | n@⟨_, _, _, _, _, _, _, _, children⟩ =>
    .arrive n :: if (answer n).everything then [] else
      (sc.callsAt (walk.enter n (answer n)) n).map .call ++ sc.stepsAll answer (walk.enter n (answer n)) children

/-- The steps of a tour through several subtrees. -/
def stepsAll (sc : Scanner ν) (answer : Node → Suppression) (walk : Walk) : List Node → List (Step ν)
  | [] => []
  | n :: ns => sc.steps answer walk n ++ sc.stepsAll answer walk ns

end

theorem steps_eq (sc : Scanner ν) (answer : Node → Suppression) (walk : Walk) (n : Node) :
    sc.steps answer walk n = .arrive n :: if (answer n).everything then [] else
      (sc.callsAt (walk.enter n (answer n)) n).map .call ++
        sc.stepsAll answer (walk.enter n (answer n)) n.children := by
  cases n; rfl

/-- The calls of a tour, in order: all those at each spot that is not cut off. -/
theorem calls_steps (sc : Scanner ν) (answer : Node → Suppression) (start : Walk) :
    (∀ (n : Node) (around : List Node), (sc.steps answer (start.along answer around) n).filterMap Step.call? =
      (n.spots (fun m => (answer m).everything) around).flatMap fun p =>
        sc.callsAt (start.along answer p.chain) p.node) ∧
    ∀ (ns : List Node) (around : List Node),
      (sc.stepsAll answer (start.along answer around) ns).filterMap Step.call? =
        (Node.spotsAll (fun m => (answer m).everything) around ns).flatMap fun p =>
          sc.callsAt (start.along answer p.chain) p.node := by
  refine Node.forest_induction (fun n ih around => ?_) (fun around => rfl) fun n ns ihn ihns around => ?_
  · have hcalls (cs : List (Call ν)) : (cs.map Step.call).filterMap Step.call? = cs := by
      rw [List.filterMap_map]
      exact List.filterMap_some
    rw [steps_eq, Node.spots_eq]
    cases h : (answer n).everything
    · rw [if_neg Bool.false_ne_true, if_neg Bool.false_ne_true, List.filterMap_cons_none rfl, List.filterMap_append,
        hcalls, ← Walk.along_append, ih, List.flatMap_cons]
      rfl
    · rfl
  · rw [stepsAll, List.filterMap_append, ihn, ihns, Node.spotsAll, List.flatMap_append]

end Scanner

end TreeLint
