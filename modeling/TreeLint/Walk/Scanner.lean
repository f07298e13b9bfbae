/-
Scanning a tree: each node is entered in front of its children and left behind them, and the
handlers of its kind are called on entry. A subtree in which everything is suppressed is passed
over. The tasks still to be done are kept on a stack.
-/
import TreeLint.Session
import TreeLint.Walk.Basic

namespace TreeLint

/-- What is done on entry to a node, given the place of the walk. -/
abbrev Handler (ν : Type) := Walk → Node → Attempt (Session ν) Unit

/-- A walk in the midst of a session. -/
structure Scan (ν : Type) extends Session ν where
  walk : Walk

/-- What to call at which nodes, and what to pass over. -/
structure Scanner (ν : Type) where
  handlers : NodeKind → List (Handler ν)
  predicates : List Suppression.Predicate

/-! ## Tasks -/

/-- What a scan has still to do. -/
inductive Task
  | enter (n : Node)
  /-- Leaves a node, with the rules that were suppressed before it. -/
  | leave (n : Node) (before : NameSet)

attribute [local instance] sumZero

namespace Task

/-- The number of tasks that a task amounts to, at most. -/
def weight : Task → Nat
  | enter n => 2 * n.size
  | leave .. => 1

theorem sum_weight_enter (ns : List Node) : ((ns.map enter).map weight).sum = 2 * Node.sizes ns := by
  induction ns with
  | nil => rfl
  | cons m ms ih => simp only [List.map_cons, List.sum_cons, ih, weight, Node.sizes]; omega

/-- What is left to do once a node is entered. -/
def within (n : Node) (before : NameSet) : List Task :=
  n.children.map enter ++ [leave n before]

/-- Of the two tasks that a node is counted for, entering it takes one away. -/
theorem sum_weight_within (n : Node) (before : NameSet) (rest : List Task) :
    ((within n before ++ rest).map weight).sum + 1 = ((enter n :: rest).map weight).sum := by
  simp only [within, List.map_append, List.sum_append, sum_weight_enter, List.map_cons, List.map_nil, List.sum_cons,
    List.sum_nil, weight, Node.size_eq n]
  omega

end Task

/-! ## The walk in its session -/

namespace Scan

variable {ν α : Type}

/-- Does something in the session of a scan. -/
def session (x : Attempt (Session ν) α) : Attempt (Scan ν) α :=
  Attempt.within Scan.toSession (fun session s => { s with toSession := session }) x

/-- Does something that depends on the place of the walk. -/
def here (x : Walk → Attempt (Session ν) α) : Attempt (Scan ν) α := fun s =>
  session (x s.walk) s

/-- Moves the walk. -/
def move (x : Attempt Walk α) : Attempt (Scan ν) α :=
  Attempt.within Scan.walk (fun walk s => { s with walk }) x

end Scan

/-! ## Scanning -/

namespace Scanner

variable {ν : Type}

/-- Enters a node and calls its handlers. The answer is what was suppressed before, or nothing if
the subtree is passed over. -/
def enter (sc : Scanner ν) (n : Node) : Attempt (Scan ν) (Option NameSet) := do
  Scan.session Session.goOn
  let s ← Scan.session (Session.ask (Suppression.of sc.predicates n))
  if s.everything then
    let name := n.name.getD ""
    Scan.session (Session.tell .debug .walk s!"Skipping generated {n.kind.name} subtree {name}")
    return none
  let before ← Scan.here fun walk => pure walk.suppressed
  Scan.move (Attempt.update fun walk => walk.enter n s)
  for handle in sc.handlers n.kind do
    Scan.here fun walk => handle walk n
  return some before

/-- Does the tasks of a stack, and those that come up on the way. -/
def run (sc : Scanner ν) : List Task → Attempt (Scan ν) Unit
  | [] => return ()
  | .leave n before :: rest => do
    Scan.move (Walk.leave n before)
    sc.run rest
  | .enter n :: rest => do
    match ← sc.enter n with
    | none => sc.run rest
    | some before => sc.run (Task.within n before ++ rest)
termination_by tasks => (tasks.map Task.weight).sum
decreasing_by
  · simp only [List.map_cons, List.sum_cons, Task.weight]; omega
  · have := Node.size_eq n
    simp only [List.map_cons, List.sum_cons, Task.weight]
    omega
  · have := Task.sum_weight_within n before rest
    omega

/-- Scans the subtree of a node. The walk must end as deep as it began. -/
def scan (sc : Scanner ν) (root : Node) : Attempt (Scan ν) Unit := do
  let depth ← Scan.here fun walk => pure walk.path.length
  sc.run [.enter root]
  let after ← Scan.here fun walk => pure walk.path.length
  if after ≠ depth then Attempt.fail .scopesOutOfBalance

end Scanner

end TreeLint
