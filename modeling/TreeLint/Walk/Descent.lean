/-
The scan of a tree once more, by recursion on the tree: enter a node, descend into its children,
leave it. Here the tasks left to do need no stack.
-/
import TreeLint.Walk.Scanner

namespace TreeLint.Scanner

variable {ν : Type}

mutual

/-- Scans the subtree of a node. -/
def descend (sc : Scanner ν) : Node → Attempt (Scan ν) Unit
  | n@⟨_, _, _, _, _, _, _, _, children⟩ => do
    match ← sc.enter n with
    | none => return ()
    | some before => do
      sc.descendAll children
      Scan.move (Walk.leave n before)

/-- Scans several subtrees, one after the other. -/
def descendAll (sc : Scanner ν) : List Node → Attempt (Scan ν) Unit
  | [] => return ()
  | n :: ns => do
    sc.descend n
    sc.descendAll ns

end

end TreeLint.Scanner
