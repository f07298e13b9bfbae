/-
Compilation units: a resolved tree with the source text it was made from.
-/
import TreeLint.Index
import TreeLint.Tree.Node

namespace TreeLint

/-- A unit. `pool` holds further nodes that can be named by their position, such as those of a
table the unit was built from; the tree need not reach them. -/
structure CompilationUnit where
  path : String
  source : String
  tree : Node
  pool : Array Node := #[]
  kind_tree : tree.kind = .compilationUnit := by rfl

namespace CompilationUnit

/-- The unit with a root, which must be a compilation unit. -/
def make (path source : String) (tree : Node) (pool : Array Node) : Except Fault CompilationUnit :=
  if kind_tree : tree.kind = .compilationUnit then .ok { path, source, tree, pool, kind_tree }
  else .error (.rootKind tree.kind)

/-- A unit that is made is the one of its parts. -/
theorem parts_of_make {path source : String} {tree : Node} {pool : Array Node} {u : CompilationUnit}
    (h : make path source tree pool = .ok u) :
    u.path = path ∧ u.source = source ∧ u.tree = tree ∧ u.pool = pool := by
  unfold make at h
  split at h <;> cases h
  exact ⟨rfl, rfl, rfl, rfl⟩

/-- The things declared at the top of the unit. -/
def declarations (u : CompilationUnit) : List Node :=
  u.tree.children.filter (·.kind.isDeclaration)

end CompilationUnit

end TreeLint
