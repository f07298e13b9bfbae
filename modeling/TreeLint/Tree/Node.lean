/-
Nodes of a resolved tree. What the children are to a node follows from its kind: an invocation has
its callee in front of its arguments, a member access its receiver, a binary expression its two
operands. Nodes are told apart by their `id`, not by their content.
-/
import TreeLint.Span
import TreeLint.Tree.Symbol

namespace TreeLint

/-- A node. -/
structure Node where
  id : Nat
  kind : NodeKind
  symbol : Option Symbol := none
  type : Option TypeRef := none
  span : Option Span := none
  name : Option String := none
  operator : Option String := none
  annotations : List Annotation := []
  children : List Node := []
deriving Inhabited

namespace Node

/-- Whether two values are the same node. -/
def is (a b : Node) : Bool := a.id == b.id

/-- Whether the node opens a scope. -/
def isContainer (n : Node) : Bool := n.kind.isContainer

mutual

/-- The nodes of a subtree, each in front of its children. -/
def preorder : Node → List Node
  | n@⟨_, _, _, _, _, _, _, _, children⟩ => n :: preorderAll children

/-- The nodes of several subtrees, one after the other. -/
def preorderAll : List Node → List Node
  | [] => []
  | n :: ns => n.preorder ++ preorderAll ns

end

mutual

/-- The number of nodes of a subtree. -/
def size : Node → Nat
  | ⟨_, _, _, _, _, _, _, _, children⟩ => 1 + sizes children

/-- The number of nodes of several subtrees. -/
def sizes : List Node → Nat
  | [] => 0
  | n :: ns => n.size + sizes ns

end

theorem size_eq (n : Node) : n.size = 1 + sizes n.children := by
  cases n; rfl

theorem preorder_eq (n : Node) : n.preorder = n :: preorderAll n.children := by
  cases n; rfl

/-- The child at an index, if there is one. -/
def child? (n : Node) : Int → Option Node
  | .ofNat i => n.children[i]?
  | .negSucc _ => none

/-- The resolved type of a node, else the type of its symbol. -/
def resolvedType (n : Node) : Option TypeRef :=
  n.type.or (n.symbol.bind (·.type))

/-- What an invocation calls. -/
def callee (n : Node) : Option Node :=
  if n.kind = .invocation then n.children.head? else none

/-- The arguments of an invocation. -/
def arguments (n : Node) : List Node :=
  if n.kind = .invocation then n.children.tail else []

mutual

/-- The expression that a member access, or the callee of an invocation, is taken from. A call on
an implied receiver has none. -/
def receiver : Node → Option Node
  | ⟨_, .invocation, _, _, _, _, _, _, children⟩ => receiverOfFirst children
  | ⟨_, .memberAccess, _, _, _, _, _, _, children⟩ => children.head?
  | _ => none

/-- The receiver of the first node of a list. -/
def receiverOfFirst : List Node → Option Node
  | [] => none
  | n :: _ => n.receiver

end

end Node

end TreeLint
