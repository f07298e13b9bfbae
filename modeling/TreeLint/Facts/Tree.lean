/-
The resolved tree of a module, from the facts about it. Each row becomes a node whose `id` is twice
its position; the parameter list of a function, which is no row, takes the number behind that.
-/
import TreeLint.Facts.Meaning
import TreeLint.Facts.Position
import TreeLint.Tree.Unit

namespace TreeLint.Facts

/-- The facts about a module, its text, and the markers of generated declarations. -/
structure Reading where
  facts : Facts
  source : String
  markers : List String

namespace Reading

/-- Whether a row is a node of the tree: decorators are not. -/
def isNode (r : Reading) (position : Nat) : Bool :=
  !(r.facts.form position matches .decorators _)

/-- What a row stands for as an expression. -/
def meaning (r : Reading) (position : Nat) (inferred : List Inferred) : Attempt Known Meaning :=
  r.facts.meaning r.markers (r.facts.form position) inferred

/-- The nodes of some rows. -/
def nodes (r : Reading) (nodeAt : Nat → Attempt Known Node) (positions : List Nat) : Attempt Known (List Node) :=
  (positions.filter r.isNode).mapM nodeAt

/-- The node of a part that has to be there. -/
def node (nodeAt : Nat → Attempt Known Node) (position : Option Nat) : Attempt Known Node := do
  nodeAt (← Attempt.lift (needed position))

/-- The node of a row, where `nodeAt` gives the nodes of its parts. -/
def build (r : Reading) (nodeAt : Nat → Attempt Known Node) (position : Nat) : Attempt Known Node := do
  let id := 2 * position
  let form := r.facts.form position
  let lines := Text.lines r.source.toList
  let span := (r.facts.positionOf position).span? lines
  match form with
  | .moduleDef name body => do
    let children ← r.nodes nodeAt body
    let whole : Span := { start := 0, stop := r.source.length }
    return { id, kind := .compilationUnit, symbol := some (moduleSymbol name), span := some whole, name, children }
  | .classDef c => do
    let symbol ← r.facts.scopeSymbol r.markers (some position)
    let children ← r.nodes nodeAt (c.bases ++ c.body)
    return {
      id, kind := .classDecl, symbol, type := symbol.bind (·.type), span, name := c.name
      annotations := symbol.elim [] (·.annotations), children
    }
  | .function f => do
    let symbol ← r.facts.scopeSymbol r.markers (some position)
    let parameters ← r.nodes nodeAt f.arguments
    let body ← r.nodes nodeAt f.body
    let list : Node := { id := id + 1, kind := .other, children := parameters }
    return {
      id, kind := .method, symbol, span, name := f.name
      annotations := symbol.elim [] (·.annotations), children := list :: body
    }
  | .name name inferred _ => do
    let m ← r.meaning position inferred
    return { id, kind := .identifier, symbol := m.symbol, type := m.type, span, name }
  | .assignedName name => return { id, kind := .variableDecl, span, name }
  | .memberAccess name expression inferred => do
    let m ← r.meaning position inferred
    let receiver ← node nodeAt expression
    return {
      id, kind := .memberAccess, symbol := m.symbol, type := m.type, span, name
      children := [receiver]
    }
  | .call callee arguments keywords inferred => do
    let callee ← node nodeAt callee
    let m ← r.meaning position inferred
    let arguments ← r.nodes nodeAt (arguments ++ keywords)
    let symbol := callee.symbol.filter (·.kind = .method)
    return { id, kind := .invocation, symbol, type := m.type, span, children := callee :: arguments }
  | .binary operator left right inferred => do
    let m ← r.meaning position inferred
    let left ← node nodeAt left
    let right ← node nodeAt right
    return { id, kind := .binary, type := m.type, span, operator, children := [left, right] }
  | .unary operator operand => do
    let operand ← node nodeAt operand
    return { id, kind := .unary, span, operator, children := [operand] }
  | .constant type _ => do
    let qualifiedName ← Attempt.lift (needed type)
    return { id, kind := .literal, type := some { qualifiedName }, span }
  | .decorators children => return { id, kind := .other, span, children := ← r.nodes nodeAt children }
  | .plain kind children => return { id, kind, span, children := ← r.nodes nodeAt children }

/-- The node of the row at a position, going no deeper than `depth`. -/
def nodeWithin (r : Reading) : Nat → Nat → Attempt Known Node
  | 0, _ => Attempt.fail .endless
  | depth + 1, position => r.build (r.nodeWithin depth) position

/-- The tree of the module. -/
def tree (r : Reading) : Attempt Known Node :=
  r.nodeWithin r.facts.depth r.facts.root

end Reading

end TreeLint.Facts
