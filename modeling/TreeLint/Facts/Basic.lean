/-
Facts: what a parser and the inference behind it tell about a module. The facts are rows that refer
to each other by position; the references may go round in circles. A row that others only refer to may
tell less than a row of the tree: what it does not tell is none, and asking for it is a fault.
-/
import TreeLint.Fault

namespace TreeLint.Facts

/-- Where something is written: lines count from 1, columns are bytes of UTF-8 and count from 0. -/
structure Position where
  line : Option Int := none
  column : Option Int := none
  endLine : Option Int := none
  endColumn : Option Int := none

/-! ## Inference -/

/-- What goes wrong while a name, a value or a class is looked up. -/
inductive Trouble
  /-- Nothing was found. -/
  | unresolved
  /-- Something that was to be asked was of a kind that cannot be asked. -/
  | unanswerable
  | fault (f : Fault)

/-- The fault that a trouble amounts to. -/
def Trouble.toFault : Trouble → Fault
  | unresolved => .raised "InferenceError" "facts"
  | unanswerable => .raised "AttributeError" "facts"
  | fault f => f

/-- A part of a row that has to be told. -/
def needed {α : Type} (part : Option α) : Except Fault α :=
  part.elim (.error Trouble.unanswerable.toFault) .ok

theorem needed_some {α : Type} (a : α) : needed (some a) = .ok a := rfl

/-- A step of a search: the position of a row, or trouble. -/
inductive Step
  | row (position : Nat)
  | trouble (t : Trouble)

/-- What an expression may stand for. -/
inductive Inferred
  | unknown
  /-- The class, function or module of a row. -/
  | declaration (position : Nat)
  /-- An instance of the class of a row. -/
  | instanceOf (position : Nat)
  /-- A function seen as a method. -/
  | method (of : Inferred)
  | other
  | trouble (t : Trouble)
deriving Inhabited

/-! ## Rows -/

/-- A class. -/
structure ClassFacts where
  name : Option String
  qualifiedName : Option String
  /-- The row that the class is declared in. -/
  frame : Option Nat
  decorators : List Nat
  ancestors : List Step
  bases : List Nat
  body : List Nat

/-- How a function is bound where it is declared. -/
inductive Binding
  /-- To an instance. -/
  | method
  /-- To the class. -/
  | classMethod
  /-- Not at all. -/
  | free
deriving DecidableEq

/-- A function. -/
structure FunctionFacts where
  name : Option String
  binding : Binding
  /-- The row that the function is declared in. -/
  frame : Option Nat
  decorators : List Nat
  parameters : List String
  keywordParameters : List String
  /-- The rows below the parameter list. -/
  arguments : List Nat
  body : List Nat

/-- What a row is. -/
inductive Form
  | moduleDef (name : Option String) (body : List Nat)
  | classDef (facts : ClassFacts)
  | function (facts : FunctionFacts)
  | name (name : Option String) (inferred : List Inferred) (lookup : Option Step)
  | assignedName (name : Option String)
  | memberAccess (name : Option String) (expression : Option Nat) (inferred : List Inferred)
  | call (callee : Option Nat) (arguments keywords : List Nat) (inferred : List Inferred)
  | binary (operator : Option String) (left right : Option Nat) (inferred : List Inferred)
  | unary (operator : Option String) (operand : Option Nat)
  | constant (type text : Option String)
  | decorators (children : List Nat)
  /-- A statement or expression of which no more is told than its parts. -/
  | plain (kind : NodeKind) (children : List Nat)

/-- A row. -/
structure Row where
  form : Form
  position : Position := {}

end TreeLint.Facts

namespace TreeLint

/-- The facts about a module. -/
structure Facts where
  rows : Array Facts.Row
  root : Nat

namespace Facts

/-- What the row at a position is; where there is no row it has no parts. -/
def form (facts : Facts) (position : Nat) : Form :=
  (facts.rows[position]?.map (·.form)).getD (.plain .other [])

/-- Where the row at a position is written. -/
def positionOf (facts : Facts) (position : Nat) : Position :=
  (facts.rows[position]?.map (·.position)).getD {}

/-- More than the longest chain of references that does not come back to itself. -/
def depth (facts : Facts) : Nat := facts.rows.size + 1

end Facts

end TreeLint
