/-
Facts as a document: one table for each row, with references as positions; a negative position counts
from the last row back. What a row has no entry for is not told.
-/
import TreeLint.Facts.Unit
import TreeLint.Value.Access

namespace TreeLint.Facts

/-- The trouble with a name. -/
def Trouble.ofName (name : String) : Trouble :=
  match name with
  | "InferenceError" | "AstroidError" => unresolved
  | "AttributeError" => unanswerable
  | _ => fault (Fault.ofLabel name "facts")

/-! ## References -/

/-- What reading a part of the document comes to: nothing if the part is malformed, and a fault if it
lacks an entry that it must have or refers to a row that is not there. -/
abbrev Read := OptionT (Except Fault)

/-- What cannot be read is malformed. -/
instance : MonadLift Option Read := ⟨Option.getM⟩

/-- The row, of so many, that a position stands for. -/
def rowAt (rows : Nat) (position : Int) : Read Nat := do
  return (← indexOf rows position).val

/-- The value under a key, which must be there. -/
def valueUnder (v : Value) (key : String) : Read Value :=
  (v.field? key).elim (throwThe Fault (.missingKey key)) pure

/-- The row that the value under a key refers to, which must be there. -/
def rowUnder (rows : Nat) (v : Value) (key : String) : Read Nat := do
  rowAt rows (← (← valueUnder v key).int?)

/-- The row that the value under a key refers to, if it is there. -/
def rowUnder? (rows : Nat) (v : Value) (key : String) : Read (Option Nat) := do
  (← v.getOpt key Value.int?).mapM (rowAt rows)

/-- The rows that the items under a key refer to. -/
def rowsUnder (rows : Nat) (v : Value) (key : String) : Read (List Nat) := do
  (← v.getList key Value.int?).mapM (rowAt rows)

/-- A step, as the document has it. -/
def Step.ofValue (rows : Nat) (v : Value) : Read Step := do
  match v.get "raise" Value.text? with
  | some name => return .trouble (.ofName name)
  | none => return .row (← rowAt rows (← v.int?))

/-- What an expression may stand for, as the document has it. -/
def Inferred.ofValue (rows : Nat) : Value → Read Inferred
  | .str "uninferable" => return .unknown
  | .str _ => return .other
  | .table [("ref", v)] => do return .declaration (← rowAt rows (← v.int?))
  | .table [("instance", v)] => do return .instanceOf (← rowAt rows (← v.int?))
  | .table [("method", v)] => .method <$> ofValue rows v
  | .table [("raise", v)] => do return .trouble (.ofName (← v.text?))
  | _ => failure

/-- The steps under a key. Trouble alone stands for a search that begins with it. -/
def stepsUnder (rows : Nat) (v : Value) (key : String) : Read (List Step) := do
  match v.field? key with
  | some (.table entries) => return [← Step.ofValue rows (.table entries)]
  | _ => (← v.getList key some).mapM (Step.ofValue rows)

/-- What the items under a key may stand for. -/
def inferredUnder (rows : Nat) (v : Value) (key : String) : Read (List Inferred) := do
  (← v.getList key some).mapM (Inferred.ofValue rows)

/-! ## Declarations -/

/-- The binding with a name. -/
def Binding.ofName (name : String) : Binding :=
  match name with
  | "method" => .method
  | "classmethod" => .classMethod
  | _ => .free

/-- The class of a row. -/
def ClassFacts.ofValue (rows : Nat) (v : Value) : Read ClassFacts := do
  return {
    name := ← v.getOpt "name" Value.text?
    qualifiedName := ← v.getOpt "qname" Value.text?
    frame := ← rowUnder? rows v "frame"
    decorators := ← rowsUnder rows v "decorators"
    ancestors := ← stepsUnder rows v "ancestors"
    bases := ← rowsUnder rows v "bases"
    body := ← rowsUnder rows v "body"
  }

/-- The function of a row. -/
def FunctionFacts.ofValue (rows : Nat) (v : Value) : Read FunctionFacts := do
  return {
    name := ← v.getOpt "name" Value.text?
    binding := .ofName ((v.get "ftype" Value.text?).getD "")
    frame := ← rowUnder? rows v "frame"
    decorators := ← rowsUnder rows v "decorators"
    parameters := ← v.getList "args" Value.text?
    keywordParameters := ← v.getList "kwonly" Value.text?
    arguments := ← rowsUnder rows v "arguments"
    body := ← rowsUnder rows v "body"
  }

/-! ## Rows -/

/-- What a row is, by the class of syntax that it names. -/
def Form.ofValue (rows : Nat) (v : Value) : Read Form := do
  let name := v.getOpt "name" Value.text?
  let operator := v.getOpt "op" Value.text?
  let children := rowsUnder rows v "children"
  let inferred := inferredUnder rows v "infer"
  match ← (← valueUnder v "cls").text? with
  | "Module" => return .moduleDef (← name) (← rowsUnder rows v "body")
  | "ClassDef" => return .classDef (← ClassFacts.ofValue rows v)
  | "FunctionDef" | "AsyncFunctionDef" => return .function (← FunctionFacts.ofValue rows v)
  | "Name" =>
    let lookup ← (v.field? "lookup").mapM (Step.ofValue rows)
    return .name (← name) (← inferred) lookup
  | "AssignName" => return .assignedName (← name)
  | "Attribute" => return .memberAccess (← name) (← rowUnder? rows v "expr") (← inferred)
  | "Call" =>
    let callee ← rowUnder? rows v "func"
    return .call callee (← rowsUnder rows v "args") (← rowsUnder rows v "keywords") (← inferred)
  | "BinOp" =>
    return .binary (← operator) (← rowUnder? rows v "left") (← rowUnder? rows v "right") (← inferred)
  | "UnaryOp" => return .unary (← operator) (← rowUnder? rows v "operand")
  | "Const" => return .constant (← v.getOpt "pytype" Value.text?) (← v.getOpt "str" Value.text?)
  | "Decorators" => return .decorators (← children)
  | "Assign" | "AnnAssign" | "AugAssign" => return .plain .assignment (← children)
  | "Return" => return .plain .returnStatement (← children)
  | "Expr" => return .plain .expressionStatement (← children)
  | _ => return .plain .other (← children)

/-- A part of a position, which may be missing. -/
def Position.part? : Value → Option (Option Int)
  | .null => some none
  | v => v.int?.map some

/-- Where a row is written. -/
def Position.ofValue? (v : Value) : Option Position := do
  match ← v.getList "pos" part? with
  | [] => return {}
  | [line, column, endLine, endColumn] => return { line, column, endLine, endColumn }
  | _ => none

/-- A row of so many. -/
def Row.ofValue (rows : Nat) (v : Value) : Read Row := do
  return { form := ← Form.ofValue rows v, position := ← Position.ofValue? v }

end TreeLint.Facts

namespace TreeLint

/-- The facts about a module, as the document has them. -/
def Facts.ofValue (v : Value) : Facts.Read Facts := do
  let values ← (← Facts.valueUnder v "nodes").items?
  let rows ← values.mapM (Facts.Row.ofValue values.length)
  return { rows := rows.toArray, root := ← Facts.rowUnder values.length v "root" }

/-- What parsing came to, as the document has it. -/
def Parsed.ofValue? (v : Value) : Option Parsed := do
  match v.get "syntax_error" Value.text? with
  | some message => return .malformed message
  | none =>
    match (Facts.ofValue v).run with
    | .ok read => return .facts (← read)
    | .error f => return .failed f

end TreeLint
