/-
Looking into data values: each question has an answer only for values of the right form. A null
counts as a missing entry and as an empty list.
-/
import TreeLint.Value.Basic

namespace TreeLint.Value

/-- The text that a value is. -/
def text? : Value → Option String
  | str s => some s
  | _ => none

/-- The whole number that a value is. -/
def int? : Value → Option Int
  | int n => some n
  | _ => none

/-- The natural number that a value is. -/
def nat? : Value → Option Nat
  | int (.ofNat n) => some n
  | _ => none

/-- The truth value that a value is. -/
def bool? : Value → Option Bool
  | bool b => some b
  | _ => none

/-- The items of a list. -/
def items? : Value → Option (List Value)
  | list items => some items
  | null => some []
  | _ => none

/-- The entries of a table. -/
def entries? : Value → Option Table
  | table entries => some entries
  | null => some []
  | _ => none

/-- The value under a key. -/
def field? (v : Value) (key : String) : Option Value :=
  match v with
  | table entries =>
    match Table.get? entries key with
    | some null => none
    | found => found
  | _ => none

variable {α : Type}

/-- What the value under a key is read as, which must be there. -/
def get (v : Value) (key : String) (read : Value → Option α) : Option α :=
  (v.field? key).bind read

/-- What the value under a key is read as, if it is there. -/
def getOpt (v : Value) (key : String) (read : Value → Option α) : Option (Option α) :=
  match v.field? key with
  | none => some none
  | some w => (read w).map some

/-- What the items under a key are read as. -/
def getList (v : Value) (key : String) (read : Value → Option α) : Option (List α) :=
  match v.field? key with
  | none => some []
  | some w => w.items?.bind (·.mapM read)

end TreeLint.Value
