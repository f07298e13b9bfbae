/-
Data values, as settings and rule descriptions hold them: tables keep their keys in order, a number
with a fraction is kept as its text, and a date or a time as its two texts. `display` is how a value
reads inside a message, `literal` how it reads inside another value.
-/
import TreeLint.Text.Quoted

namespace TreeLint

/-- A data value. -/
inductive Value
  | null
  | bool (b : Bool)
  | int (n : Int)
  | float (text : String)
  | str (s : String)
  /-- A date, a time or both, as it reads on its own and inside another value. -/
  | moment (text literal : String)
  | list (items : List Value)
  | table (entries : List (String × Value))
deriving Inhabited

/-- The entries of a table, in order. -/
abbrev Table := List (String × Value)

/-- The value under a key. -/
def Table.get? (t : Table) (key : String) : Option Value :=
  (t.find? (·.1 == key)).map (·.2)

/-- Puts a value under a key: in the place of the value the key had, else at the end. -/
def Table.put {α : Type} (key : String) (v : α) : List (String × α) → List (String × α)
  | [] => [(key, v)]
  | (k, w) :: rest => if k = key then (k, v) :: rest else (k, w) :: Table.put key v rest

theorem Table.get?_put_self (key : String) (v : Value) (t : Table) :
    Table.get? (Table.put key v t) key = some v := by
  induction t with
  | nil => simp [Table.put, Table.get?]
  | cons e rest ih =>
    unfold Table.put
    by_cases h : e.1 = key
    · simp [h, Table.get?]
    · rw [if_neg h]
      simpa [Table.get?, h] using ih

theorem Table.get?_put_of_ne {key other : String} (h : other ≠ key) (v : Value) (t : Table) :
    Table.get? (Table.put key v t) other = Table.get? t other := by
  induction t with
  | nil => simp [Table.put, Table.get?, Ne.symm h]
  | cons e rest ih =>
    unfold Table.put
    by_cases hk : e.1 = key
    · simp [hk, Table.get?, Ne.symm h]
    · rw [if_neg hk]
      by_cases ho : e.1 = other
      · simp [Table.get?, ho]
      · simpa [Table.get?, ho] using ih

namespace Value

mutual

/-- A value as it is written inside a list or a table. -/
def literal : Value → String
  | null => "None"
  | bool true => "True"
  | bool false => "False"
  | int n => toString n
  | float text => text
  | str s => Text.quoted s
  | moment _ literal => literal
  | list items => "[" ++ ", ".intercalate (literals items) ++ "]"
  | table entries => "\x7b" ++ ", ".intercalate (pairs entries) ++ "\x7d"

/-- The items of a list, written one by one. -/
def literals : List Value → List String
  | [] => []
  | v :: vs => v.literal :: literals vs

/-- The entries of a table, written one by one. -/
def pairs : List (String × Value) → List String
  | [] => []
  | (k, v) :: rest => (Text.quoted k ++ ": " ++ v.literal) :: pairs rest

end

/-- A value as it is written on its own: a text stands for itself. -/
def display : Value → String
  | str s => s
  | moment text _ => text
  | v => v.literal

/-- A whole number; a truth value counts as 1 or 0. -/
def whole? : Value → Option Int
  | int n => some n
  | bool b => some (if b then 1 else 0)
  | _ => none

/-- Whether a value counts as given: not null, false, zero or empty. -/
def isGiven : Value → Bool
  | null => false
  | bool b => b
  | int n => n ≠ 0
  | float text => text ∉ ["0.0", "-0.0"]
  | str s => s ≠ ""
  | moment .. => true
  | list items => !items.isEmpty
  | table entries => !entries.isEmpty

end Value

end TreeLint
