/-
The catalog: what is told about each rule. Ids are looked up as they are written, else without
regard to case.
-/
import TreeLint.NameSet
import TreeLint.Text.Case
import TreeLint.Value.Basic
import TreeLint.Value.Number

namespace TreeLint

/-- The entries of rules, in order. -/
structure Catalog where
  entries : List (String × Table) := []

namespace Catalog

/-- The whole number that a key is. One written with a fraction or with an exponent is the number
that it stands for. -/
def wholeKey? : Value → Option Int
  | .float text => Number.whole? text
  | v => v.whole?

/-- Whether two keys of a document are the same: two that are the same number, however it is
written, and two of the same text. -/
def sameKey (a b : Value) : Bool :=
  match wholeKey? a, wholeKey? b with
  | some m, some n => m = n
  | none, none =>
    match a, b with
    | .null, .null => true
    | .str s, .str t => s = t
    | .float s, .float t => s = t
    | .moment _ s, .moment _ t => s = t
    | _, _ => false
  | _, _ => false

/-- Puts a value under a key of a document: in the place of the value the key had, else at the
end. -/
def putKey (k : Value) (v : Value) : List (Value × Value) → List (Value × Value)
  | [] => [(k, v)]
  | (l, w) :: rest => if sameKey l k then (l, v) :: rest else (l, w) :: putKey k v rest

/-- Adds the entry under one key of a document, if it is a table. -/
def add (entries : List (String × Table)) : Value × Value → List (String × Table)
  | (key, .table entry) => Table.put key.display entry entries
  | _ => entries

/-- The catalog in the pairs of a document. -/
def ofPairs (pairs : List (Value × Value)) : Catalog where
  entries := (pairs.foldl (fun document (k, v) => putKey k v document) []).foldl add []

/-- The catalog in a document; only a table holds entries. -/
def ofDocument : Value → Catalog
  | .table entries => ofPairs (entries.map fun (k, v) => (.str k, v))
  | _ => {}

/-- The entry of a rule. -/
def get? (c : Catalog) (rule : String) : Option Table :=
  match c.entries.lookup rule with
  | some entry => some entry
  | none => (c.entries.find? fun (id, _) => Text.lowerCase id = Text.lowerCase rule).map (·.2)

/-- Whether an entry says that there are fixes. -/
def isFixable (entry : Table) : Bool := (entry.get? "fixable").any Value.isGiven

/-- The rules with fixes, ascending. -/
def fixable (c : Catalog) : List String :=
  (NameSet.ofList ((c.entries.filter fun (_, entry) => isFixable entry).map (·.1))).toList

end Catalog

end TreeLint
