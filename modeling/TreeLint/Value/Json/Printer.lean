/-
Values as JSON, one item or entry a line, indented by two blanks a level, with every character
outside printable ASCII escaped.
-/
import TreeLint.Value.Basic

namespace TreeLint.Value.Json

/-- A UTF-16 unit as an escape. -/
def unitEscape (n : Nat) : List Char :=
  '\\' :: 'u' :: Text.hex 4 n

/-- One character of a JSON string; one beyond the basic plane is written as its two units. -/
def escape (c : Char) : List Char :=
  if c = '"' ∨ c = '\\' then ['\\', c]
  else if c = '\n' then ['\\', 'n']
  else if c = '\r' then ['\\', 'r']
  else if c = '\t' then ['\\', 't']
  else if c = '\x08' then ['\\', 'b']
  else if c = '\x0c' then ['\\', 'f']
  else if ' ' ≤ c ∧ c ≤ '~' then [c]
  else if c.toNat < 0x10000 then unitEscape c.toNat
  else unitEscape (0xd800 + (c.toNat - 0x10000) / 0x400) ++ unitEscape (0xdc00 + (c.toNat - 0x10000) % 0x400)

/-- A text as a JSON string. -/
def quote (s : String) : String :=
  String.ofList ('"' :: s.toList.flatMap escape ++ ['"'])

/-- A new line at a depth. -/
def newLine (depth : Nat) : String :=
  "\n" ++ "".pushn ' ' (2 * depth)

/-- A bracketed list of written parts, each on a line of its own. -/
def bracketed (left right : String) (depth : Nat) (parts : List String) : String :=
  if parts.isEmpty then left ++ right
  else left ++ newLine (depth + 1) ++ ("," ++ newLine (depth + 1)).intercalate parts ++ newLine depth ++ right

mutual

/-- A value at a depth. -/
def printAt (depth : Nat) : Value → String
  | .null => "null"
  | .bool true => "true"
  | .bool false => "false"
  | .int n => toString n
  | .float text => text
  | .str s => quote s
  | .moment text _ => quote text
  | .list items => bracketed "[" "]" depth (printItems (depth + 1) items)
  | .table entries => bracketed "\x7b" "\x7d" depth (printEntries (depth + 1) entries)

/-- The items of a list at a depth. -/
def printItems (depth : Nat) : List Value → List String
  | [] => []
  | v :: vs => printAt depth v :: printItems depth vs

/-- The entries of a table at a depth. -/
def printEntries (depth : Nat) : List (String × Value) → List String
  | [] => []
  | (k, v) :: rest => (quote k ++ ": " ++ printAt depth v) :: printEntries depth rest

end

/-- A value as a JSON document. -/
def print (v : Value) : String :=
  printAt 0 v

end TreeLint.Value.Json
