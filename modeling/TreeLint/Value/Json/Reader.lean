/-
Reading JSON. A number with a fraction or an exponent is kept as its text.
-/
import TreeLint.Value.Basic

namespace TreeLint.Value.Json

/-- The text without the blanks in front. -/
def skipBlanks (cs : List Char) : List Char :=
  cs.dropWhile fun c => c = ' ' || c = '\n' || c = '\r' || c = '\t'

/-! ## Strings -/

/-- The value of a hexadecimal digit. -/
def hexValue? (c : Char) : Option Nat :=
  if '0' ≤ c ∧ c ≤ '9' then some (c.toNat - '0'.toNat)
  else if 'a' ≤ c ∧ c ≤ 'f' then some (c.toNat - 'a'.toNat + 10)
  else if 'A' ≤ c ∧ c ≤ 'F' then some (c.toNat - 'A'.toNat + 10)
  else none

/-- The number that four hexadecimal digits write. -/
def hexUnit? (a b c d : Char) : Option Nat := do
  return (((← hexValue? a) * 16 + (← hexValue? b)) * 16 + (← hexValue? c)) * 16 + (← hexValue? d)

/-- The character that an escape of one letter stands for. -/
def escaped? : Char → Option Char
  | '"' => some '"'
  | '\\' => some '\\'
  | '/' => some '/'
  | 'b' => some '\x08'
  | 'f' => some '\x0c'
  | 'n' => some '\n'
  | 'r' => some '\r'
  | 't' => some '\t'
  | _ => none

/-- The code points and units of a string up to its closing quote, and what follows. -/
def readUnits : List Char → Option (List Nat × List Char)
  | [] => none
  | '"' :: rest => some ([], rest)
  | '\\' :: 'u' :: a :: b :: c :: d :: rest => do
    let unit ← hexUnit? a b c d
    let (units, rest) ← readUnits rest
    return (unit :: units, rest)
  | '\\' :: c :: rest => do
    let c ← escaped? c
    let (units, rest) ← readUnits rest
    return (c.toNat :: units, rest)
  | c :: rest => do
    let (units, rest) ← readUnits rest
    return (c.toNat :: units, rest)

/-- The characters of code points and units; two units of a pair are one character. -/
def joinUnits : List Nat → List Char
  | [] => []
  | [n] => [Char.ofNat n]
  | m :: n :: rest =>
    if 0xd800 ≤ m ∧ m < 0xdc00 ∧ 0xdc00 ≤ n ∧ n < 0xe000 then
      Char.ofNat (0x10000 + (m - 0xd800) * 0x400 + (n - 0xdc00)) :: joinUnits rest
    else Char.ofNat m :: joinUnits (n :: rest)

/-- A string after its opening quote, and what follows. -/
def readString (cs : List Char) : Option (String × List Char) := do
  let (units, rest) ← readUnits cs
  return (String.ofList (joinUnits units), rest)

/-! ## Numbers -/

/-- A number, and what follows. -/
def readNumber (cs : List Char) : Option (Value × List Char) := do
  let isPart (c : Char) : Bool := c.isDigit || c ∈ ['-', '+', '.', 'e', 'E']
  let text := String.ofList (cs.takeWhile isPart)
  let value ← if text.any (· ∈ ['.', 'e', 'E']) then some (.float text) else text.toInt?.map .int
  return (value, cs.dropWhile isPart)

/-! ## Values -/

mutual

/-- A value, and what follows; `depth` bounds the number of steps. -/
def readValue : Nat → List Char → Option (Value × List Char)
  | 0, _ => none
  | depth + 1, cs =>
    match skipBlanks cs with
    | 'n' :: 'u' :: 'l' :: 'l' :: rest => some (.null, rest)
    | 't' :: 'r' :: 'u' :: 'e' :: rest => some (.bool true, rest)
    | 'f' :: 'a' :: 'l' :: 's' :: 'e' :: rest => some (.bool false, rest)
    | '"' :: rest => do
      let (s, rest) ← readString rest
      return (.str s, rest)
    | '[' :: rest =>
      match skipBlanks rest with
      | ']' :: rest => some (.list [], rest)
      | rest => do
        let (items, rest) ← readItems depth rest
        return (.list items, rest)
    | '\x7b' :: rest =>
      match skipBlanks rest with
      | '\x7d' :: rest => some (.table [], rest)
      | rest => do
        let (entries, rest) ← readEntries depth rest
        return (.table entries, rest)
    | rest => readNumber rest

/-- The items of a list up to its closing bracket, and what follows. -/
def readItems : Nat → List Char → Option (List Value × List Char)
  | 0, _ => none
  | depth + 1, cs => do
    let (v, rest) ← readValue depth cs
    match skipBlanks rest with
    | ']' :: rest => return ([v], rest)
    | ',' :: rest => do
      let (vs, rest) ← readItems depth rest
      return (v :: vs, rest)
    | _ => none

/-- The entries of a table up to its closing brace, and what follows. -/
def readEntries : Nat → List Char → Option (Table × List Char)
  | 0, _ => none
  | depth + 1, cs => do
    let '"' :: rest := skipBlanks cs | none
    let (key, rest) ← readString rest
    let ':' :: rest := skipBlanks rest | none
    let (v, rest) ← readValue depth rest
    match skipBlanks rest with
    | '\x7d' :: rest => return ([(key, v)], rest)
    | ',' :: rest => do
      let (entries, rest) ← readEntries depth rest
      return ((key, v) :: entries, rest)
    | _ => none

end

/-- The value that a JSON document writes. -/
def read? (s : String) : Option Value := do
  let cs := s.toList
  let (v, rest) ← readValue (2 * cs.length + 1) cs
  if (skipBlanks rest).isEmpty then some v else none

end TreeLint.Value.Json
