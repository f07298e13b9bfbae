/-
What expressions stand for: the symbol and the type of the first thing that the inference comes up
with.
-/
import TreeLint.Facts.Symbols

namespace TreeLint.Facts

/-- What an expression stands for, as far as it is known. -/
structure Meaning where
  symbol : Option Symbol := none
  type : Option TypeRef := none

/-- The first thing that is known. Trouble on the way ends the search without one. -/
def firstKnown : List Inferred → Except Fault (Option Inferred)
  | [] => .ok none
  | .unknown :: rest => firstKnown rest
  | .trouble .unresolved :: _ | .trouble .unanswerable :: _ => .ok none
  | .trouble (.fault f) :: _ => .error f
  | known :: _ => .ok (some known)

/-- What is left of a method once it is no longer seen as one. -/
def Inferred.unbound : Inferred → Inferred
  | method of => of.unbound
  | i => i

/-- The type of an instance of the class at a position. -/
def instanceType (facts : Facts) (position : Nat) : Attempt Known (Option TypeRef) :=
  match facts.form position with
  | .classDef c => some <$> facts.typeOf c
  | _ => return none

/-- A name or an attribute that stands for a value of a type. -/
def valueSymbol (facts : Facts) (markers : List String) (expression : Form) (type : Option TypeRef) :
    Attempt Known (Option Symbol) := do
  match expression with
  | .name name _ lookup => do
    let name ← Attempt.lift (needed name)
    let scope ← match lookup with
      | some (.row position) => pure (some position)
      | some (.trouble .unresolved) | none => pure none
      | some (.trouble t) => Attempt.fail t.toFault
    let owner ← facts.scopeSymbol markers scope
    return some { name, kind := .variableDecl, owner, type }
  | .memberAccess name .. => return some { name := ← Attempt.lift (needed name), kind := .field, type }
  | _ => return none

/-- A value of a type. -/
def valueMeaning (facts : Facts) (markers : List String) (expression : Form) (type : Option TypeRef) :
    Attempt Known Meaning := do
  return { symbol := ← facts.valueSymbol markers expression type, type }

/-- A class, function or module seen through a method counts as what it is, but for a class. -/
def unboundMeaning (facts : Facts) (markers : List String) (expression : Form) : Inferred → Attempt Known Meaning
  | .declaration position => do
    match facts.form position with
    | .function _ | .moduleDef .. => return { symbol := ← facts.scopeSymbol markers (some position) }
    | _ => facts.valueMeaning markers expression none
  | .instanceOf position => do facts.valueMeaning markers expression (← facts.instanceType position)
  | _ => facts.valueMeaning markers expression none

/-- What an expression stands for, given what it may stand for. -/
def meaning (facts : Facts) (markers : List String) (expression : Form) (inferred : List Inferred) :
    Attempt Known Meaning := do
  match ← Attempt.lift (firstKnown inferred) with
  | none => return {}
  | some i =>
    if let .declaration position := i then
      if let .classDef _ := facts.form position then
        let symbol ← facts.scopeSymbol markers (some position)
        return { symbol, type := symbol.bind (·.type) }
    facts.unboundMeaning markers expression i.unbound

end TreeLint.Facts
