/-
The symbols of modules, classes and functions. Decorators are read as annotations, and those named
like a marker tell what produced the declaration.
-/
import TreeLint.Facts.Types
import TreeLint.Tree.Symbol

namespace TreeLint.Facts

/-! ## Annotations -/

/-- The dotted name that an expression spells, going no deeper than `depth`. -/
def dottedName (facts : Facts) : Nat → Nat → Except Fault (Option String)
  | 0, _ => .error .endless
  | depth + 1, position =>
    match facts.form position with
    | .name name .. => return name
    | .memberAccess name expression _ => do
      match (← expression.bindM (dottedName facts depth)).filter (· ≠ "") with
      | some path => return some (path ++ "." ++ (← needed name))
      | none => return name
    | _ => return none

/-- The text of a constant that is a text. -/
def constantText? (facts : Facts) (position : Nat) : Option String :=
  match facts.form position with
  | .constant _ text => text
  | _ => none

/-- A decorator as an annotation: a dotted name, or a call of one with its constant texts. -/
def annotationOf (facts : Facts) (decorator : Nat) : Except Fault (Option Annotation) := do
  let (target, arguments) := match facts.form decorator with
    | .call callee arguments _ _ => (callee, arguments.filterMap facts.constantText?)
    | _ => (some decorator, [])
  let name ← target.bindM (facts.dottedName facts.depth)
  return (name.filter (· ≠ "")).map fun name => { name, arguments }

/-- Decorators as annotations; those that spell no name are left out. -/
def annotations (facts : Facts) (decorators : List Nat) : Except Fault (List Annotation) := do
  return (← decorators.mapM facts.annotationOf).filterMap id

/-- What produced a declaration: the arguments of the markers on it, or the name of one without
arguments. -/
def mechanisms (markers : List String) (annotations : List Annotation) : NameSet :=
  .ofList <| (annotations.filter fun a => markers.any a.isNamed).flatMap fun a =>
    if a.arguments.isEmpty then [a.name] else a.arguments

/-! ## Symbols -/

/-- The symbol of a module. -/
def moduleSymbol (name : Option String) : Symbol where
  name := (name.filter (· ≠ "")).getD "<module>"
  kind := .moduleDecl

/-- The parameters of a function that a caller gives. -/
def FunctionFacts.givenParameters (f : FunctionFacts) : List String :=
  let all := f.parameters ++ f.keywordParameters
  if f.binding ≠ .free ∧ f.parameters ≠ [] then all.tail else all

/-- The symbol of a class with its annotations, its name and an owner. -/
def classSymbol (facts : Facts) (markers : List String) (annotations : List Annotation) (name : String)
    (owner : Option Symbol) (c : ClassFacts) : Attempt Known Symbol := do
  let type ← facts.typeOf c
  return {
    name
    kind := .classDecl
    owner
    type := some type
    generatedBy := mechanisms markers annotations
    annotations
  }

/-- The symbol of a function with its annotations, its name and an owner. -/
def methodSymbol (markers : List String) (annotations : List Annotation) (name : String)
    (owner : Option Symbol) (f : FunctionFacts) : Symbol where
  name
  kind := .method
  owner
  parameters := f.givenParameters
  isStatic := f.binding ≠ .method
  generatedBy := mechanisms markers annotations
  annotations

/-- The symbol of what is declared at a position, going no deeper than `depth`; only modules,
classes and functions have one. -/
def scopeSymbolWithin (facts : Facts) (markers : List String) : Nat → Option Nat → Attempt Known (Option Symbol)
  | _, none => return none
  | 0, some _ => Attempt.fail .endless
  | depth + 1, some position =>
    match facts.form position with
    | .moduleDef name _ => return some (moduleSymbol name)
    | .classDef c => do
      let annotations ← Attempt.lift (facts.annotations c.decorators)
      let name ← Attempt.lift (needed c.name)
      let owner ← scopeSymbolWithin facts markers depth c.frame
      some <$> facts.classSymbol markers annotations name owner c
    | .function f => do
      let annotations ← Attempt.lift (facts.annotations f.decorators)
      let name ← Attempt.lift (needed f.name)
      let owner ← scopeSymbolWithin facts markers depth f.frame
      return some (methodSymbol markers annotations name owner f)
    | _ => return none

/-- The symbol of what is declared at a position. -/
def scopeSymbol (facts : Facts) (markers : List String) (position : Option Nat) : Attempt Known (Option Symbol) :=
  facts.scopeSymbolWithin markers (facts.depth + 1) position

end TreeLint.Facts
