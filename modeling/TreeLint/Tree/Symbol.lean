/-
Symbols: the declared things that names resolve to. A symbol is identified by its name, kind,
parameters and staticness and by those of its owners; type, provenance and annotations describe
the declaration and take no part in its identity.
-/
import TreeLint.NameSet
import TreeLint.Tree.Kind
import TreeLint.Tree.TypeRef

namespace TreeLint

/-- A marker on a declaration, with its text arguments. -/
structure Annotation where
  name : String
  arguments : List String := []
deriving DecidableEq, Inhabited

namespace Annotation

/-- The name without the path in front of it. -/
def simpleName (a : Annotation) : String := Text.lastPart a.name

/-- Whether a name is the qualified or the simple name of the annotation. -/
def isNamed (a : Annotation) (name : String) : Bool :=
  name == a.name || name == a.simpleName

end Annotation

/-- A declared thing. -/
structure Symbol where
  name : String
  kind : SymbolKind
  owner : Option Symbol := none
  parameters : List String := []
  isStatic : Bool := false
  type : Option TypeRef := none
  generatedBy : NameSet := ∅
  annotations : List Annotation := []
deriving Inhabited

/-- What identifies a symbol among those of one owner. -/
structure SymbolHead where
  name : String
  kind : SymbolKind
  parameters : List String
  isStatic : Bool
deriving DecidableEq

/-- The identity of a symbol: its own head, then those of its owners outwards. -/
abbrev SymbolKey := List SymbolHead

namespace Symbol

/-- What identifies a symbol among those of its owner. -/
def head (s : Symbol) : SymbolHead := ⟨s.name, s.kind, s.parameters, s.isStatic⟩

/-- The symbol and its owners, outwards. -/
def chain : Symbol → List Symbol
  | s@⟨_, _, none, _, _, _, _, _⟩ => [s]
  | s@⟨_, _, some o, _, _, _, _, _⟩ => s :: o.chain

/-- The identity of a symbol. -/
def key (s : Symbol) : SymbolKey := s.chain.map head

/-- Whether two symbols are the same declaration. -/
def same (a b : Symbol) : Bool := a.key == b.key

/-- The names of the owners and the symbol, outermost first, joined by dots. -/
def qualifiedName (s : Symbol) : String :=
  ".".intercalate (s.chain.reverse.map (·.name))

/-- The nearest of the symbol and its owners that is a type. -/
def enclosingClass (s : Symbol) : Option Symbol :=
  s.chain.find? (·.kind.isType)

end Symbol

end TreeLint
