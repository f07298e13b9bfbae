/-
The kinds of nodes and of declared symbols, and their names.
-/
namespace TreeLint

/-- What a node of the tree is. -/
inductive NodeKind
  | compilationUnit | classDecl | method | variableDecl | block | identifier | memberAccess | invocation
  | binary | unary | literal | assignment | returnStatement | expressionStatement | other
deriving DecidableEq, Inhabited

namespace NodeKind

/-- The name of a kind. -/
def name : NodeKind → String
  | compilationUnit => "compilation_unit"
  | classDecl => "class"
  | method => "method"
  | variableDecl => "variable"
  | block => "block"
  | identifier => "identifier"
  | memberAccess => "member_access"
  | invocation => "invocation"
  | binary => "binary"
  | unary => "unary"
  | literal => "literal"
  | assignment => "assignment"
  | returnStatement => "return"
  | expressionStatement => "expression_statement"
  | other => "other"

/-- All kinds, ascending by name. -/
def all : List NodeKind :=
  [assignment, binary, block, classDecl, compilationUnit, expressionStatement, identifier, invocation,
    literal, memberAccess, method, other, returnStatement, unary, variableDecl]

/-- The kind with a name. -/
def ofName? (s : String) : Option NodeKind := all.find? (·.name == s)

/-- The kinds of a list, each once, ascending by name. -/
def among (kinds : List NodeKind) : List NodeKind := all.filter kinds.contains

/-- Whether nodes of the kind open a scope. -/
def isContainer (k : NodeKind) : Bool := k matches classDecl | method

/-- Whether nodes of the kind declare something. -/
def isDeclaration (k : NodeKind) : Bool := k matches classDecl | method | variableDecl

end NodeKind

/-- What a symbol denotes. -/
inductive SymbolKind
  | package | moduleDecl | classDecl | interface | method | constructor | field | variableDecl | parameter
deriving DecidableEq, Inhabited

namespace SymbolKind

/-- The name of a kind. -/
def name : SymbolKind → String
  | package => "package"
  | moduleDecl => "module"
  | classDecl => "class"
  | interface => "interface"
  | method => "method"
  | constructor => "constructor"
  | field => "field"
  | variableDecl => "variable"
  | parameter => "parameter"

/-- All kinds, ascending by name. -/
def all : List SymbolKind :=
  [classDecl, constructor, field, interface, method, moduleDecl, package, parameter, variableDecl]

/-- The kind with a name. -/
def ofName? (s : String) : Option SymbolKind := all.find? (·.name == s)

/-- Whether symbols of the kind are types. -/
def isType (k : SymbolKind) : Bool := k matches classDecl | interface

/-- Whether symbols of the kind can be invoked. -/
def isMethod (k : SymbolKind) : Bool := k matches method | constructor

end SymbolKind

end TreeLint
