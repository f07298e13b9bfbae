/-
Patterns on nodes: tests on kind, symbol and structure, closed under conjunction, disjunction and
negation. A call pattern is narrowed step by step; of two constraints on one aspect the later
stands.
-/
import TreeLint.Tree.Node

namespace TreeLint

/-! ## Calls -/

/-- The type that a method is called on, or declared in. -/
structure OwnerConstraint where
  type : String
  /-- Whether descendants of the type are excluded. -/
  exactly : Bool
deriving DecidableEq

/-- What is asked of a method call. -/
structure CallPattern where
  isStatic : Bool
  owner : Option OwnerConstraint := none
  name : Option String := none
  parameterCount : Option Int := none
  argumentCount : Option Int := none
deriving DecidableEq

/-- A step that narrows a call pattern. -/
inductive CallConstraint
  | onDescendantOf (type : String)
  | onExactClass (type : String)
  | named (name : String)
  | withParameterCount (count : Int)
  | withArgumentCount (count : Int)
deriving DecidableEq

namespace CallPattern

/-- Puts a constraint in the place of the one on the same aspect. -/
def narrow (c : CallPattern) : CallConstraint → CallPattern
  | .onDescendantOf type => { c with owner := some ⟨type, false⟩ }
  | .onExactClass type => { c with owner := some ⟨type, true⟩ }
  | .named name => { c with name := some name }
  | .withParameterCount count => { c with parameterCount := some count }
  | .withArgumentCount count => { c with argumentCount := some count }

/-- Narrows a pattern by several constraints in turn. -/
def narrowAll (c : CallPattern) (constraints : List CallConstraint) : CallPattern :=
  constraints.foldl narrow c

/-- How a call pattern reads. -/
def describe (c : CallPattern) : String :=
  " ".intercalate <|
    [if c.isStatic then "static method" else "instance method"] ++
    c.owner.elim [] (fun o => [if o.exactly then s!"on exact class {o.type}" else s!"on descendant of {o.type}"]) ++
    c.name.elim [] (fun n => [s!"named {n}"]) ++
    c.parameterCount.elim [] (fun n => [s!"with {n} parameter(s)"]) ++
    c.argumentCount.elim [] (fun n => [s!"with {n} argument(s)"])

end CallPattern

/-! ## Patterns -/

/-- A test on nodes. -/
inductive Pattern
  | anything
  | nothing
  | allOf (operands : List Pattern)
  | anyOf (operands : List Pattern)
  | not (operand : Pattern)
  | kindIn (kinds : List NodeKind)
  | symbolKindIn (kinds : List SymbolKind)
  | binary (operator : String)
  | symbolNamed (name : String)
  | subtypeOf (type : String)
  | annotated (name : String)
  | left (operand : Pattern)
  | right (operand : Pattern)
  | receiver (operand : Pattern)
  | argument (operand : Pattern)
  | call (pattern : CallPattern)
deriving Inhabited

namespace Pattern

/-- A node of one of some kinds. Order and repetition of the kinds do not matter. -/
def ofKinds (kinds : List NodeKind) : Pattern :=
  .kindIn (NodeKind.among kinds)

/-- A node whose symbol is of one of some kinds. Order and repetition of the kinds do not matter. -/
def ofSymbolKinds (kinds : List SymbolKind) : Pattern :=
  .symbolKindIn (SymbolKind.all.filter kinds.contains)

/-- Both patterns; a conjunction on the left takes the other one in as its last operand. -/
def and : Pattern → Pattern → Pattern
  | .allOf ps, q => .allOf (ps ++ [q])
  | p, q => .allOf [p, q]

/-- Either pattern; a disjunction on the left takes the other one in as its last operand. -/
def or : Pattern → Pattern → Pattern
  | .anyOf ps, q => .anyOf (ps ++ [q])
  | p, q => .anyOf [p, q]

/-- The opposite of a pattern; that of a negation is what it negates. -/
def inverse : Pattern → Pattern
  | .not p => p
  | p => .not p

mutual

/-- Whether two patterns are built in the same way. -/
def same : Pattern → Pattern → Bool
  | .anything, .anything => true
  | .nothing, .nothing => true
  | .allOf ps, .allOf qs => sameAll ps qs
  | .anyOf ps, .anyOf qs => sameAll ps qs
  | .not p, .not q => p.same q
  | .kindIn ks, .kindIn ls => ks == ls
  | .symbolKindIn ks, .symbolKindIn ls => ks == ls
  | .binary o, .binary o' => o == o'
  | .symbolNamed n, .symbolNamed m => n == m
  | .subtypeOf t, .subtypeOf u => t == u
  | .annotated n, .annotated m => n == m
  | .left p, .left q => p.same q
  | .right p, .right q => p.same q
  | .receiver p, .receiver q => p.same q
  | .argument p, .argument q => p.same q
  | .call c, .call d => c == d
  | _, _ => false

/-- Whether two lists of patterns are built in the same way, one by one. -/
def sameAll : List Pattern → List Pattern → Bool
  | [], [] => true
  | p :: ps, q :: qs => p.same q && sameAll ps qs
  | _, _ => false

end

mutual

/-- How a pattern reads. -/
def describe : Pattern → String
  | .anything => "anything"
  | .nothing => "nothing"
  | .allOf ps => "(" ++ " and ".intercalate (describeAll ps) ++ ")"
  | .anyOf ps => "(" ++ " or ".intercalate (describeAll ps) ++ ")"
  | .not p => "not " ++ p.describe
  | .kindIn ks => "kind in [" ++ ", ".intercalate (ks.map NodeKind.name) ++ "]"
  | .symbolKindIn ks => "symbol kind in [" ++ ", ".intercalate (ks.map SymbolKind.name) ++ "]"
  | .binary operator => s!"binary '{operator}'"
  | .symbolNamed name => s!"symbol named '{name}'"
  | .subtypeOf type => s!"subtype of {type}"
  | .annotated name => s!"annotated @{name}"
  | .left p => "left operand " ++ p.describe
  | .right p => "right operand " ++ p.describe
  | .receiver p => "receiver " ++ p.describe
  | .argument p => "any argument " ++ p.describe
  | .call c => c.describe

/-- How several patterns read, one by one. -/
def describeAll : List Pattern → List String
  | [] => []
  | p :: ps => p.describe :: describeAll ps

end

end Pattern

end TreeLint
