/-
Matching a node against a pattern. A test that needs a type, a symbol or a child that is not there
fails. Operands are tried in order and only as far as they decide the answer; each question asked
on the way is remembered by the resolver.
-/
import TreeLint.Pattern.Basic
import TreeLint.Resolver

namespace TreeLint

namespace CallPattern

/-- Whether a type is the owner asked for. -/
def ownedBy (o : OwnerConstraint) (t : Option TypeRef) : Query Bool := do
  if o.exactly then return t.any (·.erasure = o.type)
  else Resolver.isSubtypeOfName t o.type

/-- The method that an invocation calls: its own symbol, else that of its callee. -/
def method? (n : Node) : Option Symbol :=
  (n.symbol.or (n.callee.bind (·.symbol))).filter (·.kind.isMethod)

/-- Whether a node is an invocation of a method with all that the pattern asks for. The type of the
receiver is looked at before that of the declaring class. -/
def isMatch (c : CallPattern) (n : Node) : Query Bool := do
  if n.kind ≠ .invocation then return false
  let some method := method? n | return false
  if method.isStatic ≠ c.isStatic then return false
  if c.name.any (· ≠ method.name) then return false
  if c.parameterCount.any (· ≠ (method.parameters.length : Int)) then return false
  if c.argumentCount.any (· ≠ (n.arguments.length : Int)) then return false
  let some o := c.owner | return true
  if ← ownedBy o (n.receiver.bind (·.resolvedType)) then return true
  ownedBy o (method.enclosingClass.bind (·.type))

end CallPattern

namespace Pattern

/-- The operand of a binary expression at an index. -/
def operand? (n : Node) (i : Nat) : Option Node :=
  if n.kind = .binary then n.children[i]? else none

mutual

/-- Whether a node matches a pattern. -/
def isMatch : Pattern → Node → Query Bool
  | .anything, _ => return true
  | .nothing, _ => return false
  | .allOf ps, n => allMatch ps n
  | .anyOf ps, n => anyMatch ps n
  | .not p, n => return !(← p.isMatch n)
  | .kindIn kinds, n => return kinds.contains n.kind
  | .symbolKindIn kinds, n => return n.symbol.any (kinds.contains ·.kind)
  | .binary operator, n => return n.kind = .binary && n.operator = some operator
  | .symbolNamed name, n => return n.symbol.any (·.name = name)
  | .subtypeOf type, n => Resolver.isSubtypeOfName n.resolvedType type
  | .annotated name, n => return n.carries name
  | .left p, n =>
    match operand? n 0 with
    | some m => p.isMatch m
    | none => return false
  | .right p, n =>
    match operand? n 1 with
    | some m => p.isMatch m
    | none => return false
  | .receiver p, n =>
    match n.receiver with
    | some m => p.isMatch m
    | none => return false
  | .argument p, n => n.arguments.anyM fun m => p.isMatch m
  | .call c, n => c.isMatch n

/-- Whether a node matches every pattern of a list. -/
def allMatch : List Pattern → Node → Query Bool
  | [], _ => return true
  | p :: ps, n => do if ← p.isMatch n then allMatch ps n else return false

/-- Whether a node matches some pattern of a list. -/
def anyMatch : List Pattern → Node → Query Bool
  | [], _ => return false
  | p :: ps, n => do if ← p.isMatch n then return true else anyMatch ps n

end

end Pattern

end TreeLint
