/-
Faults: the ways in which an operation can fail. `label` is the name a fault is reported under,
`message` its text.
-/
import TreeLint.Span
import TreeLint.Tree.Kind
import TreeLint.Text.Quoted

namespace TreeLint

/-- Why an operation failed. -/
inductive Fault
  /-- Two integers that bound no span. -/
  | invalidSpan (start stop : Int)
  /-- A node without a place in the source, where one is needed. -/
  | noSourceSpan (kind : NodeKind)
  /-- Two edits of one fix that touch the same place. -/
  | conflictingEdits (first second : Span)
  /-- An edit that ends past the end of the text it is applied to. -/
  | editOutside (span : Span)
  /-- A span that ends past the end of the source it is to be replaced in. -/
  | spanOutside (span : Span)
  /-- A tree whose root is not a compilation unit. -/
  | rootKind (kind : NodeKind)
  /-- A text that names no member of an enumeration. -/
  | notAMember (text enumeration : String)
  /-- The walk was called off. -/
  | cancelled
  /-- The node left is not the one entered last. -/
  | pathOutOfBalance
  /-- The walk ended at another depth than it began. -/
  | scopesOutOfBalance
  /-- There is nothing to leave. -/
  | nothingToLeave
  /-- A position that a list does not have. -/
  | noSuchPosition
  /-- A position that no list can have. -/
  | beyondPositions
  | registryFrozen (rule : String)
  | noKinds (rule : String)
  | duplicateRule (rule : String)
  /-- A text that is no settings document. -/
  | malformedDocument (message : String)
  /-- A source that no tree could be made of. -/
  | frontEnd (message : String)
  /-- A key under which no service is registered. -/
  | notRegistered (key : String)
  /-- A value that is to be searched by key and is no table. -/
  | notATable
  /-- A value that is to be gone through item by item and has no items. -/
  | notIterable (type : String)
  /-- A path with a null character, which no file has. -/
  | nullInPath
  /-- A path that the system cannot look up. -/
  | system (message : String)
  /-- Bytes that are not UTF-8. -/
  | undecodable
  /-- Facts that refer to each other without end. -/
  | endless
  /-- A key that is missing, raised by a rule. -/
  | missingKey (key : String)
  /-- Any other failure that a rule or the facts raise, under a label of their own. -/
  | raised (label message : String)
deriving DecidableEq

namespace Fault

/-- The name a fault is reported under. -/
def label : Fault → String
  | invalidSpan .. | editOutside _ | spanOutside _ | rootKind _ | notAMember .. | noKinds _
  | duplicateRule _ | notRegistered _ | nullInPath => "ValueError"
  | noSourceSpan _ => "NoSourceSpan"
  | conflictingEdits .. => "OverlappingEditsError"
  | cancelled => "TraversalCancelled"
  | pathOutOfBalance | scopesOutOfBalance => "RuntimeError"
  | nothingToLeave | noSuchPosition | beyondPositions => "IndexError"
  | registryFrozen _ => "RegistryFrozenError"
  | malformedDocument _ => "TOMLDecodeError"
  | frontEnd _ => "FrontEndError"
  | notATable => "AttributeError"
  | notIterable _ => "TypeError"
  | system _ => "OSError"
  | undecodable => "UnicodeDecodeError"
  | endless => "RecursionError"
  | missingKey _ => "KeyError"
  | raised label _ => label

/-- The text of a fault. -/
def message : Fault → String
  | invalidSpan start stop => s!"Invalid span [{start}, {stop})"
  | noSourceSpan kind => s!"{kind.name} node has no source span"
  | conflictingEdits first second => s!"Edit {first.display} conflicts with {second.display}"
  | editOutside span => s!"Edit {span.display} is outside the source"
  | spanOutside span => s!"Span {span.display} is outside the source"
  | rootKind kind => s!"Unit root must be a compilation unit, got {kind.name}"
  | notAMember text enumeration => s!"{Text.quoted text} is not a valid {enumeration}"
  | cancelled => "Traversal cancelled"
  | pathOutOfBalance => "Traversal path out of balance"
  | scopesOutOfBalance => "Traversal finished with unbalanced scopes"
  | nothingToLeave => "pop from empty list"
  | noSuchPosition => "list index out of range"
  | beyondPositions => "cannot fit 'int' into an index-sized integer"
  | registryFrozen rule => s!"Cannot register {rule}: registry is frozen"
  | noKinds rule => s!"Rule {rule} declares no node kinds"
  | duplicateRule rule => s!"Duplicate rule id: {rule}"
  | malformedDocument message => message
  | frontEnd message => message
  | notRegistered key => s!"Dependency '{key}' not registered."
  | notATable => "the value is not a table"
  | notIterable type => s!"'{type}' object is not iterable"
  | nullInPath => "embedded null byte"
  | system message => message
  | undecodable => "the bytes are not UTF-8"
  | endless => "maximum recursion depth exceeded"
  | missingKey key => Text.quoted key
  | raised _ message => message

/-- The fault with a label and the text given when it is raised. -/
def ofLabel (label text : String) : Fault :=
  match label with
  | "TraversalCancelled" => cancelled
  | "KeyError" => missingKey text
  | "FrontEndError" => frontEnd text
  | _ => raised label text

end Fault

/-- The span between two integers, or the fault that they bound none. -/
def Span.ofBounds (start stop : Int) : Except Fault Span :=
  match Span.ofBounds? start stop with
  | some s => .ok s
  | none => .error (.invalidSpan start stop)

/-- The kind of node with a name. -/
def NodeKind.ofName (s : String) : Except Fault NodeKind :=
  (NodeKind.ofName? s).elim (.error (.notAMember s "NodeKind")) .ok

/-- The kind of symbol with a name. -/
def SymbolKind.ofName (s : String) : Except Fault SymbolKind :=
  (SymbolKind.ofName? s).elim (.error (.notAMember s "SymbolKind")) .ok

end TreeLint
