/-
Rules given as data: a script of actions that are carried out at each match.
-/
import TreeLint.Rule.Basic

namespace TreeLint.Script

/-- Which node an action is about, seen from the node of the match. -/
inductive Selector
  | node
  /-- The receiver, else the node itself. -/
  | receiver
  /-- The child at an index, else the node itself. -/
  | child (index : Int)
  /-- The node at a position of the unit's pool; a negative position counts from the end. -/
  | pooled (position : Int)

/-- The node that a selector selects. -/
def Selector.select (s : Selector) (u : CompilationUnit) (n : Node) : Except Fault Node :=
  match s with
  | .node => .ok n
  | .receiver => .ok (n.receiver.getD n)
  | .child index => .ok ((n.child? index).getD n)
  | .pooled position => entryAt u.pool position

/-! ## Fixes -/

/-- An edit given by its bounds and its text. -/
structure RawEdit where
  start : Int
  stop : Int
  text : String

/-- The edit, if its bounds are those of a span. -/
def RawEdit.edit (e : RawEdit) : Except Fault Edit := do
  return ⟨← Span.ofBounds e.start e.stop, e.text⟩

/-- The fix with these very edits, whether they agree or not. -/
def rawFix (edits : List RawEdit) : Except Fault Fix :=
  Fix.mk <$> edits.mapM RawEdit.edit

/-- An edit of the text of a selected node, or of a span. -/
inductive ScriptedEdit
  | replace (target : Selector) (text : String)
  | replaceSpan (edit : RawEdit)
  | prefixWith (target : Selector) (text : String)
  | postfixWith (target : Selector) (text : String)
  | delete (target : Selector)

/-- The request for the nodes selected from a node. -/
def ScriptedEdit.request (e : ScriptedEdit) (u : CompilationUnit) (n : Node) : Except Fault EditRequest := do
  match e with
  | .replace target text => return .replace (← target.select u n) text
  | .replaceSpan edit => return .replaceSpan edit.start edit.stop edit.text
  | .prefixWith target text => return .prefixWith (← target.select u n) text
  | .postfixWith target text => return .postfixWith (← target.select u n) text
  | .delete target => return .delete (← target.select u n)

/-- The fix with the edits of a script, seen from a node. Each node is selected and found in the source
before the next one. -/
def buildFix (edits : List ScriptedEdit) (u : CompilationUnit) (n : Node) : Except Fault Fix := do
  Fix.of (← edits.mapM fun e => do (← e.request u n).edit u.source)

/-- The fix that comes with a finding. -/
inductive FixScript
  | none
  | raw (edits : List RawEdit)
  | built (edits : List ScriptedEdit)

/-! ## Findings -/

/-- A finding given with all its parts. -/
structure RawDiagnostic where
  rule : String
  severity : String
  span : Option (Int × Int)
  message : String
  fix : Option (List RawEdit)
  location : String

/-- The finding, if its parts are well formed. -/
def RawDiagnostic.diagnostic (d : RawDiagnostic) : Except Fault Diagnostic := do
  let severity ← Severity.ofName d.severity
  let span ← d.span.mapM fun (start, stop) => Span.ofBounds start stop
  let fix ← d.fix.mapM rawFix
  return { rule := d.rule, severity, span, message := d.message, fix, location := d.location }

/-! ## Actions -/

/-- What a script does. -/
inductive Action
  /-- Reports a finding at a node. -/
  | report (target : Selector) (message : Option String) (fix : FixScript)
  /-- Ends the script with a finding at a node. -/
  | answer (target : Selector) (message : Option String) (fix : FixScript)
  | reportRaw (finding : RawDiagnostic)
  | answerRaw (finding : RawDiagnostic)
  /-- Reports the text of a node. -/
  | quote (target : Selector)
  | fail (fault : Fault)
  /-- Calls the analysis off. -/
  | cancel
  /-- Scans a subtree and runs a script at its nodes of the kinds with these names. -/
  | scan (root : Selector) (kinds : List String) (body : List Action)
deriving Inhabited

/-- A finding at the node that a selector selects from another. A fix that is given ready is made
before the node is selected, one that is to be built is made afterwards. -/
def findAt (target : Selector) (message : Option String) (fix : FixScript) (n : Node) : RuleM Diagnostic := do
  let u := (← read).unit
  match fix with
  | .none => do
    let found ← RuleM.ofExcept (target.select u n)
    RuleM.describeMatch found message
  | .raw edits => do
    let fix ← RuleM.ofExcept (rawFix edits)
    let found ← RuleM.ofExcept (target.select u n)
    RuleM.describeMatch found message (.ok (some fix))
  | .built edits => do
    let found ← RuleM.ofExcept (target.select u n)
    RuleM.describeMatch found message (some <$> buildFix edits u n)

mutual

/-- Carries out one action; the answer is the finding that ends the script. -/
def runAction : Action → Node → RuleM (Option Diagnostic)
  | .report target message fix, n => do
    RuleM.report (← findAt target message fix n)
    return none
  | .answer target message fix, n => some <$> findAt target message fix n
  | .reportRaw finding, _ => do
    RuleM.report (← RuleM.ofExcept finding.diagnostic)
    return none
  | .answerRaw finding, _ => some <$> RuleM.ofExcept finding.diagnostic
  | .quote target, n => do
    let u := (← read).unit
    let text ← RuleM.ofExcept (do Source.textOf u.source (← target.select u n))
    RuleM.report (← RuleM.describeMatch n (some text))
    return none
  | .fail fault, _ => RuleM.ofExcept (.error fault)
  | .cancel, _ => do
    fun _ => Session.cancel
    return none
  | .scan root kinds body, n => do
    let start ← RuleM.ofExcept (root.select (← read).unit n)
    let kinds ← RuleM.ofExcept (kinds.mapM NodeKind.ofName)
    let handle (m : Node) : RuleM Unit := discard (runActions body m)
    RuleM.scanBelow start fun kind => if kinds.contains kind then [handle] else []
    return none

/-- Carries out actions in turn, up to the first that ends the script. -/
def runActions : List Action → Node → RuleM (Option Diagnostic)
  | [], _ => return none
  | action :: rest, n => do
    match ← runAction action n with
    | some d => return some d
    | none => runActions rest n

end

/-- The rule that runs a script. -/
def rule (info : RuleInfo) (actions : List Action) : Rule where
  toRuleInfo := info
  describe := runActions actions

end TreeLint.Script
