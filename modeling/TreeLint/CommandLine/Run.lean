/-
Running a command: reading the settings in the working directory, doing what is asked, and telling
about it. The result is the exit status, or the fault that the run died of.
-/
import TreeLint.Catalog.Default
import TreeLint.CommandLine.Arguments
import TreeLint.CommandLine.Console
import TreeLint.Facts.Unit
import TreeLint.Files.Targets
import TreeLint.Fixing.Run
import TreeLint.Services
import TreeLint.Settings.Lookup
import TreeLint.Value.Json.Printer

namespace TreeLint

/-- What a run gets from outside. -/
structure Surroundings where
  catalog : Catalog := .default
  /-- What a text comes to that is read as a settings document. -/
  document : Settings.DocumentReader
  /-- What parsing a file with a path and a text comes to. -/
  parse : (path source : String) → Parsed
  /-- Whether an edited text parses. -/
  parses : String → Bool

/-- What a run leaves behind. -/
structure Outcome where
  result : Except Fault Nat
  output : String
  errors : String
  files : FileTree

namespace CommandLine

/-- The front end with the markers of the settings. -/
def frontEnd (s : Surroundings) (services : Services) : FrontEnd where
  markers := services.settings.generatedMarkers
  parse := s.parse

/-! ## Checking -/

/-- Makes units of files. Those of which none can be made are told about and counted. -/
def readAll (fe : FrontEnd) : List String → Attempt Console (List CompilationUnit × Nat)
  | [] => return ([], 0)
  | path :: rest => do
    let files := (← Attempt.state).files
    match ← Attempt.caught (Console.logged (fe.read files path)) with
    | .ok u => do
      let (units, failed) ← readAll fe rest
      return (u :: units, failed)
    | .error (.frontEnd message) => do
      Console.complain s!"{path}: cannot analyze: {message}"
      let (units, failed) ← readAll fe rest
      return (units, failed + 1)
    | .error f => Attempt.fail f

/-- Analyzes units. -/
def analyzed (services : Services) (units : List CompilationUnit) : Attempt Console (List UnitReport) :=
  Console.logged fun log =>
    let (reports, progress) := services.analyzer.analyzeAll services.workers units { log }
    (reports, progress.log)

/-- The line that ends a list of findings. -/
def countLine (found units failed : Nat) : String :=
  s!"{found} diagnostic(s) in {units} file(s)" ++ if failed = 0 then "" else s!", {failed} file(s) skipped"

/-- Reports the findings in files. The exit status is 1 if one of them is an error. -/
def check (s : Surroundings) (services : Services) (paths : List String) (asJson : Bool) : Attempt Console Nat := do
  let files ← Attempt.lift ((← Attempt.state).files.collect paths)
  let (units, failed) ← readAll (frontEnd s services) files
  let reports ← analyzed services units
  let found := reports.flatMap (·.diagnostics)
  if asJson then
    Console.print (Value.Json.print (.list (found.map Diagnostic.toValue)))
  else
    found.forM fun d => Console.print d.line
    Console.print (countLine found.length units.length failed)
  return if reports.any (·.hasErrors) then 1 else 0

/-! ## Fixing -/

/-- Carries out the fixes in files. -/
def fix (s : Surroundings) (services : Services) (paths : List String) : Attempt Console Nat := do
  let files ← Attempt.lift ((← Attempt.state).files.collect paths)
  let fixer : Workspace.Fixer := {
    unitOf := (frontEnd s services).read
    analyzer := services.analyzer
    parses := s.parses
  }
  let summary ← fun c =>
    let (summary, w) := Workspace.fixAll fixer files { files := c.files }
    (summary, { c with files := w.files, errors := c.errors ++ w.log.map .entry })
  summary.skipped.forM fun path => Console.complain s!"{path}: cannot analyze"
  summary.modified.forM fun path => Console.print s!"fixed {path}"
  Console.print s!"{summary.offered} fix(es) offered, {summary.modified.length} file(s) modified"
  return 0

/-! ## Telling about rules -/

/-- How one rule is listed. -/
def ruleLine (c : Catalog) (r : Rule) : String :=
  let fixable := if (c.get? r.id).any Catalog.isFixable then " (fixable)" else ""
  s!"{r.id} v{r.version} {r.severity.name}{fixable}: {r.summary}"

/-- Lists the enabled rules, and the ids of the disabled ones. -/
def rules (s : Surroundings) (services : Services) : Attempt Console Nat := do
  services.rules.rules.forM fun r => Console.print (ruleLine s.catalog r)
  let disabled := services.settings.disabledRules.toList
  if !disabled.isEmpty then
    let names := ", ".intercalate disabled
    Console.print s!"disabled: {names}"
  return 0

/-- The texts of what a value is made of: the items of a list, the characters of a text, the keys
of a table. A value that counts as not given is made of nothing. -/
def parts (v : Value) : Except Fault (List String) :=
  if v.isGiven then
    match v with
    | .list items => .ok (items.map Value.display)
    | .str s => .ok (s.toList.map String.singleton)
    | .table entries => .ok (entries.map (·.1))
    | .null => .error (.notIterable "NoneType")
    | .bool _ => .error (.notIterable "bool")
    | .int _ => .error (.notIterable "int")
    | .float _ => .error (.notIterable "float")
    | .moment _ literal => .error (.notIterable (String.ofList (literal.toList.takeWhile (· ≠ '('))))
  else .ok []

/-- Tells what the catalog has on a rule. -/
def explain (s : Surroundings) (rule : String) : Attempt Console Nat := do
  match s.catalog.get? rule with
  | none => do
    Console.complain s!"Unknown rule: {rule}"
    return 2
  | some entry => do
    let name := (entry.get? "display_name").elim rule Value.display
    Console.print s!"{rule}: {name}"
    let severity := (entry.get? "severity").elim "WARNING" Value.display
    Console.print s!"Severity: {severity}"
    let fixable := if Catalog.isFixable entry then "yes" else "no"
    Console.print s!"Fixable: {fixable}"
    ["summary", "explanation"].forM fun key => do
      if let some v := (entry.get? key).filter Value.isGiven then
        Console.print ("\n" ++ v.display)
    let references ← Attempt.lift (parts ((entry.get? "references").getD .null))
    references.forM fun r => Console.print s!"  see: {r}"
    return 0

/-! ## Running -/

/-- Does what a command asks. -/
def perform (s : Surroundings) (services : Services) : Command → Attempt Console Nat
  | .check paths asJson => check s services paths asJson
  | .fix paths => fix s services paths
  | .rules => rules s services
  | .explain rule => explain s rule

/-- The parts of the program with the settings of the working directory. -/
def start (s : Surroundings) : Attempt Console Services := do
  let files := (← Attempt.state).files
  Console.logged do
    let table ← Settings.load s.document files (.ofText ".")
    Services.ofSettings { table }

/-- Runs a command line. -/
def run (s : Surroundings) (arguments : List String) (files : FileTree) : Outcome :=
  let (services, console) := start s { files }
  let verbose := (Arguments.parse? arguments).any (·.verbose)
  let style := if console.errors.isEmpty then LogStyle.usual verbose else LogStyle.early
  let body : Attempt Console Nat := do
    let services ← Attempt.lift services
    match Arguments.parse? arguments with
    | some a => perform s services a.command
    | none => do
      Console.complain "Usage: bugscope [-v] check [PATHS] [--format FORMAT] | fix [PATHS] | rules | explain RULE"
      return 2
  let (result, console) := body console
  { result, output := console.outputText, errors := console.errorText style, files := console.files }

end CommandLine

end TreeLint
