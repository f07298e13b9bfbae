/-
The console: what a run prints. Lines for the user and entries of the log come out in the order in
which they were written.
-/
import TreeLint.Attempt
import TreeLint.Files.Tree
import TreeLint.Text.Terminal

namespace TreeLint

/-- What goes to the error output. -/
inductive Message
  | line (text : String)
  | entry (e : LogEntry)

/-- A run in progress: the files, the lines of the output, and the error output. -/
structure Console where
  files : FileTree
  output : List String := []
  errors : List Message := []

namespace Console

variable {α : Type}

/-- Prints a text as lines of the output, which take no control sequences. -/
def print (text : String) : Attempt Console Unit :=
  Attempt.update fun c => { c with output := c.output ++ [String.ofList (Text.plain text.toList)] }

/-- Prints a text as lines of the error output. -/
def complain (text : String) : Attempt Console Unit :=
  Attempt.update fun c => { c with errors := c.errors ++ [.line text] }

/-- Does something that writes log entries. -/
def logged (x : Attempt Log α) : Attempt Console α := fun c =>
  let (result, log) := x []
  (result, { c with errors := c.errors ++ log.map .entry })

end Console

/-- How log entries are printed, and which. -/
structure LogStyle where
  least : LogLevel
  /-- What stands between level and channel, and between channel and message. -/
  afterLevel : String
  afterChannel : String

namespace LogStyle

/-- A log entry as a line, if it matters enough. -/
def line? (s : LogStyle) (e : LogEntry) : Option String :=
  if s.least.rank ≤ e.level.rank then
    some (e.level.name ++ s.afterLevel ++ e.channel.name ++ s.afterChannel ++ e.message)
  else none

/-- The style of a run without flaws in its settings. -/
def usual (verbose : Bool) : LogStyle where
  least := if verbose then .debug else .warning
  afterLevel := " "
  afterChannel := ": "

/-- The style of a run that had to warn of its settings before it could be told how to log. -/
def early : LogStyle where
  least := .warning
  afterLevel := ":"
  afterChannel := ":"

end LogStyle

/-- Texts, each with a line feed behind it. -/
def joinLines (texts : List String) : String :=
  String.join (texts.map (· ++ "\n"))

namespace Console

/-- The output. -/
def outputText (c : Console) : String := joinLines c.output

/-- The error output. -/
def errorText (c : Console) (style : LogStyle) : String :=
  joinLines <| c.errors.filterMap fun
    | .line text => some text
    | .entry e => style.line? e

end Console

end TreeLint
