/-
Fixing a file. The fixes are merged and carried out on the text as it is read now; the file is
written only if the text is still the one that the fixes were made for, and if the new text parses
and is another one. It counts as fixed once all of the new text is written.
-/
import TreeLint.Files.Tree
import TreeLint.Fix.Merge

namespace TreeLint

/-- Files that are worked on, with the log of the work. -/
structure Workspace where
  files : FileTree
  log : Log := []

namespace Workspace

variable {α : Type}

/-- Does something that writes log entries. -/
def logged (x : Attempt Log α) : Attempt Workspace α :=
  Attempt.within Workspace.log (fun log w => { w with log }) x

/-- Writes a warning of the fixer. -/
def warn (message : String) : Attempt Workspace Unit :=
  logged (Attempt.tell .warning .fixer message)

/-- The text with all fixes that agree, if it parses. -/
def fixedText? (parses : String → Bool) (source : String) (fixes : List (Option Fix)) : Attempt Workspace (Option String) := do
  let merged ← logged (Fix.mergeAll fixes)
  let edited ← Attempt.lift (merged.apply source)
  if parses edited then return some edited
  warn "Fixed source does not parse; leaving it untouched"
  return none

/-- Tries to write a text; the answer is whether the system lets it be written. -/
def writeText (path : String) (place : Place) (s : String) : Attempt Workspace Bool := do
  let refused := (← Attempt.state).files.refuses place s
  Attempt.update fun w => { w with files := w.files.save place s }
  match refused with
  | none => return true
  | some fault => do
    warn s!"Cannot write {path}: {fault.message}"
    return false

/-- Fixes the text of a file that is now `source`. -/
def fixText (parses : String → Bool) (path : String) (place : Place) (source : String) (fixes : List (Option Fix)) :
    Attempt Workspace Bool := do
  match ← fixedText? parses source fixes with
  | none => return false
  | some edited =>
    if edited = source then return false
    writeText path place edited

/-- Fixes a file; the answer is whether all of the new text was written. `expected` is the text that the fixes were
made for. -/
def fixFile (parses : String → Bool) (path : String) (fixes : List (Option Fix)) (expected : Option String := none) :
    Attempt Workspace Bool := do
  let file := FilePath.ofText path
  match ← Attempt.lift ((← Attempt.state).files.tryOpen file) with
  | .error f => do
    let reason := f.message file.text
    warn s!"Cannot read {path}: {reason}"
    return false
  | .ok (place, content) => do
    let source ← Attempt.lift content.read
    if expected.any (· ≠ source) then
      warn s!"{path} changed since it was analyzed; not applying fixes"
      return false
    fixText parses path place source fixes

end Workspace

end TreeLint
