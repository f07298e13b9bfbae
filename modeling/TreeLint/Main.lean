/-
The command line. The job is read from the standard input as a JSON document, and files that the
run has changed are written below the working directory.
-/
import TreeLint.CommandLine.Job
import TreeLint.Value.Json.Reader

namespace TreeLint

/-- The lines of a stream, in one text. -/
partial def readAll (input : IO.FS.Stream) (before : String) : IO String := do
  let line ← input.getLine
  if line.isEmpty then return before else readAll input (before ++ line)

/-- Writes the text files that are not as they were. -/
def writeChanges (before after : FileTree) : IO Unit :=
  after.entries.forM fun (place, e) => do
    if let (some (.file (.text old)), .file (.text new)) := (before.at? place, e) then
      if old ≠ new then IO.FS.writeFile ("/".intercalate place) new

end TreeLint

open TreeLint

/-- Runs one command. The exit status is 1 if the run dies. -/
def main (arguments : List String) : IO UInt32 := do
  let input ← readAll (← IO.getStdin) ""
  match (Value.Json.read? input).bind Job.ofValue? with
  | none => do
    IO.eprintln "The job on the standard input is malformed."
    return 2
  | some job => do
    let outcome := CommandLine.run job.surroundings arguments job.files
    IO.print outcome.output
    IO.eprint outcome.errors
    writeChanges job.files outcome.files
    match outcome.result with
    | .ok status => return UInt32.ofNat status
    | .error f => do
      IO.eprintln s!"{f.label}: {f.message}"
      return 1
