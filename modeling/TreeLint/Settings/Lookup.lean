/-
Where settings are kept: in the nearest project file at or above a directory, in the table of this
program among those of all tools.
-/
import TreeLint.Attempt
import TreeLint.Files.Tree
import TreeLint.Settings.Basic

namespace TreeLint.Settings

/-- The name of project files. -/
def projectFile : String := "pyproject.toml"

/-- The directory that a path leads to, whether it is there or not; none outside the working
directory. -/
def placeOf (parts : List String) : Option Place :=
  parts.foldl (fun place name => do
    let place ← place
    if name = ".." then if place.isEmpty then none else some place.dropLast
    else some (place ++ [name])) (some [])

/-- How a place below the working directory is written in messages. -/
def shown (t : FileTree) (place : Place) : String := "/".intercalate (t.root :: place)

/-- The project file in the nearest directory at or above a place, given from the inside out. -/
def nearestFrom (t : FileTree) : List Place → Except Fault (Option (Place × Entry))
  | [] => .ok none
  | directory :: outer =>
    let file := directory ++ [projectFile]
    match t.find { parts := file } with
    | .ok found => .ok (some found)
    | .error .nameTooLong => .error (.system (AccessFault.nameTooLong.message (shown t file)))
    | .error _ => nearestFrom t outer

/-- The project file nearest to a directory, if there is one. -/
def nearest (t : FileTree) (start : FilePath) : Except Fault (Option (Place × Entry)) :=
  if start.hasNull then .error .nullInPath
  else if start.isAbsolute then .ok none
  else
    match placeOf start.parts with
    | some place => nearestFrom t (Place.outwards place)
    | none => .ok none

/-- The value under a key, where one that is not given counts as the empty table. -/
def entryOf (t : Table) (key : String) : Value :=
  ((t.get? key).filter Value.isGiven).getD (.table [])

/-- The table of this program in a document. -/
def tableIn (document : Table) : Except Fault Table :=
  match entryOf document "tool" with
  | .table tools =>
    match entryOf tools sectionName with
    | .table entries => .ok entries
    | _ => .ok []
  | _ => .error .notATable

/-- What a text comes to that is read as a document. -/
abbrev DocumentReader := String → Except Fault Table

/-- The table in a project file with a name, or why it cannot be read. -/
def tableOf (read : DocumentReader) (file : String) : Entry → Except Fault (Except String Table)
  | .directory => .ok (.error (AccessFault.isADirectory.message file))
  | .file content => do
    match read (← content.decode) with
    | .ok document => .ok <$> tableIn document
    | .error (.malformedDocument reason) => .ok (.error reason)
    | .error f => .error f

/-- The settings table that is in force in a directory. -/
def load (read : DocumentReader) (t : FileTree) (start : FilePath) : Attempt Log Table := do
  match ← Attempt.lift (nearest t start) with
  | none => return []
  | some (place, entry) => do
    let file := shown t place
    match ← Attempt.lift (tableOf read file entry) with
    | .ok entries => return entries
    | .error reason => do
      Attempt.tell .warning .settings s!"Configuration Warning: cannot read {file}: {reason}"
      return []

end TreeLint.Settings
