/-
Targets: the files that a run is about. A directory stands for the source files below it; where no
path is given, the source directory stands in if there is one, else the working directory.
-/
import TreeLint.Files.Tree
import TreeLint.NameSet

namespace TreeLint.FileTree

/-- The path that a run without an explicit one is about. -/
def defaultTarget (t : FileTree) : String :=
  if (t.directory? (.ofText "src")).isSome then "src" else "."

/-- The path that a run is about, given a path or none; the working directory counts as none. -/
def target (t : FileTree) (path : Option String) : String :=
  match (path.map fun p => (FilePath.ofText p).text).filter (· ≠ ".") with
  | some p => p
  | none => t.defaultTarget

/-- The paths of the files that one path stands for. A path that is too long to be looked up is a
fault. -/
def expand (t : FileTree) (path : FilePath) : Except Fault (List String) :=
  if path.hasNull then .ok [path.text]
  else match t.find path with
    | .ok (place, .directory) => .ok ((t.sourcesBelow place).map fun way => (path.below way).text)
    | .error .nameTooLong => .error (.system (AccessFault.nameTooLong.message path.text))
    | _ => .ok [path.text]

/-- The paths of the files that some paths stand for, ascending, each once. -/
def collect (t : FileTree) (paths : List String) : Except Fault (List String) := do
  let targets := if paths.isEmpty then [t.defaultTarget] else paths
  let found ← targets.mapM fun p => t.expand (.ofText p)
  return (NameSet.ofList found.flatten).toList

end TreeLint.FileTree
