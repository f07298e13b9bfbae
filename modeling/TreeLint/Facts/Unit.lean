/-
The front end: from the text of a file to the resolved unit. Parsing and inference happen outside;
their outcome is asked for by path and text.
-/
import TreeLint.Facts.Tree
import TreeLint.Files.Tree

namespace TreeLint

/-- What parsing a text comes to. -/
inductive Parsed
  | facts (facts : Facts)
  /-- The text is malformed in the way that the message tells. -/
  | malformed (message : String)
  /-- The facts cannot be told. -/
  | failed (f : Fault)

/-- The front end. -/
structure FrontEnd where
  markers : List String
  parse : (path source : String) → Parsed

namespace FrontEnd

/-- The unit of a text. -/
def unitOf (fe : FrontEnd) (path source : String) : Attempt Log CompilationUnit := fun log =>
  match fe.parse path source with
  | .malformed message => (.error (.frontEnd s!"Cannot parse {path}: {message}"), log)
  | .failed f => (.error f, log)
  | .facts facts =>
    let (tree, known) := ({ facts, source, markers := fe.markers } : Facts.Reading).tree { log }
    (do CompilationUnit.make path source (← tree) #[], known.log)

/-- The unit of a file. -/
def read (fe : FrontEnd) (files : FileTree) (path : String) : Attempt Log CompilationUnit := do
  let file := FilePath.ofText path
  match ← Attempt.lift (files.tryOpen file) with
  | .error f =>
    let reason := f.message file.text
    Attempt.fail (.frontEnd s!"Cannot read {path}: {reason}")
  | .ok (_, content) => do
    let source ← Attempt.lift content.read
    fe.unitOf file.text source

end FrontEnd

end TreeLint
