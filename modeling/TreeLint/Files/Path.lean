/-
Paths as text: names joined by slashes. Repeated slashes and single dots say nothing; a double dot
stays, because where it leads is known to the file tree alone.
-/
namespace TreeLint

/-- A path. -/
structure FilePath where
  /-- The slashes in front of a path that starts at the top of all files, one or two; a path from
  the working directory on has none. -/
  lead : String := ""
  parts : List String := []
deriving DecidableEq

namespace FilePath

/-- The pieces of a text between slashes. -/
def pieces : List Char → List (List Char)
  | [] => [[]]
  | c :: cs =>
    match pieces cs with
    | [] => [[c]]
    | p :: ps => if c = '/' then [] :: p :: ps else (c :: p) :: ps

/-- Whether the path starts at the top of all files. -/
def isAbsolute (p : FilePath) : Bool := p.lead ≠ ""

/-- What a number of slashes in front of a path amounts to: two are kept, more count as one. -/
def leadOf : Nat → String
  | 0 => ""
  | 2 => "//"
  | _ => "/"

/-- The path that a text writes. -/
def ofText (s : String) : FilePath where
  lead := leadOf (s.toList.takeWhile (· = '/')).length
  parts := ((pieces s.toList).map String.ofList).filter fun p => p ≠ "" && p ≠ "."

/-- The path as text. -/
def text (p : FilePath) : String :=
  let joined := "/".intercalate p.parts
  if p.isAbsolute then p.lead ++ joined else if p.parts.isEmpty then "." else joined

/-- Whether a null character is in the path; no file has such a path. -/
def hasNull (p : FilePath) : Bool := p.text.toList.contains '\x00'

/-- The path that leads on from another. -/
def below (p : FilePath) (parts : List String) : FilePath :=
  { p with parts := p.parts ++ parts }

/-- Whether a name ends as those of source files do. -/
def isSourceName (name : String) : Bool :=
  ".py".toList.isSuffixOf name.toList

end FilePath

end TreeLint
