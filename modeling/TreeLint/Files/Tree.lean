/-
The files at and below the working directory. A directory is there when it is listed or when
something is listed below it. The system may refuse to write a text; what it has written by then is
in the file.
-/
import TreeLint.Fault
import TreeLint.Files.Path
import TreeLint.Text.Lines
import TreeLint.Value.Basic

namespace TreeLint

/-- What a file holds. -/
inductive Content
  | text (s : String)
  | bytes (b : ByteArray)

/-- What is at a place. -/
inductive Entry
  | directory
  | file (content : Content)

/-- The names that lead from the working directory to a place below it. -/
abbrev Place := List String

/-- Why a text was not written, or not all of it. -/
structure WriteFault where
  message : String
  /-- How many bytes of the text the file holds; none if it could not be opened, so that it is as it
  was. -/
  written : Option Nat := none
deriving DecidableEq

/-- The files below the working directory. -/
structure FileTree where
  entries : List (Place × Entry) := []
  /-- How the working directory is written in messages. -/
  root : String := "<root>"
  /-- Which texts the system refuses to write at a place. -/
  refuses : Place → String → Option WriteFault := fun _ _ => none

/-! ## Access -/

/-- Why a file cannot be opened. -/
inductive AccessFault
  | missing | notADirectory | isADirectory | nameTooLong
deriving DecidableEq

/-- The text of an access fault. -/
def AccessFault.message (f : AccessFault) (path : String) : String :=
  let (number, text) := match f with
    | missing => (2, "No such file or directory")
    | notADirectory => (20, "Not a directory")
    | isADirectory => (21, "Is a directory")
    | nameTooLong => (36, "File name too long")
  let path := Text.quoted path
  s!"[Errno {number}] {text}: {path}"

namespace Content

/-- The text of the content: its bytes are UTF-8. -/
def decode : Content → Except Fault String
  | text s => .ok s
  | bytes b =>
    match String.fromUTF8? b with
    | some s => .ok s
    | none => .error .undecodable

/-- The content read as text: every line end becomes a line feed. -/
def read (content : Content) : Except Fault String := do
  return String.ofList (Text.readLineEnds (← content.decode).toList)

end Content

/-- A place and the places it lies in, from the inside out. -/
def Place.outwards (place : Place) : List Place :=
  (List.range (place.length + 1)).reverse.map place.take

namespace FileTree

/-! ## Finding and changing files -/

/-- What is at a place. -/
def at? (t : FileTree) (place : Place) : Option Entry :=
  match t.entries.lookup place with
  | some e => some e
  | none =>
    if place.isEmpty || t.entries.any (place.isPrefixOf ·.1) then some .directory else none

/-- The most bytes that a name may have. -/
def longestName : Nat := 255

/-- The most bytes that a path may have. -/
def longestPath : Nat := 4095

/-- Follows names from a directory on; a double dot leads back. Outside the working directory
nothing is known. -/
def follow (t : FileTree) (place : Place) : List String → Except AccessFault Place
  | [] => .ok place
  | name :: rest =>
    match t.at? place with
    | none => .error .missing
    | some (.file _) => .error .notADirectory
    | some .directory =>
      if name = ".." then
        if place.isEmpty then .error .missing else t.follow place.dropLast rest
      else if longestName < name.utf8ByteSize then .error .nameTooLong
      else t.follow (place ++ [name]) rest

/-- The place of a path and what is there. -/
def find (t : FileTree) (path : FilePath) : Except AccessFault (Place × Entry) := do
  if longestPath < path.text.utf8ByteSize then throw .nameTooLong
  if path.isAbsolute then throw .missing
  let place ← t.follow [] path.parts
  match t.at? place with
  | some e => return (place, e)
  | none => throw .missing

/-- The place and the content of a file. -/
def openFile (t : FileTree) (path : FilePath) : Except AccessFault (Place × Content) := do
  match ← t.find path with
  | (place, .file content) => return (place, content)
  | (_, .directory) => throw .isADirectory

/-- The place and the content of a file, or why it cannot be opened. A path with a null character is
not even tried. -/
def tryOpen (t : FileTree) (path : FilePath) : Except Fault (Except AccessFault (Place × Content)) :=
  if path.hasNull then .error .nullInPath else .ok (t.openFile path)

/-- The place of a directory. -/
def directory? (t : FileTree) (path : FilePath) : Option Place :=
  match t.find path with
  | .ok (place, .directory) => some place
  | _ => none

/-- Gives the file at a place a new content. -/
def write (t : FileTree) (place : Place) (content : Content) : FileTree :=
  { t with entries := t.entries.map fun (p, e) => (p, if p = place then .file content else e) }

/-- What the file at a place holds once a text was to be written there; none if it is as it was. -/
def left? (t : FileTree) (place : Place) (s : String) : Option Content :=
  match t.refuses place s with
  | none => some (.text s)
  | some fault => fault.written.map fun n => .bytes (s.toUTF8.extract 0 n)

/-- Tries to give the file at a place a new text. -/
def save (t : FileTree) (place : Place) (s : String) : FileTree :=
  (t.left? place s).elim t (t.write place)

/-- The ways from a directory to everything below it. -/
def below (t : FileTree) (place : Place) : List (List String) :=
  (t.entries.filter fun (p, _) => place.isPrefixOf p).flatMap fun (p, _) =>
    (Place.outwards (p.drop place.length)).filter (· ≠ [])

/-- The ways from a directory to everything below it that is named as source files are. -/
def sourcesBelow (t : FileTree) (place : Place) : List (List String) :=
  (t.below place).filter fun way => FilePath.isSourceName (way.getLastD "")

end FileTree

end TreeLint
