/-
Jobs: what a run gets from outside, in one document. It lists the files with their contents, what
the texts of settings files and parsing each of the others come to, and which edited texts parse.
-/
import TreeLint.CommandLine.Run
import TreeLint.Facts.Document
import TreeLint.Text.Base64

namespace TreeLint

/-- What is at a place, as the document has it. -/
def Entry.ofValue? : Value → Option Entry
  | .table [("text", .str s)] => some (.file (.text s))
  | .table [("b64", .str s)] => some (.file (.bytes (Text.bytesOfBase64 s)))
  | .table [("dir", _)] => some .directory
  | _ => none

/-- The files in a table from paths to what is there. -/
def FileTree.ofValue? (v : Value) : Option FileTree := do
  let entries ← (← v.entries?).mapM fun (path, w) => do
    return ((FilePath.ofText path).parts, ← Entry.ofValue? w)
  return { entries }

/-- Which texts parse; one that is not listed does not. -/
def parseTable? (v : Value) : Option (String → Bool) := do
  let verdicts ← (← v.items?).mapM fun w => do
    return (← w.get "source" Value.text?, ← w.get "ok" Value.bool?)
  return fun s => (verdicts.lookup s).getD false

/-- What the texts of settings files come to. One that is not listed is malformed. -/
def documentTable? (v : Value) : Option Settings.DocumentReader := do
  let documents ← (← v.items?).mapM fun w => do
    return (← w.get "source" Value.text?, ← w.get "data" Value.entries?)
  return fun s => (documents.lookup s).elim (.error (.malformedDocument "nothing is known of this text")) .ok

/-- What parsing each file comes to, by path and text. A file that is not listed cannot be parsed. -/
def factTable? (v : Value) : Option (String → String → Parsed) := do
  let parsed ← (← v.items?).mapM fun w => do
    return ((← w.get "path" Value.text?, ← w.get "source" Value.text?), ← w.get "facts" Parsed.ofValue?)
  return fun path source => (parsed.lookup (path, source)).getD (.malformed "nothing is known of this text")

/-- The catalog in a document given by its pairs or by its value; without either there is none. -/
def Catalog.ofValue? (v : Value) : Option Catalog := do
  match v with
  | .table [("pairs", pairs)] =>
    let pairs ← (← pairs.items?).mapM fun
      | .list [key, entry] => some (key, entry)
      | _ => none
    return .ofPairs pairs
  | .table [("value", document)] => return .ofDocument document
  | _ => return {}

/-- A job. -/
structure Job where
  files : FileTree
  surroundings : Surroundings

/-- The job in a document. -/
def Job.ofValue? (v : Value) : Option Job := do
  return {
    files := ← FileTree.ofValue? ((v.field? "files").getD .null)
    surroundings := {
      catalog := ((← v.getOpt "catalog" Catalog.ofValue?).getD .default)
      document := ← documentTable? ((v.field? "documents").getD .null)
      parse := ← factTable? ((v.field? "facts").getD .null)
      parses := ← parseTable? ((v.field? "parses").getD .null)
    }
  }

end TreeLint
