/-
The command line: a command with its arguments, and before it how much to log.
-/
namespace TreeLint

/-- What to do. -/
inductive Command
  /-- Reports the findings in files, as lines or as a JSON document. -/
  | check (paths : List String) (asJson : Bool)
  /-- Carries out the fixes in files. -/
  | fix (paths : List String)
  /-- Lists the enabled rules. -/
  | rules
  /-- Tells about a rule. -/
  | explain (rule : String)
deriving DecidableEq

/-- A command, and whether to log everything. -/
structure Arguments where
  verbose : Bool
  command : Command
deriving DecidableEq

namespace Arguments

/-- The value of an option that is written in one argument with it. -/
def attached? (option argument : String) : Option String :=
  if (option ++ "=").toList.isPrefixOf argument.toList then
    some (String.ofList (argument.toList.drop (option.length + 1)))
  else none

/-- Whether an argument is an option. -/
def isOption (argument : String) : Bool :=
  argument.toList.head? = some '-' && argument ≠ "-"

/-- The arguments that are no options and the last format asked for. After two dashes nothing is an
option. -/
def split (format : String) : List String → Option (List String × String)
  | [] => some ([], format)
  | "--" :: rest => some (rest, format)
  | "--format" :: value :: rest => split value rest
  | argument :: rest =>
    match attached? "--format" argument with
    | some value => split value rest
    | none =>
      if isOption argument then none
      else (split format rest).map fun (paths, format) => (argument :: paths, format)

/-- The arguments of a command without options. -/
def plain : List String → Option (List String)
  | [] => some []
  | "--" :: rest => some rest
  | argument :: rest => if isOption argument then none else (plain rest).map (argument :: ·)

/-- The command with its arguments. -/
def command? : List String → Option Command
  | "check" :: rest => (split "text" rest).map fun (paths, format) => .check paths (format = "json")
  | "fix" :: rest => (plain rest).map .fix
  | "rules" :: rest => if plain rest = some [] then some .rules else none
  | "explain" :: rest =>
    match plain rest with
    | some [rule] => some (.explain rule)
    | _ => none
  | _ => none

/-- Whether an argument asks to log everything; the short option may be repeated behind its dash. -/
def isVerbose (argument : String) : Bool :=
  argument = "--verbose" ||
    match argument.toList with
    | '-' :: 'v' :: more => more.all (· = 'v')
    | _ => false

/-- What is asked for; nothing if the command line is malformed. Two dashes may stand in front of
the command. -/
def parse? : List String → Option Arguments
  | [] => none
  | argument :: rest =>
    if isVerbose argument then (parse? rest).map fun a => { a with verbose := true }
    else
      (command? (if argument = "--" then rest else argument :: rest)).map fun command =>
        { verbose := false, command }

end Arguments

end TreeLint
