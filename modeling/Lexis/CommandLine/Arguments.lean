import Lexis.CommandLine.PlainText

/-!
# Arguments

The command takes one file and a few options, in any order; a double dash ends the options.
Options may be long (`--quiet`) or short (`-q`), and short ones may stand together (`-qv`). The
format takes a value, behind an equals sign or as the next argument.

Arguments are read from left to right up to the first refusal, or to a question (help or version)
that is answered instead. A value that is given as an argument of its own is not looked at before
the next known option or operand, so that an unknown option behind it is refused first.
-/

set_option autoImplicit false

namespace Lexis.CommandLine

/-- How tokens are shown. -/
inductive Format
  | text | json
  deriving DecidableEq

def Format.ofName? (name : String) : Option Format :=
  if name = "text" then some .text else if name = "json" then some .json else none

/-- What a scan is asked to do. -/
structure Options where
  file : String
  format : Format
  verbose : Bool
  quiet : Bool
  deriving DecidableEq

/-- What the command is asked for. -/
inductive Request
  | help (long : Bool)
  | version
  | scan (options : Options)
  deriving DecidableEq

/-- The arguments that can be named in a refusal. -/
inductive Argument
  | file | format | verbose | quiet | help | version
  deriving DecidableEq

def Argument.display : Argument → String
  | file => "<FILE>"
  | format => "--format <FORMAT>"
  | verbose => "--verbose"
  | quiet => "--quiet"
  | help => "--help"
  | version => "--version"

/-- Why arguments are refused. -/
inductive Refusal
  | missingFile
  | unexpected (argument : String)
  | invalidFormat (value : String)
  | missingValue (argument : Argument)
  | repeated (argument : Argument)
  | needlessValue (value : String) (argument : Argument)
  deriving DecidableEq

/-- The text of a refusal, in which what the user has given is shown plain. -/
def Refusal.message : Refusal → String
  | missingFile => "error: the following required arguments were not provided:"
  | unexpected argument => "error: unexpected argument '" ++ plainText argument ++ "' found"
  | invalidFormat value =>
    "error: invalid value '" ++ plainText value ++ "' for '" ++ Argument.format.display ++ "'"
  | missingValue argument =>
    "error: a value is required for '" ++ argument.display ++ "' but none was supplied"
  | repeated argument =>
    "error: the argument '" ++ argument.display ++ "' cannot be used multiple times"
  | needlessValue value argument =>
    "error: unexpected value '" ++ plainText value ++ "' for '" ++ argument.display ++
      "' found; no more were expected"

/-- The options that take no value. -/
inductive Flag
  | verbose | quiet | help | version
  deriving DecidableEq

namespace Flag

def ofLong? (name : String) : Option Flag :=
  if name = "verbose" then some verbose
  else if name = "quiet" then some quiet
  else if name = "help" then some help
  else if name = "version" then some version
  else none

def ofShort? (letter : Char) : Option Flag :=
  if letter = 'v' then some verbose
  else if letter = 'q' then some quiet
  else if letter = 'h' then some help
  else if letter = 'V' then some version
  else none

def argument : Flag → Argument
  | verbose => .verbose
  | quiet => .quiet
  | help => .help
  | version => .version

end Flag

/-- An argument whose value has not been looked at. -/
inductive Pending
  | file (value : String)
  /-- The format, `none` while its value has not come. -/
  | format (value : Option String)
  deriving DecidableEq

/-- What the arguments so far have said. -/
structure Progress where
  file : Option String
  format : Option Format
  verbose : Bool
  quiet : Bool
  pending : Option Pending
  /-- A double dash has been met. -/
  operandsOnly : Bool

/-- What one more argument leads to. -/
inductive Step
  | next (progress : Progress)
  | answered (request : Request)
  | refused (refusal : Refusal)

namespace Progress

def initial : Progress :=
  ⟨none, none, false, false, none, false⟩

/-- The value of the format, given by name. -/
def setFormat (progress : Progress) (value : String) : Except Refusal Progress :=
  if progress.format.isSome then .error (.repeated .format)
  else if value = "" then .error (.missingValue .format)
  else
    match Format.ofName? value with
    | some format => .ok { progress with format := some format }
    | none => .error (.invalidFormat value)

/-- Looks at the value that is pending, if any. -/
def settle (progress : Progress) : Except Refusal Progress :=
  let settled := { progress with pending := none }
  match progress.pending with
  | none => .ok settled
  | some (.file value) =>
    if value = "" then .error (.missingValue .file)
    else .ok { settled with file := some value }
  | some (.format none) => .error (.missingValue .format)
  | some (.format (some value)) => settled.setFormat value

/-- Settles what is pending and goes on. -/
def settleThen (progress : Progress) (go : Progress → Step) : Step :=
  match progress.settle with
  | .ok progress => go progress
  | .error refusal => .refused refusal

def takeFlag (progress : Progress) (flag : Flag) : Step :=
  progress.settleThen fun progress =>
    match flag with
    | .help => .answered (.help false)
    | .version => .answered .version
    | .verbose =>
      if progress.verbose then .refused (.repeated .verbose)
      else .next { progress with verbose := true }
    | .quiet =>
      if progress.quiet then .refused (.repeated .quiet)
      else .next { progress with quiet := true }

/-- Short options that stand together. -/
def takeShort (progress : Progress) : List Char → Step
  | [] => .next progress
  | letter :: letters =>
    match Flag.ofShort? letter with
    | none => .refused (.unexpected ("-" ++ String.ofList [letter]))
    | some flag =>
      match progress.takeFlag flag with
      | .next progress => progress.takeShort letters
      | stopped => stopped

/-- A long option, with the value behind its equals sign. Asking for help at length has a longer
answer. -/
def takeLong (progress : Progress) (name : String) (value : Option String) : Step :=
  if name = "format" then
    progress.settleThen fun progress =>
      match value with
      | none => .next { progress with pending := some (.format none) }
      | some value =>
        match progress.setFormat value with
        | .ok progress => .next progress
        | .error refusal => .refused refusal
  else
    match Flag.ofLong? name, value with
    | none, _ => .refused (.unexpected ("--" ++ name))
    | some flag, some value => .refused (.needlessValue value flag.argument)
    | some flag, none =>
      match progress.takeFlag flag with
      | .answered (.help _) => .answered (.help true)
      | step => step

/-- The file, which may be given once. -/
def takeOperand (progress : Progress) (operand : String) : Step :=
  let taken : Bool :=
    match progress.pending with
    | some (.file _) => true
    | _ => progress.file.isSome
  if taken then .refused (.unexpected operand)
  else progress.settleThen fun progress =>
    .next { progress with pending := some (.file operand) }

/-- The next argument, when it is no option. -/
def takeValue (progress : Progress) (value : String) : Step :=
  match progress.pending with
  | some (.format none) => .next { progress with pending := some (.format (some value)) }
  | _ => progress.takeOperand value

/-- One argument. -/
def take (progress : Progress) (argument : String) : Step :=
  if progress.operandsOnly then progress.takeOperand argument
  else
    match argument.toList with
    | '-' :: '-' :: [] => .next { progress with operandsOnly := true }
    | '-' :: '-' :: long =>
      let value :=
        match long.dropWhile (· != '=') with
        | [] => none
        | _ :: value => some (String.ofList value)
      progress.takeLong (String.ofList (long.takeWhile (· != '='))) value
    | '-' :: letter :: letters => progress.takeShort (letter :: letters)
    | _ => progress.takeValue argument

/-- The end of the arguments. -/
def finish (progress : Progress) : Except Refusal Request :=
  match progress.settle with
  | .error refusal => .error refusal
  | .ok progress =>
    match progress.file with
    | none => .error .missingFile
    | some file =>
      .ok (.scan ⟨file, progress.format.getD .text, progress.verbose, progress.quiet⟩)

def parseFrom (progress : Progress) : List String → Except Refusal Request
  | [] => progress.finish
  | argument :: arguments =>
    match progress.take argument with
    | .next progress => progress.parseFrom arguments
    | .answered request => .ok request
    | .refused refusal => .error refusal

end Progress

/-- What the arguments ask for. -/
def parseArguments (arguments : List String) : Except Refusal Request :=
  Progress.initial.parseFrom arguments

end Lexis.CommandLine
