import Lexis.Token.Display
import Lexis.Token.Json
import Lexis.Scan.Token
import Lexis.CommandLine.Arguments
import Lexis.CommandLine.Help
import Lexis.CommandLine.LogLine

/-!
# Reports

The answer of the command: an exit status, two texts and a log. A scan is reported token by
token, between rules when the tokens are shown as text, and with a summary at the end. The
summary of a JSON report goes to the second text, so that the first holds tokens only. A file that
cannot be read to its end is reported without a summary.
-/

set_option autoImplicit false

namespace Lexis.CommandLine

structure Report where
  /-- Zero for a clean scan, 1 for lexical errors, 2 for what kept the scan from its end. -/
  exit : Nat
  stdout : String
  stderr : String
  log : List String
  deriving DecidableEq

def rule : String :=
  String.ofList (List.replicate 50 '-')

theorem rule_eq : rule = "--------------------------------------------------" := by
  decide +kernel

/-- What stands before the tokens. -/
def header (options : Options) : List String :=
  match options.format with
  | .text =>
    if options.quiet then [] else ["Starting lexical analysis of: " ++ options.file, rule]
  | .json => []

def tokenLine (format : Format) (token : Token) : String :=
  match format with
  | .text => token.display
  | .json => token.toRecord

/-- The lines of the tokens, none when the command is to be quiet. -/
def tokenLines (options : Options) (tokens : List Token) : List String :=
  if options.quiet then [] else tokens.map (tokenLine options.format)

/-- What stands between the tokens and the summary. -/
def footer (options : Options) : List String :=
  match options.format with
  | .text => if options.quiet then [] else [rule]
  | .json => []

def summary (tokens errors : Nat) : List String :=
  ("Lexical analysis finished: " ++ Nat.repr tokens ++ " tokens") ::
    if errors = 0 then [] else [Nat.repr errors ++ " lexical error(s) found"]

/-- What is said about a file that cannot be read. -/
def failureLine (options : Options) (error : IoError) : String :=
  "Error: failed to read '" ++ options.file ++ "': " ++ error.message ++ ": " ++ error.text

/-- The report of a scan that a failure has ended after `shown` lines. -/
def failureReport (options : Options) (filter : LogFilter) (shown : List String)
    (error : IoError) (events : Array Event) : Report :=
  ⟨2, unlines shown, unlines [failureLine options error], logLines filter events⟩

/-- The report of a run. -/
def runReport (options : Options) (filter : LogFilter) (run : Scan.Run FileLines) : Report :=
  let shown := header options ++ tokenLines options run.tokens
  match run.failure with
  | some error => failureReport options filter shown error run.scan.events
  | none =>
    let summary := summary run.tokens.length run.scan.diagnostics.size
    let exit := if run.scan.errorSeen then 1 else 0
    let log := logLines filter run.scan.events
    match options.format with
    | .text => ⟨exit, unlines (shown ++ footer options ++ summary), "", log⟩
    | .json => ⟨exit, unlines shown, unlines summary, log⟩

/-- The report of the scan of a file. -/
def scanReport (options : Options) (filter : LogFilter) (entry : FileEntry) : Report :=
  match FileLines.openAt options.file entry with
  | .error error => failureReport options filter [] error #[]
  | .ok lines =>
    match Scan.startFile lines with
    | .failed error _ events => failureReport options filter [] error events
    | .ready scan => runReport options filter scan.run

def refusalReport (refusal : Refusal) : Report :=
  ⟨2, "", unlines [refusal.message], []⟩

/-- What the command answers to `arguments`, with `setting` for its log and `entryAt` for what the
paths lead to. -/
def report (arguments : List String) (setting : Option String) (entryAt : String → FileEntry) :
    Report :=
  match parseArguments arguments with
  | .error refusal => refusalReport refusal
  | .ok (.help long) => ⟨0, if long then longHelp else shortHelp, "", []⟩
  | .ok .version => ⟨0, versionLine, "", []⟩
  | .ok (.scan options) =>
    scanReport options (.choose setting options.verbose) (entryAt options.file)

end Lexis.CommandLine
