import Lexis.CommandLine.Report

/-!
# Asking for a scan

An `Invocation` is any way to ask the command for the scan of a file: arguments that are read as
some options, a setting for the log, and a path that leads to the bytes. Every combination of
options can be asked for, for every file that has a name (`exists_invocation`): the file stands
behind a double dash, so that it is never taken for an option.
-/

set_option autoImplicit false

namespace Lexis.CommandLine

/-! ## Arguments for every request -/

def Format.name : Format → String
  | .text => "text"
  | .json => "json"

/-- Arguments that ask for a scan with these options. -/
def Options.arguments (options : Options) : List String :=
  (if options.verbose then ["--verbose"] else []) ++ (if options.quiet then ["--quiet"] else []) ++
    ["--format", options.format.name, "--", options.file]

namespace Progress

theorem parseFrom_flags (verbose quiet : Bool) (arguments : List String) :
    initial.parseFrom ((if verbose then ["--verbose"] else []) ++
        (if quiet then ["--quiet"] else []) ++ arguments) =
      (⟨none, none, verbose, quiet, none, false⟩ : Progress).parseFrom arguments := by
  cases verbose <;> cases quiet <;> rfl

/-- The format and, behind a double dash, the file. -/
theorem parseFrom_format (format : Format) {file : String} (hname : file ≠ "")
    (verbose quiet : Bool) :
    (⟨none, none, verbose, quiet, none, false⟩ : Progress).parseFrom
        ["--format", format.name, "--", file] =
      .ok (.scan ⟨file, format, verbose, quiet⟩) := by
  cases format <;>
    simp [parseFrom, take, takeLong, takeValue, takeOperand, settleThen, settle, setFormat, finish,
      Format.name, Format.ofName?, hname]

end Progress

/-- What is asked for is read as it was meant. -/
theorem parseArguments_arguments {options : Options} (hname : options.file ≠ "") :
    parseArguments options.arguments = .ok (.scan options) := by
  rw [parseArguments, Options.arguments, Progress.parseFrom_flags]
  exact Progress.parseFrom_format options.format hname options.verbose options.quiet

/-! ## Invocations -/

/-- The command is asked to scan a file with the given bytes. -/
structure Invocation (bytes : List UInt8) where
  arguments : List String
  /-- The setting for the log. -/
  setting : Option String
  entryAt : String → FileEntry
  options : Options
  parsed : parseArguments arguments = .ok (.scan options)
  entry : entryAt options.file = .file bytes

namespace Invocation

variable {bytes : List UInt8}

def report (call : Invocation bytes) : Report :=
  CommandLine.report call.arguments call.setting call.entryAt

def filter (call : Invocation bytes) : LogFilter :=
  .choose call.setting call.options.verbose

/-- The file as it is opened. -/
def lines (call : Invocation bytes) : FileLines :=
  ⟨call.options.file, .ok (.ofBytes bytes)⟩

theorem report_eq (call : Invocation bytes) :
    call.report = scanReport call.options call.filter (.file bytes) := by
  rw [report, CommandLine.report, call.parsed, ← call.entry]
  rfl

/-- The report of a file whose first line can be read is the report of a run. -/
theorem report_of_ready (call : Invocation bytes) {scan : Scan FileLines}
    (h : Scan.startFile call.lines = .ready scan) :
    call.report = runReport call.options call.filter scan.run := by
  rw [lines] at h
  rw [report_eq, scanReport]
  simp only [FileLines.openAt, h]

/-- The report of a file whose first line cannot be read. -/
theorem report_of_failed (call : Invocation bytes) {error : IoError} {rest : FileLines}
    {events : Array Event} (h : Scan.startFile call.lines = .failed error rest events) :
    call.report = failureReport call.options call.filter [] error events := by
  rw [lines] at h
  rw [report_eq, scanReport]
  simp only [FileLines.openAt, h]

end Invocation

/-- Every scan can be asked for. -/
theorem exists_invocation (bytes : List UInt8) {options : Options} (hname : options.file ≠ "")
    (setting : Option String) :
    ∃ call : Invocation bytes, call.options = options ∧ call.setting = setting :=
  ⟨⟨options.arguments, setting, fun _ => .file bytes, options, parseArguments_arguments hname, rfl⟩,
    rfl, rfl⟩

end Lexis.CommandLine
