import Lexis.Lexeme.ByColumn
import Lexis.Scan.Basic

/-!
# A scan by columns

A scan whose place is an index into the current line, and whose calls are loops. Each turn of the
loop looks at one character (`turn`): it passes a blank, pulls the next line at the end of the line
or at a comment, or ends the call with a token. A turn that would slice the line out of its bounds
does not exist. Nothing is asked of the lines but how a pull is answered, so there may be no end of
them, and then a call may have no end either.

* `Runs`: a call for the next token ends, with this result.
* `RunsAll`: a call for all tokens ends, with this result.
-/

set_option autoImplicit false

namespace Lexis

structure IndexedScan (σ : Type) where
  supply : σ
  /-- The current line, `none` when the input has run out. -/
  line : Option (List Char)
  column : Nat
  lineNumber : Nat
  errorSeen : Bool
  diagnostics : Array Diagnostic
  events : Array Event

namespace IndexedScan

variable {σ : Type}

/-- What a turn of the loop comes to. -/
inductive Turn (σ : Type)
  | again (scan : IndexedScan σ)
  | done (result : Except IoError Token) (scan : IndexedScan σ)

/-- A scan on its first line, or at the end of an empty input. -/
def onFirstLine (supply : σ) (line : Option String) (events : Array Event) : IndexedScan σ :=
  { supply
    line := line.map String.toList
    column := 0
    lineNumber := 1
    errorSeen := false
    diagnostics := #[]
    events := events.push (.ready line.isNone) }

/-- The token of a lexeme of the current line, and the scan at the column behind it. -/
def accept (scan : IndexedScan σ) (lexeme : Lexeme) (stop : Nat) : Token × IndexedScan σ :=
  let moved := { scan with column := stop }
  match lexeme.verdict with
  | .ok kind => (⟨kind, lexeme.text, scan.lineNumber⟩, moved)
  | .error cause =>
    let diagnostic : Diagnostic := ⟨cause, scan.lineNumber, lexeme.text⟩
    (⟨.error, lexeme.text, scan.lineNumber⟩,
      { moved with
        errorSeen := true
        diagnostics := scan.diagnostics.push diagnostic
        events := scan.events.push (.lexicalError diagnostic) })

/-- The scan after a pull was answered with a line. The column begins again. -/
def enterLine (scan : IndexedScan σ) (text : String) (supply : σ) : IndexedScan σ :=
  { scan with
    supply
    line := some text.toList
    column := 0
    lineNumber := scan.lineNumber + 1
    events := scan.events.push (.lineLoaded (scan.lineNumber + 1)) }

/-- The scan after a pull was answered with the end of the input. -/
def finish (scan : IndexedScan σ) (supply : σ) : IndexedScan σ :=
  { scan with
    supply
    line := none
    column := 0
    lineNumber := scan.lineNumber + 1
    events := scan.events.push (.inputEnded (scan.lineNumber + 1)) }

section
variable (pull : σ → Pull × σ)

/-- Begins a scan by pulling the first line, unless the pull fails. -/
def start? (supply : σ) (events : Array Event) : Option (IndexedScan σ) :=
  match pull supply with
  | (.line text, supply) => some (onFirstLine supply (some text) events)
  | (.finished, supply) => some (onFirstLine supply none events)
  | (.failed _, _) => none

/-- Pulls the next line. A failure leaves the place as it is. -/
def advanceLine (scan : IndexedScan σ) : Turn σ :=
  match pull scan.supply with
  | (.line text, supply) => .again (scan.enterLine text supply)
  | (.finished, supply) => .again (scan.finish supply)
  | (.failed error, supply) => .done (.error error) { scan with supply }

/-- One turn of the loop. -/
def turn (scan : IndexedScan σ) : Option (Turn σ) :=
  match scan.line with
  | none => some (.done (.ok (.eof scan.lineNumber)) scan)
  | some chars =>
    match chars[scan.column]? with
    | none => some (scan.advanceLine pull)
    | some c =>
      if isBlank c then some (.again { scan with column := scan.column + 1 })
      else if c = '#' then some (scan.advanceLine pull)
      else
        (Lexeme.at? chars scan.column c).map fun found =>
          let accepted := scan.accept found.1 found.2
          .done (.ok accepted.1) accepted.2

inductive Runs : IndexedScan σ → Except IoError Token → IndexedScan σ → Prop
  | done {scan after : IndexedScan σ} {result : Except IoError Token}
      (h : scan.turn pull = some (.done result after)) : Runs scan result after
  | again {scan next after : IndexedScan σ} {result : Except IoError Token}
      (h : scan.turn pull = some (.again next)) (hruns : Runs next result after) :
    Runs scan result after

/-- The tokens before a failure are lost. -/
inductive RunsAll : IndexedScan σ → Except IoError (List Token) → IndexedScan σ → Prop
  | last {scan after : IndexedScan σ} {token : Token} (h : Runs pull scan (.ok token) after)
      (hend : token.isEof = true) : RunsAll scan (.ok [token]) after
  | failed {scan after : IndexedScan σ} {error : IoError}
      (h : Runs pull scan (.error error) after) : RunsAll scan (.error error) after
  | more {scan next after : IndexedScan σ} {token : Token} {result : Except IoError (List Token)}
      (h : Runs pull scan (.ok token) next) (hnot : token.isEof = false)
      (hall : RunsAll next result after) : RunsAll scan (result.map (token :: ·)) after

end

end IndexedScan

end Lexis
