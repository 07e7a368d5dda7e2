import Lexis.Token.Basic
import Lexis.Lexeme.Cursor
import Lexis.Supply.FileLines
import Lexis.Event

/-!
# A scan in progress

A scan holds its supply, the line it reads with a cursor in it, and what it has found so far. It
begins with the first line of the supply, line 1; when the supply has no line left there is no
cursor any more.
-/

set_option autoImplicit false

namespace Lexis

structure Scan (σ : Type) where
  supply : σ
  /-- The place in the current line, `none` when the input has run out. -/
  cursor : Option Cursor
  /-- Counted from 1; finding the end of the input counts too. -/
  lineNumber : Nat
  /-- Set by the first lexical error. -/
  errorSeen : Bool
  /-- The lexical errors in the order in which they were met. -/
  diagnostics : Array Diagnostic
  events : Array Event

/-- How the beginning of a scan ends. -/
inductive Opening (σ : Type)
  | ready (scan : Scan σ)
  /-- The first line could not be read. -/
  | failed (error : IoError) (supply : σ) (events : Array Event)

namespace Scan

variable {σ : Type}

/-- The column of the cursor, 0 when the input has run out. -/
def column (scan : Scan σ) : Nat :=
  match scan.cursor with
  | some cursor => cursor.column
  | none => 0

def exhausted (scan : Scan σ) : Bool :=
  scan.cursor.isNone

/-- A scan on its first line, or at the end of an empty input. -/
def onFirstLine (supply : σ) (line : Option String) (events : Array Event) : Scan σ :=
  { supply
    cursor := line.map .ofLine
    lineNumber := 1
    errorSeen := false
    diagnostics := #[]
    events := events.push (.ready line.isNone) }

/-- The scan after `supply` has answered a pull with a line. -/
def enterLine (scan : Scan σ) (line : String) (supply : σ) : Scan σ :=
  { scan with
    supply
    cursor := some (.ofLine line)
    lineNumber := scan.lineNumber + 1
    events := scan.events.push (.lineLoaded (scan.lineNumber + 1)) }

/-- The scan after `supply` has answered a pull with the end of the input. -/
def finish (scan : Scan σ) (supply : σ) : Scan σ :=
  { scan with
    supply
    cursor := none
    lineNumber := scan.lineNumber + 1
    events := scan.events.push (.inputEnded (scan.lineNumber + 1)) }

/-- The scan at `cursor` after `supply` has failed to answer. -/
def interrupt (scan : Scan σ) (cursor : Cursor) (supply : σ) : Scan σ :=
  { scan with supply, cursor := some cursor }

/-- The scan after a lexical error. -/
def report (scan : Scan σ) (diagnostic : Diagnostic) : Scan σ :=
  { scan with
    errorSeen := true
    diagnostics := scan.diagnostics.push diagnostic
    events := scan.events.push (.lexicalError diagnostic) }

/-- The token of a lexeme of the current line, and the scan behind it. -/
def accept (scan : Scan σ) (lexeme : Lexeme) (after : Cursor) : Token × Scan σ :=
  let moved := { scan with cursor := some after }
  match lexeme.verdict with
  | .ok kind => (⟨kind, lexeme.text, scan.lineNumber⟩, moved)
  | .error cause =>
    (⟨.error, lexeme.text, scan.lineNumber⟩, moved.report ⟨cause, scan.lineNumber, lexeme.text⟩)

theorem supply_accept (scan : Scan σ) (lexeme : Lexeme) (after : Cursor) :
    (scan.accept lexeme after).2.supply = scan.supply := by
  unfold accept
  dsimp only
  split <;> rfl

theorem cursor_accept (scan : Scan σ) (lexeme : Lexeme) (after : Cursor) :
    (scan.accept lexeme after).2.cursor = some after := by
  unfold accept
  dsimp only
  split <;> rfl

/-- Begins a scan by pulling the first line. -/
def start [LineSupply σ] (supply : σ) (events : Array Event := #[]) : Opening σ :=
  match LineSupply.pull supply with
  | (.line text, supply) => .ready (onFirstLine supply (some text) events)
  | (.finished, supply) => .ready (onFirstLine supply none events)
  | (.failed error, supply) => .failed error supply events

/-- The scan of a text in memory. -/
def ofText (text : String) : Scan TextLines :=
  let first := (TextLines.ofText text).next?
  onFirstLine first.2 first.1 #[]

/-- Begins the scan of an open file. -/
def startFile (lines : FileLines) : Opening FileLines :=
  start lines #[.fileOpened lines.path]

end Scan

end Lexis
