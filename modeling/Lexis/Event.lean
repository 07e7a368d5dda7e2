import Lexis.Diagnostic

/-!
# Events

What a scan reports about its course: the file it opened, the lines it took up, the end of the
input, and each lexical error. Events are graded by level, so that a log can leave the finer ones
out.
-/

set_option autoImplicit false

namespace Lexis

/-- Levels of detail, from grave to fine. -/
inductive Level
  | error | warn | info | debug | trace
  deriving DecidableEq

namespace Level

def all : List Level :=
  [error, warn, info, debug, trace]

def name : Level → String
  | error => "ERROR"
  | warn => "WARN"
  | info => "INFO"
  | debug => "DEBUG"
  | trace => "TRACE"

/-- How fine a level is. -/
def detail : Level → Nat
  | error => 1
  | warn => 2
  | info => 3
  | debug => 4
  | trace => 5

end Level

inductive Event
  | fileOpened (path : String)
  /-- The first line has been asked for; `empty` when there is none. -/
  | ready (empty : Bool)
  | lineLoaded (line : Nat)
  | inputEnded (line : Nat)
  | lexicalError (diagnostic : Diagnostic)
  deriving DecidableEq

namespace Event

/-- The value of a field of an event. -/
inductive Value
  | path (text : String)
  | flag (value : Bool)
  | number (value : Nat)
  | text (value : String)
  deriving DecidableEq

/-- The part of the program that reports events. -/
def origin : String :=
  "gyh::lexer::scanner"

def level : Event → Level
  | fileOpened _ => .debug
  | ready _ => .debug
  | lineLoaded _ => .trace
  | inputEnded _ => .trace
  | lexicalError _ => .warn

def message : Event → String
  | fileOpened _ => "opened source file"
  | ready _ => "scanner ready"
  | lineLoaded _ => "line loaded"
  | inputEnded _ => "end of input"
  | lexicalError diagnostic => diagnostic.message

/-- The fields of an event in the order in which they are shown. -/
def fields : Event → List (String × Value)
  | fileOpened path => [("path", .path path)]
  | ready empty => [("empty", .flag empty)]
  | lineLoaded line => [("line", .number line)]
  | inputEnded line => [("line", .number line)]
  | lexicalError diagnostic =>
    [("line", .number diagnostic.line), ("lexeme", .text diagnostic.lexeme)]

/-- The names under which an event has something to show; the message is one of them. -/
def fieldNames (event : Event) : List String :=
  "message" :: event.fields.map Prod.fst

end Event

end Lexis
