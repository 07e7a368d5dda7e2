import Lexis.Alphabet.Lowercase
import Lexis.Token.ReservedWord
import Lexis.Token.Symbol
import Lexis.Diagnostic
import Lexis.Lexeme.Cut

/-!
# What a lexeme is

The characters of a lexeme decide alone what it is: a token of some kind, or a lexical error. The
text that is handed on is the lexeme itself, for a closed string what stands between its quotes.
-/

set_option autoImplicit false

namespace Lexis

structure Lexeme where
  /-- The kind of the lexeme, or why it has none. -/
  verdict : Except Diagnostic.Cause Kind
  text : String

namespace Lexeme

/-- A word is reserved, or a name when it begins with a lowercase letter. -/
def classifyWord (first : Char) (word : String) : Except Diagnostic.Cause Kind :=
  match Kind.ofReservedWord? word with
  | some kind => .ok kind
  | none => if isLowercase first then .ok .identifier else .error .invalidIdentifier

/-- A dot makes a number real. -/
def classifyNumber (body : List Char) : Literal :=
  if body.contains '.' then .real else .integer

def classifySymbol (text : String) : Except Diagnostic.Cause Kind :=
  match Kind.ofSymbol? text with
  | some kind => .ok kind
  | none => .error .unknownSymbol

/-- The lexeme that consists of `first` and `body`. -/
def classify (first : Char) (body : List Char) : Lexeme :=
  let text := String.ofList (first :: body)
  match Shape.of first with
  | .word => ⟨classifyWord first text, text⟩
  | .number => ⟨.ok (.literal (classifyNumber body)), text⟩
  | .quoted =>
    if body.getLast? = some '"' then ⟨.ok (.literal .string), String.ofList body.dropLast⟩
    else ⟨.error .unterminatedString, text⟩
  | .symbol => ⟨classifySymbol text, text⟩

end Lexeme

end Lexis
