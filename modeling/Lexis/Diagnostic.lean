/-!
# Diagnostics

A lexical error has a cause, the line it stands on and the text at fault. It never ends a scan:
it is reported, and the same text is handed out as an error token.
-/

set_option autoImplicit false

namespace Lexis

namespace Diagnostic

inductive Cause
  /-- A word that is not reserved and does not begin with a lowercase letter. -/
  | invalidIdentifier
  /-- A quote without a second one on its line. -/
  | unterminatedString
  /-- A character that begins no token. -/
  | unknownSymbol
  deriving DecidableEq

end Diagnostic

structure Diagnostic where
  cause : Diagnostic.Cause
  line : Nat
  lexeme : String
  deriving DecidableEq

/-- What a diagnostic tells the reader. -/
def Diagnostic.message (d : Diagnostic) : String :=
  match d.cause with
  | .invalidIdentifier =>
    "Invalid identifier \"" ++ d.lexeme ++ "\" at line " ++ Nat.repr d.line ++
      " (must start with a lowercase letter)"
  | .unterminatedString => "Unterminated string at line " ++ Nat.repr d.line ++ ": " ++ d.lexeme
  | .unknownSymbol => "Unknown symbol \"" ++ d.lexeme ++ "\" at line " ++ Nat.repr d.line

end Lexis
