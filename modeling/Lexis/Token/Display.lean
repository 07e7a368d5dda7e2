import Lexis.Token.Basic

/-!
# The text form of a token

A token is shown on one line between angle brackets: the kind, the lexeme between quotes and as
it is, the line and the fingerprint.
-/

set_option autoImplicit false

namespace Lexis

/-- The text form of a token. -/
def Token.display (token : Token) : String :=
  "<" ++ token.kind.name ++ ", \"" ++ token.lexeme ++ "\", line: " ++ Nat.repr token.line ++
    ", fingerprint: " ++ Int.repr token.fingerprint.toInt ++ ">"

end Lexis
