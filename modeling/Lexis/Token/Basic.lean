import Lexis.Token.Kind
import Lexis.Token.Fingerprint

/-!
# Tokens

A token is a kind, a text and the number of the line it stands on. The text is what the source
has, for a string without its quotes.
-/

set_option autoImplicit false

namespace Lexis

structure Token where
  kind : Kind
  lexeme : String
  /-- Counted from 1. -/
  line : Nat
  deriving DecidableEq

namespace Token

/-- The end of the input, as a token of the line it was found on. -/
def eof (line : Nat) : Token :=
  ⟨.eof, "EOF", line⟩

def isEof (token : Token) : Bool :=
  token.kind = .eof

def isError (token : Token) : Bool :=
  token.kind = .error

def fingerprint (token : Token) : Int32 :=
  Lexis.fingerprint token.lexeme

@[simp] theorem isEof_eof (line : Nat) : (eof line).isEof = true := by
  simp [isEof, eof]

end Token

end Lexis
