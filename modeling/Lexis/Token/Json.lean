import Lexis.Token.Basic
import Lexis.Json.Writer

/-!
# Tokens as JSON text

A token is written as an object with its kind, lexeme and line; a record of a token has the
fingerprint besides. A kind is written as its name.
-/

set_option autoImplicit false

namespace Lexis

namespace Kind

def jsonText (kind : Kind) : List Char :=
  Json.quoted kind.name.toList

/-- The JSON text of a kind. -/
def toJson (kind : Kind) : String :=
  .ofList kind.jsonText

end Kind

namespace Token

def jsonMembers (token : Token) : List (String × List Char) :=
  [("kind", token.kind.jsonText),
   ("lexeme", Json.quoted token.lexeme.toList),
   ("line", Json.natural token.line)]

def jsonText (token : Token) : List Char :=
  Json.object token.jsonMembers

def recordText (token : Token) : List Char :=
  Json.object (token.jsonMembers ++ [("fingerprint", Json.integer token.fingerprint.toInt)])

/-- The JSON text of a token. -/
def toJson (token : Token) : String :=
  .ofList token.jsonText

/-- The JSON text of a token with its fingerprint. -/
def toRecord (token : Token) : String :=
  .ofList token.recordText

end Token

end Lexis
