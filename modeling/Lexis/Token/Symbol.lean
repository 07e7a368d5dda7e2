import Lexis.Token.Kind

/-!
# Symbols

The operators and delimiters that are written with one or two signs.
-/

set_option autoImplicit false

namespace Lexis

/-- The symbols of the language with their kinds. -/
def symbols : List (String × Kind) :=
  [("[", .delimiter .leftBracket),
   ("]", .delimiter .rightBracket),
   ("(", .delimiter .leftParen),
   (")", .delimiter .rightParen),
   (":", .delimiter .colon),
   (":=", .operator .assign),
   ("*", .operator .star),
   ("/", .operator .slash),
   ("+", .operator .plus),
   ("-", .operator .minus),
   ("<", .operator .less),
   ("<=", .operator .lessEqual),
   (">", .operator .greater),
   (">=", .operator .greaterEqual),
   ("==", .operator .equalEqual),
   ("!=", .operator .notEqual)]

/-- The kind of a symbol, `none` for any other text. -/
def Kind.ofSymbol? (text : String) : Option Kind :=
  symbols.lookup text

end Lexis
