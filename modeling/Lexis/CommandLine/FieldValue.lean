import Lexis.Pattern.Reading

/-!
# Values of fields

A filter may ask for the value that a field has: for a number, or for any value that matches a
pattern. Which texts are neither is all that matters here, for no event's value is ever looked at.
-/

set_option autoImplicit false

namespace Lexis.CommandLine

/-- Whether a text is one digit or more. -/
def areDigits (text : List Char) : Bool :=
  !text.isEmpty && text.all Char.isDigit

/-- What may follow the digits of a number: nothing, or an exponent. -/
def isExponent : List Char → Bool
  | [] => true
  | e :: rest =>
    (e = 'e' || e = 'E') &&
      match rest with
      | [] => false
      | sign :: digits => areDigits (if sign = '+' ∨ sign = '-' then digits else rest)

/-- Whether a text is decimal digits, perhaps with a point among or beside them and an exponent
behind them. -/
def isDecimal (text : List Char) : Bool :=
  let whole := text.takeWhile Char.isDigit
  let behind := text.drop whole.length
  if behind.head? = some '.' then
    let fraction := behind.tail.takeWhile Char.isDigit
    !(whole.isEmpty && fraction.isEmpty) && isExponent (behind.tail.drop fraction.length)
  else !whole.isEmpty && isExponent behind

/-- The numbers that have a name, in small letters. -/
def numberNames : List String :=
  ["inf", "infinity", "nan"]

/-- Whether a text is a number: a decimal or a name, with or without a sign. -/
def isNumber (text : List Char) : Bool :=
  let unsigned := if text.head? = some '+' ∨ text.head? = some '-' then text.tail else text
  isDecimal unsigned || numberNames.contains (String.ofList (unsigned.map Char.toLower))

/-- Whether a filter can ask for a value. -/
def isFieldValue (text : List Char) : Bool :=
  isNumber text || isPattern text

end Lexis.CommandLine
