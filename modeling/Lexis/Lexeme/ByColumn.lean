import Lexis.Lexeme.Classify

/-!
# Lexemes by their columns

The lexemes of a line, read by index. A lexeme begins at a column; a loop moves a column on while
the characters there belong to it; its text is the slice of the line between the two columns. A
slice that reaches out of the line does not exist (`slice?`), and neither does a lexeme that needs
it.
-/

set_option autoImplicit false

namespace Lexis

/-- The text from column `start` up to column `stop`. -/
def slice? (chars : List Char) (start stop : Nat) : Option String :=
  if start ≤ stop ∧ stop ≤ chars.length then some (String.ofList ((chars.take stop).drop start))
  else none

/-- The next column whose character does not pass the test, or the end of the line. -/
def passWhile (test : Char → Bool) (chars : List Char) (column : Nat) : Nat :=
  if _h : column < chars.length then
    if test chars[column] then passWhile test chars (column + 1) else column
  else column
termination_by chars.length - column

/-- The column behind digits and one dot at most, and whether the dot was there. -/
def passNumber (chars : List Char) (seenDot : Bool) (column : Nat) : Bool × Nat :=
  if _h : column < chars.length then
    if chars[column] = '.' then
      if seenDot then (seenDot, column) else passNumber chars true (column + 1)
    else if chars[column].isDigit then passNumber chars seenDot (column + 1)
    else (seenDot, column)
  else (seenDot, column)
termination_by chars.length - column

namespace Lexeme

/-- A word that begins at column `start`, and the column behind it. -/
def wordAt (chars : List Char) (start : Nat) : Option (Lexeme × Nat) :=
  let stop := passWhile isWordChar chars start
  (slice? chars start stop).map fun text =>
    let verdict :=
      match Kind.ofReservedWord? text with
      | some kind => .ok kind
      | none =>
        if text.toList.head?.any isLowercase then .ok .identifier else .error .invalidIdentifier
    (⟨verdict, text⟩, stop)

def numberAt (chars : List Char) (start : Nat) : Option (Lexeme × Nat) :=
  let passed := passNumber chars false start
  (slice? chars start passed.2).map fun text =>
    (⟨.ok (.literal (if passed.1 then .real else .integer)), text⟩, passed.2)

/-- A string is cut without its quotes, and with its first one if there is no other. -/
def quotedAt (chars : List Char) (start : Nat) : Option (Lexeme × Nat) :=
  let stop := passWhile (· != '"') chars (start + 1)
  if chars[stop]?.isSome then
    (slice? chars (start + 1) stop).map fun text => (⟨.ok (.literal .string), text⟩, stop + 1)
  else
    (slice? chars start chars.length).map fun text =>
      (⟨.error .unterminatedString, text⟩, chars.length)

/-- The kind and the width of a symbol that begins with `first`, before the character `next`. -/
def symbol? (first : Char) (next : Option Char) : Option (Kind × Nat) :=
  let alone := (Kind.ofSymbol? (String.ofList [first])).map (·, 1)
  if next = some '=' then
    match Kind.ofSymbol? (String.ofList [first, '=']) with
    | some kind => some (kind, 2)
    | none => alone
  else alone

def symbolAt (chars : List Char) (start : Nat) (first : Char) : Option (Lexeme × Nat) :=
  match symbol? first chars[start + 1]? with
  | some (kind, width) =>
    (slice? chars start (start + width)).map fun text => (⟨.ok kind, text⟩, start + width)
  | none => some (⟨.error .unknownSymbol, String.ofList [first]⟩, start + 1)

/-- The lexeme whose first character stands at column `start`, and the column behind it. -/
def at? (chars : List Char) (start : Nat) (first : Char) : Option (Lexeme × Nat) :=
  match Shape.of first with
  | .word => wordAt chars start
  | .number => numberAt chars start
  | .quoted => quotedAt chars start
  | .symbol => symbolAt chars start first

end Lexeme

end Lexis
