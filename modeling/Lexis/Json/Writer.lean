import Lexis.Json.Quoted

/-!
# Writing JSON text

Objects are written compactly, with their members in the order in which they are given.
-/

set_option autoImplicit false

namespace Lexis.Json

/-- The text of a natural number. -/
def natural (n : Nat) : List Char :=
  Nat.toDigits 10 n

/-- The text of an integer. -/
def integer (i : Int) : List Char :=
  if i < 0 then '-' :: natural i.natAbs else natural i.natAbs

/-- A name and the text of its value. -/
def member (name : String) (value : List Char) : List Char :=
  quoted name.toList ++ ':' :: value

/-- An object with the given names and texts of values. -/
def object (members : List (String × List Char)) : List Char :=
  '{' :: List.intercalate [','] (members.map fun m => member m.1 m.2) ++ ['}']

end Lexis.Json
