/-!
# Places counted in bytes

The size of a text in bytes, each character in its UTF-8 encoding, and the cut of a text at a place
that is counted in bytes. A place within a character cuts nothing.
-/

set_option autoImplicit false

namespace Lexis

/-- The size of a text in bytes. -/
def byteSize : List Char → Nat
  | [] => 0
  | c :: s => c.utf8Size + byteSize s

/-- What stands before and what behind the first `n` bytes of a text. -/
def splitAtByte? : Nat → List Char → Option (List Char × List Char)
  | 0, s => some ([], s)
  | _ + 1, [] => none
  | n + 1, c :: s =>
    if c.utf8Size ≤ n + 1 then
      (splitAtByte? (n + 1 - c.utf8Size) s).map fun (before, behind) => (c :: before, behind)
    else none

end Lexis
