import Lexis.Alphabet.CodeRange

/-!
# Blanks

Blanks separate the lexemes of a line and mean nothing else. They are the Unicode white space
that allows a break, without the next-line control, and the four information separators.
-/

set_option autoImplicit false

namespace Lexis

open Alphabet

/-- The code points with the Unicode property White_Space. -/
def Alphabet.whiteSpaceRanges : Ranges :=
  [(0x0009, 0x000D), (0x0020, 0x0020), (0x0085, 0x0085), (0x00A0, 0x00A0), (0x1680, 0x1680),
   (0x2000, 0x200A), (0x2028, 0x2029), (0x202F, 0x202F), (0x205F, 0x205F), (0x3000, 0x3000)]
theorem Alphabet.whiteSpaceRanges_increasing : whiteSpaceRanges.Increasing := by
  decide

def isWhiteSpace (c : Char) : Bool :=
  whiteSpaceRanges.covers c.toNat

/-- The white space that is no blank: next line, and the three no-break spaces. -/
def Alphabet.bindingSpaces : List Nat :=
  [0x85, 0xA0, 0x2007, 0x202F]

/-- The information separators: file, group, record and unit. -/
def Alphabet.separatorRanges : Ranges :=
  [(0x1C, 0x1F)]

/-- Whether `c` is skipped between lexemes. -/
def isBlank (c : Char) : Bool :=
  separatorRanges.covers c.toNat ||
    (isWhiteSpace c && !bindingSpaces.contains c.toNat)

end Lexis
