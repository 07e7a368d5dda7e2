/-!
# Fingerprints

The fingerprint of a text is the polynomial in 31 over its UTF-16 units, first unit highest, in
32-bit words that wrap around. Characters above U+FFFF count as two units.
-/

set_option autoImplicit false

namespace Lexis

/-- The UTF-16 units of a character: itself, or a surrogate pair. -/
def utf16Units (c : Char) : List Nat :=
  if c.toNat < 0x10000 then [c.toNat]
  else [0xD800 + (c.toNat - 0x10000) / 0x400, 0xDC00 + (c.toNat - 0x10000) % 0x400]

/-- One more unit at the low end of a fingerprint. -/
def extendFingerprint (hash : Int32) (unit : Nat) : Int32 :=
  hash * 31 + Int32.ofNat unit

def fingerprint (text : String) : Int32 :=
  (text.toList.flatMap utf16Units).foldl extendFingerprint 0

theorem fingerprint_append (a b : String) :
    fingerprint (a ++ b) =
      (b.toList.flatMap utf16Units).foldl extendFingerprint (fingerprint a) := by
  simp [fingerprint, List.flatMap_append, List.foldl_append]

end Lexis
