import Lexis.Alphabet.Blank
import Lexis.Alphabet.Letter

/-!
# Classes of characters that have nothing in common

The classes that decide how a line is read do not overlap: no letter and no digit is a blank
(`isBlank_of_isLetter`, `isBlank_of_isDigit`), and no digit is a letter (`isLetter_of_isDigit`).
Two increasing tables of ranges are compared range by range (`Ranges.Apart`).
-/

set_option autoImplicit false

namespace Lexis

open Alphabet

namespace Alphabet.Ranges

/-- No range of one table meets a range of the other. -/
def Apart (a b : Ranges) : Prop :=
  ∀ r ∈ a, ∀ s ∈ b, r.2 < s.1 ∨ s.2 < r.1

instance (a b : Ranges) : Decidable (Apart a b) :=
  inferInstanceAs (Decidable (∀ r ∈ a, ∀ s ∈ b, r.2 < s.1 ∨ s.2 < r.1))

theorem covers_eq_false_of_apart {a b : Ranges} (ha : a.Increasing) (hb : b.Increasing)
    (hapart : a.Apart b) {n : Nat} (hn : a.covers n = true) : b.covers n = false := by
  cases h : b.covers n with
  | false => rfl
  | true =>
    obtain ⟨r, hr, hr1, hr2⟩ := (covers_iff ha n).1 hn
    obtain ⟨s, hs, hs1, hs2⟩ := (covers_iff hb n).1 h
    rcases hapart r hr s hs with h | h <;> omega

end Alphabet.Ranges

/-- The code points of the ten digits. -/
def Alphabet.digitRanges : Ranges :=
  [(0x30, 0x39)]

theorem covers_digitRanges (c : Char) : digitRanges.covers c.toNat = c.isDigit := by
  have h : c.isDigit = true ↔ 48 ≤ c.toNat ∧ c.toNat ≤ 57 := by
    simp only [Char.isDigit, Bool.and_eq_true, decide_eq_true_eq, Char.toNat, UInt32.le_iff_toNat_le,
      ge_iff_le]
    exact Iff.rfl
  rw [Bool.eq_iff_iff, h]
  simp only [digitRanges, Ranges.covers]
  split
  · simp; omega
  · split <;> simp <;> omega

/-! ## Tables -/

theorem Alphabet.separatorRanges_increasing : separatorRanges.Increasing := by
  decide

theorem Alphabet.digitRanges_increasing : digitRanges.Increasing := by
  decide

set_option maxRecDepth 4000 in
theorem Alphabet.letterRanges_apart_whiteSpaceRanges : letterRanges.Apart whiteSpaceRanges := by
  decide +kernel

set_option maxRecDepth 4000 in
theorem Alphabet.letterRanges_apart_separatorRanges : letterRanges.Apart separatorRanges := by
  decide +kernel

set_option maxRecDepth 4000 in
theorem Alphabet.digitRanges_apart_letterRanges : digitRanges.Apart letterRanges := by
  decide +kernel

/-! ## Characters -/

/-- What is neither white space nor a separator is no blank. -/
theorem isBlank_eq_false {c : Char} (hwhite : whiteSpaceRanges.covers c.toNat = false)
    (hsep : separatorRanges.covers c.toNat = false) : isBlank c = false := by
  simp [isBlank, isWhiteSpace, hwhite, hsep]

theorem isBlank_of_isLetter {c : Char} (h : isLetter c = true) : isBlank c = false :=
  isBlank_eq_false
    (Ranges.covers_eq_false_of_apart letterRanges_increasing whiteSpaceRanges_increasing
      letterRanges_apart_whiteSpaceRanges h)
    (Ranges.covers_eq_false_of_apart letterRanges_increasing separatorRanges_increasing
      letterRanges_apart_separatorRanges h)

theorem isBlank_of_isDigit {c : Char} (h : c.isDigit = true) : isBlank c = false := by
  rw [← covers_digitRanges] at h
  exact isBlank_eq_false
    (Ranges.covers_eq_false_of_apart digitRanges_increasing whiteSpaceRanges_increasing
      (by decide) h)
    (Ranges.covers_eq_false_of_apart digitRanges_increasing separatorRanges_increasing
      (by decide) h)

theorem isLetter_of_isDigit {c : Char} (h : c.isDigit = true) : isLetter c = false := by
  rw [← covers_digitRanges] at h
  exact Ranges.covers_eq_false_of_apart digitRanges_increasing letterRanges_increasing
    digitRanges_apart_letterRanges h

end Lexis
