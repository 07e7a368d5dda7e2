import Mathlib.Algebra.BigOperators.Fin
import Lexis.Token.Fingerprint

/-!
# Fingerprints as polynomials

The words wrap around at each unit, and still the fingerprint of a text is the signed residue of one
sum over its units (`toInt_fingerprint`): to take more units is to multiply by a power of 31 and to
add their own polynomial (`foldl_extendFingerprint`). As 31 has an inverse among the words, nothing
is lost when a text is put behind another one (`mul_power_inj`).
-/

set_option autoImplicit false

namespace Lexis

/-- The UTF-16 units of a text. -/
def textUnits (text : String) : List Nat :=
  text.toList.flatMap utf16Units

/-- The polynomial in 31, with the first unit as its highest coefficient. -/
def unitPolynomial (units : List Nat) : Nat :=
  ∑ i : Fin units.length, units.get i * 31 ^ (units.length - (i + 1))

theorem unitPolynomial_cons (unit : Nat) (units : List Nat) :
    unitPolynomial (unit :: units) = unit * 31 ^ units.length + unitPolynomial units := by
  simp [unitPolynomial, Fin.sum_univ_succ]

/-- A number as a word is its signed residue. -/
theorem toInt_ofNat_word (n : Nat) : (Int32.ofNat n).toInt = (n : Int).bmod (2 ^ 32) :=
  Int32.toInt_ofNat'

theorem foldl_extendFingerprint (hash : Int32) (units : List Nat) :
    units.foldl extendFingerprint hash =
      hash * Int32.ofNat (31 ^ units.length) + Int32.ofNat (unitPolynomial units) := by
  induction units generalizing hash with
  | nil => exact (Int32.add_zero _).trans (Int32.mul_one hash) |>.symm
  | cons unit units ih =>
    have hpower : Int32.ofNat (31 ^ (units.length + 1)) = 31 * Int32.ofNat (31 ^ units.length) := by
      rw [Nat.pow_succ', Int32.ofNat_mul]
      rfl
    rw [List.foldl_cons, ih, extendFingerprint, List.length_cons, hpower, unitPolynomial_cons,
      Int32.ofNat_add, Int32.ofNat_mul, Int32.add_mul, Int32.mul_assoc, Int32.add_assoc]

theorem fingerprint_eq (text : String) :
    fingerprint text = Int32.ofNat (unitPolynomial (textUnits text)) := by
  rw [fingerprint, ← textUnits, foldl_extendFingerprint, Int32.zero_mul, Int32.zero_add]

theorem fingerprint_append_eq (a b : String) :
    fingerprint (a ++ b) =
      fingerprint a * Int32.ofNat (31 ^ (textUnits b).length) + fingerprint b := by
  rw [fingerprint_append, ← textUnits, foldl_extendFingerprint, ← fingerprint_eq]

/-- Multiplication by a power of 31 can be undone. -/
theorem mul_power_inj {a b : Int32} (n : Nat) :
    a * Int32.ofNat (31 ^ n) = b * Int32.ofNat (31 ^ n) ↔ a = b := by
  refine ⟨fun h => ?_, fun h => h ▸ rfl⟩
  induction n with
  | zero =>
    have hone : Int32.ofNat (31 ^ 0) = 1 := rfl
    rwa [hone, Int32.mul_one, Int32.mul_one] at h
  | succ n ih =>
    have hinverse : (31 : Int32) * -1108378657 = 1 := by decide
    have hpower : Int32.ofNat (31 ^ (n + 1)) = Int32.ofNat (31 ^ n) * 31 := by
      rw [Nat.pow_succ, Int32.ofNat_mul]
      rfl
    have hundone := congrArg (· * (-1108378657 : Int32)) h
    simp only [hpower, Int32.mul_assoc, hinverse, Int32.mul_one] at hundone
    exact ih hundone

/-- The fingerprint of a text is the signed residue modulo 2^32 of the polynomial over its units.
That of two texts put together is the residue of the first one's, moved up by as many places as the
second one has units, and of the second one's. So texts that are put in front of the same text, and
texts of the same number of units that are put behind one, are told apart as they were before. -/
theorem toInt_fingerprint :
    (∀ text, (fingerprint text).toInt =
      (unitPolynomial (textUnits text) : Int).bmod (2 ^ 32)) ∧
    (∀ a b, (fingerprint (a ++ b)).toInt = ((fingerprint a).toInt * 31 ^ (textUnits b).length +
      (fingerprint b).toInt).bmod (2 ^ 32)) ∧
    (∀ a b c, fingerprint (a ++ c) = fingerprint (b ++ c) ↔ fingerprint a = fingerprint b) ∧
    (∀ a b c, (textUnits a).length = (textUnits b).length →
      (fingerprint (c ++ a) = fingerprint (c ++ b) ↔ fingerprint a = fingerprint b)) := by
  refine ⟨?_, ?_, ?_, ?_⟩
  · intro text
    rw [fingerprint_eq, toInt_ofNat_word]
  · intro a b
    rw [fingerprint_append_eq, Int32.toInt_add, Int32.toInt_mul, toInt_ofNat_word,
      Int.mul_bmod_bmod, Int.bmod_add_bmod, Nat.cast_pow, Nat.cast_ofNat]
  · intro a b c
    rw [fingerprint_append_eq, fingerprint_append_eq, Int32.add_left_inj, mul_power_inj]
  · intro a b c hlength
    rw [fingerprint_append_eq, fingerprint_append_eq, hlength, Int32.add_right_inj]

/-- Two texts with one fingerprint, behind a character of two units. -/
theorem fingerprint_eq_of_two_texts :
    (textUnits "Aa").length = (textUnits "BB").length ∧
      fingerprint ("😀" ++ "Aa") = fingerprint ("😀" ++ "BB") := by
  have hlength : (textUnits "Aa").length = (textUnits "BB").length := by decide
  obtain ⟨_, _, _, hbehind⟩ := toInt_fingerprint
  exact ⟨hlength, (hbehind "Aa" "BB" "😀" hlength).2 (by decide)⟩

/-- A character beyond U+FFFF counts as two units, and the words wrap around. -/
example : (fingerprint "😀!").toInt = 55357 * 31 ^ 2 + 56832 * 31 + 33 ∧
    (fingerprint "INTEGER").toInt = -1618932450 := by
  decide

end Lexis
