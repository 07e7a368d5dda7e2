/-!
# Sets of code points as increasing ranges

A property of characters that is listed in a standard is a table of inclusive code point ranges.
`covers` looks a code point up from the low end and stops at the first range that lies beyond it;
in a table that is increasing (`Increasing`) this is membership in one of the ranges
(`covers_iff`).
-/

set_option autoImplicit false

namespace Lexis.Alphabet

/-- Inclusive ranges of code points. -/
abbrev Ranges := List (Nat × Nat)

namespace Ranges

/-- Whether a range of the table holds `n`; ranges beyond `n` are not looked at. -/
def covers : Ranges → Nat → Bool
  | [], _ => false
  | (first, last) :: rest, n =>
    if n < first then false else if n ≤ last then true else covers rest n

/-- Every range is non-empty and starts after `bound`, the end of the one before it. -/
def increasingFrom : Nat → Ranges → Bool
  | _, [] => true
  | bound, (first, last) :: rest =>
    decide (bound ≤ first) && decide (first ≤ last) && increasingFrom (last + 1) rest

/-- The ranges are non-empty, disjoint and in increasing order. -/
def Increasing (table : Ranges) : Prop := increasingFrom 0 table = true

instance (table : Ranges) : Decidable (Increasing table) :=
  inferInstanceAs (Decidable (_ = true))

theorem le_of_increasingFrom {table : Ranges} {bound : Nat}
    (h : increasingFrom bound table = true) : ∀ r ∈ table, bound ≤ r.1 := by
  induction table generalizing bound with
  | nil => simp
  | cons r rest ih =>
    obtain ⟨first, last⟩ := r
    simp only [increasingFrom, Bool.and_eq_true, decide_eq_true_eq] at h
    obtain ⟨⟨h1, h2⟩, h3⟩ := h
    intro r hr
    rcases List.mem_cons.1 hr with rfl | hr
    · exact h1
    · exact Nat.le_trans (by omega) (ih h3 r hr)

theorem covers_iff_of_increasingFrom {table : Ranges} {bound : Nat}
    (h : increasingFrom bound table = true) (n : Nat) :
    covers table n = true ↔ ∃ r ∈ table, r.1 ≤ n ∧ n ≤ r.2 := by
  induction table generalizing bound with
  | nil => simp [covers]
  | cons r rest ih =>
    obtain ⟨first, last⟩ := r
    simp only [increasingFrom, Bool.and_eq_true, decide_eq_true_eq] at h
    obtain ⟨⟨_, h2⟩, h3⟩ := h
    have hrest := le_of_increasingFrom h3
    simp only [covers]
    split
    · rename_i hlt
      simp only [Bool.false_eq_true, false_iff, List.mem_cons, not_exists, not_and]
      rintro r (rfl | hr) hle
      · exact absurd hle (by simpa using hlt)
      · have := hrest r hr; omega
    · rename_i hge
      split
      · rename_i hle
        simpa using Or.inl ⟨by omega, hle⟩
      · rename_i hgt
        rw [ih h3]
        simp [hgt]

/-- In an increasing table the look-up is membership in one of the ranges. -/
theorem covers_iff {table : Ranges} (h : Increasing table) (n : Nat) :
    covers table n = true ↔ ∃ r ∈ table, r.1 ≤ n ∧ n ≤ r.2 :=
  covers_iff_of_increasingFrom h n

end Ranges

end Lexis.Alphabet
