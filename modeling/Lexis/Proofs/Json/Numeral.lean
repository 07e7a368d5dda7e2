import Mathlib.Data.List.Basic
import Lexis.Json.Numeral
import Lexis.Json.Writer
import Lexis.Proofs.Json.Quoted

/-!
# Numbers, written and read

An integer is written with digits alone, of which the first is a zero only for zero itself. Such a
numeral is divided into its sign and its digits wherever no more of a numeral follows
(`readParts_integer`), and they give the integer back (`readInteger_integer`). A natural number
below 2^64 is read as the number that was written (`readNatural_natural`): it is far from the
largest double, so its numeral does not overflow.
-/

set_option autoImplicit false

namespace Lexis.Json

/-- What stands behind the digits is no more of a numeral. -/
def EndsNumeral (rest : List Char) : Prop :=
  ∀ c, rest.head? = some c → c.isDigit = false ∧ c ≠ '.' ∧ c ≠ 'e' ∧ c ≠ 'E'

theorem EndsNumeral.cons {c : Char} (hdigit : c.isDigit = false) (hdot : c ≠ '.') (hsmall : c ≠ 'e')
    (hcapital : c ≠ 'E') (rest : List Char) : EndsNumeral (c :: rest) := by
  intro d hd
  obtain rfl := Option.some.inj hd
  exact ⟨hdigit, hdot, hsmall, hcapital⟩

/-! ## Digits -/

theorem isDigit_of_mem_natural {n : Nat} {c : Char} (h : c ∈ natural n) : c.isDigit = true :=
  Nat.isDigit_of_mem_toDigits (by decide) (by decide) h

theorem natural_ne_nil (n : Nat) : natural n ≠ [] :=
  Nat.toDigits_ne_nil

theorem exists_natural_eq_cons (n : Nat) :
    ∃ first others, natural n = first :: others ∧ first.isDigit = true := by
  obtain ⟨first, others, hsplit⟩ := List.exists_cons_of_ne_nil (natural_ne_nil n)
  have hmem : first ∈ natural n := by
    rw [hsplit]
    exact List.mem_cons_self
  exact ⟨first, others, hsplit, isDigit_of_mem_natural hmem⟩

/-- Only zero begins with a zero. -/
theorem eq_zero_of_head?_natural {n : Nat} (h : (natural n).head? = some '0') : n = 0 := by
  induction n using Nat.strongRecOn with
  | ind n ih =>
    by_cases hn : n < 10
    · have hall : ∀ m < 10, Nat.digitChar m = '0' → m = 0 := by decide
      rw [natural, Nat.toDigits_of_lt_base hn, List.head?_cons, Option.some.injEq] at h
      exact hall n hn h
    · -- a longer number begins as its tenth part does
      have hsplit : natural n = natural (n / 10) ++ [(n % 10).digitChar] :=
        Nat.toDigits_of_base_le (by decide) (by omega)
      rw [hsplit, List.head?_append_of_ne_nil _ (natural_ne_nil (n / 10))] at h
      have := ih (n / 10) (by omega) h
      omega

theorem digitsValue_natural (n : Nat) : digitsValue (natural n) = n := by
  have hvalue := Nat.ofDigitChars_eq_foldl.symm.trans (Nat.ofDigitChars_ten_toDigits (n := n))
  simp only [Nat.mul_comm 10] at hvalue
  exact hvalue

theorem printable_natural (n : Nat) : Printable (natural n) := by
  intro c hc
  have hdigit := isDigit_of_mem_natural hc
  rw [Char.isDigit_iff_toNat] at hdigit
  exact Nat.le_trans (by decide) hdigit.1

theorem printable_integer (i : Int) : Printable (integer i) := by
  unfold integer
  split
  · exact .cons (by decide) (printable_natural _)
  · exact printable_natural _

theorem integer_ofNat (n : Nat) : integer n = natural n :=
  if_neg (by omega)

/-! ## Dividing a numeral -/

/-- At least one digit and nothing else. -/
def IsDigits (text : List Char) : Prop :=
  text ≠ [] ∧ ∀ c ∈ text, c.isDigit = true

/-- A zero alone, or digits that do not begin with zero. -/
def IsWhole (text : List Char) : Prop :=
  IsDigits text ∧ (text.head? = some '0' → text.length = 1)

/-- Digits after a point, or nothing. -/
inductive WritesFraction : List Char → List Char → Prop
  | none : WritesFraction [] []
  | some {digits : List Char} (h : IsDigits digits) : WritesFraction digits ('.' :: digits)

/-- A mark with a sign or without, and digits; or nothing. -/
inductive WritesExponent : Option (Bool × List Char) → List Char → Prop
  | none : WritesExponent none []
  | plain {mark : Char} {digits : List Char} (hmark : mark = 'e' ∨ mark = 'E')
      (h : IsDigits digits) : WritesExponent (some (false, digits)) (mark :: digits)
  | plus {mark : Char} {digits : List Char} (hmark : mark = 'e' ∨ mark = 'E')
      (h : IsDigits digits) : WritesExponent (some (false, digits)) (mark :: '+' :: digits)
  | minus {mark : Char} {digits : List Char} (hmark : mark = 'e' ∨ mark = 'E')
      (h : IsDigits digits) : WritesExponent (some (true, digits)) (mark :: '-' :: digits)

/-- The text is a numeral of these parts. -/
inductive Writes : Numeral → List Char → Prop
  | positive {whole fraction point mark : List Char} {exponent : Option (Bool × List Char)}
      (hwhole : IsWhole whole) (hfraction : WritesFraction fraction point)
      (hexponent : WritesExponent exponent mark) :
    Writes ⟨false, whole, fraction, exponent⟩ (whole ++ (point ++ mark))
  | negative {whole fraction point mark : List Char} {exponent : Option (Bool × List Char)}
      (hwhole : IsWhole whole) (hfraction : WritesFraction fraction point)
      (hexponent : WritesExponent exponent mark) :
    Writes ⟨true, whole, fraction, exponent⟩ ('-' :: (whole ++ (point ++ mark)))

theorem IsDigits.exists_cons {digits : List Char} (h : IsDigits digits) :
    ∃ first others, digits = first :: others ∧ first.isDigit = true ∧
      ∀ c ∈ others, c.isDigit = true := by
  obtain ⟨first, others, rfl⟩ := List.exists_cons_of_ne_nil h.1
  exact ⟨first, others, rfl, List.forall_mem_cons.1 h.2⟩

theorem ne_sign_of_isDigit {c : Char} (h : c.isDigit = true) : c ≠ '-' ∧ c ≠ '+' := by
  constructor
  · rintro rfl
    exact absurd h (by decide)
  · rintro rfl
    exact absurd h (by decide)

section
variable (atEnd : Fault) {rest : List Char}

theorem readDigits_append {digits : List Char} (h : IsDigits digits)
    (hrest : ∀ c, rest.head? = some c → c.isDigit = false) :
    readDigits atEnd (digits ++ rest) = .ok (digits, rest) := by
  obtain ⟨first, others, rfl, hfirst, hothers⟩ := h.exists_cons
  have hstop : rest.takeWhile Char.isDigit = [] ∧ rest.dropWhile Char.isDigit = rest := by
    cases rest with
    | nil => exact ⟨rfl, rfl⟩
    | cons c rest =>
      have hc := hrest c rfl
      exact ⟨List.takeWhile_cons_of_neg (by simp [hc]), List.dropWhile_cons_of_neg (by simp [hc])⟩
  rw [List.cons_append, readDigits, if_pos hfirst, List.takeWhile_append_of_pos hothers,
    List.dropWhile_append_of_pos hothers, hstop.1, hstop.2, List.append_nil]

theorem readWhole_append {whole : List Char} (h : IsWhole whole)
    (hrest : ∀ c, rest.head? = some c → c.isDigit = false) :
    readWhole atEnd (whole ++ rest) = .ok (whole, rest) := by
  have hzero : ¬ (whole.head? = some '0' ∧ whole.length ≠ 1) :=
    fun hlong => hlong.2 (h.2 hlong.1)
  rw [readWhole, readDigits_append atEnd h.1 hrest]
  exact if_neg hzero

theorem readFraction_append {fraction point : List Char} (h : WritesFraction fraction point)
    (hrest : ∀ c, rest.head? = some c → c.isDigit = false ∧ c ≠ '.') :
    readFraction atEnd (point ++ rest) = .ok (fraction, rest) := by
  cases h with
  | none =>
    rw [List.nil_append]
    unfold readFraction
    split
    · exact absurd rfl (hrest '.' rfl).2
    · rfl
  | some hdigits => exact readDigits_append atEnd hdigits fun c hc => (hrest c hc).1

theorem readExponent_append {exponent : Option (Bool × List Char)} {mark : List Char}
    (h : WritesExponent exponent mark) (hrest : EndsNumeral rest) :
    readExponent atEnd (mark ++ rest) = .ok (exponent, rest) := by
  have hread {digits : List Char} (hdigits : IsDigits digits) :=
    readDigits_append atEnd hdigits fun c hc => (hrest c hc).1
  cases h with
  | none =>
    cases rest with
    | nil => rfl
    | cons c rest =>
      obtain ⟨_, _, hsmall, hcapital⟩ := hrest c rfl
      exact if_neg (by simp [hsmall, hcapital])
  | plain hmark hdigits =>
    obtain ⟨first, others, rfl, hfirst, _⟩ := hdigits.exists_cons
    have hsign := ne_sign_of_isDigit hfirst
    have hread := hread hdigits
    rw [List.cons_append] at hread
    simp [readExponent, hmark, hsign, hread]
  | plus hmark hdigits => simp [readExponent, hmark, hread hdigits]
  | minus hmark hdigits => simp [readExponent, hmark, hread hdigits]

/-- A numeral is divided into the parts that it is made of. -/
theorem readParts_writes {numeral : Numeral} {text : List Char} (h : Writes numeral text)
    (hrest : EndsNumeral rest) : readParts atEnd (text ++ rest) = .ok (numeral, rest) := by
  have hmark {exponent : Option (Bool × List Char)} {mark : List Char}
      (hexponent : WritesExponent exponent mark) :
      ∀ c, (mark ++ rest).head? = some c → c.isDigit = false ∧ c ≠ '.' := by
    intro c hc
    cases hexponent with
    | none => exact ⟨(hrest c hc).1, (hrest c hc).2.1⟩
    | plain hmark | plus hmark | minus hmark =>
      cases hc
      rcases hmark with rfl | rfl <;> decide
  have hpoint {fraction point tail : List Char} (hfraction : WritesFraction fraction point)
      (htail : ∀ c, tail.head? = some c → c.isDigit = false ∧ c ≠ '.') :
      ∀ c, (point ++ tail).head? = some c → c.isDigit = false := by
    intro c hc
    cases hfraction with
    | none => exact (htail c hc).1
    | some =>
      cases hc
      decide
  cases h with
  | @positive whole fraction point mark exponent hwhole hfraction hexponent =>
    obtain ⟨first, others, hsplit, hfirst, _⟩ := hwhole.1.exists_cons
    have hsign : (whole ++ (point ++ (mark ++ rest))).head? ≠ some '-' := by
      rw [hsplit]
      exact fun hc => (ne_sign_of_isDigit hfirst).1 (Option.some.inj hc)
    have hread := readWhole_append atEnd hwhole (hpoint hfraction (hmark hexponent))
    simp only [readParts, List.append_assoc, decide_eq_false hsign, Bool.false_eq_true, if_false,
      hread, readFraction_append atEnd hfraction (hmark hexponent),
      readExponent_append atEnd hexponent hrest]
  | negative hwhole hfraction hexponent =>
    have hread := readWhole_append atEnd hwhole (hpoint hfraction (hmark hexponent))
    simp only [readParts, List.cons_append, List.head?_cons, decide_true, if_true, List.tail_cons,
      List.append_assoc, hread, readFraction_append atEnd hfraction (hmark hexponent),
      readExponent_append atEnd hexponent hrest]

end

theorem isWhole_natural (n : Nat) : IsWhole (natural n) := by
  refine ⟨⟨natural_ne_nil n, fun c => isDigit_of_mem_natural⟩, fun hzero => ?_⟩
  obtain rfl := eq_zero_of_head?_natural hzero
  rfl

/-- An integer is written with its sign and its digits. -/
theorem writes_integer (i : Int) :
    Writes ⟨decide (i < 0), natural i.natAbs, [], none⟩ (integer i) := by
  have hwhole := isWhole_natural i.natAbs
  have hsame : natural i.natAbs ++ ([] ++ []) = natural i.natAbs := by simp
  by_cases hneg : i < 0
  · have hwrites := Writes.negative hwhole .none .none
    rw [hsame] at hwrites
    rwa [decide_eq_true hneg, integer, if_pos hneg]
  · have hwrites := Writes.positive hwhole .none .none
    rw [hsame] at hwrites
    rwa [decide_eq_false hneg, integer, if_neg hneg]

theorem readParts_integer (atEnd : Fault) (i : Int) {rest : List Char} (h : EndsNumeral rest) :
    readParts atEnd (integer i ++ rest) =
      .ok (⟨decide (i < 0), natural i.natAbs, [], none⟩, rest) :=
  readParts_writes atEnd (writes_integer i) h

/-- The integer that a numeral writes, if it does with digits alone. -/
def Numeral.integer? (numeral : Numeral) : Option Int :=
  if numeral.fraction ≠ [] ∨ numeral.exponent ≠ none then none
  else if numeral.negative then some (-digitsValue numeral.whole)
  else some (digitsValue numeral.whole)

/-- Reads an integer of any size, if nothing follows it. -/
def readInteger (s : List Char) : Option Int :=
  match readParts .truncated s with
  | .ok (numeral, []) => numeral.integer?
  | _ => none

theorem readInteger_integer (i : Int) : readInteger (integer i) = some i := by
  have hends : EndsNumeral [] := nofun
  have hparts := readParts_integer .truncated i hends
  rw [List.append_nil] at hparts
  rw [readInteger, hparts]
  simp only [Numeral.integer?, digitsValue_natural]
  by_cases hneg : i < 0
  · simp only [hneg, ne_eq, not_true_eq_false, or_self, if_false, decide_true, if_true]
    rw [show -(i.natAbs : Int) = i by omega]
  · simp only [hneg, ne_eq, not_true_eq_false, or_self, if_false, decide_false, Bool.false_eq_true]
    rw [show (i.natAbs : Int) = i by omega]

/-! ## Natural numbers -/

theorem le_foldl_digits (digits : List Char) (significand : Nat) :
    significand ≤ digits.foldl (fun value c => value * 10 + (c.toNat - '0'.toNat)) significand := by
  induction digits generalizing significand with
  | nil => exact Nat.le_refl significand
  | cons c digits ih =>
    have hnext := ih (significand * 10 + (c.toNat - '0'.toNat))
    rw [List.foldl_cons]
    omega

/-- All digits are taken when their number fits. -/
theorem takeSignificand_eq {digits : List Char} {significand : Nat}
    (h : digits.foldl (fun value c => value * 10 + (c.toNat - '0'.toNat)) significand ≤ maxNatural) :
    takeSignificand significand digits =
      (digits.foldl (fun value c => value * 10 + (c.toNat - '0'.toNat)) significand,
        digits.length) := by
  induction digits generalizing significand with
  | nil => rfl
  | cons c digits ih =>
    rw [List.foldl_cons] at h ⊢
    have hnext := Nat.le_trans (le_foldl_digits digits _) h
    simp only [takeSignificand, if_pos hnext, ih h, List.length_cons]

/-- Rounding at most doubles a number. -/
theorem roundToDouble_le (n : Nat) : roundToDouble n ≤ 2 * n := by
  by_cases hn : n = 0
  · subst hn
    decide
  · have hunit : Nat.pow 2 (n.log2 + 1 - 53) ≤ n :=
      Nat.le_trans (Nat.pow_le_pow_right (by decide) (by omega)) (Nat.log2_self_le hn)
    have hbelow := Nat.div_mul_le_self n (Nat.pow 2 (n.log2 + 1 - 53))
    simp only [roundToDouble]
    split
    · rw [Nat.add_mul, Nat.one_mul]
      omega
    · omega

/-- A number below 2^64 does not overflow. -/
theorem overflows_natural {n : Nat} (h : n ≤ maxNatural) :
    (⟨false, natural n, [], none⟩ : Numeral).overflows = false := by
  have htake : takeSignificand 0 (natural n) = (n, (natural n).length) := by
    have hvalue : (natural n).foldl (fun value c => value * 10 + (c.toNat - '0'.toNat)) 0 = n :=
      digitsValue_natural n
    rw [takeSignificand_eq (hvalue.symm ▸ h), hvalue]
  have hbelow : roundToDouble n * roundToDouble (Nat.pow 10 0) < doubleOverflow := by
    have hone : roundToDouble (Nat.pow 10 0) = 1 := by decide +kernel
    have hlarge : 2 * maxNatural < doubleOverflow := by decide +kernel
    have hdouble := roundToDouble_le n
    rw [hone]
    omega
  -- all digits are taken, so no power of ten is left
  have hpower : (0 : Int) + ((natural n).length - (natural n).length : Nat) - (0 : Nat) = 0 := by
    omega
  simp only [Numeral.overflows, htake, takeSignificand, hpower, Int.toNat_zero,
    decide_eq_false (Nat.not_le.2 hbelow)]
  simp

/-- A natural number is read as it was written. -/
theorem readNatural_natural {n : Nat} (hn : n ≤ maxNatural) {rest : List Char}
    (h : EndsNumeral rest) : readNatural (natural n ++ rest) = .ok (some n, rest) := by
  have hparts := readParts_integer .truncated n h
  rw [integer_ofNat, decide_eq_false (by omega)] at hparts
  rw [readNatural, hparts]
  simp [overflows_natural hn, Numeral.natural?, digitsValue_natural, hn]

/-- A larger one is no number, or another one than was asked for. -/
theorem readNatural_natural_of_lt {n : Nat} (hn : maxNatural < n) {rest : List Char}
    (h : EndsNumeral rest) :
    readNatural (natural n ++ rest) = .error .malformed ∨
      readNatural (natural n ++ rest) = .ok (none, rest) := by
  have hparts := readParts_integer .truncated n h
  have hlarge : ¬ n ≤ maxNatural := Nat.not_le.2 hn
  rw [integer_ofNat, decide_eq_false (by omega)] at hparts
  rw [readNatural, hparts]
  dsimp only
  split
  · exact .inl rfl
  · simp [Numeral.natural?, digitsValue_natural, hlarge]

end Lexis.Json
