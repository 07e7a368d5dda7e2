import Lexis.Json.Basic

/-!
# Numerals

A JSON numeral has a sign, digits without a leading zero, a fraction and an exponent.
`readParts` divides it; where a digit is needed and the text ends, the fault is the one that the
caller names. A numeral can be read for a natural number below 2^64 (`readNatural`); one whose
magnitude is beyond the doubles is no numeral at all.
-/

set_option autoImplicit false

namespace Lexis.Json

/-- A numeral in its parts. -/
structure Numeral where
  negative : Bool
  whole : List Char
  /-- The digits after the point, empty without one. -/
  fraction : List Char
  exponent : Option (Bool × List Char)

/-- Reads digits, of which there is at least one. -/
def readDigits (atEnd : Fault) (s : List Char) : Except Fault (List Char × List Char) :=
  match s with
  | [] => .error atEnd
  | c :: rest =>
    if c.isDigit then .ok (c :: rest.takeWhile Char.isDigit, rest.dropWhile Char.isDigit)
    else .error .malformed

/-- Reads the digits before the point: a zero alone, or digits that do not begin with zero. -/
def readWhole (atEnd : Fault) (s : List Char) : Except Fault (List Char × List Char) :=
  match readDigits atEnd s with
  | .error fault => .error fault
  | .ok (digits, rest) =>
    if digits.head? = some '0' ∧ digits.length ≠ 1 then .error .malformed else .ok (digits, rest)

/-- Reads a point with digits after it, if there is a point. -/
def readFraction (atEnd : Fault) (s : List Char) : Except Fault (List Char × List Char) :=
  match s with
  | '.' :: rest => readDigits atEnd rest
  | _ => .ok ([], s)

/-- Reads an exponent, if there is one: its sign, `true` for minus, and its digits. -/
def readExponent (atEnd : Fault) (s : List Char) :
    Except Fault (Option (Bool × List Char) × List Char) :=
  match s with
  | [] => .ok (none, [])
  | c :: rest =>
    if c = 'e' ∨ c = 'E' then
      let signed := rest.head? = some '+' ∨ rest.head? = some '-'
      match readDigits atEnd (if signed then rest.tail else rest) with
      | .error fault => .error fault
      | .ok (digits, left) => .ok (some (decide (rest.head? = some '-'), digits), left)
    else .ok (none, s)

/-- Divides a numeral. -/
def readParts (atEnd : Fault) (s : List Char) : Except Fault (Numeral × List Char) :=
  let negative : Bool := s.head? = some '-'
  match readWhole atEnd (if negative then s.tail else s) with
  | .error fault => .error fault
  | .ok (whole, s) =>
    match readFraction atEnd s with
    | .error fault => .error fault
    | .ok (fraction, s) =>
      match readExponent atEnd s with
      | .error fault => .error fault
      | .ok (exponent, s) => .ok (⟨negative, whole, fraction, exponent⟩, s)

/-- The number that digits stand for. -/
def digitsValue (digits : List Char) : Nat :=
  digits.foldl (fun value c => value * 10 + (c.toNat - '0'.toNat)) 0

/-- The largest natural number that is read. -/
def maxNatural : Nat :=
  0xFFFFFFFFFFFFFFFF

/-- Appends digits to a significand while it stays within 64 bits; gives the significand and how
many digits it has taken. -/
def takeSignificand (significand : Nat) : List Char → Nat × Nat
  | [] => (significand, 0)
  | c :: digits =>
    let next := significand * 10 + (c.toNat - '0'.toNat)
    if next ≤ maxNatural then
      let more := takeSignificand next digits
      (more.1, more.2 + 1)
    else (significand, 0)

/-- The number with the precision of a double: 53 bits, a half to even. -/
def roundToDouble (n : Nat) : Nat :=
  let unit := Nat.pow 2 (n.log2 + 1 - 53)
  let below := n / unit
  let excess := 2 * (n % unit)
  if excess > unit ∨ (excess = unit ∧ below % 2 = 1) then (below + 1) * unit else below * unit

/-- Half a unit beyond the largest double. -/
def doubleOverflow : Nat :=
  Nat.pow 2 1024 - Nat.pow 2 970

/-- Whether a numeral overflows: its first digits, as many as fit 64 bits, and the power of ten
that belongs to them are rounded to doubles and multiplied. -/
def Numeral.overflows (numeral : Numeral) : Bool :=
  let whole := takeSignificand 0 numeral.whole
  let fraction := takeSignificand whole.1 numeral.fraction
  let shift : Int :=
    match numeral.exponent with
    | none => 0
    | some (negative, digits) => if negative then -digitsValue digits else digitsValue digits
  let power : Int := shift + (numeral.whole.length - whole.2 : Nat) - fraction.2
  decide (fraction.1 ≠ 0) && decide (0 ≤ power) &&
    (decide (308 < power) ||
      decide (doubleOverflow ≤ roundToDouble fraction.1 * roundToDouble (Nat.pow 10 power.toNat)))

/-- The natural number that a numeral writes, if it does with digits alone and within 64 bits. -/
def Numeral.natural? (numeral : Numeral) : Option Nat :=
  if numeral.negative ∨ numeral.fraction ≠ [] ∨ numeral.exponent ≠ none then none
  else if digitsValue numeral.whole ≤ maxNatural then some (digitsValue numeral.whole)
  else none

/-- Reads a numeral for a natural number; `none` when it writes some other number. -/
def readNatural (s : List Char) : Except Fault (Option Nat × List Char) :=
  match readParts .truncated s with
  | .error fault => .error fault
  | .ok (numeral, rest) =>
    if numeral.overflows then .error .malformed else .ok (numeral.natural?, rest)

theorem shortens_readDigits (atEnd : Fault) : Shortens (readDigits atEnd) := by
  intro s rest digits h
  unfold readDigits at h
  split at h
  · simp at h
  · rename_i c tail
    split at h
    · simp only [Except.ok.injEq, Prod.mk.injEq] at h
      have := (List.dropWhile_suffix (l := tail) Char.isDigit).length_le
      simp only [← h.2, List.length_cons]
      omega
    · simp at h

theorem shortens_readWhole (atEnd : Fault) : Shortens (readWhole atEnd) := by
  intro s rest digits h
  unfold readWhole at h
  split at h
  · simp at h
  · rename_i hdigits
    split at h
    · simp at h
    · simp only [Except.ok.injEq, Prod.mk.injEq] at h
      exact h.2 ▸ shortens_readDigits _ hdigits

theorem length_readFraction {atEnd : Fault} {s rest digits : List Char}
    (h : readFraction atEnd s = .ok (digits, rest)) : rest.length ≤ s.length := by
  unfold readFraction at h
  split at h
  · have := shortens_readDigits _ h
    simp only [List.length_cons]
    omega
  · simp only [Except.ok.injEq, Prod.mk.injEq] at h
    simp [← h.2]

theorem length_readExponent {atEnd : Fault} {s rest : List Char}
    {exponent : Option (Bool × List Char)}
    (h : readExponent atEnd s = .ok (exponent, rest)) : rest.length ≤ s.length := by
  unfold readExponent at h
  split at h
  · simp only [Except.ok.injEq, Prod.mk.injEq] at h
    simp [← h.2]
  · rename_i c tail
    split at h
    · dsimp only at h
      split at h
      · simp at h
      · rename_i hdigits
        simp only [Except.ok.injEq, Prod.mk.injEq] at h
        have := shortens_readDigits _ hdigits
        rw [← h.2]
        simp only [List.length_cons]
        split at this
        · rw [List.length_tail] at this
          omega
        · omega
    · simp only [Except.ok.injEq, Prod.mk.injEq] at h
      simp [← h.2]

theorem shortens_readParts (atEnd : Fault) : Shortens (readParts atEnd) := by
  intro s rest numeral h
  unfold readParts at h
  dsimp only at h
  split at h
  · simp at h
  · rename_i hwhole
    split at h
    · simp at h
    · rename_i hfraction
      split at h
      · simp at h
      · rename_i hexponent
        simp only [Except.ok.injEq, Prod.mk.injEq] at h
        have h1 := shortens_readWhole _ hwhole
        have h2 := length_readFraction hfraction
        have h3 := length_readExponent hexponent
        rw [← h.2]
        split at h1
        · rw [List.length_tail] at h1
          omega
        · omega

theorem shortens_readNatural : Shortens readNatural := by
  intro s rest n h
  unfold readNatural at h
  split at h
  · simp at h
  · rename_i hparts
    split at h
    · simp at h
    · simp only [Except.ok.injEq, Prod.mk.injEq] at h
      exact h.2 ▸ shortens_readParts _ hparts

end Lexis.Json
