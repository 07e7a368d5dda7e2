import Lexis.Alphabet.HexDigit
import Lexis.Pattern.Mode

/-!
# Atoms of a pattern

An atom is a part of a pattern that has no parts. Most characters stand for themselves; a backslash
takes away the meaning of a punctuation mark and gives one to some letters. A character may be
written by its code point with as many hexadecimal digits as the letter before them asks for.

Not every atom fits every mode, and in brackets fewer do (`Atom.fits`, `Atom.fitsBracket`).
-/

set_option autoImplicit false

namespace Lexis.Pattern

inductive Atom
  /-- A character. One written with two digits is `short`; among bytes it is a byte. -/
  | literal (c : Char) (short : Bool)
  /-- The digits, the white space or the characters of words, or all others. -/
  | shorthand (negated : Bool)
  /-- Any character but a line break. -/
  | any
  /-- An end of a line or of the text. -/
  | edge
  /-- A place where a word begins or ends, or where none does. -/
  | wordEdge
  deriving DecidableEq

namespace Atom

/-- Whether an atom may stand outside brackets. -/
def fits (mode : Mode) : Atom → Bool
  | literal c short => if mode.unicode then !mode.ignoreCase else !short || c.toNat < 0x80
  | shorthand negated => !mode.unicode && !negated
  | any => mode.unicode
  | edge => true
  | wordEdge => !mode.unicode

/-- Whether an atom may stand in brackets. -/
def fitsBracket (mode : Mode) : Atom → Bool
  | literal c _ => if mode.unicode then !mode.ignoreCase else c.toNat < 0x80
  | shorthand negated => !mode.unicode && !negated
  | any | edge | wordEdge => false

/-- Whether a range may go from one atom to the other. -/
def isRange : Atom → Atom → Bool
  | literal first _, literal last _ => first.toNat ≤ last.toNat
  | _, _ => false

/-- A character for itself. -/
def ofMember (c : Char) : Atom :=
  literal c false

/-- A character outside brackets. -/
def ofChar (c : Char) : Atom :=
  if c = '.' then any
  else if c = '^' ∨ c = '$' then edge
  else literal c false

/-- The control characters that have a letter. -/
def controls : List (Char × Char) :=
  [('a', '\x07'), ('f', '\x0c'), ('t', '\t'), ('n', '\n'), ('r', '\r'), ('v', '\x0b')]

/-- What a character stands for behind a backslash, if no digits follow it. -/
def ofEscaped? (c : Char) : Option Atom :=
  if ['d', 's', 'w'].contains c then some (shorthand false)
  else if ['D', 'S', 'W'].contains c then some (shorthand true)
  else if ['A', 'z'].contains c then some edge
  else if ['b', 'B', '<', '>'].contains c then some wordEdge
  else if c.isAlphanum then (controls.lookup c).map ofMember
  else if c.toNat < 0x80 then some (ofMember c)
  else none

end Atom

/-- How many hexadecimal digits a letter asks for. -/
def digitCount? (letter : Char) : Option Nat :=
  if letter = 'x' then some 2
  else if letter = 'u' then some 4
  else if letter = 'U' then some 8
  else none

/-- Reads so many hexadecimal digits, behind those that have the given value. -/
def readDigits? (mode : Mode) : Nat → Nat → List Char → Option (Nat × List Char)
  | 0, value, s => some (value, s)
  | _ + 1, _, [] => none
  | count + 1, value, c :: s =>
    match hexValue? c with
    | none => none
    | some digit => readDigits? mode count (16 * value + digit) (mode.skip s)

theorem length_readDigits {mode : Mode} {count value value' : Nat} {s rest : List Char}
    (h : readDigits? mode count value s = some (value', rest)) : rest.length ≤ s.length := by
  fun_induction readDigits? mode count value s with
  | case1 => simp_all
  | case2 | case3 => simp at h
  | case4 value count c s digit _ ih =>
    have := ih h
    have := mode.length_skip_le s
    simp only [List.length_cons]
    omega

/-- Reads on from behind a backslash. -/
def readEscape? (mode : Mode) : List Char → Option (Atom × List Char)
  | [] => none
  | c :: s =>
    match digitCount? c with
    | none => (Atom.ofEscaped? c).map (·, s)
    | some count =>
      match readDigits? mode count 0 (mode.skip s) with
      | none => none
      | some (value, rest) =>
        if value.isValidChar then some (.literal (.ofNat value) (count == 2), rest) else none

theorem length_readEscape {mode : Mode} {s rest : List Char} {atom : Atom}
    (h : readEscape? mode s = some (atom, rest)) : rest.length < s.length := by
  fun_cases readEscape? mode s with
  | case1 => simp [readEscape?] at h
  | case2 c s hcount =>
    simp only [readEscape?, hcount, Option.map_eq_some_iff, Prod.mk.injEq] at h
    obtain ⟨_, _, _, rfl⟩ := h
    simp
  | case3 c s count hcount hdigits => simp [readEscape?, hcount, hdigits] at h
  | case4 c s count hcount value left hdigits hvalid =>
    simp only [readEscape?, hcount, hdigits, hvalid, if_true, Option.some.injEq,
      Prod.mk.injEq] at h
    have := length_readDigits hdigits
    have := mode.length_skip_le s
    rw [← h.2, List.length_cons]
    omega
  | case5 c s count hcount value left hdigits hvalid =>
    simp [readEscape?, hcount, hdigits, hvalid] at h

/-- Reads the atom that begins with `c`, where a character that follows no backslash is read by
`ofPlain`. -/
def readAtom? (mode : Mode) (ofPlain : Char → Atom) (c : Char) (s : List Char) :
    Option (Atom × List Char) :=
  if c = '\\' then readEscape? mode s else some (ofPlain c, s)

theorem length_readAtom {mode : Mode} {ofPlain : Char → Atom} {c : Char} {s rest : List Char}
    {atom : Atom} (h : readAtom? mode ofPlain c s = some (atom, rest)) :
    rest.length ≤ s.length := by
  unfold readAtom? at h
  split at h
  · exact Nat.le_of_lt (length_readEscape h)
  · simp_all

end Lexis.Pattern
