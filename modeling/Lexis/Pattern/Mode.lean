import Lexis.Alphabet.Blank

/-!
# Modes of a pattern

A pattern is a regular expression. Patterns are for a machine that reads the bytes of a text and has
no tables of the properties of characters, so what a pattern may hold depends on the mode: among
characters, case cannot be ignored, and there are no classes by a property and no edges of words;
among bytes, nothing is allowed that would be a part of a character.

Flags set the mode, each by its letter: on when the letter stands before the minus sign, off when it
stands behind. In the spaced mode white space means nothing in a pattern, and a hash begins a
comment that goes to the end of the line.
-/

set_option autoImplicit false

namespace Lexis.Pattern

/-- How a part of a pattern is read. -/
structure Mode where
  /-- Whether a letter is to stand for its other case too. -/
  ignoreCase : Bool
  /-- Whether the pattern is about characters, not about bytes. -/
  unicode : Bool
  /-- Whether white space and comments mean nothing. -/
  spaced : Bool
  deriving DecidableEq

/-- Passes over white space and comments. -/
def skipSpace (inComment : Bool) : List Char → List Char
  | [] => []
  | c :: rest =>
    if inComment then skipSpace (c != '\n') rest
    else if isWhiteSpace c then skipSpace false rest
    else if c = '#' then skipSpace true rest
    else c :: rest

theorem length_skipSpace_le (inComment : Bool) (s : List Char) :
    (skipSpace inComment s).length ≤ s.length := by
  fun_induction skipSpace inComment s with
  | case1 => simp
  | case2 | case3 | case4 => simp only [List.length_cons]; omega
  | case5 => simp

/-- Whether the flag of a letter is on after a setting; a flag that is not named stays as it was. -/
def flagAfter (flags : List Char) (letter : Char) (before : Bool) : Bool :=
  if (flags.takeWhile (· ≠ '-')).contains letter then true
  else if flags.contains letter then false
  else before

namespace Mode

/-- The mode in which a pattern begins. -/
def initial : Mode :=
  ⟨false, true, false⟩

def setFlags (mode : Mode) (flags : List Char) : Mode where
  ignoreCase := flagAfter flags 'i' mode.ignoreCase
  unicode := flagAfter flags 'u' mode.unicode
  spaced := flagAfter flags 'x' mode.spaced

/-- Passes over what means nothing. -/
def skip (mode : Mode) (s : List Char) : List Char :=
  if mode.spaced then skipSpace false s else s

theorem length_skip_le (mode : Mode) (s : List Char) : (mode.skip s).length ≤ s.length := by
  unfold skip
  split
  · exact length_skipSpace_le false s
  · exact Nat.le_refl _

theorem length_lt_of_skip_eq_cons {mode : Mode} {s rest : List Char} {c : Char}
    (h : mode.skip s = c :: rest) : rest.length < s.length := by
  have := mode.length_skip_le s
  rw [h, List.length_cons] at this
  omega

/-- The character that comes next, looked at without going on. Of a comment only the hash is passed
over; where nothing but white space is left, its first character comes next. -/
def peek? (mode : Mode) (s : List Char) : Option Char :=
  if mode.spaced then
    let left := s.dropWhile isWhiteSpace
    let left := if left.head? = some '#' then left.tail.dropWhile isWhiteSpace else left
    left.head?.or s.head?
  else s.head?

end Mode

end Lexis.Pattern
