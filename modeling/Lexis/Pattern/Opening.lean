import Lexis.Alphabet.Letter
import Lexis.Alphabet.Number
import Lexis.Pattern.Mode

/-!
# Openings

What an opening parenthesis begins. Behind a question mark stands a name in angle brackets, or flags
up to a colon or a closing parenthesis. With the parenthesis they are a setting and no group: they
hold from there on to the end of the group around them.
-/

set_option autoImplicit false

namespace Lexis.Pattern

inductive Opening
  /-- A group with flags of its own. -/
  | group (flags : List Char)
  | named (name : List Char)
  | setting (flags : List Char)
  deriving DecidableEq

namespace Opening

/-- The letters of the flags. Besides those that `Mode` is about there are some for the ends of
lines and for how much a repetition takes. -/
def flagLetters : List Char :=
  ['i', 'm', 's', 'U', 'u', 'R', 'x']

/-- Whether a text is flags: none twice, the minus sign included, which is not the last. -/
def areFlags (flags : List Char) : Bool :=
  flags.all (fun c => c = '-' || flagLetters.contains c) && decide flags.Nodup &&
    flags.getLast? != some '-'

/-- Reads on from behind a question mark that no name follows. -/
def readFlags? (s : List Char) : Option (Opening × List Char) :=
  let flags := s.takeWhile fun c => c ≠ ':' && c ≠ ')'
  match s.drop flags.length with
  | [] => none
  | c :: rest =>
    if !areFlags flags then none
    else if c = ':' then some (group flags, rest)
    else if flags.isEmpty then none
    else some (setting flags, rest)

/-- Whether a text can be the name of a group. -/
def isName : List Char → Bool
  | [] => false
  | c :: rest =>
    (c = '_' || isLetter c) &&
      rest.all fun c => ['_', '.', '[', ']'].contains c || isLetter c || isNumberSign c

/-- Reads on from behind the bracket that a name follows. -/
def readName? (s : List Char) : Option (Opening × List Char) :=
  let name := s.takeWhile (· ≠ '>')
  match s.drop name.length with
  | [] => none
  | _ :: rest => if isName name then some (named name, rest) else none

/-- Reads on from behind an opening parenthesis. -/
def read? (mode : Mode) (s : List Char) : Option (Opening × List Char) :=
  match mode.skip s with
  | '?' :: 'P' :: '<' :: rest => readName? rest
  | '?' :: '<' :: rest => readName? rest
  | '?' :: rest => readFlags? rest
  | rest => some (group [], rest)

theorem length_readFlags {s rest : List Char} {opening : Opening}
    (h : readFlags? s = some (opening, rest)) : rest.length < s.length := by
  simp only [readFlags?] at h
  split at h
  · simp at h
  · rename_i hdrop
    have := congrArg List.length hdrop
    simp only [List.length_drop, List.length_cons] at this
    grind

theorem length_readName {s rest : List Char} {opening : Opening}
    (h : readName? s = some (opening, rest)) : rest.length < s.length := by
  simp only [readName?] at h
  split at h
  · simp at h
  · rename_i hdrop
    have := congrArg List.length hdrop
    simp only [List.length_drop, List.length_cons] at this
    grind

theorem length_read {mode : Mode} {s rest : List Char} {opening : Opening}
    (h : read? mode s = some (opening, rest)) : rest.length ≤ s.length := by
  have := mode.length_skip_le s
  unfold read? at h
  split at h
  · rename_i hskip
    rw [hskip] at this
    have := length_readName h
    simp only [List.length_cons] at *
    omega
  · rename_i hskip
    rw [hskip] at this
    have := length_readName h
    simp only [List.length_cons] at *
    omega
  · rename_i hskip
    rw [hskip] at this
    have := length_readFlags h
    simp only [List.length_cons] at *
    omega
  · simp_all

end Opening

end Lexis.Pattern
