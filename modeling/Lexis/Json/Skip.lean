import Lexis.Json.Quoted
import Lexis.Json.Numeral

/-!
# Values that are not wanted

A value whose content does not matter is passed over. The brackets that are open are kept in a
list, so values may be nested to any depth. Nothing is decoded on the way: an escape by number is
taken whatever it stands for, and a numeral however large it is. A numeral that the end of the
text cuts off is malformed.

A value that stands where another shape is wanted is looked at only as far as it takes to see
which shape it has (`refuse`).
-/

set_option autoImplicit false

namespace Lexis.Json

/-- Passes over what follows a backslash. -/
def skipEscape (s : List Char) : Except Fault (List Char) :=
  match s with
  | [] => .error .truncated
  | letter :: s =>
    if letter = 'u' then (readUnit s).map Prod.snd
    else if (ofEscapeLetter? letter).isSome then .ok s
    else .error .malformed

theorem length_skipEscape {s rest : List Char} (h : skipEscape s = .ok rest) :
    rest.length < s.length := by
  unfold skipEscape at h
  split at h
  · simp at h
  · split at h
    · obtain ⟨⟨unit, left⟩, hunit, rfl⟩ := map_eq_ok h
      have := shortens_readUnit hunit
      simp only [List.length_cons]
      omega
    · split at h
      · simp_all
      · simp at h

/-- Passes over the characters up to the closing quote, and the quote. -/
def skipQuoted (s : List Char) : Except Fault (List Char) :=
  match s with
  | [] => .error .truncated
  | c :: s =>
    if c = '"' then .ok s
    else if c = '\\' then
      match _h : skipEscape s with
      | .ok rest => skipQuoted rest
      | .error fault => .error fault
    else if c.toNat < 0x20 then .error .malformed
    else skipQuoted s
termination_by s.length
decreasing_by
  · have := length_skipEscape _h
    simp only [List.length_cons]
    omega
  · simp

theorem length_skipQuoted {s rest : List Char} (h : skipQuoted s = .ok rest) :
    rest.length < s.length := by
  fun_induction skipQuoted s with
  | case1 => simp at h
  | case2 s => simp_all
  | case3 s rest' hescape _ ih =>
    have := ih h
    have := length_skipEscape hescape
    simp only [List.length_cons]
    omega
  | case4 => simp at h
  | case5 => simp at h
  | case6 c s _ _ _ ih =>
    have := ih h
    simp only [List.length_cons]
    omega

/-- Passes over a value that has no parts, which begins with `c`. -/
def skipScalar (c : Char) (s : List Char) : Except Fault (List Char) :=
  if c = 'n' then expect ['u', 'l', 'l'] s
  else if c = 't' then expect ['r', 'u', 'e'] s
  else if c = 'f' then expect ['a', 'l', 's', 'e'] s
  else if c = '"' then skipQuoted s
  else if c = '-' ∨ c.isDigit = true then (readParts .malformed (c :: s)).map Prod.snd
  else .error .malformed

theorem length_skipScalar {c : Char} {s rest : List Char} (h : skipScalar c s = .ok rest) :
    rest.length ≤ s.length := by
  have word : ∀ {w : List Char}, expect w s = .ok rest → rest.length ≤ s.length := by
    intro w hw
    simp [eq_append_of_expect hw]
  unfold skipScalar at h
  split at h
  · exact word h
  split at h
  · exact word h
  split at h
  · exact word h
  split at h
  · exact Nat.le_of_lt (length_skipQuoted h)
  split at h
  · obtain ⟨⟨numeral, left⟩, hparts, rfl⟩ := map_eq_ok h
    have := shortens_readParts _ hparts
    simp only [List.length_cons] at this
    exact Nat.le_of_lt_succ this
  · simp at h

/-- An open bracket of a list or an object. -/
inductive Bracket
  | list | object
  deriving DecidableEq

def Bracket.closing : Bracket → Char
  | list => ']'
  | object => '}'

/-- What comes next within the open brackets. -/
inductive Expected
  | value
  /-- A name with its value. -/
  | member
  /-- What may follow a value. -/
  | next
  deriving DecidableEq

/-- What a bracket holds. -/
def Bracket.item : Bracket → Expected
  | list => .value
  | object => .member

/-- The bracket that a character opens. -/
def Bracket.ofOpening? (c : Char) : Option Bracket :=
  if c = '[' then some .list else if c = '{' then some .object else none

/-- Passes over the rest of a value in which brackets are open, the innermost first. -/
def skipOpen (brackets : List Bracket) (expected : Expected) (s : List Char) :
    Except Fault (List Char) :=
  match expected, brackets with
  | .value, _ =>
    match _h : skipBlanks s with
    | [] => .error .truncated
    | c :: rest =>
      match Bracket.ofOpening? c with
      | some bracket =>
        match _h' : skipBlanks rest with
        | d :: rest' =>
          if d = bracket.closing then skipOpen brackets .next rest'
          else skipOpen (bracket :: brackets) bracket.item rest
        | [] => .error .truncated
      | none =>
        match _h' : skipScalar c rest with
        | .ok rest' => skipOpen brackets .next rest'
        | .error fault => .error fault
  | .member, _ =>
    match _h : skipBlanks s with
    | [] => .error .truncated
    | c :: rest =>
      if c = '"' then
        match _h' : skipQuoted rest with
        | .ok rest' =>
          match _h'' : expectColon rest' with
          | .ok rest'' => skipOpen brackets .value rest''
          | .error fault => .error fault
        | .error fault => .error fault
      else .error .malformed
  | .next, [] => .ok s
  | .next, bracket :: outer =>
    match _h : skipBlanks s with
    | [] => .error .truncated
    | c :: rest =>
      if c = ',' then skipOpen (bracket :: outer) bracket.item rest
      else if c = bracket.closing then skipOpen outer .next rest
      else .error .malformed
termination_by s.length
decreasing_by
  · exact Nat.lt_trans (length_lt_of_skipBlanks_eq_cons _h') (length_lt_of_skipBlanks_eq_cons _h)
  · exact length_lt_of_skipBlanks_eq_cons _h
  · exact Nat.lt_of_le_of_lt (length_skipScalar _h') (length_lt_of_skipBlanks_eq_cons _h)
  · exact Nat.lt_trans (length_expectColon _h'')
      (Nat.lt_trans (length_skipQuoted _h') (length_lt_of_skipBlanks_eq_cons _h))
  · exact length_lt_of_skipBlanks_eq_cons _h
  · exact length_lt_of_skipBlanks_eq_cons _h

/-- Passes over one value. -/
def skipValue (s : List Char) : Except Fault (List Char) :=
  skipOpen [] .value s

theorem length_skipOpen {brackets : List Bracket} {expected : Expected} {s rest : List Char}
    (h : skipOpen brackets expected s = .ok rest) : rest.length ≤ s.length := by
  fun_induction skipOpen brackets expected s with
  | case2 _ s c r hs bracket _ r' hr ih =>
    have := length_lt_of_skipBlanks_eq_cons hs
    have := length_lt_of_skipBlanks_eq_cons hr
    have := ih h
    omega
  | case3 _ s c r hs bracket _ d r' hr _ ih =>
    have := length_lt_of_skipBlanks_eq_cons hs
    have := ih h
    omega
  | case5 _ s c r hs _ r' hscalar ih =>
    have := length_lt_of_skipBlanks_eq_cons hs
    have := length_skipScalar hscalar
    have := ih h
    omega
  | case8 _ s r r' hquoted r'' hcolon hs ih =>
    have := length_lt_of_skipBlanks_eq_cons hs
    have := length_skipQuoted hquoted
    have := length_expectColon hcolon
    have := ih h
    omega
  | case12 => simp_all
  | case14 s bracket outer r hs ih =>
    have := length_lt_of_skipBlanks_eq_cons hs
    have := ih h
    omega
  | case15 s bracket outer r hs _ ih =>
    have := length_lt_of_skipBlanks_eq_cons hs
    have := ih h
    omega
  | case1 | case4 | case6 | case7 | case9 | case10 | case11 | case13 | case16 => simp at h

/-- What is wrong with a value of another shape than the one wanted. A value without parts is read
first, so its own fault comes before its shape. -/
def refuse (s : List Char) : Fault :=
  let after {α : Type} (read : Except Fault α) : Fault :=
    match read with
    | .ok _ => .unsuitable
    | .error fault => fault
  match s with
  | [] => .truncated
  | c :: rest =>
    if c = 'n' then after (expect ['u', 'l', 'l'] rest)
    else if c = 't' then after (expect ['r', 'u', 'e'] rest)
    else if c = 'f' then after (expect ['a', 'l', 's', 'e'] rest)
    else if c = '"' then after (readQuoted rest)
    else if c = '-' ∨ c.isDigit = true then after (readNatural s)
    else if (Bracket.ofOpening? c).isSome then .unsuitable
    else .malformed

/-- Reads a null. -/
def readNull (s : List Char) : Except Fault (List Char) :=
  match skipBlanks s with
  | [] => .error .truncated
  | c :: rest => if c = 'n' then expect ['u', 'l', 'l'] rest else .error (refuse (c :: rest))

/-- Reads a closing bracket. -/
def expectClosing (bracket : Bracket) (s : List Char) : Except Fault (List Char) :=
  match skipBlanks s with
  | [] => .error .truncated
  | c :: rest => if c = bracket.closing then .ok rest else .error .malformed

theorem length_readNull {s rest : List Char} (h : readNull s = .ok rest) :
    rest.length < s.length := by
  unfold readNull at h
  split at h
  · simp at h
  · rename_i hskip
    have := length_lt_of_skipBlanks_eq_cons hskip
    split at h
    · have := congrArg List.length (eq_append_of_expect h)
      rw [List.length_append] at this
      omega
    · simp at h

theorem length_expectClosing {bracket : Bracket} {s rest : List Char}
    (h : expectClosing bracket s = .ok rest) : rest.length < s.length := by
  unfold expectClosing at h
  split at h
  · simp at h
  · rename_i hskip
    have := length_lt_of_skipBlanks_eq_cons hskip
    split at h
    · rw [Except.ok.injEq] at h
      exact h ▸ this
    · simp at h

end Lexis.Json
