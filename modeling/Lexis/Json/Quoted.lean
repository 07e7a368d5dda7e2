import Lexis.Alphabet.ByteSize
import Lexis.Alphabet.HexDigit
import Lexis.Json.Basic

/-!
# Quoted text

Writing escapes the quote, the backslash and the control characters and nothing else: with a
letter where JSON has one, otherwise by number. Reading takes every escape of JSON. A character
beyond U+FFFF may be escaped as a pair of surrogates; a surrogate alone is no character.
-/

set_option autoImplicit false

namespace Lexis.Json

/-- The character that a letter stands for after a backslash. -/
def ofEscapeLetter? (letter : Char) : Option Char :=
  if letter = '"' then some '"'
  else if letter = '\\' then some '\\'
  else if letter = '/' then some '/'
  else if letter = 'b' then some '\x08'
  else if letter = 'f' then some '\x0c'
  else if letter = 'n' then some '\n'
  else if letter = 'r' then some '\r'
  else if letter = 't' then some '\t'
  else none

/-- A character as it is written between quotes. -/
def escape (c : Char) : List Char :=
  if c = '"' then ['\\', '"']
  else if c = '\\' then ['\\', '\\']
  else if c = '\x08' then ['\\', 'b']
  else if c = '\x0c' then ['\\', 'f']
  else if c = '\n' then ['\\', 'n']
  else if c = '\r' then ['\\', 'r']
  else if c = '\t' then ['\\', 't']
  else if c.toNat < 0x20 then
    ['\\', 'u', '0', '0', Nat.digitChar (c.toNat / 16), Nat.digitChar (c.toNat % 16)]
  else [c]

/-- A text between quotes. -/
def quoted (text : List Char) : List Char :=
  '"' :: text.flatMap escape ++ ['"']

/-- Reads four hexadecimal digits. With fewer than four bytes left the text is cut off, whatever
they are. -/
def readUnit : Reader Nat
  | a :: b :: c :: d :: rest =>
    match hexValue? a, hexValue? b, hexValue? c, hexValue? d with
    | some a, some b, some c, some d => .ok (((a * 16 + b) * 16 + c) * 16 + d, rest)
    | _, _, _, _ => .error .malformed
  | s => .error (if byteSize s < 4 then .truncated else .malformed)

def isHighSurrogate (unit : Nat) : Bool :=
  0xD800 ≤ unit && unit ≤ 0xDBFF

def isLowSurrogate (unit : Nat) : Bool :=
  0xDC00 ≤ unit && unit ≤ 0xDFFF

/-- The character of a surrogate pair. -/
def ofSurrogates (high low : Nat) : Char :=
  .ofNat (0x10000 + (high - 0xD800) * 0x400 + (low - 0xDC00))

/-- Reads the second half of a pair, itself an escape. -/
def readLowSurrogate (high : Nat) : Reader Char
  | [] => .error .truncated
  | ['\\'] => .error .truncated
  | a :: b :: s =>
    if a = '\\' ∧ b = 'u' then
      match readUnit s with
      | .ok (low, rest) =>
        if isLowSurrogate low then .ok (ofSurrogates high low, rest) else .error .malformed
      | .error fault => .error fault
    else .error .malformed
  | _ => .error .malformed

/-- Reads what follows a backslash. -/
def readEscape : Reader Char
  | [] => .error .truncated
  | letter :: s =>
    if letter = 'u' then
      match readUnit s with
      | .ok (unit, rest) =>
        if isLowSurrogate unit then .error .malformed
        else if isHighSurrogate unit then readLowSurrogate unit rest
        else .ok (.ofNat unit, rest)
      | .error fault => .error fault
    else
      match ofEscapeLetter? letter with
      | some c => .ok (c, s)
      | none => .error .malformed

theorem shortens_readUnit : Shortens readUnit := by
  intro s rest unit h
  unfold readUnit at h
  split at h
  · split at h
    · simp only [Except.ok.injEq, Prod.mk.injEq] at h
      simp only [← h.2, List.length_cons]
      omega
    · simp at h
  · simp at h

theorem shortens_readLowSurrogate (high : Nat) : Shortens (readLowSurrogate high) := by
  intro s rest c h
  unfold readLowSurrogate at h
  split at h
  · simp at h
  · simp at h
  · split at h
    · split at h
      · rename_i hunit
        have := shortens_readUnit hunit
        split at h
        · simp only [Except.ok.injEq, Prod.mk.injEq] at h
          simp only [← h.2, List.length_cons]
          omega
        · simp at h
      · simp at h
    · simp at h
  · simp at h

theorem shortens_readEscape : Shortens readEscape := by
  intro s rest c h
  unfold readEscape at h
  split at h
  · simp at h
  · split at h
    · split at h
      · rename_i hunit
        have := shortens_readUnit hunit
        split at h
        · simp at h
        · split at h
          · have := shortens_readLowSurrogate _ h
            simp only [List.length_cons]
            omega
          · simp only [Except.ok.injEq, Prod.mk.injEq] at h
            simp only [← h.2, List.length_cons]
            omega
      · simp at h
    · split at h
      · simp only [Except.ok.injEq, Prod.mk.injEq] at h
        simp [← h.2]
      · simp at h

/-- Reads the characters up to the closing quote, and the quote. -/
def readQuoted (s : List Char) : Except Fault (List Char × List Char) :=
  match s with
  | [] => .error .truncated
  | c :: s =>
    if c = '"' then .ok ([], s)
    else if c = '\\' then
      match _h : readEscape s with
      | .ok (d, rest) => (readQuoted rest).map fun read => (d :: read.1, read.2)
      | .error fault => .error fault
    else if c.toNat < 0x20 then .error .malformed
    else (readQuoted s).map fun read => (c :: read.1, read.2)
termination_by s.length
decreasing_by
  · have := shortens_readEscape _h
    simp only [List.length_cons]
    omega
  · simp

theorem shortens_readQuoted : Shortens readQuoted := by
  intro s rest text h
  fun_induction readQuoted s generalizing text rest with
  | case1 => simp at h
  | case2 s =>
    simp only [Except.ok.injEq, Prod.mk.injEq] at h
    simp [← h.2]
  | case3 s d rest' hescape _ ih =>
    obtain ⟨⟨read, left⟩, hread, heq⟩ := map_eq_ok h
    simp only [Prod.mk.injEq] at heq
    have := ih (heq.2 ▸ hread)
    have := shortens_readEscape hescape
    simp only [List.length_cons]
    omega
  | case4 => simp at h
  | case5 => simp at h
  | case6 c s _ _ _ ih =>
    obtain ⟨⟨read, left⟩, hread, heq⟩ := map_eq_ok h
    simp only [Prod.mk.injEq] at heq
    have := ih (heq.2 ▸ hread)
    simp only [List.length_cons]
    omega

end Lexis.Json
