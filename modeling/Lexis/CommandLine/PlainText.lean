/-!
# Plain text

A text that is repeated to the user is shown without what a terminal would obey: control characters
other than line breaks and tabs, and whole control sequences. A sequence begins with an escape; its
next characters say of which form it is, and so where it ends. A cancel or substitute character ends
any sequence, an escape begins a new one.

A line break or a tab within a short sequence is shown, and the text after it too, up to a control
character, with which the sequence goes on, or a character beyond ASCII, which ends it.
-/

set_option autoImplicit false

namespace Lexis.CommandLine

/-- How far a control sequence has come. -/
inductive ControlSequence
  /-- An escape. -/
  | escape
  /-- An escape with more to come before the final character. -/
  | intermediate
  /-- An escape and an opening square bracket, with parameters. -/
  | parameters
  /-- A string for the device, of which the header has begun. -/
  | device
  | deviceParameters
  | deviceIntermediate
  /-- A string that is ended from outside or by the string terminator. -/
  | string
  /-- A command for the operating system, which a bell ends too. -/
  | command
  deriving DecidableEq

/-- What becomes of a text at some place. -/
inductive Showing
  | text
  | hidden (sequence : ControlSequence)
  /-- The text is shown although the sequence has not ended. -/
  | paused (sequence : ControlSequence)
  deriving DecidableEq

/-- Line breaks, form feeds and tabs. -/
def isBreak (c : Char) : Bool :=
  c = '\t' || c = '\n' || c = '\x0c' || c = '\r'

/-- Whether a character of a text is shown. -/
def isPlain (c : Char) : Bool :=
  isBreak c || (0x20 ≤ c.toNat && c.toNat != 0x7F)

/-- Whether the string terminator, the byte 0x9C, is in the encoding of a character. -/
def holdsTerminator (c : Char) : Bool :=
  (String.utf8EncodeChar c).contains 0x9C

namespace ControlSequence

/-- Whether a break is shown within the sequence. -/
def showsBreak : ControlSequence → Bool
  | escape | intermediate | parameters => true
  | _ => false

/-- The character after an escape. -/
def ofSecond (c : Char) : Showing :=
  if 0x20 ≤ c.toNat ∧ c.toNat ≤ 0x2F then .hidden intermediate
  else if c = '[' then .hidden parameters
  else if c = ']' then .hidden command
  else if c = 'P' then .hidden device
  else if c = 'X' ∨ c = '^' ∨ c = '_' then .hidden string
  else if 0x30 ≤ c.toNat ∧ c.toNat ≤ 0x7E then .text
  else .hidden escape

/-- A character of a sequence. -/
def advance (sequence : ControlSequence) (c : Char) : Showing :=
  let n := c.toNat
  if c = '\x1b' then .hidden escape
  else if c = '\x18' ∨ c = '\x1a' then .text
  else
    match sequence with
    | escape => ofSecond c
    | intermediate => if 0x30 ≤ n ∧ n ≤ 0x7E then .text else .hidden intermediate
    | parameters => if 0x40 ≤ n ∧ n ≤ 0x7E then .text else .hidden parameters
    | device =>
      if 0x20 ≤ n ∧ n ≤ 0x2F then .hidden deviceIntermediate
      else if 0x30 ≤ n ∧ n ≤ 0x3F then .hidden deviceParameters
      else if 0x40 ≤ n ∧ n ≤ 0x7E then .hidden string
      else .hidden device
    | deviceParameters =>
      if 0x20 ≤ n ∧ n ≤ 0x2F then .hidden deviceIntermediate
      else if 0x3C ≤ n ∧ n ≤ 0x7E then .hidden string
      else .hidden deviceParameters
    | deviceIntermediate =>
      if 0x30 ≤ n ∧ n ≤ 0x7E then .hidden string else .hidden deviceIntermediate
    | string => if holdsTerminator c then .text else .hidden string
    | command => if c = '\x07' then .text else .hidden command

end ControlSequence

/-- Whether a character is shown, and what becomes of the text after it. -/
def Showing.step (showing : Showing) (c : Char) : Bool × Showing :=
  match showing with
  | text =>
    if isPlain c then (true, text)
    else (false, if c = '\x1b' then hidden .escape else text)
  | hidden sequence =>
    if sequence.showsBreak && isBreak c then (true, paused sequence)
    else (false, sequence.advance c)
  | paused sequence =>
    if isPlain c then (true, if c.toNat < 0x80 then paused sequence else text)
    else (false, sequence.advance c)

/-- What is shown of a text. -/
def Showing.plain (showing : Showing) : List Char → List Char
  | [] => []
  | c :: rest =>
    let next := showing.step c
    if next.1 then c :: next.2.plain rest else next.2.plain rest

/-- A text as it is repeated to the user. -/
def plainText (text : String) : String :=
  String.ofList (Showing.text.plain text.toList)

end Lexis.CommandLine
