import Lexis.CommandLine.LogFilter

/-!
# Log lines

An event is shown on a line with its level, the part of the program it comes from, its message
and its fields. In the message, controls on which a terminal would act are shown by their codes. A
log shows the events that its filter lets through.
-/

set_option autoImplicit false

namespace Lexis.CommandLine

/-- The code of a control character in hexadecimal. -/
def hexCode (n : Nat) : List Char :=
  Nat.toDigits 16 n

/-- A character of a text that is shown between quotes. -/
def showChar (c : Char) : List Char :=
  if c = '"' then ['\\', '"']
  else if c = '\\' then ['\\', '\\']
  else if c = '\t' then ['\\', 't']
  else if c = '\r' then ['\\', 'r']
  else if c = '\n' then ['\\', 'n']
  else if c = '\x00' then ['\\', '0']
  else if c.toNat < 0x20 ∨ (0x7F ≤ c.toNat ∧ c.toNat < 0xA0) then
    '\\' :: 'u' :: '\x7b' :: hexCode c.toNat ++ ['\x7d']
  else [c]

def showText (text : String) : String :=
  "\"" ++ String.ofList (text.toList.flatMap showChar) ++ "\""

/-- A character of a message. -/
def showMessageChar (c : Char) : List Char :=
  if c = '\x1b' then ['\\', 'x', '1', 'b']
  else if c = '\x07' then ['\\', 'x', '0', '7']
  else if c = '\x08' then ['\\', 'x', '0', '8']
  else if c = '\x0c' then ['\\', 'x', '0', 'c']
  else if c = '\x7f' then ['\\', 'x', '7', 'f']
  else if 0x80 ≤ c.toNat ∧ c.toNat < 0xA0 then
    '\\' :: 'u' :: '\x7b' :: hexCode c.toNat ++ ['\x7d']
  else [c]

def showMessage (message : String) : String :=
  String.ofList (message.toList.flatMap showMessageChar)

def showValue : Event.Value → String
  | .path text => text
  | .flag value => if value then "true" else "false"
  | .number value => Nat.repr value
  | .text value => showText value

/-- The name of a level, on the right of five columns. -/
def showLevel (level : Level) : String :=
  String.ofList (List.replicate (5 - level.name.length) ' ') ++ level.name

/-- The line of an event. -/
def logLine (event : Event) : String :=
  showLevel event.level ++ " " ++ Event.origin ++ ": " ++ showMessage event.message ++
    String.join (event.fields.map fun field => " " ++ field.1 ++ "=" ++ showValue field.2)

/-- The lines of the events that a filter shows. -/
def logLines (filter : LogFilter) (events : Array Event) : List String :=
  (events.toList.filter filter.shows).map logLine

end Lexis.CommandLine
