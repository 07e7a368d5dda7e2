import Lexis.Alphabet.Letter
import Lexis.Alphabet.Number
import Lexis.Alphabet.Blank
import Lexis.Alphabet.ByteSize
import Lexis.CommandLine.FieldValue
import Lexis.Event

/-!
# Log filters

A filter is a list of directives. A directive shows the events of a part of the program, or of the
whole, up to a level of detail; it may ask for a field as well, or be about spans only. Of the
directives that care about an event the most particular one decides, and of equals the last; an
event that no directive cares about is not shown.

A filter is written as directives between commas, in one of these forms, where a level is a name or
a number and full detail is meant without one:

* `level`, or `part` with or without `=level`;
* `[span]` or `[span{field}]`, with an optional part before and an optional `=level` behind it. The
  span may be empty when there is a field, and the field may have a value behind an equals sign, up
  to another one. A directive with a span or a value is about spans only.

One directive that cannot be read spoils the filter, and so does a value that a filter cannot ask
for.
-/

set_option autoImplicit false

namespace Lexis.CommandLine

/-- What is shown of some events. -/
structure Directive where
  /-- The part of the program, by the beginning of its name. -/
  part : Option String
  /-- A field that the events have. -/
  field : Option String
  /-- Whether it is about spans, of which a scan has none, and not about events. -/
  spansOnly : Bool
  /-- How fine the finest level is that is shown, 0 when none is. -/
  detail : Nat
  deriving DecidableEq

namespace Directive

/-- The directive for everything up to a level. -/
def upTo (level : Level) : Directive :=
  ⟨none, none, false, level.detail⟩

def caresAbout (directive : Directive) (event : Event) : Bool :=
  !directive.spansOnly &&
    (directive.part.all fun part => part.toList.isPrefixOf Event.origin.toList) &&
    directive.field.all event.fieldNames.contains

/-- How particular a directive is about the part. -/
def partSize (directive : Directive) : Nat :=
  directive.part.elim 0 (·.length + 1)

/-- Whether a directive gives way to a later one: it does unless it names a longer part, or one as
long and a field where the other has none or an earlier one in the order of texts. -/
def yieldsTo (earlier later : Directive) : Bool :=
  if earlier.partSize = later.partSize then
    match earlier.field, later.field with
    | none, _ => true
    | some _, none => false
    | some field, some field' => !decide (field' < field)
  else decide (earlier.partSize < later.partSize)

/-- Full detail, which a directive without a level asks for. -/
def fullDetail : Nat :=
  Level.trace.detail

/-- The detail that a level asks for. Its name may be in small or capital letters; its number may
have a plus sign and leading zeros. -/
def detailOf? (text : List Char) : Option Nat :=
  let digits := if text.head? = some '+' then text.tail else text
  if !digits.isEmpty && digits.all Char.isDigit then
    match digits.dropWhile (· = '0') with
    | [] => some 0
    | [c] => (Level.all.find? fun level => Nat.digitChar level.detail == c).map Level.detail
    | _ => none
  else
    let name := String.ofList (text.map Char.toUpper)
    if name = "OFF" then some 0
    else (Level.all.find? fun level => level.name == name).map Level.detail

/-- What is left of a directive that is being read. Where its parts end is seen on the directive
without the blanks around it; the parts themselves are counted off, in bytes, on the directive as it
is kept, blanks included. A part that would begin or end within a character cannot be read. -/
structure Unread where
  /-- What is left of the directive without the blanks. -/
  seen : List Char
  /-- How many bytes have been read of it. -/
  passed : Nat
  /-- The whole directive. -/
  kept : List Char

namespace Unread

/-- The text without the white space around it. -/
def trimmed (text : List Char) : List Char :=
  ((text.dropWhile isWhiteSpace).reverse.dropWhile isWhiteSpace).reverse

def ofText (text : List Char) : Unread :=
  ⟨trimmed text, 0, text⟩

def drop (unread : Unread) (n : Nat) : Unread :=
  ⟨unread.seen.drop n, unread.passed + byteSize (unread.seen.take n), unread.kept⟩

/-- The directive as it is kept, from as many bytes on as have been read. -/
def rest? (unread : Unread) : Option (List Char) :=
  (splitAtByte? unread.passed unread.kept).map Prod.snd

/-- The part before the first character that `stops`, this character, and what is left behind it. -/
def cut? (unread : Unread) (stops : Char → Bool) : Option (String × Char × Unread) :=
  let part := unread.seen.takeWhile (!stops ·)
  match unread.seen.drop part.length with
  | [] => none
  | c :: _ =>
    (unread.rest?.bind (splitAtByte? (byteSize part))).map fun (kept, _) =>
      (String.ofList kept, c, unread.drop (part.length + 1))

/-- The level behind an equals sign. -/
def level? (unread : Unread) : Option Nat :=
  unread.rest?.bind fun rest => if rest.isEmpty then some fullDetail else detailOf? rest

/-- What may follow a closing bracket: nothing, or a level. -/
def endLevel? (unread : Unread) : Option Nat :=
  match unread.seen with
  | [] => some fullDetail
  | c :: _ => if c = '=' then (unread.drop 1).level? else none

end Unread

/-- The name of a field and the value that it is to have. -/
def splitField (field : List Char) : List Char × Option (List Char) :=
  let name := field.takeWhile (· ≠ '=')
  match field.drop name.length with
  | [] => (name, none)
  | _ :: behind => (name, some (behind.takeWhile (· ≠ '=')))

/-- Reads on from behind the bracket that opens a span. -/
def readSpan? (part : Option String) (unread : Unread) : Option Directive :=
  match unread.cut? fun c => c = ']' || c = '\x7b' with
  | none => none
  | some (span, stop, unread) =>
    if stop = ']' then unread.endLevel?.map fun detail => ⟨part, none, true, detail⟩
    else
      match unread.cut? (· = '\x7d') with
      | none => none
      | some (field, _, unread) =>
        if field = "" ∨ unread.seen.head? ≠ some ']' then none
        else
          let (name, value) := splitField field.toList
          if value.all isFieldValue then
            (unread.drop 1).endLevel?.map fun detail =>
              ⟨part, some (String.ofList name), span != "" || value.isSome, detail⟩
          else none

/-- A character with which the name of a part, or a level, may begin. -/
def isNameStart (c : Char) : Bool :=
  c = '-' || c = ':' || c = '_' || isLetter c || isNumberSign c

/-- A character with which the name of a part ends. -/
def isNameEnd (c : Char) : Bool :=
  c = '=' || c = '['

/-- Reads one directive. -/
def read? (text : List Char) : Option Directive :=
  let unread := Unread.ofText text
  match unread.seen with
  | [] => none
  | c :: _ =>
    if c = '[' then readSpan? none (unread.drop 1)
    else if isNameStart c then
      if unread.seen.any isNameEnd then
        match unread.cut? isNameEnd with
        | none => none
        | some (part, stop, unread) =>
          if stop = '=' then unread.level?.map fun detail => ⟨some part, none, false, detail⟩
          else readSpan? (some part) unread
      else
        match detailOf? text with
        | some detail => some ⟨none, none, false, detail⟩
        | none => some ⟨some (String.ofList text), none, false, fullDetail⟩
    else none

end Directive

/-- Which events a log shows. -/
structure LogFilter where
  directives : List Directive
  deriving DecidableEq

namespace LogFilter

/-- The texts between the commas of a setting. -/
def directiveTexts : List Char → List (List Char)
  | [] => [[]]
  | c :: rest =>
    if c = ',' then [] :: directiveTexts rest
    else
      match directiveTexts rest with
      | [] => [[c]]
      | text :: texts => (c :: text) :: texts

/-- The filter that a setting writes. Nothing between two commas is no directive. -/
def ofSetting? (setting : String) : Option LogFilter :=
  (((directiveTexts setting.toList).filter (!·.isEmpty)).mapM Directive.read?).map LogFilter.mk

/-- Without a setting that can be read warnings are shown, or debugging when the command is to be
verbose. -/
def choose (setting : Option String) (verbose : Bool) : LogFilter :=
  match setting.bind ofSetting? with
  | some filter => filter
  | none => ⟨[.upTo (if verbose then .debug else .warn)]⟩

/-- The directive that decides about an event. -/
def decisive? (filter : LogFilter) (event : Event) : Option Directive :=
  (filter.directives.filter (·.caresAbout event)).foldl
    (fun best directive =>
      match best with
      | none => some directive
      | some earlier => some (if earlier.yieldsTo directive then directive else earlier))
    none

def shows (filter : LogFilter) (event : Event) : Bool :=
  (filter.decisive? event).any fun directive => event.level.detail ≤ directive.detail

end LogFilter

end Lexis.CommandLine
