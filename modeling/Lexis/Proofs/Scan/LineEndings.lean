import Lexis.Proofs.Supply.Pieces
import Lexis.Scan.Session

/-!
# Lines written out and read back

By `MadeOf lines text` the text is made of the lines, each with a terminator of its own choice: a
newline, or a carriage return and a newline. A line that ends with a carriage return takes the
longer one, and a last line that is not empty may do without. The lines that are read from a text
are those it is made of (`MadeOf.textLines_eq`, `madeOf_textLines`), so there is no other way to
take it apart.

Terminators do not matter to a scan. A text keeps its lines when all its newlines get a carriage
return (`MadeOf.withReturns`) and when a newline is put behind it (`MadeOf.concat_newline`).
-/

set_option autoImplicit false

namespace Lexis

/-- The text is made of the lines with their terminators. -/
inductive MadeOf : List String → List Char → Prop
  | nil : MadeOf [] []
  | last {line : String} (hline : '\n' ∉ line.toList) (hne : line ≠ "") : MadeOf [line] line.toList
  | newline {line : String} {lines : List String} {text : List Char} (hline : '\n' ∉ line.toList)
      (hreturn : line.toList.getLast? ≠ some '\r') (h : MadeOf lines text) :
    MadeOf (line :: lines) (line.toList ++ '\n' :: text)
  | returnNewline {line : String} {lines : List String} {text : List Char}
      (hline : '\n' ∉ line.toList) (h : MadeOf lines text) :
    MadeOf (line :: lines) (line.toList ++ '\r' :: '\n' :: text)

/-! ## The lines of a text are those it is made of -/

section
variable {line rest : List Char} (h : '\n' ∉ line)
include h

theorem textLines_last (hne : line ≠ []) : textLines (.ofList line) = [.ofList line] := by
  have hlast : line.getLast? ≠ some '\n' := fun hlast => h (List.mem_of_getLast? hlast)
  rw [textLines, String.toList_ofList, pieces_of_not_mem h hne, List.map_singleton,
    stripTerminator_of_getLast? hlast]

theorem textLines_cons :
    textLines (.ofList (line ++ '\n' :: rest)) =
      .ofList (stripTerminator (line ++ ['\n'])) :: textLines (.ofList rest) := by
  rw [textLines, String.toList_ofList, pieces_append_newline h, List.map_cons, textLines,
    String.toList_ofList]

end

/-- What is made of lines is read as these lines. -/
theorem MadeOf.textLines_eq {lines : List String} {text : List Char} (h : MadeOf lines text) :
    textLines (.ofList text) = lines := by
  induction h with
  | nil => rfl
  | @last line hline hne =>
    have hchars : line.toList ≠ [] := mt String.toList_eq_nil_iff.1 hne
    rw [textLines_last hline hchars, String.ofList_toList]
  | newline hline hreturn _ ih =>
    rw [textLines_cons hline, stripTerminator_newline _ hreturn, ih, String.ofList_toList]
  | @returnNewline line lines text hline _ ih =>
    have hfront : '\n' ∉ line.toList ++ ['\r'] := by simp [hline]
    have hsplit : line.toList ++ '\r' :: '\n' :: text = line.toList ++ ['\r'] ++ '\n' :: text := by
      simp
    rw [hsplit, textLines_cons hfront, List.append_assoc, List.singleton_append,
      stripTerminator_returnNewline, ih, String.ofList_toList]

/-- Every text is made of its lines. -/
theorem madeOf_textLines (text : List Char) : MadeOf (textLines (.ofList text)) text := by
  induction text using text_induction with
  | empty => exact .nil
  | unterminated line hline hne =>
    rw [textLines_last hline hne]
    have hmade : MadeOf [.ofList line] (String.ofList line).toList := by
      refine .last ?_ ?_
      · rwa [String.toList_ofList]
      · exact fun hempty => hne (String.ofList_eq_empty_iff.1 hempty)
    rwa [String.toList_ofList] at hmade
  | terminated line rest hline ih =>
    rw [textLines_cons hline]
    by_cases hlast : line.getLast? = some '\r'
    · obtain ⟨front, rfl⟩ := List.getLast?_eq_some_iff.1 hlast
      have hfront : '\n' ∉ (String.ofList front).toList := by
        rw [String.toList_ofList]
        exact fun hmem => hline (List.mem_append_left _ hmem)
      have hmade := MadeOf.returnNewline hfront ih
      rw [String.toList_ofList] at hmade
      rw [List.append_assoc, List.append_assoc, List.singleton_append, List.singleton_append,
        stripTerminator_returnNewline]
      exact hmade
    · have hfront : '\n' ∉ (String.ofList line).toList := by rwa [String.toList_ofList]
      have hreturn : (String.ofList line).toList.getLast? ≠ some '\r' := by
        rwa [String.toList_ofList]
      have hmade := MadeOf.newline hfront hreturn ih
      rw [String.toList_ofList] at hmade
      rwa [stripTerminator_newline line hlast]

theorem madeOf_iff {lines : List String} {text : String} :
    MadeOf lines text.toList ↔ textLines text = lines := by
  constructor
  · intro h
    rw [← h.textLines_eq, String.ofList_toList]
  · rintro rfl
    have hmade := madeOf_textLines text.toList
    rwa [String.ofList_toList] at hmade

/-! ## Taking lines -/

namespace TextLines

/-- What is taken after `n` other takes. -/
def taken (lines : TextLines) : Nat → Option String
  | 0 => lines.next?.1
  | n + 1 => lines.next?.2.taken n

/-- The lines come in order, and nothing behind them. -/
theorem taken_eq (left : List String) (n : Nat) : (⟨left⟩ : TextLines).taken n = left[n]? := by
  induction n generalizing left with
  | zero => cases left <;> rfl
  | succ n ih =>
    cases left with
    | nil => exact ih []
    | cons line left => exact (ih left).trans List.getElem?_cons_succ.symm

theorem taken_eq_iff {left lines : List String} :
    (∀ n, (⟨left⟩ : TextLines).taken n = lines[n]?) ↔ left = lines := by
  constructor
  · intro h
    exact List.ext_getElem? fun n => (taken_eq left n).symm.trans (h n)
  · rintro rfl n
    exact taken_eq left n

end TextLines

/-! ## Other terminators -/

/-- Puts a carriage return in front of each newline. -/
def withReturns (text : List Char) : List Char :=
  text.flatMap fun c => if c = '\n' then ['\r', '\n'] else [c]

theorem withReturns_append (a b : List Char) :
    withReturns (a ++ b) = withReturns a ++ withReturns b :=
  List.flatMap_append

theorem withReturns_of_not_mem {line : List Char} (h : '\n' ∉ line) : withReturns line = line := by
  induction line with
  | nil => rfl
  | cons c line ih =>
    have hc : c ≠ '\n' := (List.ne_of_not_mem_cons h).symm
    rw [withReturns, List.flatMap_cons, if_neg hc]
    exact congrArg (c :: ·) (ih (List.not_mem_of_not_mem_cons h))

/-- With only newlines in a text, each of them may get a carriage return. -/
theorem MadeOf.withReturns {lines : List String} {text : List Char} (h : MadeOf lines text)
    (hplain : ¬ ['\r', '\n'] <:+: text) : MadeOf lines (withReturns text) := by
  induction h with
  | nil => exact .nil
  | last hline hne =>
    rw [withReturns_of_not_mem hline]
    exact .last hline hne
  | @newline line lines text hline _ _ ih =>
    have hrest : ¬ ['\r', '\n'] <:+: text := fun hwithin =>
      hplain (hwithin.trans ((List.suffix_cons _ _).trans (List.suffix_append _ _)).isInfix)
    rw [withReturns_append, withReturns_of_not_mem hline]
    exact .returnNewline hline (ih hrest)
  | @returnNewline line lines text hline _ _ =>
    refine absurd ?_ hplain
    exact ⟨line.toList, text, by simp⟩

/-- A newline behind the last line ends it, when it was not ended before. -/
theorem MadeOf.concat_newline {lines : List String} {text : List Char} {last : Char}
    (h : MadeOf lines text) (hlast : text.getLast? = some last) (hnewline : last ≠ '\n')
    (hreturn : last ≠ '\r') : MadeOf lines (text ++ ['\n']) := by
  have hrest : ∀ {front rest : List Char}, (front ++ '\n' :: rest).getLast? = some last →
      rest.getLast? = some last := by
    intro front rest hlast
    cases rest with
    | nil =>
      rw [List.getLast?_concat] at hlast
      exact absurd (Option.some.inj hlast).symm hnewline
    | cons c rest => rwa [List.getLast?_append_cons, List.getLast?_cons_cons] at hlast
  induction h with
  | nil => cases hlast
  | last hline hne =>
    refine .newline hline ?_ .nil
    rw [hlast]
    exact fun hsame => hreturn (Option.some.inj hsame)
  | newline hline hnotReturn _ ih =>
    rw [List.append_assoc]
    exact .newline hline hnotReturn (ih (hrest hlast))
  | @returnNewline line lines text hline _ ih =>
    have hsplit : line.toList ++ '\r' :: '\n' :: text = line.toList ++ ['\r'] ++ '\n' :: text := by
      simp
    rw [hsplit] at hlast
    rw [List.append_assoc]
    exact .returnNewline hline (ih (hrest hlast))

namespace Scan

/-- The scan of a text knows nothing but its lines. -/
theorem ofText_eq_of_textLines_eq {a b : String} (h : textLines a = textLines b) :
    ofText a = ofText b := by
  rw [ofText, ofText, TextLines.ofText, TextLines.ofText, h]

/-- The lines that are taken from a text, and nothing behind them, are those it is made of, and it
is made of some. Carriage returns in front of its newlines, when it has none there, and a newline
behind its last character, when that ends no line, make no difference to any calls. -/
theorem session_of_other_line_ends (text : String) :
    (∀ lines, MadeOf lines text.toList ↔ ∀ n, (TextLines.ofText text).taken n = lines[n]?) ∧
    (∃ lines, MadeOf lines text.toList) ∧
    (¬ ['\r', '\n'] <:+: text.toList → ∀ calls,
      (ofText (.ofList (withReturns text.toList))).session calls = (ofText text).session calls) ∧
    (∀ last, text.toList.getLast? = some last → last ≠ '\n' → last ≠ '\r' → ∀ calls,
      (ofText (text ++ "\n")).session calls = (ofText text).session calls) := by
  have hmade : MadeOf (textLines text) text.toList := madeOf_iff.2 rfl
  refine ⟨?_, ⟨_, hmade⟩, ?_, ?_⟩
  · intro lines
    rw [madeOf_iff, TextLines.ofText, TextLines.taken_eq_iff]
  · intro hplain calls
    have hlines := (hmade.withReturns hplain).textLines_eq
    rw [ofText_eq_of_textLines_eq hlines]
  · intro last hlast hnewline hreturn calls
    have hlines := hmade.concat_newline hlast hnewline hreturn
    have hsame : (text ++ "\n").toList = text.toList ++ ['\n'] := String.toList_append
    rw [← hsame, madeOf_iff] at hlines
    rw [ofText_eq_of_textLines_eq hlines]

/-- Both terminators, lines that end with a carriage return, and an open string. -/
theorem session_of_mixed_line_ends :
    (∀ n, (TextLines.ofText "\"a\r\r\n\nb\r").taken n = ["\"a\r", "", "b\r"][n]?) ∧
      (¬ ['\r', '\n'] <:+: "\"a\n\nb".toList ∧ ∀ calls,
        (ofText "\"a\r\n\r\nb").session calls = (ofText "\"a\n\nb").session calls) ∧
      ("\"a\n\nb".toList.getLast? = some 'b' ∧ ∀ calls,
        (ofText "\"a\n\nb\n").session calls = (ofText "\"a\n\nb").session calls) := by
  have hmade : MadeOf ["\"a\r", "", "b\r"] "\"a\r\r\n\nb\r".toList :=
    .returnNewline (by decide) (.newline (by decide) (by decide) (.last (by decide) (by decide)))
  have hplain : ¬ ['\r', '\n'] <:+: "\"a\n\nb".toList := by decide
  have hlast : "\"a\n\nb".toList.getLast? = some 'b' := by decide
  obtain ⟨htaken, _⟩ := session_of_other_line_ends "\"a\r\r\n\nb\r"
  obtain ⟨_, _, hreturns, hnewline⟩ := session_of_other_line_ends "\"a\n\nb"
  exact ⟨(htaken _).1 hmade, ⟨hplain, hreturns hplain⟩,
    ⟨hlast, hnewline 'b' hlast (by decide) (by decide)⟩⟩

end Scan

end Lexis
