import Lexis.Proofs.Supply.CutAfter
import Lexis.Supply.TextLines

/-!
# How a text falls into lines

A text is empty, or a last line without a newline, or a line with its newline and the text behind
it (`text_induction`); `pieces` takes it apart in that way. So the lines of a text have no newline
of their own (`newline_not_mem_textLines`), and lines without newlines that are written one after
the other, each ended by a carriage return and a newline, are the lines of what is written
(`textLines_terminated`), whatever they end with. A text that is empty or ends with a newline has
as many lines as newlines, and what is written behind it begins a line of its own
(`pieces_append`).
-/

set_option autoImplicit false

namespace Lexis

theorem pieces_eq_cutAfter (text : List Char) : pieces text = cutAfter '\n' text := by
  induction text with
  | nil => rfl
  | cons c rest ih =>
    rw [pieces, cutAfter, ih]
    cases cutAfter '\n' rest <;> rfl

/-- What stands up to the first newline is a piece. -/
theorem pieces_append_newline {line : List Char} (h : '\n' ∉ line) (rest : List Char) :
    pieces (line ++ '\n' :: rest) = (line ++ ['\n']) :: pieces rest := by
  rw [pieces_eq_cutAfter, pieces_eq_cutAfter, cutAfter_append_stop h]

/-- Without a newline everything is one piece. -/
theorem pieces_of_not_mem {line : List Char} (h : '\n' ∉ line) (hne : line ≠ []) :
    pieces line = [line] := by
  rw [pieces_eq_cutAfter, cutAfter_of_not_mem h hne]

/-- Induction on a text, line by line. -/
@[elab_as_elim]
theorem text_induction {motive : List Char → Prop} (empty : motive [])
    (unterminated : ∀ line, '\n' ∉ line → line ≠ [] → motive line)
    (terminated : ∀ line rest, '\n' ∉ line → motive rest → motive (line ++ '\n' :: rest))
    (text : List Char) : motive text :=
  cutAfter_induction '\n' empty unterminated terminated text

/-! ## Lines have no newline -/

theorem mem_of_mem_stripTerminator {piece : List Char} {c : Char}
    (h : c ∈ stripTerminator piece) : c ∈ piece := by
  unfold stripTerminator at h
  split at h
  · rename_i before hreverse
    rw [← List.mem_reverse, hreverse]
    exact List.mem_cons_of_mem _ (List.mem_cons_of_mem _ (List.mem_reverse.1 h))
  · rename_i before _ hreverse
    rw [← List.mem_reverse, hreverse]
    exact List.mem_cons_of_mem _ (List.mem_reverse.1 h)
  · exact h

/-- At most the carriage return before the newline goes with it. -/
theorem stripTerminator_append_newline (line : List Char) :
    stripTerminator (line ++ ['\n']) = line ∨
      line = stripTerminator (line ++ ['\n']) ++ ['\r'] := by
  by_cases hlast : line.getLast? = some '\r'
  · obtain ⟨before, rfl⟩ := List.getLast?_eq_some_iff.1 hlast
    have hstrip : stripTerminator (before ++ ['\r'] ++ ['\n']) = before := by
      rw [List.append_assoc]
      exact stripTerminator_returnNewline before
    exact .inr (by rw [hstrip])
  · exact .inl (stripTerminator_newline line hlast)

theorem newline_not_mem_stripTerminator {line : List Char} (h : '\n' ∉ line) :
    '\n' ∉ stripTerminator (line ++ ['\n']) := by
  intro hmem
  rcases stripTerminator_append_newline line with hsame | hreturn
  · rw [hsame] at hmem
    exact h hmem
  · rw [hreturn] at h
    exact h (List.mem_append_left _ hmem)

theorem newline_not_mem_of_mem_pieces {text piece : List Char} (h : piece ∈ pieces text) :
    '\n' ∉ stripTerminator piece := by
  induction text using text_induction with
  | empty => cases h
  | unterminated line hline hne =>
    rw [pieces_of_not_mem hline hne] at h
    obtain rfl := List.mem_singleton.1 h
    exact fun hmem => hline (mem_of_mem_stripTerminator hmem)
  | terminated line rest hline ih =>
    rw [pieces_append_newline hline] at h
    rcases List.mem_cons.1 h with rfl | h
    · exact newline_not_mem_stripTerminator hline
    · exact ih h

theorem newline_not_mem_textLines {text line : String} (h : line ∈ textLines text) :
    '\n' ∉ line.toList := by
  obtain ⟨piece, hpiece, rfl⟩ := List.mem_map.1 h
  rw [String.toList_ofList]
  exact newline_not_mem_of_mem_pieces hpiece

/-! ## Texts put together -/

/-- What is written behind the text begins a line: it is empty or ends with a newline. -/
def EndsLine (text : List Char) : Prop :=
  ∀ c, text.getLast? = some c → c = '\n'

theorem EndsLine.tail {line rest : List Char} (h : EndsLine (line ++ '\n' :: rest)) :
    EndsLine rest := by
  intro c hc
  apply h c
  rw [List.getLast?_append, List.getLast?_cons, hc]
  rfl

theorem EndsLine.newline_mem {text : List Char} (h : EndsLine text) (hne : text ≠ []) :
    '\n' ∈ text := by
  have hlast : text.getLast? = some (text.getLast hne) := List.getLast?_eq_some_getLast hne
  rw [← h _ hlast]
  exact List.getLast_mem hne

theorem pieces_append {first : List Char} (h : EndsLine first) (second : List Char) :
    pieces (first ++ second) = pieces first ++ pieces second := by
  induction first using text_induction with
  | empty => rfl
  | unterminated line hline hne => exact absurd (h.newline_mem hne) hline
  | terminated line rest hline ih =>
    rw [List.append_assoc, List.cons_append, pieces_append_newline hline,
      pieces_append_newline hline, ih h.tail, List.cons_append]

theorem length_pieces {text : List Char} (h : EndsLine text) :
    (pieces text).length = text.count '\n' := by
  induction text using text_induction with
  | empty => rfl
  | unterminated line hline hne => exact absurd (h.newline_mem hne) hline
  | terminated line rest hline ih =>
    rw [pieces_append_newline hline, List.length_cons, ih h.tail, List.count_append,
      List.count_cons_self, List.count_eq_zero.2 hline, Nat.zero_add]

/-! ## Lines that are written out -/

/-- Lines, each ended by a carriage return and a newline. -/
def terminated (lines : List (List Char)) : List Char :=
  lines.flatMap (· ++ ['\r', '\n'])

theorem pieces_terminated {lines : List (List Char)} (h : ∀ line ∈ lines, '\n' ∉ line) :
    pieces (terminated lines) = lines.map (· ++ ['\r', '\n']) := by
  induction lines with
  | nil => rfl
  | cons line lines ih =>
    obtain ⟨hline, hlines⟩ := List.forall_mem_cons.1 h
    have hreturn : '\n' ∉ line ++ ['\r'] := by simp [hline]
    have hsplit : terminated (line :: lines) = (line ++ ['\r']) ++ '\n' :: terminated lines := by
      simp [terminated]
    rw [hsplit, pieces_append_newline hreturn, ih hlines, List.append_assoc]
    rfl

/-- Reading gives the lines back, also those that end in a carriage return. -/
theorem textLines_terminated {lines : List (List Char)} (h : ∀ line ∈ lines, '\n' ∉ line) :
    textLines (String.ofList (terminated lines)) = lines.map String.ofList := by
  rw [textLines, String.toList_ofList, pieces_terminated h, List.map_map]
  refine List.map_congr_left fun line _ => ?_
  rw [Function.comp_apply, stripTerminator_returnNewline]

end Lexis
