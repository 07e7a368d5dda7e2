import Lexis.Proofs.Supply.Chunks

/-!
# The lines of bytes

Bytes are cut into lines behind each newline byte, whether or not they are the bytes of a text; the
lines of a text are cut in the same places (`byteLines_utf8`). A feed that gives the bytes in
chunks answers with one line after the other, each decoded by itself (`ByteFeed.pull_of_gives`). A
line whose bytes are no text makes the pull fail, and takes nothing of the other lines with it.
-/

set_option autoImplicit false

namespace Lexis

/-- The lines of some bytes, each of which keeps its newline byte. -/
def byteLines (bytes : List UInt8) : List (List UInt8) :=
  cutAfter newlineByte bytes

theorem byteLines_utf8 (text : List Char) : byteLines (utf8 text) = (pieces text).map utf8 := by
  unfold byteLines
  induction text using text_induction with
  | empty => rfl
  | unterminated line hline hne =>
    have hbytes : utf8 line ≠ [] := mt utf8_eq_nil_iff.1 hne
    rw [pieces_of_not_mem hline hne, List.map_singleton,
      cutAfter_of_not_mem (newlineByte_not_mem_utf8 hline) hbytes]
  | terminated line rest hline ih =>
    rw [pieces_append_newline hline, List.map_cons, utf8_append, utf8_append, utf8_newline,
      cutAfter_append_stop (newlineByte_not_mem_utf8 hline), ih]
    rfl

/-! ## Bytes of a text -/

/-- The bytes are those of some text. -/
def IsText (bytes : List UInt8) : Prop :=
  ∃ text, utf8 text = bytes

theorem isText_iff {bytes : List UInt8} :
    IsText bytes ↔ (String.fromUTF8? bytes.toByteArray).isSome := by
  constructor
  · intro h
    obtain ⟨text, rfl⟩ := h
    rw [fromUTF8?_utf8]
    rfl
  · intro h
    obtain ⟨text, htext⟩ := Option.isSome_iff_exists.1 h
    have hbytes := congrArg (·.data.toList) (toByteArray_of_fromUTF8? htext)
    refine ⟨text.toList, ?_⟩
    rw [utf8_toList, String.toUTF8_eq_toByteArray]
    simpa only [List.toList_data_toByteArray] using hbytes

instance (bytes : List UInt8) : Decidable (IsText bytes) :=
  decidable_of_iff _ isText_iff.symm

theorem decodeLine_ne_failed {line : List UInt8} (h : IsText line) (error : IoError) :
    decodeLine line ≠ .failed error := by
  obtain ⟨text, rfl⟩ := h
  by_cases hne : text = []
  · rw [hne]
    exact nofun
  · rw [decodeLine_utf8 hne]
    exact nofun

/-- A line that is no text is an error of its own. -/
theorem decodeLine_of_not_isText {line : List UInt8} (h : ¬ IsText line) :
    decodeLine line = .failed .notText := by
  have hne : line.isEmpty = false := by
    rw [List.isEmpty_eq_false_iff]
    rintro rfl
    exact h ⟨[], rfl⟩
  have hnone : String.fromUTF8? line.toByteArray = none := by
    rw [isText_iff, Option.not_isSome_iff_eq_none] at h
    exact h
  rw [decodeLine, hne, hnone]
  rfl

theorem utf8_flatten (texts : List (List Char)) :
    utf8 texts.flatten = (texts.map utf8).flatten := by
  induction texts with
  | nil => rfl
  | cons text texts ih =>
    rw [List.flatten_cons, utf8_append, ih, List.map_cons, List.flatten_cons]

/-- Lines that are text are the bytes of as many texts. -/
theorem exists_map_utf8 {lines : List (List UInt8)} (h : ∀ line ∈ lines, IsText line) :
    ∃ texts : List (List Char), texts.map utf8 = lines := by
  induction lines with
  | nil => exact ⟨[], rfl⟩
  | cons line lines ih =>
    obtain ⟨⟨text, htext⟩, hlines⟩ := List.forall_mem_cons.1 h
    obtain ⟨texts, htexts⟩ := ih hlines
    exact ⟨text :: texts, by rw [List.map_cons, htext, htexts]⟩

/-- Lines that are text make a text with these lines, if they are the lines of what they make. -/
theorem exists_text_of_parts {lines : List (List UInt8)} (hall : ∀ line ∈ lines, IsText line)
    (hlines : byteLines lines.flatten = lines) :
    ∃ text, utf8 text = lines.flatten ∧ (pieces text).map utf8 = lines := by
  obtain ⟨texts, htexts⟩ := exists_map_utf8 hall
  have hflat : utf8 texts.flatten = lines.flatten := by
    rw [utf8_flatten, htexts]
  refine ⟨texts.flatten, hflat, ?_⟩
  rw [← byteLines_utf8, hflat, hlines]

/-- The lines that are text, put together, make a text with these lines. -/
theorem exists_text_of_lines (bytes : List UInt8) :
    ∃ text, utf8 text = ((byteLines bytes).filter (IsText ·)).flatten ∧
      (pieces text).map utf8 = (byteLines bytes).filter (IsText ·) := by
  apply exists_text_of_parts
  · intro line hline
    exact of_decide_eq_true (List.mem_filter.1 hline).2
  · exact cutAfter_flatten_filter _ bytes

/-- So do the first lines, up to one that is no text. -/
theorem exists_text_of_first_lines {bytes : List UInt8} {good others : List (List UInt8)}
    (hlines : byteLines bytes = good ++ others) (hgood : ∀ line ∈ good, IsText line) :
    ∃ text, utf8 text = good.flatten ∧ (pieces text).map utf8 = good := by
  apply exists_text_of_parts hgood
  exact cutAfter_flatten_prefix hlines

/-! ## Lines from chunks -/

/-- A pull takes the first line and no byte of another. -/
theorem ByteFeed.pull_of_gives {fills : List Fill} {bytes : List UInt8} (h : Gives fills bytes) :
    (byteLines bytes = [] ∧ LineSupply.pull (⟨fills⟩ : ByteFeed) = (.finished, ⟨[]⟩)) ∨
      ∃ line more left, byteLines bytes = line :: byteLines more ∧
        LineSupply.pull (⟨fills⟩ : ByteFeed) = (decodeLine line, ⟨left⟩) ∧ Gives left more := by
  unfold byteLines
  induction bytes using cutAfter_induction newlineByte with
  | empty => exact .inl ⟨rfl, pull_of_nil h⟩
  | unterminated line hline hne =>
    rw [cutAfter_of_not_mem hline hne]
    exact .inr ⟨line, [], [], rfl, pull_of_not_mem hline h, .nil⟩
  | terminated line rest hline _ =>
    obtain ⟨left, hpull, hleft⟩ := pull_of_newline hline h
    rw [cutAfter_append_stop hline]
    exact .inr ⟨line ++ [newlineByte], rest, left, rfl, hpull, hleft⟩

theorem ByteFeed.pull_ne_failed {fills : List Fill} {bytes : List UInt8} (h : Gives fills bytes)
    (hfirst : ∀ line, (byteLines bytes).head? = some line → IsText line) (error : IoError) :
    (LineSupply.pull (⟨fills⟩ : ByteFeed)).1 ≠ .failed error := by
  rcases pull_of_gives h with ⟨_, hpull⟩ | ⟨line, _, _, hcons, hpull, _⟩
  · rw [hpull]
    exact nofun
  · rw [hpull]
    apply decodeLine_ne_failed
    exact hfirst line (by rw [hcons, List.head?_cons])

theorem ByteFeed.pull_of_not_isText {fills : List Fill} {bytes line : List UInt8}
    (h : Gives fills bytes) (hhead : (byteLines bytes).head? = some line) (hnot : ¬ IsText line) :
    ∃ feed : ByteFeed, LineSupply.pull (⟨fills⟩ : ByteFeed) = (.failed .notText, feed) := by
  rcases pull_of_gives h with ⟨hnil, _⟩ | ⟨first, _, left, hcons, hpull, _⟩
  · rw [hnil] at hhead
    cases hhead
  · rw [hcons] at hhead
    obtain rfl := Option.some.inj hhead
    rw [decodeLine_of_not_isText hnot] at hpull
    exact ⟨⟨left⟩, hpull⟩

end Lexis
