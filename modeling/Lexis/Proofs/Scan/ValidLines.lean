import Lexis.Proofs.Scan.Gathering
import Lexis.Proofs.Scan.SameLines
import Lexis.Proofs.Supply.ByteLines

/-!
# Lines that are no text

A scan over bytes passes each line that is no text with a failure. A caller who goes on calling
gets what the scan of the other lines gives, as if the lines that are no text had never been there
(`calls_through_invalid_lines`).

The feed fails at each such line and otherwise gives the lines that the text of the other lines has
in memory (`HoldsValid`), so this is a case of calling again after a failure, up to the end
(`calls_to_end`).
-/

set_option autoImplicit false

namespace Lexis

namespace Scan

/-- The feed holds the lines that are left in memory, and lines that are no text among them. -/
def HoldsValid (errors : List IoError) (feed : ByteFeed) (lines : TextLines) : Prop :=
  ∃ (bytes : List UInt8) (texts : List (List Char)), Gives feed.fills bytes ∧
    texts.map utf8 = (byteLines bytes).filter (IsText ·) ∧
    errors = List.replicate ((byteLines bytes).countP (¬ IsText ·)) .notText ∧
    lines.left = texts.map fun text => String.ofList (stripTerminator text)

/-- The next answer of the feed. -/
theorem HoldsValid.pull {errors : List IoError} {feed : ByteFeed} {lines : TextLines}
    (h : HoldsValid errors feed lines) :
    ((∃ feed', LineSupply.pull feed = (.finished, feed')) ∧ errors = [] ∧ lines.left = []) ∨
    (∃ text feed' left, LineSupply.pull feed = (.line text, feed') ∧ lines.left = text :: left ∧
      HoldsValid errors feed' ⟨left⟩) ∨
    ∃ feed' more, LineSupply.pull feed = (.failed .notText, feed') ∧ errors = .notText :: more ∧
      HoldsValid more feed' lines := by
  obtain ⟨bytes, texts, hgives, htexts, herrors, hlines⟩ := h
  rcases ByteFeed.pull_of_gives hgives with ⟨hnil, hpull⟩ | ⟨line, more, left, hcons, hpull, hleft⟩
  · rw [hnil] at htexts herrors
    rw [List.map_eq_nil_iff.1 htexts] at hlines
    exact .inl ⟨⟨_, hpull⟩, herrors, hlines⟩
  · rw [hcons] at htexts herrors
    by_cases htext : IsText line
    · rw [List.filter_cons_of_pos (by simpa using htext)] at htexts
      rw [List.countP_cons_of_neg (by simpa using htext)] at herrors
      obtain ⟨text, others, rfl, rfl, hothers⟩ := List.map_eq_cons_iff.1 htexts
      have hmem : utf8 text ∈ byteLines bytes := by
        rw [hcons]
        exact List.mem_cons_self
      have hne : text ≠ [] := mt utf8_eq_nil_iff.2 (ne_nil_of_mem_cutAfter hmem)
      rw [decodeLine_utf8 hne] at hpull
      exact .inr (.inl ⟨_, _, _, hpull, hlines, more, others, hleft, hothers, herrors, rfl⟩)
    · rw [List.filter_cons_of_neg (by simpa using htext)] at htexts
      rw [List.countP_cons_of_pos (by simpa using htext), List.replicate_succ] at herrors
      rw [decodeLine_of_not_isText htext] at hpull
      exact .inr (.inr ⟨_, _, hpull, herrors, more, texts, hleft, htexts, rfl, hlines⟩)

theorem interrupts_holdsValid : Interrupts HoldsValid where
  line := by
    intro errors feed lines text feed' h hpull
    obtain ⟨lines⟩ := lines
    rcases h.pull with ⟨⟨_, hnone⟩, _⟩ | ⟨_, _, left, hline, rfl, hnext⟩ | ⟨_, _, hfailed, _⟩
    · cases hpull.symm.trans hnone
    · cases hpull.symm.trans hline
      exact ⟨⟨left⟩, rfl, hnext⟩
    · cases hpull.symm.trans hfailed
  finished := by
    intro errors feed lines feed' h hpull
    obtain ⟨lines⟩ := lines
    rcases h.pull with ⟨_, herrors, rfl⟩ | ⟨_, _, _, hline, _⟩ | ⟨_, _, hfailed, _⟩
    · exact ⟨herrors, ⟨[]⟩, rfl⟩
    · cases hpull.symm.trans hline
    · cases hpull.symm.trans hfailed
  failed := by
    intro errors feed lines error feed' h hpull
    rcases h.pull with ⟨⟨_, hnone⟩, _⟩ | ⟨_, _, _, hline, _⟩ | ⟨_, more, hfailed, herrors, hnext⟩
    · cases hpull.symm.trans hnone
    · cases hpull.symm.trans hline
    · cases hpull.symm.trans hfailed
      exact ⟨more, herrors, hnext⟩

/-- Bytes and the text of their lines that are text. -/
theorem exists_holdsValid {fills : List Fill} {bytes : List UInt8} (h : Gives fills bytes) :
    ∃ text : String, text.toUTF8 = ((byteLines bytes).filter (IsText ·)).flatten.toByteArray ∧
      HoldsValid (List.replicate ((byteLines bytes).countP (¬ IsText ·)) .notText) ⟨fills⟩
        (TextLines.ofText text) := by
  obtain ⟨text, hbytes, hpieces⟩ := exists_text_of_lines bytes
  refine ⟨String.ofList text, ?_, bytes, pieces text, h, hpieces, rfl, ?_⟩
  · rw [← hbytes]
    rfl
  · rw [TextLines.ofText, textLines, String.toList_ofList]

/-- Over bytes whose first line is text the calls come to the end token with one failure for each
line that is no text, and with the tokens, the line numbers and the diagnostics of the text that
the other lines make. When the first line is no text the scan does not begin. -/
theorem calls_through_invalid_lines {chunks : List (List UInt8)}
    (hne : ∀ chunk ∈ chunks, chunk ≠ []) :
    ((∀ line, (byteLines chunks.flatten).head? = some line → IsText line) →
      ∃ (scan : Scan ByteFeed) (text : String) (results : List (Except IoError Token))
        (last : Token) (after : Scan ByteFeed),
        Scan.start ⟨chunks.map .bytes⟩ = .ready scan ∧
        text.toUTF8 = ((byteLines chunks.flatten).filter (IsText ·)).flatten.toByteArray ∧
        scan.calls (results.length + 1) = (results ++ [.ok last], after) ∧
        last.isEof = true ∧ (∀ token ∈ granted results, token.isEof = false) ∧
        (ofText text).allTokens.1 = .ok (granted results ++ [last]) ∧
        after.view = (ofText text).allTokens.2.view ∧
        refused results =
          List.replicate ((byteLines chunks.flatten).countP (¬ IsText ·)) .notText) ∧
    ∀ line, (byteLines chunks.flatten).head? = some line → ¬ IsText line →
      ∃ feed, Scan.start (⟨chunks.map .bytes⟩ : ByteFeed) = .failed .notText feed #[] := by
  have hgives : Gives (chunks.map .bytes) chunks.flatten := ⟨chunks, rfl, hne, rfl⟩
  constructor
  · intro hfirst
    obtain ⟨text, hbytes, hholds⟩ := exists_holdsValid hgives
    have hready := ByteFeed.pull_ne_failed hgives hfirst
    obtain ⟨scan, memory, hscan, hmemory, _, habreast⟩ := interrupts_holdsValid.start hholds hready
    obtain rfl : ofText text = memory := Opening.ready.inj ((start_ofText text).symm.trans hmemory)
    obtain ⟨results, last, after, mid, after', hcalls, hlast, _, hgranted, hrefused, hothers, hnext,
      hview⟩ := calls_to_end interrupts_holdsValid habreast.resumes
    have hall := allTokens_of_end hgranted hothers hnext hlast
    refine ⟨scan, text, results, last, after, hscan, hbytes, hcalls, hlast, hgranted, ?_, ?_,
      hrefused⟩
    · rw [hall]
    · rw [hall, hview]
  · intro line hhead hnot
    obtain ⟨feed, hpull⟩ := ByteFeed.pull_of_not_isText hgives hhead hnot
    refine ⟨feed, ?_⟩
    simp only [Scan.start, hpull]

/-- A line, half of a character before a newline, a line in two chunks, and a byte that begins no
character at the end. -/
def brokenChunks : List (List UInt8) :=
  [[0x61, 0x0A, 0xE2], [0x82, 0x0A, 0x21, 0x0D], [0x0A, 0xFF]]

theorem calls_through_broken_chunks :
    (∀ chunk ∈ brokenChunks, chunk ≠ []) ∧
      (∀ line, (byteLines brokenChunks.flatten).head? = some line → IsText line) ∧
      ∃ (scan : Scan ByteFeed) (results : List (Except IoError Token)) (last : Token)
        (after : Scan ByteFeed),
        Scan.start ⟨brokenChunks.map .bytes⟩ = .ready scan ∧
        scan.calls (results.length + 1) = (results ++ [.ok last], after) ∧
        (ofText "a\n!\r\n").allTokens.1 = .ok (granted results ++ [last]) ∧
        refused results = [.notText, .notText] := by
  have hne : ∀ chunk ∈ brokenChunks, chunk ≠ [] := by decide
  have hfirst : ∀ line, (byteLines brokenChunks.flatten).head? = some line → IsText line := by
    intro line hline
    obtain rfl := Option.some.inj hline
    exact ⟨['a', '\n'], rfl⟩
  have hcount : (byteLines brokenChunks.flatten).countP (¬ IsText ·) = 2 := by decide +kernel
  have hkept : ((byteLines brokenChunks.flatten).filter (IsText ·)).flatten.toByteArray =
      "a\n!\r\n".toUTF8 := by decide +kernel
  obtain ⟨scan, text, results, last, after, hscan, hbytes, hcalls, _, _, htokens, _, hrefused⟩ :=
    (calls_through_invalid_lines hne).1 hfirst
  rw [hkept] at hbytes
  obtain rfl : text = "a\n!\r\n" := String.toByteArray_inj.1 hbytes
  rw [hcount] at hrefused
  exact ⟨hne, hfirst, scan, results, last, after, hscan, hcalls, htokens, hrefused⟩

end Scan

end Lexis
