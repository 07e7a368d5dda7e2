import Lexis.Proofs.Supply.Pieces
import Lexis.Supply.ByteFeed
import Lexis.Proofs.Supply.Stream
import Mathlib.Data.List.TakeWhile

/-!
# A text that comes in chunks

A byte feed that gives the bytes of a text, cut anywhere into chunks that are not empty, gives its
lines.

* No byte of a character but the newline itself is the newline byte (`newlineByte_not_mem_utf8`),
  so the newline bytes stand where the text has newlines, also when a chunk ends within a
  character.
* The feed follows the stream of the bytes, so a reading takes bytes over the ends of chunks and
  leaves chunks behind the newline (`follows_holds`).
* `pull_of_terminated`, `pull_of_unterminated`, `pull_of_nil`: the lines, piece by piece.
-/

set_option autoImplicit false

namespace Lexis

/-! ## UTF-8 -/

/-- The bytes of a text. -/
def utf8 (text : List Char) : List UInt8 :=
  text.flatMap String.utf8EncodeChar

theorem utf8_append (a b : List Char) : utf8 (a ++ b) = utf8 a ++ utf8 b :=
  List.flatMap_append

theorem toByteArray_utf8 (text : List Char) : (utf8 text).toByteArray = text.utf8Encode := rfl

theorem utf8_toList (text : String) : utf8 text.toList = text.toUTF8.data.toList := by
  rw [String.toUTF8_eq_toByteArray, ← String.utf8Encode_toList, ← toByteArray_utf8,
    List.toList_data_toByteArray]

theorem utf8_newline (rest : List Char) : utf8 ('\n' :: rest) = newlineByte :: utf8 rest := rfl

theorem utf8_eq_nil_iff {text : List Char} : utf8 text = [] ↔ text = [] := by
  cases text with
  | nil => simp [utf8]
  | cons c rest => simp [utf8, String.utf8EncodeChar_ne_nil]

/-- The bytes of a character of more than one byte are 128 or more. -/
theorem newlineByte_not_mem_utf8EncodeChar {c : Char} (h : c ≠ '\n') :
    newlineByte ∉ String.utf8EncodeChar c := by
  have hcode : c.val.toNat ≠ 10 := by
    intro hcode
    exact h (Char.ext (UInt32.toNat_inj.1 hcode))
  have hbyte : ∀ n, n < 256 → n ≠ 10 → newlineByte ≠ UInt8.ofNat n := by
    intro n hlt hne heq
    have := congrArg UInt8.toNat heq
    rw [UInt8.toNat_ofNat_of_lt' hlt] at this
    exact hne this.symm
  unfold String.utf8EncodeChar
  dsimp only
  split
  · simp only [List.mem_singleton]
    exact hbyte _ (by omega) hcode
  · split
    · simp only [List.mem_cons, List.not_mem_nil, or_false, not_or]
      exact ⟨hbyte _ (by omega) (by omega), hbyte _ (by omega) (by omega)⟩
    · split
      · simp only [List.mem_cons, List.not_mem_nil, or_false, not_or]
        exact ⟨hbyte _ (by omega) (by omega), hbyte _ (by omega) (by omega),
          hbyte _ (by omega) (by omega)⟩
      · simp only [List.mem_cons, List.not_mem_nil, or_false, not_or]
        exact ⟨hbyte _ (by omega) (by omega), hbyte _ (by omega) (by omega),
          hbyte _ (by omega) (by omega), hbyte _ (by omega) (by omega)⟩

theorem newlineByte_not_mem_utf8 {text : List Char} (h : '\n' ∉ text) :
    newlineByte ∉ utf8 text := by
  intro hmem
  obtain ⟨c, hc, hbyte⟩ := List.mem_flatMap.1 hmem
  have hne : c ≠ '\n' := fun he => h (he ▸ hc)
  exact newlineByte_not_mem_utf8EncodeChar hne hbyte

theorem fromUTF8?_utf8 (text : List Char) :
    String.fromUTF8? (utf8 text).toByteArray = some (String.ofList text) := by
  rw [toByteArray_utf8, String.fromUTF8?, dif_pos ByteArray.isValidUTF8_utf8Encode]
  rfl

/-- A line is decoded as it was encoded. -/
theorem decodeLine_utf8 {piece : List Char} (hne : piece ≠ []) :
    decodeLine (utf8 piece) = .line (String.ofList (stripTerminator piece)) := by
  have hbytes : (utf8 piece).isEmpty = false := by
    rw [List.isEmpty_eq_false_iff]
    exact mt utf8_eq_nil_iff.1 hne
  rw [decodeLine, hbytes, fromUTF8?_utf8]
  simp

/-! ## Chunks -/

/-- The fills give the bytes, in chunks that are not empty. -/
def Gives (fills : List Fill) (bytes : List UInt8) : Prop :=
  ∃ chunks : List (List UInt8),
    fills = chunks.map .bytes ∧ (∀ chunk ∈ chunks, chunk ≠ []) ∧ chunks.flatten = bytes

theorem Gives.nil : Gives [] [] :=
  ⟨[], rfl, by simp, rfl⟩

theorem Gives.cons {fills : List Fill} {chunk bytes : List UInt8} (hne : chunk ≠ [])
    (h : Gives fills bytes) : Gives (.bytes chunk :: fills) (chunk ++ bytes) := by
  obtain ⟨chunks, rfl, hchunks, rfl⟩ := h
  exact ⟨chunk :: chunks, rfl, List.forall_mem_cons.2 ⟨hne, hchunks⟩, rfl⟩

/-- What is left of a chunk comes before the others, if anything is left. -/
theorem Gives.cons_rest {fills : List Fill} {chunk bytes : List UInt8} (h : Gives fills bytes) :
    Gives (if chunk.isEmpty then fills else .bytes chunk :: fills) (chunk ++ bytes) := by
  cases chunk with
  | nil => exact h
  | cons byte chunk => exact h.cons (List.cons_ne_nil byte chunk)

/-- Chunk by chunk. -/
theorem Gives.cases {fills : List Fill} {bytes : List UInt8} (h : Gives fills bytes) :
    (fills = [] ∧ bytes = []) ∨
      ∃ chunk others more, fills = .bytes chunk :: others ∧ bytes = chunk ++ more ∧
        chunk ≠ [] ∧ Gives others more := by
  obtain ⟨chunks, rfl, hchunks, rfl⟩ := h
  cases chunks with
  | nil => exact .inl ⟨rfl, rfl⟩
  | cons chunk chunks =>
    obtain ⟨hne, hchunks⟩ := List.forall_mem_cons.1 hchunks
    exact .inr ⟨chunk, _, _, rfl, rfl, hne, chunks, rfl, hchunks, rfl⟩

/-- The feed goes through the bytes, and nothing is behind them. -/
def ByteFeed.Holds (feed : ByteFeed) (signals : List Signal) : Prop :=
  ∃ bytes, Gives feed.fills bytes ∧ signals = bytes.map .byte

theorem ByteFeed.holds_iff {feed : ByteFeed} {bytes : List UInt8} :
    feed.Holds (bytes.map .byte) ↔ Gives feed.fills bytes := by
  constructor
  · rintro ⟨others, hgives, hmap⟩
    rwa [(List.map_inj_right fun _ _ => Signal.byte.inj).1 hmap]
  · exact fun hgives => ⟨bytes, hgives, rfl⟩

theorem ByteFeed.follows_holds : Follows ByteFeed.Holds where
  interrupted := by
    rintro ⟨fills⟩ next signals error ⟨bytes, hgives, rfl⟩ hfill hkind
    rcases hgives.cases with ⟨rfl, _⟩ | ⟨chunk, others, more, rfl, _, hne, _⟩
    · cases hfill
    · cases (ByteFeed.fill_chunk hne others).symm.trans hfill
  failed := by
    rintro ⟨fills⟩ next signals error ⟨bytes, hgives, rfl⟩ hfill hkind
    rcases hgives.cases with ⟨rfl, _⟩ | ⟨chunk, others, more, rfl, _, hne, _⟩
    · cases hfill
    · cases (ByteFeed.fill_chunk hne others).symm.trans hfill
  paused := by
    rintro ⟨fills⟩ next signals ⟨bytes, hgives, rfl⟩ hfill
    rcases hgives.cases with ⟨rfl, rfl⟩ | ⟨chunk, others, more, rfl, _, hne, _⟩
    · cases hfill
      exact ⟨[], rfl, [], .nil, rfl⟩
    · cases (ByteFeed.fill_chunk hne others).symm.trans hfill
      exact absurd rfl hne
  shown := by
    rintro ⟨fills⟩ next signals data ⟨bytes, hgives, rfl⟩ hfill hdata
    rcases hgives.cases with ⟨rfl, _⟩ | ⟨chunk, others, more, rfl, rfl, hne, hothers⟩
    · cases hfill
      exact absurd rfl hdata
    · cases (ByteFeed.fill_chunk hne others).symm.trans hfill
      refine ⟨more.map .byte, List.map_append, fun taken rest hsplit _ => ⟨rest ++ more, ?_, ?_⟩⟩
      · rw [hsplit, ByteFeed.consume_append]
        exact hothers.cons_rest
      · rw [List.map_append]

/-! ## Lines from chunks -/

namespace ByteFeed

theorem pull_of_newline {fills : List Fill} {before after : List UInt8}
    (h : newlineByte ∉ before) (hgives : Gives fills (before ++ newlineByte :: after)) :
    ∃ left, pull ⟨fills⟩ = (decodeLine (before ++ [newlineByte]), ⟨left⟩) ∧ Gives left after := by
  obtain ⟨⟨left⟩, hpull, hleft⟩ := follows_holds.exists_pullLine (holds_iff.2 hgives)
  have hnext := nextStretch_of_newline h after []
  rw [List.append_nil, List.append_nil] at hnext
  rw [hnext] at hpull hleft
  exact ⟨left, hpull, holds_iff.1 hleft⟩

theorem pull_of_not_mem {fills : List Fill} {data : List UInt8} (h : newlineByte ∉ data)
    (hgives : Gives fills data) : pull ⟨fills⟩ = (decodeLine data, ⟨[]⟩) := by
  obtain ⟨⟨left⟩, hpull, hleft⟩ := follows_holds.exists_pullLine (holds_iff.2 hgives)
  have hnext := nextStretch_of_not_mem h []
  rw [List.append_nil] at hnext
  rw [hnext] at hpull hleft
  have hline : pull ⟨fills⟩ = (decodeLine (data ++ [] ++ []), ⟨left⟩) := hpull
  have hnone : Gives left [] := holds_iff.1 hleft
  rw [List.append_nil, List.append_nil] at hline
  rcases hnone.cases with ⟨rfl, _⟩ | ⟨chunk, _, _, _, hbytes, hne, _⟩
  · exact hline
  · exact absurd (List.append_eq_nil_iff.1 hbytes.symm).1 hne

theorem pull_of_terminated {fills : List Fill} {line rest : List Char} (hline : '\n' ∉ line)
    (h : Gives fills (utf8 (line ++ '\n' :: rest))) :
    ∃ left, pull ⟨fills⟩ = (.line (String.ofList (stripTerminator (line ++ ['\n']))), ⟨left⟩) ∧
      Gives left (utf8 rest) := by
  rw [utf8_append, utf8_newline] at h
  obtain ⟨left, hpull, hleft⟩ := pull_of_newline (newlineByte_not_mem_utf8 hline) h
  have hdecode : decodeLine (utf8 line ++ [newlineByte]) =
      .line (String.ofList (stripTerminator (line ++ ['\n']))) := by
    rw [← decodeLine_utf8 (by simp), utf8_append]
    rfl
  exact ⟨left, by rw [hpull, hdecode], hleft⟩

theorem pull_of_unterminated {fills : List Fill} {line : List Char} (hline : '\n' ∉ line)
    (hne : line ≠ []) (h : Gives fills (utf8 line)) :
    pull ⟨fills⟩ = (.line (String.ofList (stripTerminator line)), ⟨[]⟩) := by
  rw [pull_of_not_mem (newlineByte_not_mem_utf8 hline) h, decodeLine_utf8 hne]

theorem pull_of_nil {fills : List Fill} (h : Gives fills []) :
    pull ⟨fills⟩ = (.finished, ⟨[]⟩) :=
  pull_of_not_mem List.not_mem_nil h

end ByteFeed

end Lexis
