import Mathlib.Logic.Relation
import Lexis.Supply.LineReader
import Lexis.Supply.Script
import Lexis.Proofs.Supply.ByteLines
import Lexis.Proofs.Supply.Pulls

/-!
# A script as one stream

A reader over a script gives exactly what the stream of the script holds (`outcomes`): the bytes up
to a newline, a pause or a failure, one call after the other. For the script follows its stream
(`Script.follows`), and so does a byte feed in which no empty chunk stands right behind an empty one
(`ByteFeed.follows`).

So it makes no difference how the data is cut into chunks and where a reading is interrupted
(`Rechunked`), and nothing is carried over from one call to the next, although all calls share one
buffer.
-/

set_option autoImplicit false

namespace Lexis

/-! ## The stream of a script -/

/-- An interrupted reading leaves no trace in the stream. -/
def Part.signals : Part → List Signal
  | chunk first more => (first :: more).map .byte
  | pause => [.pause]
  | failed error => if error.kind = .interrupted then [] else [.failure error]

def stream (parts : List Part) : List Signal :=
  parts.flatMap Part.signals

theorem stream_cons (part : Part) (parts : List Part) :
    stream (part :: parts) = part.signals ++ stream parts :=
  List.flatMap_cons

theorem stream_append (parts others : List Part) :
    stream (parts ++ others) = stream parts ++ stream others :=
  List.flatMap_append

/-! ## What the calls give -/

/-- A line without the carriage return at its end. -/
def stripReturn (line : List Char) : List Char :=
  if line.getLast? = some '\r' then line.dropLast else line

/-- The bytes as a line, if they are text. -/
def lineOf (strip : List Char → List Char) (bytes : List UInt8) : Pull :=
  match String.fromUTF8? bytes.toByteArray with
  | some text => .line (String.ofList (strip text.toList))
  | none => .failed ⟨.invalidData, "stream did not contain valid UTF-8"⟩

/-- What a call makes of its stretch. Only with a newline is anything stripped, and only a failure
takes precedence over bytes that are no text. -/
def Stretch.outcome (stretch : Stretch) : Pull :=
  match stretch.stop with
  | .failure error => .failed error
  | .newline => lineOf stripReturn stretch.bytes
  | .pause => if stretch.bytes = [] then .finished else lineOf id stretch.bytes

/-- The outcomes of the first calls. -/
def outcomes (signals : List Signal) : Nat → List Pull
  | 0 => []
  | n + 1 => (nextStretch signals).outcome :: outcomes (nextStretch signals).left n

/-- The stream behind them. -/
def streamAfter (signals : List Signal) : Nat → List Signal
  | 0 => signals
  | n + 1 => streamAfter (nextStretch signals).left n

/-! ## Bytes as a line -/

theorem stripTerminator_eq_stripReturn (line : List Char) :
    stripTerminator (line ++ ['\n']) = stripReturn line := by
  unfold stripReturn
  split
  · rename_i hreturn
    obtain ⟨before, rfl⟩ := List.getLast?_eq_some_iff.1 hreturn
    rw [List.dropLast_concat, List.append_assoc, List.singleton_append,
      stripTerminator_returnNewline]
  · rename_i hreturn
    exact stripTerminator_newline line hreturn

theorem lineOf_utf8 (strip : List Char → List Char) (text : List Char) :
    lineOf strip (utf8 text) = .line (String.ofList (strip text)) := by
  rw [lineOf, fromUTF8?_utf8]
  dsimp only
  rw [String.toList_ofList]

theorem lineOf_of_not_isText (strip : List Char → List Char) {bytes : List UInt8}
    (h : ¬ IsText bytes) : lineOf strip bytes = .failed .notText := by
  rw [isText_iff, Option.not_isSome_iff_eq_none] at h
  rw [lineOf, h]
  rfl

/-- A newline makes no text of bytes that are none. -/
theorem isText_append_newline {bytes : List UInt8} (h : IsText (bytes ++ [newlineByte])) :
    IsText bytes := by
  obtain ⟨text, htext⟩ := h
  rcases List.eq_nil_or_concat' text with rfl | ⟨before, c, rfl⟩
  · cases bytes <;> cases htext
  · rw [utf8_append] at htext
    by_cases hc : c = '\n'
    · subst hc
      exact ⟨before, (List.append_inj' htext rfl).1⟩
    · -- the newline would be the last byte of another character
      have hne : utf8 [c] ≠ [] := mt utf8_eq_nil_iff.1 (List.cons_ne_nil c [])
      have hlast : (utf8 [c]).getLast? = some newlineByte := by
        rw [← List.getLast?_append_of_ne_nil (utf8 before) hne, htext, List.getLast?_concat]
      have hnone : newlineByte ∉ utf8 [c] :=
        newlineByte_not_mem_utf8 (mt List.mem_singleton.1 (Ne.symm hc))
      exact absurd (List.mem_of_getLast? hlast) hnone

theorem decodeLine_append_newline (bytes : List UInt8) :
    decodeLine (bytes ++ [newlineByte]) = lineOf stripReturn bytes := by
  by_cases h : IsText bytes
  · obtain ⟨text, rfl⟩ := h
    have hdecode : decodeLine (utf8 (text ++ ['\n'])) =
        .line (String.ofList (stripTerminator (text ++ ['\n']))) := decodeLine_utf8 (by simp)
    rw [utf8_append] at hdecode
    rw [lineOf_utf8, ← stripTerminator_eq_stripReturn]
    exact hdecode
  · rw [decodeLine_of_not_isText (mt isText_append_newline h), lineOf_of_not_isText _ h]

theorem decodeLine_of_not_mem {bytes : List UInt8} (h : newlineByte ∉ bytes) :
    decodeLine bytes = if bytes = [] then .finished else lineOf id bytes := by
  split
  · rename_i hnil
    rw [hnil]
    rfl
  · rename_i hne
    by_cases htext : IsText bytes
    · obtain ⟨text, rfl⟩ := htext
      have hlast : text.getLast? ≠ some '\n' := by
        intro hlast
        refine h (List.mem_flatMap.2 ⟨'\n', List.mem_of_getLast? hlast, ?_⟩)
        exact List.mem_cons_self
      rw [decodeLine_utf8 (mt utf8_eq_nil_iff.2 hne), stripTerminator_of_getLast? hlast,
        lineOf_utf8]
      rfl
    · rw [decodeLine_of_not_isText htext, lineOf_of_not_isText _ htext]

/-! ## The calls of a reader -/

section
variable {ρ : Type} [ByteSource ρ] {R : ρ → List Signal → Prop} (hR : Follows R)
include hR

/-- A call gives what the next stretch of the stream holds. -/
theorem Follows.pullLine {source : ρ} {signals : List Signal} (h : R source signals) :
    (Lexis.pullLine source).1 = (nextStretch signals).outcome ∧
      R (Lexis.pullLine source).2 (nextStretch signals).left := by
  obtain ⟨left, hpull, hleft⟩ := hR.exists_pullLine h
  have hnone := newline_not_mem_nextStretch signals
  rw [hpull]
  refine ⟨?_, hleft⟩
  generalize nextStretch signals = stretch at hnone ⊢
  obtain ⟨bytes, stop, behind⟩ := stretch
  cases stop with
  | newline => exact decodeLine_append_newline bytes
  | pause =>
    dsimp only [Stop.terminator, Stretch.outcome]
    rw [List.append_nil, decodeLine_of_not_mem hnone]
  | failure error => rfl

/-- So do all calls of a supply that answers with the lines of its source, whatever else it
holds. -/
theorem Follows.answers {σ : Type} [LineSupply σ] (source : σ → ρ)
    (hpull : ∀ supply, (LineSupply.pull supply).1 = (Lexis.pullLine (source supply)).1 ∧
      source (LineSupply.pull supply).2 = (Lexis.pullLine (source supply)).2)
    {supply : σ} {signals : List Signal} (h : R (source supply) signals) (n : Nat) :
    LineSupply.answers supply n = outcomes signals n ∧
      R (source (LineSupply.after supply n)) (streamAfter signals n) := by
  induction n generalizing supply signals with
  | zero => exact ⟨rfl, h⟩
  | succ n ih =>
    obtain ⟨houtcome, hleft⟩ := hR.pullLine h
    obtain ⟨hanswer, hsource⟩ := hpull supply
    rw [← hsource] at hleft
    obtain ⟨hanswers, hafter⟩ := ih hleft
    rw [LineSupply.answers_succ, LineSupply.after_succ, hanswer, houtcome, hanswers]
    exact ⟨rfl, hafter⟩

theorem Follows.answers_lineReader {source : ρ} {signals : List Signal} (h : R source signals)
    (buffer : String) (n : Nat) :
    LineSupply.answers (LineReader.mk source buffer) n = outcomes signals n ∧
      R (LineSupply.after (LineReader.mk source buffer) n).source (streamAfter signals n) := by
  refine hR.answers LineReader.source (fun reader => ?_) h n
  obtain ⟨after, hpull⟩ := reader.pull_eq
  have hpull' : LineSupply.pull reader = _ := hpull
  rw [hpull']
  exact ⟨rfl, rfl⟩

end

/-! ## Scripts and feeds -/

/-- The rest of a chunk stays in the stream. -/
theorem Script.stream_consume {first : UInt8} {more taken rest : List UInt8}
    (h : first :: more = taken ++ rest) (parts : List Part) :
    stream (consume taken.length (⟨.chunk first more :: parts⟩ : Script)).parts =
      rest.map .byte ++ stream parts := by
  show stream (Script.consume _ _).parts = _
  rw [Script.consume, h, List.drop_left]
  cases rest <;> rfl

theorem Script.follows :
    Follows fun (script : Script) signals => stream script.parts = signals where
  interrupted := by
    rintro ⟨_ | ⟨_ | _ | _, parts⟩⟩ next signals error rfl hfill hkind <;> cases hfill
    rw [stream_cons, Part.signals, if_pos hkind]
    rfl
  failed := by
    rintro ⟨_ | ⟨_ | _ | _, parts⟩⟩ next signals error rfl hfill hkind <;> cases hfill
    rw [stream_cons, Part.signals, if_neg hkind]
    exact ⟨_, rfl, rfl⟩
  paused := by
    rintro ⟨_ | ⟨_ | _ | _, parts⟩⟩ next signals rfl hfill <;> cases hfill
    · exact ⟨[], rfl, rfl⟩
    · exact ⟨_, rfl, congrArg (stream ·.parts) (consume_zero _)⟩
  shown := by
    rintro ⟨_ | ⟨_ | _ | _, parts⟩⟩ next signals data rfl hfill hne <;> cases hfill
    · exact absurd rfl hne
    · exact ⟨_, rfl, fun taken rest hdata _ => stream_consume hdata parts⟩
    · exact absurd rfl hne

/-- An empty chunk is a pause. -/
def Fill.part : Fill → Part
  | bytes [] => .pause
  | bytes (first :: more) => .chunk first more
  | failed error => .failed error

/-- No empty chunk stands right behind an empty one. -/
def ByteFeed.Spaced (feed : ByteFeed) : Prop :=
  ¬ [.bytes [], .bytes []] <:+: feed.fills

namespace ByteFeed

variable {fill : Fill} {fills : List Fill}

theorem Spaced.tail (h : Spaced ⟨fill :: fills⟩) : Spaced ⟨fills⟩ :=
  fun hpair => h (hpair.trans (List.suffix_cons fill fills).isInfix)

theorem Spaced.cons (h : Spaced ⟨fills⟩) (hfill : fill ≠ .bytes []) : Spaced ⟨fill :: fills⟩ := by
  intro hpair
  rcases List.infix_cons_iff.1 hpair with hfirst | hlater
  · exact hfill (List.cons_prefix_cons.1 hfirst).1.symm
  · exact h hlater

/-- The chunk behind an empty one stays. -/
theorem Spaced.consume_zero (h : Spaced ⟨.bytes [] :: fills⟩) :
    ByteSource.consume 0 (⟨fills⟩ : ByteFeed) = ⟨fills⟩ := by
  rcases fills with _ | ⟨(_ | ⟨first, more⟩) | error, fills⟩
  · rfl
  · exact absurd ⟨[], fills, rfl⟩ h
  · rfl
  · rfl

/-- A feed that is spaced shows each of its empty chunks. -/
theorem follows : Follows fun (feed : ByteFeed) signals =>
    feed.Spaced ∧ stream (feed.fills.map Fill.part) = signals where
  interrupted := by
    rintro ⟨_ | ⟨(_ | _) | error, fills⟩⟩ next signals error' ⟨hspaced, rfl⟩ hfill hkind <;>
      cases hfill
    rw [List.map_cons, Fill.part, stream_cons, Part.signals, if_pos hkind]
    exact ⟨hspaced.tail, rfl⟩
  failed := by
    rintro ⟨_ | ⟨(_ | _) | error, fills⟩⟩ next signals error' ⟨hspaced, rfl⟩ hfill hkind <;>
      cases hfill
    rw [List.map_cons, Fill.part, stream_cons, Part.signals, if_neg hkind]
    exact ⟨_, rfl, hspaced.tail, rfl⟩
  paused := by
    rintro ⟨_ | ⟨(_ | _) | error, fills⟩⟩ next signals ⟨hspaced, rfl⟩ hfill <;> cases hfill
    · exact ⟨[], rfl, hspaced, rfl⟩
    · rw [hspaced.consume_zero]
      exact ⟨_, rfl, hspaced.tail, rfl⟩
  shown := by
    rintro ⟨_ | ⟨(_ | ⟨first, more⟩) | error, fills⟩⟩ next signals data ⟨hspaced, rfl⟩ hfill hne <;>
      cases hfill
    · exact absurd rfl hne
    · exact absurd rfl hne
    · refine ⟨_, rfl, fun taken rest hdata _ => ?_⟩
      rw [hdata, consume_append]
      cases rest with
      | nil => exact ⟨hspaced.tail, rfl⟩
      | cons byte rest => exact ⟨hspaced.tail.cons (by simp), rfl⟩

end ByteFeed

/-! ## Chunks and interruptions -/

/-- One script with a chunk cut in two, or with an interrupted reading put in. -/
inductive Rechunked : List Part → List Part → Prop
  | cut (before after : List Part) (first next : UInt8) (more others : List UInt8) :
    Rechunked (before ++ .chunk first (more ++ next :: others) :: after)
      (before ++ .chunk first more :: .chunk next others :: after)
  | interrupted (before after : List Part) {error : IoError} (h : error.kind = .interrupted) :
    Rechunked (before ++ after) (before ++ .failed error :: after)

theorem Rechunked.stream_eq {parts others : List Part} (h : Rechunked parts others) :
    stream parts = stream others := by
  cases h with
  | cut before after first next more others =>
    simp only [stream_append, stream_cons, Part.signals, List.map_cons, List.map_append,
      List.cons_append, List.append_assoc]
  | interrupted before after h =>
    simp only [stream_append, stream_cons, Part.signals, h, if_true, List.nil_append]

theorem stream_eq_of_rechunked {parts others : List Part}
    (h : Relation.EqvGen Rechunked parts others) : stream parts = stream others := by
  induction h with
  | rel _ _ h => exact h.stream_eq
  | refl _ => rfl
  | symm _ _ _ ih => exact ih.symm
  | trans _ _ _ _ _ ih ih' => exact ih.trans ih'

/-! ## The answers of a reader -/

/-- A reader over any script, whatever its buffer holds, answers `n` calls with what the stream of
the script holds, stretch by stretch. What it leaves of the script is what is left of the stream,
and a new reader over it gives the later answers. Another way to cut the data into chunks and other
interruptions make no difference. A byte feed with the same chunks answers alike, if it shows all of
them. -/
theorem LineReader.answers_of_script (script : Script) (buffer : String) (n : Nat) :
    LineSupply.answers (mk script buffer) n = outcomes (stream script.parts) n ∧
    stream (LineSupply.after (mk script buffer) n).source.parts =
      streamAfter (stream script.parts) n ∧
    (∀ m, LineSupply.answers (LineSupply.after (mk script buffer) n) m =
      LineSupply.answers (new (LineSupply.after (mk script buffer) n).source) m) ∧
    (∀ (other : Script) otherBuffer, Relation.EqvGen Rechunked script.parts other.parts →
      LineSupply.answers (mk other otherBuffer) n = LineSupply.answers (mk script buffer) n) ∧
    ∀ feed : ByteFeed, feed.Spaced → feed.fills.map Fill.part = script.parts →
      LineSupply.answers feed n = LineSupply.answers (mk script buffer) n := by
  have hanswers : ∀ (script : Script) buffer n,
      LineSupply.answers (mk script buffer) n = outcomes (stream script.parts) n :=
    fun script buffer n => (Script.follows.answers_lineReader rfl buffer n).1
  refine ⟨hanswers script buffer n, (Script.follows.answers_lineReader rfl buffer n).2, ?_, ?_, ?_⟩
  · intro m
    rw [hanswers]
    exact (hanswers _ "" m).symm
  · intro other otherBuffer h
    rw [hanswers, hanswers, stream_eq_of_rechunked h]
  · intro feed hspaced hparts
    rw [hanswers, ← hparts]
    exact (ByteFeed.follows.answers id (fun _ => ⟨rfl, rfl⟩) ⟨hspaced, rfl⟩ n).1

/-- Each of two ends in a row ends a call. -/
example : LineSupply.answers
    (LineReader.new (⟨[.chunk 0x61 [], .pause, .pause, .chunk 0x62 []]⟩ : Script)) 4 =
      [.line "a", .finished, .line "b", .finished] := by
  decide +kernel

end Lexis
