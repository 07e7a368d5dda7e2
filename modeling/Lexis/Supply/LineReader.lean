import Lexis.Supply.ByteSource

/-!
# A reader with a buffer

The lines of a source of bytes, read by way of a buffer that every call uses again: it is cleared,
the bytes of the line are put in with their terminator, and the terminator is taken off. Bytes go
into the buffer only if they are text as a whole. So behind a failure it holds what came in front of
the failure, or nothing, and the next call has to clear it.

The buffer makes no difference: a reader gives the lines of its source (`pull_eq`).
-/

set_option autoImplicit false

namespace Lexis

@[ext]
structure LineReader (ρ : Type) where
  source : ρ
  buffer : String

namespace LineReader

section
variable {ρ : Type}

/-- A reader that has read nothing yet. -/
def new (source : ρ) : LineReader ρ :=
  ⟨source, ""⟩

def clear (reader : LineReader ρ) : LineReader ρ :=
  { reader with buffer := "" }

/-- Takes the newline from the end of the buffer, and one carriage return in front of it. -/
def popTerminator (reader : LineReader ρ) : LineReader ρ :=
  let text := reader.buffer.toList
  if text.getLast? = some '\n' then
    let line := text.dropLast
    let line := if line.getLast? = some '\r' then line.dropLast else line
    { reader with buffer := String.ofList line }
  else reader

end

variable {ρ : Type} [ByteSource ρ]

/-- Adds the next line to the buffer, and tells its number of bytes. -/
def readLine (reader : LineReader ρ) : Except IoError Nat × LineReader ρ :=
  let haul := readUntilNewline [] reader.source
  match String.fromUTF8? haul.bytes.toByteArray with
  | none => (.error (haul.failure.getD .notText), ⟨haul.left, reader.buffer⟩)
  | some text =>
    let after : LineReader ρ := ⟨haul.left, reader.buffer ++ text⟩
    match haul.failure with
    | some error => (.error error, after)
    | none => (.ok haul.bytes.length, after)

def pull (reader : LineReader ρ) : Pull × LineReader ρ :=
  match reader.clear.readLine with
  | (.error error, after) => (.failed error, after)
  | (.ok 0, after) => (.finished, after)
  | (.ok _, after) => (.line after.popTerminator.buffer, after.popTerminator)

/-! ## The buffer makes no difference -/

theorem popTerminator_source {ρ : Type} (reader : LineReader ρ) :
    reader.popTerminator.source = reader.source := by
  unfold popTerminator
  dsimp only
  split <;> rfl

theorem popTerminator_buffer {ρ : Type} (reader : LineReader ρ) :
    reader.popTerminator.buffer = String.ofList (stripTerminator reader.buffer.toList) := by
  unfold popTerminator
  dsimp only
  generalize htext : reader.buffer.toList = text
  split
  · rename_i hnewline
    obtain ⟨line, rfl⟩ := List.getLast?_eq_some_iff.1 hnewline
    rw [List.dropLast_concat]
    split
    · rename_i hreturn
      obtain ⟨before, rfl⟩ := List.getLast?_eq_some_iff.1 hreturn
      rw [List.dropLast_concat, List.append_assoc, List.singleton_append,
        stripTerminator_returnNewline]
    · rename_i hreturn
      rw [stripTerminator_newline line hreturn]
  · rename_i hnewline
    rw [stripTerminator_of_getLast? hnewline, ← htext, String.ofList_toList]

/-- A reader gives the lines of its source, whatever its buffer holds. -/
theorem pull_eq (reader : LineReader ρ) :
    ∃ buffer, reader.pull =
      ((pullLine reader.source).1, ⟨(pullLine reader.source).2, buffer⟩) := by
  unfold pull readLine pullLine
  dsimp only [clear]
  generalize readUntilNewline [] reader.source = haul
  rcases haul with ⟨bytes, failure | error, left⟩
  · cases bytes with
    | nil =>
      have hempty : String.fromUTF8? [].toByteArray = some "" := rfl
      exact ⟨_, by rw [hempty]; rfl⟩
    | cons byte bytes =>
      dsimp only [Haul.pull, decodeLine, List.isEmpty_cons]
      cases String.fromUTF8? (byte :: bytes).toByteArray with
      | none => exact ⟨_, rfl⟩
      | some text =>
        have hline := popTerminator_buffer ⟨left, text⟩
        have hsource := popTerminator_source ⟨left, text⟩
        simp only [String.empty_append, List.length_cons]
        exact ⟨(popTerminator ⟨left, text⟩).buffer,
          Prod.ext (congrArg Pull.line hline) (LineReader.ext hsource rfl)⟩
  · cases String.fromUTF8? bytes.toByteArray <;> exact ⟨_, rfl⟩

instance : LineSupply (LineReader ρ) where
  pull := pull
  remaining reader := 2 * ByteSource.remaining reader.source
  remaining_lt := by
    intro reader after text h
    obtain ⟨buffer, hpull⟩ := reader.pull_eq
    rw [hpull, Prod.mk.injEq] at h
    obtain ⟨htext, rfl⟩ := h
    exact remaining_pullLine (Prod.ext htext rfl)

end LineReader

end Lexis
