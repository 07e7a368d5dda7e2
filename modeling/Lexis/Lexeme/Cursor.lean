import Lexis.Alphabet.Blank
import Lexis.Lexeme.Classify

/-!
# Reading along a line

A cursor divides a line into what has been read and what is ahead. Its column is the number of
characters read. Moving it keeps the line as it is (`text_skipBlanks`, `text_lexeme?`).
-/

set_option autoImplicit false

namespace Lexis

structure Cursor where
  /-- The characters read, the last one first. -/
  behind : List Char
  ahead : List Char
  deriving DecidableEq

namespace Cursor

/-- The start of a line. -/
def ofLine (line : String) : Cursor :=
  ⟨[], line.toList⟩

/-- The whole line. -/
def text (cursor : Cursor) : List Char :=
  cursor.behind.reverse ++ cursor.ahead

/-- Counted in characters, from 0. -/
def column (cursor : Cursor) : Nat :=
  cursor.behind.length

def skipBlanks (cursor : Cursor) : Cursor :=
  ⟨(cursor.ahead.takeWhile isBlank).reverse ++ cursor.behind, cursor.ahead.dropWhile isBlank⟩

/-- The lexeme under the cursor and the place after it; none at the end of the line and at a
comment, which reaches to the end of the line. -/
def lexeme? (cursor : Cursor) : Option (Lexeme × Cursor) :=
  match cursor.ahead with
  | [] => none
  | first :: rest =>
    if first = '#' then none
    else
      let cut := cutBody first rest
      some (.classify first cut.1, ⟨cut.1.reverse ++ first :: cursor.behind, cut.2⟩)

@[simp] theorem text_ofLine (line : String) : (ofLine line).text = line.toList := by
  simp [ofLine, text]

@[simp] theorem text_skipBlanks (cursor : Cursor) : cursor.skipBlanks.text = cursor.text := by
  simp [skipBlanks, text, List.takeWhile_append_dropWhile]

theorem text_lexeme? {cursor after : Cursor} {lexeme : Lexeme}
    (h : cursor.lexeme? = some (lexeme, after)) : after.text = cursor.text := by
  unfold lexeme? at h
  split at h
  · simp at h
  · rename_i first rest hahead
    split at h
    · simp at h
    · simp only [Option.some.injEq, Prod.mk.injEq] at h
      obtain ⟨_, rfl⟩ := h
      simp [text, hahead, cutBody_append]

/-- A lexeme has at least one character. -/
theorem length_ahead_lexeme? {cursor after : Cursor} {lexeme : Lexeme}
    (h : cursor.lexeme? = some (lexeme, after)) : after.ahead.length < cursor.ahead.length := by
  unfold lexeme? at h
  split at h
  · simp at h
  · rename_i first rest hahead
    split at h
    · simp at h
    · simp only [Option.some.injEq, Prod.mk.injEq] at h
      obtain ⟨_, rfl⟩ := h
      have := length_cutBody_le first rest
      simp only [hahead, List.length_cons]
      omega

theorem length_ahead_skipBlanks (cursor : Cursor) :
    cursor.skipBlanks.ahead.length ≤ cursor.ahead.length :=
  (List.dropWhile_suffix isBlank).length_le

end Cursor

end Lexis
