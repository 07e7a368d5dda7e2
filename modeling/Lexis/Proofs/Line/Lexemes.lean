import Lexis.Proofs.Scan.LineTokens
import Lexis.Proofs.Scan.TextRun

/-!
# The lexemes of a line

What is cut from a line does not depend on where it stands (`map_lexeme_cuts`), so the lexemes of
a text are a list of their own, and the tokens of a line are its lexemes with its number. Calls
give these tokens one after the other while the line is current (`onLine_eq_take`).
`Cursor.passAll` is the place where the reading of a line stops: its end, or the sign of a comment.
-/

set_option autoImplicit false

namespace Lexis

def lexemes (ahead : List Char) : List Lexeme :=
  (cuts 0 ahead).map Cut.lexeme

theorem map_lexeme_cuts (start : Nat) (ahead : List Char) :
    (cuts start ahead).map Cut.lexeme = lexemes ahead := by
  unfold lexemes
  generalize 0 = other
  induction ahead using line_induction generalizing start other with
  | idle blanks rest hblanks hidle =>
    rw [cuts_of_idle start hblanks hidle, cuts_of_idle other hblanks hidle]
  | lexeme blanks first rest hblanks hfirst hcomment ih =>
    rw [cuts_of_lexeme start hblanks hfirst hcomment, cuts_of_lexeme other hblanks hfirst hcomment,
      List.map_cons, List.map_cons, ih]
    rfl

section
variable {blanks rest : List Char} {first : Char}

theorem lexemes_of_idle (hblanks : AllBlank blanks) (hidle : Idle rest) :
    lexemes (blanks ++ rest) = [] := by
  rw [lexemes, cuts_of_idle 0 hblanks hidle, List.map_nil]

theorem lexemes_nil : lexemes [] = [] :=
  lexemes_of_idle .nil .nil

theorem lexemes_of_lexeme (hblanks : AllBlank blanks) (hfirst : isBlank first = false)
    (hcomment : first ≠ '#') :
    lexemes (blanks ++ first :: rest) =
      .classify first (cutBody first rest).1 :: lexemes (cutBody first rest).2 := by
  rw [lexemes, cuts_of_lexeme 0 hblanks hfirst hcomment, List.map_cons, map_lexeme_cuts]
  rfl

end

theorem lineTokens_eq (number : Nat) (line : List Char) :
    lineTokens number line = (lexemes line).map (·.token number) := by
  rw [lineTokens, lexemes, List.map_map]
  rfl

/-- While a line is current, calls give its tokens. -/
theorem Scan.onLine_eq_take {σ : Type} [LineSupply σ] {scan : Scan σ} {line : String}
    {number : Nat} (h : scan.ComesTo line number) (n : Nat) :
    onLine number (scan.calls n).1 = (lineTokens number line.toList).take n := by
  obtain ⟨entered, hcursor, rfl, hcalls⟩ := h.start
  rw [(hcalls n).1]
  exact onLine_calls hcursor n

/-! ## The end of the reading -/

theorem Idle.takeWhile {rest : List Char} (h : Idle rest) : rest.takeWhile isBlank = [] := by
  cases rest with
  | nil => rfl
  | cons c rest =>
    obtain rfl := h c rfl
    exact List.takeWhile_cons_of_neg (by simp [isBlank_comment])

namespace Cursor

/-- The cursor behind the last lexeme of its line and the blanks that follow. -/
def passAll (cursor : Cursor) : Cursor :=
  match _h : cursor.skipBlanks.lexeme? with
  | some (_, after) => after.passAll
  | none => cursor.skipBlanks
termination_by cursor.ahead.length
decreasing_by
  have := length_ahead_lexeme? _h
  have := length_ahead_skipBlanks cursor
  omega

variable {cursor : Cursor} {blanks rest : List Char} {first : Char}

theorem passAll_of_idle (hahead : cursor.ahead = blanks ++ rest) (hblanks : AllBlank blanks)
    (hidle : Idle rest) : cursor.passAll = ⟨blanks.reverse ++ cursor.behind, rest⟩ := by
  have hnone := lexeme?_of_idle hahead hblanks hidle
  rw [passAll]
  split
  · rename_i hsome
    rw [hnone] at hsome
    cases hsome
  · rw [skipBlanks, hahead, List.takeWhile_append_of_pos hblanks,
      List.dropWhile_append_of_pos hblanks, hidle.takeWhile, hidle.dropWhile, List.append_nil]

theorem passAll_of_lexeme (hahead : cursor.ahead = blanks ++ first :: rest)
    (hblanks : AllBlank blanks) (hfirst : isBlank first = false) (hcomment : first ≠ '#') :
    cursor.passAll =
      passAll ⟨(cutBody first rest).1.reverse ++ first :: (blanks.reverse ++ cursor.behind),
        (cutBody first rest).2⟩ := by
  have hlexeme := lexeme?_of_lexeme hahead hblanks hfirst hcomment
  rw [passAll]
  split
  · rename_i hsome
    rw [hlexeme] at hsome
    cases hsome
    rfl
  · rename_i hnone
    rw [hlexeme] at hnone
    cases hnone

end Cursor

end Lexis
