import Lexis.Lexeme.Cursor
import Lexis.Proofs.Lexeme.Spelling

/-!
# The cuts of a line

`cuts start ahead` lists the lexemes of a line from position `start` on, when `ahead` is what
stands there: each with its place, its first character and the rest of its text. What is ahead
consists of blanks and then either nothing that counts (the end of the line or a comment,
`Idle`) or a lexeme; `line_induction` is the induction that goes with it. A cursor that moves
over a lexeme has passed the first of its cuts (`Cursor.cuts_of_lexeme?`).
-/

set_option autoImplicit false

namespace Lexis

/-- A lexeme in its line. -/
structure Cut where
  start : Nat
  first : Char
  body : List Char
  deriving DecidableEq

namespace Cut

def source (cut : Cut) : List Char :=
  cut.first :: cut.body

/-- The position behind the lexeme. -/
def stop (cut : Cut) : Nat :=
  cut.start + cut.source.length

def lexeme (cut : Cut) : Lexeme :=
  .classify cut.first cut.body

end Cut

def cuts (start : Nat) (ahead : List Char) : List Cut :=
  match _h : ahead.dropWhile isBlank with
  | [] => []
  | first :: rest =>
    if first = '#' then []
    else
      let cut : Cut := ⟨start + (ahead.takeWhile isBlank).length, first, (cutBody first rest).1⟩
      cut :: cuts cut.stop (cutBody first rest).2
termination_by ahead.length
decreasing_by
  have h1 : (ahead.dropWhile isBlank).length ≤ ahead.length :=
    (List.dropWhile_suffix isBlank).length_le
  have h2 := length_cutBody_le first rest
  rw [_h, List.length_cons] at h1
  omega

/-! ## What is ahead -/

/-- The end of the line, or a comment. -/
def Idle (rest : List Char) : Prop :=
  ∀ c, rest.head? = some c → c = '#'

def AllBlank (text : List Char) : Prop :=
  ∀ c ∈ text, isBlank c = true

theorem isBlank_comment : isBlank '#' = false := by
  decide

theorem AllBlank.nil : AllBlank [] := by
  intro c h
  cases h

theorem Idle.nil : Idle [] := by
  intro c h
  cases h

theorem Idle.comment (rest : List Char) : Idle ('#' :: rest) := by
  intro c h
  cases h
  rfl

theorem Idle.dropWhile {rest : List Char} (h : Idle rest) : rest.dropWhile isBlank = rest := by
  cases rest with
  | nil => rfl
  | cons c rest =>
    obtain rfl := h c rfl
    rw [List.dropWhile_cons_of_neg (by simp [isBlank_comment])]

theorem cuts_of_idle {blanks rest : List Char} (start : Nat) (hblanks : AllBlank blanks)
    (hidle : Idle rest) : cuts start (blanks ++ rest) = [] := by
  rw [cuts]
  have hdrop : (blanks ++ rest).dropWhile isBlank = rest := by
    rw [List.dropWhile_append_of_pos hblanks, hidle.dropWhile]
  split
  · rfl
  · rename_i first more h
    rw [hdrop] at h
    rw [if_pos (hidle first (by rw [h]; rfl))]

@[simp] theorem cuts_nil (start : Nat) : cuts start [] = [] :=
  cuts_of_idle start .nil .nil

theorem cuts_of_lexeme {blanks rest : List Char} {first : Char} (start : Nat)
    (hblanks : AllBlank blanks) (hfirst : isBlank first = false) (hcomment : first ≠ '#') :
    cuts start (blanks ++ first :: rest) =
      ⟨start + blanks.length, first, (cutBody first rest).1⟩ ::
        cuts (start + blanks.length + (1 + (cutBody first rest).1.length))
          (cutBody first rest).2 := by
  rw [cuts]
  have hdrop : (blanks ++ first :: rest).dropWhile isBlank = first :: rest := by
    rw [List.dropWhile_append_of_pos hblanks, List.dropWhile_cons_of_neg (by simp [hfirst])]
  have htake : (blanks ++ first :: rest).takeWhile isBlank = blanks := by
    rw [List.takeWhile_append_of_pos hblanks, List.takeWhile_cons_of_neg (by simp [hfirst]),
      List.append_nil]
  split
  · rename_i h
    rw [hdrop] at h
    cases h
  · rename_i first' rest' h
    rw [hdrop] at h
    obtain ⟨rfl, rfl⟩ := List.cons.inj h
    rw [if_neg hcomment, htake]
    simp only [Cut.stop, Cut.source, List.length_cons, Nat.add_comm 1]

/-- What is ahead is idle behind some blanks, or begins with a lexeme behind some blanks. -/
theorem idle_or_lexeme (ahead : List Char) :
    (∃ blanks rest, ahead = blanks ++ rest ∧ AllBlank blanks ∧ Idle rest) ∨
      ∃ blanks first rest, ahead = blanks ++ first :: rest ∧ AllBlank blanks ∧
        isBlank first = false ∧ first ≠ '#' := by
  have hsplit := (List.takeWhile_append_dropWhile (p := isBlank) (l := ahead)).symm
  have hblanks : AllBlank (ahead.takeWhile isBlank) := fun c hc => List.mem_takeWhile_imp hc
  cases hdrop : ahead.dropWhile isBlank with
  | nil => exact .inl ⟨_, _, hdrop ▸ hsplit, hblanks, .nil⟩
  | cons first rest =>
    have hfirst : isBlank first = false := by
      have := List.head?_dropWhile_not isBlank ahead
      rw [hdrop] at this
      simpa using this
    by_cases hcomment : first = '#'
    · subst hcomment
      exact .inl ⟨_, _, hdrop ▸ hsplit, hblanks, .comment rest⟩
    · exact .inr ⟨_, first, rest, hdrop ▸ hsplit, hblanks, hfirst, hcomment⟩

/-- Induction on a line, lexeme by lexeme. -/
@[elab_as_elim]
theorem line_induction {motive : List Char → Prop}
    (idle : ∀ blanks rest, AllBlank blanks → Idle rest → motive (blanks ++ rest))
    (lexeme : ∀ blanks first rest, AllBlank blanks → isBlank first = false → first ≠ '#' →
      motive (cutBody first rest).2 → motive (blanks ++ first :: rest))
    (ahead : List Char) : motive ahead := by
  rcases idle_or_lexeme ahead with ⟨blanks, rest, hahead, hblanks, hidle⟩ |
    ⟨blanks, first, rest, hahead, hblanks, hfirst, hcomment⟩
  · rw [hahead]
    exact idle blanks rest hblanks hidle
  · have hshorter : (cutBody first rest).2.length < ahead.length := by
      have := length_cutBody_le first rest
      rw [hahead, List.length_append, List.length_cons]
      omega
    rw [hahead]
    exact lexeme blanks first rest hblanks hfirst hcomment
      (line_induction idle lexeme (cutBody first rest).2)
termination_by ahead.length

/-- Every cut is spelled as it is classified. -/
theorem spells_of_mem_cuts {start : Nat} {ahead : List Char} {cut : Cut}
    (h : cut ∈ cuts start ahead) : Spells cut.lexeme.kind cut.lexeme.text cut.source := by
  induction ahead using line_induction generalizing start with
  | idle blanks rest hblanks hidle =>
    rw [cuts_of_idle start hblanks hidle] at h
    cases h
  | lexeme blanks first rest hblanks hfirst hcomment ih =>
    rw [cuts_of_lexeme start hblanks hfirst hcomment] at h
    rcases List.mem_cons.1 h with rfl | h
    · exact spells_classify hfirst hcomment (admits_cutBody first rest)
    · exact ih h

theorem isEof_token_of_mem_cuts {start : Nat} {ahead : List Char} {cut : Cut}
    (h : cut ∈ cuts start ahead) (line : Nat) : (cut.lexeme.token line).isEof = false :=
  decide_eq_false (spells_of_mem_cuts h).ne_eof

/-! ## Moving a cursor -/

namespace Cursor

/-- The cuts ahead of a cursor. -/
def cuts (cursor : Cursor) : List Cut :=
  Lexis.cuts cursor.column cursor.ahead

theorem lexeme?_of_idle {cursor : Cursor} {blanks rest : List Char}
    (hahead : cursor.ahead = blanks ++ rest) (hblanks : AllBlank blanks) (hidle : Idle rest) :
    cursor.skipBlanks.lexeme? = none := by
  have hdrop : cursor.skipBlanks.ahead = rest := by
    rw [skipBlanks, hahead, List.dropWhile_append_of_pos hblanks, hidle.dropWhile]
  unfold lexeme?
  rw [hdrop]
  split
  · rfl
  · rw [if_pos (hidle _ rfl)]

theorem skipBlanks_of_lexeme {cursor : Cursor} {blanks rest : List Char} {first : Char}
    (hahead : cursor.ahead = blanks ++ first :: rest) (hblanks : AllBlank blanks)
    (hfirst : isBlank first = false) :
    cursor.skipBlanks = ⟨blanks.reverse ++ cursor.behind, first :: rest⟩ := by
  rw [skipBlanks, hahead, List.takeWhile_append_of_pos hblanks,
    List.dropWhile_append_of_pos hblanks, List.takeWhile_cons_of_neg (by simp [hfirst]),
    List.dropWhile_cons_of_neg (by simp [hfirst]), List.append_nil]

/-- The cursor behind the lexeme `first :: body`, before which blanks stand. -/
theorem lexeme?_of_lexeme {cursor : Cursor} {blanks rest : List Char} {first : Char}
    (hahead : cursor.ahead = blanks ++ first :: rest) (hblanks : AllBlank blanks)
    (hfirst : isBlank first = false) (hcomment : first ≠ '#') :
    cursor.skipBlanks.lexeme? = some (.classify first (cutBody first rest).1,
      ⟨(cutBody first rest).1.reverse ++ first :: (blanks.reverse ++ cursor.behind),
        (cutBody first rest).2⟩) := by
  rw [skipBlanks_of_lexeme hahead hblanks hfirst]
  simp only [lexeme?, if_neg hcomment]

theorem cuts_of_lexeme?_eq_none {cursor : Cursor} (h : cursor.skipBlanks.lexeme? = none) :
    cursor.cuts = [] := by
  rcases idle_or_lexeme cursor.ahead with ⟨blanks, rest, hahead, hblanks, hidle⟩ |
    ⟨blanks, first, rest, hahead, hblanks, hfirst, hcomment⟩
  · rw [cuts, hahead, cuts_of_idle _ hblanks hidle]
  · rw [lexeme?_of_lexeme hahead hblanks hfirst hcomment] at h
    cases h

/-- Moving over a lexeme takes the first cut off. -/
theorem cuts_of_lexeme? {cursor after : Cursor} {lexeme : Lexeme}
    (h : cursor.skipBlanks.lexeme? = some (lexeme, after)) :
    ∃ cut, cursor.cuts = cut :: after.cuts ∧ cut.lexeme = lexeme ∧ cut.stop = after.column := by
  rcases idle_or_lexeme cursor.ahead with ⟨blanks, rest, hahead, hblanks, hidle⟩ |
    ⟨blanks, first, rest, hahead, hblanks, hfirst, hcomment⟩
  · rw [lexeme?_of_idle hahead hblanks hidle] at h
    cases h
  · rw [lexeme?_of_lexeme hahead hblanks hfirst hcomment] at h
    obtain ⟨rfl, rfl⟩ := Prod.mk.inj (Option.some.inj h)
    have hcolumn : cursor.column + blanks.length + (1 + (cutBody first rest).1.length) =
        ((cutBody first rest).1.reverse ++ first :: (blanks.reverse ++ cursor.behind)).length := by
      simp only [column, List.length_append, List.length_reverse, List.length_cons]
      omega
    refine ⟨⟨cursor.column + blanks.length, first, (cutBody first rest).1⟩, ?_, rfl, ?_⟩
    · rw [cuts, hahead, cuts_of_lexeme _ hblanks hfirst hcomment, hcolumn]
      rfl
    · refine Eq.trans ?_ hcolumn
      simp only [Cut.stop, Cut.source, List.length_cons]
      omega

/-- Without a cut ahead there is no lexeme. -/
theorem lexeme?_eq_none_of_cuts {cursor : Cursor} (h : cursor.cuts = []) :
    cursor.skipBlanks.lexeme? = none := by
  cases hlexeme : cursor.skipBlanks.lexeme? with
  | none => rfl
  | some found =>
    obtain ⟨cut, hcuts, _⟩ := cuts_of_lexeme? hlexeme
    rw [h] at hcuts
    cases hcuts

end Cursor

end Lexis
