import Mathlib.Data.List.TakeWhile
import Lexis.Proofs.Json.Value

/-!
# What has been read stays

A reader meets its text from left to right, so what follows the part that it has read makes no
difference to it: when the text goes on, the reader gives the same and leaves more (`Lasts`). Only a
numeral at the end of a text may go on with the text, and so may whatever ends with one; that stays
as long as something is left behind it (`LastsWithin`).
-/

set_option autoImplicit false

namespace Lexis.Json

/-- What the reader gives stays when the text goes on. -/
def Lasts {α : Type} (read : Reader α) : Prop :=
  ∀ {s rest : List Char} {a : α}, read s = .ok (a, rest) →
    ∀ more, read (s ++ more) = .ok (a, rest ++ more)

/-- What the reader gives stays when it leaves something and the text goes on. -/
def LastsWithin {α : Type} (read : Reader α) : Prop :=
  ∀ {s rest : List Char} {a : α}, read s = .ok (a, rest) → rest ≠ [] →
    ∀ more, read (s ++ more) = .ok (a, rest ++ more)

/-! ## Blanks, words and brackets -/

section
variable {s rest : List Char} (more : List Char)

theorem skipBlanks_append {c : Char} (h : skipBlanks s = c :: rest) :
    skipBlanks (s ++ more) = c :: (rest ++ more) := by
  rw [skipBlanks] at h
  rw [skipBlanks, List.dropWhile_append, h]
  rfl

theorem isBlank_of_skipBlanks {c : Char} (h : skipBlanks s = c :: rest) : isBlank c = false := by
  have := List.head?_dropWhile_not isBlank s
  rw [← skipBlanks, h] at this
  simpa using this

theorem expect_lasts {word : List Char} (h : expect word s = .ok rest) :
    expect word (s ++ more) = .ok (rest ++ more) := by
  rw [eq_append_of_expect h, List.append_assoc]
  exact expect_append word _

theorem expectColon_append (h : expectColon s = .ok rest) :
    expectColon (s ++ more) = .ok (rest ++ more) := by
  unfold expectColon at h
  split at h
  · cases h
  · rename_i hskip
    rw [expectColon, skipBlanks_append more hskip]
    split at h
    · rename_i hcolon
      cases h
      exact if_pos hcolon
    · cases h

theorem expectClosing_append {bracket : Bracket} (h : expectClosing bracket s = .ok rest) :
    expectClosing bracket (s ++ more) = .ok (rest ++ more) := by
  unfold expectClosing at h
  split at h
  · cases h
  · rename_i hskip
    rw [expectClosing, skipBlanks_append more hskip]
    split at h
    · rename_i hclosing
      cases h
      exact if_pos hclosing
    · cases h

theorem readNull_append (h : readNull s = .ok rest) :
    readNull (s ++ more) = .ok (rest ++ more) := by
  unfold readNull at h
  split at h
  · cases h
  · rename_i hskip
    rw [readNull, skipBlanks_append more hskip]
    split at h
    · rename_i hletter
      exact (if_pos hletter).trans (expect_lasts more h)
    · cases h

end

/-! ## Quoted text -/

theorem lasts_readUnit : Lasts readUnit := by
  intro s rest unit h more
  unfold readUnit at h
  split at h
  · split at h
    · rename_i ha hb hc hd
      cases h
      simp only [List.cons_append, readUnit, ha, hb, hc, hd]
    · cases h
  · cases h

theorem lasts_readLowSurrogate (high : Nat) : Lasts (readLowSurrogate high) := by
  intro s rest c h more
  unfold readLowSurrogate at h
  split at h
  · cases h
  · cases h
  · rename_i hmark
    split at h
    · split at h
      · rename_i hescape _ _ _ hunit
        have hread := lasts_readUnit hunit more
        split at h
        · rename_i hlow
          obtain ⟨rfl, rfl⟩ := Prod.mk.inj (Except.ok.inj h)
          simp only [List.cons_append, readLowSurrogate, hescape, and_self, if_true, hread, hlow]
        · cases h
      · cases h
    · cases h
  · cases h

theorem lasts_readEscape : Lasts readEscape := by
  intro s rest c h more
  unfold readEscape at h
  split at h
  · cases h
  · split at h
    · rename_i hletter
      split at h
      · rename_i hunit
        have hread := lasts_readUnit hunit more
        split at h
        · cases h
        · rename_i hlow
          split at h
          · rename_i hhigh
            have hpair := lasts_readLowSurrogate _ h more
            simp [readEscape, hletter, hread, hlow, hhigh, hpair]
          · rename_i hhigh
            cases h
            simp [readEscape, hletter, hread, hlow, hhigh]
      · cases h
    · rename_i hletter
      split at h
      · rename_i hc
        cases h
        simp [readEscape, hletter, hc]
      · cases h

theorem lasts_readQuoted : Lasts readQuoted := by
  intro s rest text h more
  fun_induction readQuoted s generalizing text rest with
  | case1 => cases h
  | case2 s =>
    cases h
    simp [readQuoted]
  | case3 s d left hescape _ ih =>
    obtain ⟨⟨chars, after⟩, hread, heq⟩ := map_eq_ok h
    cases heq
    have hescape := lasts_readEscape hescape more
    rw [List.cons_append, readQuoted_of_escape hescape, ih hread]
    rfl
  | case4 => cases h
  | case5 => cases h
  | case6 c s hquote hbackslash hcontrol ih =>
    obtain ⟨⟨chars, after⟩, hread, heq⟩ := map_eq_ok h
    cases heq
    rw [List.cons_append, readQuoted, if_neg hquote, if_neg hbackslash, if_neg hcontrol, ih hread]
    rfl

/-! ## Numerals -/

theorem ne_nil_of_length_le {s rest : List Char} (hrest : rest ≠ [])
    (hlength : rest.length ≤ s.length) : s ≠ [] := by
  rintro rfl
  exact hrest (List.eq_nil_of_length_eq_zero (Nat.le_zero.1 hlength))

/-- Digits are read up to the first character that is none. -/
theorem readDigits_eq_ok {atEnd : Fault} {s digits rest : List Char}
    (h : readDigits atEnd s = .ok (digits, rest)) :
    s = digits ++ rest ∧ IsDigits digits ∧ ∀ c, rest.head? = some c → c.isDigit = false := by
  unfold readDigits at h
  split at h
  · cases h
  · rename_i first others
    split at h
    · rename_i hfirst
      cases h
      refine ⟨?_, ⟨List.cons_ne_nil _ _, ?_⟩, ?_⟩
      · rw [List.cons_append, List.takeWhile_append_dropWhile]
      · exact List.forall_mem_cons.2 ⟨hfirst, fun c hc => List.mem_takeWhile_imp hc⟩
      · intro c hc
        have := List.head?_dropWhile_not Char.isDigit others
        simp_all
    · cases h

theorem lastsWithin_readDigits (atEnd : Fault) : LastsWithin (readDigits atEnd) := by
  intro s rest digits h hrest more
  obtain ⟨rfl, hdigits, hend⟩ := readDigits_eq_ok h
  rw [List.append_assoc]
  refine readDigits_append atEnd hdigits fun c hc => hend c ?_
  rwa [List.head?_append_of_ne_nil _ hrest] at hc

theorem lastsWithin_readWhole (atEnd : Fault) : LastsWithin (readWhole atEnd) := by
  intro s rest whole h hrest more
  unfold readWhole at h
  split at h
  · cases h
  · rename_i hdigits
    split at h
    · cases h
    · rename_i hzero
      cases h
      rw [readWhole, lastsWithin_readDigits atEnd hdigits hrest]
      exact if_neg hzero

theorem lastsWithin_readFraction (atEnd : Fault) : LastsWithin (readFraction atEnd) := by
  intro s rest fraction h hrest more
  unfold readFraction at h
  split at h
  · exact lastsWithin_readDigits atEnd h hrest more
  · rename_i hpoint
    cases h
    cases s with
    | nil => exact absurd rfl hrest
    | cons c s =>
      rw [List.cons_append, readFraction]
      rintro tail htail
      exact hpoint s (by cases htail; rfl)

/-- The sign of a number is at its front, so what is behind it goes on as the number does. -/
theorem signed_append (sign : Option Char → Bool) {s : List Char} (hs : s ≠ [])
    (more : List Char) :
    (if sign (s ++ more).head? = true then (s ++ more).tail else s ++ more) =
      (if sign s.head? = true then s.tail else s) ++ more := by
  rw [List.head?_append_of_ne_nil _ hs, List.tail_append_of_ne_nil hs]
  split <;> rfl

theorem lastsWithin_readExponent (atEnd : Fault) : LastsWithin (readExponent atEnd) := by
  intro s rest exponent h hrest more
  unfold readExponent at h
  split at h
  · cases h
    exact absurd rfl hrest
  · rename_i c others
    split at h
    · rename_i hmark
      dsimp only at h
      split at h
      · cases h
      · rename_i hdigits
        cases h
        have hothers : others ≠ [] := by
          rintro rfl
          cases hdigits
        have hsigned := signed_append (fun sign => sign = some '+' ∨ sign = some '-') hothers more
        have hread := lastsWithin_readDigits atEnd hdigits hrest more
        simp only [decide_eq_true_eq] at hsigned
        rw [← hsigned] at hread
        rw [List.cons_append, readExponent, if_pos hmark]
        dsimp only
        rw [hread, List.head?_append_of_ne_nil _ hothers]
    · rename_i hmark
      cases h
      exact if_neg hmark

theorem lastsWithin_readParts (atEnd : Fault) : LastsWithin (readParts atEnd) := by
  intro s rest numeral h hrest more
  unfold readParts at h
  dsimp only at h
  split at h
  · cases h
  · rename_i hwhole
    split at h
    · cases h
    · rename_i hfraction
      split at h
      · cases h
      · rename_i hexponent
        cases h
        -- something is left behind each part, as there is behind the last one
        have hmark := ne_nil_of_length_le hrest (length_readExponent hexponent)
        have hpoint := ne_nil_of_length_le hmark (length_readFraction hfraction)
        have hs : s ≠ [] := by
          rintro rfl
          cases hwhole
        have hsigned := signed_append (fun sign => sign = some '-') hs more
        have hwhole := lastsWithin_readWhole atEnd hwhole hpoint more
        rw [← hsigned] at hwhole
        rw [readParts, hwhole, List.head?_append_of_ne_nil _ hs]
        simp only [lastsWithin_readFraction atEnd hfraction hmark more,
          lastsWithin_readExponent atEnd hexponent hrest more]

theorem lastsWithin_readNatural : LastsWithin readNatural := by
  intro s rest n h hrest more
  unfold readNatural at h
  split at h
  · cases h
  · rename_i hparts
    split at h
    · cases h
    · rename_i hoverflow
      cases h
      rw [readNatural, lastsWithin_readParts _ hparts hrest]
      exact if_neg hoverflow

/-! ## Values that are passed over -/

section
variable {s rest : List Char}

theorem skipEscape_append (h : skipEscape s = .ok rest) (more : List Char) :
    skipEscape (s ++ more) = .ok (rest ++ more) := by
  unfold skipEscape at h
  split at h
  · cases h
  · rename_i letter _
    by_cases hunit : letter = 'u'
    · rw [if_pos hunit] at h
      obtain ⟨⟨unit, left⟩, hread, rfl⟩ := map_eq_ok h
      simp [skipEscape, hunit, lasts_readUnit hread more, Except.map]
    · rw [if_neg hunit] at h
      split at h
      · rename_i hletter
        cases h
        simp [skipEscape, hunit, hletter]
      · cases h

theorem skipQuoted_append (h : skipQuoted s = .ok rest) (more : List Char) :
    skipQuoted (s ++ more) = .ok (rest ++ more) := by
  fun_induction skipQuoted s with
  | case1 => cases h
  | case2 s =>
    cases h
    simp [skipQuoted]
  | case3 s left hescape _ ih =>
    rw [List.cons_append, skipQuoted_of_escape (skipEscape_append hescape more)]
    exact ih h
  | case4 => cases h
  | case5 => cases h
  | case6 c s hquote hbackslash hcontrol ih =>
    rw [List.cons_append, skipQuoted, if_neg hquote, if_neg hbackslash, if_neg hcontrol]
    exact ih h

theorem skipScalar_append {c : Char} (h : skipScalar c s = .ok rest) (hrest : rest ≠ [])
    (more : List Char) : skipScalar c (s ++ more) = .ok (rest ++ more) := by
  unfold skipScalar at h ⊢
  split_ifs at h ⊢ with hnull hyes hno hquote hnumeral
  · exact expect_lasts more h
  · exact expect_lasts more h
  · exact expect_lasts more h
  · exact skipQuoted_append h more
  · obtain ⟨⟨numeral, left⟩, hparts, rfl⟩ := map_eq_ok h
    rw [← List.cons_append, lastsWithin_readParts _ hparts hrest]
    rfl

theorem eq_opening_of_ofOpening? {c : Char} {bracket : Bracket}
    (h : Bracket.ofOpening? c = some bracket) : c = bracket.opening := by
  unfold Bracket.ofOpening? at h
  split at h
  · rename_i hc
    cases h
    exact hc
  split at h
  · rename_i hc
    cases h
    exact hc
  · cases h

/-- The machine goes on from the character behind the blanks. -/
theorem skipOpen_of_skipBlanks {brackets : List Bracket} {expected : Expected} {c : Char}
    (h : skipBlanks s = c :: rest) (hmore : expected ≠ .next ∨ brackets ≠ []) :
    skipOpen brackets expected s = skipOpen brackets expected (c :: rest) := by
  refine skipOpen_congr ?_ hmore
  rw [h, skipBlanks_cons (isBlank_of_skipBlanks h)]

theorem skipOpen_append {brackets : List Bracket} {expected : Expected}
    (h : skipOpen brackets expected s = .ok rest) (hrest : rest ≠ []) (more : List Char) :
    skipOpen brackets expected (s ++ more) = .ok (rest ++ more) := by
  have hvalue : Expected.value ≠ .next := nofun
  have hmember : Expected.member ≠ .next := nofun
  fun_induction skipOpen brackets expected s with
  | case2 brackets s c left hs bracket hopening after hclosing ih =>
    rw [skipOpen_of_skipBlanks (skipBlanks_append more hs) (.inl hvalue),
      eq_opening_of_ofOpening? hopening, skipOpen_empty (skipBlanks_append more hclosing)]
    exact ih h
  | case3 brackets s c left hs bracket hopening d after hd hclosing ih =>
    rw [skipOpen_of_skipBlanks (skipBlanks_append more hs) (.inl hvalue),
      eq_opening_of_ofOpening? hopening, skipOpen_full (skipBlanks_append more hd) hclosing]
    exact ih h
  | case5 brackets s c left hs hopening after hscalar ih =>
    have hafter := ne_nil_of_length_le hrest (length_skipOpen h)
    rw [skipOpen_of_skipBlanks (skipBlanks_append more hs) (.inl hvalue),
      skipOpen_scalar (isBlank_of_skipBlanks hs) hopening (skipScalar_append hscalar hafter more)]
    exact ih h
  | case8 brackets s left after hquoted value hcolon hs ih =>
    rw [skipOpen_of_skipBlanks (skipBlanks_append more hs) (.inl hmember),
      skipOpen_member (skipQuoted_append hquoted more) (expectColon_append more hcolon)]
    exact ih h
  | case12 =>
    cases h
    rw [skipOpen]
  | case14 s bracket outer left hs ih =>
    rw [skipOpen_of_skipBlanks (skipBlanks_append more hs) (.inr (List.cons_ne_nil _ _)),
      skipOpen_comma]
    exact ih h
  | case15 s bracket outer left hs _ ih =>
    rw [skipOpen_of_skipBlanks (skipBlanks_append more hs) (.inr (List.cons_ne_nil _ _)),
      skipOpen_closing]
    exact ih h
  | case1 | case4 | case6 | case7 | case9 | case10 | case11 | case13 | case16 => cases h

end

/-! ## A whole text -/

/-- A text that has been read may go on with blanks and with nothing else. -/
theorem Lasts.readText_append {α : Type} {read : Reader α} (hread : Lasts read) {s : List Char}
    {a : α} (h : readText read s = .ok a) (more : List Char) :
    readText read (s ++ more) = if Gap more then .ok a else .error .malformed := by
  unfold readText at h
  split at h
  · cases h
  rename_i rest hs
  split_ifs at h with hblank
  cases h
  have hrest : Gap rest := List.dropWhile_eq_nil_iff.1 (List.isEmpty_iff.1 hblank)
  rw [readText, hread hs]
  simp only [hrest.skipBlanks, List.isEmpty_iff]
  exact if_congr List.dropWhile_eq_nil_iff rfl rfl

end Lexis.Json
