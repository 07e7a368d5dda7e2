import Lexis.Lexeme.Cut
import Mathlib.Data.List.TakeWhile

/-!
# The longest lexeme

The first character of a lexeme selects a class of texts (`Admits`), and the lexeme is the longest
text of that class that the line begins with (`IsLongest`). There is at most one such text
(`IsLongest.unique`), and `cutBody` finds it (`isLongest_cutBody`).
-/

set_option autoImplicit false

namespace Lexis

/-- The signs that an equals sign may follow within a symbol. -/
def equalsPartners : List Char :=
  [':', '<', '>', '=', '!']

/-- Whether `first :: body` is a text of the class that `first` selects:
a word is letters and digits, a number is digits with at most one dot among or after them,
a string reaches at most to the next quote, and a symbol is one sign or a sign and an equals
sign. -/
def Admits (first : Char) (body : List Char) : Prop :=
  match Shape.of first with
  | .word => ∀ c ∈ body, isLetter c = true ∨ c.isDigit = true
  | .number =>
    ∃ whole, (∀ c ∈ whole, c.isDigit = true) ∧
      (body = whole ∨
        ∃ fraction, (∀ c ∈ fraction, c.isDigit = true) ∧ body = whole ++ '.' :: fraction)
  | .quoted => ∃ inner, '"' ∉ inner ∧ (body = inner ∨ body = inner ++ ['"'])
  | .symbol => body = [] ∨ first ∈ equalsPartners ∧ body = ['=']

/-- `text` is the longest text of its class with which `line` begins. -/
def IsLongest (text line : List Char) : Prop :=
  ∃ first body, text = first :: body ∧ text <+: line ∧ Admits first body ∧
    ∀ other, first :: other <+: line → Admits first other → other.length ≤ body.length

theorem IsLongest.unique {a b line : List Char} (ha : IsLongest a line) (hb : IsLongest b line) :
    a = b := by
  obtain ⟨first, body, rfl, hpre, hadm, hmax⟩ := ha
  obtain ⟨first', body', rfl, hpre', hadm', hmax'⟩ := hb
  obtain rfl : first = first' := by
    obtain ⟨rest, rfl⟩ := hpre
    exact ((List.cons_prefix_cons.1 hpre').1).symm
  have h1 := hmax body' hpre' hadm'
  have h2 := hmax' body hpre hadm
  exact List.IsPrefix.eq_of_length (List.prefix_of_prefix_length_le hpre hpre' (by simpa using h2))
    (by simp only [List.length_cons]; omega)

/-! ## The cut of each shape -/

theorem isWordChar_iff {c : Char} :
    isWordChar c = true ↔ isLetter c = true ∨ c.isDigit = true := by
  rw [isWordChar, Bool.or_eq_true]

/-- What satisfies `p` throughout at the start of a list is no longer than all that does. -/
theorem length_le_takeWhile {α : Type} {p : α → Bool} {l rest : List α} (hpre : l <+: rest)
    (hall : ∀ c ∈ l, p c = true) : l.length ≤ (rest.takeWhile p).length := by
  obtain ⟨more, rfl⟩ := hpre
  rw [List.takeWhile_append_of_pos hall, List.length_append]
  omega

theorem length_le_cutWord {body rest : List Char} (hpre : body <+: rest)
    (hall : ∀ c ∈ body, isLetter c = true ∨ c.isDigit = true) :
    body.length ≤ (cutWord rest).1.length :=
  length_le_takeWhile hpre fun c hc => isWordChar_iff.2 (hall c hc)

theorem cutNumber_of_dot {whole fraction more : List Char} (hw : ∀ c ∈ whole, c.isDigit = true)
    (hf : ∀ c ∈ fraction, c.isDigit = true) :
    cutNumber (whole ++ '.' :: (fraction ++ more)) =
      (whole ++ '.' :: (fraction ++ more.takeWhile Char.isDigit), more.dropWhile Char.isDigit) := by
  have hstop : Char.isDigit '.' = false := by decide
  have hdrop : (whole ++ '.' :: (fraction ++ more)).dropWhile Char.isDigit =
      '.' :: (fraction ++ more) := by
    rw [List.dropWhile_append_of_pos hw, List.dropWhile_cons_of_neg (by simp [hstop])]
  have htake : (whole ++ '.' :: (fraction ++ more)).takeWhile Char.isDigit = whole := by
    rw [List.takeWhile_append_of_pos hw, List.takeWhile_cons_of_neg (by simp [hstop]),
      List.append_nil]
  rw [cutNumber, hdrop]
  simp only [htake, List.takeWhile_append_of_pos hf, List.dropWhile_append_of_pos hf]

theorem length_takeWhile_le_cutNumber (rest : List Char) :
    (rest.takeWhile Char.isDigit).length ≤ (cutNumber rest).1.length := by
  unfold cutNumber
  split
  · rw [List.length_append]
    omega
  · exact Nat.le_refl _

theorem length_le_cutNumber {body rest : List Char} (hpre : body <+: rest)
    (hadm : ∃ whole, (∀ c ∈ whole, c.isDigit = true) ∧
      (body = whole ∨
        ∃ fraction, (∀ c ∈ fraction, c.isDigit = true) ∧ body = whole ++ '.' :: fraction)) :
    body.length ≤ (cutNumber rest).1.length := by
  obtain ⟨whole, hwhole, rfl | ⟨fraction, hfraction, rfl⟩⟩ := hadm
  · exact Nat.le_trans (length_le_takeWhile hpre hwhole) (length_takeWhile_le_cutNumber rest)
  · obtain ⟨more, rfl⟩ := hpre
    rw [List.append_assoc, List.cons_append, cutNumber_of_dot hwhole hfraction]
    simp only [List.length_append, List.length_cons]
    omega

theorem bne_quote_of_not_mem {text : List Char} (h : '"' ∉ text) :
    ∀ c ∈ text, (c != '"') = true := by
  intro c hc
  rw [bne_iff_ne]
  exact fun he => h (he ▸ hc)

/-- A string is cut behind the next quote. -/
theorem cutQuoted_of_quote {inner : List Char} (hinner : '"' ∉ inner) (more : List Char) :
    cutQuoted (inner ++ '"' :: more) = (inner ++ ['"'], more) := by
  have hall := bne_quote_of_not_mem hinner
  rw [cutQuoted, List.dropWhile_append_of_pos hall, List.dropWhile_cons_of_neg (by simp),
    List.takeWhile_append_of_pos hall, List.takeWhile_cons_of_neg (by simp), List.append_nil]

/-- Without another quote a string takes the whole line. -/
theorem cutQuoted_of_not_mem {rest : List Char} (h : '"' ∉ rest) : cutQuoted rest = (rest, []) := by
  have hall := bne_quote_of_not_mem h
  have htake : rest.takeWhile (· != '"') = rest := List.takeWhile_eq_self_iff.2 hall
  have hdrop : rest.dropWhile (· != '"') = [] := List.dropWhile_eq_nil_iff.2 hall
  rw [cutQuoted, hdrop]
  simp only [htake]

theorem length_le_cutQuoted {body rest : List Char} (hpre : body <+: rest)
    (hadm : ∃ inner, '"' ∉ inner ∧ (body = inner ∨ body = inner ++ ['"'])) :
    body.length ≤ (cutQuoted rest).1.length := by
  obtain ⟨inner, hinner, hbody⟩ := hadm
  have hle : body.length ≤ inner.length + 1 := by
    rcases hbody with rfl | rfl <;> simp
  have hprefix : inner <+: rest := by
    rcases hbody with rfl | rfl
    · exact hpre
    · exact (List.prefix_append inner ['"']).trans hpre
  by_cases hquote : '"' ∈ rest
  · obtain ⟨before, after, rfl, hbefore⟩ := List.eq_append_cons_of_mem hquote
    rw [cutQuoted_of_quote hbefore]
    have hstop : inner.length ≤ before.length := by
      have := length_le_takeWhile hprefix (bne_quote_of_not_mem hinner)
      rwa [List.takeWhile_append_of_pos (bne_quote_of_not_mem hbefore),
        List.takeWhile_cons_of_neg (by simp), List.append_nil] at this
    simp only [List.length_append, List.length_cons, List.length_nil]
    omega
  · rw [cutQuoted_of_not_mem hquote]
    exact hpre.length_le

theorem length_le_cutSymbol {first : Char} {body rest : List Char} (hpre : body <+: rest)
    (hadm : body = [] ∨ first ∈ equalsPartners ∧ body = ['=']) :
    body.length ≤ (cutSymbol first rest).1.length := by
  rcases hadm with rfl | ⟨hfirst, rfl⟩
  · exact Nat.zero_le _
  · obtain ⟨more, rfl⟩ := hpre
    have hjoins : joinsEquals first = true := by
      simpa [joinsEquals, equalsPartners, or_assoc] using hfirst
    simp [cutSymbol, hjoins]

/-! ## All shapes together -/

theorem admits_cutNumber (rest : List Char) :
    ∃ whole, (∀ c ∈ whole, c.isDigit = true) ∧
      ((cutNumber rest).1 = whole ∨
        ∃ fraction, (∀ c ∈ fraction, c.isDigit = true) ∧
          (cutNumber rest).1 = whole ++ '.' :: fraction) := by
  refine ⟨rest.takeWhile Char.isDigit, fun c hc => List.mem_takeWhile_imp hc, ?_⟩
  unfold cutNumber
  split
  · rename_i after _
    exact .inr ⟨after.takeWhile Char.isDigit, fun c hc => List.mem_takeWhile_imp hc, rfl⟩
  · exact .inl rfl

theorem admits_cutQuoted (rest : List Char) :
    ∃ inner, '"' ∉ inner ∧ ((cutQuoted rest).1 = inner ∨ (cutQuoted rest).1 = inner ++ ['"']) := by
  by_cases hquote : '"' ∈ rest
  · obtain ⟨before, after, rfl, hbefore⟩ := List.eq_append_cons_of_mem hquote
    exact ⟨before, hbefore, .inr (by rw [cutQuoted_of_quote hbefore])⟩
  · exact ⟨rest, hquote, .inl (by rw [cutQuoted_of_not_mem hquote])⟩

theorem admits_cutSymbol (first : Char) (rest : List Char) :
    (cutSymbol first rest).1 = [] ∨
      first ∈ equalsPartners ∧ (cutSymbol first rest).1 = ['='] := by
  unfold cutSymbol
  split
  · split
    · rename_i hjoins
      exact .inr ⟨by simpa [joinsEquals, equalsPartners, or_assoc] using hjoins, rfl⟩
    · exact .inl rfl
  · exact .inl rfl

/-- What the cut takes is of the class of the first character. -/
theorem admits_cutBody (first : Char) (rest : List Char) : Admits first (cutBody first rest).1 := by
  unfold Admits cutBody
  cases Shape.of first with
  | word => exact fun c hc => isWordChar_iff.1 (List.mem_takeWhile_imp hc)
  | number => exact admits_cutNumber rest
  | quoted => exact admits_cutQuoted rest
  | symbol => exact admits_cutSymbol first rest

theorem length_le_cutBody {first : Char} {body rest : List Char} (hpre : body <+: rest)
    (hadm : Admits first body) : body.length ≤ (cutBody first rest).1.length := by
  unfold Admits at hadm
  unfold cutBody
  cases h : Shape.of first with
  | word => rw [h] at hadm; exact length_le_cutWord hpre hadm
  | number => rw [h] at hadm; exact length_le_cutNumber hpre hadm
  | quoted => rw [h] at hadm; exact length_le_cutQuoted hpre hadm
  | symbol => rw [h] at hadm; exact length_le_cutSymbol hpre hadm

/-- The cut is the longest lexeme. -/
theorem isLongest_cutBody (first : Char) (rest : List Char) :
    IsLongest (first :: (cutBody first rest).1) (first :: rest) := by
  refine ⟨first, _, rfl, ?_, admits_cutBody first rest, fun other hpre hadm => ?_⟩
  · rw [List.cons_prefix_cons]
    exact ⟨rfl, _, cutBody_append first rest⟩
  · exact length_le_cutBody (List.cons_prefix_cons.1 hpre).2 hadm

end Lexis
