import Mathlib.Tactic.SplitIfs
import Lexis.Json.Skip
import Lexis.Token.Fingerprint

/-!
# Quoted text, spelled and read

Between quotes a character may be spelled in several ways: as it is, by an escape with a letter, or
by its UTF-16 units in hexadecimal digits, small or capital (`SpellsChar`). Whatever way is taken
for each character, the text is read as it was meant (`readQuoted_spellsText`). To be passed over it
need not even be a text: a unit may be half of a pair (`IsBody`, `skipQuoted_body`).

What is written is one of the spellings (`spellsText_escape`), and nothing in it is a control
character (`printable_quoted`).
-/

set_option autoImplicit false

namespace Lexis.Json

/-- The text holds no control character below the space. -/
def Printable (text : List Char) : Prop :=
  ∀ c ∈ text, 0x20 ≤ c.toNat

instance (text : List Char) : Decidable (Printable text) :=
  List.decidableBAll (fun c : Char => 0x20 ≤ c.toNat) text

theorem Printable.nil : Printable [] :=
  List.forall_mem_nil _

theorem Printable.cons {c : Char} {text : List Char} (hc : 0x20 ≤ c.toNat) (h : Printable text) :
    Printable (c :: text) :=
  List.forall_mem_cons.2 ⟨hc, h⟩

theorem Printable.append {a b : List Char} (ha : Printable a) (hb : Printable b) :
    Printable (a ++ b) :=
  List.forall_mem_append.2 ⟨ha, hb⟩

theorem Printable.newline_not_mem {text : List Char} (h : Printable text) : '\n' ∉ text :=
  fun hmem => absurd (h '\n' hmem) (by decide)

/-! ## Spellings -/

/-- The character is the digit of that value, small or capital. -/
def IsHexDigit (value : Nat) (c : Char) : Prop :=
  value < 16 ∧ (c = Nat.digitChar value ∨ c = (Nat.digitChar value).toUpper)

instance (value : Nat) (c : Char) : Decidable (IsHexDigit value c) :=
  inferInstanceAs (Decidable (_ ∧ _))

/-- The escape of a unit by its four digits. -/
inductive EscapesUnit (unit : Nat) : List Char → Prop
  | mk {a b c d : Char} (ha : IsHexDigit (unit / 4096) a) (hb : IsHexDigit (unit / 256 % 16) b)
      (hc : IsHexDigit (unit / 16 % 16) c) (hd : IsHexDigit (unit % 16) d) :
    EscapesUnit unit ['\\', 'u', a, b, c, d]

inductive EscapesUnits : List Nat → List Char → Prop
  | nil : EscapesUnits [] []
  | cons {unit : Nat} {units : List Nat} {first more : List Char} (hunit : EscapesUnit unit first)
      (h : EscapesUnits units more) : EscapesUnits (unit :: units) (first ++ more)

/-- The letters that may follow a backslash, with the characters that they stand for. -/
def escapeLetters : List (Char × Char) :=
  [('"', '"'), ('\\', '\\'), ('/', '/'), ('b', '\x08'), ('f', '\x0c'), ('n', '\n'), ('r', '\r'),
   ('t', '\t')]

/-- The character may stand between quotes as it is. -/
structure IsPlain (c : Char) : Prop where
  printable : 0x20 ≤ c.toNat
  ne_quote : c ≠ '"'
  ne_backslash : c ≠ '\\'

/-- The ways to spell a character between quotes. -/
inductive SpellsChar : Char → List Char → Prop
  | plain {c : Char} (h : IsPlain c) : SpellsChar c [c]
  | letter {c letter : Char} (h : (letter, c) ∈ escapeLetters) : SpellsChar c ['\\', letter]
  | units {c : Char} {text : List Char} (h : EscapesUnits (utf16Units c) text) : SpellsChar c text

/-- Each character of a text is spelled in some way. -/
inductive SpellsText : List Char → List Char → Prop
  | nil : SpellsText [] []
  | cons {c : Char} {chars first more : List Char} (hc : SpellsChar c first)
      (h : SpellsText chars more) : SpellsText (c :: chars) (first ++ more)

/-- A spelling between its quotes. -/
inductive SpellsQuoted (chars : List Char) : List Char → Prop
  | mk {text : List Char} (h : SpellsText chars text) : SpellsQuoted chars ('"' :: (text ++ ['"']))

/-- What may stand between quotes, whether its units make up characters or not. -/
inductive IsBody : List Char → Prop
  | nil : IsBody []
  | plain {c : Char} {more : List Char} (hc : IsPlain c) (h : IsBody more) : IsBody (c :: more)
  | letter {c letter : Char} {more : List Char} (hletter : (letter, c) ∈ escapeLetters)
      (h : IsBody more) : IsBody ('\\' :: letter :: more)
  | unit {unit : Nat} {first more : List Char} (hunit : EscapesUnit unit first)
      (h : IsBody more) : IsBody (first ++ more)

/-! ## Digits and letters -/

theorem IsHexDigit.hexValue? {value : Nat} {c : Char} (h : IsHexDigit value c) :
    hexValue? c = some value := by
  have hall : ∀ m < 16, Lexis.hexValue? (Nat.digitChar m) = some m ∧
      Lexis.hexValue? (Nat.digitChar m).toUpper = some m := by decide
  obtain ⟨hvalue, rfl | rfl⟩ := h
  · exact (hall value hvalue).1
  · exact (hall value hvalue).2

theorem IsHexDigit.printable {value : Nat} {c : Char} (h : IsHexDigit value c) :
    0x20 ≤ c.toNat := by
  have hall : ∀ m < 16, 0x20 ≤ (Nat.digitChar m).toNat ∧ 0x20 ≤ (Nat.digitChar m).toUpper.toNat := by
    decide
  obtain ⟨hvalue, rfl | rfl⟩ := h
  · exact (hall value hvalue).1
  · exact (hall value hvalue).2

theorem of_mem_escapeLetters {letter c : Char} (h : (letter, c) ∈ escapeLetters) :
    ofEscapeLetter? letter = some c ∧ letter ≠ 'u' ∧ 0x20 ≤ letter.toNat := by
  have hall : ∀ p ∈ escapeLetters, ofEscapeLetter? p.1 = some p.2 ∧ p.1 ≠ 'u' ∧ 0x20 ≤ p.1.toNat := by
    decide
  exact hall _ h

/-- An escaped unit is read from its digits. -/
theorem EscapesUnit.readUnit {unit : Nat} {text : List Char} (h : EscapesUnit unit text) :
    ∃ code, text = '\\' :: 'u' :: code ∧ ∀ rest, readUnit (code ++ rest) = .ok (unit, rest) := by
  cases h with
  | mk ha hb hc hd =>
    refine ⟨_, rfl, fun rest => ?_⟩
    simp only [List.cons_append, List.nil_append, Json.readUnit, ha.hexValue?, hb.hexValue?,
      hc.hexValue?, hd.hexValue?, Except.ok.injEq, Prod.mk.injEq, and_true]
    have := ha.1
    omega

theorem EscapesUnits.of_cons {unit : Nat} {units : List Nat} {text : List Char}
    (h : EscapesUnits (unit :: units) text) :
    ∃ first more, text = first ++ more ∧ EscapesUnit unit first ∧ EscapesUnits units more := by
  cases h with
  | cons hunit hmore => exact ⟨_, _, rfl, hunit, hmore⟩

/-! ## Reading a character -/

theorem readEscape_unit {c : Char} {code rest : List Char}
    (h : readUnit code = .ok (c.toNat, rest)) : readEscape ('u' :: code) = .ok (c, rest) := by
  have hvalid : c.toNat < 0xD800 ∨ 0xDFFF < c.toNat ∧ c.toNat < 0x110000 := c.valid
  have hlow : isLowSurrogate c.toNat = false := by
    simp only [isLowSurrogate, Bool.and_eq_false_iff, decide_eq_false_iff_not]
    omega
  have hhigh : isHighSurrogate c.toNat = false := by
    simp only [isHighSurrogate, Bool.and_eq_false_iff, decide_eq_false_iff_not]
    omega
  simp only [readEscape, if_true, h, hlow, hhigh, Bool.false_eq_true, if_false, Char.ofNat_toNat]

/-- The two halves of a pair are put together. -/
theorem readEscape_pair {c : Char} {code code' rest : List Char} (hc : 0x10000 ≤ c.toNat)
    (hhigh : readUnit code =
      .ok (0xD800 + (c.toNat - 0x10000) / 0x400, '\\' :: 'u' :: code'))
    (hlow : readUnit code' = .ok (0xDC00 + (c.toNat - 0x10000) % 0x400, rest)) :
    readEscape ('u' :: code) = .ok (c, rest) := by
  have hvalid : c.toNat < 0xD800 ∨ 0xDFFF < c.toNat ∧ c.toNat < 0x110000 := c.valid
  have hnotLow : isLowSurrogate (0xD800 + (c.toNat - 0x10000) / 0x400) = false := by
    simp only [isLowSurrogate, Bool.and_eq_false_iff, decide_eq_false_iff_not]
    omega
  have hisHigh : isHighSurrogate (0xD800 + (c.toNat - 0x10000) / 0x400) = true := by
    simp only [isHighSurrogate, Bool.and_eq_true, decide_eq_true_eq]
    omega
  have hisLow : isLowSurrogate (0xDC00 + (c.toNat - 0x10000) % 0x400) = true := by
    simp only [isLowSurrogate, Bool.and_eq_true, decide_eq_true_eq]
    omega
  have hpair : ofSurrogates (0xD800 + (c.toNat - 0x10000) / 0x400)
      (0xDC00 + (c.toNat - 0x10000) % 0x400) = c := by
    rw [ofSurrogates, show 0x10000 + (0xD800 + (c.toNat - 0x10000) / 0x400 - 0xD800) * 0x400 +
      (0xDC00 + (c.toNat - 0x10000) % 0x400 - 0xDC00) = c.toNat by omega, Char.ofNat_toNat]
  simp only [readEscape, if_true, hhigh, hnotLow, Bool.false_eq_true, if_false, hisHigh,
    readLowSurrogate, and_self, hlow, hisLow, hpair]

theorem readQuoted_of_escape {s rest : List Char} {c : Char} (h : readEscape s = .ok (c, rest)) :
    readQuoted ('\\' :: s) = (readQuoted rest).map fun read => (c :: read.1, read.2) := by
  rw [readQuoted, if_neg (by decide), if_pos rfl]
  split <;> simp_all

/-- However a character is spelled, it is read. -/
theorem readQuoted_spellsChar {c : Char} {text : List Char} (h : SpellsChar c text)
    (rest : List Char) :
    readQuoted (text ++ rest) = (readQuoted rest).map fun read => (c :: read.1, read.2) := by
  cases h with
  | plain hplain =>
    rw [List.singleton_append, readQuoted, if_neg hplain.ne_quote, if_neg hplain.ne_backslash,
      if_neg (Nat.not_lt.2 hplain.printable)]
  | letter hletter =>
    obtain ⟨hletter, hunit, _⟩ := of_mem_escapeLetters hletter
    refine readQuoted_of_escape ?_
    show readEscape (_ :: rest) = _
    rw [readEscape, if_neg hunit, hletter]
  | units hunits =>
    by_cases hc : c.toNat < 0x10000
    · rw [utf16Units, if_pos hc] at hunits
      obtain ⟨_, _, rfl, hunit, hnone⟩ := hunits.of_cons
      cases hnone
      obtain ⟨code, rfl, hread⟩ := hunit.readUnit
      rw [List.append_nil]
      exact readQuoted_of_escape (readEscape_unit (hread rest))
    · rw [utf16Units, if_neg hc] at hunits
      obtain ⟨_, _, rfl, hhigh, hmore⟩ := hunits.of_cons
      obtain ⟨_, _, rfl, hlow, hnone⟩ := hmore.of_cons
      cases hnone
      obtain ⟨code, rfl, hread⟩ := hhigh.readUnit
      obtain ⟨code', rfl, hread'⟩ := hlow.readUnit
      rw [List.append_nil, List.append_assoc]
      exact readQuoted_of_escape (readEscape_pair (Nat.not_lt.1 hc) (hread _) (hread' rest))

/-- However a text is spelled, it is read up to the closing quote. -/
theorem readQuoted_spellsText {chars text : List Char} (h : SpellsText chars text)
    (rest : List Char) : readQuoted (text ++ '"' :: rest) = .ok (chars, rest) := by
  induction h with
  | nil => simp [readQuoted]
  | cons hc _ ih =>
    rw [List.append_assoc, readQuoted_spellsChar hc, ih]
    rfl

/-! ## Passing over -/

theorem skipQuoted_of_escape {s rest : List Char} (h : skipEscape s = .ok rest) :
    skipQuoted ('\\' :: s) = skipQuoted rest := by
  rw [skipQuoted, if_neg (by decide), if_pos rfl]
  split <;> simp_all

theorem skipQuoted_body {text : List Char} (h : IsBody text) (rest : List Char) :
    skipQuoted (text ++ '"' :: rest) = .ok rest := by
  induction h with
  | nil => simp [skipQuoted]
  | plain hc _ ih =>
    rw [List.cons_append, skipQuoted, if_neg hc.ne_quote, if_neg hc.ne_backslash,
      if_neg (Nat.not_lt.2 hc.printable), ih]
  | @letter c letter more hletter _ ih =>
    obtain ⟨hletter, hunit, _⟩ := of_mem_escapeLetters hletter
    have hskip : skipEscape (letter :: (more ++ '"' :: rest)) = .ok (more ++ '"' :: rest) := by
      rw [skipEscape, if_neg hunit, hletter]
      rfl
    exact (skipQuoted_of_escape hskip).trans ih
  | @unit unit first more hunit _ ih =>
    obtain ⟨code, rfl, hread⟩ := hunit.readUnit
    have hskip : skipEscape ('u' :: (code ++ (more ++ '"' :: rest))) = .ok (more ++ '"' :: rest) := by
      rw [skipEscape, if_pos rfl, hread]
      rfl
    rw [List.append_assoc]
    exact (skipQuoted_of_escape hskip).trans ih

theorem EscapesUnits.isBody_append {units : List Nat} {text more : List Char}
    (h : EscapesUnits units text) (hmore : IsBody more) : IsBody (text ++ more) := by
  induction h with
  | nil => exact hmore
  | cons hunit _ ih =>
    rw [List.append_assoc]
    exact .unit hunit ih

theorem SpellsText.isBody {chars text : List Char} (h : SpellsText chars text) : IsBody text := by
  induction h with
  | nil => exact .nil
  | cons hc _ ih =>
    cases hc with
    | plain hplain => exact .plain hplain ih
    | letter hletter => exact .letter hletter ih
    | units hunits => exact hunits.isBody_append ih

theorem IsBody.printable {text : List Char} (h : IsBody text) : Printable text := by
  induction h with
  | nil => exact .nil
  | plain hc _ ih => exact .cons hc.printable ih
  | letter hletter _ ih => exact .cons (by decide) (.cons (of_mem_escapeLetters hletter).2.2 ih)
  | unit hunit _ ih =>
    obtain ⟨ha, hb, hc, hd⟩ := hunit
    refine .append ?_ ih
    exact .cons (by decide) <| .cons (by decide) <| .cons ha.printable <| .cons hb.printable <|
      .cons hc.printable <| .cons hd.printable .nil

/-! ## Writing -/

/-- A control character is its only unit, below 256. -/
theorem escapesUnits_of_lt {c : Char} (h : c.toNat < 0x20) :
    EscapesUnits (utf16Units c)
      ['\\', 'u', '0', '0', Nat.digitChar (c.toNat / 16), Nat.digitChar (c.toNat % 16)] := by
  have hzero : IsHexDigit 0 '0' := by decide
  have hunit : EscapesUnit c.toNat
      ['\\', 'u', '0', '0', Nat.digitChar (c.toNat / 16), Nat.digitChar (c.toNat % 16)] := by
    refine .mk ?_ ?_ ?_ ?_
    · rwa [show c.toNat / 4096 = 0 by omega]
    · rwa [show c.toNat / 256 % 16 = 0 by omega]
    · rw [show c.toNat / 16 % 16 = c.toNat / 16 by omega]
      exact ⟨by omega, .inl rfl⟩
    · exact ⟨by omega, .inl rfl⟩
  rw [utf16Units, if_pos (by omega)]
  exact .cons hunit .nil

/-- A character is written in one of the ways to spell it. -/
theorem spellsChar_escape (c : Char) : SpellsChar c (escape c) := by
  unfold escape
  split_ifs with hquote hbackslash _ _ _ _ _ hcontrol
  rotate_right 2
  · exact .units (escapesUnits_of_lt hcontrol)
  · exact .plain ⟨by omega, hquote, hbackslash⟩
  -- the characters that have a letter of their own
  all_goals
    subst c
    exact .letter (by decide)

example : ['\n', '\x1b', '/'].map escape =
    [['\\', 'n'], ['\\', 'u', '0', '0', '1', 'b'], ['/']] := by
  decide

theorem spellsText_escape (text : List Char) : SpellsText text (text.flatMap escape) := by
  induction text with
  | nil => exact .nil
  | cons c text ih => exact .cons (spellsChar_escape c) ih

theorem spellsQuoted_quoted (text : List Char) : SpellsQuoted text (quoted text) :=
  .mk (spellsText_escape text)

theorem printable_quoted (text : List Char) : Printable (quoted text) :=
  .append (.cons (by decide) (spellsText_escape text).isBody.printable) (.cons (by decide) .nil)

theorem quoted_append (text rest : List Char) :
    quoted text ++ rest = '"' :: (text.flatMap escape ++ '"' :: rest) := by
  simp [quoted]

/-- What is written up to the closing quote is read as it was. -/
theorem readQuoted_quoted (text rest : List Char) :
    readQuoted (text.flatMap escape ++ '"' :: rest) = .ok (text, rest) :=
  readQuoted_spellsText (spellsText_escape text) rest

end Lexis.Json
