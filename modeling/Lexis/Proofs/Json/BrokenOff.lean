import Lexis.Proofs.Json.Numeral

/-!
# Texts that break off

A text may break off anywhere, within an escape or between the halves of a pair too. What stands
between quotes is found to be cut off wherever it breaks off before the closing quote, however it is
spelled (`SpellsText.cut`). The beginning of a number is itself a number
(`eq_natural_of_stopsShort`), so there it is up to what should follow. Of an object that breaks off
the closing brace is missing, at least (`closing_mem_of_suffix`).
-/

set_option autoImplicit false

namespace Lexis.Json

/-- The part is a text without its end. -/
inductive StopsShort : List Char → List Char → Prop
  | nil {c : Char} {text : List Char} : StopsShort [] (c :: text)
  | cons {c : Char} {part text : List Char} (h : StopsShort part text) :
    StopsShort (c :: part) (c :: text)

theorem stopsShort_append (part : List Char) {rest : List Char} (hrest : rest ≠ []) :
    StopsShort part (part ++ rest) := by
  induction part with
  | nil =>
    cases rest with
    | nil => exact absurd rfl hrest
    | cons => exact .nil
  | cons c part ih => exact .cons ih

/-- A text in two parts breaks off within the first one or within the second one. -/
theorem StopsShort.append_cases {part first more : List Char}
    (h : StopsShort part (first ++ more)) :
    StopsShort part first ∨ ∃ rest, part = first ++ rest ∧ StopsShort rest more := by
  induction first generalizing part with
  | nil => exact .inr ⟨part, rfl, h⟩
  | cons c first ih =>
    cases h with
    | nil => exact .inl .nil
    | cons h =>
      rcases ih h with hfirst | ⟨rest, rfl, hrest⟩
      · exact .inl (.cons hfirst)
      · exact .inr ⟨rest, rfl, hrest⟩

/-! ## Between quotes -/

theorem IsHexDigit.utf8Size {value : Nat} {c : Char} (h : IsHexDigit value c) : c.utf8Size = 1 := by
  have hall : ∀ m < 16,
      (Nat.digitChar m).utf8Size = 1 ∧ (Nat.digitChar m).toUpper.utf8Size = 1 := by decide
  obtain ⟨hvalue, rfl | rfl⟩ := h
  · exact (hall value hvalue).1
  · exact (hall value hvalue).2

/-- An escape breaks off before the last of its four digits. -/
theorem EscapesUnit.cut {unit : Nat} {text part : List Char} (h : EscapesUnit unit text)
    (hpart : StopsShort part text) :
    part = [] ∨ part = ['\\'] ∨
      ∃ code, part = '\\' :: 'u' :: code ∧ Json.readUnit code = .error .truncated := by
  obtain ⟨ha, hb, hc, _⟩ := h
  cases hpart with
  | nil => exact .inl rfl
  | cons hpart =>
    cases hpart with
    | nil => exact .inr (.inl rfl)
    | cons hpart =>
      refine .inr (.inr ⟨_, rfl, ?_⟩)
      cases hpart with
      | nil => rfl
      | cons hpart =>
        cases hpart with
        | nil => simp [Json.readUnit, byteSize, ha.utf8Size]
        | cons hpart =>
          cases hpart with
          | nil => simp [Json.readUnit, byteSize, ha.utf8Size, hb.utf8Size]
          | cons hpart =>
            cases hpart with
            | nil => simp [Json.readUnit, byteSize, ha.utf8Size, hb.utf8Size, hc.utf8Size]
            | cons hpart => cases hpart

theorem readQuoted_of_escape_error {s : List Char} {fault : Fault}
    (h : readEscape s = .error fault) : readQuoted ('\\' :: s) = .error fault := by
  rw [readQuoted, if_neg (by decide), if_pos rfl]
  split <;> simp_all

/-- The first of several units breaks off. -/
theorem readQuoted_cut_unit {unit : Nat} {text part : List Char} (h : EscapesUnit unit text)
    (hpart : StopsShort part text) : readQuoted part = .error .truncated := by
  obtain rfl | rfl | ⟨code, rfl, hcode⟩ := h.cut hpart
  · rw [readQuoted]
  · exact readQuoted_of_escape_error rfl
  · refine readQuoted_of_escape_error ?_
    rw [readEscape, if_pos rfl, hcode]

/-- A pair breaks off behind its first half. -/
theorem readQuoted_cut_pair {high low : Nat} (hhigh : isHighSurrogate high = true)
    {first second part : List Char} (hfirst : EscapesUnit high first)
    (hsecond : EscapesUnit low second) (hpart : StopsShort part second) :
    readQuoted (first ++ part) = .error .truncated := by
  obtain ⟨code, rfl, hread⟩ := hfirst.readUnit
  have hlow : isLowSurrogate high = false := by
    simp only [isHighSurrogate, isLowSurrogate, Bool.and_eq_true, decide_eq_true_eq,
      Bool.and_eq_false_iff, decide_eq_false_iff_not] at hhigh ⊢
    omega
  refine readQuoted_of_escape_error ?_
  have hcut : readLowSurrogate high part = .error .truncated := by
    obtain rfl | rfl | ⟨code', rfl, hcode⟩ := hsecond.cut hpart
    · rfl
    · rfl
    · rw [readLowSurrogate, if_pos ⟨rfl, rfl⟩, hcode]
  show readEscape ('u' :: (code ++ part)) = _
  simp only [readEscape, if_true, hread, hlow, Bool.false_eq_true, if_false, hhigh, hcut]

/-- A character breaks off in any of its spellings. -/
theorem SpellsChar.cut {c : Char} {text part : List Char} (h : SpellsChar c text)
    (hpart : StopsShort part text) : readQuoted part = .error .truncated := by
  cases h with
  | plain =>
    cases hpart with
    | nil => rw [readQuoted]
    | cons hpart => cases hpart
  | letter =>
    cases hpart with
    | nil => rw [readQuoted]
    | cons hpart =>
      cases hpart with
      | nil => exact readQuoted_of_escape_error rfl
      | cons hpart => cases hpart
  | units hunits =>
    by_cases hc : c.toNat < 0x10000
    · rw [utf16Units, if_pos hc] at hunits
      obtain ⟨_, _, rfl, hunit, hnone⟩ := hunits.of_cons
      cases hnone
      rw [List.append_nil] at hpart
      exact readQuoted_cut_unit hunit hpart
    · rw [utf16Units, if_neg hc] at hunits
      obtain ⟨_, _, rfl, hhigh, hmore⟩ := hunits.of_cons
      obtain ⟨_, _, rfl, hlow, hnone⟩ := hmore.of_cons
      cases hnone
      rw [List.append_nil] at hpart
      rcases hpart.append_cases with hfirst | ⟨rest, rfl, hrest⟩
      · exact readQuoted_cut_unit hhigh hfirst
      · refine readQuoted_cut_pair ?_ hhigh hlow hrest
        have hvalid : c.toNat < 0xD800 ∨ 0xDFFF < c.toNat ∧ c.toNat < 0x110000 := c.valid
        simp only [isHighSurrogate, Bool.and_eq_true, decide_eq_true_eq]
        omega

/-- A text breaks off before its closing quote. -/
theorem SpellsText.cut {chars text part : List Char} (h : SpellsText chars text)
    (hpart : StopsShort part (text ++ ['"'])) : readQuoted part = .error .truncated := by
  induction h generalizing part with
  | nil =>
    cases hpart with
    | nil => rw [readQuoted]
    | cons hpart => cases hpart
  | @cons c chars first more hc _ ih =>
    rw [List.append_assoc] at hpart
    rcases hpart.append_cases with hfirst | ⟨rest, rfl, hrest⟩
    · exact hc.cut hfirst
    · rw [readQuoted_spellsChar hc, ih hrest]
      rfl

/-- A quoted text breaks off before it begins or before its closing quote. -/
theorem SpellsQuoted.cut {chars text part : List Char} (h : SpellsQuoted chars text)
    (hpart : StopsShort part text) :
    part = [] ∨ ∃ rest, part = '"' :: rest ∧ readQuoted rest = .error .truncated := by
  obtain ⟨htext⟩ := h
  cases hpart with
  | nil => exact .inl rfl
  | cons hpart => exact .inr ⟨_, rfl, htext.cut hpart⟩

/-! ## Numbers -/

/-- Some of the digits of a number are a number, or none. -/
theorem eq_natural_of_stopsShort {n : Nat} {part : List Char} (h : StopsShort part (natural n)) :
    part = [] ∨ ∃ m ≤ n, part = natural m := by
  induction n using Nat.strongRecOn generalizing part with
  | ind n ih =>
    by_cases hn : n < 10
    · rw [natural, Nat.toDigits_of_lt_base hn] at h
      cases h with
      | nil => exact .inl rfl
      | cons h => cases h
    · -- a longer number begins with its tenth part
      have hsplit : natural n = natural (n / 10) ++ [(n % 10).digitChar] :=
        Nat.toDigits_of_base_le (by decide) (by omega)
      rw [hsplit] at h
      rcases h.append_cases with hshort | ⟨rest, rfl, hrest⟩
      · rcases ih (n / 10) (by omega) hshort with hnil | ⟨m, hm, hpart⟩
        · exact .inl hnil
        · exact .inr ⟨m, by omega, hpart⟩
      · cases hrest with
        | nil => exact .inr ⟨n / 10, by omega, List.append_nil _⟩
        | cons hrest => cases hrest

/-! ## Objects -/

/-- What is missing of an object has the closing brace. -/
theorem closing_mem_of_suffix {members : List (String × List Char)} {missing : List Char}
    (hmissing : missing ≠ []) (h : missing <:+ object members) : '}' ∈ missing := by
  rcases List.suffix_concat_iff.1 h with rfl | ⟨_, rfl, _⟩
  · exact absurd rfl hmissing
  · exact List.mem_append_right _ List.mem_cons_self

end Lexis.Json
