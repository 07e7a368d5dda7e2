import Lexis.Token.Json
import Lexis.Proofs.Json.Object
import Lexis.Proofs.Token.Spelling

/-!
# Tokens and records, written and read

The JSON text of a token is one of its spellings (`Token.spellsToken_jsonText`), and so is its
record, in which the fingerprint is a member that is passed over (`Token.spellsToken_recordText`).
So the token is read from either of them as it was, as long as its line is below 2^64
(`Token.ofJson_toJson`, `Token.ofJson_recordText`).

Both are objects with the members that were written (`Token.readObject_jsonText`,
`Token.readObject_recordText`), without a control character in them.
-/

set_option autoImplicit false

namespace Lexis

open Json

namespace Token

/-! ## What is written is a spelling -/

/-- A member that is written for a field. -/
theorem spellsMember_field {token : Token} {field : Field} {value : List Char}
    (h : field.Spells token value) :
    SpellsMember token (some field) (member field.name value) :=
  .field (spellsQuoted_quoted _) (.refl _) h (.refl _)

theorem jsonText_eq (token : Token) :
    token.jsonText = '{' :: (member "kind" token.kind.jsonText ++
      ',' :: (member "lexeme" (quoted token.lexeme.toList) ++
        ',' :: member "line" (natural token.line)) ++ ['}']) := by
  simp [jsonText, object, jsonMembers, List.intercalate_cons_cons]

theorem recordText_eq (token : Token) :
    token.recordText = '{' :: (member "kind" token.kind.jsonText ++
      ',' :: (member "lexeme" (quoted token.lexeme.toList) ++
        ',' :: (member "line" (natural token.line) ++
          ',' :: member "fingerprint" (integer token.fingerprint.toInt))) ++ ['}']) := by
  simp [recordText, object, jsonMembers, List.intercalate_cons_cons]

section
variable (token : Token)

theorem spellsMember_kind :
    SpellsMember token (some .kind) (member "kind" token.kind.jsonText) :=
  spellsMember_field (.name (spellsQuoted_quoted _))

theorem spellsMember_lexeme :
    SpellsMember token (some .lexeme) (member "lexeme" (quoted token.lexeme.toList)) :=
  spellsMember_field (spellsQuoted_quoted _)

theorem spellsMember_line :
    SpellsMember token (some .line) (member "line" (natural token.line)) :=
  spellsMember_field rfl

/-- The fingerprint is no field of a token. -/
theorem spellsMember_fingerprint :
    SpellsMember token none (member "fingerprint" (integer token.fingerprint.toInt)) := by
  have hother : ∀ field : Field, "fingerprint".toList ≠ field.name.toList := by
    intro field
    cases field <;> decide
  exact .other hother (spellsQuoted_quoted _) (.refl _) (conforms_integer _) (.refl _)

theorem spellsToken_jsonText : SpellsToken token token.jsonText := by
  rw [jsonText_eq]
  refine .object (.next (spellsMember_kind token) ?_) (.refl _)
  exact .next (spellsMember_lexeme token) (.last (spellsMember_line token))

theorem spellsToken_recordText : SpellsToken token token.recordText := by
  rw [recordText_eq]
  refine .object (.next (spellsMember_kind token) ?_) (.refl _)
  refine .next (spellsMember_lexeme token) (.next (spellsMember_line token) ?_)
  exact .last (spellsMember_fingerprint token)

end

/-- Blanks behind the record, such as the end of its line, make no difference. -/
theorem ofJson_recordText (token : Token) (hline : token.line ≤ maxNatural) {blanks : List Char}
    (hblanks : Gap blanks) :
    Token.ofJson (.ofList (token.recordText ++ blanks)) = .ok token := by
  refine ofJson_padded token.spellsToken_recordText ?_ hline
  rw [String.toList_ofList]
  exact .mk .nil hblanks

/-! ## What is written is an object -/

theorem isValue_of_mem_jsonMembers {token : Token} {m : String × List Char}
    (h : m ∈ token.jsonMembers) : IsValue m.2 ∧ Printable m.2 := by
  simp only [jsonMembers, List.mem_cons, List.not_mem_nil, or_false] at h
  rcases h with rfl | rfl | rfl
  · exact ⟨.quoted _, printable_quoted _⟩
  · exact ⟨.quoted _, printable_quoted _⟩
  · exact ⟨.natural _, printable_natural _⟩

theorem isValue_of_mem_record {token : Token} {m : String × List Char}
    (h : m ∈ token.jsonMembers ++ [("fingerprint", integer token.fingerprint.toInt)]) :
    IsValue m.2 ∧ Printable m.2 := by
  rcases List.mem_append.1 h with h | h
  · exact isValue_of_mem_jsonMembers h
  · rw [List.mem_singleton.1 h]
    exact ⟨.integer _, printable_integer _⟩

theorem readObject_jsonText (token : Token) : readObject token.jsonText = some token.jsonMembers :=
  readObject_object (List.cons_ne_nil _ _) fun _ h => (isValue_of_mem_jsonMembers h).1

theorem printable_jsonText (token : Token) : Printable token.jsonText :=
  printable_object fun _ h => (isValue_of_mem_jsonMembers h).2

/-- A record has the members of its token, and the fingerprint. -/
theorem readObject_recordText (token : Token) :
    readObject token.recordText =
      some (token.jsonMembers ++ [("fingerprint", integer token.fingerprint.toInt)]) :=
  readObject_object (by simp) fun _ h => (isValue_of_mem_record h).1

theorem printable_recordText (token : Token) : Printable token.recordText :=
  printable_object fun _ h => (isValue_of_mem_record h).2

/-! ## There and back -/

theorem toList_toJson (token : Token) : token.toJson.toList = token.jsonText :=
  String.toList_ofList

/-- The JSON text of a token, with blanks around it or without. -/
theorem ofJson_of_padded {token : Token} (hline : token.line < 2 ^ 64) {text : String}
    (hpadded : Padded token.toJson.toList text.toList) : Token.ofJson text = .ok token := by
  have hmax : maxNatural + 1 = 2 ^ 64 := by decide
  rw [toList_toJson] at hpadded
  exact ofJson_padded token.spellsToken_jsonText hpadded (by omega)

/-- A token whose line is below 2^64 is read from its JSON text as it was, whatever blanks stand
around the text. The text is an object with the three fields and without control characters, and no
other token has the same. -/
theorem ofJson_toJson {token : Token} (hline : token.line < 2 ^ 64) :
    Token.ofJson token.toJson = .ok token ∧
    (∀ before after : String, Gap before.toList → Gap after.toList →
      Token.ofJson (before ++ token.toJson ++ after) = .ok token) ∧
    readObject token.toJson.toList =
      some [("kind", quoted token.kind.name.toList), ("lexeme", quoted token.lexeme.toList),
        ("line", natural token.line)] ∧
    Printable token.toJson.toList ∧
    ∀ other : Token, other.line < 2 ^ 64 → (token.toJson = other.toJson ↔ token = other) := by
  refine ⟨ofJson_of_padded hline (.refl _), ?_, ?_, ?_, ?_⟩
  · intro before after hbefore hafter
    refine ofJson_of_padded hline ?_
    rw [String.toList_append, String.toList_append, List.append_assoc]
    exact .mk hbefore hafter
  · rw [toList_toJson]
    exact readObject_jsonText token
  · rw [toList_toJson]
    exact printable_jsonText token
  · intro other hother
    refine ⟨fun hsame => ?_, fun hsame => hsame ▸ rfl⟩
    have hread := ofJson_of_padded hline (.refl _)
    rw [hsame, ofJson_of_padded hother (.refl _)] at hread
    exact (Except.ok.inj hread).symm

/-- The last line there is, and a lexeme of characters that are escaped and of some that are not. -/
theorem ofJson_toJson_of_last_line :
    18446744073709551615 < 2 ^ 64 ∧
      Token.ofJson (Token.toJson ⟨.literal .string, "\"\\/\n\x1b\x7f😀", 18446744073709551615⟩) =
        .ok ⟨.literal .string, "\"\\/\n\x1b\x7f😀", 18446744073709551615⟩ := by
  have hline : 18446744073709551615 < 2 ^ 64 := by decide
  exact ⟨hline, (ofJson_toJson hline).1⟩

end Token

end Lexis
