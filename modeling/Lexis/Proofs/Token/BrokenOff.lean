import Lexis.Proofs.Json.BrokenOff
import Lexis.Proofs.Token.Json
import Lexis.Proofs.Token.Lasting

/-!
# Tokens that break off

Wherever the JSON text of a token breaks off, the reader finds that it ends too early
(`Token.read_cut`). The beginning of a row of members breaks off within one of them or behind one,
so this goes by the fields that are still to come (`Token.readMembers_cut`), as it does for whole
spellings. A name or a text that breaks off is found to be cut off itself; a line that breaks off is
read as a smaller line, and what is cut off is then the object around it (`Token.readValue_cut`).

A record may break off behind the minus of its fingerprint, which is no number then, so for records
another argument is needed: were the beginning of one read, then more of the record would be
allowed behind it (`Token.ofJson_append`), but only blanks are, and a record ends with a brace.
-/

set_option autoImplicit false

namespace Lexis

open Json

namespace Token

/-- The text that is written for the value of a field. -/
def Field.written (token : Token) : Field → List Char
  | kind => token.kind.jsonText
  | lexeme => quoted token.lexeme.toList
  | line => natural token.line

theorem Field.spells_written (token : Token) (field : Field) :
    field.Spells token (field.written token) := by
  cases field with
  | kind => exact .name (spellsQuoted_quoted _)
  | lexeme => exact spellsQuoted_quoted _
  | line => rfl

/-! ## Values -/

section
variable {part : List Char}

theorem readKind_cut {kind : Kind} (h : StopsShort part kind.jsonText) :
    Kind.read part = .error .truncated := by
  obtain rfl | ⟨rest, rfl, hread⟩ := (spellsQuoted_quoted _).cut h
  · rfl
  · rw [Kind.read, skipBlanks_cons (by decide)]
    show Kind.readName rest = _
    rw [Kind.readName, hread]

theorem readLexeme_cut {lexeme : String} (h : StopsShort part (quoted lexeme.toList)) :
    readLexeme part = .error .truncated := by
  obtain rfl | ⟨rest, rfl, hread⟩ := (spellsQuoted_quoted _).cut h
  · rfl
  · rw [readLexeme, skipBlanks_cons (by decide)]
    show (readQuoted rest).map _ = _
    rw [hread]
    rfl

/-- A line that breaks off is the line that the digits write. -/
theorem readLine_cut {line : Nat} (hline : line ≤ maxNatural) (h : StopsShort part (natural line)) :
    readLine part = .error .truncated ∨ ∃ less, readLine part = .ok (less, []) := by
  obtain rfl | ⟨less, hless, rfl⟩ := eq_natural_of_stopsShort h
  · exact .inl rfl
  · have hends : EndsNumeral [] := nofun
    have hread := readLine_natural (Nat.le_trans hless hline) hends
    rw [List.append_nil] at hread
    exact .inr ⟨less, hread⟩

end

/-! ## Members -/

section
variable {members : Members}

theorem readMembers_name {name : String} (hnew : members.has name = false) (s : List Char) :
    readMembers true members (quoted name.toList ++ s) =
      ((expectColon s).bind (members.readValue name)).bind fun read =>
        readMembers false read.1 read.2 := by
  rw [quoted_append, readMembers_first (skipBlanks_cons (by decide) _), Members.readMember,
    readQuoted_quoted]
  simp only [String.ofList_toList, hnew, Bool.false_eq_true, if_false]
  cases expectColon s <;> rfl

/-- Behind a comma there is a member to come. -/
theorem readMembers_comma_blank {s rest : List Char} (hcomma : skipBlanks s = ',' :: rest)
    (h : skipBlanks rest = []) : readMembers false members s = .error .truncated := by
  rw [readMembers]
  split
  · rfl
  · rename_i hskip
    cases hcomma.symm.trans hskip
    rw [if_neg (by decide), if_neg (by decide), if_pos rfl]
    split <;> simp_all

end

/-- The members of some fields, in a row up to the closing brace. -/
def fieldsBody (token : Token) (fields : List Field) : List Char :=
  objectBody (fields.map fun field => (field.name, field.written token))

section
variable (token : Token) (field next : Field) (fields : List Field)

theorem fieldsBody_singleton :
    fieldsBody token [field] = member field.name (field.written token) ++ ['}'] :=
  objectBody_singleton _

theorem fieldsBody_cons_cons :
    fieldsBody token (field :: next :: fields) =
      member field.name (field.written token) ++ ',' :: fieldsBody token (next :: fields) :=
  objectBody_cons_cons _ _ _

theorem fieldsBody_begins : ∃ s, fieldsBody token (field :: fields) = '"' :: s := by
  cases fields with
  | nil => exact ⟨_, (fieldsBody_singleton token field).trans (member_append _ _ _)⟩
  | cons next fields =>
    exact ⟨_, (fieldsBody_cons_cons token field next fields).trans (member_append _ _ _)⟩

theorem jsonText_eq_fieldsBody : token.jsonText = '{' :: fieldsBody token [.kind, .lexeme, .line] :=
  rfl

end

/-! ## Objects that break off -/

section
variable {token : Token} (hline : token.line ≤ maxNatural) {part : List Char}
include hline

/-- Behind a value that breaks off nothing is left to be read. -/
theorem readValue_cut (members : Members) (field : Field)
    (h : StopsShort part (field.written token)) :
    members.readValue field.name part = .error .truncated ∨
      ∃ read, members.readValue field.name part = .ok (read, []) := by
  cases field with
  | kind => exact .inl (by simp [Members.readValue, Field.name, readKind_cut h, Except.map])
  | lexeme => exact .inl (by simp [Members.readValue, Field.name, readLexeme_cut h, Except.map])
  | line =>
    rcases readLine_cut hline h with hread | ⟨less, hread⟩
    · exact .inl (by simp [Members.readValue, Field.name, hread, Except.map])
    · refine .inr ⟨{ members with line := some less }, ?_⟩
      simp [Members.readValue, Field.name, hread, Except.map]

/-- A member breaks off within its name, before its value or within it. -/
theorem readMembers_cut_member {members : Members} {field : Field}
    (hnew : members.has field.name = false)
    (h : StopsShort part (member field.name (field.written token))) :
    readMembers true members part = .error .truncated := by
  rcases h.append_cases with hname | ⟨rest, rfl, hrest⟩
  · obtain rfl | ⟨rest, rfl, hread⟩ := (spellsQuoted_quoted _).cut hname
    · exact readMembers_blank rfl
    · rw [readMembers_first (skipBlanks_cons (by decide) rest), Members.readMember, hread]
      rfl
  · rw [readMembers_name hnew]
    cases hrest with
    | nil => rfl
    | cons hvalue =>
      rw [expectColon_colon]
      rcases readValue_cut hline members field hvalue with hread | ⟨read, hread⟩
      · exact congrArg (Except.bind · _) hread
      · exact (congrArg (Except.bind · _) hread).trans (readMembers_blank rfl)

section
variable {fields : List Field} {field : Field} (hnew : field ∉ fields)
include hnew

theorem readMembers_written {rest : List Char} (hrest : EndsNumeral rest) :
    readMembers true (Members.without token (field :: fields))
        (member field.name (field.written token) ++ rest) =
      readMembers false (Members.without token fields) rest := by
  have hread := readValue_spells hnew (field.spells_written token) (fun _ => hline) .nil hrest
  rw [member, List.append_assoc, List.cons_append, readMembers_name (has_without_cons field),
    expectColon_colon]
  exact congrArg (Except.bind · _) hread

/-- A row breaks off within its first member or behind it. -/
theorem readMembers_cut_first {c : Char} {more : List Char}
    (h : StopsShort part (member field.name (field.written token) ++ c :: more)) :
    readMembers true (Members.without token (field :: fields)) part = .error .truncated ∨
      ∃ rest, part = member field.name (field.written token) ++ c :: rest ∧
        StopsShort rest more := by
  rcases h.append_cases with hmember | ⟨rest, rfl, hrest⟩
  · exact .inl (readMembers_cut_member hline (has_without_cons field) hmember)
  · cases hrest with
    | nil =>
      have hends : EndsNumeral [] := nofun
      exact .inl ((readMembers_written hline hnew hends).trans (readMembers_blank rfl))
    | cons hrest => exact .inr ⟨_, rfl, hrest⟩

end

/-- Members in a row break off within one of them or between two. -/
theorem readMembers_cut {fields : List Field} (hnodup : fields.Nodup) (hne : fields ≠ [])
    (h : StopsShort part (fieldsBody token fields)) :
    readMembers true (Members.without token fields) part = .error .truncated := by
  induction fields generalizing part with
  | nil => exact absurd rfl hne
  | cons field fields ih =>
    obtain ⟨hnew, hfields⟩ := List.nodup_cons.1 hnodup
    cases fields with
    | nil =>
      rw [fieldsBody_singleton] at h
      rcases readMembers_cut_first hline hnew h with hcut | ⟨rest, _, hrest⟩
      · exact hcut
      · cases hrest
    | cons next fields =>
      rw [fieldsBody_cons_cons] at h
      rcases readMembers_cut_first hline hnew h with hcut | ⟨rest, rfl, hrest⟩
      · exact hcut
      · -- the first member has been read, so it is up to the fields behind the comma
        have ih := ih hfields (List.cons_ne_nil _ _) hrest
        rw [readMembers_written hline hnew (endsNumeral_comma rest)]
        obtain ⟨_, hbegins⟩ := fieldsBody_begins token next fields
        rw [hbegins] at hrest
        cases hrest with
        | nil => exact readMembers_comma_blank (skipBlanks_cons (by decide) _) rfl
        | cons =>
          rw [readMembers_comma (skipBlanks_cons (by decide) _) (skipBlanks_cons (by decide) _)]
          exact ih

theorem read_cut (h : StopsShort part token.jsonText) : Token.read part = .error .truncated := by
  rw [jsonText_eq_fieldsBody] at h
  cases h with
  | nil => rfl
  | cons h =>
    obtain ⟨hnodup, hall⟩ := nodup_of_perm (List.Perm.refl [Field.kind, .lexeme, .line])
    have hcut := readMembers_cut hline hnodup (List.cons_ne_nil _ _) h
    rw [without_all hall] at hcut
    rw [Token.read, skipBlanks_cons (by decide)]
    exact hcut

end

/-! ## Texts -/

section
variable {token : Token} (hline : token.line ≤ maxNatural) {before after : String}
include hline

theorem ofJson_cut (h : before ++ after = token.toJson) (hafter : after ≠ "") :
    Token.ofJson before = .error .truncated := by
  have htext : before.toList ++ after.toList = token.jsonText := by
    rw [← String.toList_append, h, toList_toJson]
  have hcut := stopsShort_append before.toList (mt String.toList_eq_nil_iff.1 hafter)
  rw [htext] at hcut
  rw [Token.ofJson, readText, read_cut hline hcut]

theorem ofJson_cut_record (h : before ++ after = token.toRecord) (hafter : after ≠ "") :
    ∃ fault, Token.ofJson before = .error fault := by
  cases hbefore : Token.ofJson before with
  | error fault => exact ⟨fault, rfl⟩
  | ok other =>
    have hmissing : after.toList <:+ token.recordText :=
      ⟨before.toList, by rw [← String.toList_append, h]; exact String.toList_ofList⟩
    have hclosing := closing_mem_of_suffix (mt String.toList_eq_nil_iff.1 hafter) hmissing
    have hgap : ¬Gap after.toList := fun hgap => absurd (hgap _ hclosing) (by decide)
    -- behind what has been read, the rest of the record is a fault
    have hwhole := ofJson_append hbefore after
    rw [if_neg hgap, h] at hwhole
    have hrecord := token.ofJson_recordText hline Gap.nil
    rw [List.append_nil] at hrecord
    cases hwhole.symm.trans hrecord

end

/-- Behind the JSON text of a token nothing but blanks is let pass. -/
theorem ofJson_overlong {token : Token} (hline : token.line < 2 ^ 64) {more : String}
    (hmore : ¬Gap more.toList) : Token.ofJson (token.toJson ++ more) = .error .malformed := by
  rw [ofJson_append (ofJson_of_padded hline (.refl _)), if_neg hmore]

/-- Where the JSON text of a token breaks off, it is found to end too early, and of a record that
breaks off nothing is read. Anything but blanks behind the whole text is a fault. So the text of a
token begins no other one's. -/
theorem ofJson_of_cut_or_overlong {token : Token} (hline : token.line < 2 ^ 64) :
    (∀ before after : String, before ++ after = token.toJson → after ≠ "" →
      Token.ofJson before = .error .truncated) ∧
    (∀ before after : String, before ++ after = token.toRecord → after ≠ "" →
      ∃ fault, Token.ofJson before = .error fault) ∧
    (∀ more : String, (∃ c ∈ more.toList, c ≠ ' ' ∧ c ≠ '\t' ∧ c ≠ '\n' ∧ c ≠ '\r') →
      Token.ofJson (token.toJson ++ more) = .error .malformed) ∧
    ∀ (other : Token) (more : String), other.line < 2 ^ 64 →
      token.toJson ++ more = other.toJson → more = "" ∧ token = other := by
  have hmax : maxNatural + 1 = 2 ^ 64 := by decide
  refine ⟨fun _ _ => ofJson_cut (by omega), fun _ _ => ofJson_cut_record (by omega), ?_, ?_⟩
  · rintro more ⟨c, hc, hblank⟩
    refine ofJson_overlong hline fun hgap => ?_
    have hcases := isBlank_iff.1 (hgap c hc)
    simp only [hblank, or_self] at hcases
  · intro other more hother hsame
    have hread : Token.ofJson token.toJson = .ok token := ofJson_of_padded hline (.refl _)
    by_cases hmore : more = ""
    · subst hmore
      rw [String.append_empty] at hsame
      rw [hsame, ofJson_of_padded hother (.refl _)] at hread
      exact ⟨rfl, (Except.ok.inj hread).symm⟩
    · rw [ofJson_cut (by omega) hsame hmore] at hread
      cases hread

/-- The text breaks off within an escape and within the line, the record behind the minus of its
fingerprint; a brace follows behind a blank; and one line begins another one. -/
theorem ofJson_of_cut_escape :
    18446744073709551615 < 2 ^ 64 ∧
    Token.ofJson "\x7b\"kind\":\"Error\",\"lexeme\":\"abc\\u00" = .error .truncated ∧
    Token.ofJson "\x7b\"kind\":\"Error\",\"lexeme\":\"abc\\u0007def\",\"line\":1844" =
      .error .truncated ∧
    (∃ fault, Token.ofJson ("\x7b\"kind\":\"Error\",\"lexeme\":\"abc\\u0007def\"," ++
      "\"line\":18446744073709551615,\"fingerprint\":-") = .error fault) ∧
    Token.ofJson (Token.toJson ⟨.error, "abc\x07def", 18446744073709551615⟩ ++ " \x7d") =
      .error .malformed ∧
    ∀ more : String, Token.toJson ⟨.eof, "EOF", 1⟩ ++ more ≠ Token.toJson ⟨.eof, "EOF", 10⟩ := by
  have hline : (18446744073709551615 : Nat) < 2 ^ 64 := by decide
  obtain ⟨hcut, hrecord, hmore, _⟩ :=
    @ofJson_of_cut_or_overlong ⟨.error, "abc\x07def", 18446744073709551615⟩ hline
  obtain ⟨_, _, _, hbegins⟩ := @ofJson_of_cut_or_overlong ⟨.eof, "EOF", 1⟩ (by decide)
  refine ⟨hline, ?_, ?_, ?_, ?_, ?_⟩
  · exact hcut _ "07def\",\"line\":18446744073709551615\x7d" (by decide +kernel) (by decide)
  · exact hcut _ "6744073709551615\x7d" (by decide +kernel) (by decide)
  · exact hrecord _ "1209062912\x7d" (by decide +kernel) (by decide)
  · exact hmore _ ⟨'\x7d', by decide⟩
  · intro more hsame
    obtain ⟨_, htoken⟩ := hbegins _ more (by decide) hsame
    cases htoken

end Token

end Lexis
