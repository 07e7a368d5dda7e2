import Mathlib.Algebra.Group.Nat.Defs
import Mathlib.Data.List.TakeWhile
import Lexis.Token.OfJson
import Lexis.Proofs.Json.Value

/-!
# Spellings of a token

A token may be spelled as JSON in many ways (`SpellsToken`): its three fields in any order, among
any other members, or in a list; with blanks between all parts; names and texts with any escapes;
the kind as a text or as an object. All of them are read as the token when its line fits into 64
bits, and none of them otherwise (`ofJson_of_spelling`).

What the reader has found when some fields are still to come is the token without these fields
(`Members.without`). Each member takes its field off them, or is passed over (`readMember_spells`),
so a row of members leads to the whole token, and a line that is too large to a fault
(`SpellsMembers.read`).
-/

set_option autoImplicit false

namespace Lexis

open Json

namespace Token

/-- What a token is made of. -/
inductive Field
  | kind | lexeme | line
  deriving DecidableEq

def Field.name : Field → String
  | kind => "kind"
  | lexeme => "lexeme"
  | line => "line"

/-- A kind is spelled by its name, or by an object with the name and a null. -/
inductive SpellsKind (kind : Kind) : List Char → Prop
  | name {text : List Char} (h : SpellsQuoted kind.name.toList text) : SpellsKind kind text
  | object {quoted name null : List Char} (hquoted : SpellsQuoted kind.name.toList quoted)
      (hname : Padded quoted name) (hnull : Padded ['n', 'u', 'l', 'l'] null) :
    SpellsKind kind ('{' :: (name ++ ':' :: (null ++ ['}'])))

/-- The text is a value for the field. -/
def Field.Spells (token : Token) (text : List Char) : Field → Prop
  | kind => SpellsKind token.kind text
  | lexeme => SpellsQuoted token.lexeme.toList text
  | line => text = natural token.line

/-- A member with the field of the token that it holds, if it holds one. -/
inductive SpellsMember (token : Token) : Option Field → List Char → Prop
  | field {field : Field} {quoted name text value : List Char}
      (hquoted : SpellsQuoted field.name.toList quoted) (hname : Padded quoted name)
      (htext : field.Spells token text) (hvalue : Padded text value) :
    SpellsMember token (some field) (name ++ ':' :: value)
  | other {chars quoted name text value : List Char}
      (hother : ∀ field : Field, chars ≠ field.name.toList) (hquoted : SpellsQuoted chars quoted)
      (hname : Padded quoted name) (htext : Conforms .value text) (hvalue : Padded text value) :
    SpellsMember token none (name ++ ':' :: value)

/-- Members in a row with the fields that they hold. -/
inductive SpellsMembers (token : Token) : List Field → List Char → Prop
  | last {field : Option Field} {text : List Char} (h : SpellsMember token field text) :
    SpellsMembers token field.toList text
  | next {field : Option Field} {fields : List Field} {first more : List Char}
      (hfirst : SpellsMember token field first) (hmore : SpellsMembers token fields more) :
    SpellsMembers token (field.toList ++ fields) (first ++ ',' :: more)

/-- A token is spelled by an object that holds each field once, or by the list of its fields. -/
inductive SpellsToken (token : Token) : List Char → Prop
  | object {fields : List Field} {members : List Char}
      (hmembers : SpellsMembers token fields members)
      (hfields : fields.Perm [.kind, .lexeme, .line]) :
    SpellsToken token ('{' :: (members ++ ['}']))
  | list {kind lexeme kind' lexeme' line' : List Char} (hkind : SpellsKind token.kind kind)
      (hkind' : Padded kind kind') (hlexeme : SpellsQuoted token.lexeme.toList lexeme)
      (hlexeme' : Padded lexeme lexeme') (hline' : Padded (natural token.line) line') :
    SpellsToken token ('[' :: (kind' ++ ',' :: (lexeme' ++ ',' :: (line' ++ [']']))))

/-! ## Values -/

section
variable {gap : List Char} (h : Gap gap) (s : List Char)
include h

theorem readKind_gap : Kind.read (gap ++ s) = Kind.read s := by
  rw [Kind.read, h.skipBlanks, Kind.read]

theorem readToken_gap : Token.read (gap ++ s) = Token.read s := by
  rw [Token.read, h.skipBlanks, Token.read]

theorem readLexeme_gap : readLexeme (gap ++ s) = readLexeme s := by
  rw [readLexeme, h.skipBlanks, readLexeme]

theorem readLine_gap : readLine (gap ++ s) = readLine s := by
  rw [readLine, h.skipBlanks, readLine]

end

theorem readName_spellsText {kind : Kind} {text : List Char}
    (h : SpellsText kind.name.toList text) (rest : List Char) :
    Kind.readName (text ++ '"' :: rest) = .ok (kind, rest) := by
  rw [Kind.readName, readQuoted_spellsText h]
  simp only [String.ofList_toList, Kind.ofName?_name]

theorem readNull_padded {null : List Char} (h : Padded ['n', 'u', 'l', 'l'] null)
    (rest : List Char) : ∃ gap, Gap gap ∧ readNull (null ++ rest) = .ok (gap ++ rest) := by
  obtain ⟨hbefore, hafter⟩ := h
  refine ⟨_, hafter, ?_⟩
  rw [readNull, List.append_assoc, hbefore.skipBlanks]
  exact expect_append ['u', 'l', 'l'] _

theorem expectClosing_gap {gap : List Char} (h : Gap gap) (bracket : Bracket) (rest : List Char) :
    expectClosing bracket (gap ++ bracket.closing :: rest) = .ok rest := by
  have hblank : Json.isBlank bracket.closing = false := by cases bracket <;> decide
  rw [expectClosing, h.skipBlanks_cons hblank]
  exact if_pos rfl

theorem SpellsKind.read {kind : Kind} {text : List Char} (h : SpellsKind kind text)
    (rest : List Char) : Kind.read (text ++ rest) = .ok (kind, rest) := by
  cases h with
  | name hquoted =>
    obtain ⟨htext⟩ := hquoted
    have hread := readName_spellsText htext rest
    rw [Kind.read, List.cons_append, List.append_assoc, skipBlanks_cons (by decide)]
    exact hread
  | object hquoted hname hnull =>
    obtain ⟨hbefore, hafter⟩ := hname
    obtain ⟨htext⟩ := hquoted
    obtain ⟨gap, hgap, hnull⟩ := readNull_padded hnull ('}' :: rest)
    have hread := readName_spellsText htext
    have hclosing := expectClosing_gap hgap .object rest
    simp only [List.append_assoc, List.cons_append, List.nil_append]
    rw [Kind.read, skipBlanks_cons (by decide)]
    show Kind.readObject _ = _
    rw [Kind.readObject, hbefore.skipBlanks_cons (by decide)]
    simp only [if_true, hread, hafter.expectColon, hnull]
    exact congrArg _ hclosing

theorem readLexeme_spellsQuoted {lexeme : String} {text : List Char}
    (h : SpellsQuoted lexeme.toList text) (rest : List Char) :
    readLexeme (text ++ rest) = .ok (lexeme, rest) := by
  obtain ⟨htext⟩ := h
  rw [readLexeme, List.cons_append, List.append_assoc, skipBlanks_cons (by decide)]
  show (readQuoted _).map _ = _
  rw [List.singleton_append, readQuoted_spellsText htext]
  simp only [Except.map, String.ofList_toList]

theorem readLine_natural_eq (n : Nat) (rest : List Char) :
    readLine (natural n ++ rest) = match readNatural (natural n ++ rest) with
      | .error fault => .error fault
      | .ok (some line, rest) => .ok (line, rest)
      | .ok (none, _) => .error .unsuitable := by
  obtain ⟨first, others, hsplit, hdigit⟩ := exists_natural_eq_cons n
  have hblank := (skipScalar_of_numeral (.inr hdigit) []).1
  rw [hsplit, List.cons_append, readLine, skipBlanks_cons hblank]
  exact if_pos (.inr hdigit)

theorem readLine_natural {n : Nat} (hn : n ≤ maxNatural) {rest : List Char} (h : EndsNumeral rest) :
    readLine (natural n ++ rest) = .ok (n, rest) := by
  rw [readLine_natural_eq, readNatural_natural hn h]

/-- A line beyond 64 bits is no line, however large it is. -/
theorem readLine_natural_of_lt {n : Nat} (hn : maxNatural < n) {rest : List Char}
    (h : EndsNumeral rest) : ∃ fault, readLine (natural n ++ rest) = .error fault := by
  rw [readLine_natural_eq]
  rcases readNatural_natural_of_lt hn h with hread | hread
  · exact ⟨_, by rw [hread]⟩
  · exact ⟨_, by rw [hread]⟩

/-! ## A member -/

/-- The token without some fields, as members that have been read. -/
def Members.without (token : Token) (fields : List Field) : Members where
  kind := if .kind ∈ fields then .none else some token.kind
  lexeme := if .lexeme ∈ fields then .none else some token.lexeme
  line := if .line ∈ fields then .none else some token.line

variable {token : Token} {fields : List Field}

theorem token?_without_nil : (Members.without token []).token? = some token := rfl

theorem has_without_cons (field : Field) :
    (Members.without token (field :: fields)).has field.name = false := by
  cases field <;> simp [Members.has, Members.without, Field.name]

section
variable {chars : List Char} (h : ∀ field : Field, chars ≠ field.name.toList) (members : Members)
include h

theorem ofList_ne_of_ne :
    String.ofList chars ≠ "kind" ∧ String.ofList chars ≠ "lexeme" ∧
      String.ofList chars ≠ "line" := by
  have hname : ∀ field : Field, String.ofList chars ≠ field.name := by
    intro field hsame
    exact h field (by rw [← hsame, String.toList_ofList])
  exact ⟨hname .kind, hname .lexeme, hname .line⟩

theorem has_of_ne : members.has (.ofList chars) = false := by
  obtain ⟨hkind, hlexeme, hline⟩ := ofList_ne_of_ne h
  simp [Members.has, hkind, hlexeme, hline]

/-- The value of any other member is passed over. -/
theorem readValue_of_ne (s : List Char) :
    members.readValue (.ofList chars) s = (skipValue s).map fun rest => (members, rest) := by
  obtain ⟨hkind, hlexeme, hline⟩ := ofList_ne_of_ne h
  rw [Members.readValue, if_neg hkind, if_neg hlexeme, if_neg hline]

end

/-- A value for a field that is still to come takes it off the fields. -/
theorem readValue_spells {field : Field} (hfield : field ∉ fields) {text gap rest : List Char}
    (htext : field.Spells token text) (hline : field = .line → token.line ≤ maxNatural)
    (hgap : Gap gap) (hrest : EndsNumeral rest) :
    (Members.without token (field :: fields)).readValue field.name (gap ++ (text ++ rest)) =
      .ok (Members.without token fields, rest) := by
  cases field with
  | kind =>
    have hread := SpellsKind.read htext rest
    simp [Members.readValue, Members.without, Field.name, readKind_gap hgap, hread, Except.map,
      hfield]
  | lexeme =>
    have hread := readLexeme_spellsQuoted htext rest
    simp [Members.readValue, Members.without, Field.name, readLexeme_gap hgap, hread, Except.map,
      hfield]
  | line =>
    obtain rfl : text = natural token.line := htext
    have hread := readLine_natural (hline rfl) hrest
    simp [Members.readValue, Members.without, Field.name, readLine_gap hgap, hread, Except.map,
      hfield]

/-- A line beyond 64 bits ends the reading of its member. -/
theorem readValue_line_of_lt {members : Members} (hline : maxNatural < token.line)
    {gap rest : List Char} (hgap : Gap gap) (hrest : EndsNumeral rest) :
    ∃ fault, members.readValue "line" (gap ++ (natural token.line ++ rest)) = .error fault := by
  obtain ⟨fault, hread⟩ := readLine_natural_of_lt hline hrest
  refine ⟨fault, ?_⟩
  simp [Members.readValue, readLine_gap hgap, hread, Except.map]

/-- However its name is spelled, a member is read by its name. -/
theorem readMember_name {chars quoted name : List Char} (hquoted : SpellsQuoted chars quoted)
    (hname : Padded quoted name) (value : List Char) :
    ∃ s, skipBlanks (name ++ ':' :: value) = '"' :: s ∧
      ∀ members : Members, members.has (.ofList chars) = false →
        members.readMember s = members.readValue (.ofList chars) value := by
  obtain ⟨htext⟩ := hquoted
  obtain ⟨hbefore, hafter⟩ := hname
  simp only [List.append_assoc, List.cons_append, List.nil_append]
  refine ⟨_, hbefore.skipBlanks_cons (by decide) _, fun members hhas => ?_⟩
  rw [Members.readMember, readQuoted_spellsText htext]
  simp only [hhas, hafter.expectColon, Bool.false_eq_true, if_false]

/-- A member takes its field off those that are still to come; only a line that is too large stops
the reading. -/
theorem readMember_spells {field : Option Field} {text rest : List Char}
    (h : SpellsMember token field text) (hfield : ∀ known ∈ field, known ∉ fields)
    (hrest : EndsNumeral rest) :
    ∃ s, skipBlanks (text ++ rest) = '"' :: s ∧
      ((.line ∈ field → token.line ≤ maxNatural) → ∃ gap, Gap gap ∧
        (Members.without token (field.toList ++ fields)).readMember s =
          .ok (Members.without token fields, gap ++ rest)) ∧
      (.line ∈ field → maxNatural < token.line → ∃ fault,
        (Members.without token (field.toList ++ fields)).readMember s = .error fault) := by
  cases h with
  | @field field _ _ text _ hquoted hname htext hvalue =>
    obtain ⟨hbefore, hafter⟩ := hvalue
    obtain ⟨s, hs, hread⟩ := readMember_name hquoted hname _
    have hhas : (Members.without token (field :: fields)).has field.name = false :=
      has_without_cons field
    rw [String.ofList_toList] at hread
    have hread := hread _ hhas
    have hends := hafter.endsNumeral hrest
    rw [List.append_assoc, List.cons_append, List.append_assoc, List.append_assoc]
    refine ⟨s, hs, fun hline => ⟨_, hafter, ?_⟩, fun hline hlarge => ?_⟩
    · have hsmall : field = .line → token.line ≤ maxNatural := fun h => hline (by rw [h]; rfl)
      exact hread.trans (readValue_spells (hfield field rfl) htext hsmall hbefore hends)
    · obtain rfl : field = .line := Option.some.inj hline
      obtain rfl : text = natural token.line := htext
      obtain ⟨fault, hfault⟩ := readValue_line_of_lt hlarge hbefore hends
      exact ⟨fault, hread.trans hfault⟩
  | other hother hquoted hname htext hvalue =>
    obtain ⟨hbefore, hafter⟩ := hvalue
    obtain ⟨s, hs, hread⟩ := readMember_name hquoted hname _
    have hskip := htext.skipValue (hafter.endsNumeral hrest)
    rw [List.append_assoc, List.cons_append, List.append_assoc, List.append_assoc]
    refine ⟨s, hs, fun _ => ⟨_, hafter, ?_⟩, nofun⟩
    rw [hread _ (has_of_ne hother _), readValue_of_ne hother, hbefore.skipValue, hskip]
    rfl

/-! ## Members in a row -/

section
variable {members members' : Members} {s t rest : List Char}

theorem readMembers_first (h : skipBlanks s = '"' :: t) :
    readMembers true members s =
      (members.readMember t).bind fun read => readMembers false read.1 read.2 := by
  conv_lhs => rw [readMembers]
  split
  · simp_all
  · rename_i hskip
    cases h.symm.trans hskip
    rw [if_neg (by decide), if_pos rfl, if_pos rfl]
    split <;> simp_all [Except.bind]

/-- Behind a comma the members begin anew. -/
theorem readMembers_comma (hcomma : skipBlanks s = ',' :: rest) (h : skipBlanks rest = '"' :: t) :
    readMembers false members s = readMembers true members rest := by
  rw [readMembers, readMembers]
  split
  · simp_all
  · rename_i hskip
    cases hcomma.symm.trans hskip
    rw [if_neg (by decide), if_neg (by decide), if_pos rfl]
    split
    · simp_all
    · rename_i hskip'
      cases h.symm.trans hskip'
      simp

theorem readMembers_closing {first : Bool} {token : Token} (h : skipBlanks s = '}' :: rest)
    (htoken : members.token? = some token) :
    readMembers first members s = .ok (token, rest) := by
  rw [readMembers]
  split
  · simp_all
  · rename_i hskip
    cases h.symm.trans hskip
    rw [if_pos rfl, htoken]

end

theorem SpellsMember.begins {field : Option Field} {text : List Char}
    (h : SpellsMember token field text) (rest : List Char) :
    ∃ s, skipBlanks (text ++ rest) = '"' :: s := by
  cases h with
  | field hquoted hname | other _ hquoted hname =>
    rw [List.append_assoc]
    obtain ⟨s, hs, _⟩ := readMember_name hquoted hname _
    exact ⟨s, hs⟩

theorem SpellsMembers.begins {text : List Char} (h : SpellsMembers token fields text)
    (rest : List Char) : ∃ s, skipBlanks (text ++ rest) = '"' :: s := by
  cases h with
  | last hmember => exact hmember.begins rest
  | next hfirst =>
    rw [List.append_assoc]
    exact hfirst.begins _

/-- The members that hold all fields still to come lead to the token; only a line that is too large
stops the reading. -/
theorem SpellsMembers.read {text : List Char} (h : SpellsMembers token fields text)
    (hnodup : fields.Nodup) (rest : List Char) :
    ((.line ∈ fields → token.line ≤ maxNatural) →
      readMembers true (Members.without token fields) (text ++ '}' :: rest) = .ok (token, rest)) ∧
    (.line ∈ fields → maxNatural < token.line → ∃ fault,
      readMembers true (Members.without token fields) (text ++ '}' :: rest) = .error fault) := by
  induction h with
  | last hmember =>
    have hends : EndsNumeral ('}' :: rest) := endsNumeral_closing .object rest
    obtain ⟨s, hs, hread, hfault⟩ := readMember_spells hmember (fun _ _ => List.not_mem_nil) hends
    rw [List.append_nil] at hread hfault
    simp only [Option.mem_toList, readMembers_first hs]
    refine ⟨fun hline => ?_, fun hmem hlarge => ?_⟩
    · obtain ⟨gap, hgap, hread⟩ := hread hline
      rw [hread]
      exact readMembers_closing (hgap.skipBlanks_cons (by decide) rest) token?_without_nil
    · obtain ⟨fault, hfault⟩ := hfault hmem hlarge
      exact ⟨fault, by rw [hfault]; rfl⟩
  | @next field fields first more hfirst hmore ih =>
    obtain ⟨_, hfields, hfield⟩ := List.nodup_append.1 hnodup
    have hnew : ∀ known ∈ field, known ∉ fields := fun known hmem hlater =>
      hfield known (Option.mem_toList.2 hmem) known hlater rfl
    obtain ⟨s, hs, hread, hfault⟩ := readMember_spells hfirst hnew
      (endsNumeral_comma (more ++ '}' :: rest))
    obtain ⟨t, ht⟩ := hmore.begins ('}' :: rest)
    obtain ⟨ihRead, ihFault⟩ := ih hfields
    simp only [List.append_assoc, List.cons_append, List.mem_append, Option.mem_toList,
      readMembers_first hs]
    -- behind a member that has been read the members begin anew
    have hnext (hline : .line ∈ field → token.line ≤ maxNatural) :
        ((Members.without token (field.toList ++ fields)).readMember s).bind
            (fun read => readMembers false read.1 read.2) =
          readMembers true (Members.without token fields) (more ++ '}' :: rest) := by
      obtain ⟨gap, hgap, hread⟩ := hread hline
      rw [hread]
      exact readMembers_comma (hgap.skipBlanks_cons (by decide) _) ht
    refine ⟨fun hline => ?_, fun hmem hlarge => ?_⟩
    · rw [hnext fun hhere => hline (.inl hhere)]
      exact ihRead fun hlater => hline (.inr hlater)
    · by_cases hhere : .line ∈ field
      · obtain ⟨fault, hfault⟩ := hfault hhere hlarge
        exact ⟨fault, by rw [hfault]; rfl⟩
      · rw [hnext fun hmem => absurd hmem hhere]
        exact ihFault (hmem.resolve_left hhere) hlarge

/-! ## Elements of a list -/

theorem SpellsKind.begins {kind : Kind} {text : List Char} (h : SpellsKind kind text) :
    ∃ first others, text = first :: others ∧ Begins first := by
  cases h with
  | name hquoted =>
    obtain ⟨_⟩ := hquoted
    exact ⟨_, _, rfl, by decide⟩
  | object => exact ⟨_, _, rfl, by decide⟩

theorem begins_spellsQuoted {chars text : List Char} (h : SpellsQuoted chars text) :
    ∃ first others, text = first :: others ∧ Begins first := by
  obtain ⟨_⟩ := h
  exact ⟨_, _, rfl, by decide⟩

theorem begins_natural (n : Nat) : ∃ first others, natural n = first :: others ∧ Begins first := by
  obtain ⟨first, others, hsplit, hdigit⟩ := exists_natural_eq_cons n
  exact ⟨first, others, hsplit, begins_of_numeral (.inr hdigit)⟩

section
variable {text padded : List Char} (hpadded : Padded text padded)
  (hbegins : ∃ first others, text = first :: others ∧ Begins first)
include hpadded hbegins

theorem skipBlanks_padded :
    ∃ after, Gap after ∧ ∀ rest, skipBlanks (padded ++ rest) = text ++ (after ++ rest) := by
  obtain ⟨hbefore, hafter⟩ := hpadded
  obtain ⟨first, others, rfl, hfirst⟩ := hbegins
  refine ⟨_, hafter, fun rest => ?_⟩
  rw [List.append_assoc, List.append_assoc]
  exact hbefore.skipBlanks_cons hfirst.isBlank _

/-- A comma leads to the next element. -/
theorem readComma_padded {gap : List Char} (hgap : Gap gap) :
    ∃ after, Gap after ∧ ∀ rest, readComma (gap ++ ',' :: (padded ++ rest)) =
      .ok (text ++ (after ++ rest)) := by
  obtain ⟨after, hafter, hskip⟩ := skipBlanks_padded hpadded hbegins
  obtain ⟨first, others, rfl, hfirst⟩ := hbegins
  refine ⟨after, hafter, fun rest => ?_⟩
  rw [readComma, hgap.skipBlanks_cons (by decide)]
  simp only [hskip rest]
  exact if_neg (hfirst.ne_closing .list)

end

/-- The elements of a list are read in their order; only a line that is too large stops the
reading. -/
theorem readElements_spells {kind lexeme kind' lexeme' line' : List Char}
    (hkind : SpellsKind token.kind kind) (hkind' : Padded kind kind')
    (hlexeme : SpellsQuoted token.lexeme.toList lexeme) (hlexeme' : Padded lexeme lexeme')
    (hline' : Padded (natural token.line) line') (rest : List Char) :
    (token.line ≤ maxNatural →
      readElements (kind' ++ ',' :: (lexeme' ++ ',' :: (line' ++ ']' :: rest))) =
        .ok (token, rest)) ∧
    (maxNatural < token.line → ∃ fault,
      readElements (kind' ++ ',' :: (lexeme' ++ ',' :: (line' ++ ']' :: rest))) =
        .error fault) := by
  obtain ⟨gap, hgap, hskip⟩ := skipBlanks_padded hkind' hkind.begins
  obtain ⟨gap', hgap', hcomma⟩ := readComma_padded hlexeme' (begins_spellsQuoted hlexeme) hgap
  obtain ⟨gap'', hgap'', hcomma'⟩ := readComma_padded hline' (begins_natural token.line) hgap'
  have hkindRead := hkind.read
  have hends : EndsNumeral (gap'' ++ ']' :: rest) :=
    hgap''.endsNumeral (endsNumeral_closing .list rest)
  have hclosing := expectClosing_gap hgap'' .list rest
  obtain ⟨first, others, rfl, hfirst⟩ := hkind.begins
  have hopen := hfirst.ne_closing .list
  simp only [List.cons_append] at hskip hkindRead
  simp only [Bracket.closing] at hopen hclosing
  constructor
  · intro hline
    simp only [readElements, hskip, hkindRead, hcomma, readLexeme_spellsQuoted hlexeme, hcomma',
      readLine_natural hline hends, hopen, if_false, hclosing, Except.map]
  · intro hlarge
    obtain ⟨fault, hfault⟩ := readLine_natural_of_lt hlarge hends
    refine ⟨fault, ?_⟩
    simp only [readElements, hskip, hkindRead, hcomma, readLexeme_spellsQuoted hlexeme, hcomma',
      hfault, hopen, if_false]

/-! ## A token -/

theorem nodup_of_perm {fields : List Field} (h : fields.Perm [.kind, .lexeme, .line]) :
    fields.Nodup ∧ ∀ field, field ∈ fields := by
  refine ⟨h.nodup_iff.2 (by decide), fun field => h.mem_iff.2 ?_⟩
  cases field <;> decide

theorem without_all (h : ∀ field, field ∈ fields) : Members.without token fields = .none := by
  simp [Members.without, h, Members.none]

/-- A spelling is read as the token it spells; only a line that is too large stops the reading. -/
theorem SpellsToken.read {text : List Char} (h : SpellsToken token text) (rest : List Char) :
    (token.line ≤ maxNatural → Token.read (text ++ rest) = .ok (token, rest)) ∧
      (maxNatural < token.line → ∃ fault, Token.read (text ++ rest) = .error fault) := by
  cases h with
  | @object fields members hmembers hfields =>
    obtain ⟨hnodup, hall⟩ := nodup_of_perm hfields
    have hread : Token.read ('{' :: (members ++ ['}']) ++ rest) =
        readMembers true (Members.without token fields) (members ++ '}' :: rest) := by
      rw [List.cons_append, List.append_assoc, Token.read, skipBlanks_cons (by decide),
        without_all hall]
      rfl
    rw [hread]
    have hmembers := hmembers.read hnodup rest
    exact ⟨fun hline => hmembers.1 fun _ => hline, hmembers.2 (hall .line)⟩
  | list hkind hkind' hlexeme hlexeme' hline' =>
    have hread := readElements_spells hkind hkind' hlexeme hlexeme' hline' rest
    simp only [List.cons_append, List.append_assoc, List.nil_append]
    rw [Token.read, skipBlanks_cons (by decide)]
    exact hread

section
variable {spelled : List Char} {text : String} (h : SpellsToken token spelled)
  (hpadded : Padded spelled text.toList)
include h hpadded

/-- Blanks around the spelling make no difference. -/
theorem ofJson_padded (hline : token.line ≤ maxNatural) : Token.ofJson text = .ok token := by
  generalize htext : text.toList = padded at hpadded
  obtain ⟨hbefore, hafter⟩ := hpadded
  have hblank : skipBlanks _ = [] := List.dropWhile_eq_nil_iff.2 hafter
  rw [Token.ofJson, htext, readText, readToken_gap hbefore, (h.read _).1 hline]
  simp only [hblank, List.isEmpty_nil, if_true]

theorem ofJson_padded_of_lt (hlarge : maxNatural < token.line) :
    ∃ fault, Token.ofJson text = .error fault := by
  generalize htext : text.toList = padded at hpadded
  obtain ⟨hbefore, hafter⟩ := hpadded
  obtain ⟨fault, hfault⟩ := (h.read _).2 hlarge
  refine ⟨fault, ?_⟩
  rw [Token.ofJson, htext, readText, readToken_gap hbefore, hfault]

end

/-- However a token is spelled, it is read when its line is below 2^64, and otherwise nothing is. -/
theorem ofJson_of_spelling {kind : Kind} {lexeme : String} {line : Nat} {spelled : List Char}
    {text : String} (h : SpellsToken ⟨kind, lexeme, line⟩ spelled)
    (hpadded : Padded spelled text.toList) :
    (line < 2 ^ 64 → Token.ofJson text = .ok ⟨kind, lexeme, line⟩) ∧
      (2 ^ 64 ≤ line → ∃ fault, Token.ofJson text = .error fault) := by
  have hmax : maxNatural + 1 = 2 ^ 64 := by decide
  constructor
  · intro hline
    have hsmall : line ≤ maxNatural := by omega
    exact ofJson_padded h hpadded hsmall
  · intro hline
    have hlarge : maxNatural < line := by omega
    exact ofJson_padded_of_lt h hpadded hlarge

/-- Members out of order and one of another name, escapes by number and a surrogate pair, and the
lines on either side of the limit. -/
theorem ofJson_of_mixed_spelling :
    Token.ofJson ("\n\x7b\"line\": 18446744073709551615,\"x\":[\x7b\x7d, -0.5E+7]," ++
        "\"\\u006bind\":\x7b\"Eof\" : null\x7d,\"lexeme\":\"\\ud83d\\uDE00\"\x7d") =
      .ok ⟨.eof, "😀", 18446744073709551615⟩ ∧
    ∃ fault, Token.ofJson "[\"Eof\",\"\\/\" ,18446744073709551616]" = .error fault := by
  have hblank : Gap [' '] := by decide
  have heof : SpellsQuoted Kind.eof.name.toList _ := spellsQuoted_quoted _
  constructor
  · have hline : SpellsMember ⟨.eof, "😀", 18446744073709551615⟩ (some .line) _ :=
      .field (spellsQuoted_quoted _) (.refl _) rfl (.mk hblank .nil)
    have hnumeral : Writes ⟨true, ['0'], ['5'], some (false, ['7'])⟩ "-0.5E+7".toList :=
      .negative ⟨⟨by decide, by simp⟩, by decide⟩ (.some ⟨by decide, by simp⟩)
        (.plus (by decide) ⟨by decide, by simp⟩)
    have hvalue : Conforms .value _ :=
      .full .list (.next (.element (.empty .object .nil) (.refl _))
        (.last (.element (.numeral hnumeral) (.mk hblank .nil))))
    have hother : SpellsMember ⟨.eof, "😀", 18446744073709551615⟩ none _ :=
      .other (fun field => by cases field <;> decide) (spellsQuoted_quoted ['x']) (.refl _) hvalue
        (.refl _)
    have hletter : EscapesUnits [0x6b] "\\u006b".toList :=
      .cons (.mk (by decide) (by decide) (by decide) (by decide)) .nil
    have hname : SpellsText "kind".toList _ :=
      .cons (.units hletter) (spellsText_escape ['i', 'n', 'd'])
    have hkind : SpellsMember ⟨.eof, "😀", 18446744073709551615⟩ (some .kind) _ :=
      .field (.mk hname) (.refl _) (.object heof (.mk .nil hblank) (.mk hblank .nil)) (.refl _)
    have hpair : EscapesUnits [0xd83d, 0xde00] "\\ud83d\\uDE00".toList :=
      .cons (.mk (by decide) (by decide) (by decide) (by decide))
        (.cons (.mk (by decide) (by decide) (by decide) (by decide)) .nil)
    have hlexeme : SpellsMember ⟨.eof, "😀", 18446744073709551615⟩ (some .lexeme) _ :=
      .field (spellsQuoted_quoted _) (.refl _) (.mk (.cons (.units hpair) .nil)) (.refl _)
    have hmembers := SpellsMembers.next hline (.next hother (.next hkind (.last hlexeme)))
    have hbefore : Gap ['\n'] := by decide
    exact (ofJson_of_spelling (.object hmembers (by decide)) (.mk hbefore .nil)).1 (by decide)
  · have hlexeme : SpellsQuoted "/".toList "\"\\/\"".toList :=
      .mk (.cons (.letter (by decide)) .nil)
    have hlist : SpellsToken ⟨.eof, "/", 18446744073709551616⟩ _ :=
      .list (.name heof) (.refl _) hlexeme (.mk .nil hblank) (.refl _)
    exact (ofJson_of_spelling hlist (.refl _)).2 (by decide)

end Token

end Lexis
