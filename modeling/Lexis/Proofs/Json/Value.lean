import Lexis.Proofs.Json.Numeral

/-!
# Values of any kind, passed over

The grammar of JSON values is one relation (`Conforms`) between texts and shapes: a value, what a
bracket holds between two commas, and what it holds as a whole. Lists and objects differ only in
their brackets and in what an item of theirs is.

Values are passed over by a machine that keeps the open brackets. Whatever brackets are open, it
comes from the beginning of a value to its end (`skipOpen_conforms`), so a value is passed over as a
whole, nested to any depth, when no more of a numeral stands behind it (`Conforms.skipValue`).
-/

set_option autoImplicit false

namespace Lexis.Json

/-! ## Blanks -/

theorem isBlank_iff {c : Char} :
    isBlank c = true ↔ c = ' ' ∨ c = '\t' ∨ c = '\n' ∨ c = '\r' := by
  simp [isBlank, or_assoc]

/-- The text has nothing but blanks. -/
def Gap (text : List Char) : Prop :=
  ∀ c ∈ text, isBlank c = true

instance (text : List Char) : Decidable (Gap text) :=
  List.decidableBAll (fun c : Char => isBlank c = true) text

/-- The text with blanks around it. -/
inductive Padded (text : List Char) : List Char → Prop
  | mk {before after : List Char} (hbefore : Gap before) (hafter : Gap after) :
    Padded text (before ++ (text ++ after))

theorem Gap.nil : Gap [] :=
  nofun

theorem Padded.refl (text : List Char) : Padded text text := by
  have hpadded : Padded text ([] ++ (text ++ [])) := .mk .nil .nil
  rwa [List.append_nil] at hpadded

theorem skipBlanks_cons {c : Char} (h : isBlank c = false) (rest : List Char) :
    skipBlanks (c :: rest) = c :: rest :=
  List.dropWhile_cons_of_neg (by simp [h])

section
variable {gap : List Char} (h : Gap gap)
include h

theorem Gap.skipBlanks (rest : List Char) :
    Json.skipBlanks (gap ++ rest) = Json.skipBlanks rest :=
  List.dropWhile_append_of_pos h

theorem Gap.skipBlanks_cons {c : Char} (hc : isBlank c = false) (rest : List Char) :
    Json.skipBlanks (gap ++ c :: rest) = c :: rest :=
  (h.skipBlanks _).trans (Json.skipBlanks_cons hc rest)

theorem Gap.endsNumeral {rest : List Char} (hrest : EndsNumeral rest) :
    EndsNumeral (gap ++ rest) := by
  cases gap with
  | nil => exact hrest
  | cons c gap =>
    obtain rfl | rfl | rfl | rfl := isBlank_iff.1 (h c List.mem_cons_self) <;>
      exact .cons (by decide) (by decide) (by decide) (by decide) _

theorem Gap.expectColon (rest : List Char) : expectColon (gap ++ ':' :: rest) = .ok rest := by
  rw [Json.expectColon, h.skipBlanks_cons (by decide)]
  exact if_pos rfl

end

/-! ## The grammar -/

def Bracket.opening : Bracket → Char
  | list => '['
  | object => '{'

/-- What a text is a case of. -/
inductive Shape
  | value
  /-- What a bracket holds between two commas. -/
  | item (bracket : Bracket)
  /-- What a bracket holds, when it is not empty. -/
  | items (bracket : Bracket)

inductive Conforms : Shape → List Char → Prop
  | null : Conforms .value ['n', 'u', 'l', 'l']
  | yes : Conforms .value ['t', 'r', 'u', 'e']
  | no : Conforms .value ['f', 'a', 'l', 's', 'e']
  | numeral {numeral : Numeral} {text : List Char} (h : Writes numeral text) : Conforms .value text
  | quoted {text : List Char} (h : IsBody text) : Conforms .value ('"' :: (text ++ ['"']))
  | empty (bracket : Bracket) {gap : List Char} (hgap : Gap gap) :
    Conforms .value (bracket.opening :: (gap ++ [bracket.closing]))
  | full (bracket : Bracket) {text : List Char} (h : Conforms (.items bracket) text) :
    Conforms .value (bracket.opening :: (text ++ [bracket.closing]))
  | element {value text : List Char} (h : Conforms .value value) (hpadded : Padded value text) :
    Conforms (.item .list) text
  /-- Behind the colon of a member stands what could stand in a list. -/
  | member {body name value : List Char} (hbody : IsBody body)
      (hname : Padded ('"' :: (body ++ ['"'])) name) (h : Conforms (.item .list) value) :
    Conforms (.item .object) (name ++ ':' :: value)
  | last {bracket : Bracket} {text : List Char} (h : Conforms (.item bracket) text) :
    Conforms (.items bracket) text
  | next {bracket : Bracket} {first more : List Char} (hfirst : Conforms (.item bracket) first)
      (hmore : Conforms (.items bracket) more) : Conforms (.items bracket) (first ++ ',' :: more)

/-- A minus or a digit begins a numeral and nothing else. -/
theorem skipScalar_of_numeral {c : Char} (hc : c = '-' ∨ c.isDigit = true) (s : List Char) :
    isBlank c = false ∧ Bracket.ofOpening? c = none ∧
      skipScalar c s = (readParts .malformed (c :: s)).map Prod.snd := by
  have hother : ∀ d : Char, d ≠ '-' → d.isDigit = false → c ≠ d := by
    rintro d hminus hdigit rfl
    rcases hc with hc | hc
    · exact hminus hc
    · rw [hdigit] at hc
      cases hc
  refine ⟨?_, ?_, ?_⟩
  · simp [isBlank, hother ' ', hother '\t', hother '\n', hother '\r']
  · simp [Bracket.ofOpening?, hother '[', hother '\x7b']
  · rw [skipScalar, if_neg (hother 'n' (by decide) (by decide)),
      if_neg (hother 't' (by decide) (by decide)), if_neg (hother 'f' (by decide) (by decide)),
      if_neg (hother '"' (by decide) (by decide)), if_pos hc]

theorem Writes.exists_cons {numeral : Numeral} {text : List Char} (h : Writes numeral text) :
    ∃ first others, text = first :: others ∧ (first = '-' ∨ first.isDigit = true) := by
  cases h with
  | positive hwhole =>
    obtain ⟨first, others, rfl, hfirst, _⟩ := hwhole.1.exists_cons
    exact ⟨first, _, rfl, .inr hfirst⟩
  | negative => exact ⟨'-', _, rfl, .inl rfl⟩

/-- The character begins a value, or an item behind its blanks. -/
structure Begins (c : Char) : Prop where
  isBlank : isBlank c = false
  ne_closing : ∀ bracket : Bracket, c ≠ bracket.closing

instance (c : Char) : Decidable (Begins c) :=
  decidable_of_iff (Json.isBlank c = false ∧ c ≠ ']' ∧ c ≠ '}')
    ⟨fun h => ⟨h.1, fun bracket => by cases bracket; exacts [h.2.1, h.2.2]⟩,
      fun h => ⟨h.isBlank, h.ne_closing .list, h.ne_closing .object⟩⟩

theorem begins_of_numeral {c : Char} (hc : c = '-' ∨ c.isDigit = true) : Begins c := by
  refine ⟨(skipScalar_of_numeral hc []).1, fun bracket => ?_⟩
  rintro rfl
  revert hc
  cases bracket <;> decide

theorem Conforms.value_begins {text : List Char} (h : Conforms .value text) :
    ∃ first others, text = first :: others ∧ Begins first := by
  cases h with
  | null | yes | no | quoted => exact ⟨_, _, rfl, by decide⟩
  | numeral hwrites =>
    obtain ⟨first, others, rfl, hfirst⟩ := hwrites.exists_cons
    exact ⟨first, others, rfl, begins_of_numeral hfirst⟩
  | empty bracket | full bracket =>
    refine ⟨_, _, rfl, ?_⟩
    cases bracket <;> decide

/-- An item begins as no bracket ends. -/
theorem Conforms.items_begins {bracket : Bracket} {text : List Char}
    (h : Conforms (.items bracket) text) (rest : List Char) :
    ∃ first others, skipBlanks (text ++ rest) = first :: others ∧ Begins first := by
  have hitem : ∀ {bracket text} (_ : Conforms (.item bracket) text) (rest : List Char),
      ∃ first others, skipBlanks (text ++ rest) = first :: others ∧ Begins first := by
    intro bracket text h rest
    cases h with
    | element hvalue hpadded =>
      obtain ⟨hbefore, _⟩ := hpadded
      obtain ⟨first, others, rfl, hfirst⟩ := hvalue.value_begins
      rw [List.append_assoc]
      exact ⟨first, _, hbefore.skipBlanks_cons hfirst.isBlank _, hfirst⟩
    | member _ hname _ =>
      obtain ⟨hbefore, _⟩ := hname
      rw [List.append_assoc, List.append_assoc]
      exact ⟨'"', _, hbefore.skipBlanks_cons (by decide) _, by decide⟩
  cases h with
  | last hlast => exact hitem hlast rest
  | next hfirst _ =>
    rw [List.append_assoc]
    exact hitem hfirst _

/-! ## Steps of the machine -/

section
variable {brackets outer : List Bracket} {bracket : Bracket} {s rest : List Char}

/-- Blanks do not matter where something is expected. -/
theorem skipOpen_congr {expected : Expected} {t : List Char} (h : skipBlanks s = skipBlanks t)
    (hmore : expected ≠ .next ∨ brackets ≠ []) :
    skipOpen brackets expected s = skipOpen brackets expected t := by
  rw [skipOpen.eq_def, skipOpen.eq_def brackets expected t]
  cases expected with
  | value | member =>
    dsimp only
    generalize skipBlanks s = skipped at h ⊢
    subst h
    rfl
  | next =>
    cases brackets with
    | nil => simp at hmore
    | cons =>
      dsimp only
      generalize skipBlanks s = skipped at h ⊢
      subst h
      rfl

theorem skipOpen_scalar {c : Char} (hblank : isBlank c = false)
    (hopening : Bracket.ofOpening? c = none) (h : skipScalar c s = .ok rest) :
    skipOpen brackets .value (c :: s) = skipOpen brackets .next rest := by
  rw [skipOpen]
  split
  · simp_all [skipBlanks_cons]
  · rename_i hskip
    cases (skipBlanks_cons hblank s).symm.trans hskip
    rw [hopening]
    dsimp only
    split <;> simp_all

theorem ofOpening?_opening (bracket : Bracket) :
    isBlank bracket.opening = false ∧ Bracket.ofOpening? bracket.opening = some bracket := by
  cases bracket <;> decide

theorem skipOpen_empty (h : skipBlanks s = bracket.closing :: rest) :
    skipOpen brackets .value (bracket.opening :: s) = skipOpen brackets .next rest := by
  obtain ⟨hblank, hopening⟩ := ofOpening?_opening bracket
  rw [skipOpen]
  split
  · simp_all [skipBlanks_cons]
  · rename_i hskip
    cases (skipBlanks_cons hblank s).symm.trans hskip
    rw [hopening]
    dsimp only
    split <;> simp_all

theorem skipOpen_full {first : Char} {others : List Char} (h : skipBlanks s = first :: others)
    (hclosing : first ≠ bracket.closing) :
    skipOpen brackets .value (bracket.opening :: s) =
      skipOpen (bracket :: brackets) bracket.item s := by
  obtain ⟨hblank, hopening⟩ := ofOpening?_opening bracket
  rw [skipOpen]
  split
  · simp_all [skipBlanks_cons]
  · rename_i hskip
    cases (skipBlanks_cons hblank s).symm.trans hskip
    rw [hopening]
    dsimp only
    split <;> simp_all

theorem skipOpen_member (hname : skipQuoted s = .ok rest) {value : List Char}
    (hcolon : expectColon rest = .ok value) :
    skipOpen brackets .member ('"' :: s) = skipOpen brackets .value value := by
  have hquote : skipBlanks ('"' :: s) = '"' :: s := skipBlanks_cons (by decide) s
  conv_lhs => rw [skipOpen]
  split
  · simp_all
  · rename_i hskip
    cases hquote.symm.trans hskip
    rw [if_pos rfl]
    split
    · rename_i hquoted
      obtain rfl := Except.ok.inj (hname.symm.trans hquoted)
      split <;> simp_all
    · simp_all

theorem skipOpen_comma (bracket : Bracket) (outer : List Bracket) (rest : List Char) :
    skipOpen (bracket :: outer) .next (',' :: rest) =
      skipOpen (bracket :: outer) bracket.item rest := by
  have hcomma : skipBlanks (',' :: rest) = ',' :: rest := skipBlanks_cons (by decide) rest
  rw [skipOpen]
  split
  · simp_all
  · rename_i hskip
    cases hcomma.symm.trans hskip
    exact if_pos rfl

theorem skipOpen_closing (bracket : Bracket) (outer : List Bracket) (rest : List Char) :
    skipOpen (bracket :: outer) .next (bracket.closing :: rest) = skipOpen outer .next rest := by
  have hclosing : isBlank bracket.closing = false ∧ bracket.closing ≠ ',' := by
    cases bracket <;> decide
  rw [skipOpen]
  split
  · simp_all [skipBlanks_cons]
  · rename_i hskip
    cases (skipBlanks_cons hclosing.1 rest).symm.trans hskip
    rw [if_neg hclosing.2, if_pos rfl]

end

/-! ## From the beginning to the end -/

/-- Behind an item the bracket goes on or ends. -/
theorem endsNumeral_comma (rest : List Char) : EndsNumeral (',' :: rest) :=
  .cons (by decide) (by decide) (by decide) (by decide) rest

theorem endsNumeral_closing (bracket : Bracket) (rest : List Char) :
    EndsNumeral (bracket.closing :: rest) := by
  cases bracket <;> exact .cons (by decide) (by decide) (by decide) (by decide) rest

/-- The machine comes to the end of a text of that shape, whatever brackets are open. -/
def Shape.Passes (text : List Char) : Shape → Prop
  | .value => ∀ brackets rest, EndsNumeral rest →
    skipOpen brackets .value (text ++ rest) = skipOpen brackets .next rest
  | .item bracket => ∀ inner outer rest, EndsNumeral rest →
    skipOpen (inner :: outer) bracket.item (text ++ rest) = skipOpen (inner :: outer) .next rest
  | .items bracket => ∀ outer rest,
    skipOpen (bracket :: outer) bracket.item (text ++ bracket.closing :: rest) =
      skipOpen outer .next rest

theorem skipOpen_conforms {shape : Shape} {text : List Char} (h : Conforms shape text) :
    shape.Passes text := by
  induction h with
  | null | yes | no =>
    intro brackets rest _
    exact skipOpen_scalar (by decide) (by decide) (expect_append _ rest)
  | numeral hwrites =>
    intro brackets rest hrest
    obtain ⟨first, others, rfl, hfirst⟩ := hwrites.exists_cons
    obtain ⟨hblank, hopening, hscalar⟩ := skipScalar_of_numeral hfirst (others ++ rest)
    have hparts := readParts_writes .malformed hwrites hrest
    rw [List.cons_append] at hparts
    refine skipOpen_scalar hblank hopening ?_
    show skipScalar first (others ++ rest) = .ok rest
    rw [hscalar, hparts]
    rfl
  | @quoted text hbody =>
    intro brackets rest _
    have hskip := skipQuoted_body hbody rest
    rw [List.cons_append, List.append_assoc]
    exact skipOpen_scalar (by decide) (by decide) hskip
  | empty bracket hgap =>
    intro brackets rest _
    rw [List.cons_append, List.append_assoc]
    refine skipOpen_empty (hgap.skipBlanks_cons ?_ rest)
    cases bracket <;> decide
  | full bracket hitems ih =>
    intro brackets rest _
    rw [List.cons_append, List.append_assoc]
    obtain ⟨first, others, hskip, hfirst⟩ := hitems.items_begins (bracket.closing :: rest)
    exact (skipOpen_full hskip (hfirst.ne_closing bracket)).trans (ih brackets rest)
  | element _ hpadded ih =>
    intro inner outer rest hrest
    obtain ⟨hbefore, hafter⟩ := hpadded
    have hmore : (Expected.next ≠ .next ∨ inner :: outer ≠ []) := .inr (List.cons_ne_nil _ _)
    rw [List.append_assoc, List.append_assoc]
    calc skipOpen (inner :: outer) .value _
      _ = _ := skipOpen_congr (hbefore.skipBlanks _) (.inl (by decide))
      _ = _ := ih (inner :: outer) _ (hafter.endsNumeral hrest)
      _ = _ := skipOpen_congr (hafter.skipBlanks rest) hmore
  | member hbody hname _ ih =>
    intro inner outer rest hrest
    obtain ⟨hbefore, hafter⟩ := hname
    have hname := skipQuoted_body hbody
    simp only [List.append_assoc, List.cons_append, List.nil_append]
    calc skipOpen (inner :: outer) .member _
      _ = _ := skipOpen_congr (hbefore.skipBlanks _) (.inl (by decide))
      _ = _ := skipOpen_member (hname _) (hafter.expectColon _)
      _ = _ := ih inner outer rest hrest
  | @last bracket text _ ih =>
    intro outer rest
    exact (ih bracket outer _ (endsNumeral_closing bracket rest)).trans
      (skipOpen_closing bracket outer rest)
  | @next bracket first more _ _ ihFirst ihMore =>
    intro outer rest
    rw [List.append_assoc, List.cons_append]
    calc skipOpen (bracket :: outer) bracket.item _
      _ = _ := ihFirst bracket outer _ (endsNumeral_comma _)
      _ = _ := skipOpen_comma bracket outer _
      _ = _ := ihMore outer rest

/-- A value is passed over as a whole. -/
theorem Conforms.skipValue {text rest : List Char} (h : Conforms .value text)
    (hrest : EndsNumeral rest) : skipValue (text ++ rest) = .ok rest := by
  rw [Json.skipValue, skipOpen_conforms h [] rest hrest, skipOpen]

theorem Gap.skipValue {gap : List Char} (h : Gap gap) (s : List Char) :
    Json.skipValue (gap ++ s) = Json.skipValue s :=
  skipOpen_congr (h.skipBlanks s) (.inl (by decide))

/-! ## What is written -/

theorem conforms_quoted (text : List Char) : Conforms .value (quoted text) :=
  .quoted (spellsText_escape text).isBody

theorem conforms_integer (i : Int) : Conforms .value (integer i) :=
  .numeral (writes_integer i)

end Lexis.Json
