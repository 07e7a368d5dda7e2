import Lexis.Lexeme.Classify
import Lexis.Token.Basic
import Lexis.Proofs.Alphabet.Apart
import Lexis.Proofs.Lexeme.Longest

/-!
# How tokens are spelled

`Spells kind lexeme source` lists every kind of token but the end token, with its lexeme and the
text that stands for it in a line. `classify` agrees with the list in both directions: it gives
back the kind and lexeme of every spelling (`Spells.classify`), and whatever it is applied to
where a lexeme begins is spelled as it says (`spells_classify`). So a text spells at most one
token (`Spells.unique`).
-/

set_option autoImplicit false

namespace Lexis

/-- Whether `first :: body` is a word that is not reserved. -/
structure IsName (first : Char) (body : List Char) : Prop where
  letter : isLetter first = true
  wordChars : ∀ c ∈ body, isLetter c = true ∨ c.isDigit = true
  notReserved : ∀ kind, (String.ofList (first :: body), kind) ∉ reservedWords

/-- A character that begins no token. -/
structure IsStray (c : Char) : Prop where
  notBlank : isBlank c = false
  notComment : c ≠ '#'
  notLetter : isLetter c = false
  notDigit : c.isDigit = false
  notQuote : c ≠ '"'
  notSymbol : ∀ kind, (String.singleton c, kind) ∉ symbols

/-- A token of the kind and with the lexeme is written as the text. -/
inductive Spells : Kind → String → List Char → Prop
  | reserved {word : String} {kind : Kind} (h : (word, kind) ∈ reservedWords) :
    Spells kind word word.toList
  | identifier {first : Char} {body : List Char} (h : IsName first body)
      (hlower : isLowercase first = true) :
    Spells .identifier (String.ofList (first :: body)) (first :: body)
  | capitalized {first : Char} {body : List Char} (h : IsName first body)
      (hlower : isLowercase first = false) :
    Spells .error (String.ofList (first :: body)) (first :: body)
  | integer {first : Char} {digits : List Char} (h : ∀ c ∈ first :: digits, c.isDigit = true) :
    Spells (.literal .integer) (String.ofList (first :: digits)) (first :: digits)
  | real {first : Char} {digits fraction : List Char}
      (h : ∀ c ∈ first :: digits, c.isDigit = true) (hf : ∀ c ∈ fraction, c.isDigit = true) :
    Spells (.literal .real) (String.ofList (first :: (digits ++ '.' :: fraction)))
      (first :: (digits ++ '.' :: fraction))
  | string {inner : List Char} (h : '"' ∉ inner) :
    Spells (.literal .string) (String.ofList inner) ('"' :: (inner ++ ['"']))
  /-- A quote that is not closed on its line. -/
  | unterminated {inner : List Char} (h : '"' ∉ inner) :
    Spells .error (String.ofList ('"' :: inner)) ('"' :: inner)
  | symbol {text : String} {kind : Kind} (h : (text, kind) ∈ symbols) :
    Spells kind text text.toList
  | stray {c : Char} (h : IsStray c) : Spells .error (String.singleton c) [c]

namespace Lexeme

/-- The kind of the token that a lexeme becomes. -/
def kind (lexeme : Lexeme) : Kind :=
  match lexeme.verdict with
  | .ok kind => kind
  | .error _ => .error

/-- The token that a lexeme becomes on a line. -/
def token (lexeme : Lexeme) (line : Nat) : Token :=
  ⟨lexeme.kind, lexeme.text, line⟩

end Lexeme

/-! ## Shapes -/

theorem shape_of_letter {c : Char} (h : isLetter c = true) : Shape.of c = .word := by
  simp [Shape.of, h]

theorem shape_of_digit {c : Char} (h : c.isDigit = true) : Shape.of c = .number := by
  simp [Shape.of, h, isLetter_of_isDigit h]

theorem shape_of_quote : Shape.of '"' = .quoted := by
  decide

theorem shape_of_symbol {c : Char} (hletter : isLetter c = false) (hdigit : c.isDigit = false)
    (hquote : c ≠ '"') : Shape.of c = .symbol := by
  simp [Shape.of, hletter, hdigit, hquote]

theorem isLetter_of_shape {c : Char} (h : Shape.of c = .word) : isLetter c = true := by
  unfold Shape.of at h
  split at h
  · assumption
  · split at h
    · cases h
    · split at h <;> cases h

theorem isDigit_of_shape {c : Char} (h : Shape.of c = .number) : c.isDigit = true := by
  unfold Shape.of at h
  split at h
  · cases h
  · split at h
    · assumption
    · split at h <;> cases h

theorem eq_quote_of_shape {c : Char} (h : Shape.of c = .quoted) : c = '"' := by
  unfold Shape.of at h
  split at h
  · cases h
  · split at h
    · cases h
    · split at h
      · assumption
      · cases h

/-- A sign is no letter, no digit and no quote. -/
theorem of_shape_eq_symbol {c : Char} (h : Shape.of c = .symbol) :
    isLetter c = false ∧ c.isDigit = false ∧ c ≠ '"' := by
  refine ⟨?_, ?_, ?_⟩
  · cases hletter : isLetter c with
    | false => rfl
    | true => rw [shape_of_letter hletter] at h; cases h
  · cases hdigit : c.isDigit with
    | false => rfl
    | true => rw [shape_of_digit hdigit] at h; cases h
  · rintro rfl
    rw [shape_of_quote] at h
    cases h

/-! ## Tables of words and symbols -/

theorem lookup_eq_none_iff_not_mem {α β : Type} [BEq α] [LawfulBEq α] {table : List (α × β)}
    {key : α} : table.lookup key = none ↔ ∀ value, (key, value) ∉ table := by
  rw [List.lookup_eq_none_iff]
  constructor
  · intro h value hmem
    simpa using h _ hmem
  · rintro h ⟨k, v⟩ hmem
    rw [bne_iff_ne]
    rintro rfl
    exact h v hmem

theorem Kind.mem_of_ofSymbol? {text : String} {kind : Kind} (h : Kind.ofSymbol? text = some kind) :
    (text, kind) ∈ symbols := by
  obtain ⟨before, after, hsplit, _⟩ := List.lookup_eq_some_iff.1 h
  simp [hsplit]

/-- A symbol is a sign alone, or a sign that an equals sign joins. -/
structure IsSymbol (first : Char) (body : List Char) : Prop where
  shape : Shape.of first = .symbol
  notBlank : isBlank first = false
  notComment : first ≠ '#'
  body : body = [] ∨ first ∈ equalsPartners ∧ body = ['=']

/-- Every sign that an equals sign joins makes a symbol with it. -/
theorem ofSymbol?_joined {first : Char} (h : first ∈ equalsPartners) :
    Kind.ofSymbol? (String.ofList [first, '=']) ≠ none := by
  have table : equalsPartners.all fun first =>
      Kind.ofSymbol? (String.ofList [first, '=']) ≠ none := by
    decide +kernel
  exact of_decide_eq_true (List.all_eq_true.1 table first h)

theorem mem_symbols_cases {text : String} {kind : Kind} (h : (text, kind) ∈ symbols) :
    Kind.ofSymbol? text = some kind ∧ ∃ first body, text.toList = first :: body ∧
      IsSymbol first body := by
  have table : ∀ entry ∈ symbols, Kind.ofSymbol? entry.1 = some entry.2 ∧
      entry.1.toList = entry.1.toList.headD ' ' :: entry.1.toList.tail ∧
      Shape.of (entry.1.toList.headD ' ') = .symbol ∧
      isBlank (entry.1.toList.headD ' ') = false ∧ entry.1.toList.headD ' ' ≠ '#' ∧
      (entry.1.toList.tail = [] ∨
        entry.1.toList.headD ' ' ∈ equalsPartners ∧ entry.1.toList.tail = ['=']) := by
    decide +kernel
  obtain ⟨hkind, hsplit, hshape, hblank, hcomment, hbody⟩ := table _ h
  exact ⟨hkind, _, _, hsplit, hshape, hblank, hcomment, hbody⟩

theorem mem_reservedWords_cases {word : String} {kind : Kind} (h : (word, kind) ∈ reservedWords) :
    ∃ first body, word.toList = first :: body ∧ isLetter first = true ∧
      ∀ c ∈ body, isLetter c = true ∨ c.isDigit = true := by
  have table : ∀ entry ∈ reservedWords, entry.1.toList ≠ [] ∧ entry.1.toList.all isLetter := by
    decide +kernel
  obtain ⟨hne, hall⟩ := table _ h
  have hletters := List.all_eq_true.1 hall
  cases hword : word.toList with
  | nil => exact absurd hword hne
  | cons first body =>
    simp only [hword, List.mem_cons, forall_eq_or_imp] at hletters
    exact ⟨first, body, rfl, hletters.1, fun c hc => .inl (hletters.2 c hc)⟩

/-- A reserved word has a kind of its own. -/
theorem kind_ne_of_mem_reservedWords {word : String} {kind : Kind}
    (h : (word, kind) ∈ reservedWords) :
    kind ≠ .eof ∧ kind ≠ .error ∧ kind ≠ .literal .string := by
  have table : ∀ entry ∈ reservedWords,
      entry.2 ≠ .eof ∧ entry.2 ≠ .error ∧ entry.2 ≠ .literal .string := by
    decide
  exact table _ h

theorem kind_ne_of_mem_symbols {text : String} {kind : Kind} (h : (text, kind) ∈ symbols) :
    kind ≠ .eof ∧ kind ≠ .error ∧ kind ≠ .literal .string := by
  have table : ∀ entry ∈ symbols,
      entry.2 ≠ .eof ∧ entry.2 ≠ .error ∧ entry.2 ≠ .literal .string := by
    decide
  exact table _ h

/-! ## The classification by shape -/

section
variable {first : Char}

theorem classify_of_word (h : Shape.of first = .word) (body : List Char) :
    Lexeme.classify first body =
      ⟨Lexeme.classifyWord first (String.ofList (first :: body)), String.ofList (first :: body)⟩ := by
  simp only [Lexeme.classify, h]

theorem classify_of_number (h : Shape.of first = .number) (body : List Char) :
    Lexeme.classify first body =
      ⟨.ok (.literal (Lexeme.classifyNumber body)), String.ofList (first :: body)⟩ := by
  simp only [Lexeme.classify, h]

theorem classify_of_symbol (h : Shape.of first = .symbol) (body : List Char) :
    Lexeme.classify first body =
      ⟨Lexeme.classifySymbol (String.ofList (first :: body)), String.ofList (first :: body)⟩ := by
  simp only [Lexeme.classify, h]

end

theorem classifyNumber_of_digits {digits : List Char} (h : ∀ c ∈ digits, c.isDigit = true) :
    Lexeme.classifyNumber digits = .integer := by
  have hdot : '.' ∉ digits := fun hmem => absurd (h _ hmem) (by decide)
  simp [Lexeme.classifyNumber, hdot]

theorem classifyNumber_of_dot (whole fraction : List Char) :
    Lexeme.classifyNumber (whole ++ '.' :: fraction) = .real := by
  simp [Lexeme.classifyNumber]

theorem classify_closed (inner : List Char) :
    Lexeme.classify '"' (inner ++ ['"']) = ⟨.ok (.literal .string), String.ofList inner⟩ := by
  simp [Lexeme.classify, shape_of_quote]

theorem classify_open {inner : List Char} (h : '"' ∉ inner) :
    Lexeme.classify '"' inner =
      ⟨.error .unterminatedString, String.ofList ('"' :: inner)⟩ := by
  have hlast : inner.getLast? ≠ some '"' := fun he => h (List.mem_of_getLast? he)
  simp [Lexeme.classify, shape_of_quote, hlast]

/-! ## From the text to the token -/

theorem spells_classifyWord {first : Char} {body : List Char} (hfirst : isLetter first = true)
    (hbody : ∀ c ∈ body, isLetter c = true ∨ c.isDigit = true) :
    Spells (Lexeme.kind ⟨Lexeme.classifyWord first (String.ofList (first :: body)),
      String.ofList (first :: body)⟩) (String.ofList (first :: body)) (first :: body) := by
  unfold Lexeme.classifyWord Lexeme.kind
  cases hword : Kind.ofReservedWord? (String.ofList (first :: body)) with
  | some kind =>
    have := Spells.reserved (Kind.ofReservedWord?_eq_some_iff.1 hword)
    rwa [String.toList_ofList] at this
  | none =>
    have hname : IsName first body := ⟨hfirst, hbody, lookup_eq_none_iff_not_mem.1 hword⟩
    cases hlower : isLowercase first with
    | true => exact .identifier hname hlower
    | false => exact .capitalized hname hlower

theorem spells_classifyNumber {first : Char} {body whole : List Char}
    (hfirst : first.isDigit = true) (hwhole : ∀ c ∈ whole, c.isDigit = true)
    (hbody : body = whole ∨
      ∃ fraction, (∀ c ∈ fraction, c.isDigit = true) ∧ body = whole ++ '.' :: fraction) :
    Spells (.literal (Lexeme.classifyNumber body)) (String.ofList (first :: body))
      (first :: body) := by
  have hdigits : ∀ c ∈ first :: whole, c.isDigit = true := List.forall_mem_cons.2 ⟨hfirst, hwhole⟩
  rcases hbody with rfl | ⟨fraction, hfraction, rfl⟩
  · rw [classifyNumber_of_digits hwhole]
    exact .integer hdigits
  · rw [classifyNumber_of_dot]
    exact .real hdigits hfraction

theorem spells_classifySymbol {first : Char} {body : List Char} (hblank : isBlank first = false)
    (hcomment : first ≠ '#') (hshape : Shape.of first = .symbol)
    (hbody : body = [] ∨ first ∈ equalsPartners ∧ body = ['=']) :
    Spells (Lexeme.kind ⟨Lexeme.classifySymbol (String.ofList (first :: body)),
      String.ofList (first :: body)⟩) (String.ofList (first :: body)) (first :: body) := by
  unfold Lexeme.classifySymbol Lexeme.kind
  cases hsymbol : Kind.ofSymbol? (String.ofList (first :: body)) with
  | some kind =>
    have := Spells.symbol (Kind.mem_of_ofSymbol? hsymbol)
    rwa [String.toList_ofList] at this
  | none =>
    rcases hbody with rfl | ⟨hpartner, rfl⟩
    · obtain ⟨hletter, hdigit, hquote⟩ := of_shape_eq_symbol hshape
      exact .stray ⟨hblank, hcomment, hletter, hdigit, hquote,
        lookup_eq_none_iff_not_mem.1 hsymbol⟩
    · exact absurd hsymbol (ofSymbol?_joined hpartner)

/-- Where a lexeme begins, it is spelled as it is classified. -/
theorem spells_classify {first : Char} {body : List Char} (hblank : isBlank first = false)
    (hcomment : first ≠ '#') (hadm : Admits first body) :
    Spells (Lexeme.classify first body).kind (Lexeme.classify first body).text
      (first :: body) := by
  unfold Admits at hadm
  cases hshape : Shape.of first with
  | word =>
    rw [hshape] at hadm
    rw [classify_of_word hshape]
    exact spells_classifyWord (isLetter_of_shape hshape) hadm
  | number =>
    rw [hshape] at hadm
    rw [classify_of_number hshape]
    obtain ⟨whole, hwhole, hbody⟩ := hadm
    exact spells_classifyNumber (isDigit_of_shape hshape) hwhole hbody
  | quoted =>
    rw [hshape] at hadm
    obtain rfl := eq_quote_of_shape hshape
    obtain ⟨inner, hinner, rfl | rfl⟩ := hadm
    · rw [classify_open hinner]
      exact .unterminated hinner
    · rw [classify_closed]
      exact .string hinner
  | symbol =>
    rw [hshape] at hadm
    rw [classify_of_symbol hshape]
    exact spells_classifySymbol hblank hcomment hshape hadm

/-! ## From the token to the text -/

theorem IsName.ofReservedWord? {first : Char} {body : List Char} (h : IsName first body) :
    Kind.ofReservedWord? (String.ofList (first :: body)) = none :=
  lookup_eq_none_iff_not_mem.2 h.notReserved

/-- A spelling is classified as the token that it spells. -/
theorem Spells.classify {kind : Kind} {lexeme : String} {source : List Char}
    (h : Spells kind lexeme source) :
    ∃ first body, source = first :: body ∧
      ∀ line, (Lexeme.classify first body).token line = ⟨kind, lexeme, line⟩ := by
  cases h with
  | reserved hmem =>
    obtain ⟨first, body, hword, hfirst, _⟩ := mem_reservedWords_cases hmem
    refine ⟨first, body, hword, fun line => ?_⟩
    have hback : String.ofList (first :: body) = lexeme := by rw [← hword, String.ofList_toList]
    rw [classify_of_word (shape_of_letter hfirst), hback, Lexeme.classifyWord,
      Kind.ofReservedWord?_eq_some_iff.2 hmem]
    rfl
  | identifier hname hlower =>
    refine ⟨_, _, rfl, fun line => ?_⟩
    rw [classify_of_word (shape_of_letter hname.letter), Lexeme.classifyWord,
      hname.ofReservedWord?, hlower]
    rfl
  | capitalized hname hlower =>
    refine ⟨_, _, rfl, fun line => ?_⟩
    rw [classify_of_word (shape_of_letter hname.letter), Lexeme.classifyWord,
      hname.ofReservedWord?, hlower]
    rfl
  | integer hdigits =>
    obtain ⟨hfirst, hrest⟩ := List.forall_mem_cons.1 hdigits
    refine ⟨_, _, rfl, fun line => ?_⟩
    rw [classify_of_number (shape_of_digit hfirst), classifyNumber_of_digits hrest]
    rfl
  | real hdigits hfraction =>
    obtain ⟨hfirst, _⟩ := List.forall_mem_cons.1 hdigits
    refine ⟨_, _, rfl, fun line => ?_⟩
    rw [classify_of_number (shape_of_digit hfirst), classifyNumber_of_dot]
    rfl
  | string hinner =>
    refine ⟨_, _, rfl, fun line => ?_⟩
    rw [classify_closed]
    rfl
  | unterminated hinner =>
    refine ⟨_, _, rfl, fun line => ?_⟩
    rw [classify_open hinner]
    rfl
  | symbol hmem =>
    obtain ⟨hkind, first, body, htext, hsymbol⟩ := mem_symbols_cases hmem
    refine ⟨first, body, htext, fun line => ?_⟩
    have hback : String.ofList (first :: body) = lexeme := by rw [← htext, String.ofList_toList]
    rw [classify_of_symbol hsymbol.shape, hback, Lexeme.classifySymbol, hkind]
    rfl
  | stray hstray =>
    refine ⟨_, _, rfl, fun line => ?_⟩
    rw [classify_of_symbol (shape_of_symbol hstray.notLetter hstray.notDigit hstray.notQuote),
      Lexeme.classifySymbol, ← String.singleton_eq_ofList,
      show Kind.ofSymbol? _ = none from lookup_eq_none_iff_not_mem.2 hstray.notSymbol]
    rfl

/-- A text spells at most one token. -/
theorem Spells.unique {kind kind' : Kind} {lexeme lexeme' : String} {source : List Char}
    (h : Spells kind lexeme source) (h' : Spells kind' lexeme' source) :
    kind = kind' ∧ lexeme = lexeme' := by
  obtain ⟨first, body, hsource, htoken⟩ := h.classify
  obtain ⟨first', body', hsource', htoken'⟩ := h'.classify
  obtain ⟨rfl, rfl⟩ := List.cons.inj (hsource.symm.trans hsource')
  have heq := (htoken 1).symm.trans (htoken' 1)
  simp only [Token.mk.injEq, and_true] at heq
  exact heq

/-- The end token is not spelled. -/
theorem Spells.ne_eof {kind : Kind} {lexeme : String} {source : List Char}
    (h : Spells kind lexeme source) : kind ≠ .eof := by
  cases h with
  | reserved hmem => exact (kind_ne_of_mem_reservedWords hmem).1
  | symbol hmem => exact (kind_ne_of_mem_symbols hmem).1
  | _ => simp

end Lexis
