import Lexis.Proofs.Printing.WellFormed

/-!
# What a lexeme goes on with

A lexeme is as long as it can be, and each class of lexemes holds the beginnings of its texts
(`Admits.of_prefix`). So the character behind a lexeme decides alone whether it goes on
(`cutBody_append_iff`). Which characters these are can be told from the token (`Token.GoesOn`,
`Spells.admits_concat_iff`): letters and digits go on with a word, digits with a number, a dot with
an integer, and an equals sign with the five signs that it joins.
-/

set_option autoImplicit false

namespace Lexis

/-! ## Beginnings of lexemes -/

theorem Admits.of_prefix {first : Char} {text other : List Char} (h : Admits first text)
    (hpre : other <+: text) : Admits first other := by
  unfold Admits at h ⊢
  cases hshape : Shape.of first with
  | word =>
    rw [hshape] at h
    exact fun c hc => h c (hpre.subset hc)
  | number =>
    rw [hshape] at h
    obtain ⟨whole, hwhole, rfl | ⟨fraction, hfraction, rfl⟩⟩ := h
    · exact ⟨other, fun c hc => hwhole c (hpre.subset hc), .inl rfl⟩
    · obtain ⟨more, hmore⟩ := hpre
      rcases List.append_eq_append_iff.1 hmore with ⟨left, rfl, _⟩ | ⟨left, rfl, hleft⟩
      · exact ⟨other, fun c hc => hwhole c (List.mem_append_left _ hc), .inl rfl⟩
      · cases left with
        | nil => exact ⟨whole, hwhole, .inl (List.append_nil whole)⟩
        | cons dot left =>
          obtain ⟨rfl, rfl⟩ := List.cons.inj hleft
          exact ⟨whole, hwhole, .inr ⟨left, fun c hc => hfraction c (List.mem_append_left _ hc),
            rfl⟩⟩
  | quoted =>
    rw [hshape] at h
    obtain ⟨inner, hinner, rfl | rfl⟩ := h
    · exact ⟨other, fun hmem => hinner (hpre.subset hmem), .inl rfl⟩
    · rcases List.prefix_concat_iff.1 hpre with rfl | hpre
      · exact ⟨inner, hinner, .inr rfl⟩
      · exact ⟨other, fun hmem => hinner (hpre.subset hmem), .inl rfl⟩
  | symbol =>
    rw [hshape] at h
    rcases h with rfl | ⟨hfirst, rfl⟩
    · exact .inl (List.prefix_nil.1 hpre)
    · rw [← List.nil_append ['='], List.prefix_concat_iff, List.prefix_nil] at hpre
      rcases hpre with rfl | rfl
      · exact .inr ⟨hfirst, rfl⟩
      · exact .inl rfl

/-- A lexeme ends where the next character does not go on with it. -/
theorem cutBody_append_iff {first : Char} {body rest : List Char} (h : Admits first body) :
    cutBody first (body ++ rest) = (body, rest) ↔
      ∀ c, rest.head? = some c → ¬ Admits first (body ++ [c]) := by
  have hwhole := cutBody_append first (body ++ rest)
  have hlonger := length_le_cutBody (List.prefix_append body rest) h
  have hadm := admits_cutBody first (body ++ rest)
  constructor
  · intro hcut c hc hmore
    obtain ⟨others, rfl⟩ := List.head?_eq_some_iff.1 hc
    have hpre : body ++ [c] <+: body ++ c :: others := ⟨others, by simp⟩
    have hle := length_le_cutBody hpre hmore
    rw [hcut, List.length_append, List.length_singleton] at hle
    exact Nat.not_succ_le_self _ hle
  · intro hstop
    obtain ⟨found, hfound⟩ : ∃ found, (cutBody first (body ++ rest)).1 = body ++ found := by
      have hpre : (cutBody first (body ++ rest)).1 <+: body ++ rest := ⟨_, hwhole⟩
      obtain ⟨found, hfound⟩ :=
        List.prefix_of_prefix_length_le (List.prefix_append body rest) hpre hlonger
      exact ⟨found, hfound.symm⟩
    rw [hfound, List.append_assoc, List.append_cancel_left_eq] at hwhole
    cases found with
    | nil => exact Prod.ext (by rw [hfound, List.append_nil]) hwhole
    | cons c found =>
      refine absurd (hadm.of_prefix ⟨found, ?_⟩) (hstop c ?_)
      · rw [hfound, List.append_assoc, List.singleton_append]
      · rw [← hwhole, List.cons_append, List.head?_cons]

/-! ## One character more -/

section
variable {first c : Char}

theorem admits_concat_of_word {body : List Char} (hfirst : isLetter first = true)
    (hbody : ∀ c ∈ body, isLetter c = true ∨ c.isDigit = true) :
    Admits first (body ++ [c]) ↔ isLetter c = true ∨ c.isDigit = true := by
  simp only [Admits, shape_of_letter hfirst, List.forall_mem_append, List.forall_mem_singleton]
  exact ⟨And.right, And.intro hbody⟩

theorem not_mem_dot {digits : List Char} (h : ∀ c ∈ digits, c.isDigit = true) : '.' ∉ digits :=
  fun hmem => absurd (h _ hmem) (by decide)

theorem admits_concat_of_digits {digits : List Char} (hfirst : first.isDigit = true)
    (hdigits : ∀ c ∈ digits, c.isDigit = true) :
    Admits first (digits ++ [c]) ↔ c.isDigit = true ∨ c = '.' := by
  simp only [Admits, shape_of_digit hfirst]
  constructor
  · intro h
    obtain ⟨whole, hwhole, hbody | ⟨fraction, _, hbody⟩⟩ := h
    · exact .inl (hwhole c (by rw [← hbody]; simp))
    · have hdot : '.' ∈ digits ++ [c] := by
        rw [hbody]
        simp
      rcases List.mem_append.1 hdot with hdot | hdot
      · exact absurd hdot (not_mem_dot hdigits)
      · exact .inr (List.mem_singleton.1 hdot).symm
  · intro h
    rcases h with hdigit | rfl
    · refine ⟨digits ++ [c], ?_, .inl rfl⟩
      exact List.forall_mem_append.2 ⟨hdigits, List.forall_mem_singleton.2 hdigit⟩
    · exact ⟨digits, hdigits, .inr ⟨[], by simp, rfl⟩⟩

theorem admits_concat_of_dot {digits fraction : List Char} (hfirst : first.isDigit = true)
    (hdigits : ∀ c ∈ digits, c.isDigit = true) (hfraction : ∀ c ∈ fraction, c.isDigit = true) :
    Admits first (digits ++ '.' :: fraction ++ [c]) ↔ c.isDigit = true := by
  simp only [Admits, shape_of_digit hfirst]
  constructor
  · intro h
    obtain ⟨whole, hwhole, hbody | ⟨others, hothers, hbody⟩⟩ := h
    · exact absurd (hbody ▸ by simp) (not_mem_dot hwhole)
    · -- a second dot would be one too many
      have hcount := congrArg (List.count '.') hbody
      have hmem : c ∈ whole ++ '.' :: others := by
        rw [← hbody]
        simp
      simp only [List.count_append, List.count_cons_self,
        List.count_eq_zero.2 (not_mem_dot hdigits), List.count_eq_zero.2 (not_mem_dot hfraction),
        List.count_eq_zero.2 (not_mem_dot hwhole), List.count_eq_zero.2 (not_mem_dot hothers)]
        at hcount
      rcases List.mem_append.1 hmem with hmem | hmem
      · exact hwhole c hmem
      · rcases List.mem_cons.1 hmem with rfl | hmem
        · simp at hcount
        · exact hothers c hmem
  · intro hdigit
    refine ⟨digits, hdigits, .inr ⟨fraction ++ [c], ?_, by simp⟩⟩
    exact List.forall_mem_append.2 ⟨hfraction, List.forall_mem_singleton.2 hdigit⟩

/-- Nothing goes on with a string that is closed. -/
theorem not_admits_concat_of_closed (inner : List Char) :
    ¬ Admits '"' (inner ++ ['"'] ++ [c]) := by
  simp only [Admits, shape_of_quote]
  intro h
  obtain ⟨other, hother, hbody | hbody⟩ := h
  · exact hother (hbody ▸ by simp)
  · obtain ⟨rfl, _⟩ := List.append_inj' hbody rfl
    exact hother (by simp)

theorem admits_concat_of_symbol {body : List Char} (hshape : Shape.of first = .symbol)
    (hbody : body = [] ∨ first ∈ equalsPartners ∧ body = ['=']) :
    Admits first (body ++ [c]) ↔ body = [] ∧ first ∈ equalsPartners ∧ c = '=' := by
  simp only [Admits, hshape]
  rcases hbody with rfl | ⟨_, rfl⟩ <;> simp

end

/-! ## Told from the token -/

namespace Token

/-- A reserved word, an identifier, or an error that begins with a letter. -/
def IsWord (token : Token) : Prop :=
  (token.lexeme, token.kind) ∈ reservedWords ∨ token.kind = .identifier ∨
    token.kind = .error ∧ ∃ c, token.lexeme.toList.head? = some c ∧ isLetter c = true

/-- A sign alone that an equals sign makes another symbol of. -/
def IsHalf (token : Token) : Prop :=
  token.kind = .delimiter .colon ∨ token.kind = .operator .less ∨
    token.kind = .operator .greater ∨
    token.kind = .error ∧ (token.lexeme = "=" ∨ token.lexeme = "!")

/-- With `c` right behind it the token would not end where it does. -/
def GoesOn (token : Token) (c : Char) : Prop :=
  token.IsWord ∧ (isLetter c = true ∨ c.isDigit = true) ∨
    token.kind = .literal .integer ∧ (c.isDigit = true ∨ c = '.') ∨
    token.kind = .literal .real ∧ c.isDigit = true ∨
    token.IsHalf ∧ c = '='

/-- No token goes on over a blank or into a comment. -/
theorem GoesOn.begins {token : Token} {c : Char} (h : token.GoesOn c) :
    isBlank c = false ∧ c ≠ '#' := by
  have hletter : ∀ c, isLetter c = true → c ≠ '#' := by
    rintro c hc rfl
    exact absurd hc (by decide)
  have hdigit : ∀ c : Char, c.isDigit = true → c ≠ '#' := by
    rintro c hc rfl
    exact absurd hc (by decide)
  rcases h with ⟨_, hc | hc⟩ | ⟨_, hc | rfl⟩ | ⟨_, hc⟩ | ⟨_, rfl⟩
  · exact ⟨isBlank_of_isLetter hc, hletter c hc⟩
  · exact ⟨isBlank_of_isDigit hc, hdigit c hc⟩
  · exact ⟨isBlank_of_isDigit hc, hdigit c hc⟩
  · decide
  · exact ⟨isBlank_of_isDigit hc, hdigit c hc⟩
  · decide

end Token

section
variable {line : Nat} {c : Char}

/-- The kinds of reserved words are no kinds of numbers, signs or errors. -/
theorem goesOn_reserved_iff {word : String} {kind : Kind} (h : (word, kind) ∈ reservedWords) :
    (Token.mk kind word line).GoesOn c ↔ isLetter c = true ∨ c.isDigit = true := by
  have table : ∀ entry ∈ reservedWords, entry.2 ≠ .literal .integer ∧ entry.2 ≠ .literal .real ∧
      entry.2 ≠ .delimiter .colon ∧ entry.2 ≠ .operator .less ∧ entry.2 ≠ .operator .greater := by
    decide
  obtain ⟨hinteger, hreal, hcolon, hless, hgreater⟩ := table _ h
  have herror := (kind_ne_of_mem_reservedWords h).2.1
  simp_all [Token.GoesOn, Token.IsWord, Token.IsHalf]

/-- Of the symbols, the signs that an equals sign joins go on with it. -/
theorem goesOn_symbol_iff {text : String} {kind : Kind} {first : Char} {body : List Char}
    (h : (text, kind) ∈ symbols) (htext : text.toList = first :: body) :
    (Token.mk kind text line).GoesOn c ↔ body = [] ∧ first ∈ equalsPartners ∧ c = '=' := by
  have table : ∀ entry ∈ symbols, entry.2 ≠ .identifier ∧ entry.2 ≠ .literal .integer ∧
      entry.2 ≠ .literal .real ∧ (∀ reserved ∈ reservedWords, reserved.2 ≠ entry.2) ∧
      ((entry.2 = .delimiter .colon ∨ entry.2 = .operator .less ∨ entry.2 = .operator .greater) ↔
        entry.1.toList.tail = [] ∧ entry.1.toList.headD ' ' ∈ equalsPartners) := by
    decide +kernel
  obtain ⟨hidentifier, hinteger, hreal, hreserved, hhalf⟩ := table _ h
  have herror := (kind_ne_of_mem_symbols h).2.1
  have hword : (text, kind) ∉ reservedWords := fun hmem => hreserved _ hmem rfl
  simp only [htext, List.tail_cons, List.headD_cons] at hhalf
  simp only [Token.GoesOn, Token.IsWord, Token.IsHalf, hword, hidentifier, herror, hinteger, hreal,
    false_and, or_false, false_or, hhalf, and_assoc]

theorem goesOn_literal_iff {lexeme : String} {form : Literal} :
    (Token.mk (.literal form) lexeme line).GoesOn c ↔
      form = .integer ∧ (c.isDigit = true ∨ c = '.') ∨ form = .real ∧ c.isDigit = true := by
  have table : ∀ entry ∈ reservedWords, ∀ form ∈ Literal.all, entry.2 ≠ .literal form := by
    decide
  have hword : (lexeme, Kind.literal form) ∉ reservedWords :=
    fun hmem => table _ hmem form (Literal.mem_all form) rfl
  simp [Token.GoesOn, Token.IsWord, Token.IsHalf, hword]

/-- An error goes on as a word when it begins with a letter. -/
theorem goesOn_error_iff {lexeme : String} {first : Char}
    (hhead : lexeme.toList.head? = some first) :
    (Token.mk .error lexeme line).GoesOn c ↔
      isLetter first = true ∧ (isLetter c = true ∨ c.isDigit = true) ∨
        (lexeme = "=" ∨ lexeme = "!") ∧ c = '=' := by
  have hword : (lexeme, Kind.error) ∉ reservedWords :=
    fun hmem => (kind_ne_of_mem_reservedWords hmem).2.1 rfl
  simp [Token.GoesOn, Token.IsWord, Token.IsHalf, hword, hhead]

end

/-- Of the signs that an equals sign joins, two are no symbols alone. -/
theorem IsStray.mem_equalsPartners_iff {c : Char} (h : IsStray c) :
    c ∈ equalsPartners ↔ String.singleton c = "=" ∨ String.singleton c = "!" := by
  have table : equalsPartners.all fun sign =>
      decide ((∃ entry ∈ symbols, entry.1 = String.singleton sign) ∨
        String.singleton sign = "=" ∨ String.singleton sign = "!") := by
    decide +kernel
  constructor
  · intro hmem
    rcases of_decide_eq_true (List.all_eq_true.1 table c hmem) with
      ⟨⟨text, kind⟩, hentry, rfl⟩ | hsign
    · exact absurd hentry (h.notSymbol kind)
    · exact hsign
  · intro hsign
    rcases hsign with hsign | hsign
    · obtain rfl : c = '=' := by simpa [← String.toList_inj] using hsign
      decide
    · obtain rfl : c = '!' := by simpa [← String.toList_inj] using hsign
      decide

/-- The characters with which a spelling goes on are those of its token. -/
theorem Spells.admits_concat_iff {kind : Kind} {lexeme : String} {first c : Char}
    {body : List Char} {line : Nat} (h : Spells kind lexeme (first :: body))
    (hclosed : ¬ (Token.mk kind lexeme line).IsOpen) :
    Admits first (body ++ [c]) ↔ (Token.mk kind lexeme line).GoesOn c := by
  generalize hsource : first :: body = source at h
  cases h with
  | reserved hmem =>
    obtain ⟨first', body', hsplit, hletter, hbody⟩ := mem_reservedWords_cases hmem
    obtain ⟨rfl, rfl⟩ := List.cons.inj (hsource.trans hsplit)
    rw [admits_concat_of_word hletter hbody, goesOn_reserved_iff hmem]
  | identifier hname _ =>
    obtain ⟨rfl, rfl⟩ := List.cons.inj hsource
    rw [admits_concat_of_word hname.letter hname.wordChars]
    simp [Token.GoesOn, Token.IsWord, Token.IsHalf]
  | capitalized hname _ =>
    obtain ⟨rfl, rfl⟩ := List.cons.inj hsource
    have hhead : (String.ofList (first :: body)).toList.head? = some first := by
      rw [String.toList_ofList, List.head?_cons]
    have hsign : ¬ (String.ofList (first :: body) = "=" ∨ String.ofList (first :: body) = "!") := by
      rintro (hsign | hsign) <;> rw [hsign] at hhead <;> cases hhead <;>
        exact absurd hname.letter (by decide)
    rw [admits_concat_of_word hname.letter hname.wordChars, goesOn_error_iff hhead]
    simp only [hname.letter, hsign, true_and, false_and, or_false]
  | integer hdigits =>
    obtain ⟨rfl, rfl⟩ := List.cons.inj hsource
    obtain ⟨hfirst, hbody⟩ := List.forall_mem_cons.1 hdigits
    rw [admits_concat_of_digits hfirst hbody, goesOn_literal_iff]
    simp
  | real hdigits hfraction =>
    obtain ⟨rfl, rfl⟩ := List.cons.inj hsource
    obtain ⟨hfirst, hbody⟩ := List.forall_mem_cons.1 hdigits
    rw [admits_concat_of_dot hfirst hbody hfraction, goesOn_literal_iff]
    simp
  | string hinner =>
    obtain ⟨rfl, rfl⟩ := List.cons.inj hsource
    rw [goesOn_literal_iff]
    simpa using not_admits_concat_of_closed _
  | unterminated hinner =>
    exact absurd ⟨rfl, by rw [String.toList_ofList]; rfl⟩ hclosed
  | symbol hmem =>
    obtain ⟨_, first', body', hsplit, hsymbol⟩ := mem_symbols_cases hmem
    obtain ⟨rfl, rfl⟩ := List.cons.inj (hsource.trans hsplit)
    rw [admits_concat_of_symbol hsymbol.shape hsymbol.body, goesOn_symbol_iff hmem hsplit]
  | @stray sign hstray =>
    obtain ⟨rfl, rfl⟩ := List.cons.inj hsource
    have hshape := shape_of_symbol hstray.notLetter hstray.notDigit hstray.notQuote
    have hhead : (String.singleton first).toList.head? = some first := by
      rw [String.toList_singleton, List.head?_cons]
    rw [admits_concat_of_symbol hshape (.inl rfl), goesOn_error_iff hhead,
      hstray.mem_equalsPartners_iff]
    simp only [hstray.notLetter, true_and, false_or, Bool.false_eq_true, false_and]

/-- Nor does a spelling go on over a blank or into a comment, if it is not an open string. -/
theorem Spells.not_admits_concat {kind : Kind} {lexeme : String} {first c : Char}
    {body : List Char} {line : Nat} (h : Spells kind lexeme (first :: body))
    (hclosed : ¬ (Token.mk kind lexeme line).IsOpen) (hc : isBlank c = true ∨ c = '#') :
    ¬ Admits first (body ++ [c]) := by
  intro hmore
  obtain ⟨hblank, hcomment⟩ := ((h.admits_concat_iff hclosed).1 hmore).begins
  rcases hc with hc | hc
  · rw [hc] at hblank
    cases hblank
  · exact hcomment hc

end Lexis
