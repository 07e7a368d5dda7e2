import Lexis.Proofs.Lexeme.Continuation
import Lexis.Proofs.Line.Cuts

/-!
# A line of separated tokens

No lexeme goes on over a space, except a string that is not closed (`Spells.cutBody_append`). So
the tokens of a spaced line are cut from it as they were written (`tokens_spaced`). The other way
round, behind a string that is not closed nothing is cut from a line (`openLast_cuts`).
-/

set_option autoImplicit false

namespace Lexis

/-- Nothing with which a lexeme goes on: the end of the line, or a space. -/
def Separates (rest : List Char) : Prop :=
  rest = [] ∨ ∃ more, rest = ' ' :: more

/-! ## Each spelling in front of a space -/

/-- A lexeme begins where no blank and no comment begins. -/
def Begins (first : Char) : Prop :=
  isBlank first = false ∧ first ≠ '#'

theorem begins_of_isLetter {first : Char} (h : isLetter first = true) : Begins first := by
  refine ⟨isBlank_of_isLetter h, ?_⟩
  rintro rfl
  exact absurd h (by decide)

theorem begins_of_isDigit {first : Char} (h : first.isDigit = true) : Begins first := by
  refine ⟨isBlank_of_isDigit h, ?_⟩
  rintro rfl
  exact absurd h (by decide)

theorem begins_quote : Begins '"' := by
  refine ⟨?_, ?_⟩ <;> decide

section
variable {first : Char} {body : List Char}

theorem admits_word (hfirst : isLetter first = true)
    (hbody : ∀ c ∈ body, isLetter c = true ∨ c.isDigit = true) : Admits first body := by
  rw [Admits, shape_of_letter hfirst]
  exact hbody

theorem admits_digits {digits : List Char} (hdigits : ∀ c ∈ first :: digits, c.isDigit = true) :
    Admits first digits := by
  obtain ⟨hfirst, hbody⟩ := List.forall_mem_cons.1 hdigits
  rw [Admits, shape_of_digit hfirst]
  exact ⟨digits, hbody, .inl rfl⟩

theorem admits_fraction {digits fraction : List Char}
    (hdigits : ∀ c ∈ first :: digits, c.isDigit = true)
    (hfraction : ∀ c ∈ fraction, c.isDigit = true) : Admits first (digits ++ '.' :: fraction) := by
  obtain ⟨hfirst, hbody⟩ := List.forall_mem_cons.1 hdigits
  rw [Admits, shape_of_digit hfirst]
  exact ⟨digits, hbody, .inr ⟨fraction, hfraction, rfl⟩⟩

theorem admits_quoted {inner : List Char} (hinner : '"' ∉ inner)
    (hbody : body = inner ∨ body = inner ++ ['"']) : Admits '"' body := by
  rw [Admits, shape_of_quote]
  exact ⟨inner, hinner, hbody⟩

theorem admits_symbol (hshape : Shape.of first = .symbol)
    (hbody : body = [] ∨ first ∈ equalsPartners ∧ body = ['=']) : Admits first body := by
  rw [Admits, hshape]
  exact hbody

/-- Every spelling is a text of the class that its first character selects. -/
theorem Spells.begins {kind : Kind} {lexeme : String} (h : Spells kind lexeme (first :: body)) :
    Begins first ∧ Admits first body := by
  generalize hsource : first :: body = source at h
  cases h with
  | reserved hmem =>
    obtain ⟨first', body', hsplit, hletter, hbody⟩ := mem_reservedWords_cases hmem
    obtain ⟨rfl, rfl⟩ := List.cons.inj (hsource.trans hsplit)
    exact ⟨begins_of_isLetter hletter, admits_word hletter hbody⟩
  | identifier hname _ =>
    obtain ⟨rfl, rfl⟩ := List.cons.inj hsource
    exact ⟨begins_of_isLetter hname.letter, admits_word hname.letter hname.wordChars⟩
  | capitalized hname _ =>
    obtain ⟨rfl, rfl⟩ := List.cons.inj hsource
    exact ⟨begins_of_isLetter hname.letter, admits_word hname.letter hname.wordChars⟩
  | integer hdigits =>
    obtain ⟨rfl, rfl⟩ := List.cons.inj hsource
    exact ⟨begins_of_isDigit (hdigits _ List.mem_cons_self), admits_digits hdigits⟩
  | real hdigits hfraction =>
    obtain ⟨rfl, rfl⟩ := List.cons.inj hsource
    exact ⟨begins_of_isDigit (hdigits _ List.mem_cons_self), admits_fraction hdigits hfraction⟩
  | string hinner =>
    obtain ⟨rfl, rfl⟩ := List.cons.inj hsource
    exact ⟨begins_quote, admits_quoted hinner (.inr rfl)⟩
  | unterminated hinner =>
    obtain ⟨rfl, rfl⟩ := List.cons.inj hsource
    exact ⟨begins_quote, admits_quoted hinner (.inl rfl)⟩
  | symbol hmem =>
    obtain ⟨_, first', body', hsplit, hsymbol⟩ := mem_symbols_cases hmem
    obtain ⟨rfl, rfl⟩ := List.cons.inj (hsource.trans hsplit)
    exact ⟨⟨hsymbol.notBlank, hsymbol.notComment⟩, admits_symbol hsymbol.shape hsymbol.body⟩
  | stray hstray =>
    obtain ⟨rfl, rfl⟩ := List.cons.inj hsource
    have hshape := shape_of_symbol hstray.notLetter hstray.notDigit hstray.notQuote
    exact ⟨⟨hstray.notBlank, hstray.notComment⟩, admits_symbol hshape (.inl rfl)⟩

/-- A spelling is cut off as it is, where nothing follows that it could go on with. -/
theorem Spells.cutBody_append {kind : Kind} {lexeme : String} {rest : List Char} {line : Nat}
    (h : Spells kind lexeme (first :: body)) (hrest : Separates rest)
    (hopen : (Token.mk kind lexeme line).IsOpen → rest = []) :
    cutBody first (body ++ rest) = (body, rest) := by
  refine (cutBody_append_iff h.begins.2).2 fun c hc => ?_
  rcases hrest with rfl | ⟨more, rfl⟩
  · cases hc
  · obtain rfl := Option.some.inj hc
    have hclosed : ¬ (Token.mk kind lexeme line).IsOpen :=
      fun hopened => absurd (hopen hopened) (List.cons_ne_nil _ _)
    exact h.not_admits_concat hclosed (.inl (by decide))

end

/-! ## A line of tokens -/

/-- A token that is written behind blanks is cut off first. -/
theorem cuts_written {token : Token} {rest blanks : List Char}
    (h : Spells token.kind token.lexeme token.written) (hrest : Separates rest)
    (hopen : token.IsOpen → rest = []) (hblanks : AllBlank blanks) (start : Nat) :
    ∃ cut next, cuts start (blanks ++ (token.written ++ rest)) = cut :: cuts next rest ∧
      cut.lexeme.token token.line = token := by
  obtain ⟨first, body, hsource, htoken⟩ := h.classify
  rw [hsource] at h
  obtain ⟨hblank, hcomment⟩ := h.begins.1
  have hcut : cutBody first (body ++ rest) = (body, rest) := h.cutBody_append hrest hopen
  rw [hsource, List.cons_append, cuts_of_lexeme start hblanks hblank hcomment, hcut]
  exact ⟨_, _, rfl, htoken token.line⟩

/-- The tokens of a spaced line are cut from it. -/
theorem tokens_spaced {tokens : List Token} {number : Nat}
    (hspelled : ∀ token ∈ tokens, Spells token.kind token.lexeme token.written)
    (hnumber : ∀ token ∈ tokens, token.line = number)
    (hopen : tokens.Pairwise fun a _ => ¬ a.IsOpen) {blanks : List Char}
    (hblanks : AllBlank blanks) (start : Nat) :
    ((cuts start (blanks ++ spaced tokens)).map fun cut => cut.lexeme.token number) = tokens := by
  induction tokens generalizing blanks start with
  | nil =>
    rw [spaced_nil, cuts_of_idle start hblanks .nil, List.map_nil]
  | cons token more ih =>
    obtain ⟨hspells, hspelled⟩ := List.forall_mem_cons.1 hspelled
    obtain ⟨rfl, hnumber⟩ := List.forall_mem_cons.1 hnumber
    obtain ⟨hclosed, hopen⟩ := List.pairwise_cons.1 hopen
    have hspace : AllBlank [' '] := by
      intro c hc
      obtain rfl := List.mem_singleton.1 hc
      decide
    have hmore := fun next => ih hspelled hnumber hopen hspace next
    cases more with
    | nil =>
      obtain ⟨cut, next, hcuts, htoken⟩ :=
        cuts_written hspells (.inl rfl) (fun _ => rfl) hblanks start
      rw [spaced_singleton, ← List.append_nil token.written, hcuts, List.map_cons, htoken, cuts_nil,
        List.map_nil]
    | cons second others =>
      have hnot : token.IsOpen → ' ' :: spaced (second :: others) = [] :=
        fun h => absurd h (hclosed second List.mem_cons_self)
      obtain ⟨cut, next, hcuts, htoken⟩ := cuts_written hspells (.inr ⟨_, rfl⟩) hnot hblanks start
      rw [spaced_cons_cons, hcuts, List.map_cons, htoken]
      exact congrArg _ (hmore next)

/-! ## Strings that are not closed -/

/-- Such a string leaves nothing of the line behind it. -/
theorem cutBody_of_isOpen {first : Char} {rest : List Char} {line : Nat} (hfirst : Begins first)
    (hopen : ((Lexeme.classify first (cutBody first rest).1).token line).IsOpen) :
    (cutBody first rest).2 = [] := by
  have hspells := spells_classify hfirst.1 hfirst.2 (admits_cutBody first rest)
  obtain ⟨inner, hinner, hsource⟩ := hspells.of_isOpen hopen
  obtain ⟨rfl, rfl⟩ := List.cons.inj hsource
  simp only [cutBody, shape_of_quote] at hinner ⊢
  by_cases hquote : '"' ∈ rest
  · obtain ⟨before, after, rfl, hbefore⟩ := List.eq_append_cons_of_mem hquote
    rw [cutQuoted_of_quote hbefore] at hinner
    simp at hinner
  · rw [cutQuoted_of_not_mem hquote]

theorem openLast_cuts (start number : Nat) (ahead : List Char) :
    (cuts start ahead).Pairwise fun a _ => ¬ (a.lexeme.token number).IsOpen := by
  induction ahead using line_induction generalizing start with
  | idle blanks rest hblanks hidle =>
    rw [cuts_of_idle start hblanks hidle]
    exact .nil
  | lexeme blanks first rest hblanks hfirst hcomment ih =>
    rw [cuts_of_lexeme start hblanks hfirst hcomment]
    refine List.pairwise_cons.2 ⟨fun other hother hopen => ?_, ih _⟩
    rw [cutBody_of_isOpen ⟨hfirst, hcomment⟩ hopen] at hother
    rw [cuts_nil] at hother
    cases hother

end Lexis
