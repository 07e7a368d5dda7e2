import Lexis.Proofs.Lexeme.Spelling
import Lexis.Proofs.Supply.Pieces

/-!
# Token lists and how they are written

* `WellFormed`: a token list that a text can have, described without a text: its tokens stand in
  the order of their lines, each is spelled in some way on one line, and only the last token of a
  line may be a string that is not closed. Its end token stands behind the last line.
* `render`: such a list as a text. The tokens of a line are separated by one space, and a string is
  put back between its quotes (`Spells.written`).
-/

set_option autoImplicit false

namespace Lexis

namespace Token

/-- The text of a token in a line. -/
def written (token : Token) : List Char :=
  if token.kind = .literal .string then '"' :: (token.lexeme.toList ++ ['"'])
  else token.lexeme.toList

/-- A string that is not closed. -/
def IsOpen (token : Token) : Prop :=
  token.kind = .error ∧ token.lexeme.toList.head? = some '"'

instance (token : Token) : Decidable token.IsOpen :=
  inferInstanceAs (Decidable (_ ∧ _))

end Token

/-- The tokens of the lines from `first` up to an end token on line `last`. -/
structure IsListing (first : Nat) (body : List Token) (last : Nat) : Prop where
  bounds : ∀ token ∈ body, first ≤ token.line ∧ token.line < last
  ordered : body.Pairwise fun a b => a.line ≤ b.line
  spelled : ∀ token ∈ body, Spells token.kind token.lexeme token.written
  onOneLine : ∀ token ∈ body, '\n' ∉ token.written
  /-- Behind a string that is not closed there is no token on its line. -/
  openLast : body.Pairwise fun a b => a.IsOpen → a.line < b.line

def WellFormed (tokens : List Token) : Prop :=
  ∃ body last, 1 ≤ last ∧ tokens = body ++ [.eof last] ∧ IsListing 1 body last

/-- The tokens of one line, with one space between them. -/
def spaced (tokens : List Token) : List Char :=
  [' '].intercalate (tokens.map Token.written)

/-- The tokens that stand on line `number`. -/
def onLineNumber (tokens : List Token) (number : Nat) : List Token :=
  tokens.filter (·.line = number)

/-- The line of the last token. -/
def lastLine (tokens : List Token) : Nat :=
  match tokens.getLast? with
  | some token => token.line
  | none => 0

/-- A text with the tokens, all lines of which are terminated. -/
def render (tokens : List Token) : String :=
  .ofList <| terminated <|
    (List.range' 1 (lastLine tokens - 1)).map fun number => spaced (onLineNumber tokens number)

@[simp] theorem spaced_nil : spaced [] = [] := rfl

@[simp] theorem spaced_singleton (token : Token) : spaced [token] = token.written :=
  List.intercalate_singleton

@[simp] theorem spaced_cons_cons (first second : Token) (others : List Token) :
    spaced (first :: second :: others) = first.written ++ ' ' :: spaced (second :: others) := by
  simp [spaced]

@[simp] theorem lastLine_concat (tokens : List Token) (token : Token) :
    lastLine (tokens ++ [token]) = token.line := by
  simp [lastLine]

/-! ## Spellings and what is written -/

/-- A token is written as it is spelled. -/
theorem Spells.written {kind : Kind} {lexeme : String} {source : List Char}
    (h : Spells kind lexeme source) (line : Nat) :
    (Token.mk kind lexeme line).written = source := by
  cases h with
  | reserved hmem =>
    exact if_neg (kind_ne_of_mem_reservedWords hmem).2.2
  | symbol hmem =>
    exact if_neg (kind_ne_of_mem_symbols hmem).2.2
  | stray _ =>
    exact (if_neg (by simp)).trans (String.toList_singleton _)
  | string _ =>
    rw [Token.written, if_pos rfl, String.toList_ofList]
  | _ =>
    exact (if_neg (by simp)).trans String.toList_ofList

/-- What is spelled like a string that is not closed has no other quote. -/
theorem Spells.of_isOpen {kind : Kind} {lexeme : String} {source : List Char} {line : Nat}
    (h : Spells kind lexeme source) (hopen : (Token.mk kind lexeme line).IsOpen) :
    ∃ inner, '"' ∉ inner ∧ source = '"' :: inner := by
  obtain ⟨hkind, hquote⟩ := hopen
  cases h with
  | reserved hmem => exact absurd hkind (kind_ne_of_mem_reservedWords hmem).2.1
  | symbol hmem => exact absurd hkind (kind_ne_of_mem_symbols hmem).2.1
  | capitalized hname _ =>
    rw [String.toList_ofList, List.head?_cons] at hquote
    have hletter := hname.letter
    rw [Option.some.inj hquote] at hletter
    exact absurd hletter (by decide)
  | unterminated hinner => exact ⟨_, hinner, rfl⟩
  | stray hstray =>
    rw [String.toList_singleton, List.head?_cons] at hquote
    exact absurd (Option.some.inj hquote) hstray.notQuote
  | _ => cases hkind

end Lexis
