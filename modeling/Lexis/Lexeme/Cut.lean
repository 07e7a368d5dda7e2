import Lexis.Alphabet.Letter

/-!
# Where a lexeme ends

The first character of a lexeme selects its shape, and the shape says how far it reaches: as far
as it can. `cutBody` divides what follows the first character into the rest of the lexeme and the
rest of the line; nothing is lost between them (`cutBody_append`).
-/

set_option autoImplicit false

namespace Lexis

/-- The four shapes of a lexeme. -/
inductive Shape
  | word | number | quoted | symbol
  deriving DecidableEq

/-- The shape that the first character of a lexeme selects. -/
def Shape.of (first : Char) : Shape :=
  if isLetter first then .word
  else if first.isDigit then .number
  else if first = '"' then .quoted
  else .symbol

/-- A word goes on while letters and digits follow. -/
def cutWord (rest : List Char) : List Char × List Char :=
  (rest.takeWhile isWordChar, rest.dropWhile isWordChar)

/-- A number goes on with digits, one dot, and digits again; a second dot is not part of it. -/
def cutNumber (rest : List Char) : List Char × List Char :=
  match rest.dropWhile Char.isDigit with
  | '.' :: after =>
    (rest.takeWhile Char.isDigit ++ '.' :: after.takeWhile Char.isDigit,
      after.dropWhile Char.isDigit)
  | after => (rest.takeWhile Char.isDigit, after)

/-- A string reaches to the next quote, which is part of it, or else to the end of the line. -/
def cutQuoted (rest : List Char) : List Char × List Char :=
  match rest.dropWhile (· != '"') with
  | quote :: after => (rest.takeWhile (· != '"') ++ [quote], after)
  | [] => (rest.takeWhile (· != '"'), [])

/-- The signs that make one symbol with an equals sign after them. -/
def joinsEquals (first : Char) : Bool :=
  first = ':' || first = '<' || first = '>' || first = '=' || first = '!'

/-- A symbol is one sign, or two when an equals sign joins the first. -/
def cutSymbol (first : Char) (rest : List Char) : List Char × List Char :=
  match rest with
  | '=' :: after => if joinsEquals first then (['='], after) else ([], rest)
  | _ => ([], rest)

/-- What follows the first character of a lexeme, divided at the end of the lexeme. -/
def cutBody (first : Char) (rest : List Char) : List Char × List Char :=
  match Shape.of first with
  | .word => cutWord rest
  | .number => cutNumber rest
  | .quoted => cutQuoted rest
  | .symbol => cutSymbol first rest

theorem cutWord_append (rest : List Char) : (cutWord rest).1 ++ (cutWord rest).2 = rest :=
  List.takeWhile_append_dropWhile

theorem cutNumber_append (rest : List Char) : (cutNumber rest).1 ++ (cutNumber rest).2 = rest := by
  have whole := List.takeWhile_append_dropWhile (p := Char.isDigit) (l := rest)
  unfold cutNumber
  split
  · rename_i after h
    rw [h] at whole
    simp [whole, List.takeWhile_append_dropWhile]
  · exact whole

theorem cutQuoted_append (rest : List Char) : (cutQuoted rest).1 ++ (cutQuoted rest).2 = rest := by
  have whole := List.takeWhile_append_dropWhile (p := (· != '"')) (l := rest)
  unfold cutQuoted
  split <;> rename_i h <;> rw [h] at whole <;> simpa using whole

theorem cutSymbol_append (first : Char) (rest : List Char) :
    (cutSymbol first rest).1 ++ (cutSymbol first rest).2 = rest := by
  unfold cutSymbol
  split
  · split <;> simp
  · simp

/-- Nothing is lost between a lexeme and the rest of its line. -/
theorem cutBody_append (first : Char) (rest : List Char) :
    (cutBody first rest).1 ++ (cutBody first rest).2 = rest := by
  unfold cutBody
  split
  · exact cutWord_append rest
  · exact cutNumber_append rest
  · exact cutQuoted_append rest
  · exact cutSymbol_append first rest

theorem length_cutBody_le (first : Char) (rest : List Char) :
    (cutBody first rest).2.length ≤ rest.length := by
  have := congrArg List.length (cutBody_append first rest)
  rw [List.length_append] at this
  omega

end Lexis
