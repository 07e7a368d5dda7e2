import Lexis.Supply.Basic

/-!
# The lines of a text

A text is cut after each newline. The terminator of a line, a newline with at most one carriage
return before it, is not part of the line; other carriage returns are. Nothing follows a newline
at the end of the text.
-/

set_option autoImplicit false

namespace Lexis

/-- The pieces of a text, each of which keeps its newline. -/
def pieces : List Char → List (List Char)
  | [] => []
  | c :: rest =>
    if c = '\n' then [c] :: pieces rest
    else
      match pieces rest with
      | [] => [[c]]
      | piece :: others => (c :: piece) :: others

/-- A piece without its terminator. -/
def stripTerminator (piece : List Char) : List Char :=
  match piece.reverse with
  | '\n' :: '\r' :: before => before.reverse
  | '\n' :: before => before.reverse
  | _ => piece

/-- The lines of a text without their terminators. -/
def textLines (text : String) : List String :=
  (pieces text.toList).map fun piece => String.ofList (stripTerminator piece)

theorem length_stripTerminator_le (piece : List Char) :
    (stripTerminator piece).length ≤ piece.length := by
  unfold stripTerminator
  split
  · rename_i before h
    have := congrArg List.length h
    simp at this ⊢
    omega
  · rename_i before _ h
    have := congrArg List.length h
    simp at this ⊢
    omega
  · exact Nat.le_refl _

theorem stripTerminator_newline (line : List Char) (h : line.getLast? ≠ some '\r') :
    stripTerminator (line ++ ['\n']) = line := by
  simp only [stripTerminator, List.reverse_append, List.reverse_cons, List.reverse_nil,
    List.nil_append, List.singleton_append]
  split
  · rename_i before h'
    simp only [List.cons.injEq, true_and] at h'
    rw [← List.reverse_reverse line, h'] at h
    simp at h
  · rename_i before _ h'
    simp only [List.cons.injEq, true_and] at h'
    simp [← h']
  · rename_i h1 h2
    exact absurd rfl (h2 _)

theorem stripTerminator_returnNewline (line : List Char) :
    stripTerminator (line ++ ['\r', '\n']) = line := by
  simp [stripTerminator]

theorem stripTerminator_of_getLast? {piece : List Char} (h : piece.getLast? ≠ some '\n') :
    stripTerminator piece = piece := by
  have hnone : ∀ before, piece.reverse ≠ '\n' :: before := by
    intro before hreverse
    rw [← List.reverse_reverse piece, hreverse] at h
    simp at h
  unfold stripTerminator
  split
  · rename_i before hreverse
    exact absurd hreverse (hnone _)
  · rename_i before _ hreverse
    exact absurd hreverse (hnone _)
  · rfl

/-- Lines in memory. -/
structure TextLines where
  left : List String
  deriving DecidableEq

namespace TextLines

def ofText (text : String) : TextLines :=
  ⟨textLines text⟩

/-- The next line; reading from memory never fails. -/
def next? : TextLines → Option String × TextLines
  | ⟨[]⟩ => (none, ⟨[]⟩)
  | ⟨line :: left⟩ => (some line, ⟨left⟩)

def pull (lines : TextLines) : Pull × TextLines :=
  match lines.next? with
  | (some line, lines) => (.line line, lines)
  | (none, lines) => (.finished, lines)

/-- The lines and characters that are left. -/
def size : List String → Nat
  | [] => 0
  | line :: left => size left + line.toList.length + 1

instance : LineSupply TextLines where
  pull := pull
  remaining lines := size lines.left
  remaining_lt := by
    rintro ⟨_ | ⟨line, left⟩⟩ s' text h
    · simp [pull, next?] at h
    · simp only [pull, next?, Prod.mk.injEq, Pull.line.injEq] at h
      obtain ⟨rfl, rfl⟩ := h
      simp [size]

end TextLines

end Lexis
