import Lexis.Token.Display
import Lexis.Proofs.Printing.RoundTrip
import Lexis.Proofs.Json.Numeral

/-!
# Tokens on one line

No token of a text has a newline in its lexeme (`newline_not_mem_lexeme`), so its text form stands
on one line (`newline_not_mem_display`): the other parts of that form are names and numbers. There
are at most as many lines as characters, which bounds the line of a token
(`line_le_of_mem_tokensFrom`).
-/

set_option autoImplicit false

namespace Lexis

open Json (Printable natural integer)

/-! ## Names and numbers -/

theorem Kind.printable_name (kind : Kind) : Printable kind.name.toList := by
  have hall : ∀ kind ∈ Kind.all, Printable kind.name.toList := by decide +kernel
  exact hall kind kind.mem_all

theorem toList_repr_int (i : Int) : (Int.repr i).toList = integer i := by
  rw [Int.repr_eq_if, integer]
  by_cases hneg : i < 0
  · have habs : (-i).toNat = i.natAbs := by omega
    rw [if_neg (by omega), if_pos hneg, String.toList_append, Nat.toList_repr, habs]
    rfl
  · have habs : i.toNat = i.natAbs := by omega
    rw [if_pos (by omega), if_neg hneg, Nat.toList_repr, habs]
    rfl

/-- The text form has no newline that the lexeme has not. -/
theorem Token.newline_not_mem_display {token : Token} (h : '\n' ∉ token.lexeme.toList) :
    '\n' ∉ token.display.toList := by
  have hname := token.kind.printable_name.newline_not_mem
  have hline := (Json.printable_natural token.line).newline_not_mem
  have hfingerprint := (Json.printable_integer token.fingerprint.toInt).newline_not_mem
  have hnumber : (Nat.repr token.line).toList = natural token.line := Nat.toList_repr
  simp only [Token.display, String.toList_append, toList_repr_int, hnumber, List.mem_append, h,
    hname, hline, hfingerprint]
  decide

/-! ## Tokens of a text -/

theorem mem_written_of_mem_lexeme {token : Token} {c : Char} (h : c ∈ token.lexeme.toList) :
    c ∈ token.written := by
  unfold Token.written
  split
  · exact List.mem_cons_of_mem _ (List.mem_append_left _ h)
  · exact h

section
variable {text : String} {token : Token} (h : token ∈ tokensFrom 1 (textLines text))
include h

theorem newline_not_mem_lexeme : '\n' ∉ token.lexeme.toList := by
  have hlines : ∀ line ∈ textLines text, '\n' ∉ line.toList := fun _ => newline_not_mem_textLines
  obtain ⟨body, htokens, hlisting⟩ := isListing_tokensFrom 1 hlines
  rw [htokens, List.mem_append, List.mem_singleton] at h
  rcases h with hbody | rfl
  · exact mt mem_written_of_mem_lexeme (hlisting.onOneLine token hbody)
  · show '\n' ∉ "EOF".toList
    decide

theorem line_le_of_mem_tokensFrom : token.line ≤ 1 + (textLines text).length := by
  have hlines : ∀ line ∈ textLines text, '\n' ∉ line.toList := fun _ => newline_not_mem_textLines
  obtain ⟨body, htokens, hlisting⟩ := isListing_tokensFrom 1 hlines
  rw [htokens, List.mem_append, List.mem_singleton] at h
  rcases h with hbody | rfl
  · exact Nat.le_of_lt (hlisting.bounds token hbody).2
  · exact Nat.le_refl _

end

/-- Each line of a text has a character. -/
theorem length_textLines_le (text : String) : (textLines text).length ≤ text.toList.length := by
  rw [textLines, List.length_map]
  induction text.toList using text_induction with
  | empty => exact Nat.le_refl 0
  | unterminated line hline hne =>
    rw [pieces_of_not_mem hline hne]
    exact List.length_pos_iff.2 hne
  | terminated line rest hline ih =>
    rw [pieces_append_newline hline, List.length_cons, List.length_append, List.length_cons]
    omega

end Lexis
