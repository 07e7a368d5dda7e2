import Lexis.Proofs.Scan.Reports
import Lexis.Proofs.Scan.TextRun
import Lexis.Proofs.Supply.Pieces

/-!
# Texts scanned one behind the other

A text that ends a line can be scanned apart from what is written behind it. The tokens of both
together are those of the first, without its end token, and those of the second on lines counted
on from the first; the diagnostics and the flag are put together in the same way
(`allTokens_append`). So nothing on one line, be it an error, an open string or a comment, has an
effect on another line.
-/

set_option autoImplicit false

namespace Lexis

/-- The same token so many lines further down. -/
def Token.shift (lines : Nat) (token : Token) : Token :=
  { token with line := token.line + lines }

/-- The same diagnostic so many lines further down. -/
def Diagnostic.shift (lines : Nat) (diagnostic : Diagnostic) : Diagnostic :=
  { diagnostic with line := diagnostic.line + lines }

theorem reports_map_shift (lines : Nat) (tokens : List Token) :
    reports (tokens.map (.shift lines)) = (reports tokens).map (.shift lines) := by
  have hfilter : Token.isError ∘ Token.shift lines = Token.isError := rfl
  rw [reports, List.filter_map, hfilter, List.map_map, reports, List.map_map]
  rfl

theorem any_isError_map_shift (lines : Nat) (tokens : List Token) :
    (tokens.map (.shift lines)).any Token.isError = tokens.any Token.isError := by
  rw [List.any_map]
  rfl

/-! ## The tokens of lines -/

theorem lineTokens_add (number lines : Nat) (line : List Char) :
    lineTokens (number + lines) line = (lineTokens number line).map (.shift lines) := by
  rw [lineTokens, lineTokens, List.map_map]
  rfl

/-- Counting from a later line shifts the tokens. -/
theorem tokensFrom_add (number lines : Nat) (texts : List String) :
    tokensFrom (number + lines) texts = (tokensFrom number texts).map (.shift lines) := by
  induction texts generalizing number with
  | nil => rfl
  | cons text texts ih =>
    rw [tokensFrom, tokensFrom, lineTokens_add, List.map_append, ← ih,
      show number + lines + 1 = number + 1 + lines by omega]

/-! ## Texts -/

theorem textLines_append {first : String} (h : EndsLine first.toList) (second : String) :
    textLines (first ++ second) = textLines first ++ textLines second := by
  rw [textLines, String.toList_append, pieces_append h, List.map_append, textLines, textLines]

/-- The number of newlines in a text. -/
def newlines (text : String) : Nat :=
  text.toList.count '\n'

theorem length_textLines {text : String} (h : EndsLine text.toList) :
    (textLines text).length = newlines text := by
  rw [textLines, List.length_map, length_pieces h, newlines]

namespace Scan

/-- The scan of a text reports what its tokens tell. -/
theorem reports_ofText (text : String) :
    (ofText text).allTokens.2.diagnostics.toList = reports (tokensFrom 1 (textLines text)) ∧
      (ofText text).allTokens.2.errorSeen =
        (tokensFrom 1 (textLines text)).any Token.isError := by
  obtain ⟨hdiagnostics, hseen⟩ := allTokens_reports (Prod.ext (allTokens_ofText text) rfl)
  refine ⟨hdiagnostics.trans ?_, hseen.trans ?_⟩
  · show #[].toList ++ _ = _
    rw [List.nil_append]
  · show (false || _) = _
    rw [Bool.false_or]

/-- What is written behind a text that is empty or ends with a newline is scanned as if it stood
alone, on lines counted on from the text. -/
theorem allTokens_append {first : String}
    (hfirst : first = "" ∨ first.toList.getLast? = some '\n') (second : String) :
    ∃ body others : List Token, (∀ token ∈ body, token.isEof = false) ∧
      (ofText first).allTokens.1 = .ok (body ++ [.eof (newlines first + 1)]) ∧
      (ofText second).allTokens.1 = .ok others ∧
      (ofText (first ++ second)).allTokens.1 =
        .ok (body ++ others.map (.shift (newlines first))) ∧
      (ofText (first ++ second)).allTokens.2.diagnostics.toList =
        (ofText first).allTokens.2.diagnostics.toList ++
          (ofText second).allTokens.2.diagnostics.toList.map (.shift (newlines first)) ∧
      (ofText (first ++ second)).allTokens.2.errorSeen =
        ((ofText first).allTokens.2.errorSeen || (ofText second).allTokens.2.errorSeen) := by
  have hends : EndsLine first.toList := by
    intro c hc
    rcases hfirst with rfl | hlast
    · cases hc
    · rw [hlast] at hc
      exact (Option.some.inj hc).symm
  have hlength := length_textLines hends
  have hbody : tokensFrom 1 (textLines first) =
      bodyTokens 1 (textLines first) ++ [.eof (newlines first + 1)] := by
    rw [tokensFrom_eq, hlength, Nat.add_comm]
  have hboth : tokensFrom 1 (textLines (first ++ second)) = bodyTokens 1 (textLines first) ++
      (tokensFrom 1 (textLines second)).map (.shift (newlines first)) := by
    rw [textLines_append hends, tokensFrom_append, tokensFrom_add, hlength]
  have hnot : (Token.eof (newlines first + 1)).isError = false := rfl
  obtain ⟨hdiagnostics, hseen⟩ := reports_ofText (first ++ second)
  obtain ⟨hdiagnostics₁, hseen₁⟩ := reports_ofText first
  obtain ⟨hdiagnostics₂, hseen₂⟩ := reports_ofText second
  refine ⟨bodyTokens 1 (textLines first), tokensFrom 1 (textLines second),
    fun token => isEof_of_mem_bodyTokens, ?_, allTokens_ofText second, ?_, ?_, ?_⟩
  · rw [allTokens_ofText, hbody]
  · rw [allTokens_ofText, hboth]
  · rw [hdiagnostics, hdiagnostics₁, hdiagnostics₂, hboth, hbody, reports_append, reports_append,
      reports_map_shift, reports_of_not_isError hnot, List.append_nil]
  · rw [hseen, hseen₁, hseen₂, hboth, hbody, List.any_append, List.any_append,
      any_isError_map_shift, List.any_cons, hnot, List.any_nil, Bool.or_false, Bool.or_false]

/-- A string that is not closed and a comment, in front of a text with an error of its own. -/
theorem allTokens_append_open_string :
    ("\"a\r\n# b\n" = "" ∨ "\"a\r\n# b\n".toList.getLast? = some '\n') ∧
      ∃ body others : List Token,
        (ofText "\"a\r\n# b\n").allTokens.1 = .ok (body ++ [.eof 3]) ∧
        (ofText "X\n\"").allTokens.1 = .ok others ∧
        (ofText ("\"a\r\n# b\n" ++ "X\n\"")).allTokens.1 = .ok (body ++ others.map (.shift 2)) := by
  have hfirst : "\"a\r\n# b\n" = "" ∨ "\"a\r\n# b\n".toList.getLast? = some '\n' :=
    .inr (by decide)
  have hnewlines : newlines "\"a\r\n# b\n" = 2 := by decide
  obtain ⟨body, others, _, hbody, hothers, hboth, _⟩ := allTokens_append hfirst "X\n\""
  rw [hnewlines] at hbody hboth
  exact ⟨hfirst, body, others, hbody, hothers, hboth⟩

end Scan

end Lexis
