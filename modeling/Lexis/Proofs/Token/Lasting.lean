import Lexis.Proofs.Json.Lasting
import Lexis.Proofs.Token.Spelling

/-!
# A token that has been read stays

None of the readers of a token looks beyond the token: when the text goes on, the token stays and
more is left (`Token.lasts_read`). Within the token this holds of a line, and of any value that is
passed over, as long as something is left behind it; there always is, since the token ends with a
bracket. So the text of a token may go on with blanks and with nothing else
(`Token.ofJson_append`).
-/

set_option autoImplicit false

namespace Lexis

open Json

namespace Kind

theorem lasts_readName : Lasts readName := by
  intro s rest kind h more
  unfold readName at h
  split at h
  · cases h
  · rename_i hquoted
    split at h
    · rename_i hname
      cases h
      simp only [readName, lasts_readQuoted hquoted more, hname]
    · cases h

theorem lasts_readObject : Lasts readObject := by
  intro s rest kind h more
  unfold readObject at h
  split at h
  · cases h
  rename_i hskip
  split at h
  · rename_i hquote
    split at h
    · cases h
    rename_i hname
    split at h
    · cases h
    rename_i hcolon
    split at h
    · cases h
    rename_i hnull
    obtain ⟨left, hclosing, heq⟩ := map_eq_ok h
    cases heq
    simp only [readObject, skipBlanks_append more hskip, hquote, if_true, lasts_readName hname more,
      expectColon_append more hcolon, readNull_append more hnull,
      expectClosing_append more hclosing, Except.map]
  · cases h

theorem lasts_read : Lasts read := by
  intro s rest kind h more
  unfold read at h
  split at h
  · cases h
  rename_i hskip
  simp only [read, skipBlanks_append more hskip]
  split_ifs at h ⊢
  · exact lasts_readName h more
  · exact lasts_readObject h more

end Kind

namespace Token

theorem lasts_readLexeme : Lasts readLexeme := by
  intro s rest lexeme h more
  unfold readLexeme at h
  split at h
  · cases h
  rename_i hskip
  simp only [readLexeme, skipBlanks_append more hskip]
  split_ifs at h ⊢
  obtain ⟨⟨text, left⟩, hquoted, heq⟩ := map_eq_ok h
  cases heq
  rw [lasts_readQuoted hquoted]
  rfl

theorem lastsWithin_readLine : LastsWithin readLine := by
  intro s rest line h hrest more
  unfold readLine at h
  split at h
  · cases h
  rename_i hskip
  simp only [readLine, skipBlanks_append more hskip]
  split_ifs at h ⊢
  split at h
  · cases h
  · rename_i hnatural
    cases h
    rw [← List.cons_append, lastsWithin_readNatural hnatural hrest]
  · cases h

namespace Members

theorem lastsWithin_readValue (members : Members) (name : String) :
    LastsWithin (members.readValue name) := by
  intro s rest members' h hrest more
  unfold readValue at h ⊢
  split_ifs at h ⊢
  · obtain ⟨r, hread, heq⟩ := map_eq_ok h
    cases heq
    rw [Kind.lasts_read hread]
    rfl
  · obtain ⟨r, hread, heq⟩ := map_eq_ok h
    cases heq
    rw [lasts_readLexeme hread]
    rfl
  · obtain ⟨r, hread, heq⟩ := map_eq_ok h
    cases heq
    rw [lastsWithin_readLine hread hrest]
    rfl
  · obtain ⟨r, hread, heq⟩ := map_eq_ok h
    cases heq
    rw [skipValue, skipOpen_append hread hrest]
    rfl

theorem lastsWithin_readMember (members : Members) : LastsWithin members.readMember := by
  intro s rest members' h hrest more
  unfold readMember at h
  split at h
  · cases h
  rename_i hquoted
  dsimp only at h
  split at h
  · cases h
  rename_i hnew
  split at h
  · cases h
  rename_i hcolon
  simp only [readMember, lasts_readQuoted hquoted more, hnew, expectColon_append more hcolon]
  exact lastsWithin_readValue _ _ h hrest more

end Members

/-- Where members are expected the text cannot end. -/
theorem readMembers_blank {first : Bool} {members : Members} {s : List Char}
    (h : skipBlanks s = []) : readMembers first members s = .error .truncated := by
  rw [readMembers]
  split <;> simp_all

theorem readMembers_append {first : Bool} {members : Members} {s rest : List Char} {token : Token}
    (h : readMembers first members s = .ok (token, rest)) (more : List Char) :
    readMembers first members (s ++ more) = .ok (token, rest ++ more) := by
  -- the members go on behind each one of them, so something is left there
  have hne : ∀ {members : Members} {s : List Char},
      readMembers false members s = .ok (token, rest) → s ≠ [] := by
    rintro members _ h rfl
    rw [readMembers_blank rfl] at h
    cases h
  fun_induction readMembers first members s with
  | case2 first members s left known htoken hs =>
    cases h
    exact readMembers_closing (skipBlanks_append more hs) htoken
  | case5 members s left read after hread hs _ ih =>
    rw [readMembers_first (skipBlanks_append more hs),
      members.lastsWithin_readMember hread (hne h)]
    exact ih h
  | case9 first members s left hfirst inner read after hread hs _ hs' ih =>
    rw [eq_false_of_ne_true hfirst, readMembers_comma (skipBlanks_append more hs)
      (skipBlanks_append more hs'), readMembers_first (skipBlanks_append more hs'),
      members.lastsWithin_readMember hread (hne h)]
    exact ih h
  | case1 | case3 | case4 | case6 | case7 | case8 | case10 | case11 => cases h

theorem readComma_append {s rest : List Char} (h : readComma s = .ok rest) (more : List Char) :
    readComma (s ++ more) = .ok (rest ++ more) := by
  unfold readComma at h
  split at h
  · cases h
  rename_i hskip
  split_ifs at h with hclosing hcomma
  split at h
  · cases h
  rename_i hskip'
  split_ifs at h with hclosing'
  cases h
  simp only [readComma, skipBlanks_append more hskip, hcomma, skipBlanks_append more hskip',
    hclosing', if_true, if_false]
  rfl

theorem lasts_readElements : Lasts readElements := by
  intro s rest token h more
  unfold readElements at h
  split at h
  · cases h
  rename_i hskip
  split at h
  · cases h
  rename_i hclosing
  split at h
  · cases h
  rename_i hkind
  split at h
  · cases h
  rename_i hcomma
  split at h
  · cases h
  rename_i hlexeme
  split at h
  · cases h
  rename_i hcomma'
  split at h
  · cases h
  rename_i hline
  obtain ⟨left, hend, heq⟩ := map_eq_ok h
  cases heq
  have hleft := List.length_pos_iff.1 (Nat.zero_lt_of_lt (length_expectClosing hend))
  have hkind := Kind.lasts_read hkind more
  rw [List.cons_append] at hkind
  simp only [readElements, skipBlanks_append more hskip, hclosing, if_false, hkind,
    readComma_append hcomma more, lasts_readLexeme hlexeme more, readComma_append hcomma' more,
    lastsWithin_readLine hline hleft more, expectClosing_append more hend, Except.map]

/-- What is read as a token is read as the same token when the text goes on. -/
theorem lasts_read : Lasts Token.read := by
  intro s rest token h more
  unfold Token.read at h
  split at h
  · cases h
  rename_i hskip
  simp only [Token.read, skipBlanks_append more hskip]
  split_ifs at h ⊢
  · exact lasts_readElements h more
  · exact readMembers_append h more

/-- The text of a token may go on with blanks and with nothing else. -/
theorem ofJson_append {token : Token} {text : String} (h : Token.ofJson text = .ok token)
    (more : String) :
    Token.ofJson (text ++ more) = if Gap more.toList then .ok token else .error .malformed := by
  rw [Token.ofJson, String.toList_append]
  exact lasts_read.readText_append h more.toList

end Token

end Lexis
