import Lexis.Scan.Session
import Lexis.Proofs.Line.Cuts

/-!
# Calls for tokens

`calls n` makes `n` calls for the next token one after the other, through failures and beyond the
end of the input. A caller sees everything of a scan but its supply (`view`).

A call that finds a cut on the current line gives its token and stays on the line
(`nextToken_of_cuts`); otherwise it pulls. No call takes the line number back, and the token that
it gives stands on the line that is current afterwards (`lineNumber_nextToken`).
-/

set_option autoImplicit false

namespace Lexis

theorem Cursor.skipBlanks_idem (cursor : Cursor) :
    cursor.skipBlanks.skipBlanks = cursor.skipBlanks := by
  have hstop : (cursor.ahead.dropWhile isBlank).takeWhile isBlank = [] := by
    rw [List.takeWhile_eq_nil_iff]
    intro hpos
    have := List.dropWhile_get_zero_not isBlank cursor.ahead hpos
    simpa using this
  have hdrop : (cursor.ahead.dropWhile isBlank).dropWhile isBlank =
      cursor.ahead.dropWhile isBlank := by
    have := List.takeWhile_append_dropWhile (p := isBlank) (l := cursor.ahead.dropWhile isBlank)
    rwa [hstop, List.nil_append] at this
  simp only [skipBlanks, hstop, hdrop, List.reverse_nil, List.nil_append]

namespace Scan

variable {σ : Type}

/-- A scan without its supply. -/
def view (scan : Scan σ) : Scan Unit :=
  { scan with supply := () }

theorem view_eq_iff {τ : Type} {a : Scan σ} {b : Scan τ} :
    a.view = b.view ↔ a.cursor = b.cursor ∧ a.lineNumber = b.lineNumber ∧
      a.errorSeen = b.errorSeen ∧ a.diagnostics = b.diagnostics ∧ a.events = b.events := by
  simp [view]

/-! ## Accepting a lexeme -/

theorem accept_eq_token (scan : Scan σ) (lexeme : Lexeme) (after : Cursor) :
    (scan.accept lexeme after).1 = lexeme.token scan.lineNumber := by
  unfold accept Lexeme.token Lexeme.kind
  cases lexeme.verdict <;> rfl

theorem lineNumber_accept (scan : Scan σ) (lexeme : Lexeme) (after : Cursor) :
    (scan.accept lexeme after).2.lineNumber = scan.lineNumber := by
  unfold accept
  cases lexeme.verdict <;> rfl

/-! ## One call after another -/

variable [LineSupply σ]

def calls (scan : Scan σ) : Nat → List (Except IoError Token) × Scan σ
  | 0 => ([], scan)
  | n + 1 =>
    let first := scan.nextToken
    let others := first.2.calls n
    (first.1 :: others.1, others.2)

theorem calls_add (scan : Scan σ) (m n : Nat) :
    scan.calls (m + n) =
      ((scan.calls m).1 ++ ((scan.calls m).2.calls n).1, ((scan.calls m).2.calls n).2) := by
  induction m generalizing scan with
  | zero =>
    rw [Nat.zero_add]
    rfl
  | succ m ih =>
    rw [show m + 1 + n = m + n + 1 by omega]
    simp only [calls, ih, List.cons_append]

/-- The last of `n + 1` calls. -/
theorem calls_succ (scan : Scan σ) (n : Nat) :
    scan.calls (n + 1) =
      ((scan.calls n).1 ++ [(scan.calls n).2.nextToken.1], (scan.calls n).2.nextToken.2) :=
  calls_add scan n 1

/-- The tokens among what some calls give. -/
def granted (replies : List (Except IoError Token)) : List Token :=
  replies.filterMap Except.toOption

/-- The failures among what some calls give. -/
def refused (replies : List (Except IoError Token)) : List IoError :=
  replies.filterMap fun
    | .ok _ => none
    | .error error => some error

@[simp] theorem granted_ok (token : Token) (replies : List (Except IoError Token)) :
    granted (.ok token :: replies) = token :: granted replies := rfl

@[simp] theorem granted_error (error : IoError) (replies : List (Except IoError Token)) :
    granted (.error error :: replies) = granted replies := rfl

theorem granted_append (a b : List (Except IoError Token)) :
    granted (a ++ b) = granted a ++ granted b :=
  List.filterMap_append

theorem granted_map_ok (tokens : List Token) : granted (tokens.map .ok) = tokens := by
  induction tokens with
  | nil => rfl
  | cons token tokens ih => rw [List.map_cons, granted_ok, ih]

@[simp] theorem refused_ok (token : Token) (replies : List (Except IoError Token)) :
    refused (.ok token :: replies) = refused replies := rfl

@[simp] theorem refused_error (error : IoError) (replies : List (Except IoError Token)) :
    refused (.error error :: replies) = error :: refused replies := rfl

/-! ## A call on a line with a cut ahead -/

theorem nextToken_of_cuts {scan : Scan σ} {cursor : Cursor} {cut : Cut} {more : List Cut}
    (hcursor : scan.cursor = some cursor) (hcuts : cursor.cuts = cut :: more) :
    ∃ after, cursor.skipBlanks.lexeme? = some (cut.lexeme, after) ∧ after.cuts = more ∧
      after.column = cut.stop ∧ after.text = cursor.text ∧
      scan.nextToken =
        (.ok (cut.lexeme.token scan.lineNumber), (scan.accept cut.lexeme after).2) := by
  cases hlexeme : cursor.skipBlanks.lexeme? with
  | none =>
    rw [Cursor.cuts_of_lexeme?_eq_none hlexeme] at hcuts
    cases hcuts
  | some found =>
    obtain ⟨lexeme, after⟩ := found
    obtain ⟨cut', hcuts', rfl, hstop⟩ := Cursor.cuts_of_lexeme? hlexeme
    obtain ⟨rfl, rfl⟩ := List.cons.inj (hcuts'.symm.trans hcuts)
    refine ⟨after, rfl, rfl, hstop.symm, ?_, ?_⟩
    · rw [Cursor.text_lexeme? hlexeme, Cursor.text_skipBlanks]
    · rw [nextToken_of_lexeme hcursor hlexeme, accept_eq_token]

/-- Behind the end token there is no line. -/
theorem cursor_of_isEof {scan after : Scan σ} {token : Token}
    (h : scan.nextToken = (.ok token, after)) (heof : token.isEof = true) :
    after.cursor = none := by
  fun_induction nextToken scan with
  | case1 scan hcursor =>
    obtain ⟨_, rfl⟩ := Prod.mk.inj h
    exact hcursor
  | case2 scan cursor hcursor lexeme next hlexeme accepted =>
    obtain ⟨hok, _⟩ := Prod.mk.inj h
    obtain rfl := Except.ok.inj hok
    obtain ⟨cut, hcuts, rfl, _⟩ := Cursor.cuts_of_lexeme? hlexeme
    have hmem : cut ∈ cursor.cuts := by rw [hcuts]; exact List.mem_cons_self
    rw [accept_eq_token, isEof_token_of_mem_cuts hmem] at heof
    cases heof
  | case3 scan cursor hcursor hnone text supply hpull ih => exact ih h
  | case4 scan cursor hcursor hnone supply hpull =>
    obtain ⟨_, rfl⟩ := Prod.mk.inj h
    rfl
  | case5 scan cursor hcursor hnone error supply hpull => cases (Prod.mk.inj h).1

/-- A failing call reports nothing. -/
theorem nextToken_error {scan after : Scan σ} {error : IoError}
    (h : scan.nextToken = (.error error, after)) :
    after.diagnostics = scan.diagnostics ∧ after.errorSeen = scan.errorSeen := by
  fun_induction nextToken scan with
  | case1 scan hcursor => cases (Prod.mk.inj h).1
  | case2 scan cursor hcursor lexeme next hlexeme accepted => cases (Prod.mk.inj h).1
  | case3 scan cursor hcursor hnone text supply hpull ih => exact ih h
  | case4 scan cursor hcursor hnone supply hpull => cases (Prod.mk.inj h).1
  | case5 scan cursor hcursor hnone error supply hpull =>
    obtain ⟨_, rfl⟩ := Prod.mk.inj h
    exact ⟨rfl, rfl⟩

/-! ## Line numbers -/

theorem lineNumber_nextToken (scan : Scan σ) :
    scan.lineNumber ≤ scan.nextToken.2.lineNumber ∧
      ∀ token, scan.nextToken.1 = .ok token → token.line = scan.nextToken.2.lineNumber := by
  fun_induction nextToken scan with
  | case1 scan hcursor =>
    refine ⟨Nat.le_refl _, fun token h => ?_⟩
    obtain rfl := Except.ok.inj h
    rfl
  | case2 scan cursor hcursor lexeme after hlexeme accepted =>
    refine ⟨?_, fun token h => ?_⟩
    · simp only [accepted, lineNumber_accept, Nat.le_refl]
    · obtain rfl := Except.ok.inj h
      simp only [accepted, lineNumber_accept, accept_eq_token, Lexeme.token]
  | case3 scan cursor hcursor hnone text supply hpull ih =>
    refine ⟨Nat.le_trans ?_ ih.1, ih.2⟩
    simp only [enterLine]
    omega
  | case4 scan cursor hcursor hnone supply hpull =>
    refine ⟨?_, fun token h => ?_⟩
    · simp only [finish]
      omega
    · obtain rfl := Except.ok.inj h
      rfl
  | case5 scan cursor hcursor hnone error supply hpull =>
    refine ⟨Nat.le_refl _, fun token h => ?_⟩
    cases h

end Scan

end Lexis
