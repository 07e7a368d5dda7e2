import Lexis.Proofs.Scan.Gathering

/-!
# What a scan reports

Every lexical error is told three times: by an error token, by a diagnostic and by the flag of the
scan. The three agree. The diagnostic of an error token has its line and its lexeme, and the
lexeme alone tells the cause (`Diagnostic.ofToken`): an error word begins with a letter, an open
string with a quote, and an unknown symbol with neither.

One call enters the diagnostics of the token that it gives (`nextToken_reports`), so some calls
enter those of all their tokens (`calls_reports`), and so does every session
(`session_gathers_calls`).
-/

set_option autoImplicit false

namespace Lexis

/-- The cause of an error, by its lexeme alone. -/
def Diagnostic.Cause.ofLexeme (lexeme : String) : Diagnostic.Cause :=
  match lexeme.toList.head? with
  | none => .unknownSymbol
  | some first =>
    if isLetter first then .invalidIdentifier
    else if first = '"' then .unterminatedString
    else .unknownSymbol

/-- The diagnostic that goes with an error token. -/
def Diagnostic.ofToken (token : Token) : Diagnostic :=
  ⟨.ofLexeme token.lexeme, token.line, token.lexeme⟩

/-- The diagnostics that go with the error tokens among some tokens. -/
def reports (tokens : List Token) : List Diagnostic :=
  (tokens.filter Token.isError).map .ofToken

@[simp] theorem reports_nil : reports [] = [] := rfl

@[simp] theorem reports_append (a b : List Token) : reports (a ++ b) = reports a ++ reports b := by
  rw [reports, List.filter_append, List.map_append, reports, reports]

theorem reports_of_isError {token : Token} (h : token.isError = true) :
    reports [token] = [.ofToken token] := by
  rw [reports, List.filter_cons_of_pos h, List.filter_nil, List.map_singleton]

theorem reports_of_not_isError {token : Token} (h : token.isError = false) :
    reports [token] = [] := by
  rw [reports, List.filter_cons_of_neg (by simp [h]), List.filter_nil, List.map_nil]

/-! ## The cause of an error -/

section
variable {first : Char} {body : List Char}

theorem ofLexeme_of_letter (h : isLetter first = true) :
    Diagnostic.Cause.ofLexeme (String.ofList (first :: body)) = .invalidIdentifier := by
  simp [Diagnostic.Cause.ofLexeme, h]

theorem ofLexeme_of_quote :
    Diagnostic.Cause.ofLexeme (String.ofList ('"' :: body)) = .unterminatedString := by
  have hletter : isLetter '"' = false := by decide
  simp [Diagnostic.Cause.ofLexeme, hletter]

theorem ofLexeme_of_sign (hletter : isLetter first = false) (hquote : first ≠ '"') :
    Diagnostic.Cause.ofLexeme (String.ofList (first :: body)) = .unknownSymbol := by
  simp [Diagnostic.Cause.ofLexeme, hletter, hquote]

/-- Every error of a lexeme has the cause that its text tells. -/
theorem cause_of_classify {cause : Diagnostic.Cause}
    (h : (Lexeme.classify first body).verdict = .error cause) :
    cause = .ofLexeme (Lexeme.classify first body).text := by
  cases hshape : Shape.of first with
  | word =>
    rw [classify_of_word hshape] at h ⊢
    rw [ofLexeme_of_letter (isLetter_of_shape hshape)]
    simp only [Lexeme.classifyWord] at h
    split at h
    · cases h
    · split at h
      · cases h
      · exact (Except.error.inj h).symm
  | number =>
    rw [classify_of_number hshape] at h
    cases h
  | quoted =>
    obtain rfl := eq_quote_of_shape hshape
    simp only [Lexeme.classify, shape_of_quote] at h ⊢
    split at h
    · cases h
    · rename_i hlast
      rw [if_neg hlast, ofLexeme_of_quote]
      exact (Except.error.inj h).symm
  | symbol =>
    obtain ⟨hletter, _, hquote⟩ := of_shape_eq_symbol hshape
    rw [classify_of_symbol hshape] at h ⊢
    rw [ofLexeme_of_sign hletter hquote]
    simp only [Lexeme.classifySymbol] at h
    split at h
    · cases h
    · exact (Except.error.inj h).symm

/-- A lexeme with a kind is no error. -/
theorem ne_error_of_classify {kind : Kind}
    (h : (Lexeme.classify first body).verdict = .ok kind) : kind ≠ .error := by
  cases hshape : Shape.of first with
  | word =>
    rw [classify_of_word hshape] at h
    simp only [Lexeme.classifyWord] at h
    split at h
    · rename_i hword
      obtain rfl := Except.ok.inj h
      exact (kind_ne_of_mem_reservedWords (Kind.ofReservedWord?_eq_some_iff.1 hword)).2.1
    · split at h
      · obtain rfl := Except.ok.inj h
        simp
      · cases h
  | number =>
    rw [classify_of_number hshape] at h
    obtain rfl := Except.ok.inj h
    simp
  | quoted =>
    simp only [Lexeme.classify, hshape] at h
    split at h
    · obtain rfl := Except.ok.inj h
      simp
    · cases h
  | symbol =>
    rw [classify_of_symbol hshape] at h
    simp only [Lexeme.classifySymbol] at h
    split at h
    · rename_i hsymbol
      obtain rfl := Except.ok.inj h
      exact (kind_ne_of_mem_symbols (Kind.mem_of_ofSymbol? hsymbol)).2.1
    · cases h

end

namespace Scan

variable {σ : Type}

/-- A lexeme is entered as its token says. -/
theorem accept_reports (scan : Scan σ) (first : Char) (body : List Char) (after : Cursor) :
    let accepted := scan.accept (.classify first body) after
    accepted.2.diagnostics.toList = scan.diagnostics.toList ++ reports [accepted.1] ∧
      accepted.2.errorSeen = (scan.errorSeen || accepted.1.isError) := by
  unfold accept
  cases hverdict : (Lexeme.classify first body).verdict with
  | ok kind =>
    have hnot : (⟨kind, (Lexeme.classify first body).text, scan.lineNumber⟩ : Token).isError =
        false := decide_eq_false (ne_error_of_classify hverdict)
    simp only
    rw [reports_of_not_isError hnot, hnot, List.append_nil, Bool.or_false]
    exact ⟨rfl, rfl⟩
  | error cause =>
    obtain rfl := cause_of_classify hverdict
    simp only [report, Array.toList_push]
    rw [reports_of_isError rfl, show Token.isError ⟨.error, _, _⟩ = true from rfl, Bool.or_true]
    exact ⟨rfl, rfl⟩

variable [LineSupply σ]

/-! ## One call -/

/-- A call enters what the token that it gives is to report, and nothing when it fails. -/
theorem nextToken_reports (scan : Scan σ) :
    scan.nextToken.2.diagnostics.toList =
        scan.diagnostics.toList ++ reports (granted [scan.nextToken.1]) ∧
      scan.nextToken.2.errorSeen =
        (scan.errorSeen || (granted [scan.nextToken.1]).any Token.isError) := by
  fun_induction nextToken scan with
  | case1 scan hcursor =>
    have hnot : (Token.eof scan.lineNumber).isError = false := rfl
    show _ = _ ++ reports [Token.eof scan.lineNumber] ∧ _ = (_ || List.any [Token.eof _] _)
    rw [reports_of_not_isError hnot, List.append_nil, List.any_cons, hnot]
    simp
  | case2 scan cursor hcursor lexeme after hlexeme accepted =>
    obtain ⟨cut, _, rfl, _⟩ := Cursor.cuts_of_lexeme? hlexeme
    obtain ⟨hdiagnostics, hseen⟩ := scan.accept_reports cut.first cut.body after
    refine ⟨hdiagnostics, ?_⟩
    show _ = (_ || List.any [accepted.1] _)
    rw [List.any_cons, List.any_nil, Bool.or_false]
    exact hseen
  | case3 scan cursor hcursor hnone text supply hpull ih => exact ih
  | case4 scan cursor hcursor hnone supply hpull =>
    have hnot : (Token.eof (scan.lineNumber + 1)).isError = false := rfl
    show _ = _ ++ reports [Token.eof _] ∧ _ = (_ || List.any [Token.eof _] _)
    rw [reports_of_not_isError hnot, List.append_nil, List.any_cons, hnot]
    simp [finish]
  | case5 scan cursor hcursor hnone error supply hpull =>
    show _ = _ ++ reports [] ∧ _ = (_ || List.any [] _)
    simp [interrupt]

/-! ## Any number of calls -/

/-- Calls enter what their tokens are to report. -/
theorem calls_reports (scan : Scan σ) (n : Nat) :
    (scan.calls n).2.diagnostics.toList =
        scan.diagnostics.toList ++ reports (granted (scan.calls n).1) ∧
      (scan.calls n).2.errorSeen =
        (scan.errorSeen || (granted (scan.calls n).1).any Token.isError) := by
  induction n with
  | zero =>
    show _ = _ ++ reports [] ∧ _ = (_ || List.any [] _)
    simp [calls]
  | succ n ih =>
    obtain ⟨hdiagnostics, hseen⟩ := ih
    obtain ⟨hlast, hlastSeen⟩ := (scan.calls n).2.nextToken_reports
    rw [calls_succ, granted_append, reports_append, List.any_append, hlast, hlastSeen,
      hdiagnostics, hseen, List.append_assoc, Bool.or_assoc]
    exact ⟨rfl, rfl⟩

/-- All tokens that are left enter what they are to report. -/
theorem allTokens_reports {scan after : Scan σ} {tokens : List Token}
    (h : scan.allTokens = (.ok tokens, after)) :
    after.diagnostics.toList = scan.diagnostics.toList ++ reports tokens ∧
      after.errorSeen = (scan.errorSeen || tokens.any Token.isError) := by
  have hcall : scan.call .allTokens = (.tokens tokens, after) := by
    rw [Scan.call, h]
  obtain ⟨results, hgathers, hcalls⟩ := call_eq_iff.1 hcall
  have hgranted : granted results = tokens := by
    cases hgathers with
    | @tokens before last _ _ =>
      rw [granted_append, granted_map_ok]
      rfl
  have hreports := scan.calls_reports results.length
  rw [hcalls, hgranted] at hreports
  exact hreports

theorem reports_eq_nil_iff {tokens : List Token} :
    reports tokens = [] ↔ tokens.any Token.isError = false := by
  rw [reports, List.map_eq_nil_iff, List.filter_eq_nil_iff, List.any_eq_false]

/-- Calls add diagnostics behind the others and take none away. -/
theorem diagnostics_prefix_calls (scan : Scan σ) (n : Nat) :
    scan.diagnostics.toList <+: (scan.calls n).2.diagnostics.toList :=
  ⟨_, (scan.calls_reports n).1.symm⟩

theorem diagnostics_prefix_session (scan : Scan σ) (calls : List Call) :
    scan.diagnostics.toList <+: (scan.session calls).2.diagnostics.toList := by
  obtain ⟨n, hstate, _⟩ := scan.exists_calls_session calls
  rw [hstate]
  exact scan.diagnostics_prefix_calls n

/-- A scan begins with nothing to report. -/
theorem reports_start {supply : σ} {events : Array Event} {scan : Scan σ}
    (h : start supply events = .ready scan) :
    scan.diagnostics = #[] ∧ scan.errorSeen = false := by
  unfold start at h
  split at h
  · cases h
    exact ⟨rfl, rfl⟩
  · cases h
    exact ⟨rfl, rfl⟩
  · cases h

/-- From the start of a scan on, a session leaves it as some number of calls for the next token
do, and its replies gather what they give. These calls enter one diagnostic for each error token
that they give, in the same order, and no other; the flag is raised when there is one; and
whatever is called next only adds diagnostics behind those that are there. -/
theorem session_gathers_calls {supply : σ} {events : Array Event} {scan : Scan σ}
    (h : start supply events = .ready scan) :
    (∀ calls, ∃ n, (scan.session calls).2 = (scan.calls n).2 ∧
      GathersAll calls (scan.calls n).1 (scan.session calls).1) ∧
    (∀ n, (scan.calls n).2.diagnostics.toList = reports (granted (scan.calls n).1) ∧
      ((scan.calls n).2.errorSeen = true ↔ (scan.calls n).2.diagnostics ≠ #[])) ∧
    (∀ n more, (scan.calls n).2.diagnostics.toList <+:
      (scan.calls (n + more)).2.diagnostics.toList) ∧
    ∀ calls more, (scan.session calls).2.diagnostics.toList <+:
      (scan.session (calls ++ more)).2.diagnostics.toList := by
  obtain ⟨hnone, hunseen⟩ := reports_start h
  refine ⟨scan.exists_calls_session, fun n => ?_, fun n more => ?_, fun calls more => ?_⟩
  · obtain ⟨hdiagnostics, hseen⟩ := scan.calls_reports n
    rw [hnone, List.nil_append] at hdiagnostics
    rw [hunseen, Bool.false_or] at hseen
    refine ⟨hdiagnostics, ?_⟩
    rw [hseen, Ne, ← Array.toList_eq_nil_iff, hdiagnostics, reports_eq_nil_iff, Bool.not_eq_false]
  · rw [calls_add]
    exact diagnostics_prefix_calls ..
  · rw [session_append]
    exact diagnostics_prefix_session ..

/-- Two errors on the first line, a failure, and a string that is not closed. -/
def troubledLines : List Pull :=
  [.line "X =", .failed .notText, .line "a \"b"]

theorem session_gathers_troubled_calls :
    ∃ scan : Scan Answers, start ⟨troubledLines⟩ = .ready scan ∧
      ∃ n, (scan.session [.nextToken, .allTokens, .allTokens]).2 = (scan.calls n).2 ∧
        reports (granted (scan.calls n).1) = [⟨.invalidIdentifier, 1, "X"⟩,
          ⟨.unknownSymbol, 1, "="⟩, ⟨.unterminatedString, 2, "\"b"⟩] := by
  have hstart : start (⟨troubledLines⟩ : Answers) =
      .ready (onFirstLine ⟨troubledLines.tail⟩ (some "X =") #[]) := rfl
  obtain ⟨hsessions, hreports, _⟩ := session_gathers_calls hstart
  obtain ⟨n, hstate, _⟩ := hsessions [.nextToken, .allTokens, .allTokens]
  refine ⟨_, hstart, n, hstate, ?_⟩
  rw [← (hreports n).1, ← hstate]
  decide +kernel

end Scan

end Lexis
