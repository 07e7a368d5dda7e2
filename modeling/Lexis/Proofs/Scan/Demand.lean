import Lexis.Proofs.Scan.Gathering
import Lexis.Proofs.Supply.Pulls

/-!
# Reading on demand

A scan pulls a line when it has to and not before. Seen over a supply that counts its pulls, every
scan keeps the same account of them (`Accounts`): its line number is the number of pulls that
succeeded, it has run out exactly when the last answer was the end of the input, and nothing was
asked after that.

* `Accounts.nextToken`, `Accounts.session`: the account is kept by every call.
* `session_of_exhausted`: at the end of the input calls give the end token and change nothing.
* `session_mapSupply`: to count the pulls changes nothing either.
-/

set_option autoImplicit false

namespace Lexis

namespace Scan

variable {σ τ : Type}

/-! ## Another supply with the same answers -/

/-- The scan with its supply replaced by what `f` makes of it. -/
def mapSupply (f : σ → τ) (scan : Scan σ) : Scan τ :=
  { scan with supply := f scan.supply }

theorem cursor_mapSupply (f : σ → τ) (scan : Scan σ) :
    (scan.mapSupply f).cursor = scan.cursor := rfl

theorem mapSupply_accept (f : σ → τ) (scan : Scan σ) (lexeme : Lexeme) (after : Cursor) :
    (scan.mapSupply f).accept lexeme after =
      ((scan.accept lexeme after).1, (scan.accept lexeme after).2.mapSupply f) := by
  unfold accept
  cases lexeme.verdict <;> rfl

section
variable [LineSupply σ] [LineSupply τ] {f : σ → τ}
  (hf : ∀ s, LineSupply.pull (f s) = ((LineSupply.pull s).1, f (LineSupply.pull s).2))
include hf

theorem pull_mapSupply {scan : Scan σ} {answer : Pull} {supply : σ}
    (h : LineSupply.pull scan.supply = (answer, supply)) :
    LineSupply.pull (scan.mapSupply f).supply = (answer, f supply) := by
  rw [mapSupply, hf, h]

theorem nextToken_mapSupply (scan : Scan σ) :
    (scan.mapSupply f).nextToken = (scan.nextToken.1, scan.nextToken.2.mapSupply f) := by
  fun_induction nextToken scan with
  | case1 scan hcursor => exact nextToken_of_exhausted hcursor
  | case2 scan cursor hcursor lexeme after hlexeme accepted =>
    rw [nextToken_of_lexeme ((scan.cursor_mapSupply f).trans hcursor) hlexeme, mapSupply_accept]
  | case3 scan cursor hcursor hnone text supply hpull ih =>
    rw [nextToken_of_line ((scan.cursor_mapSupply f).trans hcursor) hnone
      (pull_mapSupply hf hpull)]
    exact ih
  | case4 scan cursor hcursor hnone supply hpull =>
    rw [nextToken_of_finished ((scan.cursor_mapSupply f).trans hcursor) hnone
      (pull_mapSupply hf hpull)]
    rfl
  | case5 scan cursor hcursor hnone error supply hpull =>
    rw [nextToken_of_failed ((scan.cursor_mapSupply f).trans hcursor) hnone
      (pull_mapSupply hf hpull)]
    rfl

theorem calls_mapSupply (scan : Scan σ) (n : Nat) :
    (scan.mapSupply f).calls n = ((scan.calls n).1, (scan.calls n).2.mapSupply f) := by
  induction n with
  | zero => rfl
  | succ n ih => rw [calls_succ, calls_succ, ih, nextToken_mapSupply hf]

theorem session_mapSupply (scan : Scan σ) (calls : List Call) :
    (scan.mapSupply f).session calls =
      ((scan.session calls).1, (scan.session calls).2.mapSupply f) := by
  obtain ⟨results, hgathers, hcalls⟩ := session_eq_iff.1 (Prod.eta (scan.session calls)).symm
  apply session_eq_iff.2
  refine ⟨results, hgathers, ?_⟩
  rw [calls_mapSupply hf, hcalls]

theorem start_mapSupply {supply : σ} {events : Array Event} {scan : Scan σ}
    (h : start supply events = .ready scan) :
    start (f supply) events = .ready (scan.mapSupply f) := by
  unfold start at h ⊢
  rw [hf]
  rcases hpull : LineSupply.pull supply with ⟨answer, supply'⟩
  rw [hpull] at h
  cases answer with
  | line text =>
    cases h
    rfl
  | finished =>
    cases h
    rfl
  | failed error => cases h

end

/-! ## The account of the pulls -/

theorem ne_none_of_cursor {scan : Scan σ} {cursor : Cursor} (h : scan.cursor = some cursor) :
    scan.cursor ≠ none := by
  rw [h]
  exact Option.some_ne_none cursor

/-- The answers that a scan has had when its supply was `origin` at first. -/
def answered [LineSupply σ] (origin : σ) (scan : Scan (Counted σ)) : List Pull :=
  LineSupply.answers origin scan.supply.pulls

structure Accounts [LineSupply σ] (origin : σ) (scan : Scan (Counted σ)) : Prop where
  supply : scan.supply.supply = LineSupply.after origin scan.supply.pulls
  /-- The first line was pulled. -/
  begun : 0 < scan.supply.pulls
  lineNumber : scan.lineNumber = (scan.answered origin).countP Pull.succeeded
  exhausted : scan.cursor = none ↔ (scan.answered origin).getLast? = some .finished
  /-- The end of the input was not followed by a pull. -/
  once : .finished ∉ (scan.answered origin).dropLast
  /-- Behind a failure nothing is left on the line. -/
  idle : ∀ error, (scan.answered origin).getLast? = some (.failed error) →
    ∃ cursor, scan.cursor = some cursor ∧ cursor.skipBlanks.lexeme? = none

variable [LineSupply σ] {origin : σ} {scan : Scan (Counted σ)}

/-- Before the end the answers do not hold it. -/
theorem Accounts.finished_not_mem (h : Accounts origin scan) (hcursor : scan.cursor ≠ none) :
    .finished ∉ scan.answered origin := by
  intro hmem
  have hne : scan.answered origin ≠ [] := List.ne_nil_of_mem hmem
  have hlast := List.getLast?_eq_some_getLast hne
  rw [← List.dropLast_concat_getLast hne, List.mem_append, List.mem_singleton] at hmem
  rcases hmem with hmem | hmem
  · exact h.once hmem
  · rw [← hmem] at hlast
    exact hcursor (h.exhausted.2 hlast)

theorem Accounts.accept (h : Accounts origin scan) {cursor after : Cursor} {lexeme : Lexeme}
    (hcursor : scan.cursor = some cursor)
    (hlexeme : cursor.skipBlanks.lexeme? = some (lexeme, after)) :
    Accounts origin (scan.accept lexeme after).2 := by
  have hsupply := scan.supply_accept lexeme after
  have hanswered : (scan.accept lexeme after).2.answered origin = scan.answered origin := by
    rw [answered, hsupply, answered]
  have hlast : (scan.answered origin).getLast? ≠ some .finished := by
    rw [Ne, ← h.exhausted]
    exact ne_none_of_cursor hcursor
  constructor
  · rw [hsupply]
    exact h.supply
  · rw [hsupply]
    exact h.begun
  · rw [lineNumber_accept, hanswered]
    exact h.lineNumber
  · rw [cursor_accept, hanswered]
    simp [hlast]
  · rw [hanswered]
    exact h.once
  · intro error herror
    rw [hanswered] at herror
    obtain ⟨other, hother, hnone⟩ := h.idle error herror
    obtain rfl := Option.some.inj (hcursor.symm.trans hother)
    rw [hlexeme] at hnone
    cases hnone

/-- A pull adds its answer to the others. -/
theorem Accounts.answered_of_pull (h : Accounts origin scan) {answer : Pull} {supply : Counted σ}
    {next : Scan (Counted σ)} (hpull : LineSupply.pull scan.supply = (answer, supply))
    (hsupply : next.supply = supply) :
    next.answered origin = scan.answered origin ++ [answer] := by
  rw [Counted.pull_eq, h.supply, Prod.mk.injEq] at hpull
  obtain ⟨rfl, rfl⟩ := hpull
  rw [answered, hsupply]
  rfl

/-- A pull is entered, whatever its answer is. -/
theorem Accounts.of_pull (h : Accounts origin scan) (hcursor : scan.cursor ≠ none)
    {answer : Pull} {supply : Counted σ} {next : Scan (Counted σ)}
    (hpull : LineSupply.pull scan.supply = (answer, supply)) (hsupply : next.supply = supply)
    (hnumber : next.lineNumber = scan.lineNumber + [answer].countP Pull.succeeded)
    (hexhausted : next.cursor = none ↔ answer = .finished)
    (hidle : ∀ error, answer = .failed error →
      ∃ cursor, next.cursor = some cursor ∧ cursor.skipBlanks.lexeme? = none) :
    Accounts origin next := by
  have hanswered := h.answered_of_pull hpull hsupply
  rw [Counted.pull_eq, h.supply, Prod.mk.injEq] at hpull
  obtain ⟨rfl, rfl⟩ := hpull
  constructor
  · rw [hsupply]
    rfl
  · rw [hsupply]
    exact Nat.succ_pos _
  · rw [hnumber, hanswered, List.countP_append, ← h.lineNumber]
  · rw [hexhausted, hanswered, List.getLast?_concat, Option.some.injEq]
  · rw [hanswered, List.dropLast_concat]
    exact h.finished_not_mem hcursor
  · intro error herror
    rw [hanswered, List.getLast?_concat, Option.some.injEq] at herror
    exact hidle error herror

theorem Accounts.enterLine (h : Accounts origin scan) (hcursor : scan.cursor ≠ none)
    {text : String} {supply : Counted σ}
    (hpull : LineSupply.pull scan.supply = (.line text, supply)) :
    Accounts origin (scan.enterLine text supply) := by
  refine h.of_pull hcursor hpull rfl rfl ?_ ?_
  · simp [Scan.enterLine]
  · intro error herror
    cases herror

theorem Accounts.finish (h : Accounts origin scan) (hcursor : scan.cursor ≠ none)
    {supply : Counted σ} (hpull : LineSupply.pull scan.supply = (.finished, supply)) :
    Accounts origin (scan.finish supply) := by
  refine h.of_pull hcursor hpull rfl rfl ?_ ?_
  · simp [Scan.finish]
  · intro error herror
    cases herror

theorem Accounts.interrupt (h : Accounts origin scan) (hcursor : scan.cursor ≠ none)
    {cursor : Cursor} (hnone : cursor.skipBlanks.lexeme? = none) {error : IoError}
    {supply : Counted σ} (hpull : LineSupply.pull scan.supply = (.failed error, supply)) :
    Accounts origin (scan.interrupt cursor.skipBlanks supply) := by
  refine h.of_pull hcursor hpull rfl rfl ?_ ?_
  · simp [Scan.interrupt]
  · intro _ _
    exact ⟨cursor.skipBlanks, rfl, by rw [Cursor.skipBlanks_idem, hnone]⟩

/-- Every call keeps the account. -/
theorem Accounts.nextToken (h : Accounts origin scan) : Accounts origin scan.nextToken.2 := by
  fun_induction Scan.nextToken scan with
  | case1 scan hcursor => exact h
  | case2 scan cursor hcursor lexeme after hlexeme accepted => exact h.accept hcursor hlexeme
  | case3 scan cursor hcursor hnone text supply hpull ih =>
    exact ih (h.enterLine (ne_none_of_cursor hcursor) hpull)
  | case4 scan cursor hcursor hnone supply hpull =>
    exact h.finish (ne_none_of_cursor hcursor) hpull
  | case5 scan cursor hcursor hnone error supply hpull =>
    exact h.interrupt (ne_none_of_cursor hcursor) hnone hpull

theorem Accounts.calls (h : Accounts origin scan) (n : Nat) :
    Accounts origin (scan.calls n).2 := by
  induction n with
  | zero => exact h
  | succ n ih =>
    rw [calls_succ]
    exact ih.nextToken

theorem Accounts.session (h : Accounts origin scan) (calls : List Call) :
    Accounts origin (scan.session calls).2 := by
  obtain ⟨n, hstate, _⟩ := scan.exists_calls_session calls
  rw [hstate]
  exact h.calls n

theorem accounts_onFirstLine {supply : σ} {line : Option String} (events : Array Event)
    (hline : line = none ↔ (LineSupply.pull supply).1 = .finished)
    (hsucceeded : (LineSupply.pull supply).1.succeeded = true) :
    Accounts supply (onFirstLine ⟨(LineSupply.pull supply).2, 1⟩ line events) := by
  have hanswered : answered supply (onFirstLine ⟨(LineSupply.pull supply).2, 1⟩ line events) =
      [(LineSupply.pull supply).1] := rfl
  constructor
  · rfl
  · exact Nat.one_pos
  · rw [hanswered, List.countP_cons, hsucceeded]
    rfl
  · rw [hanswered, List.getLast?_singleton, Option.some.injEq, ← hline]
    simp [onFirstLine]
  · rw [hanswered]
    simp
  · intro error herror
    rw [hanswered, List.getLast?_singleton, Option.some.injEq] at herror
    rw [herror] at hsucceeded
    cases hsucceeded

/-- A scan begins with the account of its first pull. -/
theorem accounts_start {supply : σ} {events : Array Event}
    (h : start (⟨supply, 0⟩ : Counted σ) events = .ready scan) : Accounts supply scan := by
  unfold start at h
  rw [Counted.pull_eq] at h
  cases hanswer : (LineSupply.pull supply).1 with
  | line text =>
    simp only [hanswer] at h
    cases h
    exact accounts_onFirstLine events (by simp [hanswer]) (by rw [hanswer]; rfl)
  | finished =>
    simp only [hanswer] at h
    cases h
    exact accounts_onFirstLine events (by simp [hanswer]) (by rw [hanswer]; rfl)
  | failed error =>
    simp only [hanswer] at h
    cases h

/-! ## What follows from the account -/

theorem Accounts.pulls_eq (h : Accounts origin scan) :
    scan.supply.pulls = scan.lineNumber + (scan.answered origin).countP Pull.isFailed := by
  rw [h.lineNumber, Pull.countP_succeeded_add_countP_isFailed, answered,
    LineSupply.length_answers]

theorem Accounts.cursor_eq_none_iff (h : Accounts origin scan) :
    scan.cursor = none ↔ .finished ∈ scan.answered origin := by
  constructor
  · intro hcursor
    exact List.mem_of_getLast? (h.exhausted.1 hcursor)
  · intro hmem
    by_cases hcursor : scan.cursor = none
    · exact hcursor
    · exact absurd hmem (h.finished_not_mem hcursor)

/-- When a call has given a token, the last pull did not fail. -/
theorem Accounts.getLast?_of_token (h : Accounts origin scan) {token : Token}
    (htoken : scan.nextToken.1 = .ok token) (error : IoError) :
    (scan.nextToken.2.answered origin).getLast? ≠ some (.failed error) := by
  intro hlast
  fun_induction Scan.nextToken scan with
  | case1 scan hcursor =>
    rw [h.exhausted.1 hcursor] at hlast
    cases hlast
  | case2 scan cursor hcursor lexeme after hlexeme accepted =>
    have hanswered : accepted.2.answered origin = scan.answered origin := by
      rw [answered, scan.supply_accept lexeme after, answered]
    rw [hanswered] at hlast
    obtain ⟨other, hother, hnone⟩ := h.idle error hlast
    obtain rfl := Option.some.inj (hcursor.symm.trans hother)
    rw [hlexeme] at hnone
    cases hnone
  | case3 scan cursor hcursor hnone text supply hpull ih =>
    exact ih (h.enterLine (ne_none_of_cursor hcursor) hpull) htoken hlast
  | case4 scan cursor hcursor hnone supply hpull =>
    rw [(h.finish (ne_none_of_cursor hcursor) hpull).exhausted.1 rfl] at hlast
    cases hlast
  | case5 scan cursor hcursor hnone error supply hpull => cases htoken

/-! ## The end of the input -/

/-- The reply to a call when nothing is left and `line` is the number of the last line. -/
def Call.replyAtEnd (line : Nat) : Call → Reply
  | .nextToken => .token (.eof line)
  | .allTokens => .tokens [.eof line]

theorem call_of_exhausted {scan : Scan σ} (h : scan.cursor = none) (call : Call) :
    scan.call call = (call.replyAtEnd scan.lineNumber, scan) := by
  have hnext := nextToken_of_exhausted h
  cases call with
  | nextToken => rw [Scan.call, hnext, Call.replyAtEnd]
  | allTokens =>
    have hnone : ∀ token ∈ ([] : List Token), token.isEof = false := by simp
    have hall := allTokens_of_end hnone rfl hnext (Token.isEof_eof _)
    rw [Scan.call, hall, Call.replyAtEnd, List.nil_append]

/-- At the end of the input calls give the end token and change nothing. -/
theorem session_of_exhausted {scan : Scan σ} (h : scan.cursor = none) (calls : List Call) :
    scan.session calls = (calls.map (·.replyAtEnd scan.lineNumber), scan) := by
  induction calls with
  | nil => rfl
  | cons call calls ih => rw [Scan.session, call_of_exhausted h, ih, List.map_cons]

/-! ## The line of a token -/

/-- The token that a call has given last. -/
def Reply.latest? : Reply → Option Token
  | .token given => some given
  | .tokens given => given.getLast?
  | .failed _ => none

/-- A token that was just given stands on the line that is current. -/
theorem line_of_latest {scan : Scan σ} {call : Call} {token : Token}
    (h : (scan.call call).1.latest? = some token) :
    token.line = (scan.call call).2.lineNumber := by
  obtain ⟨results, hgathers, hcalls⟩ := call_eq_iff.1 (Prod.eta (scan.call call)).symm
  generalize scan.call call = replied at *
  obtain ⟨reply, after⟩ := replied
  simp only at h hgathers hcalls ⊢
  cases hgathers with
  | token given =>
    obtain rfl := Option.some.inj h
    have hnext := calls_singleton_iff.1 hcalls
    have hline := scan.lineNumber_nextToken.2
    rw [hnext] at hline
    exact hline given rfl
  | refusal error => cases h
  | @tokens before last _ _ =>
    rw [Reply.latest?, List.getLast?_concat, Option.some.injEq] at h
    obtain ⟨mid, _, hnext⟩ := calls_concat_inv hcalls
    have hline := mid.lineNumber_nextToken.2
    rw [hnext] at hline
    exact h ▸ hline last rfl
  | loss _ error => cases h

end Scan

end Lexis
