import Lexis.Proofs.Scan.ByColumn
import Lexis.Proofs.Supply.Logged

/-!
# The course of a scan

Turns lead from a first scan to another one, and on their way calls give tokens (`Reaches`). From
the first line of a source on the place is always in the line (`Reaches.isValid`). A scan goes
forward with every turn that is not the last one of its call, so over a source with finitely many
lines every call ends (`exists_runsAll`), wherever it begins (`Reaches.finishes`).

A session with a scan over a supply of lines is a course of turns (`reaches_session`).
-/

set_option autoImplicit false

namespace Lexis

namespace IndexedScan

variable {σ : Type} {pull : σ → Pull × σ} {scan : IndexedScan σ}

/-! ## Calls end -/

theorem RunsAll.of_again {next after : IndexedScan σ} {result : Except IoError (List Token)}
    (hturn : scan.turn pull = some (.again next)) (h : RunsAll pull next result after) :
    RunsAll pull scan result after := by
  cases h with
  | last h hend => exact .last (.again hturn h) hend
  | failed h => exact .failed (.again hturn h)
  | more h hnot hall => exact .more (.again hturn h) hnot hall

/-- The characters from the column to the end of the line. -/
def charactersAhead (scan : IndexedScan σ) : Nat :=
  match scan.line with
  | some line => line.length - scan.column
  | none => 0

theorem charactersAhead_of_line {line : List Char} (h : scan.line = some line) :
    scan.charactersAhead = line.length - scan.column := by
  rw [charactersAhead, h]

theorem charactersAhead_at {line : List Char} (h : scan.line = some line) (column : Nat) :
    charactersAhead { scan with column } = line.length - column :=
  charactersAhead_of_line h

theorem charactersAhead_accept {line : List Char} (h : scan.line = some line) (lexeme : Lexeme)
    (stop : Nat) : (scan.accept lexeme stop).2.charactersAhead = line.length - stop := by
  rw [charactersAhead_of_line ((line_accept ..).trans h), column_accept]

theorem supply_accept (lexeme : Lexeme) (stop : Nat) :
    (scan.accept lexeme stop).2.supply = scan.supply := by
  unfold accept
  cases lexeme.verdict <;> rfl

theorem exists_runsAll_of_exhausted (pull : σ → Pull × σ) (h : scan.line = none) :
    ∃ result after, RunsAll pull scan result after := by
  have hturn : scan.turn pull = some (.done (.ok (.eof scan.lineNumber)) scan) := by
    rw [turn, h]
  exact ⟨_, _, .last (.done hturn) (Token.isEof_eof _)⟩

/-- On a line a call for all tokens comes to the next pull, and ends if it does behind that. -/
theorem exists_runsAll_of_pull {supply : σ}
    (hnext : ∀ text others, pull supply = (.line text, others) → ∀ next : IndexedScan σ,
      next.supply = others → ∃ result after, RunsAll pull next result after)
    (scan : IndexedScan σ) (hsupply : scan.supply = supply) :
    ∃ result after, RunsAll pull scan result after := by
  obtain ⟨turn, hturn, his⟩ := exists_turn pull scan
  cases his with
  | eof hline => exact exists_runsAll_of_exhausted pull hline
  | @line text others hline hpull =>
    rw [hsupply] at hpull
    obtain ⟨result, after, hruns⟩ := hnext text others hpull (scan.enterLine text others) rfl
    exact ⟨result, after, hruns.of_again hturn⟩
  | @finished others hline hpull =>
    have hnone : (scan.finish others).line = none := rfl
    obtain ⟨result, after, hruns⟩ := exists_runsAll_of_exhausted pull hnone
    exact ⟨result, after, hruns.of_again hturn⟩
  | failed hline hpull => exact ⟨_, _, .failed (.done hturn)⟩
  | @blank line hline hlt =>
    have hless : charactersAhead { scan with column := scan.column + 1 } <
        scan.charactersAhead := by
      rw [charactersAhead_at hline, charactersAhead_of_line hline]
      omega
    obtain ⟨result, after, hruns⟩ :=
      exists_runsAll_of_pull hnext { scan with column := scan.column + 1 } hsupply
    exact ⟨result, after, hruns.of_again hturn⟩
  | @lexeme line lexeme stop hline hless hstop hnot =>
    have hless' : (scan.accept lexeme stop).2.charactersAhead < scan.charactersAhead := by
      rw [charactersAhead_accept hline, charactersAhead_of_line hline]
      omega
    obtain ⟨result, after, hruns⟩ :=
      exists_runsAll_of_pull hnext (scan.accept lexeme stop).2 ((supply_accept ..).trans hsupply)
    refine ⟨_, after, .more (.done hturn) ?_ hruns⟩
    rw [token_accept]
    exact hnot
termination_by scan.charactersAhead

/-- Over a source with finitely many lines every call ends. -/
theorem exists_runsAll {most : Nat} (scan : IndexedScan σ)
    (h : GivesAtMost pull most scan.supply) : ∃ result after, RunsAll pull scan result after := by
  induction most using Nat.strong_induction_on generalizing scan with
  | h most ih =>
    refine exists_runsAll_of_pull (fun text others hpull next hsupply => ?_) scan rfl
    obtain ⟨less, hless, hothers⟩ := h.of_line hpull
    exact ih less hless next (hsupply ▸ hothers)

theorem RunsAll.exists_runs {result : Except IoError (List Token)} {after : IndexedScan σ}
    (h : RunsAll pull scan result after) : ∃ result next, Runs pull scan result next := by
  cases h with
  | last h _ => exact ⟨_, _, h⟩
  | failed h => exact ⟨_, _, h⟩
  | more h _ _ => exact ⟨_, _, h⟩

/-! ## What calls lead to -/

/-- Turns lead from a first scan to another one, and the calls among them have given some
tokens. -/
inductive Reaches (pull : σ → Pull × σ) (first : IndexedScan σ) :
    List Token → IndexedScan σ → Prop
  | refl : Reaches pull first [] first
  | again {tokens : List Token} {scan next : IndexedScan σ} (h : Reaches pull first tokens scan)
      (hturn : scan.turn pull = some (.again next)) : Reaches pull first tokens next
  | done {tokens : List Token} {scan after : IndexedScan σ} {result : Except IoError Token}
      (h : Reaches pull first tokens scan) (hturn : scan.turn pull = some (.done result after)) :
    Reaches pull first (tokens ++ Scan.granted [result]) after

section
variable {first : IndexedScan σ} {tokens : List Token} {after : IndexedScan σ}

theorem Reaches.runs (h : Reaches pull first tokens scan) {result : Except IoError Token}
    (hruns : Runs pull scan result after) :
    Reaches pull first (tokens ++ Scan.granted [result]) after := by
  induction hruns with
  | done hturn => exact h.done hturn
  | again hturn _ ih => exact ih (h.again hturn)

/-- All tokens that a call gives are given. -/
theorem Reaches.runsAll (h : Reaches pull first tokens scan)
    {result : Except IoError (List Token)} (hruns : RunsAll pull scan result after) :
    ∀ given, result = .ok given → Reaches pull first (tokens ++ given) after := by
  induction hruns generalizing tokens with
  | last hruns _ =>
    rintro given ⟨⟩
    exact h.runs hruns
  | failed hruns => exact nofun
  | @more scan next after token result hruns _ _ ih =>
    intro given hgiven
    cases result with
    | error error => cases hgiven
    | ok others =>
      obtain rfl := Except.ok.inj hgiven
      have hothers := ih (h.runs hruns) others rfl
      rwa [List.append_assoc] at hothers

/-- A call for all tokens gives them up to the first end token. -/
theorem RunsAll.ok {result : Except IoError (List Token)} (h : RunsAll pull scan result after) :
    ∀ given, result = .ok given → ∃ before last, given = before ++ [last] ∧
      (∀ token ∈ before, token.isEof = false) ∧ last.isEof = true := by
  induction h with
  | @last scan after token _ hend =>
    rintro given ⟨⟩
    exact ⟨[], token, rfl, by simp, hend⟩
  | failed => exact nofun
  | @more scan next after token result _ hnot _ ih =>
    intro given hgiven
    cases result with
    | error error => cases hgiven
    | ok others =>
      obtain rfl := Except.ok.inj hgiven
      obtain ⟨before, last, rfl, hbefore, hlast⟩ := ih others rfl
      exact ⟨token :: before, last, rfl, List.forall_mem_cons.2 ⟨hnot, hbefore⟩, hlast⟩

end

theorem Reaches.isValid {first scan : IndexedScan σ} {tokens : List Token}
    (hfirst : first.IsValid) (h : Reaches pull first tokens scan) : scan.IsValid := by
  induction h with
  | refl => exact hfirst
  | again _ hturn _ => exact (isTurn_of_turn hturn).again.1
  | done _ hturn ih => exact ((isTurn_of_turn hturn).done ih).1

/-! ## Before the end of the source -/

/-- The input has run out, or there are finitely many lines to come. -/
def Finishes (pull : σ → Pull × σ) (scan : IndexedScan σ) : Prop :=
  scan.line = none ∨ ∃ most, GivesAtMost pull most scan.supply

theorem Reaches.finishes {first scan : IndexedScan σ} {tokens : List Token}
    (hfirst : first.Finishes pull) (h : Reaches pull first tokens scan) : scan.Finishes pull := by
  induction h with
  | refl => exact hfirst
  | again _ hturn ih =>
    cases isTurn_of_turn hturn with
    | line hline hpull =>
      obtain ⟨most, hmost⟩ := ih.resolve_left hline
      obtain ⟨less, _, hless⟩ := hmost.of_line hpull
      exact .inr ⟨less, hless⟩
    | finished hline hpull => exact .inl rfl
    | blank hline hlt => exact ih
  | done _ hturn ih =>
    cases isTurn_of_turn hturn with
    | eof hline => exact ih
    | failed hline hpull =>
      obtain ⟨most, hmost⟩ := ih.resolve_left hline
      exact .inr ⟨most, hmost.of_failed hpull⟩
    | lexeme hline hless hstop hnot =>
      rw [Finishes, line_accept, supply_accept]
      exact ih

theorem Finishes.exists_runsAll (h : scan.Finishes pull) :
    ∃ result after, RunsAll pull scan result after := by
  rcases h with hline | ⟨most, hmost⟩
  · exact exists_runsAll_of_exhausted pull hline
  · exact scan.exists_runsAll hmost

/-! ## The first scan -/

theorem start?_cases {supply : σ} {events : Array Event} {first : IndexedScan σ}
    (h : start? pull supply events = some first) :
    (∃ text next, pull supply = (.line text, next) ∧
      first = onFirstLine next (some text) events) ∨
    ∃ next, pull supply = (.finished, next) ∧ first = onFirstLine next none events := by
  unfold start? at h
  rcases hpull : pull supply with ⟨answer, next⟩
  rw [hpull] at h
  cases answer with
  | line text => exact .inl ⟨text, next, rfl, (Option.some.inj h).symm⟩
  | finished => exact .inr ⟨next, rfl, (Option.some.inj h).symm⟩
  | failed error => cases h

theorem finishes_of_start {supply : σ} {events : Array Event} {first : IndexedScan σ} {most : Nat}
    (h : start? pull supply events = some first) (hmost : GivesAtMost pull most supply) :
    first.Finishes pull := by
  rcases start?_cases h with ⟨text, next, hpull, rfl⟩ | ⟨next, hpull, rfl⟩
  · obtain ⟨less, _, hless⟩ := hmost.of_line hpull
    exact .inr ⟨less, hless⟩
  · exact .inl rfl

theorem isValid_of_start {supply : σ} {events : Array Event} {first : IndexedScan σ}
    (h : start? pull supply events = some first) : first.IsValid := by
  rcases start?_cases h with ⟨text, next, _, rfl⟩ | ⟨next, _, rfl⟩
  · exact ⟨fun _ _ => Nat.zero_le _, fun _ => rfl⟩
  · exact ⟨nofun, fun _ => rfl⟩

/-- The first scan by columns is the first one with a cursor. -/
theorem start?_of_start {τ : Type} [LineSupply τ] {supply : τ} {events : Array Event}
    {scan : Scan τ} (h : Scan.start supply events = .ready scan) :
    start? LineSupply.pull supply events = some scan.indexed := by
  unfold Scan.start at h
  unfold start?
  rcases hpull : LineSupply.pull supply with ⟨answer, next⟩
  rw [hpull] at h
  cases answer with
  | line text =>
    cases h
    rw [Scan.indexed_onFirstLine]
  | finished =>
    cases h
    rw [Scan.indexed_onFirstLine]
  | failed error => cases h

end IndexedScan

/-! ## Sessions -/

namespace Scan

open IndexedScan (Reaches)

/-- The tokens that a reply gives. -/
def Reply.given : Reply → List Token
  | .token given => [given]
  | .tokens given => given
  | .failed _ => []

theorem given_sublist_of_gathers {call : Call} {results : List (Except IoError Token)}
    {reply : Reply} (h : Gathers call results reply) : reply.given.Sublist (granted results) := by
  cases h with
  | token token => exact List.Sublist.refl _
  | refusal error => exact List.nil_sublist _
  | tokens hbefore hlast =>
    rw [granted_append, granted_map_ok]
    exact List.Sublist.refl _
  | loss hbefore error => exact List.nil_sublist _

theorem given_sublist_of_gathersAll {calls : List Call} {results : List (Except IoError Token)}
    {replies : List Reply} (h : GathersAll calls results replies) :
    (replies.flatMap Reply.given).Sublist (granted results) := by
  induction h with
  | nil => exact List.nil_sublist _
  | cons h _ ih =>
    rw [List.flatMap_cons, granted_append]
    exact (given_sublist_of_gathers h).append ih

variable {τ : Type} [LineSupply τ]

theorem reaches_calls (scan : Scan τ) (n : Nat) :
    Reaches LineSupply.pull scan.indexed (granted (scan.calls n).1) (scan.calls n).2.indexed := by
  induction n with
  | zero => exact .refl
  | succ n ih =>
    rw [calls_succ, granted_append]
    exact ih.runs (scan.calls n).2.runs_nextToken

/-- A session is a course of turns. Its replies give the tokens of the calls in their order,
without those that were lost. -/
theorem reaches_session (scan : Scan τ) (calls : List Call) :
    ∃ tokens, Reaches LineSupply.pull scan.indexed tokens (scan.session calls).2.indexed ∧
      ((scan.session calls).1.flatMap Reply.given).Sublist tokens := by
  obtain ⟨n, hstate, hgathers⟩ := scan.exists_calls_session calls
  rw [hstate]
  exact ⟨_, scan.reaches_calls n, given_sublist_of_gathersAll hgathers⟩

end Scan

end Lexis
