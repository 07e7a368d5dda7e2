import Lexis.Scan.Session
import Lexis.Proofs.Scan.Course

/-!
# Calls over any source of lines

A source of lines need not have an end. Where calls over it do end, it has been asked finitely many
times, so they are calls over a supply: over the source when it is asked so many times at most, or
more often (`session_of_limited`). What is known of sessions with a scan over a supply is known of
these calls.
-/

set_option autoImplicit false

namespace Lexis

namespace IndexedScan

variable {σ : Type} {pull : σ → Pull × σ} {scan after : IndexedScan σ}

/-! ## A call ends in one way -/

theorem Runs.unique {result other : Except IoError Token} {next : IndexedScan σ}
    (h : Runs pull scan result after) (hother : Runs pull scan other next) :
    result = other ∧ after = next := by
  induction h with
  | done hturn =>
    cases hother with
    | done hturn' => cases hturn.symm.trans hturn'; exact ⟨rfl, rfl⟩
    | again hturn' _ => cases hturn.symm.trans hturn'
  | again hturn _ ih =>
    cases hother with
    | done hturn' => cases hturn.symm.trans hturn'
    | again hturn' hruns => cases hturn.symm.trans hturn'; exact ih hruns

theorem RunsAll.unique {result other : Except IoError (List Token)} {next : IndexedScan σ}
    (h : RunsAll pull scan result after) (hother : RunsAll pull scan other next) :
    result = other ∧ after = next := by
  induction h generalizing other next with
  | last hruns hend =>
    cases hother with
    | last hruns' _ =>
      obtain ⟨htoken, rfl⟩ := hruns.unique hruns'
      cases htoken
      exact ⟨rfl, rfl⟩
    | failed hruns' => cases (hruns.unique hruns').1
    | more hruns' hnot _ =>
      cases (hruns.unique hruns').1
      simp [hend] at hnot
  | failed hruns =>
    cases hother with
    | last hruns' _ => cases (hruns.unique hruns').1
    | failed hruns' =>
      obtain ⟨herror, rfl⟩ := hruns.unique hruns'
      cases herror
      exact ⟨rfl, rfl⟩
    | more hruns' _ _ => cases (hruns.unique hruns').1
  | more hruns hnot _ ih =>
    cases hother with
    | last hruns' hend =>
      cases (hruns.unique hruns').1
      simp [hend] at hnot
    | failed hruns' => cases (hruns.unique hruns').1
    | more hruns' _ hall =>
      obtain ⟨htoken, rfl⟩ := hruns.unique hruns'
      cases htoken
      obtain ⟨rfl, rfl⟩ := ih hall
      exact ⟨rfl, rfl⟩

/-! ## Turns with a limit -/

/-- The scan over its source with a limit. -/
def limit (pull : σ → Pull × σ) (scan : IndexedScan σ) (pulls : Nat) :
    IndexedScan (Limited pull) :=
  { scan with supply := ⟨scan.supply, pulls⟩ }

def Turn.limit (pull : σ → Pull × σ) (turn : Turn σ) (pulls : Nat) : Turn (Limited pull) :=
  match turn with
  | .again scan => .again (scan.limit pull pulls)
  | .done result scan => .done result (scan.limit pull pulls)

theorem advanceLine_limit (pulls : Nat) :
    (scan.limit pull (pulls + 1)).advanceLine LineSupply.pull =
      (scan.advanceLine pull).limit pull pulls := by
  have hpull : LineSupply.pull (scan.limit pull (pulls + 1)).supply =
      ((pull scan.supply).1, ⟨(pull scan.supply).2, pulls⟩) := rfl
  unfold advanceLine
  rw [hpull]
  rcases pull scan.supply with ⟨_ | _ | _, source⟩ <;> rfl

theorem accept_limit (lexeme : Lexeme) (stop pulls : Nat) :
    (scan.limit pull pulls).accept lexeme stop =
      ((scan.accept lexeme stop).1, (scan.accept lexeme stop).2.limit pull pulls) := by
  unfold accept
  cases lexeme.verdict <;> rfl

/-- A turn asks the source once, or not at all. -/
theorem exists_turn_limit {turn : Turn σ} (h : scan.turn pull = some turn) :
    ∃ n, ∀ m, (scan.limit pull (n + m)).turn LineSupply.pull = some (turn.limit pull m) := by
  have hadvance : ∀ m, (scan.limit pull (1 + m)).advanceLine LineSupply.pull =
      (scan.advanceLine pull).limit pull m := by
    intro m
    rw [Nat.add_comm]
    exact advanceLine_limit m
  have hline : ∀ m, (scan.limit pull m).line = scan.line := fun _ => rfl
  have hcolumn : ∀ m, (scan.limit pull m).column = scan.column := fun _ => rfl
  unfold IndexedScan.turn at h ⊢
  simp only [hline, hcolumn]
  cases hchars : scan.line with
  | none =>
    simp only [hchars, Option.some.injEq] at h
    subst h
    exact ⟨0, fun m => by simp [Turn.limit, limit]⟩
  | some chars =>
    simp only [hchars] at h
    cases hchar : chars[scan.column]? with
    | none =>
      simp only [hchar, Option.some.injEq] at h
      subst h
      exact ⟨1, fun m => by simp [hchar, hadvance]⟩
    | some c =>
      simp only [hchar] at h
      by_cases hblank : isBlank c = true
      · simp only [hblank, if_true, Option.some.injEq] at h
        subst h
        exact ⟨0, fun m => by simp [hchar, hblank, Turn.limit, limit]⟩
      · by_cases hcomment : c = '#'
        · rw [if_neg hblank, if_pos hcomment, Option.some.injEq] at h
          subst h
          exact ⟨1, fun m => by simp only [hchar, if_neg hblank, if_pos hcomment, hadvance]⟩
        · rw [if_neg hblank, if_neg hcomment] at h
          obtain ⟨found, hfound, rfl⟩ := Option.map_eq_some_iff.1 h
          exact ⟨0, fun m => by
            simp [hchar, hblank, hcomment, hfound, accept_limit, Turn.limit]⟩

/-- So a call that ends asks the source finitely often, and a limit that leaves it that often
changes nothing. -/
theorem Runs.exists_limit {result : Except IoError Token} (h : Runs pull scan result after) :
    ∃ n, ∀ m, Runs LineSupply.pull (scan.limit pull (n + m)) result (after.limit pull m) := by
  induction h with
  | done hturn =>
    obtain ⟨n, hn⟩ := exists_turn_limit hturn
    exact ⟨n, fun m => .done (hn m)⟩
  | again hturn _ ih =>
    obtain ⟨n, hn⟩ := exists_turn_limit hturn
    obtain ⟨k, hk⟩ := ih
    refine ⟨n + k, fun m => ?_⟩
    rw [Nat.add_assoc]
    exact .again (hn (k + m)) (hk m)

theorem RunsAll.exists_limit {result : Except IoError (List Token)}
    (h : RunsAll pull scan result after) :
    ∃ n, ∀ m, RunsAll LineSupply.pull (scan.limit pull (n + m)) result (after.limit pull m) := by
  induction h with
  | last hruns hend =>
    obtain ⟨n, hn⟩ := hruns.exists_limit
    exact ⟨n, fun m => .last (hn m) hend⟩
  | failed hruns =>
    obtain ⟨n, hn⟩ := hruns.exists_limit
    exact ⟨n, fun m => .failed (hn m)⟩
  | more hruns hnot _ ih =>
    obtain ⟨n, hn⟩ := hruns.exists_limit
    obtain ⟨k, hk⟩ := ih
    refine ⟨n + k, fun m => ?_⟩
    rw [Nat.add_assoc]
    exact .more (hn (k + m)) hnot (hk m)

/-! ## Sessions over any source -/

open Scan (Call Reply)

/-- What a call for the next token replies. -/
def replyOfToken : Except IoError Token → Reply
  | .ok token => .token token
  | .error error => .failed error

/-- What a call for all tokens replies. -/
def replyOfTokens : Except IoError (List Token) → Reply
  | .ok tokens => .tokens tokens
  | .error error => .failed error

/-- A sequence of calls, each of which ends, with these replies. -/
inductive RunsSession (pull : σ → Pull × σ) :
    IndexedScan σ → List Call → List Reply → IndexedScan σ → Prop
  | nil (scan : IndexedScan σ) : RunsSession pull scan [] [] scan
  | nextToken {scan next after : IndexedScan σ} {result : Except IoError Token}
      {calls : List Call} {replies : List Reply} (h : Runs pull scan result next)
      (hothers : RunsSession pull next calls replies after) :
    RunsSession pull scan (.nextToken :: calls) (replyOfToken result :: replies) after
  | allTokens {scan next after : IndexedScan σ} {result : Except IoError (List Token)}
      {calls : List Call} {replies : List Reply} (h : RunsAll pull scan result next)
      (hothers : RunsSession pull next calls replies after) :
    RunsSession pull scan (.allTokens :: calls) (replyOfTokens result :: replies) after

end IndexedScan

namespace Scan

open IndexedScan (Runs RunsAll RunsSession start? replyOfToken replyOfTokens)

section
variable {τ : Type} [LineSupply τ] (scan : Scan τ)

theorem call_nextToken :
    scan.call .nextToken = (replyOfToken scan.nextToken.1, scan.nextToken.2) := by
  rw [call]
  rcases scan.nextToken with ⟨_ | _, after⟩ <;> rfl

theorem call_allTokens :
    scan.call .allTokens = (replyOfTokens scan.allTokens.1, scan.allTokens.2) := by
  rw [call]
  rcases scan.allTokens with ⟨_ | _, after⟩ <;> rfl

end

variable {σ : Type} {pull : σ → Pull × σ}

theorem exists_session_of_runs {first after : IndexedScan σ} {calls : List Call}
    {replies : List Reply} (h : RunsSession pull first calls replies after) :
    ∃ n, ∀ m, ∀ scan : Scan (Limited pull), scan.indexed = first.limit pull (n + m) →
      (scan.session calls).1 = replies ∧
        (scan.session calls).2.indexed = after.limit pull m := by
  induction h with
  | nil first =>
    refine ⟨0, fun m scan hscan => ⟨rfl, ?_⟩⟩
    rwa [Nat.zero_add] at hscan
  | nextToken hruns _ ih =>
    obtain ⟨n, hn⟩ := hruns.exists_limit
    obtain ⟨k, hk⟩ := ih
    refine ⟨n + k, fun m scan hscan => ?_⟩
    rw [Nat.add_assoc] at hscan
    obtain ⟨rfl, hnext⟩ := (hn (k + m)).unique (hscan ▸ scan.runs_nextToken)
    obtain ⟨hreplies, hafter⟩ := hk m scan.nextToken.2 hnext.symm
    rw [session, call_nextToken]
    exact ⟨congrArg _ hreplies, hafter⟩
  | allTokens hall _ ih =>
    obtain ⟨n, hn⟩ := hall.exists_limit
    obtain ⟨k, hk⟩ := ih
    refine ⟨n + k, fun m scan hscan => ?_⟩
    rw [Nat.add_assoc] at hscan
    obtain ⟨rfl, hnext⟩ := (hn (k + m)).unique (hscan ▸ scan.runsAll_allTokens)
    obtain ⟨hreplies, hafter⟩ := hk m scan.allTokens.2 hnext.symm
    rw [session, call_allTokens]
    exact ⟨congrArg _ hreplies, hafter⟩

theorem start_limited {source : σ} {events : Array Event} {first : IndexedScan σ}
    (h : start? pull source events = some first) (pulls : Nat) :
    ∃ scan, start (⟨source, pulls + 1⟩ : Limited pull) events = .ready scan ∧
      scan.indexed = first.limit pull pulls := by
  have hnext : LineSupply.pull (⟨source, pulls + 1⟩ : Limited pull) =
      ((pull source).1, ⟨(pull source).2, pulls⟩) := rfl
  unfold start
  rw [hnext]
  rcases IndexedScan.start?_cases h with ⟨text, next, hpull, rfl⟩ | ⟨next, hpull, rfl⟩
  · rw [hpull]
    exact ⟨_, rfl, indexed_onFirstLine _ _ _⟩
  · rw [hpull]
    exact ⟨_, rfl, indexed_onFirstLine _ _ _⟩

/-- Calls that end, over any source of lines, are a session over a supply. With every limit that is
great enough the scan begins, gives the same replies, and stands behind them where the calls have
led to. -/
theorem session_of_limited {source : σ} {events : Array Event} {first after : IndexedScan σ}
    {calls : List Call} {replies : List Reply} (hstart : start? pull source events = some first)
    (h : RunsSession pull first calls replies after) :
    ∃ n, ∀ m, ∃ scan, start (⟨source, n + m⟩ : Limited pull) events = .ready scan ∧
      (scan.session calls).1 = replies ∧
      (scan.session calls).2.indexed = after.limit pull m := by
  obtain ⟨n, hn⟩ := exists_session_of_runs h
  refine ⟨n + 1, fun m => ?_⟩
  obtain ⟨scan, hready, hfirst⟩ := start_limited hstart (n + m)
  rw [Nat.add_right_comm]
  exact ⟨scan, hready, hn m scan hfirst⟩

end Scan

end Lexis
