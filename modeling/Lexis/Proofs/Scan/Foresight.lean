import Lexis.Proofs.Scan.Demand
import Lexis.Proofs.Scan.Retry

/-!
# No call looks ahead

What calls give does not depend on answers that the supply has not given yet. Two scans over
supplies with the same first answers stay in step (`InStep`) as long as they have pulled no more
than these answers; that holds for one call (`nextToken_inStep`), for any number of calls
(`calls_inStep`) and for sessions (`session_inStep`). So a supply without an end, too, is known by
its beginnings.

`session_on_demand` puts this together with the account that a scan keeps of its pulls.
-/

set_option autoImplicit false

namespace Lexis

namespace Scan

variable {σ τ : Type}

/-- Scans that look the same and have pulled as often. -/
structure InStep (a : Scan (Counted σ)) (b : Scan (Counted τ)) : Prop where
  view : a.view = b.view
  pulls : a.supply.pulls = b.supply.pulls

section
variable {a : Scan (Counted σ)} {b : Scan (Counted τ)} {s : Counted σ} {t : Counted τ}

theorem InStep.cursor_eq (h : InStep a b) : b.cursor = a.cursor :=
  (view_eq_iff.1 h.view).1.symm

theorem InStep.lineNumber_eq (h : InStep a b) : b.lineNumber = a.lineNumber :=
  (view_eq_iff.1 h.view).2.1.symm

theorem InStep.accept (h : InStep a b) (lexeme : Lexeme) (after : Cursor) :
    (b.accept lexeme after).1 = (a.accept lexeme after).1 ∧
      InStep (a.accept lexeme after).2 (b.accept lexeme after).2 := by
  obtain ⟨_, hnumber, hseen, hdiagnostics, hevents⟩ := view_eq_iff.1 h.view
  constructor
  · rw [accept_eq_token, accept_eq_token, hnumber]
  · refine ⟨view_accept hnumber hseen hdiagnostics hevents lexeme after, ?_⟩
    rw [supply_accept, supply_accept, h.pulls]

theorem InStep.enterLine (h : InStep a b) (hpulls : s.pulls = t.pulls) (text : String) :
    InStep (a.enterLine text s) (b.enterLine text t) := by
  refine ⟨?_, hpulls⟩
  show a.view.enterLine text () = b.view.enterLine text ()
  rw [h.view]

theorem InStep.finish (h : InStep a b) (hpulls : s.pulls = t.pulls) :
    InStep (a.finish s) (b.finish t) := by
  refine ⟨?_, hpulls⟩
  show a.view.finish () = b.view.finish ()
  rw [h.view]

theorem InStep.interrupt (h : InStep a b) (hpulls : s.pulls = t.pulls) (cursor : Cursor) :
    InStep (a.interrupt cursor s) (b.interrupt cursor t) := by
  refine ⟨?_, hpulls⟩
  show a.view.interrupt cursor () = b.view.interrupt cursor ()
  rw [h.view]

end

variable [LineSupply σ] [LineSupply τ]

/-! ## The number of pulls -/

theorem pulls_of_pull {counted supply : Counted σ} {answer : Pull}
    (h : LineSupply.pull counted = (answer, supply)) : supply.pulls = counted.pulls + 1 := by
  rw [Counted.pull_eq] at h
  obtain ⟨_, rfl⟩ := Prod.mk.inj h
  rfl

theorem pulls_le_nextToken (scan : Scan (Counted σ)) :
    scan.supply.pulls ≤ scan.nextToken.2.supply.pulls := by
  fun_induction nextToken scan with
  | case1 scan hcursor => exact Nat.le_refl _
  | case2 scan cursor hcursor lexeme after hlexeme accepted =>
    rw [show accepted.2.supply = scan.supply from scan.supply_accept lexeme after]
  | case3 scan cursor hcursor hnone text supply hpull ih =>
    have hmore : (scan.enterLine text supply).supply.pulls = scan.supply.pulls + 1 :=
      pulls_of_pull hpull
    omega
  | case4 scan cursor hcursor hnone supply hpull =>
    have hmore := pulls_of_pull hpull
    simp only [finish]
    omega
  | case5 scan cursor hcursor hnone error supply hpull =>
    have hmore := pulls_of_pull hpull
    simp only [interrupt]
    omega

/-! ## One call -/

section
variable {s : σ} {t : τ} {n : Nat} {a : Scan (Counted σ)} {b : Scan (Counted τ)}

/-- As long as the supplies agree the next pull gives both the same. -/
theorem InStep.pull (h : InStep a b) (ha : Accounts s a) (hb : Accounts t b)
    (hsame : LineSupply.answers s n = LineSupply.answers t n) (hlt : a.supply.pulls < n)
    {answer : Pull} {supply : Counted σ} (hpull : LineSupply.pull a.supply = (answer, supply)) :
    ∃ supply', LineSupply.pull b.supply = (answer, supply') ∧ supply.pulls = supply'.pulls := by
  have hone := LineSupply.answers_eq_of_le hsame (Nat.succ_le_of_lt hlt)
  have hanswer := LineSupply.pull_after_eq hone
  rw [Counted.pull_eq, ha.supply, Prod.mk.injEq] at hpull
  obtain ⟨rfl, rfl⟩ := hpull
  refine ⟨⟨(LineSupply.pull b.supply.supply).2, b.supply.pulls + 1⟩, ?_, ?_⟩
  · rw [Counted.pull_eq, hb.supply, ← h.pulls, hanswer]
  · show a.supply.pulls + 1 = b.supply.pulls + 1
    rw [h.pulls]

theorem nextToken_inStep (h : InStep a b) (ha : Accounts s a) (hb : Accounts t b)
    (hsame : LineSupply.answers s n = LineSupply.answers t n)
    (hle : a.nextToken.2.supply.pulls ≤ n) :
    b.nextToken.1 = a.nextToken.1 ∧ InStep a.nextToken.2 b.nextToken.2 := by
  fun_induction nextToken a generalizing b with
  | case1 a hcursor =>
    rw [nextToken_of_exhausted (h.cursor_eq.trans hcursor), h.lineNumber_eq]
    exact ⟨rfl, h⟩
  | case2 a cursor hcursor lexeme after hlexeme =>
    obtain ⟨htoken, hafter⟩ := h.accept lexeme after
    rw [nextToken_of_lexeme (h.cursor_eq.trans hcursor) hlexeme, htoken]
    exact ⟨rfl, hafter⟩
  | case3 a cursor hcursor hnone text supply hpull ih =>
    have hmore : (a.enterLine text supply).supply.pulls = a.supply.pulls + 1 :=
      pulls_of_pull hpull
    have hlater := pulls_le_nextToken (a.enterLine text supply)
    obtain ⟨supply', hpull', hpulls⟩ := h.pull ha hb hsame (by omega) hpull
    rw [nextToken_of_line (h.cursor_eq.trans hcursor) hnone hpull']
    exact ih (h.enterLine hpulls text) (ha.enterLine (ne_none_of_cursor hcursor) hpull)
      (hb.enterLine (ne_none_of_cursor (h.cursor_eq.trans hcursor)) hpull') hle
  | case4 a cursor hcursor hnone supply hpull =>
    have hmore := pulls_of_pull hpull
    have hle : supply.pulls ≤ n := hle
    obtain ⟨supply', hpull', hpulls⟩ := h.pull ha hb hsame (by omega) hpull
    rw [nextToken_of_finished (h.cursor_eq.trans hcursor) hnone hpull', h.lineNumber_eq]
    exact ⟨rfl, h.finish hpulls⟩
  | case5 a cursor hcursor hnone error supply hpull =>
    have hmore := pulls_of_pull hpull
    have hle : supply.pulls ≤ n := hle
    obtain ⟨supply', hpull', hpulls⟩ := h.pull ha hb hsame (by omega) hpull
    rw [nextToken_of_failed (h.cursor_eq.trans hcursor) hnone hpull']
    exact ⟨rfl, h.interrupt hpulls cursor.skipBlanks⟩

/-! ## Any number of calls -/

theorem calls_inStep (h : InStep a b) (ha : Accounts s a) (hb : Accounts t b)
    (hsame : LineSupply.answers s n = LineSupply.answers t n) (m : Nat)
    (hle : (a.calls m).2.supply.pulls ≤ n) :
    (b.calls m).1 = (a.calls m).1 ∧ InStep (a.calls m).2 (b.calls m).2 := by
  induction m with
  | zero => exact ⟨rfl, h⟩
  | succ m ih =>
    rw [calls_succ] at hle
    have hearlier := pulls_le_nextToken (a.calls m).2
    obtain ⟨hresults, hstep⟩ := ih (Nat.le_trans hearlier hle)
    obtain ⟨hresult, hnext⟩ := nextToken_inStep hstep (ha.calls m) (hb.calls m) hsame hle
    rw [calls_succ, calls_succ, hresults, hresult]
    exact ⟨rfl, hnext⟩

theorem session_inStep (h : InStep a b) (ha : Accounts s a) (hb : Accounts t b)
    (hsame : LineSupply.answers s n = LineSupply.answers t n) (calls : List Call)
    (hle : (a.session calls).2.supply.pulls ≤ n) :
    (b.session calls).1 = (a.session calls).1 ∧ InStep (a.session calls).2 (b.session calls).2 := by
  obtain ⟨results, hgathers, hcalls⟩ := session_eq_iff.1 (Prod.eta (a.session calls)).symm
  have hpulls : (a.calls results.length).2.supply.pulls ≤ n := by
    rw [hcalls]
    exact hle
  obtain ⟨hresults, hstep⟩ := calls_inStep h ha hb hsame results.length hpulls
  rw [hcalls] at hresults hstep
  have hsession := session_eq_iff.2 ⟨results, hgathers, Prod.ext hresults rfl⟩
  rw [hsession]
  exact ⟨rfl, hstep⟩

end

/-! ## From the first pull on -/

theorem start_inStep {s : σ} {t : τ} {n : Nat} {events : Array Event} {a : Scan (Counted σ)}
    (h : start (⟨s, 0⟩ : Counted σ) events = .ready a) (hn : 0 < n)
    (hsame : LineSupply.answers s n = LineSupply.answers t n) :
    ∃ b, start (⟨t, 0⟩ : Counted τ) events = .ready b ∧ InStep a b := by
  have hone : LineSupply.answers s 1 = LineSupply.answers t 1 :=
    LineSupply.answers_eq_of_le hsame hn
  have hanswer : (LineSupply.pull s).1 = (LineSupply.pull t).1 := LineSupply.pull_after_eq hone
  unfold start at h ⊢
  rw [Counted.pull_eq, hanswer] at h
  rw [Counted.pull_eq]
  cases hpull : (LineSupply.pull t).1 with
  | line text =>
    simp only [hpull] at h ⊢
    cases h
    exact ⟨_, rfl, rfl, rfl⟩
  | finished =>
    simp only [hpull] at h ⊢
    cases h
    exact ⟨_, rfl, rfl, rfl⟩
  | failed error =>
    simp only [hpull] at h
    cases h

/-- To give a token that stands on one of the first lines, no answer beyond theirs is needed. -/
theorem Accounts.pulls_le_of_line {origin : σ} {scan : Scan (Counted σ)} (h : Accounts origin scan)
    {token : Token} (htoken : scan.nextToken.1 = .ok token) {n : Nat}
    (hline : token.line ≤ (LineSupply.answers origin n).countP Pull.succeeded) :
    scan.nextToken.2.supply.pulls ≤ n := by
  by_contra hmore
  obtain ⟨p, hp⟩ : ∃ p, scan.nextToken.2.supply.pulls = p + 1 :=
    ⟨scan.nextToken.2.supply.pulls - 1, by omega⟩
  have hanswered : scan.nextToken.2.answered origin = LineSupply.answers origin (p + 1) := by
    rw [answered, hp]
  -- the last pull was for the line of the token
  have hlast : (LineSupply.pull (LineSupply.after origin p)).1.succeeded = true := by
    have hnot := h.getLast?_of_token htoken
    rw [hanswered, LineSupply.answers] at hnot
    simp only [List.getLast?_concat] at hnot
    cases hanswer : (LineSupply.pull (LineSupply.after origin p)).1 with
    | line text => rfl
    | finished => rfl
    | failed error => exact absurd (congrArg some hanswer) (hnot error)
  have hnumber : token.line = (LineSupply.answers origin p).countP Pull.succeeded + 1 := by
    rw [(scan.lineNumber_nextToken).2 token htoken, h.nextToken.lineNumber, hanswered,
      LineSupply.answers, List.countP_append, List.countP_singleton, if_pos hlast]
  have hfewer : (LineSupply.answers origin n).countP Pull.succeeded ≤
      (LineSupply.answers origin p).countP Pull.succeeded :=
    (LineSupply.prefix_answers origin (by omega)).sublist.countP_le
  omega

/-- Counting pulls changes nothing. In every state that a session leads to, the line number is the
number of pulls that succeeded, the other pulls failed, and none came behind the end of the input;
a token stands on the line that is current when it is given; behind the end of the input calls give
the end token and change nothing. Over any supply with the same first `n` answers a session gives
the same and leads to the same state until it pulls once more, and a token on a line among these
answers is the same. -/
theorem session_on_demand {supply : σ} {events : Array Event} {scan : Scan (Counted σ)}
    (h : start (⟨supply, 0⟩ : Counted σ) events = .ready scan) :
    (∃ plain, start supply events = .ready plain ∧ ∀ calls, plain.session calls =
      ((scan.session calls).1, (scan.session calls).2.mapSupply Counted.supply)) ∧
    (∀ calls after, (scan.session calls).2 = after →
      after.lineNumber = (after.answered supply).countP Pull.succeeded ∧
      after.supply.pulls = after.lineNumber + (after.answered supply).countP Pull.isFailed ∧
      after.supply.supply = LineSupply.after supply after.supply.pulls ∧
      .finished ∉ (after.answered supply).dropLast ∧
      (∀ call token, (after.call call).1.latest? = some token →
        token.line = (after.call call).2.lineNumber) ∧
      (.finished ∈ after.answered supply → ∀ later, after.session later =
        (later.map (·.replyAtEnd after.lineNumber), after))) ∧
    ∀ {τ : Type} [LineSupply τ] (other : τ) (n : Nat), 0 < n →
      LineSupply.answers supply n = LineSupply.answers other n →
      ∃ scan', start (⟨other, 0⟩ : Counted τ) events = .ready scan' ∧
        (∀ calls, (scan.session calls).2.supply.pulls ≤ n →
          (scan'.session calls).1 = (scan.session calls).1 ∧
          InStep (scan.session calls).2 (scan'.session calls).2) ∧
        ∀ m token, (scan.calls m).2.nextToken.1 = .ok token →
          token.line ≤ (LineSupply.answers supply n).countP Pull.succeeded →
          (scan'.calls m).2.nextToken.1 = .ok token := by
  have haccounts := accounts_start h
  refine ⟨⟨scan.mapSupply Counted.supply, ?_, ?_⟩, ?_, ?_⟩
  · exact start_mapSupply (f := Counted.supply) (fun _ => rfl) h
  · intro calls
    exact session_mapSupply (f := Counted.supply) (fun _ => rfl) scan calls
  · intro calls after hafter
    have hstate : Accounts supply after := hafter ▸ haccounts.session calls
    refine ⟨hstate.lineNumber, hstate.pulls_eq, hstate.supply, hstate.once, ?_, ?_⟩
    · intro call token htoken
      exact line_of_latest htoken
    · intro hmem later
      exact session_of_exhausted (hstate.cursor_eq_none_iff.2 hmem) later
  · intro τ _ other n hn hsame
    obtain ⟨scan', hstart, hstep⟩ := start_inStep h hn hsame
    have haccounts' := accounts_start hstart
    refine ⟨scan', hstart, ?_, ?_⟩
    · intro calls hle
      exact session_inStep hstep haccounts haccounts' hsame calls hle
    · intro m token htoken hline
      have hlater := (haccounts.calls m).pulls_le_of_line htoken hline
      have hearlier := Nat.le_trans (pulls_le_nextToken (scan.calls m).2) hlater
      obtain ⟨_, hmid⟩ := calls_inStep hstep haccounts haccounts' hsame m hearlier
      obtain ⟨hresult, _⟩ :=
        nextToken_inStep hmid (haccounts.calls m) (haccounts'.calls m) hsame hlater
      rw [hresult, htoken]

/-- A supply that gives another line behind its end. -/
def beyondTheEnd : List Pull :=
  [.line "x = 1", .failed .notText, .line "# y", .finished, .line "z"]

/-- Whatever the supply would give there, the scan stops at the end; and the tokens on the first
line are there without the other lines. -/
theorem session_stops_at_the_end :
    ∃ scan cut : Scan (Counted Answers), start ⟨⟨beyondTheEnd⟩, 0⟩ = .ready scan ∧
      start ⟨⟨beyondTheEnd.take 1⟩, 0⟩ = .ready cut ∧
      (∀ calls later, .finished ∈ (scan.session calls).2.answered ⟨beyondTheEnd⟩ →
        ((scan.session calls).2.session later).2 = (scan.session calls).2) ∧
      ∀ m token, (scan.calls m).2.nextToken.1 = .ok token → token.line ≤ 1 →
        (cut.calls m).2.nextToken.1 = .ok token := by
  obtain ⟨scan, h⟩ : ∃ scan : Scan (Counted Answers),
      start ⟨⟨beyondTheEnd⟩, 0⟩ = .ready scan := ⟨_, rfl⟩
  obtain ⟨_, hstates, hsame⟩ := session_on_demand h
  obtain ⟨cut, hcut, _, htokens⟩ :=
    hsame (⟨beyondTheEnd.take 1⟩ : Answers) 1 Nat.one_pos rfl
  refine ⟨scan, cut, h, hcut, ?_, htokens⟩
  intro calls later hmem
  obtain ⟨_, _, _, _, _, hend⟩ := hstates calls _ rfl
  rw [hend hmem later]

end Scan

end Lexis
