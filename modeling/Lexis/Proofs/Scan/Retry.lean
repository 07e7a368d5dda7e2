import Lexis.Proofs.Scan.Calls

/-!
# Calling again after a failure

A scan over a supply that fails now and then gives a caller who calls again what a scan over a
supply without the failures gives.

* `Interrupts R`: by `R errors s t` the supply `s` answers as `t` does, with the failures `errors`
  in between before its end.
* `Abreast`: two scans over such supplies that differ at most in the blanks skipped so far.
* `Resumes`: the first scan may also have passed lines that hold nothing, before a failure, while
  the second has yet to be called (`Resumes.call`, `Resumes.calls`).
* `calls_to_end`: enough calls come to the end of the input, with all failures behind them.
* `calls_through_failures`: the law for a supply that is a list of answers.
-/

set_option autoImplicit false

namespace Lexis

namespace Scan

variable {σ τ : Type}

structure Interrupts [LineSupply σ] [LineSupply τ] (R : List IoError → σ → τ → Prop) : Prop where
  line : ∀ {errors s t text s'}, R errors s t → LineSupply.pull s = (.line text, s') →
    ∃ t', LineSupply.pull t = (.line text, t') ∧ R errors s' t'
  finished : ∀ {errors s t s'}, R errors s t → LineSupply.pull s = (.finished, s') →
    errors = [] ∧ ∃ t', LineSupply.pull t = (.finished, t')
  failed : ∀ {errors s t error s'}, R errors s t → LineSupply.pull s = (.failed error, s') →
    ∃ more, errors = error :: more ∧ R more s' t

structure Abreast (R : List IoError → σ → τ → Prop) (errors : List IoError) (a : Scan σ)
    (b : Scan τ) : Prop where
  supply : a.cursor ≠ none → R errors a.supply b.supply
  /-- At the end of the input no failure is to come. -/
  errors_eq : a.cursor = none → errors = []
  cursor : a.cursor.map Cursor.skipBlanks = b.cursor.map Cursor.skipBlanks
  lineNumber : a.lineNumber = b.lineNumber
  errorSeen : a.errorSeen = b.errorSeen
  diagnostics : a.diagnostics = b.diagnostics
  events : a.events = b.events

variable {R : List IoError → σ → τ → Prop} {errors : List IoError} {a : Scan σ} {b : Scan τ}

theorem Abreast.of_view (hview : a.view = b.view)
    (hsupply : a.cursor ≠ none → R errors a.supply b.supply)
    (herrors : a.cursor = none → errors = []) : Abreast R errors a b := by
  obtain ⟨hcursor, hnumber, hseen, hdiagnostics, hevents⟩ := view_eq_iff.1 hview
  exact ⟨hsupply, herrors, by rw [hcursor], hnumber, hseen, hdiagnostics, hevents⟩

/-- The other scan stands on the same line, at the same lexeme. -/
theorem Abreast.exists_cursor (h : Abreast R errors a b) {cursor : Cursor}
    (hcursor : a.cursor = some cursor) :
    ∃ other, b.cursor = some other ∧ other.skipBlanks = cursor.skipBlanks := by
  have hsame := h.cursor
  rw [hcursor, Option.map_some] at hsame
  obtain ⟨other, hother, hskip⟩ := Option.map_eq_some_iff.1 hsame.symm
  exact ⟨other, hother, hskip⟩

theorem view_accept (hnumber : a.lineNumber = b.lineNumber) (hseen : a.errorSeen = b.errorSeen)
    (hdiagnostics : a.diagnostics = b.diagnostics) (hevents : a.events = b.events)
    (lexeme : Lexeme) (after : Cursor) :
    (a.accept lexeme after).2.view = (b.accept lexeme after).2.view := by
  unfold accept
  cases lexeme.verdict <;> simp [view, report, hnumber, hseen, hdiagnostics, hevents]

variable [LineSupply τ]

/-- The next call to `b` is that of a scan abreast of `a`. -/
def Resumes (R : List IoError → σ → τ → Prop) (errors : List IoError) (a : Scan σ) (b : Scan τ) :
    Prop :=
  ∃ standing : Scan τ, b.nextToken = standing.nextToken ∧ Abreast R errors a standing

theorem Abreast.resumes (h : Abreast R errors a b) : Resumes R errors a b :=
  ⟨b, rfl, h⟩

theorem Resumes.errors_eq (h : Resumes R errors a b) (hcursor : a.cursor = none) : errors = [] := by
  obtain ⟨_, _, habreast⟩ := h
  exact habreast.errors_eq hcursor

/-! ## One call -/

variable [LineSupply σ]

/-- A call to `a` fails with the next failure, or gives the same token as a call to `b` and leaves
both alike. -/
def Follows (R : List IoError → σ → τ → Prop) (errors : List IoError) (a : Scan σ) (b : Scan τ) :
    Prop :=
  (∃ error more, errors = error :: more ∧ a.nextToken.1 = .error error ∧
    Resumes R more a.nextToken.2 b) ∨
  ∃ token, a.nextToken.1 = .ok token ∧ b.nextToken.1 = .ok token ∧
    Abreast R errors a.nextToken.2 b.nextToken.2 ∧ a.nextToken.2.view = b.nextToken.2.view

theorem Follows.of_nextToken_eq {other : Scan τ} (hnext : b.nextToken = other.nextToken)
    (h : Follows R errors a other) : Follows R errors a b := by
  rcases h with ⟨error, more, herrors, hreply, standing, hstanding, hafter⟩ | hsame
  · exact .inl ⟨error, more, herrors, hreply, standing, hnext.trans hstanding, hafter⟩
  · rw [← hnext] at hsame
    exact .inr hsame

theorem Abreast.call (hR : Interrupts R) (h : Abreast R errors a b) : Follows R errors a b := by
  unfold Follows
  fun_induction nextToken a generalizing b with
  | case1 a hcursor =>
    have hother : b.cursor = none := by
      have hsame := h.cursor
      rw [hcursor, Option.map_none] at hsame
      exact Option.map_eq_none_iff.1 hsame.symm
    rw [nextToken_of_exhausted hother, h.lineNumber]
    refine .inr ⟨_, rfl, rfl, h, view_eq_iff.2 ?_⟩
    exact ⟨by rw [hcursor, hother], h.lineNumber, h.errorSeen, h.diagnostics, h.events⟩
  | case2 a cursor hcursor lexeme after hlexeme =>
    obtain ⟨other, hother, hskip⟩ := h.exists_cursor hcursor
    rw [← hskip] at hlexeme
    have hview := view_accept h.lineNumber h.errorSeen h.diagnostics h.events lexeme after
    have htoken : (b.accept lexeme after).1 = (a.accept lexeme after).1 := by
      rw [accept_eq_token, accept_eq_token, h.lineNumber]
    rw [nextToken_of_lexeme hother hlexeme]
    refine .inr ⟨_, rfl, congrArg _ htoken, .of_view hview (fun _ => ?_) (fun hnone => ?_), hview⟩
    · rw [supply_accept, supply_accept]
      exact h.supply (by rw [hcursor]; exact Option.some_ne_none cursor)
    · rw [cursor_accept] at hnone
      cases hnone
  | case3 a cursor hcursor hnone text supply hpull ih =>
    obtain ⟨other, hother, hskip⟩ := h.exists_cursor hcursor
    rw [← hskip] at hnone
    obtain ⟨supply', hpull', hsupply⟩ :=
      hR.line (h.supply (by rw [hcursor]; exact Option.some_ne_none cursor)) hpull
    have hview : (a.enterLine text supply).view = (b.enterLine text supply').view := by
      simp [view, enterLine, h.lineNumber, h.errorSeen, h.diagnostics, h.events]
    -- a failure to come finds `b` still before the lines that hold nothing
    have hrest := ih (.of_view hview (fun _ => hsupply) (fun hnone => by cases hnone))
    exact Follows.of_nextToken_eq (nextToken_of_line hother hnone hpull') hrest
  | case4 a cursor hcursor hnone supply hpull =>
    obtain ⟨other, hother, hskip⟩ := h.exists_cursor hcursor
    rw [← hskip] at hnone
    obtain ⟨herrors, supply', hpull'⟩ :=
      hR.finished (h.supply (by rw [hcursor]; exact Option.some_ne_none cursor)) hpull
    have hview : (a.finish supply).view = (b.finish supply').view := by
      simp [view, finish, h.lineNumber, h.errorSeen, h.diagnostics, h.events]
    rw [nextToken_of_finished hother hnone hpull', h.lineNumber]
    exact .inr ⟨_, rfl, rfl, .of_view hview (fun hcursor => absurd rfl hcursor) (fun _ => herrors),
      hview⟩
  | case5 a cursor hcursor hnone error supply hpull =>
    obtain ⟨more, herrors, hsupply⟩ :=
      hR.failed (h.supply (by rw [hcursor]; exact Option.some_ne_none cursor)) hpull
    refine .inl ⟨error, more, herrors, rfl, b, rfl, fun _ => hsupply, fun hnone => ?_, ?_,
      h.lineNumber, h.errorSeen, h.diagnostics, h.events⟩
    · cases hnone
    · rw [← h.cursor, hcursor]
      simp only [interrupt, Option.map_some, Cursor.skipBlanks_idem]

theorem Resumes.call (hR : Interrupts R) (h : Resumes R errors a b) : Follows R errors a b := by
  obtain ⟨standing, hnext, habreast⟩ := h
  exact (habreast.call hR).of_nextToken_eq hnext

/-- When the first pull does not fail, both scans begin, and begin alike. -/
theorem Interrupts.start (hR : Interrupts R) {s : σ} {t : τ} (hst : R errors s t)
    (hfirst : ∀ error, (LineSupply.pull s).1 ≠ .failed error) :
    ∃ a b, Scan.start s = .ready a ∧ Scan.start t = .ready b ∧ a.view = b.view ∧
      Abreast R errors a b := by
  rcases hpull : LineSupply.pull s with ⟨answer, s'⟩
  cases answer with
  | line text =>
    obtain ⟨t', hpull', hst'⟩ := hR.line hst hpull
    refine ⟨onFirstLine s' (some text) #[], onFirstLine t' (some text) #[], ?_, ?_, rfl, ?_⟩
    · simp only [Scan.start, hpull]
    · simp only [Scan.start, hpull']
    · exact .of_view rfl (fun _ => hst') (fun hnone => by cases hnone)
  | finished =>
    obtain ⟨herrors, t', hpull'⟩ := hR.finished hst hpull
    refine ⟨onFirstLine s' none #[], onFirstLine t' none #[], ?_, ?_, rfl, ?_⟩
    · simp only [Scan.start, hpull]
    · simp only [Scan.start, hpull']
    · exact .of_view rfl (fun hcursor => absurd rfl hcursor) (fun _ => herrors)
  | failed error => exact absurd (congrArg Prod.fst hpull) (hfirst error)

/-! ## Any number of calls -/

/-- The tokens of some calls are those of as many calls to the other scan, and the failures are
the first ones to come. -/
theorem Resumes.calls (hR : Interrupts R) (h : Resumes R errors a b) (n : Nat) :
    ∃ more, refused (a.calls n).1 ++ more = errors ∧
      (granted (a.calls n).1).map .ok = (b.calls (granted (a.calls n).1).length).1 ∧
      Resumes R more (a.calls n).2 (b.calls (granted (a.calls n).1).length).2 := by
  induction n generalizing errors a b with
  | zero => exact ⟨errors, rfl, rfl, h⟩
  | succ n ih =>
    rcases h.call hR with ⟨error, more, rfl, hreply, hafter⟩ |
      ⟨token, hreply, hother, hafter, _⟩
    · obtain ⟨rest, hrefused, hgranted, hstate⟩ := ih hafter
      simp only [Scan.calls, hreply, granted_error, refused_error]
      exact ⟨rest, by rw [List.cons_append, hrefused], hgranted, hstate⟩
    · obtain ⟨rest, hrefused, hgranted, hstate⟩ := ih hafter.resumes
      simp only [Scan.calls, hreply, hother, granted_ok, refused_ok, List.length_cons, List.map_cons]
      exact ⟨rest, hrefused, by rw [hgranted], hstate⟩

/-- Behind a token both scans are alike. -/
theorem Resumes.view_calls (hR : Interrupts R) (h : Resumes R errors a b) {n : Nat} {token : Token}
    (htoken : (a.calls n).2.nextToken.1 = .ok token) :
    (a.calls (n + 1)).2.view = (b.calls (granted (a.calls (n + 1)).1).length).2.view := by
  obtain ⟨more, _, _, hstate⟩ := h.calls hR n
  rcases hstate.call hR with ⟨error, _, _, hreply, _⟩ | ⟨_, _, _, _, hview⟩
  · rw [htoken] at hreply
    cases hreply
  · have hlength : (granted (a.calls (n + 1)).1).length = (granted (a.calls n).1).length + 1 := by
      rw [calls_succ, htoken, granted, List.filterMap_append, List.length_append]
      rfl
    rw [hlength, calls_succ a, calls_succ b]
    exact hview

/-! ## The end of the input -/

/-- At the end of the input calls change nothing and do not fail. -/
theorem calls_of_exhausted (h : a.cursor = none) (n : Nat) :
    (a.calls n).2 = a ∧ refused (a.calls n).1 = [] := by
  induction n with
  | zero => exact ⟨rfl, rfl⟩
  | succ n ih => simpa only [calls, nextToken_of_exhausted h, refused_ok] using ih

/-- Calls come to the end token. The failures on the way are the ones to come, and the tokens those
of as many calls to the other scan. -/
theorem calls_to_end {errors : List IoError} {a : Scan σ} {b : Scan τ} (hR : Interrupts R)
    (h : Resumes R errors a b) :
    ∃ results last after mid after', a.calls (results.length + 1) = (results ++ [.ok last], after) ∧
      last.isEof = true ∧ after.cursor = none ∧ (∀ token ∈ granted results, token.isEof = false) ∧
      refused results = errors ∧
      b.calls (granted results).length = ((granted results).map .ok, mid) ∧
      mid.nextToken = (.ok last, after') ∧ after.view = after'.view := by
  rcases h.call hR with ⟨error, more, herrors, hreply, hafter⟩ |
    ⟨token, hreply, hother, hafter, hview⟩
  · have hfewer : more.length < errors.length := by
      rw [herrors, List.length_cons]
      omega
    obtain ⟨results, last, after, mid, after', hcalls, hlast, hcursor, hgranted, hrefused, hrest⟩ :=
      calls_to_end hR hafter
    refine ⟨.error error :: results, last, after, mid, after', ?_, hlast, hcursor, hgranted, ?_,
      hrest⟩
    · rw [List.length_cons, calls, hreply, hcalls, List.cons_append]
    · rw [refused_error, hrefused, herrors]
  · cases hend : token.isEof with
    | true =>
      have hcursor := cursor_of_isEof (Prod.ext hreply rfl) hend
      refine ⟨[], token, a.nextToken.2, b, b.nextToken.2, ?_, hend, hcursor, by simp [granted], ?_,
        rfl, Prod.ext hother rfl, hview⟩
      · simp only [List.length_nil, calls, hreply, List.nil_append]
      · exact (hafter.errors_eq hcursor).symm
    | false =>
      have hless : b.nextToken.2.left < b.left := left_nextToken (Prod.ext hother rfl) hend
      obtain ⟨results, last, after, mid, after', hcalls, hlast, hcursor, hgranted, hrefused, hothers,
        hrest⟩ := calls_to_end hR hafter.resumes
      refine ⟨.ok token :: results, last, after, mid, after', ?_, hlast, hcursor, ?_, ?_, ?_, hrest⟩
      · rw [List.length_cons, calls, hreply, hcalls, List.cons_append]
      · rw [granted_ok]
        exact List.forall_mem_cons.2 ⟨hend, hgranted⟩
      · rw [refused_ok, hrefused]
      · rw [granted_ok, List.length_cons, calls, hother, hothers, List.map_cons]
termination_by errors.length + b.left

/-- The end of the input is reached. -/
theorem Resumes.exists_exhausted (hR : Interrupts R) (h : Resumes R errors a b) :
    ∃ n, (a.calls n).2.cursor = none := by
  obtain ⟨results, _, _, _, _, hcalls, _, hcursor, _⟩ := calls_to_end hR h
  refine ⟨results.length + 1, ?_⟩
  rw [hcalls]
  exact hcursor

/-- In the end all failures to come have been given. -/
theorem Resumes.refused_eventually (hR : Interrupts R) (h : Resumes R errors a b) :
    ∃ m, ∀ n, m ≤ n → refused (a.calls n).1 = errors := by
  obtain ⟨m, hm⟩ := h.exists_exhausted hR
  refine ⟨m, fun n hle => ?_⟩
  obtain ⟨more, hrefused, _, hstate⟩ := h.calls hR n
  have hcursor : (a.calls n).2.cursor = none := by
    rw [show n = m + (n - m) by omega, calls_add, (calls_of_exhausted hm _).1, hm]
  rw [← hrefused, hstate.errors_eq hcursor, List.append_nil]

/-! ## A list of answers -/

/-- The failures in a list of answers before its first end. -/
def failuresBeforeEnd : List Pull → List IoError
  | [] => []
  | .line _ :: left => failuresBeforeEnd left
  | .finished :: _ => []
  | .failed error :: left => error :: failuresBeforeEnd left

def withoutFailures : List Pull → List Pull
  | [] => []
  | .line text :: left => .line text :: withoutFailures left
  | .finished :: left => .finished :: withoutFailures left
  | .failed _ :: left => withoutFailures left

theorem interrupts_withoutFailures :
    Interrupts fun errors (s t : Answers) =>
      errors = failuresBeforeEnd s.left ∧ t.left = withoutFailures s.left where
  line := by
    rintro _ ⟨_ | ⟨answer, left⟩⟩ ⟨_⟩ text s' ⟨rfl, rfl⟩ hpull
    · cases (Prod.mk.inj hpull).1
    · obtain ⟨rfl, rfl⟩ := Prod.mk.inj hpull
      exact ⟨_, rfl, rfl, rfl⟩
  finished := by
    rintro _ ⟨_ | ⟨answer, left⟩⟩ ⟨_⟩ s' ⟨rfl, rfl⟩ hpull
    · exact ⟨rfl, _, rfl⟩
    · obtain ⟨rfl, rfl⟩ := Prod.mk.inj hpull
      exact ⟨rfl, _, rfl⟩
  failed := by
    rintro _ ⟨_ | ⟨answer, left⟩⟩ ⟨_⟩ error s' ⟨rfl, rfl⟩ hpull
    · cases (Prod.mk.inj hpull).1
    · obtain ⟨rfl, rfl⟩ := Prod.mk.inj hpull
      exact ⟨_, rfl, rfl, rfl⟩

/-- Scans that begin over a list of answers, and over the same list without its failures. -/
theorem exists_abreast {answers : List Pull}
    (hfirst : ∀ error, answers.head? ≠ some (.failed error)) :
    ∃ faulty clean : Scan Answers, start ⟨answers⟩ = .ready faulty ∧
      start ⟨withoutFailures answers⟩ = .ready clean ∧ faulty.view = clean.view ∧
      Abreast (fun errors (s t : Answers) =>
        errors = failuresBeforeEnd s.left ∧ t.left = withoutFailures s.left)
        (failuresBeforeEnd answers) faulty clean := by
  refine interrupts_withoutFailures.start ⟨rfl, rfl⟩ ?_
  intro error herror
  cases answers with
  | nil => cases herror
  | cons answer left => exact hfirst error (congrArg some herror)

/-- Calling again after a failure: the tokens are those of the scan without the failures, and
behind each of them both scans are alike; the failures before the end of the input come one after
the other, each once, and no others; and a failing call reports nothing. -/
theorem calls_through_failures {answers : List Pull}
    (hfirst : ∀ error, answers.head? ≠ some (.failed error)) :
    ∃ faulty clean : Scan Answers, start ⟨answers⟩ = .ready faulty ∧
      start ⟨withoutFailures answers⟩ = .ready clean ∧ faulty.view = clean.view ∧
      (∀ n, (granted (faulty.calls n).1).map .ok =
        (clean.calls (granted (faulty.calls n).1).length).1) ∧
      (∀ n token, (faulty.calls n).2.nextToken.1 = .ok token →
        (faulty.calls (n + 1)).2.view =
          (clean.calls (granted (faulty.calls (n + 1)).1).length).2.view) ∧
      (∀ n, refused (faulty.calls n).1 <+: failuresBeforeEnd answers) ∧
      (∃ m, ∀ n, m ≤ n → refused (faulty.calls n).1 = failuresBeforeEnd answers) ∧
      ∀ n error, (faulty.calls n).2.nextToken.1 = .error error →
        (faulty.calls (n + 1)).2.diagnostics = (faulty.calls n).2.diagnostics ∧
          (faulty.calls (n + 1)).2.errorSeen = (faulty.calls n).2.errorSeen := by
  obtain ⟨faulty, clean, hfaulty, hclean, hview, habreast⟩ := exists_abreast hfirst
  have hresumes := habreast.resumes
  have hR := interrupts_withoutFailures
  refine ⟨faulty, clean, hfaulty, hclean, hview, fun n => ?_, fun n token htoken => ?_, fun n => ?_,
    hresumes.refused_eventually hR, fun n error herror => ?_⟩
  · obtain ⟨_, _, hgranted, _⟩ := hresumes.calls hR n
    exact hgranted
  · exact hresumes.view_calls hR htoken
  · obtain ⟨more, hrefused, _, _⟩ := hresumes.calls hR n
    exact ⟨more, hrefused⟩
  · rw [calls_succ]
    exact nextToken_error (Prod.ext herror rfl)

/-- A failure behind a blank line, one behind a comment and one behind the end. -/
def threeFailures : List Pull :=
  [.line "x", .line " ", .failed .notText, .line "# y", .failed .notText, .finished,
    .failed .notText]

theorem calls_through_three_failures :
    (∀ error, threeFailures.head? ≠ some (.failed error)) ∧
      ∃ faulty : Scan Answers, start ⟨threeFailures⟩ = .ready faulty ∧
        ∃ m, ∀ n, m ≤ n → refused (faulty.calls n).1 = [.notText, .notText] := by
  have hfirst : ∀ error, threeFailures.head? ≠ some (.failed error) := by simp [threeFailures]
  obtain ⟨faulty, _, hfaulty, _, _, _, _, _, hrefused, _⟩ := calls_through_failures hfirst
  exact ⟨hfirst, faulty, hfaulty, hrefused⟩

end Scan

end Lexis
