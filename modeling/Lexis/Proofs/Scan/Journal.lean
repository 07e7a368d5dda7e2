import Mathlib.Data.List.Basic
import Lexis.Proofs.Scan.Demand

/-!
# The journal of a scan

A scan enters an event for each pull that succeeds and for each lexical error. The events since its
beginning are its journal. They run through the lines one by one (`Course`): an event for a line
comes before the errors on that line, and the event for the end of the input comes last. Together
with the answers of the supply and the diagnostics the journal is kept by every call
(`Journal.nextToken`, `Journal.session`).
-/

set_option autoImplicit false

namespace Lexis

/-! ## What events tell -/

/-- The level, the message and the fields of an event. -/
def Event.told (event : Event) : Level × String × List (String × Event.Value) :=
  (event.level, event.message, event.fields)

/-- The number in the line field of an event. -/
def Event.line? (event : Event) : Option Nat :=
  match event.fields.lookup "line" with
  | some (.number number) => some number
  | _ => none

/-- What is told about a pull that has led to line `number`. -/
def Pull.told (pull : Pull) (number : Nat) : Level × String × List (String × Event.Value) :=
  (.trace, if pull = .finished then "end of input" else "line loaded", [("line", .number number)])

def Diagnostic.told (diagnostic : Diagnostic) : Level × String × List (String × Event.Value) :=
  (.warn, diagnostic.message,
    [("line", .number diagnostic.line), ("lexeme", .text diagnostic.lexeme)])

namespace Event

/-- The event of a pull that has led to line `number`. -/
def ofPull (pull : Pull) (number : Nat) : Event :=
  if pull = .finished then .inputEnded number else .lineLoaded number

theorem told_ofPull (pull : Pull) (number : Nat) : (ofPull pull number).told = pull.told number := by
  by_cases hpull : pull = .finished
  · rw [ofPull, Pull.told, if_pos hpull, if_pos hpull]
    rfl
  · rw [ofPull, Pull.told, if_neg hpull, if_neg hpull]
    rfl

def isTrace (event : Event) : Bool :=
  event.level = .trace

def isWarn (event : Event) : Bool :=
  event.level = .warn

end Event

/-- An element of a list with one more at its end is that one, or among the others. -/
theorem concat_eq_append_cons {α : Type} {list before later : List α} {last a : α}
    (h : list ++ [last] = before ++ a :: later) :
    (later = [] ∧ before = list ∧ a = last) ∨
      ∃ more, later = more ++ [last] ∧ list = before ++ a :: more := by
  rcases List.eq_nil_or_concat' later with rfl | ⟨more, b, rfl⟩
  · obtain ⟨rfl, hlast⟩ := List.append_inj' h rfl
    exact .inl ⟨rfl, rfl, (List.singleton_inj.1 hlast).symm⟩
  · rw [← List.cons_append, ← List.append_assoc] at h
    obtain ⟨rfl, hlast⟩ := List.append_inj' h rfl
    obtain rfl := List.singleton_inj.1 hlast
    exact .inr ⟨more, rfl, rfl⟩

namespace Scan

/-! ## The course of a journal -/

/-- The events of a scan that has come to line `number`, at the end of the input or not. -/
inductive Course : (number : Nat) → (ended : Bool) → List Event → Prop
  | start (ended : Bool) : Course 1 ended []
  | line {number : Nat} {log : List Event} (h : Course number false log) :
    Course (number + 1) false (log ++ [.lineLoaded (number + 1)])
  | finish {number : Nat} {log : List Event} (h : Course number false log) :
    Course (number + 1) true (log ++ [.inputEnded (number + 1)])
  | error {diagnostic : Diagnostic} {log : List Event} (h : Course diagnostic.line false log) :
    Course diagnostic.line false (log ++ [.lexicalError diagnostic])

namespace Course

variable {number : Nat} {ended : Bool} {log before later : List Event}

theorem level_cases (h : Course number ended log) :
    ∀ event ∈ log, event.isTrace = true ∨ event.isWarn = true := by
  induction h with
  | start => nofun
  | line _ ih => exact List.forall_mem_append.2 ⟨ih, List.forall_mem_singleton.2 (.inl rfl)⟩
  | finish _ ih => exact List.forall_mem_append.2 ⟨ih, List.forall_mem_singleton.2 (.inl rfl)⟩
  | error _ ih => exact List.forall_mem_append.2 ⟨ih, List.forall_mem_singleton.2 (.inr rfl)⟩

theorem lines_concat {event : Event} (htrace : event.isTrace = true)
    (hline : event.line? = some (number + 1)) (hnumber : 1 ≤ number)
    (hlines : (log.filter Event.isTrace).map Event.line? =
      (List.range' 2 (number - 1)).map some) :
    ((log ++ [event]).filter Event.isTrace).map Event.line? =
      (List.range' 2 (number + 1 - 1)).map some := by
  have hrange : List.range' 2 (number + 1 - 1) = List.range' 2 (number - 1) ++ [number + 1] := by
    rw [show number + 1 - 1 = (number - 1) + 1 by omega, List.range'_1_concat,
      show 2 + (number - 1) = number + 1 by omega]
  rw [List.filter_append, List.map_append, hlines, List.filter_cons_of_pos htrace, List.filter_nil,
    List.map_singleton, hline, hrange, List.map_append]
  rfl

/-- The lines are counted from 2 to the last one. -/
theorem lines_eq (h : Course number ended log) : 1 ≤ number ∧
    (log.filter Event.isTrace).map Event.line? = (List.range' 2 (number - 1)).map some := by
  induction h with
  | start => exact ⟨Nat.le_refl 1, rfl⟩
  | line _ ih => exact ⟨by omega, lines_concat rfl rfl ih.1 ih.2⟩
  | finish _ ih => exact ⟨by omega, lines_concat rfl rfl ih.1 ih.2⟩
  | error _ ih =>
    refine ⟨ih.1, ?_⟩
    rw [List.filter_append, List.map_append, ih.2]
    exact List.append_nil _

/-- What stands before an error is the course up to its line. -/
theorem before_error {diagnostic : Diagnostic} (h : Course number ended log)
    (hlog : log = before ++ .lexicalError diagnostic :: later) :
    Course diagnostic.line false before := by
  induction h generalizing later with
  | start => cases before <;> cases hlog
  | line _ ih =>
    rcases concat_eq_append_cons hlog with ⟨_, _, hevent⟩ | ⟨more, _, hlog⟩
    · cases hevent
    · exact ih hlog
  | finish _ ih =>
    rcases concat_eq_append_cons hlog with ⟨_, _, hevent⟩ | ⟨more, _, hlog⟩
    · cases hevent
    · exact ih hlog
  | error h ih =>
    rcases concat_eq_append_cons hlog with ⟨_, rfl, hevent⟩ | ⟨more, _, hlog⟩
    · cases hevent
      exact h
    · exact ih hlog

theorem inputEnded_not_mem (h : Course number false log) (line : Nat) :
    .inputEnded line ∉ log := by
  -- only a course that has not ended can go on
  generalize hended : false = ended at h
  induction h with
  | start => nofun
  | line _ ih => simp [ih hended]
  | finish => cases hended
  | error _ ih => simp [ih hended]

/-- Nothing stands behind the end of the input. -/
theorem eq_nil_of_inputEnded {line : Nat} (h : Course number ended log)
    (hlog : log = before ++ .inputEnded line :: later) : later = [] := by
  have hmem : .inputEnded line ∈ log := by
    rw [hlog]
    exact List.mem_append_right _ List.mem_cons_self
  cases h with
  | start => cases hmem
  | line h => exact absurd hmem (inputEnded_not_mem (.line h) line)
  | finish h =>
    rcases concat_eq_append_cons hlog with ⟨hlater, _, _⟩ | ⟨more, _, rfl⟩
    · exact hlater
    · exact absurd (List.mem_append_right _ List.mem_cons_self) (h.inputEnded_not_mem line)
  | error h => exact absurd hmem (inputEnded_not_mem (.error h) line)

end Course

/-! ## Keeping the journal -/

variable {σ : Type} [LineSupply σ]

/-- The scan has entered `log` behind the events `base`. Its supply was `origin` at first, and the
first answer of that is not told. -/
structure Journal (origin : σ) (base : List Event) (scan : Scan (Counted σ)) (log : List Event) :
    Prop where
  events : scan.events.toList = base ++ log
  course : Course scan.lineNumber scan.exhausted log
  pulls : log.filter Event.isTrace =
    (((scan.answered origin).tail.filter Pull.succeeded).zipIdx 2).map fun p => .ofPull p.1 p.2
  errors : log.filter Event.isWarn = scan.diagnostics.toList.map .lexicalError

/-- The first line was pulled, so there is an answer. -/
theorem Accounts.answered_ne_nil {origin : σ} {scan : Scan (Counted σ)}
    (h : Accounts origin scan) : scan.answered origin ≠ [] := by
  rw [← List.length_pos_iff, answered, LineSupply.length_answers]
  exact h.begun

namespace Journal

variable {origin : σ} {base log : List Event} {scan : Scan (Counted σ)}

/-- The line number counts the pulls that are told. -/
theorem lineNumber_eq (h : Journal origin base scan log) :
    scan.lineNumber = ((scan.answered origin).tail.filter Pull.succeeded).length + 1 := by
  obtain ⟨hnumber, hlines⟩ := h.course.lines_eq
  have hlength := congrArg List.length hlines
  rw [List.length_map, List.length_map, List.length_range', h.pulls, List.length_map,
    List.length_zipIdx] at hlength
  omega

theorem course_of_cursor (h : Journal origin base scan log) (hcursor : scan.cursor ≠ none) :
    Course scan.lineNumber false log := by
  have hexhausted : scan.exhausted = false := by
    rw [exhausted, Option.isNone_eq_false_iff, Option.isSome_iff_ne_none]
    exact hcursor
  rw [← hexhausted]
  exact h.course

theorem moved (h : Journal origin base scan log) (hcursor : scan.cursor ≠ none) (after : Cursor) :
    Journal origin base { scan with cursor := some after } log :=
  ⟨h.events, h.course_of_cursor hcursor, h.pulls, h.errors⟩

/-- A lexical error of the current line is entered as a diagnostic and as an event. -/
theorem report (h : Journal origin base scan log) (hcursor : scan.cursor ≠ none)
    {diagnostic : Diagnostic} (hline : diagnostic.line = scan.lineNumber) :
    Journal origin base (scan.report diagnostic) (log ++ [.lexicalError diagnostic]) := by
  have hcourse := h.course_of_cursor hcursor
  have hexhausted : (scan.report diagnostic).exhausted = false := by
    show scan.cursor.isNone = false
    rw [Option.isNone_eq_false_iff, Option.isSome_iff_ne_none]
    exact hcursor
  constructor
  · show (scan.events.push _).toList = _
    rw [Array.toList_push, h.events, List.append_assoc]
  · rw [hexhausted]
    show Course scan.lineNumber false _
    rw [← hline] at hcourse ⊢
    exact .error hcourse
  · rw [List.filter_append, h.pulls]
    exact List.append_nil _
  · show _ = (scan.diagnostics.push diagnostic).toList.map Event.lexicalError
    rw [List.filter_append, h.errors, Array.toList_push, List.map_append]
    rfl

theorem accept (h : Journal origin base scan log) (hcursor : scan.cursor ≠ none) (lexeme : Lexeme)
    (after : Cursor) : ∃ more, Journal origin base (scan.accept lexeme after).2 more := by
  have hmoved := h.moved hcursor after
  unfold Scan.accept
  cases lexeme.verdict with
  | ok kind => exact ⟨log, hmoved⟩
  | error cause => exact ⟨_, hmoved.report (Option.some_ne_none after) rfl⟩

/-- A pull that succeeds is entered with the line it leads to. -/
theorem of_pull (h : Journal origin base scan log) (haccounts : Accounts origin scan)
    (hcursor : scan.cursor ≠ none) {answer : Pull} {supply : Counted σ} {next : Scan (Counted σ)}
    (hpull : LineSupply.pull scan.supply = (answer, supply))
    (hsucceeded : answer.succeeded = true) (hsupply : next.supply = supply)
    (hnumber : next.lineNumber = scan.lineNumber + 1)
    (hexhausted : next.exhausted = decide (answer = .finished))
    (hevents : next.events = scan.events.push (.ofPull answer (scan.lineNumber + 1)))
    (hdiagnostics : next.diagnostics = scan.diagnostics) :
    Journal origin base next (log ++ [.ofPull answer (scan.lineNumber + 1)]) := by
  have hanswered := haccounts.answered_of_pull hpull hsupply
  have hbegun := haccounts.answered_ne_nil
  have htold : (next.answered origin).tail.filter Pull.succeeded =
      (scan.answered origin).tail.filter Pull.succeeded ++ [answer] := by
    rw [hanswered, List.tail_append_of_ne_nil hbegun, List.filter_append,
      List.filter_cons_of_pos hsucceeded, List.filter_nil]
  constructor
  · rw [hevents, Array.toList_push, h.events, List.append_assoc]
  · have hcourse := h.course_of_cursor hcursor
    rw [hnumber, hexhausted]
    by_cases hfinished : answer = .finished
    · rw [decide_eq_true hfinished, Event.ofPull, if_pos hfinished]
      exact .finish hcourse
    · rw [decide_eq_false hfinished, Event.ofPull, if_neg hfinished]
      exact .line hcourse
  · have htrace : (Event.ofPull answer (scan.lineNumber + 1)).isTrace = true := by
      unfold Event.ofPull
      split <;> rfl
    -- as many pulls are told as lines were counted before this one, from 2 on
    rw [List.filter_append, h.pulls, List.filter_cons_of_pos htrace, List.filter_nil, htold,
      List.zipIdx_append, List.map_append, List.zipIdx_singleton, List.map_singleton,
      h.lineNumber_eq, Nat.add_assoc, Nat.add_comm 2]
  · have hwarn : (Event.ofPull answer (scan.lineNumber + 1)).isWarn = false := by
      unfold Event.ofPull
      split <;> rfl
    rw [List.filter_append, h.errors, List.filter_cons_of_neg (by simp [hwarn]), List.filter_nil,
      List.append_nil, hdiagnostics]

theorem enterLine (h : Journal origin base scan log) (haccounts : Accounts origin scan)
    (hcursor : scan.cursor ≠ none) {text : String} {supply : Counted σ}
    (hpull : LineSupply.pull scan.supply = (.line text, supply)) :
    ∃ more, Journal origin base (scan.enterLine text supply) more :=
  ⟨_, h.of_pull haccounts hcursor hpull rfl rfl rfl rfl rfl rfl⟩

theorem finish (h : Journal origin base scan log) (haccounts : Accounts origin scan)
    (hcursor : scan.cursor ≠ none) {supply : Counted σ}
    (hpull : LineSupply.pull scan.supply = (.finished, supply)) :
    ∃ more, Journal origin base (scan.finish supply) more :=
  ⟨_, h.of_pull haccounts hcursor hpull rfl rfl rfl rfl rfl rfl⟩

/-- A pull that fails is not entered. -/
theorem interrupt (h : Journal origin base scan log) (haccounts : Accounts origin scan)
    (hcursor : scan.cursor ≠ none) (cursor : Cursor) {error : IoError} {supply : Counted σ}
    (hpull : LineSupply.pull scan.supply = (.failed error, supply)) :
    Journal origin base (scan.interrupt cursor supply) log := by
  have hanswered := haccounts.answered_of_pull hpull
    (show (scan.interrupt cursor supply).supply = supply from rfl)
  have hbegun := haccounts.answered_ne_nil
  refine ⟨h.events, h.course_of_cursor hcursor, ?_, h.errors⟩
  rw [hanswered, List.tail_append_of_ne_nil hbegun, List.filter_append,
    List.filter_cons_of_neg Bool.false_ne_true, List.filter_nil, List.append_nil]
  exact h.pulls

/-- Every call keeps the journal. -/
theorem nextToken (h : Journal origin base scan log) (haccounts : Accounts origin scan) :
    ∃ more, Journal origin base scan.nextToken.2 more := by
  fun_induction Scan.nextToken scan generalizing log with
  | case1 scan hcursor => exact ⟨log, h⟩
  | case2 scan cursor hcursor lexeme after hlexeme =>
    exact h.accept (ne_none_of_cursor hcursor) lexeme after
  | case3 scan cursor hcursor hnone text supply hpull ih =>
    have hne := ne_none_of_cursor hcursor
    obtain ⟨more, hmore⟩ := h.enterLine haccounts hne hpull
    exact ih hmore (haccounts.enterLine hne hpull)
  | case4 scan cursor hcursor hnone supply hpull =>
    exact h.finish haccounts (ne_none_of_cursor hcursor) hpull
  | case5 scan cursor hcursor hnone error supply hpull =>
    exact ⟨log, h.interrupt haccounts (ne_none_of_cursor hcursor) _ hpull⟩

theorem calls (h : Journal origin base scan log) (haccounts : Accounts origin scan) (n : Nat) :
    ∃ more, Journal origin base (scan.calls n).2 more := by
  induction n with
  | zero => exact ⟨log, h⟩
  | succ n ih =>
    obtain ⟨more, hmore⟩ := ih
    rw [calls_succ]
    exact hmore.nextToken (haccounts.calls n)

theorem session (h : Journal origin base scan log) (haccounts : Accounts origin scan)
    (calls : List Call) : ∃ more, Journal origin base (scan.session calls).2 more := by
  obtain ⟨n, hstate, _⟩ := scan.exists_calls_session calls
  rw [hstate]
  exact h.calls haccounts n

end Journal

/-- A scan begins with an empty journal. -/
theorem journal_start {supply : σ} {events : Array Event} {scan : Scan (Counted σ)}
    (h : start (⟨supply, 0⟩ : Counted σ) events = .ready scan) :
    Journal supply scan.events.toList scan [] := by
  have hempty : ∀ line : Option String, Journal supply
      (onFirstLine (⟨(LineSupply.pull supply).2, 1⟩ : Counted σ) line events).events.toList
      (onFirstLine ⟨(LineSupply.pull supply).2, 1⟩ line events) [] := by
    intro line
    exact ⟨(List.append_nil _).symm, .start _, rfl, rfl⟩
  unfold start at h
  rw [Counted.pull_eq] at h
  cases hanswer : (LineSupply.pull supply).1 with
  | line text =>
    simp only [hanswer] at h
    cases h
    exact hempty (some text)
  | finished =>
    simp only [hanswer] at h
    cases h
    exact hempty none
  | failed error =>
    simp only [hanswer] at h
    cases h

/-- The events mirror the run. Whatever calls follow the beginning of a scan, the events since then
are one of level trace for each pull that has succeeded, with the line numbers from 2 on, and one
of level warn for each diagnostic, in the same order and with the same message and fields. Before
the event of an error on line `n` stand those of the lines 2 to `n` and of no other line. Nothing
stands behind the event of the end of the input, and calls behind it enter nothing more. -/
theorem events_of_session {supply : σ} {events : Array Event} {scan : Scan (Counted σ)}
    (h : start (⟨supply, 0⟩ : Counted σ) events = .ready scan) :
    (∃ plain, start supply events = .ready plain ∧ ∀ calls, plain.session calls =
      ((scan.session calls).1, (scan.session calls).2.mapSupply Counted.supply)) ∧
    ∀ calls after, (scan.session calls).2 = after →
      ∃ log, after.events.toList = scan.events.toList ++ log ∧
        (∀ event ∈ log, event.level = .trace ∨ event.level = .warn) ∧
        (log.filter (·.level = .trace)).map Event.told =
          (((after.answered supply).tail.filter Pull.succeeded).zipIdx 2).map
            (fun p => p.1.told p.2) ∧
        (log.filter (·.level = .warn)).map Event.told =
          after.diagnostics.toList.map Diagnostic.told ∧
        (∀ before later diagnostic, log = before ++ .lexicalError diagnostic :: later →
          (before.filter (·.level = .trace)).map Event.line? =
            (List.range' 2 (diagnostic.line - 1)).map some) ∧
        (∀ before later line, log = before ++ .inputEnded line :: later → later = []) ∧
        (.finished ∈ after.answered supply →
          ∀ later, (after.session later).2.events = after.events) := by
  have haccounts := accounts_start h
  refine ⟨⟨scan.mapSupply Counted.supply, ?_, ?_⟩, fun calls after hafter => ?_⟩
  · exact start_mapSupply (f := Counted.supply) (fun _ => rfl) h
  · intro calls
    exact session_mapSupply (f := Counted.supply) (fun _ => rfl) scan calls
  · obtain ⟨log, hjournal⟩ := (journal_start h).session haccounts calls
    have hstate := haccounts.session calls
    rw [hafter] at hjournal hstate
    refine ⟨log, hjournal.events, ?_, ?_, ?_, ?_, ?_, ?_⟩
    · intro event hevent
      exact (hjournal.course.level_cases event hevent).imp of_decide_eq_true of_decide_eq_true
    · show (log.filter Event.isTrace).map Event.told = _
      rw [hjournal.pulls, List.map_map]
      exact List.map_congr_left fun p _ => Event.told_ofPull p.1 p.2
    · show (log.filter Event.isWarn).map Event.told = _
      rw [hjournal.errors, List.map_map]
      rfl
    · intro before later diagnostic hlog
      exact (hjournal.course.before_error hlog).lines_eq.2
    · intro before later line hlog
      exact hjournal.course.eq_nil_of_inputEnded hlog
    · intro hmem later
      rw [session_of_exhausted (hstate.cursor_eq_none_iff.2 hmem)]

/-- Two errors on the first line, a pull that fails, and an error on the last line. -/
def interruptedLines : List Pull :=
  [.line "X =", .failed .notText, .line "a \"b"]

theorem events_of_interrupted_session :
    ∃ (scan after : Scan (Counted Answers)) (log : List Event),
      start ⟨⟨interruptedLines⟩, 0⟩ = .ready scan ∧
      (scan.session [.nextToken, .allTokens, .allTokens, .nextToken]).2 = after ∧
      after.events.toList = scan.events.toList ++ log ∧
      (log.filter (·.level = .trace)).map Event.told =
        [(.trace, "line loaded", [("line", .number 2)]),
          (.trace, "end of input", [("line", .number 3)])] ∧
      (log.filter (·.level = .warn)).map Event.told =
        [⟨.invalidIdentifier, 1, "X"⟩, ⟨.unknownSymbol, 1, "="⟩,
          ⟨.unterminatedString, 2, "\"b"⟩].map Diagnostic.told := by
  obtain ⟨scan, h⟩ : ∃ scan : Scan (Counted Answers),
      start ⟨⟨interruptedLines⟩, 0⟩ = .ready scan := ⟨_, rfl⟩
  obtain ⟨log, hevents, _, htrace, hwarn, _⟩ :=
    (events_of_session h).2 [.nextToken, .allTokens, .allTokens, .nextToken] _ rfl
  refine ⟨scan, _, log, h, rfl, hevents, ?_, ?_⟩
  · rw [htrace]
    cases h
    decide +kernel
  · rw [hwarn]
    cases h
    decide +kernel

end Scan

end Lexis
