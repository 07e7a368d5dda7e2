import Lexis.Proofs.Scan.Tally

/-!
# Every scan comes to its end

From the first line of a source on, calls go forward in the line and from line to line, and end if
there are finitely many lines (`calls_go_forward`).
-/

set_option autoImplicit false

namespace Lexis

namespace IndexedScan

variable {σ : Type} {pull : σ → Pull × σ}

/-- Whatever source the lines come from, and wherever the turns from the first scan on have led
to: the column is in the current line, which is the last one that the source gave, and it is 0 when
the input has run out; there is a next turn, as no slice reaches out of the line; a call that ends
does not move the place back, and moves it forward when it gives another token than the end token.
Over a source with finitely many lines calls end, for the next token and for all tokens. No more
tokens have been given on a line than it has characters, and a call for all tokens gives at most one
for each character, and the end token as the last one and nowhere else.

The turns are those of every scan over a supply of lines: they begin as it begins, its calls run
through them, and its sessions lead where they lead. -/
theorem calls_go_forward {supply : σ} {events : Array Event}
    {first after : IndexedScan (Logged σ)} {tokens : List Token}
    (hstart : start? (Logged.pull pull) ⟨supply, []⟩ events = some first)
    (h : Reaches (Logged.pull pull) first tokens after) :
    (∀ line, after.line = some line → after.column ≤ line.length ∧
      ∃ text, after.supply.lines.getLast? = some text ∧ text.toList = line) ∧
    (after.line = none → after.column = 0) ∧
    (∃ turn, after.turn (Logged.pull pull) = some turn) ∧
    (∀ result next, Runs (Logged.pull pull) after result next →
      after.position ≤ next.position ∧
      ∀ token, result = .ok token → token.isEof = false → after.position < next.position) ∧
    ((∃ most, GivesAtMost pull most supply) →
      (∃ result next, Runs (Logged.pull pull) after result next) ∧
      ∃ result next, RunsAll (Logged.pull pull) after result next) ∧
    (∀ i line, after.supply.lines[i]? = some line →
      tokens.countP (fun token => token.line = i + 1 ∧ token.isEof = false) ≤
        line.toList.length) ∧
    (∀ given next, RunsAll (Logged.pull pull) after (.ok given) next →
      (∃ before last, given = before ++ [last] ∧ (∀ token ∈ before, token.isEof = false) ∧
        last.isEof = true) ∧
      given.length ≤ (next.supply.lines.flatMap String.toList).length + 1) ∧
    ∀ {τ : Type} [LineSupply τ],
      (∀ (origin : τ) (log : Array Event) (scan : Scan τ), Scan.start origin log = .ready scan →
        start? LineSupply.pull origin log = some scan.indexed) ∧
      ∀ scan : Scan τ,
        Runs LineSupply.pull scan.indexed scan.nextToken.1 scan.nextToken.2.indexed ∧
        RunsAll LineSupply.pull scan.indexed scan.allTokens.1 scan.allTokens.2.indexed ∧
        ∀ calls, ∃ given,
          Reaches LineSupply.pull scan.indexed given (scan.session calls).2.indexed ∧
          ((scan.session calls).1.flatMap Scan.Reply.given).Sublist given := by
  have hvalid := h.isValid (isValid_of_start hstart)
  have hfirst := tally_of_start hstart
  have htally := h.tally hfirst
  refine ⟨fun line hline => ⟨hvalid.inLine line hline, htally.current line hline⟩, hvalid.atEnd,
    ?_, fun _ _ hruns => hruns.progress hvalid, ?_, fun _ _ hline => htally.countP_line_le hline,
    ?_, ?_⟩
  · obtain ⟨turn, hturn, _⟩ := exists_turn (Logged.pull pull) after
    exact ⟨turn, hturn⟩
  · rintro ⟨most, hmost⟩
    obtain ⟨result, next, hall⟩ :=
      (h.finishes (finishes_of_start hstart (hmost.logged []))).exists_runsAll
    exact ⟨hall.exists_runs, result, next, hall⟩
  · intro given next hall
    obtain ⟨before, last, hgiven, hbefore, hlast⟩ := hall.ok given rfl
    refine ⟨⟨before, last, hgiven, hbefore, hlast⟩, ?_⟩
    exact ((h.runsAll hall given rfl).tally hfirst).length_le hgiven hbefore
  · intro τ _
    exact ⟨fun _ _ _ hready => start?_of_start hready,
      fun scan => ⟨scan.runs_nextToken, scan.runsAll_allTokens, scan.reaches_session⟩⟩

/-- A scan on a line with one symbol, and the source that the line came from. -/
def beforeAssign : IndexedScan (Logged Answers) :=
  onFirstLine ⟨⟨[]⟩, [.line ":="]⟩ (some ":=") #[]

/-- From the symbol on, calls go forward and end. -/
theorem calls_go_forward_from_assign :
    start? (Logged.pull LineSupply.pull) ⟨(⟨[.line ":="]⟩ : Answers), []⟩ #[] =
      some beforeAssign ∧
    Reaches (Logged.pull LineSupply.pull) beforeAssign [⟨.operator .assign, ":=", 1⟩]
      { beforeAssign with column := 2 } ∧
    (∃ result next, Runs (Logged.pull LineSupply.pull) { beforeAssign with column := 2 }
      result next) ∧
    [(⟨.operator .assign, ":=", 1⟩ : Token)].countP
      (fun token => token.line = 1 ∧ token.isEof = false) ≤ 2 := by
  have hstart : start? (Logged.pull LineSupply.pull) ⟨(⟨[.line ":="]⟩ : Answers), []⟩ #[] =
      some beforeAssign := rfl
  have hturn : beforeAssign.turn (Logged.pull LineSupply.pull) =
      some (.done (.ok ⟨.operator .assign, ":=", 1⟩) { beforeAssign with column := 2 }) := rfl
  have hreaches : Reaches (Logged.pull LineSupply.pull) beforeAssign
      [⟨.operator .assign, ":=", 1⟩] { beforeAssign with column := 2 } := by
    have hdone := Reaches.done .refl hturn
    exact hdone
  obtain ⟨_, _, _, _, hends, hcount, _⟩ := calls_go_forward hstart hreaches
  have hmost : GivesAtMost LineSupply.pull 1 (⟨[.line ":="]⟩ : Answers) := by
    rintro (_ | _ | n)
    · exact Nat.zero_le _
    · exact Nat.le_refl _
    · exact Nat.le_refl _
  exact ⟨hstart, hreaches, (hends ⟨1, hmost⟩).1, hcount 0 ":=" rfl⟩

end IndexedScan

end Lexis
