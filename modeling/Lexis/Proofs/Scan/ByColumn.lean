import Mathlib.Data.Prod.Lex
import Lexis.Scan.ByColumn
import Lexis.Proofs.Lexeme.ByColumn
import Lexis.Proofs.Scan.Gathering

/-!
# A scan by columns goes forward

Every turn exists: no slice reaches out of the line (`exists_turn`). A turn that goes on moves the
place forward and keeps it in the line (`IsTurn.again`), and so does a turn that ends the call with
a token that is not the end token; a failure leaves the place where it is (`IsTurn.done`). That
holds over any source of lines, without an end, too.

Over a supply of lines the loops end, with what `nextToken` and `allTokens` give
(`runs_nextToken`, `runsAll_allTokens`).
-/

set_option autoImplicit false

namespace Lexis

namespace IndexedScan

variable {σ : Type}

structure IsValid (scan : IndexedScan σ) : Prop where
  inLine : ∀ line, scan.line = some line → scan.column ≤ line.length
  atEnd : scan.line = none → scan.column = 0

theorem isValid_of_line {scan : IndexedScan σ} {line : List Char} (hline : scan.line = some line)
    (hle : scan.column ≤ line.length) : scan.IsValid := by
  constructor
  · intro other hother
    obtain rfl := Option.some.inj (hline.symm.trans hother)
    exact hle
  · intro hnone
    rw [hline] at hnone
    cases hnone

/-- The place of a scan, ordered by the line number and then by the column. -/
def position (scan : IndexedScan σ) : ℕ ×ₗ ℕ :=
  toLex (scan.lineNumber, scan.column)

theorem position_lt_iff {scan after : IndexedScan σ} :
    scan.position < after.position ↔ scan.lineNumber < after.lineNumber ∨
      scan.lineNumber = after.lineNumber ∧ scan.column < after.column :=
  Prod.Lex.toLex_lt_toLex

section
variable {scan : IndexedScan σ}

theorem column_accept (lexeme : Lexeme) (stop : Nat) :
    (scan.accept lexeme stop).2.column = stop := by
  unfold accept
  cases lexeme.verdict <;> rfl

theorem line_accept (lexeme : Lexeme) (stop : Nat) :
    (scan.accept lexeme stop).2.line = scan.line := by
  unfold accept
  cases lexeme.verdict <;> rfl

theorem lineNumber_accept (lexeme : Lexeme) (stop : Nat) :
    (scan.accept lexeme stop).2.lineNumber = scan.lineNumber := by
  unfold accept
  cases lexeme.verdict <;> rfl

theorem token_accept (lexeme : Lexeme) (stop : Nat) :
    (scan.accept lexeme stop).1 = lexeme.token scan.lineNumber := by
  unfold accept Lexeme.token Lexeme.kind
  cases lexeme.verdict <;> rfl

end

/-- The line in front of a column and behind it. -/
theorem split_at_column {chars : List Char} {column : Nat} {c : Char}
    (h : chars[column]? = some c) :
    ∃ before rest, chars = before ++ c :: rest ∧ before.length = column := by
  obtain ⟨hlt, rfl⟩ := List.getElem?_eq_some_iff.1 h
  refine ⟨chars.take column, chars.drop (column + 1), ?_, List.length_take_of_le (Nat.le_of_lt hlt)⟩
  rw [← List.drop_eq_getElem_cons hlt, List.take_append_drop]

/-- All that a turn of a scan can be. -/
inductive IsTurn (pull : σ → Pull × σ) (scan : IndexedScan σ) : Turn σ → Prop
  | eof (hline : scan.line = none) : IsTurn pull scan (.done (.ok (.eof scan.lineNumber)) scan)
  | line {text : String} {supply : σ} (hline : scan.line ≠ none)
      (hpull : pull scan.supply = (.line text, supply)) :
    IsTurn pull scan (.again (scan.enterLine text supply))
  | finished {supply : σ} (hline : scan.line ≠ none)
      (hpull : pull scan.supply = (.finished, supply)) :
    IsTurn pull scan (.again (scan.finish supply))
  | failed {error : IoError} {supply : σ} (hline : scan.line ≠ none)
      (hpull : pull scan.supply = (.failed error, supply)) :
    IsTurn pull scan (.done (.error error) { scan with supply })
  | blank {line : List Char} (hline : scan.line = some line) (hlt : scan.column < line.length) :
    IsTurn pull scan (.again { scan with column := scan.column + 1 })
  | lexeme {line : List Char} {lexeme : Lexeme} {stop : Nat} (hline : scan.line = some line)
      (hless : scan.column < stop) (hstop : stop ≤ line.length)
      (hnot : (lexeme.token scan.lineNumber).isEof = false) :
    IsTurn pull scan (.done (.ok (scan.accept lexeme stop).1) (scan.accept lexeme stop).2)

variable {pull : σ → Pull × σ} {scan : IndexedScan σ}

theorem isTurn_advanceLine (hline : scan.line ≠ none) :
    IsTurn pull scan (scan.advanceLine pull) := by
  unfold advanceLine
  rcases hpull : pull scan.supply with ⟨answer, supply⟩
  cases answer with
  | line text => exact .line hline hpull
  | finished => exact .finished hline hpull
  | failed error => exact .failed hline hpull

/-- Every scan has a turn: no slice reaches out of the line. -/
theorem exists_turn (pull : σ → Pull × σ) (scan : IndexedScan σ) :
    ∃ turn, scan.turn pull = some turn ∧ IsTurn pull scan turn := by
  unfold turn
  cases hline : scan.line with
  | none => exact ⟨_, rfl, .eof hline⟩
  | some chars =>
    have hsome : scan.line ≠ none := by
      rw [hline]
      exact Option.some_ne_none chars
    dsimp only
    cases hchar : chars[scan.column]? with
    | none => exact ⟨_, rfl, isTurn_advanceLine hsome⟩
    | some c =>
      dsimp only
      split
      · exact ⟨_, by rw [← hline], .blank hline (List.getElem?_eq_some_iff.1 hchar).1⟩
      · split
        · exact ⟨_, rfl, isTurn_advanceLine hsome⟩
        · rename_i hblank hcomment
          obtain ⟨before, rest, rfl, hbefore⟩ := split_at_column hchar
          have hcut := congrArg List.length (cutBody_append c rest)
          have hspells := spells_classify (Bool.eq_false_iff.2 hblank) hcomment
            (admits_cutBody c rest)
          rw [← hbefore, Lexeme.at?_append, Option.map_some]
          refine ⟨_, rfl, .lexeme hline ?_ ?_ (decide_eq_false hspells.ne_eof)⟩
          · omega
          · simp only [List.length_append, List.length_cons] at hcut ⊢
            omega

theorem isTurn_of_turn {turn : Turn σ} (h : scan.turn pull = some turn) :
    IsTurn pull scan turn := by
  obtain ⟨other, hother, hturn⟩ := exists_turn pull scan
  obtain rfl := Option.some.inj (hother.symm.trans h)
  exact hturn

/-- A turn that goes on moves the place forward, and keeps it in the line. -/
theorem IsTurn.again {next : IndexedScan σ} (h : IsTurn pull scan (.again next)) :
    next.IsValid ∧ scan.position < next.position := by
  cases h with
  | line =>
    exact ⟨isValid_of_line rfl (Nat.zero_le _), position_lt_iff.2 (.inl (Nat.lt_succ_self _))⟩
  | finished =>
    exact ⟨⟨nofun, fun _ => rfl⟩, position_lt_iff.2 (.inl (Nat.lt_succ_self _))⟩
  | blank hline hlt =>
    exact ⟨isValid_of_line hline hlt, position_lt_iff.2 (.inr ⟨rfl, Nat.lt_succ_self _⟩)⟩

/-- A call ends in the line, too. It does not go back, and with a token that is not the end token
it ends behind the place where the turn began. -/
theorem IsTurn.done {result : Except IoError Token} {after : IndexedScan σ}
    (h : IsTurn pull scan (.done result after)) (hvalid : scan.IsValid) :
    after.IsValid ∧ scan.position ≤ after.position ∧
      ∀ token, result = .ok token → token.isEof = false → scan.position < after.position := by
  cases h with
  | eof =>
    refine ⟨hvalid, le_refl _, fun token htoken hnot => ?_⟩
    obtain rfl := Except.ok.inj htoken
    rw [Token.isEof_eof] at hnot
    cases hnot
  | failed => exact ⟨⟨hvalid.inLine, hvalid.atEnd⟩, le_refl _, nofun⟩
  | @lexeme line lexeme stop hline hless hstop hnot =>
    have hforward : scan.position < (scan.accept lexeme stop).2.position := by
      rw [position_lt_iff, lineNumber_accept, column_accept]
      exact .inr ⟨rfl, hless⟩
    refine ⟨isValid_of_line ((line_accept ..).trans hline) ?_, le_of_lt hforward,
      fun _ _ _ => hforward⟩
    rw [column_accept]
    exact hstop

/-- A call does not go back, and a token that it gives ends behind the place where it began. -/
theorem Runs.progress {result : Except IoError Token} {after : IndexedScan σ}
    (h : Runs pull scan result after) (hvalid : scan.IsValid) :
    scan.position ≤ after.position ∧
      ∀ token, result = .ok token → token.isEof = false → scan.position < after.position := by
  induction h with
  | done hturn => exact ((isTurn_of_turn hturn).done hvalid).2
  | again hturn _ ih =>
    obtain ⟨hnext, hless⟩ := (isTurn_of_turn hturn).again
    have hforward := lt_of_lt_of_le hless (ih hnext).1
    exact ⟨le_of_lt hforward, fun _ _ _ => hforward⟩

end IndexedScan

/-! ## The same scan with a cursor -/

/-- The characters up to the cursor are counted by the column. -/
def Scan.indexed {σ : Type} (scan : Scan σ) : IndexedScan σ :=
  { supply := scan.supply
    line := scan.cursor.map Cursor.text
    column := scan.column
    lineNumber := scan.lineNumber
    errorSeen := scan.errorSeen
    diagnostics := scan.diagnostics
    events := scan.events }

namespace Scan

open IndexedScan (Runs RunsAll)

variable {σ : Type}

/-- The scan at another place of its line. -/
def moveTo (scan : Scan σ) (cursor : Cursor) : Scan σ :=
  { scan with cursor := some cursor }

theorem moveTo_cursor {scan : Scan σ} {cursor : Cursor} (h : scan.cursor = some cursor) :
    scan.moveTo cursor = scan := by
  rw [moveTo, ← h]

theorem indexed_accept (scan : Scan σ) (lexeme : Lexeme) (cursor after : Cursor)
    (htext : after.text = cursor.text) :
    (scan.moveTo cursor).indexed.accept lexeme after.column =
      ((scan.accept lexeme after).1, (scan.accept lexeme after).2.indexed) := by
  unfold IndexedScan.accept accept indexed moveTo
  cases lexeme.verdict <;>
    simp only [report, column, Option.map_some, htext]

theorem indexed_onFirstLine (supply : σ) (line : Option String) (events : Array Event) :
    (onFirstLine supply line events).indexed = .onFirstLine supply line events := by
  cases line <;> simp [indexed, onFirstLine, IndexedScan.onFirstLine, column, Cursor.column,
    Cursor.ofLine, Cursor.text]

section
variable (pull : σ → Pull × σ) (scan : Scan σ)

theorem turn_of_exhausted (h : scan.cursor = none) :
    scan.indexed.turn pull = some (.done (.ok (.eof scan.lineNumber)) scan.indexed) := by
  have hline : scan.indexed.line = none := by rw [indexed, h, Option.map_none]
  unfold IndexedScan.turn
  rw [hline]
  rfl

/-- A turn looks at the first character ahead. -/
theorem turn_of_cursor (cursor : Cursor) :
    (scan.moveTo cursor).indexed.turn pull =
      match cursor.ahead with
      | [] => some ((scan.moveTo cursor).indexed.advanceLine pull)
      | c :: rest =>
        if isBlank c then some (.again (scan.moveTo ⟨c :: cursor.behind, rest⟩).indexed)
        else if c = '#' then some ((scan.moveTo cursor).indexed.advanceLine pull)
        else
          let after : Cursor :=
            ⟨(cutBody c rest).1.reverse ++ c :: cursor.behind, (cutBody c rest).2⟩
          let accepted := scan.accept (.classify c (cutBody c rest).1) after
          some (.done (.ok accepted.1) accepted.2.indexed) := by
  rcases cursor with ⟨behind, ahead⟩
  have hget := getElem?_length_append behind.reverse ahead
  have hline : (scan.moveTo ⟨behind, ahead⟩).indexed.line = some (behind.reverse ++ ahead) := rfl
  have hcolumn : (scan.moveTo ⟨behind, ahead⟩).indexed.column = behind.reverse.length :=
    List.length_reverse.symm
  unfold IndexedScan.turn
  rw [hline, hcolumn]
  dsimp only
  rw [hget]
  cases ahead with
  | nil => rfl
  | cons c rest =>
    dsimp only [List.head?_cons]
    split
    · -- the blank goes from one side of the cursor to the other
      have hmoved : ((c :: behind).reverse ++ rest, (c :: behind).length) =
          (behind.reverse ++ c :: rest, behind.reverse.length + 1) := by
        simp
      obtain ⟨htext, hlength⟩ := Prod.mk.inj hmoved
      simp only [indexed, moveTo, column, Cursor.column, Cursor.text, Option.map_some, htext,
        hlength]
    · split
      · rfl
      · have htext : Cursor.text ⟨(cutBody c rest).1.reverse ++ c :: behind, (cutBody c rest).2⟩ =
            Cursor.text ⟨behind, c :: rest⟩ := by
          simp [Cursor.text, cutBody_append]
        have hstop : behind.reverse.length + 1 + (cutBody c rest).1.length =
            Cursor.column ⟨(cutBody c rest).1.reverse ++ c :: behind, (cutBody c rest).2⟩ := by
          simp only [Cursor.column, List.length_append, List.length_reverse, List.length_cons]
          omega
        rw [Lexeme.at?_append, Option.map_some, hstop, indexed_accept scan _ _ _ htext]

theorem advanceLine_moveTo (cursor : Cursor) :
    (scan.moveTo cursor).indexed.advanceLine pull =
      match pull scan.supply with
      | (.line text, supply) => .again (scan.enterLine text supply).indexed
      | (.finished, supply) => .again (scan.finish supply).indexed
      | (.failed error, supply) => .done (.error error) (scan.interrupt cursor supply).indexed := by
  have hsupply : (scan.moveTo cursor).indexed.supply = scan.supply := rfl
  unfold IndexedScan.advanceLine
  rw [hsupply]
  rcases pull scan.supply with ⟨_ | _ | _, supply⟩ <;> rfl

variable {pull scan} {result : Except IoError Token} {after : IndexedScan σ}

/-- The turns that pass the blanks in front of a cursor. -/
theorem runs_of_skipBlanks {cursor : Cursor}
    (h : Runs pull (scan.moveTo cursor.skipBlanks).indexed result after) :
    Runs pull (scan.moveTo cursor).indexed result after := by
  rcases cursor with ⟨behind, ahead⟩
  induction ahead generalizing behind with
  | nil => exact h
  | cons c rest ih =>
    cases hblank : isBlank c with
    | false =>
      have hsame : Cursor.skipBlanks ⟨behind, c :: rest⟩ = ⟨behind, c :: rest⟩ := by
        simp [Cursor.skipBlanks, hblank]
      rwa [hsame] at h
    | true =>
      have hnext : Cursor.skipBlanks ⟨behind, c :: rest⟩ =
          Cursor.skipBlanks ⟨c :: behind, rest⟩ := by
        simp [Cursor.skipBlanks, hblank]
      rw [hnext] at h
      refine .again ?_ (ih (c :: behind) h)
      rw [turn_of_cursor]
      simp only [hblank, if_true]

theorem turn_of_lexeme {cursor after : Cursor} {lexeme : Lexeme}
    (h : cursor.skipBlanks.lexeme? = some (lexeme, after)) :
    (scan.moveTo cursor.skipBlanks).indexed.turn pull =
      some (.done (.ok (scan.accept lexeme after).1) (scan.accept lexeme after).2.indexed) := by
  rcases idle_or_lexeme cursor.ahead with ⟨blanks, rest, hahead, hblanks, hidle⟩ |
    ⟨blanks, first, rest, hahead, hblanks, hfirst, hcomment⟩
  · rw [Cursor.lexeme?_of_idle hahead hblanks hidle] at h
    cases h
  · rw [Cursor.lexeme?_of_lexeme hahead hblanks hfirst hcomment] at h
    obtain ⟨rfl, rfl⟩ := Prod.mk.inj (Option.some.inj h)
    rw [turn_of_cursor, Cursor.skipBlanks_of_lexeme hahead hblanks hfirst]
    simp only [hfirst, hcomment, Bool.false_eq_true, if_false]

theorem turn_of_no_lexeme {cursor : Cursor} (h : cursor.skipBlanks.lexeme? = none) :
    (scan.moveTo cursor.skipBlanks).indexed.turn pull =
      some ((scan.moveTo cursor.skipBlanks).indexed.advanceLine pull) := by
  rcases idle_or_lexeme cursor.ahead with ⟨blanks, rest, hahead, hblanks, hidle⟩ |
    ⟨blanks, first, rest, hahead, hblanks, hfirst, hcomment⟩
  · have hrest : cursor.skipBlanks.ahead = rest := by
      rw [Cursor.skipBlanks, hahead, List.dropWhile_append_of_pos hblanks, hidle.dropWhile]
    rw [turn_of_cursor, hrest]
    cases rest with
    | nil => rfl
    | cons c rest =>
      obtain rfl := hidle c rfl
      simp only [isBlank_comment, Bool.false_eq_true, if_false, if_true]
  · rw [Cursor.lexeme?_of_lexeme hahead hblanks hfirst hcomment] at h
    cases h

end

variable [LineSupply σ]

/-- A call for the next token, turn by turn, ends with what the call gives. -/
theorem runs_nextToken (scan : Scan σ) :
    Runs LineSupply.pull scan.indexed scan.nextToken.1 scan.nextToken.2.indexed := by
  fun_induction nextToken scan with
  | case1 scan hcursor => exact .done (turn_of_exhausted _ scan hcursor)
  | case2 scan cursor hcursor lexeme after hlexeme accepted =>
    rw [← moveTo_cursor hcursor]
    exact runs_of_skipBlanks (.done (turn_of_lexeme hlexeme))
  | case3 scan cursor hcursor hnone text supply hpull ih =>
    have hruns : Runs LineSupply.pull (scan.moveTo cursor).indexed
        (scan.enterLine text supply).nextToken.1
        (scan.enterLine text supply).nextToken.2.indexed := by
      refine runs_of_skipBlanks (.again ?_ ih)
      rw [turn_of_no_lexeme hnone, advanceLine_moveTo, hpull]
    rwa [moveTo_cursor hcursor] at hruns
  | case4 scan cursor hcursor hnone supply hpull =>
    have hend := turn_of_exhausted LineSupply.pull (scan.finish supply) rfl
    have hruns : Runs LineSupply.pull (scan.moveTo cursor).indexed
        (.ok (.eof (scan.lineNumber + 1))) (scan.finish supply).indexed := by
      refine runs_of_skipBlanks (.again ?_ (.done hend))
      rw [turn_of_no_lexeme hnone, advanceLine_moveTo, hpull]
    rwa [moveTo_cursor hcursor] at hruns
  | case5 scan cursor hcursor hnone error supply hpull =>
    have hruns : Runs LineSupply.pull (scan.moveTo cursor).indexed (.error error)
        (scan.interrupt cursor.skipBlanks supply).indexed := by
      refine runs_of_skipBlanks (.done ?_)
      rw [turn_of_no_lexeme hnone, advanceLine_moveTo, hpull]
    rwa [moveTo_cursor hcursor] at hruns

/-- The same for some calls that give no end token, and what follows them. -/
theorem runsAll_of_calls {scan mid : Scan σ} {before : List Token}
    {result : Except IoError (List Token)} {after : IndexedScan σ}
    (hbefore : ∀ token ∈ before, token.isEof = false)
    (h : scan.calls before.length = (before.map .ok, mid))
    (hmid : RunsAll LineSupply.pull mid.indexed result after) :
    RunsAll LineSupply.pull scan.indexed (result.map (before ++ ·)) after := by
  induction before generalizing scan with
  | nil =>
    obtain ⟨_, rfl⟩ := Prod.mk.inj h
    cases result <;> exact hmid
  | cons token before ih =>
    obtain ⟨hnot, hbefore⟩ := List.forall_mem_cons.1 hbefore
    simp only [List.length_cons, calls, List.map_cons, Prod.mk.injEq, List.cons.injEq] at h
    obtain ⟨⟨htoken, hothers⟩, hmid'⟩ := h
    have hruns := scan.runs_nextToken
    rw [htoken] at hruns
    have hall := RunsAll.more hruns hnot (ih hbefore (Prod.ext hothers hmid'))
    cases result <;> exact hall

theorem runsAll_allTokens (scan : Scan σ) :
    RunsAll LineSupply.pull scan.indexed scan.allTokens.1 scan.allTokens.2.indexed := by
  obtain ⟨before, mid, hbefore, hcalls, hstop⟩ := scan.exists_calls_before_end
  have hruns := mid.runs_nextToken
  rcases hstop with ⟨error, after, hnext⟩ | ⟨last, after, hnext, hlast⟩
  · rw [allTokens_of_failure hbefore hcalls hnext]
    rw [hnext] at hruns
    exact runsAll_of_calls hbefore hcalls (.failed hruns)
  · rw [allTokens_of_end hbefore hcalls hnext hlast]
    rw [hnext] at hruns
    exact runsAll_of_calls hbefore hcalls (.last hruns hlast)

end Scan

end Lexis
