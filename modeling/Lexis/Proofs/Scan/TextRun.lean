import Lexis.Proofs.Scan.Calls
import Lexis.Proofs.Supply.Pulls

/-!
# Runs over lines

A run goes through the current line cut by cut (`runFrom_line`), and so through all lines that the
supply gives in a row (`runFrom_lines`). What the supply answers behind them decides how the run
ends: at the end of the input with the end token (`run_of_finished`), or with a failure
(`run_of_failed`). Over the lines of a text it never fails (`allTokens_ofText`).
-/

set_option autoImplicit false

namespace Lexis

/-- The tokens of line `number`. -/
def lineTokens (number : Nat) (line : List Char) : List Token :=
  (cuts 0 line).map fun cut => cut.lexeme.token number

/-- The tokens of lines that are counted from `number` on, and the end token. -/
def tokensFrom (number : Nat) : List String → List Token
  | [] => [.eof number]
  | line :: lines => lineTokens number line.toList ++ tokensFrom (number + 1) lines

/-- The tokens of some lines without the end token. -/
def bodyTokens (number : Nat) : List String → List Token
  | [] => []
  | line :: lines => lineTokens number line.toList ++ bodyTokens (number + 1) lines

theorem tokensFrom_append (number : Nat) (first second : List String) :
    tokensFrom number (first ++ second) =
      bodyTokens number first ++ tokensFrom (number + first.length) second := by
  induction first generalizing number with
  | nil => rfl
  | cons line first ih =>
    rw [List.cons_append, tokensFrom, ih, bodyTokens, List.append_assoc, List.length_cons,
      show number + (first.length + 1) = number + 1 + first.length by omega]

theorem tokensFrom_eq (number : Nat) (lines : List String) :
    tokensFrom number lines = bodyTokens number lines ++ [.eof (number + lines.length)] := by
  have happend := tokensFrom_append number lines []
  rw [List.append_nil] at happend
  exact happend

theorem isEof_of_mem_bodyTokens {number : Nat} {lines : List String} {token : Token}
    (h : token ∈ bodyTokens number lines) : token.isEof = false := by
  induction lines generalizing number with
  | nil => cases h
  | cons line lines ih =>
    rcases List.mem_append.1 h with h | h
    · obtain ⟨cut, hcut, rfl⟩ := List.mem_map.1 h
      exact isEof_token_of_mem_cuts hcut number
    · exact ih h

namespace Scan

variable {σ : Type} [LineSupply σ]

/-- A run depends on nothing but what the next call gives. -/
theorem runFrom_of_nextToken_eq {a b : Scan σ} (read : List Token)
    (h : a.nextToken = b.nextToken) : a.runFrom read = b.runFrom read := by
  rcases hnext : a.nextToken with ⟨reply, after⟩
  have hnext' : b.nextToken = (reply, after) := h ▸ hnext
  cases reply with
  | error error => rw [runFrom_of_error read hnext, runFrom_of_error read hnext']
  | ok token =>
    cases hend : token.isEof with
    | true => rw [runFrom_of_eof read hnext hend, runFrom_of_eof read hnext' hend]
    | false => rw [runFrom_of_token read hnext hend, runFrom_of_token read hnext' hend]

/-- A run reads the tokens ahead on the line, and comes to its end. -/
theorem runFrom_line {scan : Scan σ} {cursor : Cursor} (hcursor : scan.cursor = some cursor)
    (read : List Token) :
    ∃ (passed : Scan σ) (last : Cursor),
      scan.runFrom read = passed.runFrom
        ((cursor.cuts.map fun cut => cut.lexeme.token scan.lineNumber).reverse ++ read) ∧
      passed.supply = scan.supply ∧ passed.lineNumber = scan.lineNumber ∧
      passed.cursor = some last ∧ last.skipBlanks.lexeme? = none := by
  generalize hcuts : cursor.cuts = ahead
  induction ahead generalizing scan cursor read with
  | nil =>
    exact ⟨scan, cursor, rfl, rfl, rfl, hcursor, Cursor.lexeme?_eq_none_of_cuts hcuts⟩
  | cons cut more ih =>
    obtain ⟨after, _, hmore, _, _, hnext⟩ := nextToken_of_cuts hcursor hcuts
    have hmem : cut ∈ cursor.cuts := by rw [hcuts]; exact List.mem_cons_self
    have hrun := runFrom_of_token read hnext (isEof_token_of_mem_cuts hmem _)
    obtain ⟨passed, last, hpassed, hsupply, hnumber, hlast, hnone⟩ :=
      ih (cursor_accept scan cut.lexeme after) (cut.lexeme.token scan.lineNumber :: read) hmore
    rw [lineNumber_accept] at hpassed hnumber
    rw [supply_accept] at hsupply
    refine ⟨passed, last, ?_, hsupply, hnumber, hlast, hnone⟩
    rw [hrun, hpassed, List.map_cons, List.reverse_cons, List.append_assoc]
    rfl

/-- A run reads the tokens ahead on the line and those of the lines that come behind it. -/
theorem runFrom_lines {scan : Scan σ} {cursor : Cursor} {lines : List String} {rest : σ}
    (hcursor : scan.cursor = some cursor) (hlines : LineSupply.Yields scan.supply lines rest)
    (read : List Token) :
    ∃ (passed : Scan σ) (last : Cursor),
      scan.runFrom read = passed.runFrom
        (((cursor.cuts.map fun cut => cut.lexeme.token scan.lineNumber) ++
          bodyTokens (scan.lineNumber + 1) lines).reverse ++ read) ∧
      passed.supply = rest ∧ passed.lineNumber = scan.lineNumber + lines.length ∧
      passed.cursor = some last ∧ last.skipBlanks.lexeme? = none := by
  generalize hsupply : scan.supply = supply at hlines
  induction hlines generalizing scan cursor read with
  | nil supply =>
    obtain ⟨passed, last, hrun, hsame, hnumber, hlast, hnone⟩ := runFrom_line hcursor read
    refine ⟨passed, last, ?_, hsame.trans hsupply, hnumber, hlast, hnone⟩
    rw [hrun, bodyTokens, List.append_nil]
  | @cons supply next rest line lines hpull _ ih =>
    obtain ⟨passed, last, hrun, hsame, hnumber, hlast, hnone⟩ := runFrom_line hcursor read
    rw [← hsupply, ← hsame] at hpull
    have hnext := nextToken_of_line hlast hnone hpull
    have hbegin : (passed.enterLine line next).cursor = some (.ofLine line) := rfl
    obtain ⟨final, last', hfinal, hrest, hnumber', hlast', hnone'⟩ := ih hbegin
      ((cursor.cuts.map fun cut => cut.lexeme.token scan.lineNumber).reverse ++ read) rfl
    have hentered : (passed.enterLine line next).lineNumber = scan.lineNumber + 1 := by
      rw [← hnumber]
      rfl
    have htokens : ((Cursor.ofLine line).cuts.map fun cut =>
        cut.lexeme.token (scan.lineNumber + 1)) = lineTokens (scan.lineNumber + 1) line.toList := rfl
    rw [hentered, htokens] at hfinal
    refine ⟨final, last', ?_, hrest, ?_, hlast', hnone'⟩
    · rw [hrun, runFrom_of_nextToken_eq _ hnext, hfinal, bodyTokens]
      simp only [List.reverse_append, List.append_assoc]
    · rw [hnumber', hentered, List.length_cons]
      omega

/-! ## From the first line on -/

section
variable {supply rest last : σ} {lines : List String}

/-- A scan whose first pull fails does not begin. -/
theorem start_of_failed {error : IoError} (events : Array Event)
    (h : LineSupply.pull supply = (.failed error, last)) :
    start supply events = .failed error last events := by
  rw [start, h]

/-- A run from the first line on comes to the end of the last line. -/
theorem run_of_line {next : σ} (line : String) (hlines : LineSupply.Yields next lines rest)
    (events : Array Event) :
    ∃ (passed : Scan σ) (last : Cursor),
      (onFirstLine next (some line) events).run =
        passed.runFrom (bodyTokens 1 (line :: lines)).reverse ∧
      passed.supply = rest ∧ passed.lineNumber = 1 + lines.length ∧
      passed.cursor = some last ∧ last.skipBlanks.lexeme? = none := by
  have hbegin : (onFirstLine next (some line) events).cursor = some (.ofLine line) := rfl
  obtain ⟨passed, cursor, hrun, hpassed⟩ := runFrom_lines hbegin hlines []
  rw [List.append_nil] at hrun
  exact ⟨passed, cursor, hrun, hpassed⟩

/-- Behind the lines the input ends: the run gives all their tokens and the end token. -/
theorem run_of_finished (events : Array Event) (hlines : LineSupply.Yields supply lines rest)
    (hend : LineSupply.pull rest = (.finished, last)) :
    ∃ scan after : Scan σ, start supply events = .ready scan ∧
      scan.run = ⟨tokensFrom 1 lines, none, after⟩ := by
  cases hlines with
  | nil =>
    have hended : (onFirstLine last none events).cursor = none := rfl
    refine ⟨onFirstLine last none events, onFirstLine last none events, ?_, ?_⟩
    · rw [start, hend]
    · rw [run, runFrom_of_eof [] (nextToken_of_exhausted hended) (Token.isEof_eof _)]
      rfl
  | @cons _ next _ line lines hpull hmore =>
    obtain ⟨passed, cursor, hrun, hsupply, hnumber, hcursor, hnone⟩ :=
      run_of_line line hmore events
    rw [← hsupply] at hend
    have hnext := nextToken_of_finished hcursor hnone hend
    refine ⟨onFirstLine next (some line) events, passed.finish last, ?_, ?_⟩
    · rw [start, hpull]
    · have hline : passed.lineNumber + 1 = 1 + (line :: lines).length := by
        rw [hnumber, List.length_cons]
        omega
      rw [hrun, runFrom_of_eof _ hnext (Token.isEof_eof _), hline, tokensFrom_eq,
        List.reverse_cons, List.reverse_reverse]

/-- Behind the lines a pull fails: the run has read all their tokens. -/
theorem run_of_failed (events : Array Event) {line : String} {error : IoError}
    (hlines : LineSupply.Yields supply (line :: lines) rest)
    (hend : LineSupply.pull rest = (.failed error, last)) :
    ∃ scan after : Scan σ, start supply events = .ready scan ∧
      scan.run = ⟨bodyTokens 1 (line :: lines), some error, after⟩ := by
  cases hlines with
  | @cons _ next _ _ _ hpull hmore =>
    obtain ⟨passed, cursor, hrun, hsupply, _, hcursor, hnone⟩ := run_of_line line hmore events
    rw [← hsupply] at hend
    have hnext := nextToken_of_failed hcursor hnone hend
    refine ⟨onFirstLine next (some line) events, passed.interrupt cursor.skipBlanks last, ?_, ?_⟩
    · rw [start, hpull]
    · rw [hrun, runFrom_of_error _ hnext, List.reverse_reverse]

end

/-! ## Lines in memory -/

theorem yields_textLines (lines : List String) :
    LineSupply.Yields (⟨lines⟩ : TextLines) lines ⟨[]⟩ := by
  induction lines with
  | nil => exact .nil _
  | cons line lines ih => exact .cons rfl ih

/-- The scan of a text in memory begins like any other. -/
theorem start_ofText (text : String) :
    Scan.start (TextLines.ofText text) = .ready (ofText text) := by
  unfold Scan.start ofText TextLines.ofText
  cases textLines text <;> rfl

/-- Every text gives its tokens, line by line. -/
theorem allTokens_ofText (text : String) :
    (ofText text).allTokens.1 = .ok (tokensFrom 1 (textLines text)) := by
  obtain ⟨scan, after, hstart, hrun⟩ :=
    run_of_finished #[] (yields_textLines (textLines text)) rfl
  obtain rfl : ofText text = scan := Opening.ready.inj ((start_ofText text).symm.trans hstart)
  rw [allTokens, hrun]

end Scan

end Lexis
