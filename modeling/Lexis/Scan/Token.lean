import Lexis.Scan.Basic

/-!
# The tokens of a scan

`nextToken` gives one token, pulling lines while there is no lexeme on the current one; blanks and
comments are passed over. At the end of the input it gives the end token, again and again, without
a further pull. A failing pull ends the call, and the next call takes up the work where it was
left. `run` gives all tokens up to the end or the first failure.

Every token but the end token takes something off what is left (`left_nextToken`), so a run ends.
-/

set_option autoImplicit false

namespace Lexis

namespace Scan

variable {σ : Type} [LineSupply σ]

def nextToken (scan : Scan σ) : Except IoError Token × Scan σ :=
  match scan.cursor with
  | none => (.ok (.eof scan.lineNumber), scan)
  | some cursor =>
    match cursor.skipBlanks.lexeme? with
    | some (lexeme, after) =>
      let accepted := scan.accept lexeme after
      (.ok accepted.1, accepted.2)
    | none =>
      match _h : LineSupply.pull scan.supply with
      | (.line text, supply) => (scan.enterLine text supply).nextToken
      | (.finished, supply) => (.ok (.eof (scan.lineNumber + 1)), scan.finish supply)
      | (.failed error, supply) => (.error error, scan.interrupt cursor.skipBlanks supply)
termination_by LineSupply.remaining scan.supply
decreasing_by
  have := LineSupply.remaining_lt _h
  dsimp only [enterLine]
  omega

theorem nextToken_of_exhausted {scan : Scan σ} (h : scan.cursor = none) :
    scan.nextToken = (.ok (.eof scan.lineNumber), scan) := by
  rw [nextToken, h]

theorem nextToken_of_lexeme {scan : Scan σ} {cursor after : Cursor} {lexeme : Lexeme}
    (hcursor : scan.cursor = some cursor)
    (hlexeme : cursor.skipBlanks.lexeme? = some (lexeme, after)) :
    scan.nextToken = (.ok (scan.accept lexeme after).1, (scan.accept lexeme after).2) := by
  rw [nextToken, hcursor]
  simp only [hlexeme]

/-- At the end of a line the next one decides. -/
theorem nextToken_of_line {scan : Scan σ} {cursor : Cursor} {text : String} {supply : σ}
    (hcursor : scan.cursor = some cursor) (hnone : cursor.skipBlanks.lexeme? = none)
    (hpull : LineSupply.pull scan.supply = (.line text, supply)) :
    scan.nextToken = (scan.enterLine text supply).nextToken := by
  rw [nextToken, hcursor]
  simp only [hnone]
  split <;> simp_all

theorem nextToken_of_finished {scan : Scan σ} {cursor : Cursor} {supply : σ}
    (hcursor : scan.cursor = some cursor) (hnone : cursor.skipBlanks.lexeme? = none)
    (hpull : LineSupply.pull scan.supply = (.finished, supply)) :
    scan.nextToken = (.ok (.eof (scan.lineNumber + 1)), scan.finish supply) := by
  rw [nextToken, hcursor]
  simp only [hnone]
  split <;> simp_all

theorem nextToken_of_failed {scan : Scan σ} {cursor : Cursor} {error : IoError} {supply : σ}
    (hcursor : scan.cursor = some cursor) (hnone : cursor.skipBlanks.lexeme? = none)
    (hpull : LineSupply.pull scan.supply = (.failed error, supply)) :
    scan.nextToken = (.error error, scan.interrupt cursor.skipBlanks supply) := by
  rw [nextToken, hcursor]
  simp only [hnone]
  split <;> simp_all

/-- A bound for what is left: the supply and the rest of the current line. -/
def left (scan : Scan σ) : Nat :=
  match scan.cursor with
  | some cursor => LineSupply.remaining scan.supply + cursor.ahead.length
  | none => LineSupply.remaining scan.supply

/-- Every token but the end token takes something off what is left. -/
theorem left_nextToken {scan after : Scan σ} {token : Token}
    (h : scan.nextToken = (.ok token, after)) (hnot : token.isEof = false) :
    after.left < scan.left := by
  fun_induction nextToken scan with
  | case1 scan hcursor =>
    simp only [Prod.mk.injEq, Except.ok.injEq] at h
    simp [← h.1] at hnot
  | case2 scan cursor hcursor lexeme next hlexeme accepted =>
    simp only [Prod.mk.injEq] at h
    obtain ⟨_, rfl⟩ := h
    have shorter := Cursor.length_ahead_lexeme? hlexeme
    have := cursor.length_ahead_skipBlanks
    simp only [left, accepted, cursor_accept, supply_accept, hcursor]
    omega
  | case3 scan cursor hcursor hnone text supply hpull ih =>
    have fewer := LineSupply.remaining_lt hpull
    have less := ih h
    simp only [left, enterLine, Cursor.ofLine, hcursor] at less ⊢
    omega
  | case4 scan cursor hcursor hnone supply hpull =>
    simp only [Prod.mk.injEq, Except.ok.injEq] at h
    simp [← h.1] at hnot
  | case5 => simp at h

/-- What a run has read, why it stopped short if it did, and the scan after it. -/
structure Run (σ : Type) where
  tokens : List Token
  failure : Option IoError
  scan : Scan σ

/-- Continues a run that has read some tokens, the last one first. -/
def runFrom (read : List Token) (scan : Scan σ) : Run σ :=
  match _h : scan.nextToken with
  | (.error error, scan) => ⟨read.reverse, some error, scan⟩
  | (.ok token, scan) =>
    if _hend : token.isEof = true then ⟨(token :: read).reverse, none, scan⟩
    else scan.runFrom (token :: read)
termination_by scan.left
decreasing_by exact left_nextToken _h (by simpa using _hend)

theorem runFrom_of_error {scan after : Scan σ} {error : IoError} (read : List Token)
    (h : scan.nextToken = (.error error, after)) :
    scan.runFrom read = ⟨read.reverse, some error, after⟩ := by
  rw [runFrom]
  split <;> simp_all

theorem runFrom_of_eof {scan after : Scan σ} {token : Token} (read : List Token)
    (h : scan.nextToken = (.ok token, after)) (hend : token.isEof = true) :
    scan.runFrom read = ⟨(token :: read).reverse, none, after⟩ := by
  rw [runFrom]
  split <;> simp_all

theorem runFrom_of_token {scan after : Scan σ} {token : Token} (read : List Token)
    (h : scan.nextToken = (.ok token, after)) (hnot : token.isEof = false) :
    scan.runFrom read = after.runFrom (token :: read) := by
  rw [runFrom]
  split <;> simp_all

/-- All tokens up to the end token or the first failure. -/
def run (scan : Scan σ) : Run σ :=
  scan.runFrom []

/-- All tokens with the end token. A failure loses the tokens before it. -/
def allTokens (scan : Scan σ) : Except IoError (List Token) × Scan σ :=
  let run := scan.run
  match run.failure with
  | none => (.ok run.tokens, run.scan)
  | some error => (.error error, run.scan)

end Scan

end Lexis
