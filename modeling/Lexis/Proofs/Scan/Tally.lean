import Lexis.Proofs.Scan.Course

/-!
# Tokens and characters

Each token takes at least one character of its line. So the tokens that have been given on some
lines are no more than the characters of these lines that have been passed (`Tally`): no more on
one line than it has characters (`Tally.countP_line_le`), and no more in one call for all tokens
than there are characters, and the end token (`Tally.length_le`).
-/

set_option autoImplicit false

namespace Lexis

namespace IndexedScan

variable {σ : Type} {pull : σ → Pull × σ}

/-- The characters on the wanted ones of some lines, which are numbered from `number` on. -/
def charactersOn (wanted : Nat → Bool) (number : Nat) : List String → Nat
  | [] => 0
  | line :: lines =>
    (if wanted number then line.toList.length else 0) + charactersOn wanted (number + 1) lines

/-- How many tokens stand on wanted lines, the end token left out. -/
def tokensOn (wanted : Nat → Bool) (tokens : List Token) : Nat :=
  tokens.countP fun token => wanted token.line && !token.isEof

theorem charactersOn_concat (wanted : Nat → Bool) (number : Nat) (lines : List String)
    (line : String) :
    charactersOn wanted number (lines ++ [line]) = charactersOn wanted number lines +
      if wanted (number + lines.length) then line.toList.length else 0 := by
  induction lines generalizing number with
  | nil => simp [charactersOn]
  | cons other lines ih =>
    rw [List.cons_append, charactersOn, ih, charactersOn, List.length_cons,
      Nat.add_assoc number 1, Nat.add_comm 1, Nat.add_assoc]

theorem charactersOn_all (number : Nat) (lines : List String) :
    charactersOn (fun _ => true) number lines = (lines.flatMap String.toList).length := by
  induction lines generalizing number with
  | nil => rfl
  | cons line lines ih => rw [charactersOn, ih, List.flatMap_cons, List.length_append, if_pos rfl]

theorem charactersOn_of_lt {wanted number : Nat} (h : wanted < number) (lines : List String) :
    charactersOn (· = wanted) number lines = 0 := by
  induction lines generalizing number with
  | nil => rfl
  | cons line lines ih =>
    have hnot : ¬ decide (number = wanted) = true := by
      rw [decide_eq_true_iff]
      omega
    rw [charactersOn, ih (by omega), if_neg hnot]

/-- A line alone. -/
theorem charactersOn_single {lines : List String} {i : Nat} {line : String}
    (h : lines[i]? = some line) (number : Nat) :
    charactersOn (· = number + i) number lines = line.toList.length := by
  induction lines generalizing number i with
  | nil => cases h
  | cons other lines ih =>
    cases i with
    | zero =>
      obtain rfl := Option.some.inj h
      rw [charactersOn, charactersOn_of_lt (by omega), if_pos (by simp)]
      rfl
    | succ i =>
      have hnot : ¬ decide (number = number + (i + 1)) = true := by
        rw [decide_eq_true_iff]
        omega
      have hrest := ih h (number + 1)
      rw [Nat.add_assoc number 1, Nat.add_comm 1] at hrest
      rw [charactersOn, hrest, if_neg hnot, Nat.zero_add]

/-- The account of the lines that a source has given and of the tokens that calls have given. -/
structure Tally (tokens : List Token) (scan : IndexedScan (Logged σ)) : Prop where
  number : scan.line ≠ none → scan.supply.lines.length = scan.lineNumber
  /-- The line is the last one that was given. -/
  current : ∀ line, scan.line = some line →
    ∃ text, scan.supply.lines.getLast? = some text ∧ text.toList = line
  /-- No character was taken by two tokens, and none that is ahead was taken. -/
  room : ∀ wanted, tokensOn wanted tokens +
    (if wanted scan.lineNumber then scan.charactersAhead else 0) ≤
      charactersOn wanted 1 scan.supply.lines

section
variable {scan : IndexedScan (Logged σ)} {tokens : List Token}

theorem Tally.again {next : IndexedScan (Logged σ)} (h : Tally tokens scan)
    (hturn : IsTurn (Logged.pull pull) scan (.again next)) : Tally tokens next := by
  cases hturn with
  | @line text supply hline hpull =>
    have hlines := Logged.lines_of_line hpull
    have hnumber := h.number hline
    constructor
    · intro _
      simp only [enterLine, hlines, List.length_append, List.length_singleton, hnumber]
    · rintro line ⟨⟩
      refine ⟨text, ?_, rfl⟩
      simp only [enterLine, hlines, List.getLast?_concat]
    · intro wanted
      have hroom := h.room wanted
      have hahead : (scan.enterLine text supply).charactersAhead = text.toList.length :=
        charactersAhead_of_line rfl
      have hmore : charactersOn wanted 1 (scan.enterLine text supply).supply.lines =
          charactersOn wanted 1 scan.supply.lines +
            if wanted (scan.lineNumber + 1) then text.toList.length else 0 := by
        rw [show (scan.enterLine text supply).supply = supply from rfl, hlines,
          charactersOn_concat, hnumber, Nat.add_comm 1]
      have hnext : (scan.enterLine text supply).lineNumber = scan.lineNumber + 1 := rfl
      rw [hahead, hmore, hnext]
      omega
  | @finished supply hline hpull =>
    have hlines := Logged.lines_of_finished hpull
    refine ⟨fun hnot => absurd rfl hnot, nofun, fun wanted => ?_⟩
    have hroom := h.room wanted
    have hahead : (scan.finish supply).charactersAhead = 0 := rfl
    have hsame : (scan.finish supply).supply.lines = scan.supply.lines := hlines
    rw [hahead, hsame, ite_self]
    omega
  | @blank line hline hlt =>
    refine ⟨h.number, h.current, fun wanted => ?_⟩
    have hroom := h.room wanted
    rw [charactersAhead_of_line hline] at hroom
    rw [charactersAhead_at hline]
    cases hwanted : wanted scan.lineNumber <;>
      simp only [hwanted, Bool.false_eq_true, if_true, if_false] at hroom ⊢ <;> omega

theorem tokensOn_append (wanted : Nat → Bool) (tokens others : List Token) :
    tokensOn wanted (tokens ++ others) = tokensOn wanted tokens + tokensOn wanted others :=
  List.countP_append

theorem Tally.done {result : Except IoError Token} {after : IndexedScan (Logged σ)}
    (h : Tally tokens scan) (hturn : IsTurn (Logged.pull pull) scan (.done result after)) :
    Tally (tokens ++ Scan.granted [result]) after := by
  cases hturn with
  | eof hline =>
    refine ⟨h.number, h.current, fun wanted => ?_⟩
    have hnone : tokensOn wanted (Scan.granted [.ok (.eof scan.lineNumber)]) = 0 := by
      simp [tokensOn, Scan.granted, Except.toOption]
    rw [tokensOn_append, hnone]
    exact h.room wanted
  | @failed error supply hline hpull =>
    have hlines := Logged.lines_of_failed hpull
    have hnone : tokens ++ Scan.granted [.error error] = tokens := List.append_nil tokens
    rw [hnone]
    constructor
    · rw [hlines]
      exact h.number
    · rw [hlines]
      exact h.current
    · rw [hlines]
      exact h.room
  | @lexeme line lexeme stop hline hless hstop hnot =>
    constructor
    · rw [line_accept, supply_accept, lineNumber_accept]
      exact h.number
    · rw [line_accept, supply_accept]
      exact h.current
    · intro wanted
      have hroom := h.room wanted
      have hone : tokensOn wanted (Scan.granted [.ok (scan.accept lexeme stop).1]) =
          if wanted scan.lineNumber then 1 else 0 := by
        have hline' : (lexeme.token scan.lineNumber).line = scan.lineNumber := rfl
        rw [token_accept, Scan.granted_ok, tokensOn, show Scan.granted [] = [] from rfl,
          List.countP_singleton, hnot, hline', Bool.not_false, Bool.and_true]
      rw [charactersAhead_of_line hline] at hroom
      rw [tokensOn_append, hone, lineNumber_accept, supply_accept, charactersAhead_accept hline]
      cases hwanted : wanted scan.lineNumber <;>
        simp only [hwanted, Bool.false_eq_true, if_true, if_false] at hroom ⊢ <;> omega

theorem Reaches.tally {first : IndexedScan (Logged σ)} (hfirst : Tally [] first)
    (h : Reaches (Logged.pull pull) first tokens scan) : Tally tokens scan := by
  induction h with
  | refl => exact hfirst
  | again _ hturn ih => exact ih.again (isTurn_of_turn hturn)
  | done _ hturn ih => exact ih.done (isTurn_of_turn hturn)

end

theorem tally_of_start {supply : σ} {events : Array Event} {first : IndexedScan (Logged σ)}
    (h : start? (Logged.pull pull) ⟨supply, []⟩ events = some first) : Tally [] first := by
  rcases start?_cases h with ⟨text, next, hpull, rfl⟩ | ⟨next, hpull, rfl⟩
  · have hlines : next.lines = [text] := Logged.lines_of_line hpull
    refine ⟨fun _ => congrArg List.length hlines, ?_, fun wanted => ?_⟩
    · rintro line ⟨⟩
      exact ⟨text, congrArg List.getLast? hlines, rfl⟩
    · show 0 + (if wanted 1 then text.toList.length else 0) ≤ charactersOn wanted 1 next.lines
      rw [hlines, charactersOn, Nat.zero_add]
      exact Nat.le_refl _
  · refine ⟨fun hnot => absurd rfl hnot, nofun, fun wanted => ?_⟩
    show 0 + (if wanted 1 then 0 else 0) ≤ charactersOn wanted 1 next.lines
    rw [ite_self]
    exact Nat.zero_le _

/-! ## Bounds -/

/-- On one line there are no more tokens than characters. -/
theorem Tally.countP_line_le {tokens : List Token} {scan : IndexedScan (Logged σ)}
    (h : Tally tokens scan) {i : Nat} {line : String} (hline : scan.supply.lines[i]? = some line) :
    tokens.countP (fun token => token.line = i + 1 ∧ token.isEof = false) ≤ line.toList.length := by
  have hroom := h.room (· = 1 + i)
  rw [charactersOn_single hline, tokensOn] at hroom
  have hsame : (fun token : Token => decide (token.line = i + 1 ∧ token.isEof = false)) =
      fun token => decide (token.line = 1 + i) && !token.isEof := by
    funext token
    rw [Bool.decide_and, Nat.add_comm]
    cases token.isEof <;> rfl
  rw [hsame]
  omega

/-- All tokens are no more than all characters and the end token. -/
theorem Tally.length_le {tokens given : List Token} {scan : IndexedScan (Logged σ)}
    (h : Tally (tokens ++ given) scan) {before : List Token} {last : Token}
    (hgiven : given = before ++ [last]) (hbefore : ∀ token ∈ before, token.isEof = false) :
    given.length ≤ (scan.supply.lines.flatMap String.toList).length + 1 := by
  have hroom := h.room fun _ => true
  have hall : tokensOn (fun _ => true) before = before.length := by
    refine List.countP_eq_length.2 fun token htoken => ?_
    rw [hbefore token htoken]
    rfl
  rw [charactersOn_all, hgiven, tokensOn_append, tokensOn_append, hall] at hroom
  rw [hgiven, List.length_append, List.length_singleton]
  omega

end IndexedScan

end Lexis
