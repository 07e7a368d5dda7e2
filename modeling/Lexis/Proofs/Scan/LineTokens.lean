import Lexis.Proofs.Line.Segmentation
import Lexis.Proofs.Scan.Calls
import Mathlib.Data.List.Forall2

/-!
# The tokens of a line

While a line is current, calls for the next token give the tokens of its segmentation, one after
the other, and nothing else (`tokens_of_line`). What the supply does meanwhile, and how many
calls fail once the line is used up, makes no difference.

* `ComesTo`: the next call takes up a line, perhaps behind others that hold nothing.
* `Denotes`: a span of a line and the token that it stands for.
* `HasPassed`: a line is used up, so that no later call gives a token of it
  (`HasPassed.nextToken`).
-/

set_option autoImplicit false

namespace Lexis

/-- The token stands on line `number` and is spelled as `line` has it at the span. -/
def Denotes (line : List Char) (number : Nat) (span : Span) (token : Token) : Prop :=
  Spells token.kind token.lexeme (span.chars line) ∧ token.line = number

/-- The span of a cut stands for the token of the cut and no other. -/
theorem denotes_iff_of_mem_cuts {line : List Char} {cut : Cut} (h : cut ∈ cuts 0 line)
    (number : Nat) (token : Token) :
    Denotes line number cut.span token ↔ token = cut.lexeme.token number := by
  have hmem : cut ∈ cuts 0 (line.drop 0) := by rwa [List.drop_zero]
  have hchars := chars_span_of_mem_cuts hmem
  have hspells := spells_of_mem_cuts h
  unfold Denotes
  rw [hchars]
  constructor
  · intro h
    obtain ⟨htoken, rfl⟩ := h
    obtain ⟨hkind, hlexeme⟩ := htoken.unique hspells
    cases token
    simp only at hkind hlexeme
    rw [hkind, hlexeme]
    rfl
  · rintro rfl
    exact ⟨hspells, rfl⟩

theorem forall₂_denotes_iff {line : List Char} {number : Nat} {part : List Cut}
    (h : ∀ cut ∈ part, cut ∈ cuts 0 line) (tokens : List Token) :
    List.Forall₂ (Denotes line number) (part.map Cut.span) tokens ↔
      tokens = part.map fun cut => cut.lexeme.token number := by
  induction part generalizing tokens with
  | nil => rw [List.map_nil, List.forall₂_nil_left_iff, List.map_nil]
  | cons cut part ih =>
    obtain ⟨hcut, hpart⟩ := List.forall_mem_cons.1 h
    rw [List.map_cons, List.forall₂_cons_left_iff, List.map_cons]
    constructor
    · intro h
      obtain ⟨token, others, htoken, hothers, rfl⟩ := h
      rw [(denotes_iff_of_mem_cuts hcut number token).1 htoken, (ih hpart others).1 hothers]
    · rintro rfl
      exact ⟨_, _, (denotes_iff_of_mem_cuts hcut number _).2 rfl, (ih hpart _).2 rfl, rfl⟩

namespace Scan

variable {σ : Type} [LineSupply σ]

/-- The next call begins at the start of `line`, its line `number`, or comes to it by pulling. -/
inductive ComesTo : Scan σ → String → Nat → Prop
  | here {scan : Scan σ} {line : String} (h : scan.cursor = some (.ofLine line)) :
    ComesTo scan line scan.lineNumber
  | next {scan : Scan σ} {cursor : Cursor} {text line : String} {supply : σ} {number : Nat}
      (hcursor : scan.cursor = some cursor) (hnone : cursor.skipBlanks.lexeme? = none)
      (hpull : LineSupply.pull scan.supply = (.line text, supply))
      (h : ComesTo (scan.enterLine text supply) line number) :
    ComesTo scan line number

/-- The tokens of line `number` among what some calls give. -/
def onLine (number : Nat) (replies : List (Except IoError Token)) : List Token :=
  (granted replies).filter (·.line = number)

/-! ## A line that is used up -/

/-- Nothing is left on line `number`, or a later line is current. -/
def HasPassed (scan : Scan σ) (number : Nat) : Prop :=
  number < scan.lineNumber ∨
    scan.lineNumber = number ∧
      ∃ cursor, scan.cursor = some cursor ∧ cursor.skipBlanks.lexeme? = none

theorem hasPassed_of_le {scan : Scan σ} {number : Nat} (h : number < scan.lineNumber) :
    HasPassed scan.nextToken.2 number ∧
      ∀ token, scan.nextToken.1 = .ok token → token.line ≠ number := by
  obtain ⟨hle, htoken⟩ := scan.lineNumber_nextToken
  refine ⟨.inl (by omega), fun token hok => ?_⟩
  have := htoken token hok
  omega

/-- A line that is used up stays so, and gives no token. -/
theorem HasPassed.nextToken {scan : Scan σ} {number : Nat} (h : scan.HasPassed number) :
    scan.nextToken.2.HasPassed number ∧
      ∀ token, scan.nextToken.1 = .ok token → token.line ≠ number := by
  rcases h with h | ⟨rfl, cursor, hcursor, hnone⟩
  · exact hasPassed_of_le h
  · rcases hpull : LineSupply.pull scan.supply with ⟨answer, supply⟩
    cases answer with
    | line text =>
      rw [nextToken_of_line hcursor hnone hpull]
      exact hasPassed_of_le (by simp only [enterLine]; omega)
    | finished =>
      rw [nextToken_of_finished hcursor hnone hpull]
      refine ⟨.inl (by simp only [finish]; omega), fun token hok => ?_⟩
      obtain rfl := Except.ok.inj hok
      simp only [Token.eof]
      omega
    | failed error =>
      rw [nextToken_of_failed hcursor hnone hpull]
      refine ⟨.inr ⟨rfl, _, rfl, by rw [Cursor.skipBlanks_idem, hnone]⟩, fun token hok => ?_⟩
      cases hok

theorem HasPassed.onLine {scan : Scan σ} {number : Nat} (h : scan.HasPassed number) (n : Nat) :
    Scan.onLine number (scan.calls n).1 = [] := by
  induction n generalizing scan with
  | zero => rfl
  | succ n ih =>
    obtain ⟨hpassed, htoken⟩ := h.nextToken
    have hothers := ih hpassed
    simp only [calls]
    cases hreply : scan.nextToken.1 with
    | error error => exact hothers
    | ok token =>
      rw [Scan.onLine, granted_ok, List.filter_cons_of_neg (by simpa using htoken token hreply)]
      exact hothers

/-! ## A line with tokens ahead -/

/-- The calls on a line give the tokens of its cuts. -/
theorem onLine_calls {scan : Scan σ} {cursor : Cursor} (hcursor : scan.cursor = some cursor)
    (n : Nat) :
    onLine scan.lineNumber (scan.calls n).1 =
      (cursor.cuts.map fun cut => cut.lexeme.token scan.lineNumber).take n := by
  induction n generalizing scan cursor with
  | zero => rfl
  | succ n ih =>
    cases hcuts : cursor.cuts with
    | nil =>
      have hpassed : scan.HasPassed scan.lineNumber :=
        .inr ⟨rfl, cursor, hcursor, Cursor.lexeme?_eq_none_of_cuts hcuts⟩
      rw [hpassed.onLine, List.map_nil, List.take_nil]
    | cons cut more =>
      obtain ⟨after, _, rfl, _, _, hnext⟩ := nextToken_of_cuts hcursor hcuts
      have hothers := ih (cursor_accept scan cut.lexeme after)
      rw [lineNumber_accept] at hothers
      simp only [calls, hnext]
      rw [onLine, granted_ok, List.filter_cons_of_pos (by simp [Lexeme.token]), List.map_cons,
        List.take_succ_cons]
      exact congrArg _ hothers

/-- Behind a token of a line the line is still current, and the cursor stands behind the cut. -/
theorem calls_of_getElem?_cuts {scan : Scan σ} {cursor : Cursor} {i : Nat} {cut : Cut}
    (hcursor : scan.cursor = some cursor) (hcut : cursor.cuts[i]? = some cut) :
    (scan.calls (i + 1)).2.lineNumber = scan.lineNumber ∧
      ∃ after, (scan.calls (i + 1)).2.cursor = some after ∧ after.text = cursor.text ∧
        after.column = cut.stop := by
  induction i generalizing scan cursor with
  | zero =>
    cases hcuts : cursor.cuts with
    | nil =>
      rw [hcuts] at hcut
      cases hcut
    | cons head more =>
      rw [hcuts, List.getElem?_cons_zero] at hcut
      obtain rfl := Option.some.inj hcut
      obtain ⟨after, _, _, hstop, htext, hnext⟩ := nextToken_of_cuts hcursor hcuts
      simp only [calls, hnext]
      exact ⟨lineNumber_accept .., after, cursor_accept .., htext, hstop⟩
  | succ i ih =>
    cases hcuts : cursor.cuts with
    | nil =>
      rw [hcuts] at hcut
      cases hcut
    | cons head more =>
      rw [hcuts, List.getElem?_cons_succ] at hcut
      obtain ⟨after, _, rfl, _, htext, hnext⟩ := nextToken_of_cuts hcursor hcuts
      obtain ⟨hnumber, last, hlast, htext', hstop⟩ :=
        ih (cursor_accept scan head.lexeme after) hcut
      have hcalls : (scan.calls (i + 1 + 1)).2 =
          ((scan.accept head.lexeme after).2.calls (i + 1)).2 := by
        rw [calls, hnext]
      rw [hcalls, hnumber, lineNumber_accept]
      exact ⟨rfl, last, hlast, htext'.trans htext, hstop⟩

/-! ## The tokens of a line -/

/-- The calls from where a line is taken up are the calls from the start of the line. -/
theorem ComesTo.start {scan : Scan σ} {line : String} {number : Nat} (h : scan.ComesTo line number) :
    ∃ entered : Scan σ, entered.cursor = some (.ofLine line) ∧ entered.lineNumber = number ∧
      ∀ n, (scan.calls n).1 = (entered.calls n).1 ∧
        (scan.calls (n + 1)).2 = (entered.calls (n + 1)).2 := by
  induction h with
  | @here scan line h => exact ⟨scan, h, rfl, fun n => ⟨rfl, rfl⟩⟩
  | @next scan cursor text line supply number hcursor hnone hpull _ ih =>
    obtain ⟨entered, hentered, hnumber, hcalls⟩ := ih
    refine ⟨entered, hentered, hnumber, fun n => ?_⟩
    have hsame : ∀ n, scan.calls (n + 1) = (scan.enterLine text supply).calls (n + 1) := by
      intro n
      simp only [calls, nextToken_of_line hcursor hnone hpull]
    refine ⟨?_, (congrArg Prod.snd (hsame n)).trans (hcalls n).2⟩
    cases n with
    | zero => rfl
    | succ n => exact (congrArg Prod.fst (hsame n)).trans (hcalls (n + 1)).1

/-- A line has one segmentation, its spans stand for one list of tokens, and these are what calls
give while the line is current. The cursor is behind the span of the token given last. -/
theorem tokens_of_line {scan : Scan σ} {line : String} {number : Nat}
    (h : scan.ComesTo line number) :
    ∃ (spans : List Span) (tokens : List Token),
      (∀ other, Segments line.toList 0 other ↔ other = spans) ∧
      (∀ other, List.Forall₂ (Denotes line.toList number) spans other ↔ other = tokens) ∧
      (∀ n, onLine number (scan.calls n).1 = tokens.take n) ∧
      ∀ i span, spans[i]? = some span →
        (scan.calls (i + 1)).2.lineNumber = number ∧
          ∃ after, (scan.calls (i + 1)).2.cursor = some after ∧ after.text = line.toList ∧
            after.column = span.stop := by
  obtain ⟨entered, hcursor, rfl, hcalls⟩ := h.start
  refine ⟨(cuts 0 line.toList).map Cut.span,
    (cuts 0 line.toList).map fun cut => cut.lexeme.token entered.lineNumber, ?_, ?_, ?_, ?_⟩
  · intro other
    exact segments_iff_eq_cuts line.toList (Nat.zero_le _) other
  · exact forall₂_denotes_iff fun cut hcut => hcut
  · intro n
    rw [(hcalls n).1]
    exact onLine_calls hcursor n
  · intro i span hspan
    rw [List.getElem?_map, Option.map_eq_some_iff] at hspan
    obtain ⟨cut, hcut, rfl⟩ := hspan
    rw [(hcalls i).2]
    obtain ⟨hnumber, after, hafter, htext, hstop⟩ :=
      calls_of_getElem?_cuts hcursor hcut
    exact ⟨hnumber, after, hafter, htext.trans (Cursor.text_ofLine line), hstop⟩

/-- A line behind a blank one, with a sign that is unknown and a string that is not closed. -/
def beforeSecondLine : Scan Answers :=
  onFirstLine ⟨[.line "x1:= !\""]⟩ (some " ") #[]

theorem tokens_of_second_line :
    beforeSecondLine.ComesTo "x1:= !\"" 2 ∧
      ∃ (spans : List Span) (tokens : List Token),
        Segments "x1:= !\"".toList 0 spans ∧
        List.Forall₂ (Denotes "x1:= !\"".toList 2) spans tokens ∧
        ∀ n, onLine 2 (beforeSecondLine.calls n).1 = tokens.take n := by
  have hcomes : beforeSecondLine.ComesTo "x1:= !\"" 2 :=
    .next rfl (by decide) rfl (.here rfl)
  obtain ⟨spans, tokens, hspans, htokens, hcalls, _⟩ := tokens_of_line hcomes
  exact ⟨hcomes, spans, tokens, (hspans spans).2 rfl, (htokens tokens).2 rfl, hcalls⟩

end Scan

end Lexis
