import Lexis.Proofs.Printing.Spaced
import Lexis.Proofs.Scan.TextRun

/-!
# Printing and scanning

The tokens of every text are well-formed, and every well-formed list is the list of tokens of the
text that `render` makes of it (`scanning_inverts_render`). Both directions go line by line: a
line gives a listing (`isListing_lineTokens`), and listings of lines that follow each other go
together (`IsListing.append`); a listing falls into the tokens of its first line and a listing of
the later ones (`IsListing.eq_append`, `IsListing.later`).
-/

set_option autoImplicit false

namespace Lexis

/-! ## From a text to its tokens -/

/-- A cut has no characters but those of its line. -/
theorem mem_of_mem_source {start : Nat} {ahead : List Char} {cut : Cut} {c : Char}
    (h : cut ∈ cuts start ahead) (hc : c ∈ cut.source) : c ∈ ahead := by
  induction ahead using line_induction generalizing start with
  | idle blanks rest hblanks hidle =>
    rw [cuts_of_idle start hblanks hidle] at h
    cases h
  | lexeme blanks first rest hblanks hfirst hcomment ih =>
    have hsplit := cutBody_append first rest
    rw [cuts_of_lexeme start hblanks hfirst hcomment] at h
    rw [← hsplit, ← List.cons_append]
    refine List.mem_append_right _ ?_
    rcases List.mem_cons.1 h with rfl | h
    · exact List.mem_append_left _ hc
    · exact List.mem_append_right _ (ih h)

theorem IsListing.nil (first : Nat) : IsListing first [] first :=
  ⟨by simp, .nil, by simp, by simp, .nil⟩

/-- The tokens of earlier lines and the tokens of later lines. -/
theorem IsListing.append {first middle last : Nat} {a b : List Token} (hfirst : first ≤ middle)
    (hlast : middle ≤ last) (ha : IsListing first a middle) (hb : IsListing middle b last) :
    IsListing first (a ++ b) last := by
  have hless : ∀ s ∈ a, ∀ t ∈ b, s.line < t.line := by
    intro s hs t ht
    have h1 := (ha.bounds s hs).2
    have h2 := (hb.bounds t ht).1
    omega
  refine ⟨fun token htoken => ?_, ?_, fun token htoken => ?_, fun token htoken => ?_, ?_⟩
  · rcases List.mem_append.1 htoken with htoken | htoken
    · have := ha.bounds token htoken
      exact ⟨this.1, by omega⟩
    · have := hb.bounds token htoken
      exact ⟨by omega, this.2⟩
  · exact List.pairwise_append.2
      ⟨ha.ordered, hb.ordered, fun s hs t ht => Nat.le_of_lt (hless s hs t ht)⟩
  · exact (List.mem_append.1 htoken).elim (ha.spelled token) (hb.spelled token)
  · exact (List.mem_append.1 htoken).elim (ha.onOneLine token) (hb.onOneLine token)
  · exact List.pairwise_append.2
      ⟨ha.openLast, hb.openLast, fun s hs t ht _ => hless s hs t ht⟩

theorem isListing_lineTokens {line : List Char} (hline : '\n' ∉ line) (number : Nat) :
    IsListing number (lineTokens number line) (number + 1) := by
  have hcut : ∀ token ∈ lineTokens number line,
      ∃ cut ∈ cuts 0 line, cut.lexeme.token number = token := fun _ => List.mem_map.1
  have hwritten : ∀ cut ∈ cuts 0 line, (cut.lexeme.token number).written = cut.source :=
    fun _ hmem => (spells_of_mem_cuts hmem).written number
  refine ⟨fun token htoken => ?_, ?_, fun token htoken => ?_, fun token htoken => ?_, ?_⟩
  · obtain ⟨cut, _, rfl⟩ := hcut token htoken
    exact ⟨Nat.le_refl number, Nat.lt_succ_self number⟩
  · exact List.pairwise_map.2 (List.pairwise_of_forall fun _ _ => Nat.le_refl number)
  · obtain ⟨cut, hmem, rfl⟩ := hcut token htoken
    rw [hwritten cut hmem]
    exact spells_of_mem_cuts hmem
  · obtain ⟨cut, hmem, rfl⟩ := hcut token htoken
    rw [hwritten cut hmem]
    exact fun hnewline => hline (mem_of_mem_source hmem hnewline)
  · refine List.pairwise_map.2 ((openLast_cuts 0 number line).imp ?_)
    intro a b hclosed hopen
    exact absurd hopen hclosed

/-- The tokens of lines are a listing with the end token behind it. -/
theorem isListing_tokensFrom {lines : List String} (first : Nat)
    (h : ∀ line ∈ lines, '\n' ∉ line.toList) :
    ∃ body, tokensFrom first lines = body ++ [.eof (first + lines.length)] ∧
      IsListing first body (first + lines.length) := by
  induction lines generalizing first with
  | nil => exact ⟨[], rfl, .nil first⟩
  | cons line lines ih =>
    obtain ⟨hline, hlines⟩ := List.forall_mem_cons.1 h
    obtain ⟨body, htokens, hlisting⟩ := ih (first + 1) hlines
    have hlast : first + 1 + lines.length = first + (line :: lines).length := by
      rw [List.length_cons]
      omega
    rw [hlast] at htokens hlisting
    refine ⟨lineTokens first line.toList ++ body, ?_, ?_⟩
    · rw [tokensFrom, htokens, List.append_assoc]
    · exact .append (by omega) (by omega) (isListing_lineTokens hline first) hlisting

theorem wellFormed_tokensFrom {lines : List String} (h : ∀ line ∈ lines, '\n' ∉ line.toList) :
    WellFormed (tokensFrom 1 lines) := by
  obtain ⟨body, htokens, hlisting⟩ := isListing_tokensFrom 1 h
  exact ⟨body, 1 + lines.length, by omega, htokens, hlisting⟩

/-! ## From the tokens to a text -/

theorem newline_not_mem_spaced {tokens : List Token} (h : ∀ token ∈ tokens, '\n' ∉ token.written) :
    '\n' ∉ spaced tokens := by
  induction tokens with
  | nil => simp
  | cons token more ih =>
    obtain ⟨htoken, hmore⟩ := List.forall_mem_cons.1 h
    cases more with
    | nil => simpa using htoken
    | cons second others =>
      rw [spaced_cons_cons, List.mem_append, List.mem_cons]
      intro hnewline
      rcases hnewline with hmem | hmem | hmem
      · exact htoken hmem
      · exact absurd hmem (by decide)
      · exact ih hmore hmem

section
variable {first last : Nat} {body : List Token}

/-- The tokens of the first line come first. -/
theorem IsListing.eq_append (h : IsListing first body last) :
    body = onLineNumber body first ++ body.filter (first < ·.line) := by
  have hordered := h.ordered
  have hfirst : ∀ token ∈ body, first ≤ token.line := fun token htoken => (h.bounds token htoken).1
  clear h
  induction body with
  | nil => rfl
  | cons token more ih =>
    obtain ⟨hle, hordered⟩ := List.pairwise_cons.1 hordered
    obtain ⟨htoken, hmore⟩ := List.forall_mem_cons.1 hfirst
    by_cases heq : token.line = first
    · have hnot : ¬ first < token.line := by omega
      have hrest := ih hordered hmore
      rw [onLineNumber, List.filter_cons_of_pos (by simpa using heq),
        List.filter_cons_of_neg (by simpa using hnot), List.cons_append]
      exact congrArg _ hrest
    · -- no later token stands on the first line either
      have hlater : ∀ other ∈ token :: more, first < other.line := by
        refine List.forall_mem_cons.2 ⟨by omega, fun other hother => ?_⟩
        have := hle other hother
        omega
      have hnone : onLineNumber (token :: more) first = [] := by
        refine List.filter_eq_nil_iff.2 fun other hother => ?_
        have := hlater other hother
        simp only [decide_eq_true_eq]
        omega
      rw [hnone, List.nil_append]
      exact (List.filter_eq_self.2 fun other hother => by simpa using hlater other hother).symm

/-- The tokens behind the first line are a listing of the later lines. -/
theorem IsListing.later (h : IsListing first body last) :
    IsListing (first + 1) (body.filter (first < ·.line)) last := by
  have hmem : ∀ token ∈ body.filter (first < ·.line), token ∈ body ∧ first < token.line := by
    intro token htoken
    simpa using htoken
  refine ⟨fun token htoken => ?_, h.ordered.filter _, fun token htoken => ?_,
    fun token htoken => ?_, h.openLast.filter _⟩
  · obtain ⟨hbody, hlater⟩ := hmem token htoken
    exact ⟨hlater, (h.bounds token hbody).2⟩
  · exact h.spelled token (hmem token htoken).1
  · exact h.onOneLine token (hmem token htoken).1

theorem onLineNumber_later {number : Nat} (h : first < number) :
    onLineNumber (body.filter (first < ·.line)) number = onLineNumber body number := by
  rw [onLineNumber, onLineNumber, List.filter_filter]
  refine List.filter_congr fun token _ => ?_
  by_cases heq : token.line = number
  · simp [heq, h]
  · simp [heq]

/-- A line that is written out gives its tokens back. -/
theorem IsListing.lineTokens_spaced (h : IsListing first body last) (number : Nat) :
    lineTokens number (spaced (onLineNumber body number)) = onLineNumber body number := by
  have hmem : ∀ token ∈ onLineNumber body number, token ∈ body ∧ token.line = number := by
    intro token htoken
    simpa [onLineNumber] using htoken
  refine tokens_spaced (fun token htoken => ?_) (fun token htoken => ?_) ?_ .nil 0
  · exact h.spelled token (hmem token htoken).1
  · exact (hmem token htoken).2
  · refine (h.openLast.filter _).imp_of_mem fun ha hb hlast hopen => ?_
    have := hlast hopen
    rw [(hmem _ ha).2, (hmem _ hb).2] at this
    exact Nat.lt_irrefl _ this

end

/-- The lines of a listing, written out and read again. -/
theorem IsListing.tokensFrom_spaced {first count : Nat} {body : List Token}
    (h : IsListing first body (first + count)) :
    tokensFrom first ((List.range' first count).map fun number =>
      String.ofList (spaced (onLineNumber body number))) = body ++ [.eof (first + count)] := by
  induction count generalizing first body with
  | zero =>
    have hnil : body = [] := by
      refine List.eq_nil_iff_forall_not_mem.2 fun token htoken => ?_
      have := h.bounds token htoken
      omega
    rw [hnil]
    rfl
  | succ count ih =>
    have hlast : first + (count + 1) = first + 1 + count := by omega
    have hlater := h.later
    rw [hlast] at hlater
    have hsame : ((List.range' (first + 1) count).map fun number =>
        String.ofList (spaced (onLineNumber (body.filter (first < ·.line)) number))) =
        (List.range' (first + 1) count).map fun number =>
          String.ofList (spaced (onLineNumber body number)) := by
      refine List.map_congr_left fun number hnumber => ?_
      have := (List.mem_range'_1.1 hnumber).1
      rw [onLineNumber_later (by omega)]
    rw [List.range'_succ, List.map_cons, tokensFrom, String.toList_ofList, h.lineTokens_spaced,
      ← hsame, ih hlater, ← List.append_assoc, ← h.eq_append, hlast]

/-- What is written out for a well-formed list has its tokens. -/
theorem WellFormed.textLines_render {tokens : List Token} (h : WellFormed tokens) :
    tokensFrom 1 (textLines (render tokens)) = tokens := by
  obtain ⟨body, last, hlast, rfl, hlisting⟩ := h
  have hsame : ((List.range' 1 (last - 1)).map fun number =>
      spaced (onLineNumber (body ++ [.eof last]) number)) =
      (List.range' 1 (last - 1)).map fun number => spaced (onLineNumber body number) := by
    refine List.map_congr_left fun number hnumber => ?_
    have := (List.mem_range'_1.1 hnumber).2
    have hend : last ≠ number := by omega
    simp [onLineNumber, Token.eof, hend]
  have hlines : ∀ line ∈ (List.range' 1 (last - 1)).map fun number =>
      spaced (onLineNumber body number), '\n' ∉ line := by
    intro line hline
    obtain ⟨number, _, rfl⟩ := List.mem_map.1 hline
    exact newline_not_mem_spaced fun token htoken =>
      hlisting.onOneLine token (List.mem_filter.1 htoken).1
  obtain ⟨count, rfl⟩ : ∃ count, last = 1 + count := ⟨last - 1, by omega⟩
  rw [render, lastLine_concat, show (Token.eof (1 + count)).line = 1 + count from rfl, hsame,
    textLines_terminated hlines, List.map_map, Nat.add_sub_cancel_left]
  exact hlisting.tokensFrom_spaced

/-- Scanning gives back every well-formed list that is written out, and gives nothing but
well-formed lists. -/
theorem scanning_inverts_render :
    (∀ tokens, WellFormed tokens → (Scan.ofText (render tokens)).allTokens.1 = .ok tokens) ∧
      (∀ text, ∃ tokens, (Scan.ofText text).allTokens.1 = .ok tokens ∧ WellFormed tokens) ∧
      ∀ tokens, WellFormed tokens ↔ ∃ text, (Scan.ofText text).allTokens.1 = .ok tokens := by
  have hrender : ∀ tokens, WellFormed tokens →
      (Scan.ofText (render tokens)).allTokens.1 = .ok tokens := by
    intro tokens h
    rw [Scan.allTokens_ofText, h.textLines_render]
  have himage : ∀ text, WellFormed (tokensFrom 1 (textLines text)) :=
    fun text => wellFormed_tokensFrom fun line => newline_not_mem_textLines
  refine ⟨hrender, fun text => ⟨_, Scan.allTokens_ofText text, himage text⟩, fun tokens => ?_⟩
  constructor
  · intro h
    exact ⟨_, hrender tokens h⟩
  · intro h
    obtain ⟨text, htext⟩ := h
    rw [Scan.allTokens_ofText] at htext
    exact Except.ok.inj htext ▸ himage text

/-- A string that is not closed and ends in a carriage return; on the next line a sign that begins
no token and a number; and a line without tokens. -/
def openTokens : List Token :=
  [⟨.error, "\"a\r", 1⟩, ⟨.error, "=", 2⟩, ⟨.literal .real, "1.", 2⟩, .eof 4]

theorem scanning_inverts_render_open :
    WellFormed openTokens ∧ (Scan.ofText (render openTokens)).allTokens.1 = .ok openTokens := by
  have hopen : Spells .error "\"a\r" ['"', 'a', '\r'] := by
    have hinner : '"' ∉ ['a', '\r'] := by decide
    exact Spells.unterminated hinner
  have hstray : Spells .error "=" ['='] := by
    have hsign : IsStray '=' := by
      refine ⟨?_, ?_, ?_, ?_, ?_, lookup_eq_none_iff_not_mem.1 ?_⟩ <;> decide
    exact Spells.stray hsign
  have hreal : Spells (.literal .real) "1." ['1', '.'] := by
    have hdigits : ∀ c ∈ ['1'], c.isDigit = true := List.forall_mem_singleton.2 (by decide)
    exact Spells.real hdigits (List.forall_mem_nil _)
  have hwell : WellFormed openTokens := by
    refine ⟨[⟨.error, "\"a\r", 1⟩, ⟨.error, "=", 2⟩, ⟨.literal .real, "1.", 2⟩], 4, by decide, rfl,
      by decide, by decide, ?_, by decide, by decide⟩
    simp only [List.forall_mem_cons, List.not_mem_nil, false_implies, implies_true, and_true]
    refine ⟨?_, ?_, ?_⟩
    · rw [hopen.written]
      exact hopen
    · rw [hstray.written]
      exact hstray
    · rw [hreal.written]
      exact hreal
  exact ⟨hwell, scanning_inverts_render.1 openTokens hwell⟩

end Lexis
