import Lexis.Proofs.Line.Quotes

/-!
# A line put together from two parts

When a part of a line is read up to its end, without a comment and without an open string, the
line goes on behind it as if it began there, unless the last token goes on itself
(`lineTokens_append_iff`). A lexeme looks only at the character behind it, so this is a condition on
one token and one character (`Joins`). Between two lexemes any number of blanks can be put in
(`lexemes_insert_blanks`).
-/

set_option autoImplicit false

namespace Lexis

/-- The part is read up to its end, and no string is left open in it. -/
structure IsComplete (part : List Char) : Prop where
  noComment : (Cursor.passAll ⟨[], part⟩).ahead = []
  closed : ∀ token ∈ lineTokens 1 part, ¬ token.IsOpen

/-- A token ends with the part, and goes on with the first character of the rest. -/
def Joins (part rest : List Char) : Prop :=
  ∃ cut ∈ cuts 0 part, cut.stop = part.length ∧
    ∃ c, rest.head? = some c ∧ (cut.lexeme.token 1).GoesOn c

/-! ## Complete parts -/

section
variable {blanks body after inner : List Char} {first : Char}

theorem passAll_ahead_eq_nil_iff (part : List Char) :
    (Cursor.passAll ⟨[], part⟩).ahead = [] ↔ commentStart part = part.length := by
  have hle := commentStart_le_length part
  rw [Cursor.passAll_eq, List.drop_eq_nil_iff]
  dsimp only
  omega

theorem commentStart_of_complete {part : List Char} (h : IsComplete part) :
    commentStart part = part.length :=
  (passAll_ahead_eq_nil_iff part).1 h.noComment

/-- A part is complete when its quotes come in pairs and no comment opens in it. -/
theorem isComplete_iff (part : List Char) :
    IsComplete part ↔ commentStart part = part.length ∧ part.count '"' % 2 = 0 := by
  have hopen := exists_isOpen_iff part 1
  constructor
  · intro h
    have hlength := commentStart_of_complete h
    rw [beforeComment, hlength, List.take_length] at hopen
    have hodd : ¬ part.count '"' % 2 = 1 := fun hodd => by
      obtain ⟨token, htoken, htrue⟩ := hopen.2 hodd
      exact h.closed token htoken htrue
    exact ⟨hlength, by omega⟩
  · intro h
    obtain ⟨hlength, heven⟩ := h
    rw [beforeComment, hlength, List.take_length] at hopen
    refine ⟨(passAll_ahead_eq_nil_iff part).2 hlength, fun token htoken htrue => ?_⟩
    have hodd := hopen.1 ⟨token, htoken, htrue⟩
    omega

instance (part : List Char) : Decidable (IsComplete part) :=
  decidable_of_iff _ (isComplete_iff part).symm

/-- A comment sign in a string is no comment. -/
example : IsComplete "s := \"a#b\"".toList ∧ ¬ IsComplete "s # \"".toList := by decide

theorem IsComplete.eq_nil_of_idle (h : IsComplete (blanks ++ after)) (hblanks : AllBlank blanks)
    (hidle : Idle after) : after = [] := by
  have hlength := commentStart_of_complete h
  rw [commentStart_append hblanks.isClosed.2, commentStart_of_idle hidle,
    List.length_append] at hlength
  exact List.length_eq_zero_iff.1 (by omega)

theorem IsComplete.tail (h : IsComplete (blanks ++ first :: (body ++ after)))
    (hblanks : AllBlank blanks) (hfirst : isBlank first = false) (hcomment : first ≠ '#')
    (hwhole : IsWhole first body) (hcut : cutBody first (body ++ after) = (body, after)) :
    IsComplete after := by
  have hlength := commentStart_of_complete h
  have hclosed := h.closed
  rw [lineTokens_of_whole hblanks hfirst hcomment hcut] at hclosed
  constructor
  · rw [commentStart_of_whole hblanks hwhole] at hlength
    simp only [List.length_append, List.length_cons] at hlength
    rw [passAll_ahead_eq_nil_iff]
    omega
  · exact (List.forall_mem_cons.1 hclosed).2

theorem isOpen_classify (hinner : '"' ∉ inner) (number : Nat) :
    ((Lexeme.classify '"' inner).token number).IsOpen := by
  rw [classify_open hinner]
  exact ⟨rfl, by rw [Lexeme.token, String.toList_ofList, List.head?_cons]⟩

theorem not_isComplete_of_open (hblanks : AllBlank blanks) (hinner : '"' ∉ inner) :
    ¬ IsComplete (blanks ++ '"' :: inner) := by
  intro h
  refine h.closed ((Lexeme.classify '"' inner).token 1) ?_ (isOpen_classify hinner 1)
  rw [lineTokens_eq, lexemes_of_open hblanks hinner, classify_open hinner]
  exact List.mem_cons_self

end

/-! ## The last token of a part -/

/-- `Joins`, for a part that begins at `start`. -/
def JoinsAt (start : Nat) (part rest : List Char) : Prop :=
  ∃ cut ∈ cuts start part, cut.stop = start + part.length ∧
    ∃ c, rest.head? = some c ∧ (cut.lexeme.token 1).GoesOn c

section
variable {blanks body after rest : List Char} {first : Char} {start : Nat}

theorem cuts_of_cut (hblanks : AllBlank blanks) (hfirst : isBlank first = false)
    (hcomment : first ≠ '#') (hcut : cutBody first (body ++ after) = (body, after)) :
    cuts start (blanks ++ first :: (body ++ after)) =
      ⟨start + blanks.length, first, body⟩ ::
        cuts (start + blanks.length + (1 + body.length)) after := by
  rw [cuts_of_lexeme start hblanks hfirst hcomment, hcut]

/-- Behind a lexeme with which the part does not end, it is decided. -/
theorem joinsAt_of_ne_nil (hblanks : AllBlank blanks) (hfirst : isBlank first = false)
    (hcomment : first ≠ '#') (hcut : cutBody first (body ++ after) = (body, after))
    (hafter : after ≠ []) :
    JoinsAt start (blanks ++ first :: (body ++ after)) rest ↔
      JoinsAt (start + blanks.length + (1 + body.length)) after rest := by
  have hend : start + (blanks ++ first :: (body ++ after)).length =
      start + blanks.length + (1 + body.length) + after.length := by
    simp only [List.length_append, List.length_cons]
    omega
  have hnot : ¬ (Cut.mk (start + blanks.length) first body).stop =
      start + blanks.length + (1 + body.length) + after.length := by
    have := List.length_pos_iff.2 hafter
    simp only [Cut.stop, Cut.source, List.length_cons]
    omega
  simp only [JoinsAt, cuts_of_cut hblanks hfirst hcomment hcut, hend, List.exists_mem_cons_iff,
    hnot, false_and, false_or]

theorem joinsAt_of_nil (hblanks : AllBlank blanks) (hfirst : isBlank first = false)
    (hcomment : first ≠ '#') (hcut : cutBody first (body ++ []) = (body, [])) :
    JoinsAt start (blanks ++ first :: (body ++ [])) rest ↔
      ∃ c, rest.head? = some c ∧ ((Lexeme.classify first body).token 1).GoesOn c := by
  have hend : (Cut.mk (start + blanks.length) first body).stop =
      start + (blanks ++ first :: (body ++ [])).length := by
    simp only [Cut.stop, Cut.source, List.length_append, List.length_cons, List.length_nil]
    omega
  simp only [JoinsAt, cuts_of_cut hblanks hfirst hcomment hcut, cuts_nil, List.mem_singleton,
    exists_eq_left, hend, true_and]
  rfl

end

/-- A lexeme that is no string is handed on as it is written. -/
theorem text_classify {first : Char} (h : first ≠ '"') (body : List Char) :
    (Lexeme.classify first body).text = String.ofList (first :: body) := by
  cases hshape : Shape.of first with
  | word => rw [classify_of_word hshape]
  | number => rw [classify_of_number hshape]
  | quoted => exact absurd (eq_quote_of_shape hshape) h
  | symbol => rw [classify_of_symbol hshape]

section
variable {first : Char} {body : List Char} (hwhole : IsWhole first body)
include hwhole

theorem IsWhole.cutBody_append_iff (hblank : isBlank first = false) (hcomment : first ≠ '#')
    (hadm : Admits first body) (rest : List Char) :
    cutBody first (body ++ rest) = (body, rest) ↔
      ¬ ∃ c, rest.head? = some c ∧ ((Lexeme.classify first body).token 1).GoesOn c := by
  have hclosed := hwhole.not_isOpen hblank hcomment hadm 1
  have hgoes : ∀ c, Admits first (body ++ [c]) ↔
      ((Lexeme.classify first body).token 1).GoesOn c :=
    fun c => (spells_classify hblank hcomment hadm).admits_concat_iff hclosed
  simp only [Lexis.cutBody_append_iff hadm, hgoes, not_exists, not_and]

/-- If the text of the token is the same, so is its place. -/
theorem IsWhole.cutBody_of_text {rest : List Char}
    (h : (Lexeme.classify first (cutBody first (body ++ rest)).1).text =
      (Lexeme.classify first body).text) :
    cutBody first (body ++ rest) = (body, rest) := by
  rcases hwhole with ⟨hquote, _⟩ | ⟨rfl, inner, hinner, rfl⟩
  · have hfirst : first ≠ '"' := by
      rintro rfl
      exact hquote List.mem_cons_self
    rw [text_classify hfirst, text_classify hfirst, String.ofList_inj] at h
    have hbody : (cutBody first (body ++ rest)).1 = body := (List.cons.inj h).2
    have hall := Lexis.cutBody_append first (body ++ rest)
    rw [hbody, List.append_cancel_left_eq] at hall
    exact Prod.ext hbody hall
  · rw [cutBody_quote, List.append_assoc]
    exact cutQuoted_of_quote hinner rest

end

theorem lexemes_blanks_append {blanks : List Char} (hblanks : AllBlank blanks)
    (line : List Char) : lexemes (blanks ++ line) = lexemes line := by
  rcases idle_or_lexeme line with
    ⟨others, rest, rfl, hothers, hidle⟩ | ⟨others, first, rest, rfl, hothers, hfirst, hcomment⟩
  · rw [← List.append_assoc, lexemes_of_idle (List.forall_mem_append.2 ⟨hblanks, hothers⟩) hidle,
      lexemes_of_idle hothers hidle]
  · rw [← List.append_assoc,
      lexemes_of_lexeme (List.forall_mem_append.2 ⟨hblanks, hothers⟩) hfirst hcomment,
      lexemes_of_lexeme hothers hfirst hcomment]

/-- A line goes on behind a complete part as if it began there, unless the last token of the part
goes on. -/
theorem lineTokens_append_iff {part : List Char} (h : IsComplete part) (rest : List Char)
    (number start : Nat) :
    lineTokens number (part ++ rest) = lineTokens number part ++ lineTokens number rest ↔
      ¬ JoinsAt start part rest := by
  induction part using quote_induction generalizing start with
  | idle blanks other hblanks hidle =>
    obtain rfl := h.eq_nil_of_idle hblanks hidle
    refine iff_of_true ?_ ?_
    · have hnone : lineTokens number (blanks ++ []) = [] := by
        rw [lineTokens_eq, lexemes_of_idle hblanks hidle, List.map_nil]
      rw [hnone, List.append_nil, List.nil_append, lineTokens_eq, lexemes_blanks_append hblanks,
        lineTokens_eq]
    · rintro ⟨cut, hcut, _⟩
      rw [cuts_of_idle start hblanks hidle] at hcut
      cases hcut
  | whole blanks first body after hblanks hfirst hcomment hwhole hcut ih =>
    have hcomplete := h.tail hblanks hfirst hcomment hwhole hcut
    rw [List.append_assoc, List.cons_append, List.append_assoc,
      lineTokens_of_whole hblanks hfirst hcomment hcut, List.cons_append]
    cases after with
    | nil =>
      have hiff := hwhole.cutBody_append_iff hfirst hcomment (admits_of_cut hcut) rest
      rw [joinsAt_of_nil hblanks hfirst hcomment hcut, ← hiff, List.nil_append]
      constructor
      · intro hsame
        -- the first tokens have the same text, so the first lexeme ends with the part
        rw [lineTokens_eq, lexemes_of_lexeme hblanks hfirst hcomment, List.map_cons] at hsame
        exact hwhole.cutBody_of_text (congrArg Token.lexeme (List.cons.inj hsame).1)
      · intro hsame
        rw [lineTokens_of_whole hblanks hfirst hcomment hsame, lineTokens_eq number [],
          lexemes_nil, List.map_nil, List.nil_append]
    | cons c others =>
      have hcut' : cutBody first (body ++ (c :: others ++ rest)) = (body, c :: others ++ rest) :=
        hwhole.cutBody_append hfirst hcomment hcut fun d hd => .inl hd
      rw [lineTokens_of_whole hblanks hfirst hcomment hcut', List.cons_inj_right, ih hcomplete,
        joinsAt_of_ne_nil hblanks hfirst hcomment hcut (List.cons_ne_nil c others)]
  | opened blanks inner hblanks hinner => exact absurd h (not_isComplete_of_open hblanks hinner)

/-! ## Blanks between lexemes -/

/-- No lexeme of the line begins before the position and ends behind it. -/
def IsBoundary (start : Nat) (line : List Char) (position : Nat) : Prop :=
  ∀ cut ∈ cuts start line, cut.stop ≤ start + position ∨ start + position ≤ cut.start

/-- No string is left open in front of the position. -/
def IsClosedAt (start : Nat) (line : List Char) (position : Nat) : Prop :=
  ∀ cut ∈ cuts start line, cut.stop ≤ start + position → ¬ (cut.lexeme.token 1).IsOpen

/-- A part that reaches over the blanks in front of the first lexeme. -/
theorem exists_of_not_allBlank {part rest blanks other : List Char} (hpart : ¬ AllBlank part)
    (hblanks : AllBlank blanks) (hline : part ++ rest = blanks ++ other) :
    ∃ c more, part = blanks ++ c :: more ∧ other = c :: (more ++ rest) := by
  rcases List.append_eq_append_iff.1 hline with ⟨left, rfl, _⟩ | ⟨beyond, rfl, hother⟩
  · exact absurd (fun c hc => hblanks c (List.mem_append_left _ hc)) hpart
  · cases beyond with
    | nil =>
      rw [List.append_nil] at hpart
      exact absurd hblanks hpart
    | cons c more => exact ⟨c, more, rfl, hother⟩

theorem lexemes_insert_in_front {part gap : List Char} (hpart : AllBlank part)
    (hgap : AllBlank gap) (rest : List Char) :
    lexemes (part ++ (gap ++ rest)) = lexemes (part ++ rest) := by
  rw [lexemes_blanks_append hpart, lexemes_blanks_append hgap, lexemes_blanks_append hpart]

/-- What ends behind a lexeme still does so when blanks are put in there. -/
theorem IsWhole.cutBody_insert {first : Char} {body between gap rest : List Char}
    (h : IsWhole first body) (hblank : isBlank first = false) (hcomment : first ≠ '#')
    (hcut : cutBody first (body ++ (between ++ rest)) = (body, between ++ rest))
    (hgap : AllBlank gap) :
    cutBody first (body ++ (between ++ (gap ++ rest))) = (body, between ++ (gap ++ rest)) := by
  refine h.cutBody_append hblank hcomment hcut fun c hc => ?_
  cases between with
  | cons => exact .inl hc
  | nil =>
    cases gap with
    | nil => exact .inl hc
    | cons =>
      cases hc
      exact .inr (.inl (hgap _ List.mem_cons_self))

theorem lexemes_insert_blanks {part rest gap : List Char} (hgap : AllBlank gap) {start : Nat}
    (hboundary : IsBoundary start (part ++ rest) part.length)
    (hclosed : IsClosedAt start (part ++ rest) part.length) :
    lexemes (part ++ (gap ++ rest)) = lexemes (part ++ rest) := by
  by_cases hpart : AllBlank part
  · exact lexemes_insert_in_front hpart hgap rest
  generalize hline : part ++ rest = line at hboundary hclosed
  induction line using quote_induction generalizing part start with
  | idle blanks other hblanks hidle =>
    obtain ⟨c, more, rfl, rfl⟩ := exists_of_not_allBlank hpart hblanks hline
    obtain rfl := hidle c rfl
    rw [List.append_assoc, List.cons_append, lexemes_of_idle hblanks (.comment _),
      lexemes_of_idle hblanks (.comment _)]
  | whole blanks first body after hblanks hfirst hcomment hwhole hcut ih =>
    obtain ⟨c, more, rfl, hother⟩ := exists_of_not_allBlank hpart hblanks hline
    obtain ⟨rfl, htail⟩ := List.cons.inj hother
    rw [IsBoundary, cuts_of_cut hblanks hfirst hcomment hcut] at hboundary
    rw [IsClosedAt, cuts_of_cut hblanks hfirst hcomment hcut] at hclosed
    obtain ⟨hends, hboundary⟩ := List.forall_mem_cons.1 hboundary
    have hclosed := (List.forall_mem_cons.1 hclosed).2
    -- the position lies behind the lexeme
    simp only [Cut.stop, Cut.source, List.length_append, List.length_cons] at hends
    obtain ⟨between, rfl⟩ : body <+: more :=
      List.prefix_of_prefix_length_le ⟨after, htail⟩ ⟨rest, rfl⟩ (by omega)
    rw [List.append_assoc, List.append_cancel_left_eq] at htail
    subst htail
    have hposition : start + (blanks ++ first :: (body ++ between)).length =
        start + blanks.length + (1 + body.length) + between.length := by
      simp only [List.length_append, List.length_cons]
      omega
    rw [hposition] at hboundary hclosed
    have hsame : lexemes (between ++ (gap ++ rest)) = lexemes (between ++ rest) := by
      by_cases hbetween : AllBlank between
      · exact lexemes_insert_in_front hbetween hgap rest
      · exact ih hbetween rfl hboundary hclosed
    have hcut' := hwhole.cutBody_insert hfirst hcomment hcut hgap
    rw [List.append_assoc, List.cons_append, List.append_assoc,
      lexemes_of_cut hblanks hfirst hcomment hcut', hsame,
      lexemes_of_cut hblanks hfirst hcomment hcut]
  | opened blanks inner hblanks hinner =>
    obtain ⟨c, more, rfl, hother⟩ := exists_of_not_allBlank hpart hblanks hline
    obtain ⟨rfl, rfl⟩ := List.cons.inj hother
    have hcut : Cut.mk (start + blanks.length) '"' (more ++ rest) ∈
        cuts start (blanks ++ '"' :: (more ++ rest)) := by
      rw [cuts_of_lexeme start hblanks (by decide) (by decide), cutBody_quote,
        cutQuoted_of_not_mem hinner]
      exact List.mem_cons_self
    -- the position would lie behind the open string
    rcases hboundary _ hcut with hstop | hstart
    · exact absurd (isOpen_classify hinner 1) (hclosed _ hcut hstop)
    · simp only [List.length_append, List.length_cons] at hstart
      omega

/-! ## The tokens of a line from its parts -/

/-- The tokens that calls give while a line is current are those of its parts, one behind the other,
when the first part is read up to its end with no comment and no open string. Only a last token
that goes on with the first character of the other part makes them different, and it always does.
Blanks that are put in between two lexemes, not behind an open string, change nothing. -/
theorem tokens_of_parted_line (part rest : List Char) (number : Nat) :
    (∀ {σ : Type} [LineSupply σ] {scan : Scan σ} {line : String}, scan.ComesTo line number →
      ∀ n, Scan.onLine number (scan.calls n).1 = (lineTokens number line.toList).take n) ∧
    (IsComplete part →
      (lineTokens number (part ++ rest) = lineTokens number part ++ lineTokens number rest ↔
        ¬ Joins part rest)) ∧
    (IsBoundary 0 (part ++ rest) part.length → IsClosedAt 0 (part ++ rest) part.length →
      ∀ gap, AllBlank gap →
        lineTokens number (part ++ (gap ++ rest)) = lineTokens number (part ++ rest)) := by
  refine ⟨?_, ?_, ?_⟩
  · intro σ _ scan line h n
    exact Scan.onLine_eq_take h n
  · intro h
    have hiff := lineTokens_append_iff h rest number 0
    simp only [JoinsAt, Nat.zero_add] at hiff
    exact hiff
  · intro hboundary hclosed gap hgap
    rw [lineTokens_eq, lexemes_insert_blanks hgap hboundary hclosed, lineTokens_eq]

end Lexis
