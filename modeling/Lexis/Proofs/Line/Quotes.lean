import Lexis.Proofs.Lexeme.Continuation
import Lexis.Proofs.Line.Lexemes

/-!
# Quotes and comments

A line can be divided into strings and a comment by counting its quotes, without a look at any
other character. The comment begins at the first comment sign behind an even number of quotes
(`commentStart`), and in front of it every second quote closes a string (`quotedTexts`). The
lexemes agree with that: no word, number or symbol holds a quote or a comment sign, a string that
is closed holds two quotes (`quote_induction`), and so the count is even wherever a lexeme ends
(`IsClosed`), except behind a string that is not closed, with which the line ends.
-/

set_option autoImplicit false

namespace Lexis

/-! ## The beginning of the comment -/

/-- A comment sign behind an even number of quotes. -/
def OpensComment (chars : List Char) (i : Nat) : Prop :=
  chars[i]? = some '#' ∧ (chars.take i).count '"' % 2 = 0

instance (line : List Char) (i : Nat) : Decidable (OpensComment line i) :=
  inferInstanceAs (Decidable (_ ∧ _))

/-- The first position at which a comment opens, or else the length of the line. -/
def commentStart (line : List Char) : Nat :=
  ((List.range line.length).find? (OpensComment line ·)).getD line.length

/-- What stands in front of the comment. -/
def beforeComment (line : List Char) : List Char :=
  line.take (commentStart line)

theorem OpensComment.lt_length {line : List Char} {i : Nat} (h : OpensComment line i) :
    i < line.length :=
  (List.getElem?_eq_some_iff.1 h.1).1

theorem commentStart_spec (line : List Char) :
    (commentStart line = line.length ∨ OpensComment line (commentStart line)) ∧
      ∀ i < commentStart line, ¬ OpensComment line i := by
  unfold commentStart
  cases hfind : (List.range line.length).find? (OpensComment line ·) with
  | none =>
    have hnone := List.find?_eq_none.1 hfind
    refine ⟨.inl rfl, fun i hi hopens => ?_⟩
    exact hnone i (List.mem_range.2 hi) (decide_eq_true hopens)
  | some found =>
    obtain ⟨hopens, _, hbefore⟩ := List.find?_range_eq_some.1 hfind
    refine ⟨.inr (of_decide_eq_true hopens), fun i hi => ?_⟩
    simpa using hbefore i hi

theorem commentStart_le_length (line : List Char) : commentStart line ≤ line.length := by
  rcases (commentStart_spec line).1 with h | h
  · exact Nat.le_of_eq h
  · exact Nat.le_of_lt h.lt_length

/-- There is no other place of this sort. -/
theorem eq_commentStart {line : List Char} {p : Nat}
    (hend : p = line.length ∨ OpensComment line p) (hbefore : ∀ i < p, ¬ OpensComment line i) :
    commentStart line = p := by
  obtain ⟨hend', hbefore'⟩ := commentStart_spec line
  have hle := commentStart_le_length line
  rcases Nat.lt_trichotomy (commentStart line) p with hlt | heq | hgt
  · rcases hend' with hlength | hopens
    · rcases hend with rfl | hopens
      · omega
      · have := hopens.lt_length
        omega
    · exact absurd hopens (hbefore _ hlt)
  · exact heq
  · rcases hend with rfl | hopens
    · omega
    · exact absurd hopens (hbefore' p hgt)

/-- The first comment sign stands in a string, and the quote behind the second one counts no
more. -/
example : commentStart "\"a#b\" # \"".toList = 6 := by decide

/-! ## Parts of a line -/

/-- A part of a line in which every quote is closed and no comment opens. -/
structure IsClosed (part : List Char) : Prop where
  even : part.count '"' % 2 = 0
  noComment : ∀ i, ¬ OpensComment part i

section
variable {part rest : List Char}

theorem opensComment_append_left {i : Nat} (hi : i < part.length) :
    OpensComment (part ++ rest) i ↔ OpensComment part i := by
  rw [OpensComment, OpensComment, List.getElem?_append_left hi,
    List.take_append_of_le_length (Nat.le_of_lt hi)]

theorem opensComment_append_right (heven : part.count '"' % 2 = 0) (i : Nat) :
    OpensComment (part ++ rest) (part.length + i) ↔ OpensComment rest i := by
  have hparity : ((part ++ rest).take (part.length + i)).count '"' % 2 =
      (rest.take i).count '"' % 2 := by
    rw [List.take_length_add_append, List.count_append]
    omega
  rw [OpensComment, OpensComment, hparity, List.getElem?_append_right (Nat.le_add_right _ i),
    Nat.add_sub_cancel_left]

/-- Behind a closed part the comment begins as if the part were not there. -/
theorem commentStart_append (h : IsClosed part) (rest : List Char) :
    commentStart (part ++ rest) = part.length + commentStart rest := by
  obtain ⟨hend, hbefore⟩ := commentStart_spec rest
  apply eq_commentStart
  · rcases hend with hlength | hopens
    · exact .inl (by rw [hlength, List.length_append])
    · exact .inr ((opensComment_append_right h.even _).2 hopens)
  · intro i hi hopens
    by_cases hin : i < part.length
    · exact h.noComment i ((opensComment_append_left hin).1 hopens)
    · obtain ⟨j, rfl⟩ := Nat.exists_eq_add_of_le (Nat.le_of_not_lt hin)
      exact hbefore j (by omega) ((opensComment_append_right h.even j).1 hopens)

theorem beforeComment_append (h : IsClosed part) (rest : List Char) :
    beforeComment (part ++ rest) = part ++ beforeComment rest := by
  rw [beforeComment, commentStart_append h, List.take_length_add_append, beforeComment]

theorem IsClosed.of_not_mem (hquote : '"' ∉ part) (hcomment : '#' ∉ part) : IsClosed part := by
  refine ⟨by rw [List.count_eq_zero.2 hquote], fun i hopens => ?_⟩
  exact hcomment (List.mem_of_getElem? hopens.1)

theorem IsClosed.append (h : IsClosed part) (hrest : IsClosed rest) : IsClosed (part ++ rest) := by
  constructor
  · have heven := h.even
    have heven' := hrest.even
    rw [List.count_append]
    omega
  · intro i hopens
    by_cases hin : i < part.length
    · exact h.noComment i ((opensComment_append_left hin).1 hopens)
    · obtain ⟨j, rfl⟩ := Nat.exists_eq_add_of_le (Nat.le_of_not_lt hin)
      exact hrest.noComment j ((opensComment_append_right h.even j).1 hopens)

end

section
variable {inner : List Char} (hinner : '"' ∉ inner)
include hinner

/-- Behind a single quote no comment opens before the next one. -/
theorem not_opensComment_of_quote (rest : List Char) {i : Nat} (hi : i ≤ inner.length) :
    ¬ OpensComment ('"' :: (inner ++ rest)) i := by
  intro hopens
  cases i with
  | zero =>
    have hsign := hopens.1
    rw [List.getElem?_cons_zero] at hsign
    exact absurd (Option.some.inj hsign) (by decide)
  | succ i =>
    have heven := hopens.2
    have hnone : '"' ∉ inner.take i := fun hmem => hinner (List.mem_of_mem_take hmem)
    rw [List.take_succ_cons, List.take_append_of_le_length (by omega), List.count_cons_self,
      List.count_eq_zero.2 hnone] at heven
    omega

theorem IsClosed.quoted : IsClosed ('"' :: (inner ++ ['"'])) := by
  constructor
  · simp [List.count_eq_zero.2 hinner]
  · intro i hopens
    by_cases hi : i ≤ inner.length
    · exact not_opensComment_of_quote hinner _ hi hopens
    · -- only the closing quote is left
      have hlt := hopens.lt_length
      simp only [List.length_cons, List.length_append, List.length_nil] at hlt
      obtain rfl : i = inner.length + 1 := by omega
      have hsign := hopens.1
      rw [List.getElem?_cons_succ, List.getElem?_append_right (Nat.le_refl _), Nat.sub_self,
        List.getElem?_cons_zero] at hsign
      exact absurd (Option.some.inj hsign) (by decide)

theorem commentStart_of_open : commentStart ('"' :: inner) = ('"' :: inner).length := by
  apply eq_commentStart (.inl rfl)
  intro i hi
  have := not_opensComment_of_quote hinner [] (Nat.lt_succ_iff.1 hi)
  rwa [List.append_nil] at this

end

theorem commentStart_of_idle {rest : List Char} (h : Idle rest) : commentStart rest = 0 := by
  cases rest with
  | nil => rfl
  | cons c rest =>
    obtain rfl := h c rfl
    exact eq_commentStart (.inr ⟨rfl, rfl⟩) (by simp)

/-! ## The texts between quotes -/

/-- What stands between the first quote and the second, the third and the fourth, and so on. -/
def quotedTexts (text : List Char) : List (List Char) :=
  (List.range (text.count '"' / 2)).map fun j => (text.splitOn '"').getD (2 * j + 1) []

theorem quotedTexts_of_le_one {text : List Char} (h : text.count '"' ≤ 1) :
    quotedTexts text = [] := by
  have hnone : text.count '"' / 2 = 0 := by omega
  rw [quotedTexts, hnone, List.range_zero, List.map_nil]

theorem bne_of_not_mem_quote {part : List Char} (h : '"' ∉ part) :
    ∀ c ∈ part, (c == '"') = false := by
  intro c hc
  rw [beq_eq_false_iff_ne]
  rintro rfl
  exact h hc

/-- What has no quote in it makes no difference in front. -/
theorem quotedTexts_append {part : List Char} (h : '"' ∉ part) (text : List Char) :
    quotedTexts (part ++ text) = quotedTexts text := by
  induction part with
  | nil => rfl
  | cons c part ih =>
    rw [List.mem_cons, not_or] at h
    obtain ⟨hc, hpart⟩ := h
    rw [← ih hpart, quotedTexts, quotedTexts, List.cons_append,
      List.count_cons_of_ne (Ne.symm hc)]
    apply List.map_congr_left
    intro j _
    rw [List.splitOn, List.splitOnP_cons_eq_if_modifyHead, if_neg (by simpa using Ne.symm hc),
      List.getD_eq_getElem?_getD, List.getElem?_modifyHead_succ, List.getD_eq_getElem?_getD,
      List.splitOn]

theorem quotedTexts_quoted {inner : List Char} (h : '"' ∉ inner) (text : List Char) :
    quotedTexts ('"' :: (inner ++ '"' :: text)) = inner :: quotedTexts text := by
  have hcount : ('"' :: (inner ++ '"' :: text)).count '"' / 2 = text.count '"' / 2 + 1 := by
    simp only [List.count_cons_self, List.count_append, List.count_eq_zero.2 h]
    omega
  have hsplit : ('"' :: (inner ++ '"' :: text)).splitOn '"' =
      [] :: inner :: text.splitOn '"' := by
    rw [List.splitOn, List.splitOnP_cons_eq_if_modifyHead, if_pos (by simp),
      List.splitOnP_append_cons_of_forall_mem (bne_of_not_mem_quote h) '"' (by simp)]
    rfl
  rw [quotedTexts, hcount, hsplit, List.range_succ_eq_map, List.map_cons, List.map_map]
  rfl

/-! ## Lexemes and quotes -/

theorem AllBlank.isClosed {blanks : List Char} (h : AllBlank blanks) :
    '"' ∉ blanks ∧ IsClosed blanks := by
  have hquote : '"' ∉ blanks := fun hmem => absurd (h _ hmem) (by decide)
  have hcomment : '#' ∉ blanks := fun hmem => absurd (h _ hmem) (by decide)
  exact ⟨hquote, .of_not_mem hquote hcomment⟩

theorem not_mem_word {word : List Char} (h : ∀ c ∈ word, isLetter c = true ∨ c.isDigit = true) :
    '"' ∉ word ∧ '#' ∉ word := by
  constructor <;> exact fun hmem => absurd (h _ hmem) (by decide)

theorem not_mem_digits {digits : List Char} (h : ∀ c ∈ digits, c.isDigit = true) :
    '"' ∉ digits ∧ '#' ∉ digits := by
  constructor <;> exact fun hmem => absurd (h _ hmem) (by decide)

/-- A lexeme that begins with another character holds no quote and no comment sign. -/
theorem not_mem_of_admits {first : Char} {body : List Char} (hfirst : first ≠ '"')
    (hcomment : first ≠ '#') (h : Admits first body) :
    '"' ∉ first :: body ∧ '#' ∉ first :: body := by
  suffices hbody : '"' ∉ body ∧ '#' ∉ body by
    simp [Ne.symm hfirst, Ne.symm hcomment, hbody]
  unfold Admits at h
  cases hshape : Shape.of first with
  | word =>
    rw [hshape] at h
    exact not_mem_word h
  | number =>
    rw [hshape] at h
    obtain ⟨whole, hwhole, rfl | ⟨fraction, hfraction, rfl⟩⟩ := h
    · exact not_mem_digits hwhole
    · simp [not_mem_digits hwhole, not_mem_digits hfraction]
  | quoted => exact absurd (eq_quote_of_shape hshape) hfirst
  | symbol =>
    rw [hshape] at h
    rcases h with rfl | ⟨_, rfl⟩ <;> simp

theorem cutBody_quote (rest : List Char) : cutBody '"' rest = cutQuoted rest := by
  simp only [cutBody, shape_of_quote]

/-- A lexeme without a quote, or a string that is closed. -/
def IsWhole (first : Char) (body : List Char) : Prop :=
  ('"' ∉ first :: body ∧ '#' ∉ first :: body) ∨
    first = '"' ∧ ∃ inner, '"' ∉ inner ∧ body = inner ++ ['"']

/-- Induction on a line, lexeme by lexeme up to a string that takes the rest of the line. -/
@[elab_as_elim]
theorem quote_induction {motive : List Char → Prop}
    (idle : ∀ blanks rest, AllBlank blanks → Idle rest → motive (blanks ++ rest))
    (whole : ∀ blanks first body after, AllBlank blanks → isBlank first = false → first ≠ '#' →
      IsWhole first body → cutBody first (body ++ after) = (body, after) → motive after →
      motive (blanks ++ first :: (body ++ after)))
    (opened : ∀ blanks inner, AllBlank blanks → '"' ∉ inner → motive (blanks ++ '"' :: inner))
    (line : List Char) : motive line := by
  induction line using line_induction with
  | idle blanks rest hblanks hidle => exact idle blanks rest hblanks hidle
  | lexeme blanks first rest hblanks hfirst hcomment ih =>
    have hrest := cutBody_append first rest
    by_cases hquote : first = '"'
    · subst hquote
      by_cases hmem : '"' ∈ rest
      · obtain ⟨inner, after, rfl, hinner⟩ := List.eq_append_cons_of_mem hmem
        have hcut := cutQuoted_of_quote hinner after
        rw [← cutBody_quote] at hcut
        rw [hcut] at ih
        have hsplit : inner ++ '"' :: after = inner ++ ['"'] ++ after := by simp
        rw [hsplit] at hcut ⊢
        exact whole blanks '"' _ after hblanks hfirst hcomment (.inr ⟨rfl, inner, hinner, rfl⟩)
          hcut ih
      · exact opened blanks rest hblanks hmem
    · have hsort := not_mem_of_admits hquote hcomment (admits_cutBody first rest)
      have hcut : cutBody first ((cutBody first rest).1 ++ (cutBody first rest).2) =
          cutBody first rest := by
        rw [hrest]
      rw [← hrest]
      exact whole blanks first _ _ hblanks hfirst hcomment (.inl hsort) hcut ih

section
variable {blanks body after inner : List Char} {first : Char}

theorem IsWhole.isClosed (h : IsWhole first body) : IsClosed (first :: body) := by
  rcases h with ⟨hquote, hcomment⟩ | ⟨rfl, inner, hinner, rfl⟩
  · exact .of_not_mem hquote hcomment
  · exact .quoted hinner

/-- Such a lexeme is no string that is not closed. -/
theorem IsWhole.not_isOpen (h : IsWhole first body) (hblank : isBlank first = false)
    (hcomment : first ≠ '#') (hadm : Admits first body) (number : Nat) :
    ¬ ((Lexeme.classify first body).token number).IsOpen := by
  intro hopen
  obtain ⟨inner, hinner, hsource⟩ := (spells_classify hblank hcomment hadm).of_isOpen hopen
  obtain ⟨rfl, rfl⟩ := List.cons.inj hsource
  rcases h with ⟨hquote, _⟩ | ⟨_, other, _, rfl⟩
  · simp at hquote
  · simp at hinner

theorem admits_of_cut (hcut : cutBody first (body ++ after) = (body, after)) :
    Admits first body := by
  have hadm := admits_cutBody first (body ++ after)
  rwa [hcut] at hadm

theorem lexemes_of_cut (hblanks : AllBlank blanks) (hfirst : isBlank first = false)
    (hcomment : first ≠ '#') (hcut : cutBody first (body ++ after) = (body, after)) :
    lexemes (blanks ++ first :: (body ++ after)) = .classify first body :: lexemes after := by
  rw [lexemes_of_lexeme hblanks hfirst hcomment, hcut]

/-- A string that is not closed is the last lexeme of its line. -/
theorem lexemes_of_open (hblanks : AllBlank blanks) (hinner : '"' ∉ inner) :
    lexemes (blanks ++ '"' :: inner) =
      [⟨.error .unterminatedString, String.ofList ('"' :: inner)⟩] := by
  rw [lexemes_of_lexeme hblanks (by decide) (by decide), cutBody_quote,
    cutQuoted_of_not_mem hinner, classify_open hinner, lexemes_nil]

/-- Such a lexeme ends before a character that ended it elsewhere, a blank or a comment sign. -/
theorem IsWhole.cutBody_append (h : IsWhole first body) (hblank : isBlank first = false)
    (hcomment : first ≠ '#') (hcut : cutBody first (body ++ after) = (body, after))
    {other : List Char} (hother : ∀ c, other.head? = some c →
      after.head? = some c ∨ isBlank c = true ∨ c = '#') :
    cutBody first (body ++ other) = (body, other) := by
  have hadm := admits_of_cut hcut
  have hspells := spells_classify hblank hcomment hadm
  refine (cutBody_append_iff hadm).2 fun c hc => ?_
  rcases hother c hc with hc | hc
  · exact (cutBody_append_iff hadm).1 hcut c hc
  · exact hspells.not_admits_concat (h.not_isOpen hblank hcomment hadm 0) hc

theorem commentStart_of_whole (hblanks : AllBlank blanks) (h : IsWhole first body)
    (after : List Char) :
    commentStart (blanks ++ first :: (body ++ after)) =
      blanks.length + (1 + body.length) + commentStart after := by
  have happend := commentStart_append (hblanks.isClosed.2.append h.isClosed) after
  rw [List.append_assoc, List.cons_append] at happend
  rw [happend, List.length_append, List.length_cons, Nat.add_comm 1]

theorem beforeComment_of_whole (hblanks : AllBlank blanks) (h : IsWhole first body)
    (after : List Char) :
    beforeComment (blanks ++ first :: (body ++ after)) =
      blanks ++ first :: (body ++ beforeComment after) := by
  have happend := beforeComment_append (hblanks.isClosed.2.append h.isClosed) after
  simpa only [List.append_assoc, List.cons_append] using happend

theorem beforeComment_of_idle (hblanks : AllBlank blanks) (hidle : Idle after) :
    beforeComment (blanks ++ after) = blanks := by
  rw [beforeComment_append hblanks.isClosed.2, beforeComment, commentStart_of_idle hidle,
    List.take_zero, List.append_nil]

theorem commentStart_of_blanks_open (hblanks : AllBlank blanks) (hinner : '"' ∉ inner) :
    commentStart (blanks ++ '"' :: inner) = (blanks ++ '"' :: inner).length := by
  rw [commentStart_append hblanks.isClosed.2, commentStart_of_open hinner, List.length_append]

theorem beforeComment_of_open (hblanks : AllBlank blanks) (hinner : '"' ∉ inner) :
    beforeComment (blanks ++ '"' :: inner) = blanks ++ '"' :: inner := by
  rw [beforeComment, commentStart_of_blanks_open hblanks hinner, List.take_length]

end

/-! ## The line by its quotes -/

/-- The reading of a line stops where the comment begins. -/
theorem Cursor.passAll_eq (cursor : Cursor) :
    cursor.passAll = ⟨(beforeComment cursor.ahead).reverse ++ cursor.behind,
      cursor.ahead.drop (commentStart cursor.ahead)⟩ := by
  generalize hahead : cursor.ahead = ahead
  induction ahead using quote_induction generalizing cursor with
  | idle blanks rest hblanks hidle =>
    rw [passAll_of_idle hahead hblanks hidle, beforeComment_of_idle hblanks hidle,
      commentStart_append hblanks.isClosed.2, commentStart_of_idle hidle, Nat.add_zero,
      List.drop_left]
  | whole blanks first body after hblanks hfirst hcomment hwhole hcut ih =>
    have hdrop : (blanks ++ first :: (body ++ after)).drop (blanks.length + (1 + body.length)) =
        after := by
      rw [← List.cons_append, ← List.append_assoc]
      exact List.drop_left' (by simp [Nat.add_comm 1])
    rw [passAll_of_lexeme hahead hblanks hfirst hcomment, hcut, ih _ rfl,
      commentStart_of_whole hblanks hwhole, ← List.drop_drop, hdrop,
      beforeComment_of_whole hblanks hwhole]
    simp
  | opened blanks inner hblanks hinner =>
    have hidle : (⟨inner.reverse ++ '"' :: (blanks.reverse ++ cursor.behind), []⟩ :
        Cursor).ahead = [] ++ [] := rfl
    rw [passAll_of_lexeme hahead hblanks (by decide) (by decide), cutBody_quote,
      cutQuoted_of_not_mem hinner, passAll_of_idle hidle .nil .nil,
      beforeComment_of_open hblanks hinner, commentStart_of_blanks_open hblanks hinner]
    simp

/-- Every lexeme ends in front of the comment. -/
theorem stop_le_commentStart {line : List Char} {start : Nat} {cut : Cut}
    (h : cut ∈ cuts start line) : cut.stop ≤ start + commentStart line := by
  induction line using quote_induction generalizing start with
  | idle blanks rest hblanks hidle =>
    rw [cuts_of_idle start hblanks hidle] at h
    cases h
  | whole blanks first body after hblanks hfirst hcomment hwhole hcut ih =>
    rw [cuts_of_lexeme start hblanks hfirst hcomment, hcut] at h
    rw [commentStart_of_whole hblanks hwhole]
    rcases List.mem_cons.1 h with rfl | h
    · simp only [Cut.stop, Cut.source, List.length_cons]
      omega
    · have := ih h
      dsimp only at this
      omega
  | opened blanks inner hblanks hinner =>
    rw [cuts_of_lexeme start hblanks (by decide) (by decide), cutBody_quote,
      cutQuoted_of_not_mem hinner, cuts_nil, List.mem_singleton] at h
    rw [h, commentStart_of_blanks_open hblanks hinner]
    simp only [Cut.stop, Cut.source, List.length_append, List.length_cons]
    omega

/-- What stands behind the beginning of the comment makes no difference. -/
theorem lexemes_beforeComment_append (line : List Char) {rest : List Char} (hidle : Idle rest)
    (hcomment : rest = [] ∨ commentStart line < line.length) :
    lexemes (beforeComment line ++ rest) = lexemes line := by
  induction line using quote_induction with
  | idle blanks other hblanks hother =>
    rw [beforeComment_of_idle hblanks hother, lexemes_of_idle hblanks hidle,
      lexemes_of_idle hblanks hother]
  | whole blanks first body after hblanks hfirst hsign hwhole hcut ih =>
    have hcut' : cutBody first (body ++ (beforeComment after ++ rest)) =
        (body, beforeComment after ++ rest) := by
      refine hwhole.cutBody_append hfirst hsign hcut fun c hc => ?_
      cases hbefore : beforeComment after with
      | nil =>
        rw [hbefore, List.nil_append] at hc
        exact .inr (.inr (hidle c hc))
      | cons d others =>
        rw [hbefore, List.cons_append, List.head?_cons] at hc
        refine .inl ?_
        rw [← List.take_append_drop (commentStart after) after, ← beforeComment, hbefore,
          List.cons_append, List.head?_cons, hc]
    have hafter : rest = [] ∨ commentStart after < after.length := by
      refine hcomment.imp_right fun hlt => ?_
      rw [commentStart_of_whole hblanks hwhole] at hlt
      simp only [List.length_append, List.length_cons] at hlt
      omega
    rw [beforeComment_of_whole hblanks hwhole, List.append_assoc, List.cons_append,
      List.append_assoc, lexemes_of_cut hblanks hfirst hsign hcut', ih hafter,
      lexemes_of_cut hblanks hfirst hsign hcut]
  | opened blanks inner hblanks hinner =>
    rw [commentStart_of_blanks_open hblanks hinner] at hcomment
    obtain rfl : rest = [] := hcomment.resolve_right (Nat.lt_irrefl _)
    rw [beforeComment_of_open hblanks hinner, List.append_nil]

/-- The strings of a line are the texts between its quotes. -/
theorem strings_eq_quotedTexts (line : List Char) :
    ((lexemes line).filter (·.kind = .literal .string)).map (·.text.toList) =
      quotedTexts (beforeComment line) := by
  induction line using quote_induction with
  | idle blanks rest hblanks hidle =>
    have hnone := List.count_eq_zero.2 hblanks.isClosed.1
    rw [beforeComment_of_idle hblanks hidle, lexemes_of_idle hblanks hidle,
      quotedTexts_of_le_one (by omega)]
    rfl
  | whole blanks first body after hblanks hfirst hcomment hwhole hcut ih =>
    rw [beforeComment_of_whole hblanks hwhole, quotedTexts_append hblanks.isClosed.1,
      lexemes_of_cut hblanks hfirst hcomment hcut]
    rcases hwhole with ⟨hquote, _⟩ | ⟨rfl, inner, hinner, rfl⟩
    · have hkind : (Lexeme.classify first body).kind ≠ .literal .string := by
        intro hkind
        have hwritten := (spells_classify hfirst hcomment (admits_of_cut hcut)).written 0
        rw [Token.written, if_pos hkind] at hwritten
        rw [← hwritten] at hquote
        exact hquote List.mem_cons_self
      rw [List.filter_cons_of_neg (by simpa using hkind), ih, ← List.cons_append,
        quotedTexts_append hquote]
    · rw [classify_closed, List.filter_cons_of_pos (by simp [Lexeme.kind]), List.map_cons, ih,
        List.append_assoc, List.singleton_append, quotedTexts_quoted hinner, String.toList_ofList]
  | opened blanks inner hblanks hinner =>
    have hone : ('"' :: inner).count '"' ≤ 1 := by
      rw [List.count_cons_self, List.count_eq_zero.2 hinner]
    rw [beforeComment_of_open hblanks hinner, quotedTexts_append hblanks.isClosed.1,
      quotedTexts_of_le_one hone, lexemes_of_open hblanks hinner]
    rfl

/-- The last quote of the line opens a string that is not closed; it makes the last token. -/
def EndsOpen (line : List Char) (number : Nat) : Prop :=
  ∃ before inner closed, line = before ++ '"' :: inner ∧ '"' ∉ inner ∧
    lineTokens number line = closed ++ [⟨.error, String.ofList ('"' :: inner), number⟩] ∧
    ∀ token ∈ closed, ¬ token.IsOpen

theorem lineTokens_of_whole {blanks body after : List Char} {first : Char}
    (hblanks : AllBlank blanks) (hfirst : isBlank first = false) (hcomment : first ≠ '#')
    (hcut : cutBody first (body ++ after) = (body, after)) (number : Nat) :
    lineTokens number (blanks ++ first :: (body ++ after)) =
      (Lexeme.classify first body).token number :: lineTokens number after := by
  rw [lineTokens_eq, lexemes_of_cut hblanks hfirst hcomment hcut, List.map_cons, lineTokens_eq]

/-- Whether the last string is open is told by the parity of the quotes. -/
theorem open_cases (line : List Char) (number : Nat) :
    ((beforeComment line).count '"' % 2 = 0 ∧
      ∀ token ∈ lineTokens number line, ¬ token.IsOpen) ∨
    (beforeComment line).count '"' % 2 = 1 ∧ commentStart line = line.length ∧
      EndsOpen line number := by
  induction line using quote_induction with
  | idle blanks rest hblanks hidle =>
    rw [beforeComment_of_idle hblanks hidle, lineTokens_eq, lexemes_of_idle hblanks hidle]
    exact .inl ⟨hblanks.isClosed.2.even, by simp⟩
  | whole blanks first body after hblanks hfirst hcomment hwhole hcut ih =>
    have hclosed := hwhole.not_isOpen hfirst hcomment (admits_of_cut hcut) number
    have htokens := lineTokens_of_whole hblanks hfirst hcomment hcut number
    have hparity : (beforeComment (blanks ++ first :: (body ++ after))).count '"' % 2 =
        (beforeComment after).count '"' % 2 := by
      have hpart := (hblanks.isClosed.2.append hwhole.isClosed).even
      rw [beforeComment_of_whole hblanks hwhole, ← List.cons_append, ← List.append_assoc,
        List.count_append]
      omega
    rw [hparity]
    rcases ih with ⟨heven, hnone⟩ | ⟨hodd, hlength, before, inner, closed, rfl, hinner, hlast, hnot⟩
    · refine .inl ⟨heven, ?_⟩
      rw [htokens]
      exact List.forall_mem_cons.2 ⟨hclosed, hnone⟩
    · refine .inr ⟨hodd, ?_, blanks ++ first :: (body ++ before), inner, _ :: closed, ?_, hinner,
        ?_, List.forall_mem_cons.2 ⟨hclosed, hnot⟩⟩
      · rw [commentStart_of_whole hblanks hwhole, hlength]
        simp only [List.length_append, List.length_cons]
        omega
      · simp only [List.append_assoc, List.cons_append]
      · rw [htokens, hlast, List.cons_append]
  | opened blanks inner hblanks hinner =>
    refine .inr ⟨?_, commentStart_of_blanks_open hblanks hinner, blanks, inner, [], rfl, hinner, ?_,
      by simp⟩
    · rw [beforeComment_of_open hblanks hinner, List.count_append,
        List.count_eq_zero.2 hblanks.isClosed.1, List.count_cons_self, List.count_eq_zero.2 hinner]
    · rw [lineTokens_eq, lexemes_of_open hblanks hinner]
      rfl

/-- An open string is there when the quotes are odd in number. -/
theorem exists_isOpen_iff (line : List Char) (number : Nat) :
    (∃ token ∈ lineTokens number line, token.IsOpen) ↔
      (beforeComment line).count '"' % 2 = 1 := by
  rcases open_cases line number with ⟨heven, hnone⟩ | ⟨hodd, _, _, inner, closed, _, _, hlast, _⟩
  · constructor
    · intro h
      obtain ⟨token, htoken, hopen⟩ := h
      exact absurd hopen (hnone token htoken)
    · omega
  · refine iff_of_true ⟨⟨.error, String.ofList ('"' :: inner), number⟩, ?_, rfl, ?_⟩ hodd
    · rw [hlast]
      exact List.mem_append_right closed List.mem_cons_self
    · rw [String.toList_ofList, List.head?_cons]

/-! ## The tokens of the line -/

/-- The tokens that calls give while a line is current are those in front of its comment, as the
quotes tell. Whatever stands behind the comment sign, the line is read up to it and no lexeme
reaches over it; every second quote closes a string; and an odd number of quotes leaves the last
string open, which is then the last token of the line and reaches to its end. -/
theorem tokens_by_quotes (line : List Char) (number : Nat) :
    (∀ {σ : Type} [LineSupply σ] {scan : Scan σ}, scan.ComesTo (String.ofList line) number →
      ∀ n, Scan.onLine number (scan.calls n).1 = (lineTokens number line).take n) ∧
    Cursor.passAll ⟨[], line⟩ =
      ⟨(beforeComment line).reverse, line.drop (commentStart line)⟩ ∧
    (∀ cut ∈ cuts 0 line, cut.stop ≤ commentStart line) ∧
    lineTokens number (beforeComment line) = lineTokens number line ∧
    (commentStart line < line.length → ∀ other,
      lineTokens number (beforeComment line ++ '#' :: other) = lineTokens number line) ∧
    ((lineTokens number line).filter (·.kind = .literal .string)).map (·.lexeme.toList) =
      quotedTexts (beforeComment line) ∧
    ((∃ token ∈ lineTokens number line, token.IsOpen) ↔
      (beforeComment line).count '"' % 2 = 1) ∧
    ((beforeComment line).count '"' % 2 = 1 →
      commentStart line = line.length ∧ EndsOpen line number) := by
  refine ⟨?_, ?_, ?_, ?_, ?_, ?_, exists_isOpen_iff line number, ?_⟩
  · intro σ _ scan h n
    rw [Scan.onLine_eq_take h, String.toList_ofList]
  · rw [Cursor.passAll_eq, List.append_nil]
  · intro cut hcut
    have hstop := stop_le_commentStart hcut
    rwa [Nat.zero_add] at hstop
  · have hbefore := lexemes_beforeComment_append line .nil (.inl rfl)
    rw [List.append_nil] at hbefore
    rw [lineTokens_eq, hbefore, lineTokens_eq]
  · intro hcomment other
    rw [lineTokens_eq, lexemes_beforeComment_append line (.comment other) (.inr hcomment),
      lineTokens_eq]
  · rw [lineTokens_eq, List.filter_map, List.map_map]
    exact strings_eq_quotedTexts line
  · intro hodd
    rcases open_cases line number with ⟨heven, _⟩ | ⟨_, hends⟩
    · omega
    · exact hends

end Lexis
