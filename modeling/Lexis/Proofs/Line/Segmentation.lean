import Lexis.Proofs.Line.Cuts

/-!
# The segmentation of a line

`Segments text start spans` says, without a word about how a line is read, what it means that the
spans are the lexemes of a line from position `start` on: each is the longest text of its class,
they lie apart and in order, and outside them there are only blanks up to a comment or the end of
the line. Every line has exactly one segmentation, and it consists of its cuts
(`segments_iff_eq_cuts`).
-/

set_option autoImplicit false

namespace Lexis

/-- The positions of a line from `start` up to but not including `stop`. -/
structure Span where
  start : Nat
  stop : Nat
  deriving DecidableEq

namespace Span

def Covers (span : Span) (i : Nat) : Prop :=
  span.start ≤ i ∧ i < span.stop

/-- The characters of a line at the positions of a span. -/
def chars (span : Span) (text : List Char) : List Char :=
  (text.drop span.start).take (span.stop - span.start)

end Span

structure Segments (text : List Char) (start : Nat) (spans : List Span) : Prop where
  bounds : ∀ span ∈ spans,
    start ≤ span.start ∧ span.start < span.stop ∧ span.stop ≤ text.length
  ordered : spans.Pairwise fun a b => a.stop ≤ b.start
  begins : ∀ span ∈ spans, ∀ c, text[span.start]? = some c → isBlank c = false ∧ c ≠ '#'
  longest : ∀ span ∈ spans, IsLongest (span.chars text) (text.drop span.start)
  /-- Up to the end of the line, or to a comment behind all spans, the rest is blank. -/
  gaps : ∃ last, start ≤ last ∧ (last = text.length ∨ text[last]? = some '#') ∧
    (∀ span ∈ spans, span.stop ≤ last) ∧
    ∀ i c, start ≤ i → i < last → text[i]? = some c → (∀ span ∈ spans, ¬ span.Covers i) →
      isBlank c = true

/-! ## Positions -/

section
variable {text blanks rest : List Char} {start : Nat}

theorem drop_add_of_drop {a b : List Char} (h : text.drop start = a ++ b) :
    text.drop (start + a.length) = b := by
  rw [← List.drop_drop, h, List.drop_left]

theorem getElem?_add_of_drop {a b : List Char} (h : text.drop start = a ++ b) :
    text[start + a.length]? = b.head? := by
  rw [← drop_add_of_drop h, List.head?_drop]

theorem length_eq_of_drop {a : List Char} (hstart : start ≤ text.length)
    (h : text.drop start = a) : text.length = start + a.length := by
  have := congrArg List.length h
  rw [List.length_drop] at this
  omega

/-- Between the start and the first character that counts there are blanks. -/
theorem isBlank_of_lt (h : text.drop start = blanks ++ rest) (hblanks : AllBlank blanks) {i : Nat}
    {c : Char} (hi : start ≤ i) (hlt : i < start + blanks.length) (hc : text[i]? = some c) :
    isBlank c = true := by
  obtain ⟨d, rfl⟩ : ∃ d, i = start + d := ⟨i - start, by omega⟩
  rw [← List.getElem?_drop, h, List.getElem?_append_left (by omega)] at hc
  exact hblanks c (List.mem_of_getElem? hc)

end

/-! ## One step of a segmentation -/

section
variable {text blanks rest : List Char} {start : Nat} {spans : List Span}

/-- The other spans segment what stands behind the first. -/
theorem Segments.tail {span : Span} (hseg : Segments text start (span :: spans)) :
    Segments text span.stop spans := by
  obtain ⟨last, _, hend, hstops, hgaps⟩ := hseg.gaps
  obtain ⟨hge, hnonempty, _⟩ := hseg.bounds span List.mem_cons_self
  have hordered := List.pairwise_cons.1 hseg.ordered
  refine ⟨fun other hother => ?_, hordered.2, fun other hother => ?_, fun other hother => ?_, last,
    hstops span List.mem_cons_self, hend, fun other hother => ?_, fun i c hi hlt hc huncovered => ?_⟩
  · exact ⟨hordered.1 other hother, (hseg.bounds other (List.mem_cons_of_mem _ hother)).2⟩
  · exact hseg.begins other (List.mem_cons_of_mem _ hother)
  · exact hseg.longest other (List.mem_cons_of_mem _ hother)
  · exact hstops other (List.mem_cons_of_mem _ hother)
  · refine hgaps i c (by omega) hlt hc (List.forall_mem_cons.2 ⟨fun hcovers => ?_, huncovered⟩)
    have := hcovers.2
    omega

/-- A longest lexeme behind some blanks comes before a segmentation of what stands behind it. -/
theorem Segments.cons {span : Span} (hstart : start ≤ span.start)
    (hnonempty : span.start < span.stop) (hstop : span.stop ≤ text.length)
    (hblank : ∀ i c, start ≤ i → i < span.start → text[i]? = some c → isBlank c = true)
    (hbegins : ∀ c, text[span.start]? = some c → isBlank c = false ∧ c ≠ '#')
    (hlongest : IsLongest (span.chars text) (text.drop span.start))
    (hseg : Segments text span.stop spans) : Segments text start (span :: spans) := by
  obtain ⟨last, hle, hend, hstops, hgaps⟩ := hseg.gaps
  refine ⟨List.forall_mem_cons.2 ⟨⟨hstart, hnonempty, hstop⟩, fun other hother => ?_⟩,
    List.pairwise_cons.2 ⟨fun other hother => (hseg.bounds other hother).1, hseg.ordered⟩,
    List.forall_mem_cons.2 ⟨hbegins, hseg.begins⟩,
    List.forall_mem_cons.2 ⟨hlongest, hseg.longest⟩,
    last, by omega, hend, List.forall_mem_cons.2 ⟨hle, hstops⟩,
    fun i c hi hlt hc huncovered => ?_⟩
  · have := hseg.bounds other hother
    exact ⟨by omega, this.2⟩
  · obtain ⟨hhead, htail⟩ := List.forall_mem_cons.1 huncovered
    by_cases hbefore : i < span.start
    · exact hblank i c hi hbefore hc
    · have hbehind : span.stop ≤ i := Nat.le_of_not_lt fun hinside => hhead ⟨by omega, hinside⟩
      exact hgaps i c hbehind hlt hc htail

/-- No span begins among the blanks. -/
theorem Segments.le_start_of_blanks (h : text.drop start = blanks ++ rest)
    (hblanks : AllBlank blanks) (hseg : Segments text start spans) :
    ∀ span ∈ spans, start + blanks.length ≤ span.start := by
  intro span hmem
  obtain ⟨hge, hnonempty, hstop⟩ := hseg.bounds span hmem
  obtain ⟨c, hc⟩ : ∃ c, text[span.start]? = some c := ⟨_, List.getElem?_eq_getElem (by omega)⟩
  by_cases hlt : span.start < start + blanks.length
  · have hblank := (hseg.begins span hmem c hc).1
    rw [isBlank_of_lt h hblanks hge hlt hc] at hblank
    cases hblank
  · omega

/-- No span covers a position in front of the first one. -/
theorem Segments.not_covers_of_lt {span : Span} {more : List Span} {i : Nat}
    (hseg : Segments text start (span :: more)) (hi : i < span.start) :
    ∀ other ∈ span :: more, ¬ other.Covers i := by
  intro other hother hcovers
  have hle := hcovers.1
  rcases List.mem_cons.1 hother with rfl | hother
  · omega
  · have h1 := (List.pairwise_cons.1 hseg.ordered).1 other hother
    have h2 := (hseg.bounds span List.mem_cons_self).2.1
    omega

variable {first : Char}

/-- The first span begins with the first character that is not blank. -/
theorem Segments.start_of_cons {span : Span} {more : List Span}
    (h : text.drop start = blanks ++ first :: rest) (hblanks : AllBlank blanks)
    (hfirst : isBlank first = false) (hseg : Segments text start (span :: more)) :
    span.start = start + blanks.length := by
  have hget : text[start + blanks.length]? = some first := getElem?_add_of_drop h
  have hge := hseg.le_start_of_blanks h hblanks span List.mem_cons_self
  by_cases heq : span.start = start + blanks.length
  · exact heq
  · -- otherwise the character is in a gap, and blank
    have hlt : start + blanks.length < span.start := by omega
    obtain ⟨last, _, _, hstops, hgaps⟩ := hseg.gaps
    have hnonempty := (hseg.bounds span List.mem_cons_self).2.1
    have hlast := hstops span List.mem_cons_self
    have hblank := hgaps _ first (by omega) (by omega) hget (hseg.not_covers_of_lt hlt)
    rw [hfirst] at hblank
    cases hblank

/-- Nothing is segmented where nothing counts. -/
theorem segments_of_idle (h : text.drop start = blanks ++ rest) (hstart : start ≤ text.length)
    (hblanks : AllBlank blanks) (hidle : Idle rest) : Segments text start spans ↔ spans = [] := by
  have hrest : text[start + blanks.length]? = rest.head? := getElem?_add_of_drop h
  have hlength : text.length = start + (blanks ++ rest).length := length_eq_of_drop hstart h
  rw [List.length_append] at hlength
  constructor
  · intro hseg
    cases spans with
    | nil => rfl
    | cons span more =>
      exfalso
      cases rest with
      | nil =>
        have hge := hseg.le_start_of_blanks h hblanks span List.mem_cons_self
        have := hseg.bounds span List.mem_cons_self
        rw [List.length_nil] at hlength
        omega
      | cons sign rest =>
        obtain rfl := hidle sign rfl
        have hbegin := hseg.start_of_cons h hblanks isBlank_comment
        rw [← hbegin] at hrest
        exact (hseg.begins span List.mem_cons_self '#' hrest).2 rfl
  · rintro rfl
    refine ⟨by simp, .nil, by simp, by simp, start + blanks.length, by omega, ?_, by simp, ?_⟩
    · cases rest with
      | nil =>
        rw [List.length_nil] at hlength
        exact .inl (by omega)
      | cons c rest =>
        obtain rfl := hidle c rfl
        exact .inr hrest
    · intro i c hi hlt hc _
      exact isBlank_of_lt h hblanks hi hlt hc

/-- The span of the lexeme `first :: body` at position `start`. -/
theorem chars_of_drop {body after : List Char} (h : text.drop start = first :: (body ++ after)) :
    Span.chars ⟨start, start + (1 + body.length)⟩ text = first :: body := by
  rw [Span.chars, h, show start + (1 + body.length) - start = (first :: body).length by
    simp only [List.length_cons]; omega, ← List.cons_append, List.take_left]

/-- Where a lexeme stands behind some blanks there is a first span. -/
theorem Segments.ne_nil_of_lexeme (h : text.drop start = blanks ++ first :: rest)
    (hstart : start ≤ text.length) (hblanks : AllBlank blanks) (hfirst : isBlank first = false)
    (hcomment : first ≠ '#') (hseg : Segments text start spans) : spans ≠ [] := by
  have hget : text[start + blanks.length]? = some first := getElem?_add_of_drop h
  have hlength := length_eq_of_drop hstart h
  rw [List.length_append, List.length_cons] at hlength
  obtain ⟨last, hle, hend, _, hgaps⟩ := hseg.gaps
  -- neither a blank nor the lexeme is the sign of a comment
  have hlast : start + blanks.length < last := by
    rcases hend with rfl | hend
    · omega
    · rcases Nat.lt_trichotomy last (start + blanks.length) with hlt | rfl | hgt
      · have := isBlank_of_lt h hblanks hle hlt hend
        rw [isBlank_comment] at this
        cases this
      · rw [hget] at hend
        exact absurd (Option.some.inj hend) hcomment
      · exact hgt
  rintro rfl
  have hblank := hgaps _ first (by omega) hlast hget (by simp)
  rw [hfirst] at hblank
  cases hblank

/-- The first span of a segmentation is the lexeme behind the first blanks. -/
theorem Segments.head_of_lexeme (h : text.drop start = blanks ++ first :: rest)
    (hstart : start ≤ text.length) (hblanks : AllBlank blanks) (hfirst : isBlank first = false)
    (hcomment : first ≠ '#') (hseg : Segments text start spans) :
    ∃ span more, spans = span :: more ∧ span.start = start + blanks.length := by
  cases spans with
  | nil => exact absurd rfl (hseg.ne_nil_of_lexeme h hstart hblanks hfirst hcomment)
  | cons span more => exact ⟨span, more, rfl, hseg.start_of_cons h hblanks hfirst⟩

/-- A segmentation goes on behind its first lexeme. -/
theorem segments_of_lexeme (h : text.drop start = blanks ++ first :: rest)
    (hstart : start ≤ text.length) (hblanks : AllBlank blanks) (hfirst : isBlank first = false)
    (hcomment : first ≠ '#') :
    Segments text start spans ↔ ∃ more, spans =
      ⟨start + blanks.length, start + blanks.length + (1 + (cutBody first rest).1.length)⟩ :: more ∧
      Segments text (start + blanks.length + (1 + (cutBody first rest).1.length)) more := by
  have hget : text[start + blanks.length]? = some first := getElem?_add_of_drop h
  have hlength := length_eq_of_drop hstart h
  have hdrop : text.drop (start + blanks.length) = first :: rest := drop_add_of_drop h
  have hcut := congrArg List.length (cutBody_append first rest)
  have hchars := chars_of_drop (hdrop.trans (congrArg _ (cutBody_append first rest).symm))
  have hlongest := isLongest_cutBody first rest
  rw [List.length_append, List.length_cons] at hlength
  rw [List.length_append] at hcut
  generalize (cutBody first rest).1 = body at *
  constructor
  · intro hseg
    obtain ⟨⟨_, stop⟩, more, rfl, rfl⟩ :=
      hseg.head_of_lexeme h hstart hblanks hfirst hcomment
    have hstop : stop ≤ text.length := (hseg.bounds _ List.mem_cons_self).2.2
    obtain rfl : stop = start + blanks.length + (1 + body.length) := by
      have hsame := (hdrop ▸ hseg.longest _ List.mem_cons_self).unique hlongest
      have := congrArg List.length hsame
      simp only [Span.chars, List.length_take, List.length_drop, List.length_cons] at this
      omega
    exact ⟨more, rfl, hseg.tail⟩
  · intro h
    obtain ⟨more, rfl, hseg⟩ := h
    refine Segments.cons (by simp only; omega) (by simp only; omega) (by simp only; omega)
      (fun i c hi hlt hc => isBlank_of_lt h hblanks hi hlt hc) (fun c hc => ?_) ?_ hseg
    · obtain rfl := Option.some.inj (hget.symm.trans hc)
      exact ⟨hfirst, hcomment⟩
    · rw [hchars]
      exact hdrop ▸ hlongest

end

/-! ## The segmentation by cuts -/

/-- The positions that a lexeme takes up. -/
def Cut.span (cut : Cut) : Span :=
  ⟨cut.start, cut.stop⟩

theorem drop_of_lexeme {text blanks rest : List Char} {start : Nat} {first : Char}
    (h : text.drop start = blanks ++ first :: rest) :
    text.drop (start + blanks.length + (1 + (cutBody first rest).1.length)) =
      (cutBody first rest).2 := by
  have hdrop : text.drop (start + blanks.length) = first :: rest := drop_add_of_drop h
  rw [← cutBody_append first rest, ← List.cons_append] at hdrop
  rw [Nat.add_comm 1]
  exact drop_add_of_drop hdrop

/-- The only segmentation of a line is the one by its cuts. -/
theorem segments_iff_eq_cuts (text : List Char) {start : Nat} (hstart : start ≤ text.length)
    (spans : List Span) :
    Segments text start spans ↔ spans = (cuts start (text.drop start)).map Cut.span := by
  generalize hahead : text.drop start = ahead
  induction ahead using line_induction generalizing start spans with
  | idle blanks rest hblanks hidle =>
    rw [segments_of_idle hahead hstart hblanks hidle, cuts_of_idle start hblanks hidle,
      List.map_nil]
  | lexeme blanks first rest hblanks hfirst hcomment ih =>
    have hlength := length_eq_of_drop hstart hahead
    have hcut := congrArg List.length (cutBody_append first rest)
    rw [List.length_append, List.length_cons] at hlength
    rw [List.length_append] at hcut
    rw [segments_of_lexeme hahead hstart hblanks hfirst hcomment,
      cuts_of_lexeme start hblanks hfirst hcomment, List.map_cons]
    have hspan : Cut.span ⟨start + blanks.length, first, (cutBody first rest).1⟩ =
        ⟨start + blanks.length, start + blanks.length + (1 + (cutBody first rest).1.length)⟩ := by
      simp only [Cut.span, Cut.stop, Cut.source, List.length_cons, Nat.add_comm 1]
    rw [hspan]
    constructor
    · intro h
      obtain ⟨more, rfl, hmore⟩ := h
      rw [(ih (by omega) more (drop_of_lexeme hahead)).1 hmore]
    · rintro rfl
      exact ⟨_, rfl, (ih (by omega) _ (drop_of_lexeme hahead)).2 rfl⟩

/-- The characters at the positions of a cut are its source. -/
theorem chars_span_of_mem_cuts {text : List Char} {start : Nat} {cut : Cut}
    (h : cut ∈ cuts start (text.drop start)) : cut.span.chars text = cut.source := by
  generalize hahead : text.drop start = ahead at h
  induction ahead using line_induction generalizing start with
  | idle blanks rest hblanks hidle =>
    rw [cuts_of_idle start hblanks hidle] at h
    cases h
  | lexeme blanks first rest hblanks hfirst hcomment ih =>
    rw [cuts_of_lexeme start hblanks hfirst hcomment] at h
    rcases List.mem_cons.1 h with rfl | h
    · have hdrop : text.drop (start + blanks.length) = first :: rest := drop_add_of_drop hahead
      have := chars_of_drop (hdrop.trans (congrArg _ (cutBody_append first rest).symm))
      rw [← Nat.add_comm _ 1] at this
      exact this
    · exact ih (drop_of_lexeme hahead) h

end Lexis
