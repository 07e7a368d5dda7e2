import Lexis.CommandLine.Report
import Lexis.Proofs.Token.OneLine

/-!
# The text form of a token, read back

The lexeme stands in the text form as it is, so it may hold quotes, commas and whatever looks like
the end of the form. Still the form tells all about the token. No name of a kind holds a comma, so
the name ends at the first one; and behind the closing quote there are only words and numbers
(`quote_not_mem_displayEnd`), so the closing quote is the last one of the text, whatever quotes the
lexeme holds (`readDisplay_display`). A text is read as a token when it is the text form of that
token (`ofDisplay?_eq_some_iff`).
-/

set_option autoImplicit false

namespace Lexis

open Json (natural integer)

/-! ## The last quote -/

/-- What stands before and behind the last `c`. -/
def splitLast (c : Char) : List Char → Option (List Char × List Char)
  | [] => none
  | d :: text =>
    match splitLast c text with
    | some (before, behind) => some (d :: before, behind)
    | none => if d = c then some ([], text) else none

theorem splitLast_of_not_mem {c : Char} {text : List Char} (h : c ∉ text) :
    splitLast c text = none := by
  induction text with
  | nil => rfl
  | cons d text ih =>
    obtain ⟨hd, htext⟩ := not_or.1 (mt List.mem_cons.2 h)
    rw [splitLast, ih htext]
    exact if_neg (Ne.symm hd)

theorem splitLast_append {c : Char} {behind : List Char} (h : c ∉ behind) (before : List Char) :
    splitLast c (before ++ c :: behind) = some (before, behind) := by
  induction before with
  | nil =>
    rw [List.nil_append, splitLast, splitLast_of_not_mem h]
    exact if_pos rfl
  | cons d before ih => rw [List.cons_append, splitLast, ih]

namespace Token

/-! ## The parts of the form -/

/-- What the text form has behind the closing quote. -/
def displayEnd (token : Token) : String :=
  ", line: " ++ Nat.repr token.line ++ ", fingerprint: " ++ Int.repr token.fingerprint.toInt ++ ">"

theorem toList_displayEnd (token : Token) :
    token.displayEnd.toList = ", line: ".toList ++ (natural token.line ++
      (", fingerprint: ".toList ++ (integer token.fingerprint.toInt ++ ">".toList))) := by
  have hnumber : (Nat.repr token.line).toList = natural token.line := Nat.toList_repr
  simp only [displayEnd, String.toList_append, toList_repr_int, hnumber, List.append_assoc]

theorem toList_display (token : Token) :
    token.display.toList = "<".toList ++ (token.kind.name.toList ++ (", \"".toList ++
      (token.lexeme.toList ++ '"' :: token.displayEnd.toList))) := by
  have hclosing : "\", line: ".toList = '"' :: ", line: ".toList := by decide +kernel
  simp only [display, displayEnd, String.toList_append, List.append_assoc, hclosing,
    List.cons_append]

theorem comma_not_mem_name (kind : Kind) : ',' ∉ kind.name.toList := by
  have hall : ∀ kind ∈ Kind.all, ',' ∉ kind.name.toList := by decide +kernel
  exact hall kind kind.mem_all

theorem quote_not_mem_natural (n : Nat) : '"' ∉ natural n :=
  fun hmem => absurd (Json.isDigit_of_mem_natural hmem) (by decide)

theorem quote_not_mem_integer (i : Int) : '"' ∉ integer i := by
  unfold integer
  split
  · exact List.not_mem_cons_of_ne_of_not_mem (by decide) (quote_not_mem_natural _)
  · exact quote_not_mem_natural _

theorem quote_not_mem_displayEnd (token : Token) : '"' ∉ token.displayEnd.toList := by
  have hline := quote_not_mem_natural token.line
  have hfingerprint := quote_not_mem_integer token.fingerprint.toInt
  simp only [toList_displayEnd, List.mem_append, hline, hfingerprint, false_or]
  decide +kernel

/-! ## Reading the form -/

/-- The token of a text form. Of another text anything may be read. -/
def readDisplay (text : List Char) : Option Token :=
  -- behind the bracket, and behind the comma, the blank and the opening quote
  let opened := text.drop 1
  let name := opened.takeWhile (· ≠ ',')
  match Kind.ofName? (.ofList name), splitLast '"' (opened.drop (name.length + 3)) with
  | some kind, some (lexeme, behind) =>
    -- the digits behind ", line: "
    let digits := (behind.drop 8).takeWhile Char.isDigit
    some ⟨kind, .ofList lexeme, Json.digitsValue digits⟩
  | _, _ => none

/-- The token whose text form the text is. -/
def ofDisplay? (text : String) : Option Token :=
  (readDisplay text.toList).filter fun token => token.display == text

theorem takeWhile_name (kind : Kind) (rest : List Char) :
    (kind.name.toList ++ (", \"".toList ++ rest)).takeWhile (· ≠ ',') = kind.name.toList := by
  have hname : ∀ c ∈ kind.name.toList, decide (c ≠ ',') = true := by
    intro c hc
    exact decide_eq_true fun hcomma => comma_not_mem_name kind (hcomma ▸ hc)
  rw [List.takeWhile_append_of_pos hname]
  exact List.append_nil _

theorem takeWhile_line (token : Token) :
    (token.displayEnd.toList.drop 8).takeWhile Char.isDigit = natural token.line := by
  have hdrop : ∀ rest, (", line: ".toList ++ rest).drop 8 = rest := fun _ => rfl
  rw [toList_displayEnd, hdrop,
    List.takeWhile_append_of_pos fun c hc => Json.isDigit_of_mem_natural hc]
  exact List.append_nil _

theorem readDisplay_display (token : Token) : readDisplay token.display.toList = some token := by
  have hdrop : ∀ rest, ("<".toList ++ rest).drop 1 = rest := fun _ => rfl
  have hbody : ∀ rest, (token.kind.name.toList ++ (", \"".toList ++ rest)).drop
      (token.kind.name.toList.length + 3) = rest := by
    intro rest
    rw [← List.drop_drop, List.drop_left]
    rfl
  rw [toList_display, readDisplay]
  simp only [hdrop, takeWhile_name, hbody, String.ofList_toList, Kind.ofName?_name,
    splitLast_append token.quote_not_mem_displayEnd, takeWhile_line, Json.digitsValue_natural]

/-- A text is read as the token of which it is the text form, and as no other. -/
theorem ofDisplay?_eq_some_iff {text : String} {token : Token} :
    ofDisplay? text = some token ↔ token.display = text := by
  rw [ofDisplay?, Option.filter_eq_some_iff, beq_iff_eq]
  constructor
  · exact And.right
  · rintro rfl
    exact ⟨token.readDisplay_display, rfl⟩

open CommandLine

/-- The lines that are printed for tokens are read as these tokens. -/
theorem ofDisplay?_tokenLines {options : Options} (hformat : options.format = .text)
    (hquiet : options.quiet = false) (tokens : List Token) :
    (tokenLines options tokens).map ofDisplay? = tokens.map some := by
  have hread : ∀ token : Token, ofDisplay? (tokenLine .text token) = some token :=
    fun _ => ofDisplay?_eq_some_iff.2 rfl
  rw [tokenLines, hformat, hquiet, if_neg Bool.false_ne_true, List.map_map]
  refine List.map_congr_left fun token _ => ?_
  rw [Function.comp_apply, hread]

/-- The lines in front of the tokens. -/
theorem header_text {options : Options} (hformat : options.format = .text)
    (hquiet : options.quiet = false) :
    header options = ["Starting lexical analysis of: " ++ options.file,
      "--------------------------------------------------"] := by
  simp [header, hformat, hquiet, rule_eq]

/-- Tokens with one text form are one token, whatever their lexemes are, and the token of a text
form can be found. So each of the lines that a report in this format prints behind its two first
ones, one for each token of the run, gives its token back. -/
theorem display_unambiguous :
    (∀ a b : Token, a.display = b.display ↔ a = b) ∧
    (∀ (text : String) (token : Token), ofDisplay? text = some token ↔ token.display = text) ∧
    ∀ (options : Options) (filter : LogFilter) (run : Scan.Run FileLines),
      options.format = .text → options.quiet = false →
        ∃ lines more : List String,
          (runReport options filter run).stdout = String.join
            ((("Starting lexical analysis of: " ++ options.file) ::
              "--------------------------------------------------" ::
                (lines ++ more)).map (· ++ "\n")) ∧
            lines.map ofDisplay? = run.tokens.map some := by
  refine ⟨?_, fun _ _ => ofDisplay?_eq_some_iff, ?_⟩
  · intro a b
    refine ⟨fun hsame => ?_, fun hsame => hsame ▸ rfl⟩
    have hread := ofDisplay?_eq_some_iff.2 hsame
    rw [ofDisplay?_eq_some_iff.2 rfl] at hread
    exact (Option.some.inj hread).symm
  · intro options filter run hformat hquiet
    have hlines := ofDisplay?_tokenLines hformat hquiet run.tokens
    have hheader := header_text hformat hquiet
    cases hfailure : run.failure with
    | some error =>
      refine ⟨_, [], ?_, hlines⟩
      simp only [runReport, hfailure, failureReport, hheader, List.append_nil]
      rfl
    | none =>
      refine ⟨_, footer options ++ summary run.tokens.length run.scan.diagnostics.size, ?_, hlines⟩
      simp only [runReport, hfailure, hformat, hheader, List.append_assoc]
      rfl

/-- A string that is not closed, in which stands what looks like the end of the form. -/
theorem display_unambiguous_imitation :
    ∃ scan : Scan FileLines,
      scan = .onFirstLine ⟨"a.gyh", .ok (.ofBytes [])⟩ (some "\", line: 1, fingerprint: 0>") #[] ∧
      ∃ first last more,
        (runReport ⟨"a.gyh", .text, false, false⟩ (.choose none false) scan.run).stdout =
          String.join (("Starting lexical analysis of: a.gyh" ::
            "--------------------------------------------------" ::
              ([first, last] ++ more)).map (· ++ "\n")) ∧
        ofDisplay? first = some ⟨.error, "\", line: 1, fingerprint: 0>", 1⟩ ∧
        ofDisplay? last = some (.eof 2) := by
  refine ⟨_, rfl, ?_⟩
  generalize hscan : Scan.onFirstLine _ _ _ = scan
  have htokens : scan.run.tokens = [⟨.error, "\", line: 1, fingerprint: 0>", 1⟩, .eof 2] := by
    rw [← hscan]
    decide +kernel
  obtain ⟨_, _, hreport⟩ := display_unambiguous
  obtain ⟨lines, more, hout, hread⟩ :=
    hreport ⟨"a.gyh", .text, false, false⟩ (.choose none false) scan.run rfl rfl
  rw [htokens] at hread
  obtain ⟨first, others, rfl, hfirst, hothers⟩ := List.map_eq_cons_iff.1 hread
  obtain ⟨last, rest, rfl, hlast, hnone⟩ := List.map_eq_cons_iff.1 hothers
  obtain rfl := List.map_eq_nil_iff.1 hnone
  exact ⟨first, last, more, hout, hfirst, hlast⟩

end Token

end Lexis
