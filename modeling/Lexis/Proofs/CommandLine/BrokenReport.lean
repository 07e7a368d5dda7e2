import Lexis.Proofs.CommandLine.Requests
import Lexis.Proofs.Json.Numeral
import Lexis.Proofs.Scan.TextRun
import Lexis.Proofs.Supply.FileLines

/-!
# The report of a file with a line that is no text

When some line of a file is no text, the command stops at the first such line. What has been read
before it is shown, if tokens are to be shown at all (`shownBefore`), and nothing that would belong
to the end of a scan (`BreaksOff`). The lines before the bad one make a text by themselves, of
which the command shows the tokens without the end token (`report_of_broken_line`).
-/

set_option autoImplicit false

namespace Lexis.CommandLine

/-! ## Lines that are no summary -/

/-- The line begins as the lines of a summary do, with a capital L or a digit. -/
def beginsSummary (line : String) : Bool :=
  line.toList.head?.any fun c => c = 'L' || c.isDigit

theorem beginsSummary_append {first : String} (h : first.toList ≠ []) (second : String) :
    beginsSummary (first ++ second) = beginsSummary first := by
  rw [beginsSummary, String.toList_append, List.head?_append_of_ne_nil _ h, beginsSummary]

theorem beginsSummary_finished (tokens : Nat) :
    beginsSummary ("Lexical analysis finished: " ++ Nat.repr tokens ++ " tokens") = true := by
  rw [String.append_assoc, beginsSummary_append (by decide)]
  decide

theorem beginsSummary_found (errors : Nat) :
    beginsSummary (Nat.repr errors ++ " lexical error(s) found") = true := by
  obtain ⟨first, others, hsplit, hdigit⟩ := Json.exists_natural_eq_cons errors
  have hrepr : (Nat.repr errors).toList = first :: others := Nat.toList_repr.trans hsplit
  rw [beginsSummary_append (by simp [hrepr]), beginsSummary, hrepr]
  simp [hdigit]

theorem beginsSummary_logLine (event : Event) : beginsSummary (logLine event) = false := by
  have hlevel : (showLevel event.level).toList ≠ [] ∧
      beginsSummary (showLevel event.level) = false := by
    cases event.level <;> decide
  unfold logLine
  simp only [String.append_assoc]
  rw [beginsSummary_append hlevel.1]
  exact hlevel.2

theorem beginsSummary_tokenLine (format : Format) (token : Token) :
    beginsSummary (tokenLine format token) = false := by
  cases format with
  | text =>
    show beginsSummary token.display = false
    unfold Token.display
    simp only [String.append_assoc]
    rw [beginsSummary_append (by decide)]
    decide
  | json =>
    show beginsSummary (String.ofList token.recordText) = false
    rw [beginsSummary, String.toList_ofList]
    rfl

/-! ## What is shown -/

/-- What is shown of a file whose first lines are `good` and have the tokens `body`, before the
first line that is no text. -/
def shownBefore (options : Options) (good : List (List UInt8)) (body : List Token) : List String :=
  if options.quiet ∨ good = [] then []
  else
    match options.format with
    | .text =>
      ("Starting lexical analysis of: " ++ options.file) ::
        "--------------------------------------------------" :: body.map Token.display
    | .json => body.map Token.toRecord

/-- What is said about a file with a line that is no text. -/
def brokenNotice (options : Options) : String :=
  "Error: failed to read '" ++ options.file ++
    "': I/O error: stream did not contain valid UTF-8: stream did not contain valid UTF-8"

theorem failureLine_notText (options : Options) :
    failureLine options .notText = brokenNotice options := by
  have hend : "': " ++ (IoError.notText.message ++ (": " ++ IoError.notText.text)) =
      "': I/O error: stream did not contain valid UTF-8: stream did not contain valid UTF-8" := by
    decide +kernel
  unfold failureLine brokenNotice
  simp only [String.append_assoc, hend]

theorem beginsSummary_brokenNotice (options : Options) :
    beginsSummary (brokenNotice options) = false := by
  unfold brokenNotice
  rw [String.append_assoc, beginsSummary_append (by decide)]
  decide

/-- The report shows some lines, each printed with its newline, says that the file cannot be read,
and has no line of a summary. -/
structure BreaksOff (options : Options) (shown : List String) (report : Report) : Prop where
  exit : report.exit = 2
  stdout : report.stdout = String.join (shown.map (· ++ "\n"))
  stderr : report.stderr = brokenNotice options ++ "\n"
  noSummary : ∀ tokens errors : Nat, ∀ line ∈ shown ++ brokenNotice options :: report.log,
    line ≠ "Lexical analysis finished: " ++ Nat.repr tokens ++ " tokens" ∧
      line ≠ Nat.repr errors ++ " lexical error(s) found"

theorem breaksOff_failureReport (options : Options) (filter : LogFilter) {shown : List String}
    (hshown : ∀ line ∈ shown, beginsSummary line = false) (events : Array Event) :
    BreaksOff options shown (failureReport options filter shown .notText events) where
  exit := rfl
  stdout := rfl
  stderr := by
    rw [← failureLine_notText]
    exact String.empty_append
  noSummary := by
    intro tokens errors line hmem
    have hbegins : beginsSummary line = false := by
      rcases List.mem_append.1 hmem with hmem | hmem
      · exact hshown line hmem
      · rcases List.mem_cons.1 hmem with rfl | hmem
        · exact beginsSummary_brokenNotice options
        · obtain ⟨event, _, rfl⟩ := List.mem_map.1 hmem
          exact beginsSummary_logLine event
    constructor
    · rintro rfl
      rw [beginsSummary_finished] at hbegins
      cases hbegins
    · rintro rfl
      rw [beginsSummary_found] at hbegins
      cases hbegins

/-- What a run has shown before the failure. -/
theorem shownBefore_eq {options : Options} {good : List (List UInt8)} (hgood : good ≠ [])
    (body : List Token) :
    header options ++ tokenLines options body = shownBefore options good body := by
  obtain ⟨file, format, verbose, quiet⟩ := options
  cases format <;> cases quiet <;> simp [shownBefore, header, tokenLines, tokenLine, rule_eq, hgood]

theorem beginsSummary_of_mem_shownBefore {options : Options} {good : List (List UInt8)}
    {body : List Token} {line : String} (h : line ∈ shownBefore options good body) :
    beginsSummary line = false := by
  have htokens : ∀ format, line ∈ body.map (tokenLine format) → beginsSummary line = false := by
    intro format hmem
    obtain ⟨token, _, rfl⟩ := List.mem_map.1 hmem
    exact beginsSummary_tokenLine format token
  unfold shownBefore at h
  split at h
  · cases h
  · split at h
    · rcases List.mem_cons.1 h with rfl | h
      · rw [beginsSummary_append (by decide)]
        decide
      · rcases List.mem_cons.1 h with rfl | h
        · decide
        · exact htokens .text h
    · exact htokens .json h

/-! ## The first bad line -/

theorem exists_first_not_text {lines : List (List UInt8)} (h : ∃ line ∈ lines, ¬ IsText line) :
    ∃ good bad others, lines = good ++ bad :: others ∧ (∀ line ∈ good, IsText line) ∧
      ¬ IsText bad := by
  induction lines with
  | nil =>
    obtain ⟨line, hline, _⟩ := h
    cases hline
  | cons first lines ih =>
    by_cases hfirst : IsText first
    · have hmore : ∃ line ∈ lines, ¬ IsText line := by
        obtain ⟨line, hline, hnot⟩ := h
        rcases List.mem_cons.1 hline with rfl | hline
        · exact absurd hfirst hnot
        · exact ⟨line, hline, hnot⟩
      obtain ⟨good, bad, others, rfl, hgood, hbad⟩ := ih hmore
      exact ⟨first :: good, bad, others, rfl, List.forall_mem_cons.2 ⟨hfirst, hgood⟩, hbad⟩
    · exact ⟨[], first, lines, rfl, nofun, hfirst⟩

section
variable {bytes bad : List UInt8} {good others : List (List UInt8)} {texts : List (List Char)}
  (hlines : byteLines bytes = good ++ bad :: others) (htexts : texts.map utf8 = good)
  (hbad : ¬ IsText bad)
include hlines htexts hbad

/-- The scan of the file fails at its start when the first line is bad, and otherwise runs over the
lines before the bad one. -/
theorem Invocation.report_of_broken_lines (call : Invocation bytes) :
    ∃ events, call.report = failureReport call.options call.filter
      (shownBefore call.options good (bodyTokens 1 (texts.map givenLine))) .notText events := by
  rw [← htexts] at hlines
  -- the file gives the good lines, and answers the bad one with a failure
  obtain ⟨rest, hyields, hend⟩ := FileLines.yields call.options.file hlines
  rw [List.headD_cons, decodeLine_of_not_isText hbad] at hend
  cases texts with
  | nil =>
    cases hyields with
    | nil =>
      -- the first line is bad, and the scan does not begin
      obtain rfl : [] = good := htexts
      have hstart : Scan.startFile call.lines = .failed .notText
          (LineSupply.pull call.lines).2 #[.fileOpened call.options.file] :=
        Scan.start_of_failed _ (Prod.ext hend rfl)
      refine ⟨#[.fileOpened call.options.file], ?_⟩
      rw [call.report_of_failed hstart, shownBefore, if_pos (.inr rfl)]
  | cons text texts =>
    have hne : good ≠ [] := by
      rw [← htexts]
      exact List.cons_ne_nil _ _
    obtain ⟨scan, after, hstart, hrun⟩ :=
      Scan.run_of_failed #[.fileOpened call.options.file] hyields (Prod.ext hend rfl)
    refine ⟨after.events, ?_⟩
    rw [call.report_of_ready hstart, hrun, ← shownBefore_eq hne]
    rfl

end

/-- When some line of a file is no text, the command stops at the first such line. The lines before
it are the bytes of a text; whatever the options are, the status is 2 and the tokens of this text
are shown, but not its end token, and no summary. -/
theorem report_of_broken_line {bytes : List UInt8} (h : ∃ line ∈ byteLines bytes, ¬ IsText line) :
    ∃ good bad others text body last,
      byteLines bytes = good ++ bad :: others ∧ (∀ line ∈ good, IsText line) ∧ ¬ IsText bad ∧
      good.flatten.toByteArray = text.toUTF8 ∧
      (Scan.ofText text).allTokens.1 = .ok (body ++ [.eof last]) ∧
      (∀ token ∈ body, token.isEof = false) ∧
      (∀ call : Invocation bytes,
        BreaksOff call.options (shownBefore call.options good body) call.report) ∧
      ∀ (options : Options) (setting : Option String), options.file ≠ "" →
        ∃ call : Invocation bytes, call.options = options ∧ call.setting = setting := by
  obtain ⟨good, bad, others, hlines, hgood, hbad⟩ := exists_first_not_text h
  obtain ⟨text, hbytes, hpieces⟩ := exists_text_of_first_lines hlines hgood
  have htextLines : textLines (String.ofList text) = (pieces text).map givenLine := by
    rw [textLines, String.toList_ofList]
    rfl
  refine ⟨good, bad, others, String.ofList text,
    bodyTokens 1 (textLines (String.ofList text)), 1 + (textLines (String.ofList text)).length,
    hlines, hgood, hbad, ?_, ?_, fun _ => isEof_of_mem_bodyTokens, fun call => ?_,
    fun options setting hname => exists_invocation bytes hname setting⟩
  · rw [← hbytes]
    rfl
  · rw [Scan.allTokens_ofText, tokensFrom_eq]
  · obtain ⟨events, hreport⟩ := call.report_of_broken_lines hlines hpieces hbad
    rw [hreport, htextLines]
    exact breaksOff_failureReport _ _ (fun _ => beginsSummary_of_mem_shownBefore) events

/-- A byte that no text has, between two words. -/
def brokenBytes : List UInt8 :=
  [0x58, 0x0A, 0xFF, 0x0A, 0x37]

theorem report_of_broken_second_line :
    (∃ line ∈ byteLines brokenBytes, ¬ IsText line) ∧
      ∃ broken : Report,
        broken = report ["--format=json", "a.gyh"] none (fun _ => .file brokenBytes) ∧
        broken.exit = 2 ∧ broken.stdout = Token.toRecord ⟨.error, "X", 1⟩ ++ "\n" ∧
        broken.stderr = "Error: failed to read 'a.gyh': I/O error: " ++
          "stream did not contain valid UTF-8: stream did not contain valid UTF-8\n" := by
  have hlines : byteLines brokenBytes = [[0x58, 0x0A], [0xFF, 0x0A], [0x37]] := by decide
  have hfirst : IsText [0x58, 0x0A] := by decide +kernel
  have hsecond : ¬ IsText [0xFF, 0x0A] := by decide +kernel
  have hbroken : ∃ line ∈ byteLines brokenBytes, ¬ IsText line := by
    rw [hlines]
    exact ⟨[0xFF, 0x0A], by simp, hsecond⟩
  obtain ⟨good, bad, others, text, body, last, hsplit, hgood, hbad, hbytes, htokens, _, hreports,
    _⟩ := report_of_broken_line hbroken
  obtain rfl : good = [[0x58, 0x0A]] := by
    rw [hlines] at hsplit
    cases good with
    | nil =>
      obtain ⟨rfl, _⟩ := List.cons.inj hsplit
      exact absurd hfirst hbad
    | cons first good =>
      obtain ⟨rfl, hrest⟩ := List.cons.inj hsplit
      cases good with
      | nil => rfl
      | cons second good =>
        obtain ⟨rfl, _⟩ := List.cons.inj hrest
        exact absurd (hgood _ (by simp)) hsecond
  obtain rfl : text = "X\n" := by
    apply String.toByteArray_inj.1
    rw [← String.toUTF8_eq_toByteArray, ← hbytes]
    decide +kernel
  have hall : (Scan.ofText "X\n").allTokens.1 = .ok ([⟨.error, "X", 1⟩] ++ [.eof 2]) := by
    decide +kernel
  obtain ⟨rfl, _⟩ := List.append_inj' (Except.ok.inj (htokens.symm.trans hall)) rfl
  have hreport := hreports ⟨["--format=json", "a.gyh"], none, fun _ => .file brokenBytes,
    ⟨"a.gyh", .json, false, false⟩, rfl, rfl⟩
  exact ⟨hbroken, _, rfl, hreport.exit, hreport.stdout.trans String.empty_append,
    hreport.stderr.trans (by decide +kernel)⟩

end Lexis.CommandLine
