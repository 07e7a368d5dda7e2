import Lexis.Proofs.CommandLine.Requests
import Lexis.Proofs.Scan.Concatenation
import Lexis.Proofs.Supply.FileLines
import Lexis.Proofs.Token.Json
import Lexis.Proofs.Token.OneLine

/-!
# The report of a text

When the bytes of a file are those of a text, the command reports the tokens of the text and
nothing else. Its run gives the same tokens as the scan of the text in memory, and its scan has as
many diagnostics as there are error tokens among them (`exists_run_of_text`); the rest is how the
report is laid out (`Tells`).
-/

set_option autoImplicit false

namespace Lexis.CommandLine

/-- The number of error tokens. -/
def errorCount (tokens : List Token) : Nat :=
  tokens.countP Token.isError

theorem length_reports (tokens : List Token) : (reports tokens).length = errorCount tokens := by
  rw [reports, List.length_map, errorCount, List.countP_eq_length_filter]

theorem any_isError (tokens : List Token) :
    tokens.any Token.isError = decide (errorCount tokens ≠ 0) := by
  rw [Bool.eq_iff_iff, List.any_eq_true, decide_eq_true_iff, errorCount, ← Nat.pos_iff_ne_zero,
    List.countP_pos_iff]

/-- The summary of some tokens: their number, and the number of errors if there are any. -/
def tokenSummary (tokens : List Token) : List String :=
  ("Lexical analysis finished: " ++ Nat.repr tokens.length ++ " tokens") ::
    if errorCount tokens = 0 then []
    else [Nat.repr (errorCount tokens) ++ " lexical error(s) found"]

/-- The report tells about the tokens what the options ask for: the summary in any case, and the
tokens themselves unless it is to be quiet. Each line is printed with its newline. -/
structure Tells (options : Options) (tokens : List Token) (report : Report) : Prop where
  exit : report.exit = if errorCount tokens = 0 then 0 else 1
  text : options.format = .text →
    report.stdout = String.join
      (((if options.quiet then []
        else ("Starting lexical analysis of: " ++ options.file) ::
          "--------------------------------------------------" ::
            (tokens.map Token.display ++ ["--------------------------------------------------"])) ++
        tokenSummary tokens).map (· ++ "\n")) ∧
    report.stderr = ""
  json : options.format = .json →
    report.stdout =
      String.join ((if options.quiet then [] else tokens.map Token.toRecord).map (· ++ "\n")) ∧
    report.stderr = String.join ((tokenSummary tokens).map (· ++ "\n"))

@[simp] theorem tokenLine_text : tokenLine .text = Token.display := rfl

@[simp] theorem tokenLine_json : tokenLine .json = Token.toRecord := rfl

/-- A run to the end of the input is told about. -/
theorem tells_runReport (options : Options) (filter : LogFilter) {tokens : List Token}
    {after : Scan FileLines} (hdiagnostics : after.diagnostics.size = errorCount tokens)
    (hseen : after.errorSeen = tokens.any Token.isError) :
    Tells options tokens (runReport options filter ⟨tokens, none, after⟩) := by
  obtain ⟨file, format, verbose, quiet⟩ := options
  have hsummary : summary tokens.length after.diagnostics.size = tokenSummary tokens := by
    rw [hdiagnostics]
    rfl
  have hexit : (if after.errorSeen then 1 else 0) = if errorCount tokens = 0 then 0 else 1 := by
    rw [hseen, any_isError]
    by_cases hcount : errorCount tokens = 0 <;> simp [hcount]
  simp only [runReport, hsummary, hexit]
  cases format with
  | text =>
    refine ⟨rfl, fun _ => ⟨congrArg unlines ?_, rfl⟩, nofun⟩
    cases quiet <;> simp [header, footer, tokenLines, rule_eq]
  | json =>
    refine ⟨rfl, nofun, fun _ => ⟨congrArg unlines ?_, rfl⟩⟩
    cases quiet <;> simp [header, tokenLines]

/-! ## The run over a file with a text -/

theorem eq_utf8_of_toByteArray {text : String} {bytes : List UInt8}
    (h : bytes.toByteArray = text.toUTF8) : bytes = utf8 text.toList := by
  rw [utf8_toList, ← h, List.toList_data_toByteArray]

section
variable {text : String} {bytes : List UInt8} (hbytes : bytes.toByteArray = text.toUTF8)
include hbytes

/-- The scan of the file begins, and its run gives the tokens of the text. -/
theorem exists_run_of_text (path : String) :
    ∃ scan after : Scan FileLines,
      Scan.startFile ⟨path, .ok (.ofBytes bytes)⟩ = .ready scan ∧
        scan.run = ⟨tokensFrom 1 (textLines text), none, after⟩ ∧
        after.diagnostics.size = errorCount (tokensFrom 1 (textLines text)) ∧
        after.errorSeen = (tokensFrom 1 (textLines text)).any Token.isError := by
  -- every line of the file is text, and behind the last one the input ends
  have hlines : byteLines bytes = (pieces text.toList).map utf8 ++ [] := by
    rw [eq_utf8_of_toByteArray hbytes, byteLines_utf8, List.append_nil]
  obtain ⟨rest, hyields, hend⟩ := FileLines.yields path hlines
  obtain ⟨scan, after, hstart, hrun⟩ :=
    Scan.run_of_finished #[.fileOpened path] hyields (Prod.ext hend rfl)
  have hall : scan.allTokens = (.ok (tokensFrom 1 (textLines text)), after) := by
    rw [Scan.allTokens, hrun]
    rfl
  obtain ⟨hdiagnostics, hseen⟩ := Scan.allTokens_reports hall
  obtain ⟨hnone, hunseen⟩ := Scan.reports_start hstart
  rw [hnone, List.nil_append] at hdiagnostics
  rw [hunseen, Bool.false_or] at hseen
  refine ⟨scan, after, hstart, hrun, ?_, hseen⟩
  rw [← Array.length_toList, hdiagnostics, length_reports]

theorem Invocation.tells (call : Invocation bytes) :
    Tells call.options (tokensFrom 1 (textLines text)) call.report := by
  obtain ⟨scan, after, hstart, hrun, hdiagnostics, hseen⟩ :=
    exists_run_of_text hbytes call.options.file
  rw [call.report_of_ready hstart, hrun]
  exact tells_runReport call.options call.filter hdiagnostics hseen

/-- The command reports what is scanned. When the bytes of the file are those of a text, every
invocation tells about the tokens of the text, each of which stands on one line. So invocations
have the same exit status whatever their options are, and the same standard output when they agree
on the file, the format and whether to be quiet. -/
theorem report_of_text :
    ∃ tokens, (Scan.ofText text).allTokens.1 = .ok tokens ∧
      (∀ token ∈ tokens, '\n' ∉ token.display.toList ∧ '\n' ∉ token.toRecord.toList) ∧
      (∀ call : Invocation bytes, Tells call.options tokens call.report) ∧
      (∀ a b : Invocation bytes, a.report.exit = b.report.exit ∧
        (a.options.file = b.options.file → a.options.format = b.options.format →
          a.options.quiet = b.options.quiet →
          a.report.stdout = b.report.stdout ∧ a.report.stderr = b.report.stderr)) ∧
      ∀ (options : Options) (setting : Option String), options.file ≠ "" →
        ∃ call : Invocation bytes, call.options = options ∧ call.setting = setting := by
  have htells := Invocation.tells hbytes
  refine ⟨_, Scan.allTokens_ofText text, ?_, htells, ?_, ?_⟩
  · intro token htoken
    refine ⟨Token.newline_not_mem_display (newline_not_mem_lexeme htoken), ?_⟩
    show '\n' ∉ (String.ofList token.recordText).toList
    rw [String.toList_ofList]
    exact token.printable_recordText.newline_not_mem
  · intro a b
    refine ⟨(htells a).exit.trans (htells b).exit.symm, ?_⟩
    intro hfile hformat hquiet
    cases hshown : a.options.format with
    | text =>
      obtain ⟨hout, herr⟩ := (htells a).text hshown
      obtain ⟨hout', herr'⟩ := (htells b).text (hformat ▸ hshown)
      rw [hout, hout', herr, herr', hfile, hquiet]
      exact ⟨rfl, rfl⟩
    | json =>
      obtain ⟨hout, herr⟩ := (htells a).json hshown
      obtain ⟨hout', herr'⟩ := (htells b).json (hformat ▸ hshown)
      rw [hout, hout', herr, herr', hquiet]
      exact ⟨rfl, rfl⟩
  · intro options setting hname
    exact exists_invocation bytes hname setting

end

/-- A capitalized word and a number, of which only the summary is asked for. -/
theorem report_of_two_tokens :
    [0x58, 0x20, 0x37].toByteArray = "X 7".toUTF8 ∧
      ∃ quiet : Report, quiet = report ["a.gyh", "-q", "--format=json"] (some "trace")
          (fun _ => .file [0x58, 0x20, 0x37]) ∧
        quiet.exit = 1 ∧ quiet.stdout = "" ∧ quiet.stderr =
          "Lexical analysis finished: 3 tokens\n1 lexical error(s) found\n" := by
  have hbytes : [0x58, 0x20, 0x37].toByteArray = "X 7".toUTF8 := by decide +kernel
  obtain ⟨tokens, htokens, _, htells, _⟩ := report_of_text hbytes
  have hall : (Scan.ofText "X 7").allTokens.1 =
      .ok [⟨.error, "X", 1⟩, ⟨.literal .integer, "7", 1⟩, .eof 2] := by
    decide +kernel
  obtain rfl := Except.ok.inj (htokens.symm.trans hall)
  have hquiet := htells ⟨["a.gyh", "-q", "--format=json"], some "trace", fun _ => .file _,
    ⟨"a.gyh", .json, false, true⟩, rfl, rfl⟩
  obtain ⟨hout, herr⟩ := hquiet.json rfl
  exact ⟨hbytes, _, rfl, hquiet.exit, hout, herr.trans (by decide +kernel)⟩

end Lexis.CommandLine
