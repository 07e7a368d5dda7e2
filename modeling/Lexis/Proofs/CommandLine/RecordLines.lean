import Mathlib.Data.List.Forall2
import Lexis.Proofs.CommandLine.TextReport

/-!
# Records, line by line

As JSON the command prints one record for each token and nothing else. What it has printed can be
cut at the newlines again (`pieces_unlines`), since no record has one within, and each piece is read
as the token it was written for, with the fingerprint of its lexeme (`IsRecord`).
-/

set_option autoImplicit false

namespace Lexis.CommandLine

/-- The lines that were written out are the pieces of what was written. -/
theorem pieces_unlines {lines : List String} (h : ∀ line ∈ lines, '\n' ∉ line.toList) :
    pieces (unlines lines).toList = lines.map (·.toList ++ ['\n']) := by
  induction lines with
  | nil => rfl
  | cons line lines ih =>
    obtain ⟨hline, hlines⟩ := List.forall_mem_cons.1 h
    have hsplit : (unlines (line :: lines)).toList =
        line.toList ++ '\n' :: (unlines lines).toList := by
      simp [unlines]
    rw [hsplit, pieces_append_newline hline, ih hlines, List.map_cons]

/-- The text is read as the token, with a newline behind it or without, and as an object in which
the fingerprint is that of the lexeme. -/
structure IsRecord (record : List Char) (token : Token) : Prop where
  read : Token.ofJson (.ofList record) = .ok token
  readLine : Token.ofJson (.ofList (record ++ ['\n'])) = .ok token
  fingerprint : ∃ members value, Json.readObject record = some members ∧
    members.lookup "fingerprint" = some value ∧
    Json.readInteger value = some (fingerprint token.lexeme).toInt

theorem isRecord_recordText (token : Token) (hline : token.line ≤ Json.maxNatural) :
    IsRecord token.recordText token where
  read := by
    have hread : Token.ofJson (.ofList (token.recordText ++ [])) = .ok token :=
      token.ofJson_recordText hline nofun
    rw [List.append_nil] at hread
    exact hread
  readLine := token.ofJson_recordText hline (List.forall_mem_singleton.2 rfl)
  fingerprint :=
    ⟨_, _, token.readObject_recordText, rfl, Json.readInteger_integer token.fingerprint.toInt⟩

/-- The lines of a text that fits into a file are counted within 64 bits. -/
theorem line_le_maxNatural {text : String} {bytes : List UInt8}
    (hbytes : bytes.toByteArray = text.toUTF8) (hsize : bytes.length < Json.maxNatural)
    {token : Token} (h : token ∈ tokensFrom 1 (textLines text)) : token.line ≤ Json.maxNatural := by
  have hline := line_le_of_mem_tokensFrom h
  have hlines := length_textLines_le text
  have hchars : text.toList.length ≤ bytes.length := by
    have hlength := length_le_size_utf8Encode text.toList
    rw [← toByteArray_utf8, ← eq_utf8_of_toByteArray hbytes, List.size_toByteArray] at hlength
    exact hlength
  omega

/-- What is printed as JSON can be read back. The file has the bytes of a text, fewer than 2^64
minus 1 as every file has, so that the line of every token is below 2^64. Then the standard output,
cut after each newline, is one record for each token in the order of the tokens. -/
theorem records_of_text {text : String} {bytes : List UInt8}
    (hbytes : bytes.toByteArray = text.toUTF8) (hsize : bytes.length < Json.maxNatural) :
    ∃ tokens, (Scan.ofText text).allTokens.1 = .ok tokens ∧
      ∀ call : Invocation bytes, call.options.format = .json → call.options.quiet = false →
        ∃ records : List (List Char),
          pieces call.report.stdout.toList = records.map (· ++ ['\n']) ∧
          (∀ record ∈ records, '\n' ∉ record) ∧ List.Forall₂ IsRecord records tokens := by
  refine ⟨_, Scan.allTokens_ofText text, fun call hformat hquiet => ?_⟩
  generalize htokens : tokensFrom 1 (textLines text) = tokens
  have hout : call.report.stdout = unlines (tokens.map Token.toRecord) := by
    rw [((call.tells hbytes).json hformat).1, hquiet, htokens]
    rfl
  have hrecord : ∀ token : Token, token.toRecord.toList = token.recordText :=
    fun _ => String.toList_ofList
  refine ⟨tokens.map Token.recordText, ?_, ?_, ?_⟩
  · rw [hout, pieces_unlines, List.map_map, List.map_map]
    · refine List.map_congr_left fun token _ => ?_
      rw [Function.comp_apply, Function.comp_apply, hrecord]
    · intro line hmem
      obtain ⟨token, _, rfl⟩ := List.mem_map.1 hmem
      rw [hrecord]
      exact token.printable_recordText.newline_not_mem
  · intro record hmem
    obtain ⟨token, _, rfl⟩ := List.mem_map.1 hmem
    exact token.printable_recordText.newline_not_mem
  · rw [List.forall₂_map_left_iff, List.forall₂_same]
    intro token hmem
    exact isRecord_recordText token (line_le_maxNatural hbytes hsize (htokens ▸ hmem))

/-- A tab between quotes. -/
theorem records_of_tab :
    [0x22, 0x09, 0x22].toByteArray = "\"\t\"".toUTF8 ∧
      [0x22, 0x09, 0x22].length < Json.maxNatural ∧
      ∃ first last,
        pieces (report ["--format=json", "a.gyh"] none
          (fun _ => .file [0x22, 0x09, 0x22])).stdout.toList = [first ++ ['\n'], last ++ ['\n']] ∧
        Token.ofJson (.ofList first) = .ok ⟨.literal .string, "\t", 1⟩ ∧
        Token.ofJson (.ofList last) = .ok (.eof 2) := by
  have hbytes : [0x22, 0x09, 0x22].toByteArray = "\"\t\"".toUTF8 := by decide +kernel
  have hsize : [0x22, 0x09, 0x22].length < Json.maxNatural := by decide
  obtain ⟨tokens, htokens, hprinted⟩ := records_of_text hbytes hsize
  have hall : (Scan.ofText "\"\t\"").allTokens.1 =
      .ok [⟨.literal .string, "\t", 1⟩, .eof 2] := by
    decide +kernel
  obtain rfl := Except.ok.inj (htokens.symm.trans hall)
  obtain ⟨records, hpieces, _, hrecords⟩ := hprinted ⟨["--format=json", "a.gyh"], none,
    fun _ => .file _, ⟨"a.gyh", .json, false, false⟩, rfl, rfl⟩ rfl rfl
  cases hrecords with
  | cons hfirst hmore =>
    cases hmore with
    | cons hlast hnone =>
      cases hnone
      exact ⟨hbytes, hsize, _, _, hpieces, hfirst.read, hlast.read⟩

end Lexis.CommandLine
