import Lexis.Supply.FileLines
import Lexis.Proofs.Supply.ByteLines
import Lexis.Proofs.Supply.Pulls

/-!
# The lines of a file

An open file gives the lines of its bytes as long as they are text (`FileLines.yields`). What it
answers next is what the line behind them decodes to, so the end of the input when there is none,
and a failure when that line is no text.
-/

set_option autoImplicit false

namespace Lexis

open LineSupply (Yields)

/-- A line as it is given for the text that the line was with its terminator. -/
def givenLine (text : List Char) : String :=
  String.ofList (stripTerminator text)

/-- A feed gives the first lines of its bytes, when these are text, and holds the other lines. -/
theorem ByteFeed.yields_of_gives {fills : List Fill} {bytes : List UInt8}
    {texts : List (List Char)} {others : List (List UInt8)} (hgives : Gives fills bytes)
    (hlines : byteLines bytes = texts.map utf8 ++ others) :
    ∃ left more, Yields (⟨fills⟩ : ByteFeed) (texts.map givenLine) ⟨left⟩ ∧ Gives left more ∧
      byteLines more = others := by
  induction texts generalizing fills bytes with
  | nil => exact ⟨fills, bytes, .nil _, hgives, hlines⟩
  | cons text texts ih =>
    rw [List.map_cons, List.cons_append] at hlines
    rcases pull_of_gives hgives with ⟨hnil, _⟩ | ⟨line, later, left, hcons, hpull, hleft⟩
    · rw [hnil] at hlines
      cases hlines
    · obtain ⟨rfl, hlater⟩ := List.cons.inj (hcons.symm.trans hlines)
      have hmem : utf8 text ∈ byteLines bytes := by
        rw [hcons]
        exact List.mem_cons_self
      have hne : text ≠ [] := mt utf8_eq_nil_iff.2 (ne_nil_of_mem_cutAfter hmem)
      rw [decodeLine_utf8 hne] at hpull
      obtain ⟨left', more, hyields, hrest⟩ := ih hleft hlater
      exact ⟨left', more, .cons hpull hyields, hrest⟩

/-- The answer of a feed is what its first line decodes to. -/
theorem ByteFeed.pull_eq_decodeLine {fills : List Fill} {bytes : List UInt8}
    (h : Gives fills bytes) :
    (LineSupply.pull (⟨fills⟩ : ByteFeed)).1 = decodeLine ((byteLines bytes).headD []) := by
  rcases pull_of_gives h with ⟨hnil, hpull⟩ | ⟨line, _, _, hcons, hpull, _⟩
  · rw [hpull, hnil]
    rfl
  · rw [hpull, hcons]
    rfl

/-- A file gives the first lines of its bytes, when these are text, and answers the next line. -/
theorem FileLines.yields (path : String) {bytes : List UInt8} {texts : List (List Char)}
    {others : List (List UInt8)} (hlines : byteLines bytes = texts.map utf8 ++ others) :
    ∃ rest, Yields (⟨path, .ok (.ofBytes bytes)⟩ : FileLines) (texts.map givenLine) rest ∧
      (LineSupply.pull rest).1 = decodeLine (others.headD []) := by
  by_cases hbytes : bytes = []
  · -- the one chunk of an empty file is empty
    subst hbytes
    obtain ⟨htexts, rfl⟩ := List.append_eq_nil_iff.1 hlines.symm
    obtain rfl := List.map_eq_nil_iff.1 htexts
    have hfill : ByteSource.fill (ByteFeed.ofBytes []) = (.ok [], ⟨[]⟩) := rfl
    exact ⟨_, .nil _, congrArg Prod.fst (pullLine_of_empty hfill)⟩
  · have hgives : Gives [.bytes bytes] bytes :=
      ⟨[bytes], rfl, List.forall_mem_singleton.2 hbytes, List.append_nil bytes⟩
    obtain ⟨left, more, hyields, hleft, rfl⟩ := ByteFeed.yields_of_gives hgives hlines
    have hfile : ∀ feed : ByteFeed, LineSupply.pull (⟨path, .ok feed⟩ : FileLines) =
        ((LineSupply.pull feed).1, ⟨path, .ok (LineSupply.pull feed).2⟩) := fun _ => rfl
    refine ⟨⟨path, .ok ⟨left⟩⟩, hyields.map hfile, ?_⟩
    rw [hfile]
    exact ByteFeed.pull_eq_decodeLine hleft

end Lexis
