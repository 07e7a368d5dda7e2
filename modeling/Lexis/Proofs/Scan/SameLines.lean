import Lexis.Proofs.Scan.Retry
import Lexis.Proofs.Scan.TextRun
import Lexis.Proofs.Supply.Chunks

/-!
# Scans over the same lines

Two supplies may keep their lines in different ways; if they give the same lines, no sequence of
calls can tell their scans apart (`Alike.session`). That is a case of supplies with failures in
between, where there are none (`SameLines.interrupts`).

A text in memory and the bytes of the text in any chunks give the same lines (`sameLines_chunks`),
so their scans are alike (`session_of_chunks`).
-/

set_option autoImplicit false

namespace Lexis

namespace Scan

variable {σ τ : Type} {R : σ → τ → Prop} {a : Scan σ} {b : Scan τ}

/-- Scans that look the same over supplies with the same lines. -/
structure Alike (R : σ → τ → Prop) (a : Scan σ) (b : Scan τ) : Prop where
  view : a.view = b.view
  supply : a.cursor ≠ none → R a.supply b.supply

theorem Alike.abreast (h : Alike R a b) :
    Abreast (fun errors s t => errors = [] ∧ R s t) [] a b :=
  .of_view h.view (fun hcursor => ⟨rfl, h.supply hcursor⟩) fun _ => rfl

variable [LineSupply σ] [LineSupply τ]

/-- By `R s t` both supplies give the same lines, without a failure. -/
def SameLines (R : σ → τ → Prop) : Prop :=
  ∀ s t, R s t →
    (∃ text s' t', LineSupply.pull s = (.line text, s') ∧ LineSupply.pull t = (.line text, t') ∧
      R s' t') ∨
    ∃ s' t', LineSupply.pull s = (.finished, s') ∧ LineSupply.pull t = (.finished, t')

theorem SameLines.interrupts (hR : SameLines R) :
    Interrupts fun errors s t => errors = [] ∧ R s t where
  line := by
    intro errors s t text s' hrelated hpull
    obtain ⟨herrors, hst⟩ := hrelated
    rcases hR s t hst with ⟨_, s'', t', hs, ht, hst'⟩ | ⟨_, _, hs, _⟩
    · obtain ⟨hline, rfl⟩ := Prod.mk.inj (hpull.symm.trans hs)
      obtain rfl := Pull.line.inj hline
      exact ⟨t', ht, herrors, hst'⟩
    · cases (Prod.mk.inj (hpull.symm.trans hs)).1
  finished := by
    intro errors s t s' hrelated hpull
    obtain ⟨herrors, hst⟩ := hrelated
    rcases hR s t hst with ⟨_, _, _, hs, _, _⟩ | ⟨_, t', _, ht⟩
    · cases (Prod.mk.inj (hpull.symm.trans hs)).1
    · exact ⟨herrors, t', ht⟩
  failed := by
    intro errors s t error s' hrelated hpull
    obtain ⟨_, hst⟩ := hrelated
    rcases hR s t hst with ⟨_, _, _, hs, _, _⟩ | ⟨_, _, hs, _⟩
    · cases (Prod.mk.inj (hpull.symm.trans hs)).1
    · cases (Prod.mk.inj (hpull.symm.trans hs)).1

/-- Both scans begin, and begin alike. -/
theorem SameLines.start (hR : SameLines R) {s : σ} {t : τ} (hst : R s t) :
    ∃ a b, Scan.start s = .ready a ∧ Scan.start t = .ready b ∧ Alike R a b := by
  have hfirst : ∀ error, (LineSupply.pull s).1 ≠ .failed error := by
    intro error
    rcases hR s t hst with ⟨_, _, _, hs, _⟩ | ⟨_, _, hs, _⟩
    · rw [hs]
      exact nofun
    · rw [hs]
      exact nofun
  obtain ⟨a, b, ha, hb, hview, habreast⟩ := hR.interrupts.start ⟨rfl, hst⟩ hfirst
  exact ⟨a, b, ha, hb, hview, fun hcursor => (habreast.supply hcursor).2⟩

/-- The next call gives both the same token. -/
theorem Alike.nextToken (hR : SameLines R) (h : Alike R a b) :
    ∃ token, a.nextToken.1 = .ok token ∧ b.nextToken.1 = .ok token ∧
      Alike R a.nextToken.2 b.nextToken.2 := by
  rcases h.abreast.call hR.interrupts with ⟨error, more, hnil, _⟩ | ⟨token, ha, hb, habreast, hview⟩
  · cases hnil
  · exact ⟨token, ha, hb, hview, fun hcursor => (habreast.supply hcursor).2⟩

/-- All tokens that are left are the same. -/
theorem Alike.runFrom {a : Scan σ} {b : Scan τ} (hR : SameLines R) (h : Alike R a b)
    (read : List Token) :
    ∃ tokens after after', a.runFrom read = ⟨tokens, none, after⟩ ∧
      b.runFrom read = ⟨tokens, none, after'⟩ ∧ Alike R after after' := by
  obtain ⟨token, ha, hb, hnext⟩ := h.nextToken hR
  have ha : a.nextToken = (.ok token, a.nextToken.2) := Prod.ext ha rfl
  have hb : b.nextToken = (.ok token, b.nextToken.2) := Prod.ext hb rfl
  cases hend : token.isEof with
  | true => exact ⟨_, _, _, runFrom_of_eof read ha hend, runFrom_of_eof read hb hend, hnext⟩
  | false =>
    have hless := left_nextToken hb hend
    rw [runFrom_of_token read ha hend, runFrom_of_token read hb hend]
    exact Alike.runFrom hR hnext (token :: read)
termination_by b.left

theorem Alike.call (hR : SameLines R) (h : Alike R a b) (call : Call) :
    (a.call call).1 = (b.call call).1 ∧ Alike R (a.call call).2 (b.call call).2 := by
  cases call with
  | nextToken =>
    obtain ⟨token, ha, hb, hnext⟩ := h.nextToken hR
    have ha : a.nextToken = (.ok token, a.nextToken.2) := Prod.ext ha rfl
    have hb : b.nextToken = (.ok token, b.nextToken.2) := Prod.ext hb rfl
    rw [Scan.call, Scan.call, ha, hb]
    exact ⟨rfl, hnext⟩
  | allTokens =>
    obtain ⟨tokens, after, after', ha, hb, hafter⟩ := h.runFrom hR []
    simp only [Scan.call, allTokens, run, ha, hb]
    exact ⟨trivial, hafter⟩

/-- No sequence of calls tells the scans apart. -/
theorem Alike.session (hR : SameLines R) (h : Alike R a b) (calls : List Call) :
    (a.session calls).1 = (b.session calls).1 ∧
      Alike R (a.session calls).2 (b.session calls).2 := by
  induction calls generalizing a b with
  | nil => exact ⟨rfl, h⟩
  | cons call calls ih =>
    obtain ⟨hreply, hafter⟩ := h.call hR call
    obtain ⟨hreplies, hend⟩ := ih hafter
    exact ⟨by simp only [Scan.session, hreply, hreplies], hend⟩

/-! ## A text in memory and in chunks -/

/-- The feed holds the bytes of a text, of which the lines in memory are the lines. -/
def HoldsText (feed : ByteFeed) (lines : TextLines) : Prop :=
  ∃ text, Gives feed.fills (utf8 text) ∧
    lines.left = (pieces text).map fun piece => String.ofList (stripTerminator piece)

theorem sameLines_chunks : SameLines HoldsText := by
  intro feed lines h
  obtain ⟨fills⟩ := feed
  obtain ⟨lines⟩ := lines
  obtain ⟨text, hgives, rfl⟩ := h
  induction text using text_induction with
  | empty => exact .inr ⟨_, _, ByteFeed.pull_of_nil hgives, rfl⟩
  | unterminated line hline hne =>
    rw [pieces_of_not_mem hline hne]
    refine .inl ⟨_, ⟨[]⟩, ⟨[]⟩, ByteFeed.pull_of_unterminated hline hne hgives, rfl, ?_⟩
    exact ⟨[], .nil, rfl⟩
  | terminated line rest hline _ =>
    rw [pieces_append_newline hline]
    obtain ⟨left, hpull, hleft⟩ := ByteFeed.pull_of_terminated hline hgives
    exact .inl ⟨_, _, _, hpull, rfl, rest, hleft, rfl⟩

/-- A scan over chunks of the bytes of a text begins without a failure, and every sequence of calls
gives the replies of the scan of the text in memory and leaves both alike. -/
theorem session_of_chunks {text : String} {chunks : List (List UInt8)}
    (hne : ∀ chunk ∈ chunks, chunk ≠ []) (hbytes : chunks.flatten.toByteArray = text.toUTF8) :
    ∃ scan, Scan.start (⟨chunks.map .bytes⟩ : ByteFeed) = .ready scan ∧
      ∀ calls, (scan.session calls).1 = ((ofText text).session calls).1 ∧
        (scan.session calls).2.view = ((ofText text).session calls).2.view := by
  have hgives : Gives (chunks.map .bytes) (utf8 text.toList) := by
    refine ⟨chunks, rfl, hne, ?_⟩
    rw [utf8_toList, ← hbytes, List.toList_data_toByteArray]
  have hholds : HoldsText ⟨chunks.map .bytes⟩ (TextLines.ofText text) := ⟨_, hgives, rfl⟩
  obtain ⟨scan, memory, hready, hmemory, halike⟩ := sameLines_chunks.start hholds
  obtain rfl : ofText text = memory := Opening.ready.inj ((start_ofText text).symm.trans hmemory)
  refine ⟨scan, hready, fun calls => ?_⟩
  obtain ⟨hreplies, hend⟩ := halike.session sameLines_chunks calls
  exact ⟨hreplies, hend.view⟩

/-- Chunks that end within a character and between a carriage return and a newline. -/
def threeChunks : List (List UInt8) :=
  [[0xC3], [0xA1, 0x0D], [0x0A, 0x21]]

theorem session_of_three_chunks :
    (∀ chunk ∈ threeChunks, chunk ≠ []) ∧ threeChunks.flatten.toByteArray = "á\r\n!".toUTF8 ∧
      ∃ scan, Scan.start (⟨threeChunks.map .bytes⟩ : ByteFeed) = .ready scan ∧
        ∀ calls, (scan.session calls).1 = ((ofText "á\r\n!").session calls).1 := by
  have hne : ∀ chunk ∈ threeChunks, chunk ≠ [] := by decide
  have hbytes : threeChunks.flatten.toByteArray = "á\r\n!".toUTF8 := by decide +kernel
  obtain ⟨scan, hready, hsession⟩ := session_of_chunks hne hbytes
  exact ⟨hne, hbytes, scan, hready, fun calls => (hsession calls).1⟩

end Scan

end Lexis
