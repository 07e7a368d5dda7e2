import Lexis.Supply.ByteSource

/-!
# Sources of bytes as streams

A source of bytes goes through bytes, pauses and failures. Seen without its chunks, and without the
failures after which a reading is tried again, that is one stream of signals. A source that follows
a stream fill by fill (`Follows`) gives its lines: a reading takes the stretch of the stream up to
the first newline, pause or failure (`Follows.isStretch`), whatever the source shows at a time.
-/

set_option autoImplicit false

namespace Lexis

/-! ## The stream -/

inductive Signal
  | byte (value : UInt8)
  | pause
  | failure (error : IoError)

/-- What ends a line. -/
inductive Stop
  | newline
  | pause
  | failure (error : IoError)

/-- A piece of the stream that one call takes: the bytes up to the first stop, which is taken, too,
and the stream behind it. -/
structure Stretch where
  bytes : List UInt8
  stop : Stop
  left : List Signal

/-- An end of the stream is a pause that does not pass. -/
def nextStretch : List Signal → Stretch
  | [] => ⟨[], .pause, []⟩
  | .pause :: signals => ⟨[], .pause, signals⟩
  | .failure error :: signals => ⟨[], .failure error, signals⟩
  | .byte value :: signals =>
    if value = newlineByte then ⟨[], .newline, signals⟩
    else { nextStretch signals with bytes := value :: (nextStretch signals).bytes }

/-- The failure that a stop is. -/
def Stop.failure? : Stop → Option IoError
  | .failure error => some error
  | _ => none

/-- The bytes that a stop adds to what a reader takes. -/
def Stop.terminator : Stop → List UInt8
  | .newline => [newlineByte]
  | _ => []

theorem nextStretch_of_newline {before : List UInt8} (h : newlineByte ∉ before)
    (after : List UInt8) (signals : List Signal) :
    nextStretch ((before ++ newlineByte :: after).map .byte ++ signals) =
      ⟨before, .newline, after.map .byte ++ signals⟩ := by
  induction before with
  | nil => rfl
  | cons byte before ih =>
    rw [List.mem_cons, not_or] at h
    rw [List.cons_append, List.map_cons, List.cons_append, nextStretch, if_neg (Ne.symm h.1),
      ih h.2]

theorem nextStretch_of_not_mem {data : List UInt8} (h : newlineByte ∉ data)
    (signals : List Signal) :
    nextStretch (data.map .byte ++ signals) =
      { nextStretch signals with bytes := data ++ (nextStretch signals).bytes } := by
  induction data with
  | nil => rfl
  | cons byte data ih =>
    rw [List.mem_cons, not_or] at h
    rw [List.map_cons, List.cons_append, nextStretch, if_neg (Ne.symm h.1), ih h.2]
    rfl

theorem newline_not_mem_nextStretch (signals : List Signal) :
    newlineByte ∉ (nextStretch signals).bytes := by
  induction signals with
  | nil => exact List.not_mem_nil
  | cons signal signals ih =>
    cases signal with
    | byte value =>
      rw [nextStretch]
      split
      · exact List.not_mem_nil
      · rename_i hvalue
        rw [List.mem_cons, not_or]
        exact ⟨Ne.symm hvalue, ih⟩
    | pause => exact List.not_mem_nil
    | failure error => exact List.not_mem_nil

/-! ## Sources that follow a stream -/

open ByteSource (fill consume)

/-- By `R source signals` the source goes through the signals: it shows bytes that are next in the
stream, and holds the others when some of them are taken; it fails where the stream does, or is
interrupted; and when it shows nothing, there is a pause, or nothing more. -/
structure Follows {ρ : Type} [ByteSource ρ] (R : ρ → List Signal → Prop) : Prop where
  interrupted : ∀ {source next : ρ} {signals : List Signal} {error : IoError}, R source signals →
    fill source = (.error error, next) → error.kind = .interrupted → R next signals
  failed : ∀ {source next : ρ} {signals : List Signal} {error : IoError}, R source signals →
    fill source = (.error error, next) → error.kind ≠ .interrupted →
      ∃ left, signals = .failure error :: left ∧ R next left
  paused : ∀ {source next : ρ} {signals : List Signal}, R source signals →
    fill source = (.ok [], next) →
      ∃ left, nextStretch signals = ⟨[], .pause, left⟩ ∧ R (consume 0 next) left
  shown : ∀ {source next : ρ} {signals : List Signal} {data : List UInt8}, R source signals →
    fill source = (.ok data, next) → data ≠ [] →
      ∃ left, signals = data.map .byte ++ left ∧ ∀ taken rest, data = taken ++ rest → taken ≠ [] →
        R (consume taken.length next) (rest.map .byte ++ left)

/-- A reading has taken the stretch, behind the bytes that were there, and the source follows the
stream behind it. -/
structure Haul.IsStretch {ρ : Type} (R : ρ → List Signal → Prop) (before : List UInt8)
    (haul : Haul ρ) (stretch : Stretch) : Prop where
  bytes : haul.bytes = before ++ (stretch.bytes ++ stretch.stop.terminator)
  failure : haul.failure = stretch.stop.failure?
  left : R haul.left stretch.left

section
variable {ρ : Type} [ByteSource ρ] {R : ρ → List Signal → Prop} (hR : Follows R)
include hR

/-- A reading takes the next stretch of the stream, whatever the source shows at a time. -/
theorem Follows.isStretch {source : ρ} {signals : List Signal} (h : R source signals)
    (before : List UInt8) :
    (readUntilNewline before source).IsStretch R before (nextStretch signals) := by
  fun_induction readUntilNewline before source generalizing signals with
  | case1 before source error next hfill hkind ih => exact ih (hR.interrupted h hfill hkind)
  | case2 before source error next hfill hkind =>
    obtain ⟨left, rfl, hleft⟩ := hR.failed h hfill hkind
    exact ⟨(List.append_nil before).symm, rfl, hleft⟩
  | case3 before source data next hfill line hline =>
    obtain ⟨first, after, hfirst, rfl, rfl⟩ := exists_of_upToNewline? hline
    obtain ⟨left, rfl, htaken⟩ := hR.shown h hfill (by simp)
    rw [nextStretch_of_newline hfirst]
    exact ⟨rfl, rfl, htaken (first ++ [newlineByte]) after (by simp) (by simp)⟩
  | case4 before source next hfill =>
    obtain ⟨left, hnext, hleft⟩ := hR.paused h hfill
    rw [hnext]
    exact ⟨(List.append_nil before).symm, rfl, hleft⟩
  | case5 before source data next hfill hline hne ih =>
    obtain ⟨left, rfl, htaken⟩ := hR.shown h hfill hne
    have hmore := ih (htaken data [] (List.append_nil data).symm hne)
    rw [nextStretch_of_not_mem (upToNewline?_eq_none_iff.1 hline)]
    refine ⟨?_, hmore.failure, hmore.left⟩
    rw [hmore.bytes, List.append_assoc, List.append_assoc]
    rfl

/-- What a call gives, and what is left of the stream. -/
theorem Follows.exists_pullLine {source : ρ} {signals : List Signal} (h : R source signals) :
    ∃ left, pullLine source =
        (match (nextStretch signals).stop with
          | .failure error => .failed error
          | stop => decodeLine ((nextStretch signals).bytes ++ stop.terminator), left) ∧
      R left (nextStretch signals).left := by
  have hstretch := hR.isStretch h []
  refine ⟨_, ?_, hstretch.left⟩
  rw [pullLine, Haul.pull, hstretch.failure, hstretch.bytes]
  cases (nextStretch signals).stop <;> rfl

end

end Lexis
