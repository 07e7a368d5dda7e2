import Lexis.Supply.TextLines

/-!
# Lines from a source of bytes

A source of bytes has a buffer of its own. It shows the bytes that it has at hand, after it has
fetched some if there were none, and is then told how many of them have been taken. It may show no
bytes, which says that nothing more comes for the moment, and it may fail.

A line is read up to the next newline byte, over as many fills as it needs, and is then decoded as
UTF-8.

* An interrupted fill is tried again.
* Any other failure ends the line with the failure, and the bytes taken for it are gone.
* A fill without bytes ends the line where it is, without a terminator. Nothing more is asked for.
-/

set_option autoImplicit false

namespace Lexis

class ByteSource (ρ : Type) where
  /-- The bytes at hand. -/
  fill : ρ → Except IoError (List UInt8) × ρ
  /-- So many of the bytes that were just shown have been taken. -/
  consume : Nat → ρ → ρ
  /-- No more bytes and interruptions than this are left. -/
  remaining : ρ → Nat
  remaining_interrupted : ∀ {source next : ρ} {error : IoError},
    fill source = (.error error, next) → error.kind = .interrupted →
      remaining next < remaining source
  remaining_consume : ∀ {source next : ρ} {data : List UInt8} {n : Nat},
    fill source = (.ok data, next) → n ≤ data.length →
      remaining (consume n next) + n ≤ remaining source

def newlineByte : UInt8 := 0x0A

/-- The bytes up to and including the first newline. -/
def upToNewline? (data : List UInt8) : Option (List UInt8) :=
  if newlineByte ∈ data then some (data.takeWhile (· != newlineByte) ++ [newlineByte]) else none

theorem upToNewline?_eq_none_iff {data : List UInt8} :
    upToNewline? data = none ↔ newlineByte ∉ data := by
  simp [upToNewline?]

theorem upToNewline?_of_newline {before : List UInt8} (h : newlineByte ∉ before)
    (after : List UInt8) :
    upToNewline? (before ++ newlineByte :: after) = some (before ++ [newlineByte]) := by
  have hall : ∀ byte ∈ before, (byte != newlineByte) = true := by
    intro byte hbyte
    rw [bne_iff_ne]
    exact fun he => h (he ▸ hbyte)
  rw [upToNewline?, if_pos (List.mem_append_right _ List.mem_cons_self),
    List.takeWhile_append_of_pos hall, List.takeWhile_cons_of_neg (by simp), List.append_nil]

/-- What is behind the first newline. -/
theorem exists_of_upToNewline? {data line : List UInt8} (h : upToNewline? data = some line) :
    ∃ before after, newlineByte ∉ before ∧ data = before ++ newlineByte :: after ∧
      line = before ++ [newlineByte] := by
  have hmem : newlineByte ∈ data := by
    refine Decidable.not_not.1 fun hnot => ?_
    rw [upToNewline?_eq_none_iff.2 hnot] at h
    cases h
  obtain ⟨before, after, rfl, hbefore⟩ := List.eq_append_cons_of_mem hmem
  rw [upToNewline?_of_newline hbefore] at h
  exact ⟨before, after, hbefore, rfl, (Option.some.inj h).symm⟩

/-- What a reading has taken from a source. -/
structure Haul (ρ : Type) where
  bytes : List UInt8
  /-- The failure that ended the reading early. -/
  failure : Option IoError
  left : ρ

open ByteSource (fill consume remaining)

section
variable {ρ : Type} [ByteSource ρ]

/-- Reads up to and including the next newline, behind the bytes that are there. -/
def readUntilNewline (bytes : List UInt8) (source : ρ) : Haul ρ :=
  match _hfill : fill source with
  | (.error error, next) =>
    if _hkind : error.kind = .interrupted then readUntilNewline bytes next
    else ⟨bytes, some error, next⟩
  | (.ok data, next) =>
    match upToNewline? data with
    | some line => ⟨bytes ++ line, none, consume line.length next⟩
    | none =>
      if _hdata : data = [] then ⟨bytes, none, consume 0 next⟩
      else readUntilNewline (bytes ++ data) (consume data.length next)
termination_by remaining source
decreasing_by
  · exact ByteSource.remaining_interrupted _hfill _hkind
  · have hless := ByteSource.remaining_consume _hfill (Nat.le_refl _)
    have hpos := List.length_pos_iff.2 _hdata
    omega

/-- The bytes of a line are taken from the source. -/
theorem length_readUntilNewline (bytes : List UInt8) (source : ρ)
    (h : (readUntilNewline bytes source).failure = none) :
    (readUntilNewline bytes source).bytes.length + remaining (readUntilNewline bytes source).left ≤
      bytes.length + remaining source := by
  fun_induction readUntilNewline bytes source with
  | case1 bytes source error next hfill hkind ih =>
    have hless := ByteSource.remaining_interrupted hfill hkind
    have hmore := ih h
    omega
  | case2 => cases h
  | case3 bytes source data next hfill line hline =>
    obtain ⟨before, after, _, rfl, rfl⟩ := exists_of_upToNewline? hline
    have hle : (before ++ [newlineByte]).length ≤ (before ++ newlineByte :: after).length := by simp
    have hleft := ByteSource.remaining_consume hfill hle
    rw [List.length_append]
    dsimp only
    omega
  | case4 bytes source next hfill =>
    have hleft := ByteSource.remaining_consume hfill (Nat.zero_le _)
    dsimp only
    omega
  | case5 bytes source data next hfill hline hne ih =>
    have hleft := ByteSource.remaining_consume hfill (Nat.le_refl _)
    have hmore := ih h
    rw [List.length_append] at hmore
    omega

end

/-! ## Lines -/

/-- A line from its bytes. No bytes at all mean that there is no line. -/
def decodeLine (bytes : List UInt8) : Pull :=
  if bytes.isEmpty then .finished
  else
    match String.fromUTF8? bytes.toByteArray with
    | some text => .line (String.ofList (stripTerminator text.toList))
    | none => .failed .notText

theorem length_le_size_utf8Encode (text : List Char) : text.length ≤ text.utf8Encode.size := by
  induction text with
  | nil => simp
  | cons c text ih =>
    have := c.utf8Size_pos
    rw [List.utf8Encode_cons, ByteArray.size_append, List.utf8Encode_singleton]
    simp only [List.length_cons, List.size_toByteArray, String.length_utf8EncodeChar]
    omega

theorem toByteArray_of_fromUTF8? {bytes : List UInt8} {text : String}
    (h : String.fromUTF8? bytes.toByteArray = some text) :
    text.toByteArray = bytes.toByteArray := by
  unfold String.fromUTF8? at h
  split at h
  · rw [← Option.some.inj h]
    rfl
  · simp at h

/-- A line has a byte, and a byte for each of its characters. -/
theorem length_of_decodeLine {bytes : List UInt8} {text : String}
    (h : decodeLine bytes = .line text) : bytes ≠ [] ∧ text.toList.length ≤ bytes.length := by
  unfold decodeLine at h
  split at h
  · simp at h
  · rename_i hne
    split at h
    · rename_i whole hwhole
      rw [Pull.line.injEq] at h
      have h1 := length_stripTerminator_le whole.toList
      have h2 := length_le_size_utf8Encode whole.toList
      rw [String.utf8Encode_toList, toByteArray_of_fromUTF8? hwhole, List.size_toByteArray] at h2
      refine ⟨by simpa using hne, ?_⟩
      rw [← h, String.toList_ofList]
      omega
    · simp at h

section
variable {ρ : Type} [ByteSource ρ]

/-- What a reading comes to. -/
def Haul.pull (haul : Haul ρ) : Pull × ρ :=
  match haul.failure with
  | none => (decodeLine haul.bytes, haul.left)
  | some error => (.failed error, haul.left)

/-- The next line of a source. -/
def pullLine (source : ρ) : Pull × ρ :=
  (readUntilNewline [] source).pull

theorem pullLine_of_empty {source next : ρ} (h : fill source = (.ok [], next)) :
    pullLine source = (.finished, consume 0 next) := by
  unfold pullLine
  rw [readUntilNewline]
  split <;> rename_i hfill
  · cases h.symm.trans hfill
  · cases h.symm.trans hfill
    rfl

/-- Each byte is at most one character and one line. -/
theorem remaining_pullLine {source next : ρ} {text : String}
    (h : pullLine source = (.line text, next)) :
    2 * remaining next + text.toList.length < 2 * remaining source := by
  have hsize := length_readUntilNewline [] source
  unfold pullLine Haul.pull at h
  rcases hfailure : (readUntilNewline [] source).failure with _ | error
  · rw [hfailure] at h
    obtain ⟨hdecode, rfl⟩ := Prod.mk.inj h
    obtain ⟨hne, hlength⟩ := length_of_decodeLine hdecode
    have hpos := List.length_pos_iff.2 hne
    have hless := hsize hfailure
    rw [List.length_nil] at hless
    omega
  · rw [hfailure] at h
    cases h

end

end Lexis
