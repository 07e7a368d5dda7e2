import Lexis.Supply.ByteSource

/-!
# Byte feeds

A byte feed is a source that has its bytes in chunks. It shows the first chunk until it has been
taken as a whole. An empty chunk is shown once; and since a chunk of which nothing is left goes when
bytes have been taken, even if none were, an empty chunk right behind an empty one is not shown.
-/

set_option autoImplicit false

namespace Lexis

/-- A chunk, or the failure to get one. -/
inductive Fill
  | bytes (data : List UInt8)
  | failed (error : IoError)
  deriving DecidableEq

structure ByteFeed where
  fills : List Fill
  deriving DecidableEq

namespace ByteFeed

/-- All bytes at once. -/
def ofBytes (data : List UInt8) : ByteFeed :=
  ⟨[.bytes data]⟩

def fill : ByteFeed → Except IoError (List UInt8) × ByteFeed
  | ⟨[]⟩ => (.ok [], ⟨[]⟩)
  | ⟨.failed error :: fills⟩ => (.error error, ⟨fills⟩)
  | ⟨.bytes [] :: fills⟩ => (.ok [], ⟨fills⟩)
  | ⟨.bytes (first :: more) :: fills⟩ => (.ok (first :: more), ⟨.bytes (first :: more) :: fills⟩)

def consume (n : Nat) : ByteFeed → ByteFeed
  | ⟨.bytes data :: fills⟩ =>
    if data.length ≤ n then ⟨fills⟩ else ⟨.bytes (data.drop n) :: fills⟩
  | feed => feed

/-- The bytes and failures of some fills. -/
def size : List Fill → Nat
  | [] => 0
  | .failed _ :: fills => size fills + 1
  | .bytes data :: fills => size fills + data.length

theorem size_consume_le (n : Nat) (feed : ByteFeed) :
    size (feed.consume n).fills ≤ size feed.fills := by
  unfold consume
  split
  · split
    · exact Nat.le_add_right _ _
    · simp only [size, List.length_drop]
      omega
  · exact Nat.le_refl _

instance : ByteSource ByteFeed where
  fill := fill
  consume := consume
  remaining feed := size feed.fills
  remaining_interrupted := by
    intro feed next error h _
    unfold fill at h
    split at h <;> cases h
    exact Nat.lt_succ_self _
  remaining_consume := by
    intro feed next data n h hn
    unfold fill at h
    split at h <;> cases h
    · exact Nat.le_zero.1 hn ▸ Nat.le_refl _
    · obtain rfl := Nat.le_zero.1 hn
      exact size_consume_le 0 _
    · rename_i first more fills
      unfold consume
      dsimp only
      split
      · simp only [size]
        omega
      · simp only [size, List.length_drop]
        omega

theorem fill_chunk {data : List UInt8} (hne : data ≠ []) (fills : List Fill) :
    ByteSource.fill (⟨.bytes data :: fills⟩ : ByteFeed) = (.ok data, ⟨.bytes data :: fills⟩) := by
  cases data with
  | nil => exact absurd rfl hne
  | cons first more => rfl

/-- What is left of a chunk stays in front of the others, if anything is left. -/
theorem consume_append (taken rest : List UInt8) (fills : List Fill) :
    ByteSource.consume taken.length (⟨.bytes (taken ++ rest) :: fills⟩ : ByteFeed) =
      ⟨if rest.isEmpty then fills else .bytes rest :: fills⟩ := by
  show consume _ _ = _
  cases rest with
  | nil => simp [consume]
  | cons first more => simp [consume]

def pull : ByteFeed → Pull × ByteFeed :=
  pullLine

instance : LineSupply ByteFeed where
  pull := pull
  remaining feed := 2 * ByteSource.remaining feed
  remaining_lt := remaining_pullLine

/-- Of two empty chunks in a row the second one is taken with the first one. -/
example : (pull ⟨[.bytes [], .bytes [], .bytes [0x61]]⟩).2 = ⟨[.bytes [0x61]]⟩ := by
  decide +kernel

end ByteFeed

end Lexis
