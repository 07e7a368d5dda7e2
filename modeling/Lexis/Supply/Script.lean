import Lexis.Supply.ByteSource

/-!
# Scripts

A script tells what a source of bytes goes through: chunks of data, ends that may be passed by, and
failures. Each of them is met once, and in its turn.
-/

set_option autoImplicit false

namespace Lexis

/-- One thing that a source of bytes goes through. A chunk has a byte. -/
inductive Part
  | chunk (first : UInt8) (more : List UInt8)
  | pause
  | failed (error : IoError)

structure Script where
  parts : List Part

namespace Script

def fill : Script → Except IoError (List UInt8) × Script
  | ⟨[]⟩ => (.ok [], ⟨[]⟩)
  | ⟨.chunk first more :: parts⟩ => (.ok (first :: more), ⟨.chunk first more :: parts⟩)
  | ⟨.pause :: parts⟩ => (.ok [], ⟨parts⟩)
  | ⟨.failed error :: parts⟩ => (.error error, ⟨parts⟩)

/-- Only a chunk has bytes that can be taken. -/
def consume (n : Nat) : Script → Script
  | ⟨.chunk first more :: parts⟩ =>
    match (first :: more).drop n with
    | [] => ⟨parts⟩
    | first :: more => ⟨.chunk first more :: parts⟩
  | script => script

/-- The bytes and failures of some parts. -/
def size : List Part → Nat
  | [] => 0
  | .chunk _ more :: parts => size parts + more.length + 1
  | .pause :: parts => size parts
  | .failed _ :: parts => size parts + 1

theorem consume_zero (script : Script) : script.consume 0 = script := by
  unfold consume
  split <;> rfl

/-- What is left of a chunk stays in front. -/
theorem consume_chunk {first : UInt8} {more : List UInt8} (parts : List Part) (n : Nat)
    (hn : n ≤ (first :: more).length) :
    size (consume n ⟨.chunk first more :: parts⟩).parts + n = size parts + more.length + 1 := by
  rw [consume]
  have hlength := congrArg List.length (List.take_append_drop n (first :: more))
  rw [List.length_append, List.length_take_of_le hn, List.length_cons] at hlength
  split <;> rename_i hdrop
  · rw [hdrop, List.length_nil] at hlength
    dsimp only
    omega
  · rw [hdrop, List.length_cons] at hlength
    simp only [size]
    omega

instance : ByteSource Script where
  fill := fill
  consume := consume
  remaining script := size script.parts
  remaining_interrupted := by
    intro script next error h _
    unfold fill at h
    split at h <;> cases h
    exact Nat.lt_succ_self _
  remaining_consume := by
    intro script next data n h hn
    unfold fill at h
    split at h <;> cases h
    · obtain rfl := Nat.le_zero.1 hn
      exact Nat.le_refl _
    · exact Nat.le_of_eq (consume_chunk _ n hn)
    · obtain rfl := Nat.le_zero.1 hn
      rw [consume_zero]
      exact Nat.le_refl _

end Script

end Lexis
