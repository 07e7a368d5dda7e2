/-!
# Reading JSON text

Readers work on the characters that are left and give what they have read with the characters
after it. They meet a text from left to right and stop at its first fault. A reader that has read
something leaves less than it was given (`Shortens`).
-/

set_option autoImplicit false

namespace Lexis.Json

/-- What is wrong with a text that cannot be read. -/
inductive Fault
  /-- The text ends too early. -/
  | truncated
  /-- The text is not JSON, or goes on after its value. -/
  | malformed
  /-- The text is JSON, but of another shape than the one asked for. -/
  | unsuitable
  deriving DecidableEq

/-- A reader gives its result and the text that is left. -/
abbrev Reader (α : Type) := List Char → Except Fault (α × List Char)

/-- The reader leaves less than it is given. -/
def Shortens {α : Type} (read : Reader α) : Prop :=
  ∀ {s rest : List Char} {a : α}, read s = .ok (a, rest) → rest.length < s.length

theorem map_eq_ok {α β : Type} {x : Except Fault α} {f : α → β} {b : β} (h : x.map f = .ok b) :
    ∃ a, x = .ok a ∧ f a = b := by
  cases x with
  | error fault => simp [Except.map] at h
  | ok a => exact ⟨a, rfl, by simpa [Except.map] using h⟩

/-- The four blanks of JSON. -/
def isBlank (c : Char) : Bool :=
  c = ' ' || c = '\t' || c = '\n' || c = '\r'

def skipBlanks (s : List Char) : List Char :=
  s.dropWhile isBlank

theorem length_skipBlanks_le (s : List Char) : (skipBlanks s).length ≤ s.length :=
  (List.dropWhile_suffix isBlank).length_le

theorem length_lt_of_skipBlanks_eq_cons {s rest : List Char} {c : Char}
    (h : skipBlanks s = c :: rest) : rest.length < s.length := by
  have := length_skipBlanks_le s
  rw [h, List.length_cons] at this
  omega

/-- Reads the rest of a word such as `null`. -/
def expect : List Char → List Char → Except Fault (List Char)
  | [], s => .ok s
  | _ :: _, [] => .error .truncated
  | e :: word, c :: s => if c = e then expect word s else .error .malformed

theorem eq_append_of_expect {word s rest : List Char} (h : expect word s = .ok rest) :
    s = word ++ rest := by
  induction word generalizing s with
  | nil => simpa [expect] using h
  | cons e word ih =>
    cases s with
    | nil => simp [expect] at h
    | cons c s =>
      simp only [expect] at h
      split at h
      · rename_i hc
        simp [hc, ih h]
      · simp at h

theorem expect_append (word rest : List Char) : expect word (word ++ rest) = .ok rest := by
  induction word with
  | nil => rfl
  | cons e word ih => simp [expect, ih]

/-- Reads a colon between a name and its value. -/
def expectColon (s : List Char) : Except Fault (List Char) :=
  match skipBlanks s with
  | [] => .error .truncated
  | c :: rest => if c = ':' then .ok rest else .error .malformed

theorem length_expectColon {s rest : List Char} (h : expectColon s = .ok rest) :
    rest.length < s.length := by
  unfold expectColon at h
  split at h
  · simp at h
  · rename_i c rest' hskip
    split at h
    · rw [Except.ok.injEq] at h
      exact h ▸ length_lt_of_skipBlanks_eq_cons hskip
    · simp at h

/-- Reads a whole text, after which only blanks may follow. -/
def readText {α : Type} (read : Reader α) (s : List Char) : Except Fault α :=
  match read s with
  | .error fault => .error fault
  | .ok (a, rest) => if (skipBlanks rest).isEmpty then .ok a else .error .malformed

end Lexis.Json
