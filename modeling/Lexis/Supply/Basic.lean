/-!
# Supplies of lines

A scan reads its text from a supply that is asked for one line at a time. Each pull gives a line
without its terminator, says that there is none, or fails; the supply after the pull answers the
next one. A supply gives finitely many lines: `remaining` bounds the lines and characters that are
left, and falls with each line by more than the line has.
-/

set_option autoImplicit false

namespace Lexis

/-- What sort of failure kept a line from being read. -/
inductive IoErrorKind
  | notFound | permissionDenied | connectionReset | brokenPipe | wouldBlock
  | invalidData | timedOut | interrupted | unexpectedEof | isADirectory | other
  deriving DecidableEq

namespace IoErrorKind

def all : List IoErrorKind :=
  [notFound, permissionDenied, connectionReset, brokenPipe, wouldBlock,
   invalidData, timedOut, interrupted, unexpectedEof, isADirectory, other]

def name : IoErrorKind → String
  | notFound => "NotFound"
  | permissionDenied => "PermissionDenied"
  | connectionReset => "ConnectionReset"
  | brokenPipe => "BrokenPipe"
  | wouldBlock => "WouldBlock"
  | invalidData => "InvalidData"
  | timedOut => "TimedOut"
  | interrupted => "Interrupted"
  | unexpectedEof => "UnexpectedEof"
  | isADirectory => "IsADirectory"
  | other => "Other"

def ofName? (name : String) : Option IoErrorKind :=
  all.find? (·.name == name)

/-- The text of a failure about which nothing else is known. -/
def description : IoErrorKind → String
  | notFound => "entity not found"
  | permissionDenied => "permission denied"
  | connectionReset => "connection reset"
  | brokenPipe => "broken pipe"
  | wouldBlock => "operation would block"
  | invalidData => "invalid data"
  | timedOut => "timed out"
  | interrupted => "operation interrupted"
  | unexpectedEof => "unexpected end of file"
  | isADirectory => "is a directory"
  | other => "other error"

end IoErrorKind

/-- A failure to open or to read. -/
structure IoError where
  kind : IoErrorKind
  text : String
  deriving DecidableEq

namespace IoError

def ofKind (kind : IoErrorKind) : IoError :=
  ⟨kind, kind.description⟩

/-- The bytes of a line are no text. -/
def notText : IoError :=
  ⟨.invalidData, "stream did not contain valid UTF-8"⟩

/-- What a failure tells the reader. -/
def message (e : IoError) : String :=
  "I/O error: " ++ e.text

end IoError

/-- The answer to one pull. -/
inductive Pull
  | line (text : String)
  | finished
  | failed (error : IoError)
  deriving DecidableEq

/-- A supply of lines. -/
class LineSupply (σ : Type) where
  pull : σ → Pull × σ
  /-- No more lines and characters than this are left. -/
  remaining : σ → Nat
  remaining_lt : ∀ {s s' : σ} {text : String},
    pull s = (.line text, s') → remaining s' + text.toList.length < remaining s

/-- A given list of answers; after the last one the supply is finished. -/
structure Answers where
  left : List Pull

namespace Answers

def pull : Answers → Pull × Answers
  | ⟨[]⟩ => (.finished, ⟨[]⟩)
  | ⟨answer :: left⟩ => (answer, ⟨left⟩)

/-- The lines and characters of a list of answers. -/
def size : List Pull → Nat
  | [] => 0
  | .line text :: left => size left + text.toList.length + 1
  | .finished :: left => size left
  | .failed _ :: left => size left

instance : LineSupply Answers where
  pull := pull
  remaining answers := size answers.left
  remaining_lt := by
    rintro ⟨_ | ⟨answer, left⟩⟩ s' text h
    · simp [pull] at h
    · simp only [pull, Prod.mk.injEq] at h
      obtain ⟨rfl, rfl⟩ := h
      simp [size]

end Answers

/-- A supply with the number of times it has been pulled. -/
structure Counted (σ : Type) where
  supply : σ
  pulls : Nat

namespace Counted

variable {σ : Type} [LineSupply σ]

def pull (counted : Counted σ) : Pull × Counted σ :=
  let answer := LineSupply.pull counted.supply
  (answer.1, ⟨answer.2, counted.pulls + 1⟩)

instance : LineSupply (Counted σ) where
  pull := pull
  remaining counted := LineSupply.remaining counted.supply
  remaining_lt := by
    intro s s' text h
    simp only [pull, Prod.mk.injEq] at h
    obtain ⟨h1, rfl⟩ := h
    exact LineSupply.remaining_lt (Prod.ext h1 rfl)

end Counted

/-- A source of lines, with the number of times it may still be asked. Behind the last one there is
no line. -/
structure Limited {σ : Type} (pull : σ → Pull × σ) where
  source : σ
  pulls : Nat

namespace Limited

variable {σ : Type} {pull : σ → Pull × σ}

def next : Limited pull → Pull × Limited pull
  | ⟨source, 0⟩ => (.finished, ⟨source, 0⟩)
  | ⟨source, pulls + 1⟩ => ((pull source).1, ⟨(pull source).2, pulls⟩)

/-- The lines and characters that some pulls give. -/
def size (pull : σ → Pull × σ) (source : σ) : Nat → Nat
  | 0 => 0
  | pulls + 1 =>
    match pull source with
    | (.line text, source) => size pull source pulls + text.toList.length + 1
    | (_, source) => size pull source pulls

instance : LineSupply (Limited pull) where
  pull := next
  remaining limited := size pull limited.source limited.pulls
  remaining_lt := by
    rintro ⟨source, _ | pulls⟩ s' text h
    · simp [next] at h
    · obtain ⟨hline, rfl⟩ := Prod.mk.inj h
      have hpull : pull source = (.line text, (pull source).2) := Prod.ext hline rfl
      rw [size, hpull]
      exact Nat.lt_succ_self _

end Limited

end Lexis
