import Lexis.Supply.ByteFeed

/-!
# Lines of a file

What a path leads to is a file with bytes, something that opens but cannot be read (a directory),
or nothing that opens.
-/

set_option autoImplicit false

namespace Lexis

/-- What a path leads to. -/
inductive FileEntry
  | file (bytes : List UInt8)
  /-- Every read gives the error. -/
  | unreadable (error : IoError)
  | unopenable (error : IoError)
  deriving DecidableEq

namespace FileEntry

def missing : FileEntry :=
  .unopenable ⟨.notFound, "No such file or directory (os error 2)"⟩

def directory : FileEntry :=
  .unreadable ⟨.isADirectory, "Is a directory (os error 21)"⟩

end FileEntry

/-- An open file. -/
structure FileLines where
  path : String
  /-- The bytes to come, or the error that every read gives. -/
  content : Except IoError ByteFeed

namespace FileLines

def openAt (path : String) : FileEntry → Except IoError FileLines
  | .file bytes => .ok ⟨path, .ok (.ofBytes bytes)⟩
  | .unreadable error => .ok ⟨path, .error error⟩
  | .unopenable error => .error error

def pull (lines : FileLines) : Pull × FileLines :=
  match lines.content with
  | .ok feed =>
    let answer := feed.pull
    (answer.1, { lines with content := .ok answer.2 })
  | .error error => (.failed error, lines)

def remaining (lines : FileLines) : Nat :=
  match lines.content with
  | .ok feed => LineSupply.remaining feed
  | .error _ => 0

instance : LineSupply FileLines where
  pull := pull
  remaining := remaining
  remaining_lt := by
    rintro ⟨path, error | feed⟩ s' text h
    · simp [pull] at h
    · simp only [pull, Prod.mk.injEq] at h
      obtain ⟨h1, rfl⟩ := h
      exact LineSupply.remaining_lt (Prod.ext h1 rfl)

end FileLines

end Lexis
