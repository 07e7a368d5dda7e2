import Lexis.Pattern.Bracket
import Lexis.Pattern.Opening

/-!
# Reading patterns

A pattern is branches between bars; a branch is elements one behind the other, each an atom, a
bracket or a group, and each may be repeated, its repetition too. No pattern is matched here: it is
only read to see whether it is one (`isPattern`), and all that is kept of an element is how deep it
is nested.

A repetition by counts begins with a brace. It would need a closing one, and where a pattern is
asked for none can follow an opening one, so an opening brace outside brackets is never right.
-/

set_option autoImplicit false

namespace Lexis.Pattern

/-- What has been read of a group. -/
structure Branches where
  /-- The branches that have ended. -/
  ended : Row
  /-- The elements of the branch that is being read. -/
  elements : Row
  /-- How deep its last element is nested, if this can be repeated. -/
  last : Option Nat
  deriving DecidableEq

namespace Branches

def empty : Branches :=
  ⟨.empty, .empty, none⟩

/-- One more element, which is nested so deep. -/
def add (branches : Branches) (depth : Nat) : Branches :=
  ⟨branches.ended, branches.elements.add depth, some depth⟩

/-- A setting of flags, an element that cannot be repeated. -/
def addSetting (branches : Branches) : Branches :=
  ⟨branches.ended, branches.elements.add 0, none⟩

/-- The last element repeated, so that it is one level deeper. -/
def repeatLast? (branches : Branches) : Option Branches :=
  branches.last.map fun depth =>
    ⟨branches.ended, ⟨branches.elements.size, max branches.elements.deepest (depth + 1)⟩,
      some (depth + 1)⟩

/-- The branches behind a bar. -/
def next (branches : Branches) : Branches :=
  ⟨branches.ended.add branches.elements.depth, .empty, none⟩

/-- How deep the content of the group is nested. -/
def depth (branches : Branches) : Nat :=
  (branches.ended.add branches.elements.depth).depth

end Branches

/-- How far the reading of a pattern has come. -/
structure Reading where
  mode : Mode
  /-- What has been read of the innermost group that is open, or of the pattern. -/
  branches : Branches
  /-- The groups around it, the innermost first, each with the mode to go back to. -/
  outer : List (Mode × Branches)
  /-- The names of groups so far. -/
  names : List (List Char)
  deriving DecidableEq

namespace Reading

def start : Reading :=
  ⟨.initial, .empty, [], []⟩

/-- The reading within a new group. -/
def enter (reading : Reading) (mode : Mode) (names : List (List Char)) : Reading :=
  ⟨mode, .empty, (reading.mode, reading.branches) :: reading.outer, names⟩

/-- A group begins, or flags are set; no name may be given twice. -/
def opened? (reading : Reading) : Opening → Option Reading
  | .group flags => some (reading.enter (reading.mode.setFlags flags) reading.names)
  | .named name =>
    if reading.names.contains name then none
    else some (reading.enter reading.mode (name :: reading.names))
  | .setting flags =>
    some { reading with
      mode := reading.mode.setFlags flags
      branches := reading.branches.addSetting }

/-- A group ends, and with it the modes set in it. -/
def close? (reading : Reading) : Option Reading :=
  match reading.outer with
  | [] => none
  | (mode, branches) :: outer =>
    some ⟨mode, branches.add (reading.branches.depth + 1), outer, reading.names⟩

/-- One more element, which is nested so deep. -/
def add (reading : Reading) (depth : Nat) : Reading :=
  { reading with branches := reading.branches.add depth }

/-- Takes one step at the character `c`: the reading then, and what is left. -/
def step? (reading : Reading) (c : Char) (s : List Char) : Option (Reading × List Char) :=
  if c = '(' then
    match Opening.read? reading.mode s with
    | none => none
    | some (opening, rest) => (reading.opened? opening).map (·, rest)
  else if c = ')' then reading.close?.map (·, s)
  else if c = '|' then some ({ reading with branches := reading.branches.next }, s)
  else if c = '?' ∨ c = '*' ∨ c = '+' then
    reading.branches.repeatLast?.map fun branches =>
      ({ reading with branches }, if s.head? = some '?' then s.tail else s)
  else if c = '[' then
    match Bracket.read? reading.mode s with
    | none => none
    | some (depth, rest) => some (reading.add depth, rest)
  else if c = '\x7b' then none
  else
    match readAtom? reading.mode .ofChar c s with
    | none => none
    | some (atom, rest) => if atom.fits reading.mode then some (reading.add 0, rest) else none

theorem length_step {reading reading' : Reading} {c : Char} {s rest : List Char}
    (h : reading.step? c s = some (reading', rest)) : rest.length ≤ s.length := by
  simp only [step?] at h
  split at h
  · split at h
    · simp at h
    · rename_i hopening
      obtain ⟨_, _, heq⟩ := Option.map_eq_some_iff.1 h
      simp only [Prod.mk.injEq] at heq
      exact heq.2 ▸ Opening.length_read hopening
  split at h
  · obtain ⟨_, _, heq⟩ := Option.map_eq_some_iff.1 h
    simp_all
  split at h
  · simp_all
  split at h
  · obtain ⟨_, _, heq⟩ := Option.map_eq_some_iff.1 h
    simp only [Prod.mk.injEq] at heq
    rw [← heq.2]
    split <;> simp
  split at h
  · split at h
    · simp at h
    · rename_i hbracket
      simp only [Option.some.injEq, Prod.mk.injEq] at h
      exact h.2 ▸ Nat.le_of_lt (Bracket.length_read hbracket)
  split at h
  · simp at h
  split at h
  · simp at h
  · rename_i hatom
    split at h
    · simp only [Option.some.injEq, Prod.mk.injEq] at h
      exact h.2 ▸ length_readAtom hatom
    · simp at h

/-- Reads what is left: how deep the whole pattern is nested. -/
def finish? (reading : Reading) (s : List Char) : Option Nat :=
  match _h : reading.mode.skip s with
  | [] => if reading.outer.isEmpty then some reading.branches.depth else none
  | c :: rest =>
    match _h' : reading.step? c rest with
    | none => none
    | some (reading, rest) => reading.finish? rest
termination_by s.length
decreasing_by
  exact Nat.lt_of_le_of_lt (length_step _h') (Mode.length_lt_of_skip_eq_cons _h)

end Reading

/-- How deep a pattern may be nested. -/
def depthLimit : Nat :=
  250

end Pattern

/-- Whether a text is a regular expression of the kind that modes are about. -/
def isPattern (text : List Char) : Bool :=
  (Pattern.Reading.start.finish? text).any (· ≤ Pattern.depthLimit)

end Lexis
