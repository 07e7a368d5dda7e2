/-!
# Nesting

How deep a pattern is nested: an atom not at all, and whatever holds it one level deeper. Things
side by side are a level of their own if they are two or more; a single one is as deep alone as in
its row.
-/

set_option autoImplicit false

namespace Lexis.Pattern

/-- Things that stand side by side: how many they are, and how deep the deepest is nested. -/
structure Row where
  size : Nat
  deepest : Nat
  deriving DecidableEq

namespace Row

def empty : Row :=
  ⟨0, 0⟩

/-- A row with one more thing, which is nested so deep. -/
def add (row : Row) (depth : Nat) : Row :=
  ⟨row.size + 1, max row.deepest depth⟩

def depth (row : Row) : Nat :=
  if row.size < 2 then row.deepest else row.deepest + 1

end Row

end Lexis.Pattern
