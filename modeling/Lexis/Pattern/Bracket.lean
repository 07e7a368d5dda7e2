import Lexis.Pattern.Atom
import Lexis.Pattern.Nesting

/-!
# Brackets

A bracket is a class of characters. It holds atoms, ranges, classes by name and brackets again; a
doubled ampersand, minus sign or tilde is an operator between all that stands before it and what
comes next. A circumflex at the beginning negates. Minus signs at the beginning stand for
themselves, and so does a closing bracket that is the first character.

A bracket in a bracket that does not write a name in full between colons, or a name that no class
has, is a bracket like others.
-/

set_option autoImplicit false

namespace Lexis.Pattern

/-- What has been read of a bracket. -/
structure Bracket where
  /-- How deep that is nested which stands before the last operator. -/
  operand : Option Nat
  /-- What stands behind it. -/
  items : Row
  deriving DecidableEq

namespace Bracket

/-- How deep the content is nested. -/
def depth (bracket : Bracket) : Nat :=
  match bracket.operand with
  | none => bracket.items.depth
  | some operand => max operand bracket.items.depth + 1

/-- The bracket with one more item, which is nested so deep. -/
def add (bracket : Bracket) (depth : Nat) : Bracket :=
  ⟨bracket.operand, bracket.items.add depth⟩

/-- The bracket behind an operator. -/
def operate (bracket : Bracket) : Bracket :=
  ⟨some bracket.depth, .empty⟩

/-- Reads minus signs as items. -/
def readDashes (mode : Mode) (items : Row) (s : List Char) : Row × List Char :=
  match s with
  | [] => (items, [])
  | c :: rest =>
    if c = '-' then readDashes mode (items.add 0) (mode.skip rest) else (items, c :: rest)
termination_by s.length
decreasing_by
  have := mode.length_skip_le rest
  simp only [List.length_cons]
  omega

theorem length_readDashes_le (mode : Mode) (items : Row) (s : List Char) :
    (readDashes mode items s).2.length ≤ s.length := by
  fun_induction readDashes mode items s with
  | case1 => simp
  | case2 items rest ih =>
    have := mode.length_skip_le rest
    simp only [List.length_cons]
    omega
  | case3 => simp

/-- Reads the beginning, from behind the opening bracket. -/
def begin? (mode : Mode) (s : List Char) : Option (Bracket × List Char) :=
  let s := mode.skip s
  let negated := s.head? = some '^'
  let s := if negated then mode.skip s.tail else s
  let (items, s) := readDashes mode .empty s
  let closes := items.size = 0 ∧ s.head? = some ']'
  let (items, s) := if closes then (items.add 0, mode.skip s.tail) else (items, s)
  if negated ∧ !mode.unicode then none
  else if items.size ≠ 0 ∧ !(Atom.ofMember ']').fitsBracket mode then none
  else some (⟨none, items⟩, s)

theorem length_begin {mode : Mode} {s rest : List Char} {bracket : Bracket}
    (h : begin? mode s = some (bracket, rest)) : rest.length ≤ s.length := by
  have tail_le (s : List Char) : (mode.skip s.tail).length ≤ s.length :=
    Nat.le_trans (mode.length_skip_le s.tail) (by simp)
  have hs := mode.length_skip_le s
  simp only [begin?] at h
  generalize mode.skip s = s₁ at h hs
  have hs₂ : (if s₁.head? = some '^' then mode.skip s₁.tail else s₁).length ≤ s₁.length := by
    split
    · exact tail_le s₁
    · exact Nat.le_refl _
  generalize (if s₁.head? = some '^' then mode.skip s₁.tail else s₁) = s₂ at h hs₂
  have hs₃ := length_readDashes_le mode .empty s₂
  generalize readDashes mode .empty s₂ = dashes at h hs₃
  obtain ⟨items, s₃⟩ := dashes
  have := tail_le s₃
  grind

/-- The names of classes. -/
def classNames : List String :=
  ["alnum", "alpha", "ascii", "blank", "cntrl", "digit", "graph", "lower", "print", "punct",
   "space", "upper", "word", "xdigit"]

/-- Whether a class by name may stand in a bracket. -/
def fitsNamed (mode : Mode) (negated : Bool) : Bool :=
  if mode.unicode then !mode.ignoreCase else !negated

/-- Reads the name of a class and what ends it. -/
def readClassName? (s : List Char) : Option (List Char) :=
  let name := s.takeWhile (· ≠ ':')
  match s.drop name.length with
  | ':' :: ']' :: rest => if classNames.contains (String.ofList name) then some rest else none
  | _ => none

/-- Reads a class by name from behind the opening bracket, and whether it is negated. -/
def readNamed? : List Char → Option (Bool × List Char)
  | ':' :: '^' :: s => (readClassName? s).map (true, ·)
  | ':' :: s => (readClassName? s).map (false, ·)
  | _ => none

theorem length_readClassName {s rest : List Char} (h : readClassName? s = some rest) :
    rest.length < s.length := by
  simp only [readClassName?] at h
  split at h
  · rename_i hdrop
    have := congrArg List.length hdrop
    simp only [List.length_drop, List.length_cons] at this
    split at h
    · simp only [Option.some.injEq] at h
      rw [← h]
      omega
    · simp at h
  · simp at h

theorem length_readNamed {s rest : List Char} {negated : Bool}
    (h : readNamed? s = some (negated, rest)) : rest.length < s.length := by
  unfold readNamed? at h
  split at h
  · obtain ⟨_, hname, heq⟩ := Option.map_eq_some_iff.1 h
    have := length_readClassName hname
    simp only [Prod.mk.injEq] at heq
    rw [← heq.2, List.length_cons, List.length_cons]
    omega
  · obtain ⟨_, hname, heq⟩ := Option.map_eq_some_iff.1 h
    have := length_readClassName hname
    simp only [Prod.mk.injEq] at heq
    rw [← heq.2, List.length_cons]
    omega
  · simp at h

/-- Reads an item that begins with `c`: an atom, or a range between two. A minus sign that the
bracket's end or another one follows makes no range. -/
def readItem? (mode : Mode) (c : Char) (s : List Char) : Option (List Char) :=
  match readAtom? mode .ofMember c s with
  | none => none
  | some (first, s) =>
    match mode.skip s with
    | [] => none
    | d :: behind =>
      if !first.fitsBracket mode then none
      else if d ≠ '-' ∨ mode.peek? behind = some ']' ∨ mode.peek? behind = some '-' then
        some (d :: behind)
      else
        match mode.skip behind with
        | [] => none
        | c :: s =>
          match readAtom? mode .ofMember c s with
          | none => none
          | some (last, rest) =>
            if first.isRange last && last.fitsBracket mode then some rest else none

theorem length_readItem {mode : Mode} {c : Char} {s rest : List Char}
    (h : readItem? mode c s = some rest) : rest.length ≤ s.length := by
  unfold readItem? at h
  split at h
  · simp at h
  · rename_i first s₁ hfirst
    have := length_readAtom hfirst
    have := mode.length_skip_le s₁
    split at h
    · simp at h
    · rename_i d behind hbehind
      rw [hbehind, List.length_cons] at this
      split at h
      · simp at h
      split at h
      · simp only [Option.some.injEq] at h
        rw [← h, List.length_cons]
        omega
      split at h
      · simp at h
      · rename_i c' s₂ hs₂
        have := Mode.length_lt_of_skip_eq_cons hs₂
        split at h
        · simp at h
        · rename_i last s₃ hlast
          have := length_readAtom hlast
          split at h
          · simp only [Option.some.injEq] at h
            rw [← h]
            omega
          · simp at h

/-- Reads on in a bracket within others, the innermost of them first, up to the end of the
outermost: how deep this one is nested. -/
def readOn? (mode : Mode) (bracket : Bracket) (outer : List Bracket) (s : List Char) :
    Option (Nat × List Char) :=
  match _h : mode.skip s with
  | [] => none
  | c :: rest =>
    if c = ']' then
      match outer with
      | [] => some (bracket.depth + 1, rest)
      | next :: outer => readOn? mode (next.add (bracket.depth + 1)) outer rest
    else if c = '[' then
      match _h' : readNamed? rest with
      | some (negated, rest') =>
        if fitsNamed mode negated then readOn? mode (bracket.add 0) outer rest' else none
      | none =>
        match _h' : begin? mode rest with
        | some (inner, rest') => readOn? mode inner (bracket :: outer) rest'
        | none => none
    else if (c = '&' ∨ c = '-' ∨ c = '~') ∧ rest.head? = some c then
      readOn? mode bracket.operate outer rest.tail
    else
      match _h' : readItem? mode c rest with
      | some rest' => readOn? mode (bracket.add 0) outer rest'
      | none => none
termination_by s.length
decreasing_by
  · exact Mode.length_lt_of_skip_eq_cons _h
  · exact Nat.lt_trans (length_readNamed _h') (Mode.length_lt_of_skip_eq_cons _h)
  · exact Nat.lt_of_le_of_lt (length_begin _h') (Mode.length_lt_of_skip_eq_cons _h)
  · exact Nat.lt_of_le_of_lt (by simp) (Mode.length_lt_of_skip_eq_cons _h)
  · exact Nat.lt_of_le_of_lt (length_readItem _h') (Mode.length_lt_of_skip_eq_cons _h)

theorem length_readOn {mode : Mode} {bracket : Bracket} {outer : List Bracket}
    {s rest : List Char} {depth : Nat} (h : readOn? mode bracket outer s = some (depth, rest)) :
    rest.length < s.length := by
  fun_induction readOn? mode bracket outer s with
  | case2 bracket s rest' hs =>
    simp only [Option.some.injEq, Prod.mk.injEq] at h
    exact h.2 ▸ Mode.length_lt_of_skip_eq_cons hs
  | case3 bracket s rest' next outer hs ih =>
    exact Nat.lt_trans (ih h) (Mode.length_lt_of_skip_eq_cons hs)
  | case4 bracket outer s rest' negated s' hnamed _ hs _ ih =>
    have := Mode.length_lt_of_skip_eq_cons hs
    have := length_readNamed hnamed
    have := ih h
    omega
  | case6 bracket outer s rest' hnamed inner s' hbegin hs _ ih =>
    have := Mode.length_lt_of_skip_eq_cons hs
    have := length_begin hbegin
    have := ih h
    omega
  | case8 bracket outer s c rest' hs _ _ _ ih =>
    have := Mode.length_lt_of_skip_eq_cons hs
    have := ih h
    simp only [List.length_tail] at this
    omega
  | case9 bracket outer s c rest' hs _ _ _ s' hitem ih =>
    have := Mode.length_lt_of_skip_eq_cons hs
    have := length_readItem hitem
    have := ih h
    omega
  | case1 | case5 | case7 | case10 => simp at h

/-- Reads a bracket from behind its beginning: how deep it is nested. -/
def read? (mode : Mode) (s : List Char) : Option (Nat × List Char) :=
  match begin? mode s with
  | none => none
  | some (bracket, s) => readOn? mode bracket [] s

theorem length_read {mode : Mode} {s rest : List Char} {depth : Nat}
    (h : read? mode s = some (depth, rest)) : rest.length < s.length := by
  unfold read? at h
  split at h
  · simp at h
  · rename_i hbegin
    exact Nat.lt_of_lt_of_le (length_readOn h) (length_begin hbegin)

end Bracket

end Lexis.Pattern
