import Lexis.Token.Basic
import Lexis.Json.Skip

/-!
# Tokens from JSON text

A kind is read from its name, or from an object that has the name as its only member, with the
value null. A token is read from an object with the members kind, lexeme and line in any order,
among any other members, or from a list of the three. Every fault is reported where it is met:

* a kind that is neither a string nor an object is malformed, and so is an object that begins with
  anything but a string; a string that is no name is unsuitable;
* a second member of a known name is unsuitable before its value is looked at;
* a missing member is unsuitable at the closing brace;
* a list that is too short is unsuitable at its closing bracket, one that goes on malformed at the
  comma.
-/

set_option autoImplicit false

namespace Lexis

open Json

namespace Kind

/-- Reads the rest of the name of a kind, up to the closing quote. -/
def readName : Reader Kind := fun s =>
  match readQuoted s with
  | .error fault => .error fault
  | .ok (name, rest) =>
    match ofName? (.ofList name) with
    | some kind => .ok (kind, rest)
    | none => .error .unsuitable

/-- Reads the inside of an object that holds a kind, and its closing brace. -/
def readObject : Reader Kind := fun s =>
  match skipBlanks s with
  | [] => .error .truncated
  | c :: rest =>
    if c = '"' then
      match readName rest with
      | .error fault => .error fault
      | .ok (kind, rest) =>
        match expectColon rest with
        | .error fault => .error fault
        | .ok rest =>
          match readNull rest with
          | .error fault => .error fault
          | .ok rest => (expectClosing .object rest).map fun rest => (kind, rest)
    else .error .malformed

/-- Reads a kind. -/
def read : Reader Kind := fun s =>
  match skipBlanks s with
  | [] => .error .truncated
  | c :: rest =>
    if c = '"' then readName rest
    else if c = '{' then readObject rest
    else .error .malformed

theorem shortens_readName : Shortens readName := by
  intro s rest kind h
  unfold readName at h
  split at h
  · simp at h
  · rename_i hquoted
    split at h
    · simp only [Except.ok.injEq, Prod.mk.injEq] at h
      exact h.2 ▸ shortens_readQuoted hquoted
    · simp at h

theorem shortens_readObject : Shortens readObject := by
  intro s rest kind h
  unfold readObject at h
  split at h
  · simp at h
  rename_i hskip
  have h0 := length_lt_of_skipBlanks_eq_cons hskip
  split at h
  · split at h
    · simp at h
    rename_i hname
    have h1 := shortens_readName hname
    split at h
    · simp at h
    rename_i hcolon
    have h2 := length_expectColon hcolon
    split at h
    · simp at h
    rename_i hnull
    have h3 := length_readNull hnull
    obtain ⟨left, hclosing, heq⟩ := map_eq_ok h
    simp only [Prod.mk.injEq] at heq
    have h4 := length_expectClosing hclosing
    rw [← heq.2]
    omega
  · simp at h

theorem shortens_read : Shortens read := by
  intro s rest kind h
  unfold read at h
  split at h
  · simp at h
  rename_i hskip
  have := length_lt_of_skipBlanks_eq_cons hskip
  split at h
  · exact Nat.lt_trans (shortens_readName h) this
  split at h
  · exact Nat.lt_trans (shortens_readObject h) this
  · simp at h

/-- The kind that a JSON text writes. -/
def ofJson (text : String) : Except Fault Kind :=
  readText read text.toList

end Kind

namespace Token

/-- Reads a text. -/
def readLexeme : Reader String := fun s =>
  match skipBlanks s with
  | [] => .error .truncated
  | c :: rest =>
    if c = '"' then (readQuoted rest).map fun taken => (.ofList taken.1, taken.2)
    else .error (refuse (c :: rest))

/-- Reads a natural number. -/
def readLine : Reader Nat := fun s =>
  match skipBlanks s with
  | [] => .error .truncated
  | c :: rest =>
    if c = '-' ∨ c.isDigit = true then
      match readNatural (c :: rest) with
      | .error fault => .error fault
      | .ok (some line, rest) => .ok (line, rest)
      | .ok (none, _) => .error .unsuitable
    else .error (refuse (c :: rest))

theorem shortens_readLexeme : Shortens readLexeme := by
  intro s rest lexeme h
  unfold readLexeme at h
  split at h
  · simp at h
  rename_i hskip
  have := length_lt_of_skipBlanks_eq_cons hskip
  split at h
  · obtain ⟨⟨text, left⟩, hquoted, heq⟩ := map_eq_ok h
    simp only [Prod.mk.injEq] at heq
    exact Nat.lt_trans (heq.2 ▸ shortens_readQuoted hquoted) this
  · simp at h

theorem shortens_readLine : Shortens readLine := by
  intro s rest line h
  unfold readLine at h
  split at h
  · simp at h
  rename_i hskip
  have := length_skipBlanks_le s
  rw [hskip] at this
  split at h
  · split at h
    · simp at h
    · rename_i hnatural
      simp only [Except.ok.injEq, Prod.mk.injEq] at h
      exact h.2 ▸ Nat.lt_of_lt_of_le (shortens_readNatural hnatural) this
    · simp at h
  · simp at h

/-- The members of a token that have been read. -/
structure Members where
  kind : Option Kind
  lexeme : Option String
  line : Option Nat

namespace Members

def none : Members :=
  ⟨.none, .none, .none⟩

/-- The token, when no member is missing. -/
def token? : Members → Option Token
  | ⟨some kind, some lexeme, some line⟩ => some ⟨kind, lexeme, line⟩
  | _ => .none

/-- Whether a member of that name has been read. -/
def has (members : Members) (name : String) : Bool :=
  (name == "kind" && members.kind.isSome) || (name == "lexeme" && members.lexeme.isSome) ||
    (name == "line" && members.line.isSome)

/-- Reads the value of the member `name`; the value of any other member is passed over. -/
def readValue (members : Members) (name : String) : Reader Members := fun s =>
  if name = "kind" then (Kind.read s).map fun r => ({ members with kind := some r.1 }, r.2)
  else if name = "lexeme" then
    (readLexeme s).map fun r => ({ members with lexeme := some r.1 }, r.2)
  else if name = "line" then (readLine s).map fun r => ({ members with line := some r.1 }, r.2)
  else (skipValue s).map fun rest => (members, rest)

/-- Reads a member from behind the opening quote of its name. -/
def readMember (members : Members) : Reader Members := fun s =>
  match readQuoted s with
  | .error fault => .error fault
  | .ok (chars, rest) =>
    let name := String.ofList chars
    if members.has name then .error .unsuitable
    else
      match expectColon rest with
      | .error fault => .error fault
      | .ok rest => members.readValue name rest

theorem length_readValue {members members' : Members} {name : String} {s rest : List Char}
    (h : members.readValue name s = .ok (members', rest)) : rest.length ≤ s.length := by
  unfold readValue at h
  split at h
  · obtain ⟨r, hread, heq⟩ := map_eq_ok h
    simp only [Prod.mk.injEq] at heq
    exact Nat.le_of_lt (heq.2 ▸ Kind.shortens_read hread)
  split at h
  · obtain ⟨r, hread, heq⟩ := map_eq_ok h
    simp only [Prod.mk.injEq] at heq
    exact Nat.le_of_lt (heq.2 ▸ shortens_readLexeme hread)
  split at h
  · obtain ⟨r, hread, heq⟩ := map_eq_ok h
    simp only [Prod.mk.injEq] at heq
    exact Nat.le_of_lt (heq.2 ▸ shortens_readLine hread)
  · obtain ⟨r, hread, heq⟩ := map_eq_ok h
    simp only [Prod.mk.injEq] at heq
    exact heq.2 ▸ length_skipOpen hread

theorem shortens_readMember (members : Members) : Shortens members.readMember := by
  intro s rest members' h
  unfold readMember at h
  split at h
  · simp at h
  rename_i hquoted
  have h1 := shortens_readQuoted hquoted
  dsimp only at h
  split at h
  · simp at h
  split at h
  · simp at h
  rename_i hcolon
  have h2 := length_expectColon hcolon
  have h3 := length_readValue h
  omega

end Members

/-- Reads the members of a token that are left, and the closing brace. -/
def readMembers (first : Bool) (members : Members) (s : List Char) :
    Except Fault (Token × List Char) :=
  match _h : skipBlanks s with
  | [] => .error .truncated
  | c :: rest =>
    if c = '}' then
      match members.token? with
      | some token => .ok (token, rest)
      | none => .error .unsuitable
    else if first = true then
      if c = '"' then
        match _h' : members.readMember rest with
        | .error fault => .error fault
        | .ok (members, rest) => readMembers false members rest
      else .error .malformed
    else if c = ',' then
      match _h'' : skipBlanks rest with
      | [] => .error .truncated
      | d :: rest =>
        if d = '"' then
          match _h' : members.readMember rest with
          | .error fault => .error fault
          | .ok (members, rest) => readMembers false members rest
        else .error .malformed
    else .error .malformed
termination_by s.length
decreasing_by
  · exact Nat.lt_trans (Members.shortens_readMember _ _h')
      (length_lt_of_skipBlanks_eq_cons _h)
  · exact Nat.lt_trans (Members.shortens_readMember _ _h')
      (Nat.lt_trans (length_lt_of_skipBlanks_eq_cons _h'') (length_lt_of_skipBlanks_eq_cons _h))

/-- Goes on to the next of the elements of a list, of which one has been read. -/
def readComma (s : List Char) : Except Fault (List Char) :=
  match skipBlanks s with
  | [] => .error .truncated
  | c :: rest =>
    if c = ']' then .error .unsuitable
    else if c = ',' then
      match skipBlanks rest with
      | [] => .error .truncated
      | d :: rest => if d = ']' then .error .malformed else .ok (d :: rest)
    else .error .malformed

/-- Reads the elements of a token that is written as a list, and the closing bracket. -/
def readElements : Reader Token := fun s =>
  match skipBlanks s with
  | [] => .error .truncated
  | c :: rest =>
    if c = ']' then .error .unsuitable
    else
      match Kind.read (c :: rest) with
      | .error fault => .error fault
      | .ok (kind, rest) =>
        match readComma rest with
        | .error fault => .error fault
        | .ok rest =>
          match readLexeme rest with
          | .error fault => .error fault
          | .ok (lexeme, rest) =>
            match readComma rest with
            | .error fault => .error fault
            | .ok rest =>
              match readLine rest with
              | .error fault => .error fault
              | .ok (line, rest) =>
                (expectClosing .list rest).map fun rest => (⟨kind, lexeme, line⟩, rest)

/-- Reads a token. -/
def read : Reader Token := fun s =>
  match skipBlanks s with
  | [] => .error .truncated
  | c :: rest =>
    if c = '[' then readElements rest
    else if c = '{' then readMembers true .none rest
    else .error (refuse (c :: rest))

/-- The token that a JSON text writes. -/
def ofJson (text : String) : Except Fault Token :=
  readText read text.toList

end Token

end Lexis
