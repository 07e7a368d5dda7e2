import Lexis.Proofs.Json.Value

/-!
# Objects, written and read

`readObject` takes an object apart into the names of its members and the texts of their values,
without a look into the values. From an object that was written it takes what was given
(`readObject_object`), as long as the texts are values (`IsValue`), as quoted texts and integers
are.
-/

set_option autoImplicit false

namespace Lexis.Json

/-! ## Members -/

/-- Reads the next member of an object, its name and the text of its value. -/
def readEntry (s : List Char) : Option ((String × List Char) × List Char) :=
  match skipBlanks s with
  | '"' :: s =>
    match readQuoted s with
    | .error _ => none
    | .ok (name, s) =>
      match expectColon s with
      | .error _ => none
      | .ok s =>
        let value := skipBlanks s
        match skipValue value with
        | .error _ => none
        | .ok rest =>
          some ((.ofList name, value.take (value.length - rest.length)), skipBlanks rest)
  | _ => none

theorem length_readEntry {s rest : List Char} {entry : String × List Char}
    (h : readEntry s = some (entry, rest)) : rest.length < s.length := by
  unfold readEntry at h
  split at h
  · rename_i hskip
    have h0 := length_lt_of_skipBlanks_eq_cons hskip
    split at h
    · cases h
    rename_i hname
    have h1 := shortens_readQuoted hname
    split at h
    · cases h
    rename_i afterColon hcolon
    have h2 := length_expectColon hcolon
    dsimp only at h
    split at h
    · cases h
    rename_i left hvalue
    have h3 := length_skipBlanks_le afterColon
    have h4 := length_skipOpen hvalue
    have h5 := length_skipBlanks_le left
    cases h
    omega
  · cases h

/-- Reads the members of an object that are left, up to the closing brace at the end of the text. -/
def readEntries (s : List Char) : Option (List (String × List Char)) :=
  match _h : readEntry s with
  | some (entry, ',' :: rest) => (readEntries rest).map (entry :: ·)
  | some (entry, ['}']) => some [entry]
  | _ => none
termination_by s.length
decreasing_by
  have := length_readEntry _h
  simp only [List.length_cons] at this
  omega

/-- The members of an object that has some. -/
def readObject (s : List Char) : Option (List (String × List Char)) :=
  match s with
  | '{' :: rest => readEntries rest
  | _ => none

/-! ## Values -/

/-- Behind a value the object goes on or ends. -/
inductive EndsValue : List Char → Prop
  | next (rest : List Char) : EndsValue (',' :: rest)
  | closing (rest : List Char) : EndsValue ('}' :: rest)

theorem EndsValue.endsNumeral {rest : List Char} (h : EndsValue rest) : EndsNumeral rest := by
  cases h with
  | next rest => exact endsNumeral_comma rest
  | closing rest => exact endsNumeral_closing .object rest

theorem EndsValue.skipBlanks {rest : List Char} (h : EndsValue rest) : skipBlanks rest = rest := by
  cases h with
  | next rest => exact skipBlanks_cons (by decide) rest
  | closing rest => exact skipBlanks_cons (by decide) rest

/-- The text is one value without blanks before it. -/
structure IsValue (text : List Char) : Prop where
  begins : ∀ rest, skipBlanks (text ++ rest) = text ++ rest
  skip : ∀ rest, EndsValue rest → skipValue (text ++ rest) = .ok rest

theorem Conforms.isValue {text : List Char} (h : Conforms .value text) : IsValue text where
  begins := by
    intro rest
    obtain ⟨first, others, rfl, hfirst⟩ := h.value_begins
    exact skipBlanks_cons hfirst.isBlank _
  skip := fun _ hrest => h.skipValue hrest.endsNumeral

theorem IsValue.quoted (text : List Char) : IsValue (quoted text) :=
  (conforms_quoted text).isValue

theorem IsValue.integer (i : Int) : IsValue (integer i) :=
  (conforms_integer i).isValue

theorem IsValue.natural (n : Nat) : IsValue (natural n) := by
  rw [← integer_ofNat]
  exact .integer n

/-! ## Objects -/

theorem member_append (name : String) (value rest : List Char) :
    member name value ++ rest =
      '"' :: (name.toList.flatMap escape ++ '"' :: ':' :: (value ++ rest)) := by
  rw [member, List.append_assoc, quoted_append]
  rfl

theorem expectColon_colon (rest : List Char) : expectColon (':' :: rest) = .ok rest :=
  Gap.nil.expectColon rest

/-- A member is read as it was written. -/
theorem readEntry_member (name : String) {value rest : List Char} (hvalue : IsValue value)
    (hrest : EndsValue rest) :
    readEntry (member name value ++ rest) = some ((name, value), rest) := by
  rw [member_append]
  unfold readEntry
  rw [skipBlanks_cons (by decide)]
  simp only [readQuoted_quoted, expectColon_colon, hvalue.begins, hvalue.skip rest hrest,
    hrest.skipBlanks, String.ofList_toList, List.length_append, Nat.add_sub_cancel,
    List.take_left]

/-- What stands behind the opening brace. -/
def objectBody (members : List (String × List Char)) : List Char :=
  List.intercalate [','] (members.map fun m => member m.1 m.2) ++ ['}']

theorem object_eq (members : List (String × List Char)) :
    object members = '{' :: objectBody members := rfl

theorem objectBody_singleton (m : String × List Char) :
    objectBody [m] = member m.1 m.2 ++ ['}'] := by
  simp [objectBody]

theorem objectBody_cons_cons (m n : String × List Char) (members : List (String × List Char)) :
    objectBody (m :: n :: members) = member m.1 m.2 ++ ',' :: objectBody (n :: members) := by
  simp [objectBody]

/-- The members of an object are read as they were written. -/
theorem readObject_object {members : List (String × List Char)} (hne : members ≠ [])
    (hvalues : ∀ m ∈ members, IsValue m.2) : readObject (object members) = some members := by
  show readEntries (objectBody members) = some members
  induction members with
  | nil => exact absurd rfl hne
  | cons m members ih =>
    obtain ⟨hm, hmembers⟩ := List.forall_mem_cons.1 hvalues
    cases members with
    | nil =>
      rw [objectBody_singleton, readEntries]
      have hentry := readEntry_member m.1 hm (.closing [])
      split <;> simp_all
    | cons n members =>
      have ih := ih (List.cons_ne_nil n members) hmembers
      rw [objectBody_cons_cons, readEntries]
      have hentry := readEntry_member m.1 hm (.next (objectBody (n :: members)))
      split <;> simp_all

theorem printable_member {name : String} {value : List Char} (h : Printable value) :
    Printable (member name value) :=
  .append (printable_quoted _) (.cons (by decide) h)

theorem printable_object {members : List (String × List Char)}
    (h : ∀ m ∈ members, Printable m.2) : Printable (object members) := by
  rw [object_eq]
  refine .cons (by decide) ?_
  induction members with
  | nil => decide
  | cons m members ih =>
    obtain ⟨hm, hmembers⟩ := List.forall_mem_cons.1 h
    have ih := ih hmembers
    cases members with
    | nil =>
      rw [objectBody_singleton]
      exact .append (printable_member hm) (by decide)
    | cons n members =>
      rw [objectBody_cons_cons]
      exact .append (printable_member hm) (.cons (by decide) ih)

end Lexis.Json
