import Lexis.Lexeme.ByColumn
import Lexis.Proofs.Lexeme.Spelling

/-!
# Reading by columns is reading by parts

`Lexeme.at?` reads a line by index, `cutBody` divides what is ahead of a place. Behind any part of
a line both find the same lexeme, and every slice that is taken lies in the line (`at?_append`).
-/

set_option autoImplicit false

namespace Lexis

theorem slice?_eq_some_iff {line : List Char} {start stop : Nat} {text : String} :
    slice? line start stop = some text ↔
      start ≤ stop ∧ stop ≤ line.length ∧ text = String.ofList ((line.take stop).drop start) := by
  unfold slice?
  split
  · rename_i hbounds
    simp only [Option.some.injEq, hbounds, true_and, eq_comm]
  · rename_i hbounds
    constructor
    · exact nofun
    · rintro ⟨hstart, hstop, _⟩
      exact absurd ⟨hstart, hstop⟩ hbounds

/-- A part of a line is the slice between its ends. -/
theorem slice?_append (before text after : List Char) :
    slice? (before ++ (text ++ after)) before.length (before.length + text.length) =
      some (String.ofList text) := by
  rw [slice?_eq_some_iff]
  refine ⟨Nat.le_add_right .., ?_, ?_⟩
  · simp only [List.length_append]
    omega
  · rw [List.take_length_add_append, List.drop_left, List.take_left]

section
variable (before : List Char)

/-! ## Loops -/

/-- At the column in front of a part stands the first character of the part. -/
theorem getElem?_length_append (rest : List Char) :
    (before ++ rest)[before.length]? = rest.head? := by
  rw [List.getElem?_append_right (Nat.le_refl _), Nat.sub_self, List.head?_eq_getElem?]

theorem lt_length_append_cons (c : Char) (rest : List Char) :
    before.length < (before ++ c :: rest).length := by
  rw [List.length_append, List.length_cons]
  omega

theorem getElem_length_append_cons (c : Char) (rest : List Char)
    (h : before.length < (before ++ c :: rest).length) :
    (before ++ c :: rest)[before.length] = c := by
  rw [List.getElem_append_right (Nat.le_refl _)]
  simp only [Nat.sub_self, List.getElem_cons_zero]

theorem passWhile_nil (test : Char → Bool) :
    passWhile test before before.length = before.length := by
  rw [passWhile, dif_neg (Nat.lt_irrefl _)]

/-- One turn of the loop moves a character from one part of the line to the other. -/
theorem passWhile_cons (test : Char → Bool) (c : Char) (rest : List Char) :
    passWhile test (before ++ c :: rest) before.length =
      if test c then passWhile test ((before ++ [c]) ++ rest) (before ++ [c]).length
      else before.length := by
  rw [passWhile, dif_pos (lt_length_append_cons before c rest), getElem_length_append_cons,
    List.append_assoc, List.singleton_append, List.length_append, List.length_singleton]

theorem passWhile_append (test : Char → Bool) (rest : List Char) :
    passWhile test (before ++ rest) before.length =
      before.length + (rest.takeWhile test).length := by
  induction rest generalizing before with
  | nil => rw [List.append_nil, passWhile_nil, List.takeWhile_nil, List.length_nil, Nat.add_zero]
  | cons c rest ih =>
    rw [passWhile_cons, ih, List.takeWhile_cons]
    cases test c with
    | false => rfl
    | true =>
      simp only [if_true, List.length_append, List.length_cons, List.length_nil]
      omega

theorem passNumber_nil (seenDot : Bool) :
    passNumber before seenDot before.length = (seenDot, before.length) := by
  rw [passNumber, dif_neg (Nat.lt_irrefl _)]

theorem passNumber_cons (seenDot : Bool) (c : Char) (rest : List Char) :
    passNumber (before ++ c :: rest) seenDot before.length =
      if c = '.' then
        if seenDot then (seenDot, before.length)
        else passNumber ((before ++ [c]) ++ rest) true (before ++ [c]).length
      else if c.isDigit then passNumber ((before ++ [c]) ++ rest) seenDot (before ++ [c]).length
      else (seenDot, before.length) := by
  rw [passNumber, dif_pos (lt_length_append_cons before c rest), getElem_length_append_cons,
    List.append_assoc, List.singleton_append, List.length_append, List.length_singleton]

/-- Behind the dot only digits are passed. -/
theorem passNumber_of_dot (rest : List Char) :
    passNumber (before ++ rest) true before.length =
      (true, before.length + (rest.takeWhile Char.isDigit).length) := by
  induction rest generalizing before with
  | nil => rw [List.append_nil, passNumber_nil, List.takeWhile_nil, List.length_nil, Nat.add_zero]
  | cons c rest ih =>
    rw [passNumber_cons, ih, List.takeWhile_cons]
    by_cases hdot : c = '.'
    · subst hdot
      rfl
    · rw [if_neg hdot]
      cases c.isDigit with
      | false => rfl
      | true =>
        simp only [if_true, List.length_append, List.length_cons, List.length_nil]
        exact Prod.ext rfl (by omega)

theorem cutNumber_cons_of_digit {c : Char} (h : c.isDigit = true) (rest : List Char) :
    cutNumber (c :: rest) = (c :: (cutNumber rest).1, (cutNumber rest).2) := by
  unfold cutNumber
  rw [List.dropWhile_cons_of_pos h, List.takeWhile_cons_of_pos h]
  split <;> rfl

theorem cutNumber_cons_of_end {c : Char} (h : c.isDigit = false) (hdot : c ≠ '.')
    (rest : List Char) : cutNumber (c :: rest) = ([], c :: rest) := by
  unfold cutNumber
  rw [List.dropWhile_cons_of_neg (by simp [h]), List.takeWhile_cons_of_neg (by simp [h])]
  split
  · rename_i heq
    exact absurd (List.cons.inj heq).1 hdot
  · rfl

theorem passNumber_append (rest : List Char) :
    passNumber (before ++ rest) false before.length =
      ((cutNumber rest).1.contains '.', before.length + (cutNumber rest).1.length) := by
  induction rest generalizing before with
  | nil =>
    rw [List.append_nil, passNumber_nil]
    rfl
  | cons c rest ih =>
    rw [passNumber_cons, ih, passNumber_of_dot]
    by_cases hdot : c = '.'
    · subst hdot
      have hcut : cutNumber ('.' :: rest) =
          ('.' :: rest.takeWhile Char.isDigit, rest.dropWhile Char.isDigit) := rfl
      rw [hcut]
      simp only [if_true, if_false, Bool.false_eq_true, List.length_append, List.length_cons,
        List.length_nil, List.contains_cons, beq_self_eq_true, Bool.true_or]
      exact Prod.ext rfl (by omega)
    · rw [if_neg hdot]
      cases hdigit : c.isDigit with
      | false =>
        rw [cutNumber_cons_of_end hdigit hdot]
        rfl
      | true =>
        rw [cutNumber_cons_of_digit hdigit]
        simp only [if_true, List.length_append, List.length_cons, List.length_nil,
          List.contains_cons, beq_false_of_ne (Ne.symm hdot), Bool.false_or]
        exact Prod.ext rfl (by omega)

end

/-! ## The lexemes -/

namespace Lexeme

variable (before : List Char) {first : Char} (rest : List Char)

/-- The text of a lexeme is the slice up to the column behind it. -/
theorem slice?_cons {body after : List Char} (h : body ++ after = rest) :
    slice? (before ++ first :: rest) before.length (before.length + 1 + body.length) =
      some (String.ofList (first :: body)) := by
  have hslice := slice?_append before (first :: body) after
  rw [List.cons_append, h, List.length_cons, Nat.add_comm body.length, ← Nat.add_assoc] at hslice
  exact hslice

theorem wordAt_append (hfirst : isLetter first = true) :
    wordAt (before ++ first :: rest) before.length =
      some (classify first (cutWord rest).1, before.length + 1 + (cutWord rest).1.length) := by
  have hstop : passWhile isWordChar (before ++ first :: rest) before.length =
      before.length + 1 + (cutWord rest).1.length := by
    have hword : isWordChar first = true := isWordChar_iff.2 (.inl hfirst)
    rw [passWhile_append, List.takeWhile_cons_of_pos hword, List.length_cons, cutWord]
    dsimp only
    omega
  unfold wordAt
  rw [hstop]
  dsimp only
  rw [slice?_cons before rest (cutWord_append rest), Option.map_some,
    classify_of_word (shape_of_letter hfirst), classifyWord]
  cases Kind.ofReservedWord? (String.ofList (first :: (cutWord rest).1)) with
  | some kind => rfl
  | none => simp only [String.toList_ofList, List.head?_cons, Option.any_some]

theorem numberAt_append (hfirst : first.isDigit = true) :
    numberAt (before ++ first :: rest) before.length =
      some (classify first (cutNumber rest).1, before.length + 1 + (cutNumber rest).1.length) := by
  have hdot : ('.' == first) = false := by
    rw [beq_eq_false_iff_ne]
    rintro rfl
    exact absurd hfirst (by decide)
  have hpassed : passNumber (before ++ first :: rest) false before.length =
      ((cutNumber rest).1.contains '.', before.length + 1 + (cutNumber rest).1.length) := by
    rw [passNumber_append, cutNumber_cons_of_digit hfirst, List.contains_cons, hdot,
      Bool.false_or, List.length_cons]
    exact Prod.ext rfl (by omega)
  unfold numberAt
  rw [hpassed]
  dsimp only
  rw [slice?_cons before rest (cutNumber_append rest), Option.map_some,
    classify_of_number (shape_of_digit hfirst), classifyNumber]

/-- The loop of a string begins behind its first quote. -/
theorem passWhile_quoted :
    passWhile (· != '"') (before ++ '"' :: rest) (before.length + 1) =
      before.length + 1 + (rest.takeWhile (· != '"')).length := by
  have hpass := passWhile_append (before ++ ['"']) (· != '"') rest
  rwa [List.append_assoc, List.singleton_append, List.length_append, List.length_singleton]
    at hpass

theorem quotedAt_append :
    quotedAt (before ++ '"' :: rest) before.length =
      some (classify '"' (cutQuoted rest).1, before.length + 1 + (cutQuoted rest).1.length) := by
  unfold quotedAt
  rw [passWhile_quoted]
  dsimp only
  by_cases hquote : '"' ∈ rest
  · obtain ⟨inner, after, rfl, hinner⟩ := List.eq_append_cons_of_mem hquote
    have htake : (inner ++ '"' :: after).takeWhile (· != '"') = inner := by
      rw [List.takeWhile_append_of_pos (bne_quote_of_not_mem hinner),
        List.takeWhile_cons_of_neg (by simp), List.append_nil]
    have hfound := getElem?_length_append (before ++ '"' :: inner) ('"' :: after)
    have hslice := slice?_append (before ++ ['"']) inner ('"' :: after)
    simp only [List.append_assoc, List.cons_append, List.nil_append, List.length_append,
      List.length_cons, List.length_nil, Nat.zero_add] at hfound hslice
    have hstop : before.length + 1 + inner.length = before.length + (inner.length + 1) := by omega
    rw [htake, cutQuoted_of_quote hinner, classify_closed, hstop, hfound, List.head?_cons,
      if_pos Option.isSome_some, ← hstop, hslice, Option.map_some, List.length_append,
      List.length_singleton, Nat.add_assoc (before.length + 1)]
  · have htake : rest.takeWhile (· != '"') = rest :=
      List.takeWhile_eq_self_iff.2 (bne_quote_of_not_mem hquote)
    have hlength : (before ++ '"' :: rest).length = before.length + 1 + rest.length := by
      simp only [List.length_append, List.length_cons]
      omega
    have hnone : (before ++ '"' :: rest)[before.length + 1 + rest.length]? = none :=
      List.getElem?_eq_none (Nat.le_of_eq hlength)
    rw [htake, cutQuoted_of_not_mem hquote, classify_open hquote, hnone, if_neg (by decide),
      hlength, slice?_cons before rest (List.append_nil rest), Option.map_some]

theorem joinsEquals_iff : joinsEquals first = true ↔ first ∈ equalsPartners := by
  simp [joinsEquals, equalsPartners, or_assoc]

/-- A symbol of two signs is there when an equals sign follows that joins the first. -/
theorem symbol?_of_joined (h : joinsEquals first = true) :
    symbol? first (some '=') = (Kind.ofSymbol? (String.ofList [first, '='])).map (·, 2) := by
  have hsome := ofSymbol?_joined (joinsEquals_iff.1 h)
  unfold symbol?
  cases hkind : Kind.ofSymbol? (String.ofList [first, '=']) with
  | none => exact absurd hkind hsome
  | some kind => rfl

theorem symbol?_of_not_joined {next : Option Char}
    (h : next = some '=' → joinsEquals first = false) :
    symbol? first next = (Kind.ofSymbol? (String.ofList [first])).map (·, 1) := by
  unfold symbol?
  dsimp only
  split
  · rename_i hnext
    cases hkind : Kind.ofSymbol? (String.ofList [first, '=']) with
    | none => rfl
    | some kind =>
      obtain ⟨_, other, body, hsplit, hsymbol⟩ :=
        mem_symbols_cases (Kind.mem_of_ofSymbol? hkind)
      rw [String.toList_ofList] at hsplit
      obtain ⟨rfl, rfl⟩ := List.cons.inj hsplit
      have hjoined := hsymbol.body.resolve_left (List.cons_ne_nil '=' [])
      rw [joinsEquals_iff.2 hjoined.1] at h
      exact absurd (h hnext) Bool.noConfusion
  · rfl

theorem symbolAt_of_body {body after : List Char} (hshape : Shape.of first = .symbol)
    (hrest : body ++ after = rest)
    (hsymbol : symbol? first rest.head? =
      (Kind.ofSymbol? (String.ofList (first :: body))).map (·, 1 + body.length))
    (hnone : Kind.ofSymbol? (String.ofList (first :: body)) = none → body = []) :
    symbolAt (before ++ first :: rest) before.length first =
      some (classify first body, before.length + 1 + body.length) := by
  have hnext : (before ++ first :: rest)[before.length + 1]? = rest.head? := by
    have hget := getElem?_length_append (before ++ [first]) rest
    rwa [List.append_assoc, List.singleton_append, List.length_append, List.length_singleton]
      at hget
  unfold symbolAt
  rw [hnext, hsymbol, classify_of_symbol hshape, classifySymbol]
  cases hkind : Kind.ofSymbol? (String.ofList (first :: body)) with
  | none =>
    obtain rfl := hnone hkind
    rfl
  | some kind =>
    simp only [Option.map_some, ← Nat.add_assoc, slice?_cons before rest hrest]

theorem symbolAt_append (hshape : Shape.of first = .symbol) :
    symbolAt (before ++ first :: rest) before.length first =
      some (classify first (cutSymbol first rest).1,
        before.length + 1 + (cutSymbol first rest).1.length) := by
  unfold cutSymbol
  split
  · rename_i after
    split
    · rename_i hjoined
      refine symbolAt_of_body before _ hshape rfl (symbol?_of_joined hjoined) fun hnone => ?_
      exact absurd hnone (ofSymbol?_joined (joinsEquals_iff.1 hjoined))
    · rename_i hjoined
      refine symbolAt_of_body before _ hshape rfl (symbol?_of_not_joined fun _ => ?_) fun _ => rfl
      exact Bool.eq_false_iff.2 hjoined
  · rename_i hnext
    refine symbolAt_of_body before _ hshape rfl (symbol?_of_not_joined fun hhead => ?_) fun _ => rfl
    obtain ⟨after, hafter⟩ := List.head?_eq_some_iff.1 hhead
    exact absurd hafter (hnext after)

/-- Behind any part of a line the lexeme is found by its columns, every slice lies in the line,
and the lexeme ends where it is cut off. -/
theorem at?_append :
    at? (before ++ first :: rest) before.length first =
      some (classify first (cutBody first rest).1,
        before.length + 1 + (cutBody first rest).1.length) := by
  unfold at? cutBody
  cases hshape : Shape.of first with
  | word => exact wordAt_append before rest (isLetter_of_shape hshape)
  | number => exact numberAt_append before rest (isDigit_of_shape hshape)
  | quoted =>
    obtain rfl := eq_quote_of_shape hshape
    exact quotedAt_append before rest
  | symbol => exact symbolAt_append before rest hshape

end Lexeme

end Lexis
