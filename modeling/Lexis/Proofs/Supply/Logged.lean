import Lexis.Supply.Basic

/-!
# Sources of lines

A source is asked for lines by any function `pull`; it may have no end.

* `GivesAtMost`: no more than so many lines come before the end, or at all.
* `Logged`: the source, with the answers that it has given so far.
-/

set_option autoImplicit false

namespace Lexis

section
variable {σ : Type} (pull : σ → Pull × σ)

/-- How many lines there are among the first answers, which are looked at up to the end of the
input. -/
def linesWithin : Nat → σ → Nat
  | 0, _ => 0
  | n + 1, supply =>
    match pull supply with
    | (.line _, supply) => linesWithin n supply + 1
    | (.finished, _) => 0
    | (.failed _, supply) => linesWithin n supply

/-- However many answers there are, no more than `most` of them are lines. -/
def GivesAtMost (most : Nat) (supply : σ) : Prop :=
  ∀ n, linesWithin pull n supply ≤ most

end

section
variable {σ : Type} {pull : σ → Pull × σ} {supply next : σ} {most : Nat}

/-- Behind a line there is one line less. -/
theorem GivesAtMost.of_line {text : String} (h : GivesAtMost pull most supply)
    (hpull : pull supply = (.line text, next)) : ∃ less < most, GivesAtMost pull less next := by
  have hmost : ∀ n, linesWithin pull n next + 1 ≤ most := by
    intro n
    have hmore := h (n + 1)
    rwa [linesWithin, hpull] at hmore
  have hpos : 1 ≤ most := hmost 0
  refine ⟨most - 1, by omega, fun n => ?_⟩
  have hless := hmost n
  omega

theorem GivesAtMost.of_failed {error : IoError} (h : GivesAtMost pull most supply)
    (hpull : pull supply = (.failed error, next)) : GivesAtMost pull most next := by
  intro n
  have hmore := h (n + 1)
  rwa [linesWithin, hpull] at hmore

end

/-- A source with the answers that it has given so far. -/
structure Logged (σ : Type) where
  supply : σ
  answers : List Pull

namespace Logged

variable {σ : Type}

def pull (pull : σ → Pull × σ) (logged : Logged σ) : Pull × Logged σ :=
  let answer := pull logged.supply
  (answer.1, ⟨answer.2, logged.answers ++ [answer.1]⟩)

/-- The lines among the answers. -/
def lines (logged : Logged σ) : List String :=
  logged.answers.filterMap fun
    | .line text => some text
    | _ => none

instance [LineSupply σ] : LineSupply (Logged σ) where
  pull := pull LineSupply.pull
  remaining logged := LineSupply.remaining logged.supply
  remaining_lt := by
    intro s s' text h
    simp only [pull, Prod.mk.injEq] at h
    obtain ⟨htext, rfl⟩ := h
    exact LineSupply.remaining_lt (Prod.ext htext rfl)

end Logged

section
variable {σ : Type} {pull : σ → Pull × σ} {logged next : Logged σ}

theorem Logged.lines_of_line {text : String} (h : Logged.pull pull logged = (.line text, next)) :
    next.lines = logged.lines ++ [text] := by
  obtain ⟨hanswer, rfl⟩ := Prod.mk.inj h
  simp only [lines, List.filterMap_append, hanswer, List.filterMap_cons, List.filterMap_nil]

theorem Logged.lines_of_finished (h : Logged.pull pull logged = (.finished, next)) :
    next.lines = logged.lines := by
  obtain ⟨hanswer, rfl⟩ := Prod.mk.inj h
  simp only [lines, List.filterMap_append, hanswer, List.filterMap_cons, List.filterMap_nil,
    List.append_nil]

theorem Logged.lines_of_failed {error : IoError}
    (h : Logged.pull pull logged = (.failed error, next)) : next.lines = logged.lines := by
  obtain ⟨hanswer, rfl⟩ := Prod.mk.inj h
  simp only [lines, List.filterMap_append, hanswer, List.filterMap_cons, List.filterMap_nil,
    List.append_nil]

end

theorem GivesAtMost.logged {σ : Type} {pull : σ → Pull × σ} {most : Nat} {supply : σ}
    (h : GivesAtMost pull most supply) (answers : List Pull) :
    GivesAtMost (Logged.pull pull) most ⟨supply, answers⟩ := by
  intro n
  have hsame : linesWithin (Logged.pull pull) n ⟨supply, answers⟩ = linesWithin pull n supply := by
    clear h
    induction n generalizing supply answers with
    | zero => rfl
    | succ n ih =>
      rw [linesWithin, linesWithin, Logged.pull]
      rcases pull supply with ⟨_ | _ | _, next⟩ <;> simp only [ih]
  rw [hsame]
  exact h n

end Lexis
