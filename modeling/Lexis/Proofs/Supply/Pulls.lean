import Lexis.Supply.Basic

/-!
# The answers of a supply

A supply that is pulled again and again gives one answer after the other, and goes on answering
behind an end or a failure. `answers supply n` are the first `n` of them, whoever asks, and
`after supply n` is the supply behind them. A pull succeeds when it gives a line or says that
there is none. By `Yields` a supply gives some lines in a row.
-/

set_option autoImplicit false

namespace Lexis

namespace Pull

def isFailed : Pull → Bool
  | .failed _ => true
  | _ => false

/-- A line, or the end of the input. -/
def succeeded (pull : Pull) : Bool :=
  !pull.isFailed

theorem countP_succeeded_add_countP_isFailed (pulls : List Pull) :
    pulls.countP succeeded + pulls.countP isFailed = pulls.length := by
  rw [Nat.add_comm, List.length_eq_countP_add_countP isFailed]
  congr 2
  funext pull
  cases hfailed : pull.isFailed <;> simp [succeeded, hfailed]

end Pull

namespace LineSupply

variable {σ τ : Type} [LineSupply σ] [LineSupply τ]

/-- The supply after `n` pulls. -/
def after (supply : σ) : Nat → σ
  | 0 => supply
  | n + 1 => (pull (after supply n)).2

/-- The answers to the first `n` pulls. -/
def answers (supply : σ) : Nat → List Pull
  | 0 => []
  | n + 1 => answers supply n ++ [(pull (after supply n)).1]

theorem length_answers (supply : σ) (n : Nat) : (answers supply n).length = n := by
  induction n with
  | zero => rfl
  | succ n ih => rw [answers, List.length_append, ih, List.length_singleton]

theorem prefix_answers (supply : σ) {m n : Nat} (h : m ≤ n) :
    answers supply m <+: answers supply n := by
  induction h with
  | refl => exact List.prefix_rfl
  | step _ ih => exact ih.trans (List.prefix_append ..)

theorem after_succ (supply : σ) (n : Nat) :
    after supply (n + 1) = after (pull supply).2 n := by
  induction n with
  | zero => rfl
  | succ n ih => rw [after, ih, after]

/-- The first answer and the others. -/
theorem answers_succ (supply : σ) (n : Nat) :
    answers supply (n + 1) = (pull supply).1 :: answers (pull supply).2 n := by
  induction n with
  | zero => rfl
  | succ n ih => rw [answers, ih, after_succ, answers, List.cons_append]

/-- Supplies that agree on their first answers agree on fewer of them. -/
theorem answers_eq_of_le {s : σ} {t : τ} {m n : Nat} (h : answers s n = answers t n)
    (hle : m ≤ n) : answers s m = answers t m := by
  have hs := List.prefix_iff_eq_take.1 (prefix_answers s hle)
  have ht := List.prefix_iff_eq_take.1 (prefix_answers t hle)
  rw [hs, ht, length_answers, length_answers, h]

/-- Supplies that agree on one answer more give the same answer next. -/
theorem pull_after_eq {s : σ} {t : τ} {n : Nat} (h : answers s (n + 1) = answers t (n + 1)) :
    (pull (after s n)).1 = (pull (after t n)).1 :=
  List.singleton_inj.1 (List.append_inj' h rfl).2

/-- The supply gives the lines one after the other, and is `rest` behind them. -/
inductive Yields : σ → List String → σ → Prop
  | nil (supply : σ) : Yields supply [] supply
  | cons {supply next rest : σ} {line : String} {lines : List String}
      (hpull : pull supply = (.line line, next)) (h : Yields next lines rest) :
    Yields supply (line :: lines) rest

/-- A supply that answers as another one does gives the same lines. -/
theorem Yields.map {f : σ → τ} (hf : ∀ s, pull (f s) = ((pull s).1, f (pull s).2))
    {supply rest : σ} {lines : List String} (h : Yields supply lines rest) :
    Yields (f supply) lines (f rest) := by
  induction h with
  | nil supply => exact .nil (f supply)
  | cons hpull _ ih => exact .cons (by rw [hf, hpull]) ih

end LineSupply

namespace Counted

variable {σ : Type} [LineSupply σ]

/-- A counted supply answers as the supply does, and counts one more pull. -/
theorem pull_eq (counted : Counted σ) :
    LineSupply.pull counted = ((LineSupply.pull counted.supply).1,
      ⟨(LineSupply.pull counted.supply).2, counted.pulls + 1⟩) := rfl

end Counted

end Lexis
