import Mathlib.Data.List.Basic

/-!
# Lists cut after an element

A list is cut behind each occurrence of an element, as a text is cut into lines behind its
newlines and its bytes behind the newline bytes. The list is empty, or a last part without the
element, or a part up to its first occurrence and the list behind it (`cutAfter_induction`). Parts
may be taken out, and the others stay what they were (`cutAfter_flatten_filter`); so do the first
parts without the others (`cutAfter_flatten_prefix`).
-/

set_option autoImplicit false

namespace Lexis

variable {α : Type} [DecidableEq α]

def cutAfter (stop : α) : List α → List (List α)
  | [] => []
  | a :: rest =>
    if a = stop then [a] :: cutAfter stop rest
    else
      match cutAfter stop rest with
      | [] => [[a]]
      | part :: others => (a :: part) :: others

variable {stop : α}

/-- What stands up to the first occurrence is a part. -/
theorem cutAfter_append_stop {part : List α} (h : stop ∉ part) (rest : List α) :
    cutAfter stop (part ++ stop :: rest) = (part ++ [stop]) :: cutAfter stop rest := by
  induction part with
  | nil => simp [cutAfter]
  | cons a part ih =>
    have ha : a ≠ stop := (List.ne_of_not_mem_cons h).symm
    have hpart : stop ∉ part := List.not_mem_of_not_mem_cons h
    rw [List.cons_append, cutAfter, if_neg ha, ih hpart]
    rfl

/-- Without an occurrence everything is one part. -/
theorem cutAfter_of_not_mem {part : List α} (h : stop ∉ part) (hne : part ≠ []) :
    cutAfter stop part = [part] := by
  induction part with
  | nil => exact absurd rfl hne
  | cons a part ih =>
    have ha : a ≠ stop := (List.ne_of_not_mem_cons h).symm
    have hpart : stop ∉ part := List.not_mem_of_not_mem_cons h
    rw [cutAfter, if_neg ha]
    cases part with
    | nil => rfl
    | cons b part => rw [ih hpart (List.cons_ne_nil b part)]

/-- Induction on a list, part by part. -/
@[elab_as_elim]
theorem cutAfter_induction (stop : α) {motive : List α → Prop} (empty : motive [])
    (unterminated : ∀ part, stop ∉ part → part ≠ [] → motive part)
    (terminated : ∀ part rest, stop ∉ part → motive rest → motive (part ++ stop :: rest))
    (list : List α) : motive list := by
  by_cases hmem : stop ∈ list
  · obtain ⟨part, rest, hsplit, hpart⟩ := List.eq_append_cons_of_mem hmem
    have hshorter : rest.length < list.length := by
      rw [hsplit, List.length_append, List.length_cons]
      omega
    rw [hsplit]
    have ih := cutAfter_induction stop empty unterminated terminated rest
    exact terminated part rest hpart ih
  · by_cases hne : list = []
    · rw [hne]
      exact empty
    · exact unterminated list hmem hne
termination_by list.length

theorem ne_nil_of_mem_cutAfter {list part : List α} (h : part ∈ cutAfter stop list) :
    part ≠ [] := by
  induction list using cutAfter_induction stop with
  | empty => cases h
  | unterminated other hother hne =>
    rw [cutAfter_of_not_mem hother hne] at h
    rw [List.mem_singleton.1 h]
    exact hne
  | terminated other rest hother ih =>
    rw [cutAfter_append_stop hother] at h
    rcases List.mem_cons.1 h with rfl | h
    · simp
    · exact ih h

/-- The first parts are the parts of what they make up. -/
theorem cutAfter_flatten_prefix {list : List α} {parts others : List (List α)}
    (h : cutAfter stop list = parts ++ others) : cutAfter stop parts.flatten = parts := by
  induction list using cutAfter_induction stop generalizing parts with
  | empty =>
    obtain ⟨rfl, _⟩ := List.append_eq_nil_iff.1 h.symm
    rfl
  | unterminated part hpart hne =>
    rw [cutAfter_of_not_mem hpart hne] at h
    rcases List.singleton_eq_append_iff.1 h with ⟨rfl, _⟩ | ⟨rfl, _⟩
    · rfl
    · rw [List.flatten_singleton, cutAfter_of_not_mem hpart hne]
  | terminated part rest hpart ih =>
    rw [cutAfter_append_stop hpart] at h
    cases parts with
    | nil => rfl
    | cons first parts =>
      obtain ⟨rfl, hrest⟩ := List.cons.inj h
      rw [List.flatten_cons, List.append_assoc, List.singleton_append, cutAfter_append_stop hpart,
        ih hrest]

/-- When some parts are taken out, the others are the parts of what is left. -/
theorem cutAfter_flatten_filter (keep : List α → Bool) (list : List α) :
    cutAfter stop ((cutAfter stop list).filter keep).flatten =
      (cutAfter stop list).filter keep := by
  induction list using cutAfter_induction stop with
  | empty => rfl
  | unterminated part hpart hne =>
    rw [cutAfter_of_not_mem hpart hne]
    cases hkeep : keep part with
    | true =>
      rw [List.filter_cons_of_pos hkeep, List.filter_nil, List.flatten_singleton]
      exact cutAfter_of_not_mem hpart hne
    | false =>
      rw [List.filter_cons_of_neg (by simp [hkeep])]
      rfl
  | terminated part rest hpart ih =>
    rw [cutAfter_append_stop hpart]
    cases hkeep : keep (part ++ [stop]) with
    | true =>
      rw [List.filter_cons_of_pos hkeep, List.flatten_cons, List.append_assoc,
        List.singleton_append, cutAfter_append_stop hpart, ih]
    | false =>
      rw [List.filter_cons_of_neg (by simp [hkeep])]
      exact ih

end Lexis
