import Mathlib.Data.List.Forall2
import Mathlib.Data.List.Infix
import Mathlib.Data.Option.Basic

/-!
# Lists taken apart

* **`isPrefix_append_cases`** — where a prefix of two parts ends;
* **`forall₂_of_mapM`** — what a map that may fail has done to each element;
* **`insertIdx_append_length`** — an insertion between two parts.
-/

namespace Lists

variable {α β : Type}

/-- A prefix of two parts ends in the first one or in the second. -/
theorem isPrefix_append_cases {l first second : List α} (h : l <+: first ++ second) :
    l <+: first ∨ ∃ more, l = first ++ more ∧ more <+: second := by
  rcases List.prefix_or_prefix_of_prefix h (List.prefix_append first second) with hfirst | hfirst
  · exact .inl hfirst
  · obtain ⟨more, rfl⟩ := hfirst
    exact .inr ⟨more, rfl, (List.prefix_append_right_inj first).mp h⟩

/-- A map that succeeds on a list has succeeded on every element of it. -/
theorem forall₂_of_mapM {f : α → Option β} {xs : List α} {ys : List β} (h : xs.mapM f = some ys) :
    List.Forall₂ (fun x y => f x = some y) xs ys := by
  induction xs generalizing ys with
  | nil =>
    cases h
    exact .nil
  | cons x xs ih =>
    rw [List.mapM_cons] at h
    obtain ⟨y, hy, h⟩ := Option.bind_eq_some_iff.mp h
    obtain ⟨others, hothers, h⟩ := Option.bind_eq_some_iff.mp h
    cases h
    exact .cons hy (ih hothers)

/-- What is inserted at the end of the first part stands between the two. -/
theorem insertIdx_append_length (l₁ l₂ : List α) (a : α) :
    (l₁ ++ l₂).insertIdx l₁.length a = l₁ ++ a :: l₂ := by
  induction l₁ with
  | nil => rfl
  | cons b rest ih =>
    rw [List.cons_append, List.length_cons, List.insertIdx_succ_cons, ih]
    rfl

end Lists
