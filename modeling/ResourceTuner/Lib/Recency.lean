import Mathlib.Data.List.Dedup
import Mathlib.Data.List.DropRight

/-!
# The most recent elements

A sequence in which elements repeat, and the last few different ones of it, the oldest first.  When
one more element comes, it is the newest, wherever it stood before.

* **`recent`** — the `m` most recent distinct elements;
* **`recent_append`** — one more element.
-/

namespace Recency

variable {α : Type} [DecidableEq α]

/-- The `m` most recent distinct elements, the oldest first. -/
def recent (m : Nat) (l : List α) : List α := l.dedup.rtake m

theorem nodup_recent (m : Nat) (l : List α) : (recent m l).Nodup :=
  (List.nodup_dedup l).sublist (List.drop_sublist _ _)

theorem length_recent_le (m : Nat) (l : List α) : (recent m l).length ≤ m := by
  rw [recent, List.rtake, List.length_drop]
  omega

/-- What is repeated is kept where it was last. -/
theorem dedup_append_singleton (l : List α) (a : α) :
    (l ++ [a]).dedup = l.dedup.filter (· ≠ a) ++ [a] := by
  induction l with
  | nil => rfl
  | cons b rest ih =>
    by_cases hmem : b ∈ rest
    · rw [List.cons_append, List.dedup_cons_of_mem (by simp [hmem]), ih, List.dedup_cons_of_mem hmem]
    · by_cases heq : b = a
      · rw [List.cons_append, List.dedup_cons_of_mem (by simp [heq]), ih,
          List.dedup_cons_of_notMem hmem, List.filter_cons_of_neg (by simp [heq])]
      · rw [List.cons_append, List.dedup_cons_of_notMem (by simp [hmem, heq]), ih,
          List.dedup_cons_of_notMem hmem, List.filter_cons_of_pos (by simp [heq])]
        rfl

omit [DecidableEq α] in
theorem rtake_append_of_le {l₁ l₂ : List α} {m : Nat} (h : m ≤ l₂.length) :
    (l₁ ++ l₂).rtake m = l₂.rtake m := by
  rw [List.rtake_eq_reverse_take_reverse, List.rtake_eq_reverse_take_reverse, List.reverse_append,
    List.take_append_of_le_length (by rwa [List.length_reverse])]

/-- **One more element** is the newest; it leaves the place it had, or pushes out the oldest. -/
theorem recent_append (m : Nat) (l : List α) (a : α) :
    recent (m + 1) (l ++ [a]) = ((recent (m + 1) l).filter (· ≠ a)).rtake m ++ [a] := by
  have hsplit : l.dedup.rdrop (m + 1) ++ l.dedup.rtake (m + 1) = l.dedup :=
    List.take_append_drop _ _
  rw [recent, dedup_append_singleton, List.rtake_concat_succ, recent]
  congr 1
  by_cases hshort : l.dedup.length ≤ m + 1
  · rw [List.rtake, List.rtake, List.rtake, Nat.sub_eq_zero_of_le hshort, List.drop_zero]
  · -- what is too old is not reached, even when `a` leaves its place
    have hlength : (l.dedup.rtake (m + 1)).length = m + 1 := by
      rw [List.rtake, List.length_drop]
      omega
    have hnodup : (l.dedup.rtake (m + 1)).Nodup := nodup_recent (m + 1) l
    have hkept : m ≤ ((l.dedup.rtake (m + 1)).filter (· ≠ a)).length := by
      have herase : (l.dedup.rtake (m + 1)).filter (· ≠ a) = (l.dedup.rtake (m + 1)).erase a := by
        rw [hnodup.erase_eq_filter]
        exact List.filter_congr fun b _ => decide_not
      rw [herase, List.length_erase]
      split <;> omega
    conv_lhs => rw [← hsplit]
    rw [List.filter_append, rtake_append_of_le hkept]

/-- A new element goes behind the others; when there are enough, the oldest leaves. -/
theorem recent_append_of_notMem {m : Nat} {l : List α} {a : α} (ha : a ∉ recent (m + 1) l) :
    recent (m + 1) (l ++ [a]) =
      (if (recent (m + 1) l).length = m + 1 then (recent (m + 1) l).tail else recent (m + 1) l) ++
        [a] := by
  have hle := length_recent_le (m + 1) l
  have hself : (recent (m + 1) l).filter (· ≠ a) = recent (m + 1) l := by
    rw [List.filter_eq_self]
    intro b hb
    rw [decide_eq_true_eq]
    rintro rfl
    exact ha hb
  rw [recent_append, hself, List.rtake]
  congr 1
  split
  · rename_i hfull
    rw [hfull, Nat.add_sub_cancel_left, List.drop_one]
  · rw [show (recent (m + 1) l).length - m = 0 by omega, List.drop_zero]

/-- The oldest of enough elements becomes the newest. -/
theorem recent_append_of_oldest {m : Nat} {l rest : List α} {a : α}
    (hl : recent (m + 1) l = a :: rest) (hfull : rest.length = m) :
    recent (m + 1) (l ++ [a]) = rest ++ [a] := by
  have hnodup := nodup_recent (m + 1) l
  rw [hl] at hnodup
  have hrest : (a :: rest).filter (· ≠ a) = rest := by
    rw [List.filter_cons_of_neg (by simp), List.filter_eq_self]
    intro b hb
    rw [decide_eq_true_eq]
    rintro rfl
    exact (List.nodup_cons.mp hnodup).1 hb
  rw [recent_append, hl, hrest, List.rtake, hfull, Nat.sub_self, List.drop_zero]

end Recency
