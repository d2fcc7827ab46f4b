import Mathlib.Data.List.Basic

/-!
# Bounded queues that drop the oldest item

A queue that takes everything it is given, and lets go of its oldest item where there is one too many.
It records what became of every item that has left.

* **`Queue`**, **`push`**, **`leave`**, **`clear`** — the queue;
* **`queued`**, **`taken`** — everything that ever came, and what was taken out, in order;
* **`Bounded`** — the bound, and how far behind an item was when it was dropped.
-/

namespace DropOldest

/-- What became of an item that has left. -/
inductive Fate where
  | taken
  | displaced
  | cleared
  deriving DecidableEq, Repr

/-- The items that wait, and those that have left. -/
structure Queue (α : Type) where
  waiting : List α
  gone : List (α × Fate)
  deriving DecidableEq, Repr

variable {α : Type} {capacity : Nat} {q : Queue α} {a : α}

def empty : Queue α := ⟨[], []⟩

/-- The oldest item leaves. -/
def leave (q : Queue α) (fate : Fate) : Queue α :=
  match q.waiting with
  | [] => q
  | oldest :: rest => ⟨rest, q.gone ++ [(oldest, fate)]⟩

def push (capacity : Nat) (q : Queue α) (a : α) : Queue α :=
  let pushed : Queue α := { q with waiting := q.waiting ++ [a] }
  if capacity < pushed.waiting.length then leave pushed .displaced else pushed

def clear (q : Queue α) : Queue α := ⟨[], q.gone ++ q.waiting.map fun a => (a, .cleared)⟩

/-- Everything that came. -/
def queued (q : Queue α) : List α := q.gone.map Prod.fst ++ q.waiting

/-- What was taken out. -/
def taken (q : Queue α) : List α := (q.gone.filter fun item => item.2 = .taken).map Prod.fst

@[simp] theorem queued_empty : queued (empty : Queue α) = [] := rfl

@[simp] theorem taken_empty : taken (empty : Queue α) = [] := rfl

/-- What leaves was queued all the same. -/
@[simp] theorem queued_leave (fate : Fate) : queued (leave q fate) = queued q := by
  unfold leave queued
  cases hwaiting : q.waiting with
  | nil => simp [hwaiting]
  | cons oldest rest => simp

/-- What is pushed is queued last, whether or not something was dropped for it. -/
@[simp] theorem queued_push : queued (push capacity q a) = queued q ++ [a] := by
  have hpushed : queued { q with waiting := q.waiting ++ [a] } = queued q ++ [a] := by
    simp [queued]
  rw [push]
  split
  · rw [queued_leave, hpushed]
  · exact hpushed

/-- To clear the queue does not change what was queued. -/
@[simp] theorem queued_clear : queued (clear q) = queued q := by
  simp [queued, clear, List.map_map, Function.comp_def]

/-- Nothing is taken but by taking it. -/
theorem taken_leave_of_ne {fate : Fate} (h : fate ≠ .taken) : taken (leave q fate) = taken q := by
  unfold leave taken
  cases q.waiting with
  | nil => rfl
  | cons oldest rest => simp [h]

/-- And it is the oldest that is taken. -/
theorem taken_leave_taken {oldest : α} {rest : List α} (h : q.waiting = oldest :: rest) :
    taken (leave q .taken) = taken q ++ [oldest] := by
  simp [leave, taken, h]

@[simp] theorem taken_push : taken (push capacity q a) = taken q := by
  rw [push]
  split
  · rw [taken_leave_of_ne (by decide)]
    rfl
  · rfl

@[simp] theorem taken_clear : taken (clear q) = taken q := by
  have hnone : (q.waiting.map fun a => (a, Fate.cleared)).filter (fun item => item.2 = .taken) = [] := by
    simp
  simp only [taken, clear, List.filter_append, hnone, List.append_nil]

/-- What was taken out came in this order. -/
theorem taken_sublist : (taken q).Sublist (queued q) :=
  (List.filter_sublist.map _).trans (List.sublist_append_left _ _)

/-- There are never too many items, and so many more had come when one was dropped. -/
structure Bounded (capacity : Nat) (q : Queue α) : Prop where
  length_le : q.waiting.length ≤ capacity
  displaced : ∀ i a, q.gone[i]? = some (a, .displaced) → i + capacity < (queued q).length

theorem bounded_empty : Bounded capacity (empty : Queue α) := ⟨Nat.zero_le _, by simp [empty]⟩

/-- Everything that was queued is gone or waits. -/
theorem length_queued : (queued q).length = q.gone.length + q.waiting.length := by
  simp [queued]

/-- An entry of the record is an old one or the one that was added. -/
theorem getElem?_concat_eq_some {l : List α} {b : α} {i : Nat} (h : (l ++ [b])[i]? = some a) :
    l[i]? = some a ∨ (i = l.length ∧ b = a) := by
  rcases Nat.lt_trichotomy i l.length with hlt | rfl | hgt
  · exact .inl (by rwa [List.getElem?_append_left hlt] at h)
  · rw [List.getElem?_concat_length] at h
    exact .inr ⟨rfl, Option.some.inj h⟩
  · rw [List.getElem?_eq_none (by simp; omega)] at h
    cases h

theorem Bounded.taken (h : Bounded capacity q) : Bounded capacity (leave q .taken) := by
  refine ⟨?_, fun i a hi => ?_⟩
  · have hle := h.length_le
    unfold leave
    cases hwaiting : q.waiting with
    | nil => exact hle
    | cons oldest rest =>
      rw [hwaiting, List.length_cons] at hle
      show rest.length ≤ capacity
      omega
  · rw [queued_leave]
    unfold leave at hi
    cases hwaiting : q.waiting with
    | nil =>
      rw [hwaiting] at hi
      exact h.displaced i a hi
    | cons oldest rest =>
      rw [hwaiting] at hi
      rcases getElem?_concat_eq_some hi with hold | ⟨-, hnew⟩
      · exact h.displaced i a hold
      · cases hnew

/-- A push drops the oldest if there is no room, and so the queue is never too long. -/
theorem Bounded.push (h : Bounded capacity q) (a : α) : Bounded capacity (push capacity q a) := by
  have hle := h.length_le
  have hlength := @length_queued α q
  refine ⟨?_, fun i b hi => ?_⟩
  · rw [DropOldest.push]
    split
    · rename_i hover
      unfold leave
      cases hwaiting : q.waiting ++ [a] with
      | nil => exact Nat.zero_le _
      | cons oldest rest =>
        have hcount := congrArg List.length hwaiting
        simp only [List.length_append, List.length_cons, List.length_nil] at hcount
        show rest.length ≤ capacity
        omega
    · rename_i hfits
      exact Nat.not_lt.mp hfits
  · rw [queued_push, List.length_append, List.length_singleton]
    rw [DropOldest.push] at hi
    split at hi
    · rename_i hover
      simp only [List.length_append, List.length_singleton] at hover
      unfold leave at hi
      cases hwaiting : q.waiting ++ [a] with
      | nil =>
        rw [hwaiting] at hi
        exact Nat.lt_succ_of_lt (h.displaced i b hi)
      | cons oldest rest =>
        rw [hwaiting] at hi
        rcases getElem?_concat_eq_some hi with hold | ⟨rfl, -⟩
        · exact Nat.lt_succ_of_lt (h.displaced i b hold)
        · -- the queue was full
          show q.gone.length + capacity < (queued q).length + 1
          omega
    · exact Nat.lt_succ_of_lt (h.displaced i b hi)

theorem Bounded.clear (h : Bounded capacity q) : Bounded capacity (clear q) := by
  refine ⟨Nat.zero_le _, fun i a hi => ?_⟩
  rw [queued_clear]
  rcases Nat.lt_or_ge i q.gone.length with hlt | hge
  · rw [DropOldest.clear, List.getElem?_append_left hlt] at hi
    exact h.displaced i a hi
  · rw [DropOldest.clear, List.getElem?_append_right hge, List.getElem?_map] at hi
    obtain ⟨b, -, hb⟩ := Option.map_eq_some_iff.mp hi
    cases hb

end DropOldest
