import Mathlib.Data.List.Sort
import Mathlib.Data.List.TakeWhile
import Mathlib.Order.Defs.LinearOrder

/-!
# Stable order

A queue in which what has the greater key comes first, and of two with the same key the one that
arrived first.  A newcomer goes before the first element with a smaller key, and elements may leave
from anywhere.

* **`Stable`** — a list against the order of arrival;
* **`Stable.push`**, **`Stable.filter`** — a newcomer, and elements that leave;
* **`Stable.head`** — who comes first.
-/

/-- The list has the elements that arrived, the greater keys first, and equal keys as they arrived. -/
structure Stable {α κ : Type} [LinearOrder κ] (key : α → κ) (arrived l : List α) : Prop where
  perm : l.Perm arrived
  sorted : l.Pairwise fun a b => key b ≤ key a
  ties : ∀ v, l.filter (fun a => key a = v) = arrived.filter fun a => key a = v

namespace Stable

variable {α κ : Type} [LinearOrder κ] {key : α → κ} {arrived l l₁ l₂ : List α} {a : α}

theorem nil : Stable key [] [] := ⟨.refl _, .nil, fun _ => rfl⟩

/-- The newcomer between those whose keys are not smaller and those whose keys are. -/
theorem push_between (h : Stable key arrived (l₁ ++ l₂)) (hbefore : ∀ b ∈ l₁, key a ≤ key b)
    (hafter : ∀ b ∈ l₂, key b < key a) : Stable key (arrived ++ [a]) (l₁ ++ a :: l₂) where
  perm := by
    calc (l₁ ++ a :: l₂).Perm (a :: (l₁ ++ l₂)) := List.perm_middle
      _ |>.Perm (a :: arrived) := h.perm.cons a
      _ |>.Perm (arrived ++ [a]) := (List.perm_append_singleton a arrived).symm
  sorted := by
    obtain ⟨hl₁, hl₂, hcross⟩ := List.pairwise_append.mp h.sorted
    refine List.pairwise_append.mpr ⟨hl₁, ?_, ?_⟩
    · exact List.pairwise_cons.mpr ⟨fun b hb => (hafter b hb).le, hl₂⟩
    · intro b hb c hc
      rcases List.mem_cons.mp hc with rfl | hc
      · exact hbefore b hb
      · exact hcross b hb c hc
  ties v := by
    have hties := h.ties v
    rw [List.filter_append] at hties
    rw [List.filter_append, List.filter_append, ← hties]
    by_cases hv : key a = v
    · -- nobody behind the newcomer has its key
      have hnone : l₂.filter (fun b => key b = v) = [] := by
        rw [List.filter_eq_nil_iff]
        intro b hb
        rw [decide_eq_true_eq, ← hv]
        exact (hafter b hb).ne
      simp [hv, hnone]
    · simp [hv]

/-- **A newcomer** goes before the first element with a smaller key. -/
theorem push (h : Stable key arrived l) :
    Stable key (arrived ++ [a]) (l.orderedInsert (fun x y => key y < key x) a) := by
  have hsplit := List.takeWhile_append_dropWhile (p := fun b => decide ¬ key b < key a) (l := l)
  rw [List.orderedInsert_eq_take_drop]
  refine push_between (by rwa [hsplit]) ?_ ?_
  · intro b hb
    have hkey := List.mem_takeWhile_imp hb
    rw [decide_eq_true_eq] at hkey
    exact not_lt.mp hkey
  · -- the first one behind has a smaller key, and the others are not greater
    intro b hb
    have hsorted := h.sorted
    rw [← hsplit] at hsorted
    have hrest := (List.pairwise_append.mp hsorted).2.1
    cases hdrop : l.dropWhile (fun b => decide ¬ key b < key a) with
    | nil =>
      rw [hdrop] at hb
      cases hb
    | cons c rest =>
      have hc : key c < key a := by
        have hhead := List.head?_dropWhile_not (fun b => decide ¬ key b < key a) l
        rw [hdrop] at hhead
        simpa using hhead
      rw [hdrop] at hb hrest
      rcases List.mem_cons.mp hb with rfl | hb
      · exact hc
      · exact ((List.pairwise_cons.mp hrest).1 b hb).trans_lt hc

/-- **Elements leave.** -/
theorem filter (h : Stable key arrived l) (p : α → Bool) :
    Stable key (arrived.filter p) (l.filter p) where
  perm := h.perm.filter p
  sorted := h.sorted.filter p
  ties v := by
    have hcomm : ∀ l : List α, (l.filter p).filter (fun a => key a = v) =
        (l.filter fun a => key a = v).filter p := by
      intro l
      rw [List.filter_filter, List.filter_filter]
      exact List.filter_congr fun a _ => Bool.and_comm _ _
    rw [hcomm, hcomm, h.ties v]

/-- **Who comes first**: nobody's key is greater, and of those with the same key it arrived first. -/
theorem head (h : Stable key arrived l) (ha : l.head? = some a) :
    (∀ b ∈ arrived, key b ≤ key a) ∧
      (arrived.filter fun b => key b = key a).head? = some a := by
  obtain ⟨rest, rfl⟩ := List.head?_eq_some_iff.mp ha
  refine ⟨fun b hb => ?_, ?_⟩
  · rcases List.mem_cons.mp (h.perm.mem_iff.mpr hb) with rfl | hb
    · exact le_refl _
    · exact (List.pairwise_cons.mp h.sorted).1 b hb
  · rw [← h.ties, List.filter_cons_of_pos (by simp), List.head?_cons]

end Stable
