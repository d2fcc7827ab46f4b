import Mathlib.Data.List.Basic
import Mathlib.Data.List.Infix

/-!
# Writing over a list

`overlay memory p xs` is `memory` after the elements `xs` were written from the position `p` on.

* **`overlay_overlay`** — writing on where the last write stopped is one write;
* **`drop_overlay`** — what lies behind the write is as it was;
* **`overlay_append`** — writing at the end of a known beginning.
-/

namespace Overlay

variable {α : Type*}

def overlay (memory : List α) (p : Nat) (xs : List α) : List α :=
  memory.take p ++ xs ++ memory.drop (p + xs.length)

@[simp] theorem overlay_nil (memory : List α) (p : Nat) : overlay memory p [] = memory := by
  simp [overlay]

theorem overlay_append (known memory xs : List α) :
    overlay (known ++ memory) known.length xs = known ++ xs ++ memory.drop xs.length := by
  rw [overlay, List.take_left, List.drop_length_add_append]

theorem length_take_append {memory : List α} {p : Nat} {xs : List α}
    (h : p + xs.length ≤ memory.length) : (memory.take p ++ xs).length = p + xs.length := by
  rw [List.length_append, List.length_take_of_le (by omega)]

theorem overlay_overlay {memory : List α} {p : Nat} {xs : List α} (ys : List α)
    (h : p + xs.length ≤ memory.length) :
    overlay (overlay memory p xs) (p + xs.length) ys = overlay memory p (xs ++ ys) := by
  calc overlay (overlay memory p xs) (p + xs.length) ys
      = overlay (memory.take p ++ xs ++ memory.drop (p + xs.length)) (memory.take p ++ xs).length
          ys := by rw [length_take_append h, overlay.eq_def memory]
    _ = memory.take p ++ xs ++ ys ++ memory.drop (p + xs.length + ys.length) := by
        rw [overlay_append, List.drop_drop]
    _ = overlay memory p (xs ++ ys) := by
        rw [overlay, List.length_append, Nat.add_assoc, List.append_assoc _ xs]

theorem drop_overlay {memory : List α} {p n : Nat} {xs : List α}
    (h : p + xs.length ≤ memory.length) (hn : p + xs.length ≤ n) :
    (overlay memory p xs).drop n = memory.drop n := by
  obtain ⟨k, rfl⟩ := Nat.exists_eq_add_of_le hn
  rw [overlay, ← length_take_append h, List.drop_length_add_append, List.drop_drop,
    length_take_append h]

theorem length_overlay {memory : List α} {p : Nat} {xs : List α}
    (h : p + xs.length ≤ memory.length) : (overlay memory p xs).length = memory.length := by
  simp only [overlay, List.length_append, List.length_take, List.length_drop]
  omega

end Overlay
