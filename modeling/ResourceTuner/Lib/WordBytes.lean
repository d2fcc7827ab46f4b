import Mathlib.Data.List.Induction

/-!
# The bytes of a word

A word of any width as a row of bytes: one byte is read, one is replaced, and after a sequence of
replacements each byte holds the last value that was written to it.

* **`byteAt`**, **`replaceByte`** — the two operations;
* **`eq_of_byteAt`** — a word is its bytes;
* **`eq_replaceAll_iff`** — a sequence of replacements, byte by byte.
-/

namespace WordBytes

variable {w : Nat}

def byteAt (x : BitVec w) (k : Nat) : BitVec 8 := x.extractLsb' (8 * k) 8

/-- The word with only the bits of its `k`-th byte replaced. -/
def replaceByte (x : BitVec w) (k : Nat) (v : BitVec 8) : BitVec w :=
  (x &&& ~~~((0xff : BitVec 8).setWidth w <<< (8 * k))) ||| (v.setWidth w <<< (8 * k))

theorem getLsbD_byteAt (x : BitVec w) (k i : Nat) :
    (byteAt x k).getLsbD i = (decide (i < 8) && x.getLsbD (8 * k + i)) :=
  BitVec.getLsbD_extractLsb' ..

theorem getLsbD_replaceByte (x : BitVec w) (k : Nat) (v : BitVec 8) {i : Nat} (hi : i < w) :
    (replaceByte x k v).getLsbD i =
      if 8 * k ≤ i ∧ i < 8 * k + 8 then v.getLsbD (i - 8 * k) else x.getLsbD i := by
  have hmask : ∀ j, (0xff : BitVec 8).getLsbD j = decide (j < 8) := by
    intro j
    by_cases hj : j < 8
    · have hall : ∀ j < 8, (0xff : BitVec 8).getLsbD j = decide (j < 8) := by decide
      exact hall j hj
    · rw [BitVec.getLsbD_of_ge _ _ (by omega)]
      simp [hj]
  simp only [replaceByte, BitVec.getLsbD_or, BitVec.getLsbD_and, BitVec.getLsbD_not,
    BitVec.getLsbD_shiftLeft, BitVec.getLsbD_setWidth, hmask, hi]
  by_cases hlow : i < 8 * k
  · simp [hlow, show ¬ (8 * k ≤ i ∧ i < 8 * k + 8) by omega]
  · by_cases hhigh : i < 8 * k + 8
    · simp [hlow, show 8 * k ≤ i ∧ i < 8 * k + 8 by omega, show i - 8 * k < w by omega,
        show i - 8 * k < 8 by omega]
    · simp [hlow, show ¬ (8 * k ≤ i ∧ i < 8 * k + 8) by omega, show ¬ i - 8 * k < 8 by omega,
        BitVec.getLsbD_of_ge v (i - 8 * k) (by omega)]

theorem byteAt_replaceByte_self {x : BitVec w} {k : Nat} (v : BitVec 8) (hk : 8 * k + 8 ≤ w) :
    byteAt (replaceByte x k v) k = v := by
  apply BitVec.eq_of_getLsbD_eq
  intro i hi
  rw [getLsbD_byteAt, getLsbD_replaceByte x k v (by omega), if_pos (by omega),
    Nat.add_sub_cancel_left]
  simp [hi]

theorem byteAt_replaceByte_of_ne {x : BitVec w} {j k : Nat} (v : BitVec 8) (h : j ≠ k)
    (hj : 8 * j + 8 ≤ w) : byteAt (replaceByte x k v) j = byteAt x j := by
  apply BitVec.eq_of_getLsbD_eq
  intro i hi
  rw [getLsbD_byteAt, getLsbD_byteAt, getLsbD_replaceByte x k v (by omega), if_neg (by omega)]

/-- A word is its bytes. -/
theorem eq_of_byteAt {x y : BitVec w} {n : Nat} (hn : w ≤ 8 * n)
    (h : ∀ k < n, byteAt x k = byteAt y k) : x = y := by
  apply BitVec.eq_of_getLsbD_eq
  intro i hi
  have hbyte : (byteAt x (i / 8)).getLsbD (i % 8) = (byteAt y (i / 8)).getLsbD (i % 8) := by
    rw [h (i / 8) (by omega)]
  rw [getLsbD_byteAt, getLsbD_byteAt, Nat.div_add_mod] at hbyte
  simpa [Nat.mod_lt i] using hbyte

/-! ## A sequence of replacements -/

/-- The last value written to the `k`-th byte, or the one it had. -/
def lastWritten (k : Nat) (initial : BitVec 8) (writes : List (Nat × BitVec 8)) : BitVec 8 :=
  ((writes.filter (·.1 = k)).map Prod.snd).getLastD initial

def replaceAll (x : BitVec w) (writes : List (Nat × BitVec 8)) : BitVec w :=
  writes.foldl (fun x write => replaceByte x write.1 write.2) x

theorem lastWritten_concat (k : Nat) (initial : BitVec 8) (writes : List (Nat × BitVec 8))
    (write : Nat × BitVec 8) :
    lastWritten k initial (writes ++ [write]) =
      if write.1 = k then write.2 else lastWritten k initial writes := by
  rw [lastWritten, List.filter_append]
  by_cases h : write.1 = k
  · rw [List.filter_cons_of_pos (by simpa using h), if_pos h, List.map_append]
    simp
  · rw [List.filter_cons_of_neg (by simpa using h), if_neg h, List.filter_nil, List.append_nil]
    rfl

theorem replaceAll_concat (x : BitVec w) (writes : List (Nat × BitVec 8)) (write : Nat × BitVec 8) :
    replaceAll x (writes ++ [write]) = replaceByte (replaceAll x writes) write.1 write.2 := by
  rw [replaceAll, List.foldl_append]
  rfl

theorem byteAt_replaceAll (x : BitVec w) {k : Nat} (hk : 8 * k + 8 ≤ w)
    (writes : List (Nat × BitVec 8)) :
    byteAt (replaceAll x writes) k = lastWritten k (byteAt x k) writes := by
  induction writes using List.reverseRecOn with
  | nil => rfl
  | append_singleton writes write ih =>
    rw [replaceAll_concat, lastWritten_concat]
    split
    · rename_i h
      rw [h, byteAt_replaceByte_self _ hk]
    · rename_i h
      rw [byteAt_replaceByte_of_ne _ (Ne.symm h) hk, ih]

/-- The word after the replacements, byte by byte. -/
theorem eq_replaceAll_iff {n : Nat} (hn : w = 8 * n) (x y : BitVec w)
    (writes : List (Nat × BitVec 8)) :
    y = replaceAll x writes ↔ ∀ k < n, byteAt y k = lastWritten k (byteAt x k) writes := by
  constructor
  · rintro rfl k hk
    exact byteAt_replaceAll x (by omega) writes
  · intro h
    refine eq_of_byteAt (Nat.le_of_eq hn) fun k hk => ?_
    rw [h k hk, byteAt_replaceAll x (by omega)]

end WordBytes
