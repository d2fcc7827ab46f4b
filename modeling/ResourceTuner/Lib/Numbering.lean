import Mathlib.Data.Finset.Card
import Mathlib.Data.List.Induction
import ResourceTuner.Lib.UnorderedMap

/-!
# Numbering the elements of a list

`m[x] = m.size()` for each element in turn.  On a list without repetitions this gives every element
its position; an element that comes again is renumbered with the count of the distinct ones so far.

* **`number`** — the map;
* **`seenBefore`** — the number an element gets;
* **`dense_of_nodup`**, **`nodup_of_dense`** — the numbers are the first natural numbers, one for
  each element, exactly when no element comes twice.
-/

namespace Numbering

variable {κ : Type} [DecidableEq κ]

/-- Number each element with the size of the map so far. -/
def number (l : List κ) : UnorderedMap κ Nat :=
  l.foldl (fun m k => m.insert k (UnorderedMap.size m)) ∅

/-- How many distinct elements come before the last occurrence of `k`. -/
def seenBefore (l : List κ) (k : κ) : Nat :=
  (l.reverse.dropWhile (· ≠ k)).tail.toFinset.card

/-- The numbers of the elements that satisfy `P` are distinct and below `count`. -/
def Dense (l : List κ) (P : κ → Prop) (count : Nat) : Prop :=
  ∀ k ∈ l, P k → seenBefore l k < count ∧
    ∀ k' ∈ l, P k' → seenBefore l k = seenBefore l k' → k = k'

variable {l : List κ} {k x : κ}

/-! ## One element more -/

theorem number_append_singleton (l : List κ) (x : κ) :
    number (l ++ [x]) = (number l).insert x (UnorderedMap.size (number l)) := by
  rw [number, List.foldl_append]
  rfl

theorem seenBefore_append_self (l : List κ) (x : κ) :
    seenBefore (l ++ [x]) x = l.toFinset.card := by
  simp [seenBefore]

theorem seenBefore_append_of_ne (l : List κ) (h : k ≠ x) :
    seenBefore (l ++ [x]) k = seenBefore l k := by
  simp [seenBefore, h.symm]

theorem toFinset_append_singleton (l : List κ) (x : κ) :
    (l ++ [x]).toFinset = insert x l.toFinset := by
  ext y
  simp

/-! ## The map holds the numbers -/

theorem mem_number : k ∈ number l ↔ k ∈ l := by
  induction l using List.reverseRecOn with
  | nil => simp [number]
  | append_singleton l x ih =>
    rw [number_append_singleton, AList.mem_insert, ih, List.mem_append, List.mem_singleton]
    exact or_comm

theorem size_number (l : List κ) : UnorderedMap.size (number l) = l.toFinset.card := by
  induction l using List.reverseRecOn with
  | nil => rfl
  | append_singleton l x ih =>
    rw [number_append_singleton, toFinset_append_singleton]
    by_cases hx : x ∈ l
    · rw [UnorderedMap.size_insert_of_mem _ (mem_number.mpr hx), ih,
        Finset.insert_eq_of_mem (List.mem_toFinset.mpr hx)]
    · rw [UnorderedMap.size_insert_of_notMem _ fun hmem => hx (mem_number.mp hmem), ih,
        Finset.card_insert_of_notMem fun hmem => hx (List.mem_toFinset.mp hmem)]

theorem lookup_number (h : k ∈ l) : (number l).lookup k = some (seenBefore l k) := by
  induction l using List.reverseRecOn with
  | nil => cases h
  | append_singleton l x ih =>
    rw [number_append_singleton]
    by_cases hk : k = x
    · subst hk
      rw [AList.lookup_insert, seenBefore_append_self, size_number]
    · have hmem : k ∈ l := by simpa [hk] using h
      rw [AList.lookup_insert_ne hk, seenBefore_append_of_ne l hk, ih hmem]

theorem lookup_number_of_notMem (h : k ∉ l) : (number l).lookup k = none :=
  AList.lookup_eq_none.mpr fun hmem => h (mem_number.mp hmem)

/-! ## When the numbers are dense -/

theorem dense_of_nodup (h : l.Nodup) (P : κ → Prop) : Dense l P l.length := by
  induction l using List.reverseRecOn with
  | nil => intro k hk; cases hk
  | append_singleton l x ih =>
    obtain ⟨hl, -, hdisjoint⟩ := List.nodup_append.mp h
    have hx : x ∉ l := fun hmem => hdisjoint x hmem x (List.mem_singleton_self x) rfl
    have hself : seenBefore (l ++ [x]) x = l.length := by
      rw [seenBefore_append_self, List.toFinset_card_of_nodup hl]
    -- the new element gets the next number, and the others keep theirs
    have hold : ∀ k ∈ l, P k → seenBefore (l ++ [x]) k = seenBefore l k ∧ seenBefore l k < l.length := by
      intro k hk hP
      have hne : k ≠ x := fun heq => hx (heq ▸ hk)
      exact ⟨seenBefore_append_of_ne l hne, (ih hl k hk hP).1⟩
    intro k hk hP
    rw [List.length_append, List.length_singleton]
    rcases List.mem_append.mp hk with hkl | hkx
    · obtain ⟨heq, hlt⟩ := hold k hkl hP
      refine ⟨by omega, fun k' hk' hP' hsame => ?_⟩
      rcases List.mem_append.mp hk' with hkl' | hkx'
      · obtain ⟨heq', -⟩ := hold k' hkl' hP'
        exact (ih hl k hkl hP).2 k' hkl' hP' (by omega)
      · rw [List.mem_singleton.mp hkx'] at hsame
        omega
    · rw [List.mem_singleton.mp hkx]
      refine ⟨by omega, fun k' hk' hP' hsame => ?_⟩
      rcases List.mem_append.mp hk' with hkl' | hkx'
      · obtain ⟨heq', hlt'⟩ := hold k' hkl' hP'
        omega
      · exact (List.mem_singleton.mp hkx').symm

/-- Numbers below the count of the distinct elements leave no room for a repetition. -/
theorem nodup_of_dense (h : Dense l (fun _ => True) l.toFinset.card) : l.Nodup := by
  induction l using List.reverseRecOn with
  | nil => exact List.nodup_nil
  | append_singleton l x ih =>
    obtain ⟨hlt, hinj⟩ := h x (by simp) trivial
    rw [seenBefore_append_self] at hlt hinj
    have hx : x ∉ l := by
      intro hmem
      rw [toFinset_append_singleton, Finset.insert_eq_of_mem (List.mem_toFinset.mpr hmem)] at hlt
      exact Nat.lt_irrefl _ hlt
    rw [toFinset_append_singleton,
      Finset.card_insert_of_notMem fun hmem => hx (List.mem_toFinset.mp hmem)] at h
    refine List.nodup_append.mpr ⟨ih ?_, List.nodup_singleton x, ?_⟩
    · intro k hk _
      have hne : k ≠ x := fun heq => hx (heq ▸ hk)
      obtain ⟨hklt, hkinj⟩ := h k (List.mem_append_left _ hk) trivial
      rw [seenBefore_append_of_ne l hne] at hklt hkinj
      refine ⟨?_, fun k' hk' _ hsame => ?_⟩
      · -- the last number is taken by the new element
        by_contra hge
        have hlast : seenBefore l k = l.toFinset.card := by omega
        exact hne (hkinj x (by simp) trivial (by rw [seenBefore_append_self, hlast]))
      · have hne' : k' ≠ x := fun heq => hx (heq ▸ hk')
        exact hkinj k' (List.mem_append_left _ hk') trivial
          (by rw [seenBefore_append_of_ne l hne', hsame])
    · intro k hk y hy heq
      rw [List.mem_singleton.mp hy] at heq
      exact hx (heq ▸ hk)

end Numbering
