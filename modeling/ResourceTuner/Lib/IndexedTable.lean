import Mathlib.Data.List.Induction
import ResourceTuner.Lib.UnorderedMap

/-!
# Tables behind an index

Rows in a vector, and a map from keys to row numbers.  While every key points into the table and no
two keys share a row, such a table is a finite map from keys to rows, and the three things a program
does to it are three updates of that map.

* **`Indexed`** — the invariant;
* **`find`** — the map that the table stands for;
* **`Indexed.set`**, **`Indexed.modify`**, **`Indexed.rekey`**, **`Indexed.append`** — overwriting a
  row, changing it, moving it under another key and adding one keep the invariant;
* **`find_set`**, **`find_modify`**, **`find_rekey`**, **`find_append`** — and what they do to the map.
-/

namespace IndexedTable

variable {κ ν : Type} [DecidableEq κ]

/-- The row of a key. -/
def find (index : UnorderedMap κ Nat) (rows : List ν) (k : κ) : Option ν :=
  (index.lookup k).bind fun i => rows[i]?

/-- Every key has a row of its own; `total` counts the rows. -/
structure Indexed (index : UnorderedMap κ Nat) (rows : List ν) (total : Nat) : Prop where
  lt : ∀ k i, index.lookup k = some i → i < rows.length
  inj : ∀ k k' i, index.lookup k = some i → index.lookup k' = some i → k = k'
  total_eq : total = rows.length

/-- An empty table has an empty index. -/
theorem Indexed.empty : Indexed (∅ : UnorderedMap κ Nat) ([] : List ν) 0 where
  lt k i h := by simp at h
  inj k k' i h := by simp at h
  total_eq := rfl

variable {index : UnorderedMap κ Nat} {rows : List ν} {total i : Nat} {k k' : κ} {row : ν}

/-- An index entry is the new one or an old one of another key. -/
theorem lookup_insert_cases {j : Nat} (h : (index.insert k i).lookup k' = some j) :
    (k' = k ∧ j = i) ∨ (k' ≠ k ∧ index.lookup k' = some j) := by
  by_cases hk : k' = k
  · subst hk
    rw [AList.lookup_insert] at h
    exact Or.inl ⟨rfl, (Option.some.inj h).symm⟩
  · rw [AList.lookup_insert_ne hk] at h
    exact Or.inr ⟨hk, h⟩

/-- An index entry that is left is one of another key than the erased one. -/
theorem lookup_of_lookup_erase {j : Nat} (h : (index.erase k).lookup k' = some j) :
    k' ≠ k ∧ index.lookup k' = some j := by
  by_cases hk : k' = k
  · subst hk
    rw [AList.lookup_erase] at h
    cases h
  · rw [AList.lookup_erase_ne hk] at h
    exact ⟨hk, h⟩

/-! ## Overwriting -/

/-- Writing to a row keeps the index, which does not know what the rows hold. -/
theorem Indexed.set (h : Indexed index rows total) (i : Nat) (row : ν) :
    Indexed index (rows.set i row) total where
  lt k j hj := by
    rw [List.length_set]
    exact h.lt k j hj
  inj := h.inj
  total_eq := by rw [h.total_eq, List.length_set]

/-- A row that is written to is found under its key with what was written, and no other key sees it:
two keys never have the same row. -/
theorem find_set (h : Indexed index rows total) (hk : index.lookup k = some i) :
    find index (rows.set i row) = Function.update (find index rows) k (some row) := by
  funext k'
  unfold find
  by_cases hkey : k' = k
  · subst hkey
    rw [Function.update_self, hk]
    exact List.getElem?_set_self (h.lt k' i hk)
  · rw [Function.update_of_ne hkey]
    cases hk' : index.lookup k' with
    | none => rfl
    | some j =>
      have hne : i ≠ j := fun hij => hkey (h.inj k' k j hk' (hij ▸ hk))
      exact List.getElem?_set_ne hne

/-! ## Changing a row in place -/

/-- A change of a row keeps the index too. -/
theorem Indexed.modify (h : Indexed index rows total) (i : Nat) (f : ν → ν) :
    Indexed index (rows.modify i f) total where
  lt k j hj := by
    rw [List.length_modify]
    exact h.lt k j hj
  inj := h.inj
  total_eq := by rw [h.total_eq, List.length_modify]

/-- The change is seen under the key of the row only. -/
theorem find_modify (h : Indexed index rows total) (hk : index.lookup k = some i) (f : ν → ν)
    (k' : κ) :
    find index (rows.modify i f) k' =
      (find index rows k').map fun row => if k = k' then f row else row := by
  unfold find
  cases hk' : index.lookup k' with
  | none => rfl
  | some j =>
    rw [Option.bind_some, Option.bind_some, List.getElem?_modify]
    by_cases hkey : k = k'
    · subst hkey
      obtain rfl : i = j := Option.some.inj (hk.symm.trans hk')
      simp
    · -- another key has another row
      have hne : i ≠ j := fun hij => hkey (h.inj k k' j (hij ▸ hk) hk')
      simp [hne, hkey]

/-! ## Moving a row under another key -/

/-- A row may get another key; if that one had a row, the row is not indexed any more. -/
theorem Indexed.rekey (h : Indexed index rows total) (hk : index.lookup k = some i) (k' : κ) :
    Indexed ((index.erase k).insert k' i) rows total where
  lt c j hj := by
    rcases lookup_insert_cases hj with ⟨-, rfl⟩ | ⟨-, hj⟩
    · exact h.lt k j hk
    · exact h.lt c j (lookup_of_lookup_erase hj).2
  inj := by
    -- the moved row had `k` as its only key, and `k` is gone
    have hfresh : ∀ c, (index.erase k).lookup c ≠ some i := by
      intro c hc
      obtain ⟨hne, hc⟩ := lookup_of_lookup_erase hc
      exact hne (h.inj c k i hc hk)
    intro c c' j hj hj'
    rcases lookup_insert_cases hj with ⟨rfl, rfl⟩ | ⟨-, hc⟩
    · rcases lookup_insert_cases hj' with ⟨rfl, -⟩ | ⟨-, hc'⟩
      · rfl
      · exact absurd hc' (hfresh c')
    · rcases lookup_insert_cases hj' with ⟨rfl, rfl⟩ | ⟨-, hc'⟩
      · exact absurd hc (hfresh c)
      · exact h.inj c c' j (lookup_of_lookup_erase hc).2 (lookup_of_lookup_erase hc').2
  total_eq := h.total_eq

/-- Then it is found under the new key and not under the old one. -/
theorem find_rekey (hk : index.lookup k = some i) :
    find ((index.erase k).insert k' i) rows =
      Function.update (Function.update (find index rows) k none) k' (find index rows k) := by
  funext c
  unfold find
  by_cases hc : c = k'
  · subst hc
    rw [Function.update_self, AList.lookup_insert, hk]
  · rw [Function.update_of_ne hc, AList.lookup_insert_ne hc]
    by_cases hck : c = k
    · subst hck
      rw [Function.update_self, AList.lookup_erase]
      rfl
    · rw [Function.update_of_ne hck, AList.lookup_erase_ne hck]

/-! ## Adding a row -/

/-- A new row goes to the end, under the next number; what the key had before is not indexed any
more. -/
theorem Indexed.append (h : Indexed index rows total) (k : κ) (row : ν) :
    Indexed (index.insert k total) (rows ++ [row]) (total + 1) where
  lt c j hj := by
    rw [List.length_append, List.length_singleton]
    rcases lookup_insert_cases hj with ⟨-, rfl⟩ | ⟨-, hj⟩
    · rw [h.total_eq]
      exact Nat.lt_succ_self _
    · exact Nat.lt_succ_of_lt (h.lt c j hj)
  inj := by
    -- the new row lies beyond every row that already has a key
    have hfresh : ∀ c, index.lookup c ≠ some total := by
      intro c hc
      have hlt := h.lt c total hc
      rw [h.total_eq] at hlt
      exact Nat.lt_irrefl _ hlt
    intro c c' j hj hj'
    rcases lookup_insert_cases hj with ⟨rfl, rfl⟩ | ⟨-, hc⟩
    · rcases lookup_insert_cases hj' with ⟨rfl, -⟩ | ⟨-, hc'⟩
      · rfl
      · exact absurd hc' (hfresh c')
    · rcases lookup_insert_cases hj' with ⟨rfl, rfl⟩ | ⟨-, hc'⟩
      · exact absurd hc (hfresh c)
      · exact h.inj c c' j hc hc'
  total_eq := by rw [h.total_eq, List.length_append, List.length_singleton]

/-- It is found under its key, and the others under theirs. -/
theorem find_append (h : Indexed index rows total) :
    find (index.insert k total) (rows ++ [row]) =
      Function.update (find index rows) k (some row) := by
  funext c
  unfold find
  by_cases hc : c = k
  · subst hc
    rw [Function.update_self, AList.lookup_insert, h.total_eq]
    exact List.getElem?_concat_length
  · rw [Function.update_of_ne hc, AList.lookup_insert_ne hc]
    cases hk : index.lookup c with
    | none => rfl
    | some j => exact List.getElem?_append_left (h.lt c j hk)

/-! ## Registering -/

/-- What registering `row` means for the map: it is the new row of `k`, or, when it is custom, of the
custom key, and then `k` has none any more. -/
def registered (m : κ → Option ν) (k customKey : κ) (row : ν) (custom : Bool) : κ → Option ν :=
  if custom then Function.update (Function.update m k none) customKey (some row)
  else Function.update m k (some row)

/-- An entry under a known key overwrites the row, and a custom one takes it to the custom key. -/
theorem registered_of_some {customKey : κ} {custom : Bool} (h : Indexed index rows total)
    (hk : index.lookup k = some i) :
    find (if custom then (index.erase k).insert customKey i else index) (rows.set i row) =
      registered (find index rows) k customKey row custom := by
  unfold registered
  cases custom with
  | false => exact find_set h hk
  | true =>
    rw [if_pos rfl, if_pos rfl, find_rekey hk, find_set h hk, Function.update_idem,
      Function.update_self]

/-- An entry under a new key gets a row of its own, a custom one under the custom key. -/
theorem registered_of_none {customKey : κ} {custom : Bool} (h : Indexed index rows total)
    (hk : index.lookup k = none) :
    find (index.insert (if custom then customKey else k) total) (rows ++ [row]) =
      registered (find index rows) k customKey row custom := by
  unfold registered
  rw [find_append h]
  cases custom with
  | false => rfl
  | true =>
    -- there is nothing to remove
    have hnone : Function.update (find index rows) k none = find index rows := by
      rw [Function.update_eq_self_iff]
      simp [find, hk]
    rw [if_pos rfl, if_pos rfl, hnone]

/-- After any rows, all custom or none, a key has the last row that went there. -/
theorem foldl_registered (keyOf customKeyOf : ν → κ)
    (hcustom : ∀ row row', customKeyOf row ≠ keyOf row') (custom : Bool) (rows : List ν) (key : κ) :
    rows.foldl (fun m row => registered m (keyOf row) (customKeyOf row) row custom) (fun _ => none)
        key =
      rows.reverse.find? fun row => (if custom then customKeyOf row else keyOf row) = key := by
  induction rows using List.reverseRecOn with
  | nil => rfl
  | append_singleton rows row ih =>
    rw [List.foldl_append, List.foldl_cons, List.foldl_nil, List.reverse_append,
      List.reverse_singleton, List.singleton_append, List.find?_cons, registered]
    cases custom with
    | false =>
      simp only [Bool.false_eq_true, if_false] at ih ⊢
      by_cases hkey : keyOf row = key
      · rw [hkey, Function.update_self, decide_eq_true rfl]
      · rw [Function.update_of_ne (Ne.symm hkey), decide_eq_false hkey]
        exact ih
    | true =>
      simp only [if_true] at ih ⊢
      by_cases hkey : customKeyOf row = key
      · rw [hkey, Function.update_self, decide_eq_true rfl]
      · rw [Function.update_of_ne (Ne.symm hkey), decide_eq_false hkey]
        by_cases hplain : keyOf row = key
        · -- the key is no custom one, and the rows before it did not go there either
          subst hplain
          rw [Function.update_self, List.find?_eq_none.mpr]
          exact fun row' _ => by simpa using hcustom row' row
        · rw [Function.update_of_ne (Ne.symm hplain)]
          exact ih

/-- After custom rows on top of a map: a key has the last row that went there, or nothing where a custom
row has taken its row away, or else what it had. -/
theorem foldl_registered_custom (keyOf customKeyOf : ν → κ)
    (hcustom : ∀ row row', customKeyOf row ≠ keyOf row') (rows : List ν) (m : κ → Option ν) (key : κ) :
    rows.foldl (fun m row => registered m (keyOf row) (customKeyOf row) row true) m key =
      (rows.reverse.find? fun row => customKeyOf row = key).or
        (if ∃ row ∈ rows, keyOf row = key then none else m key) := by
  induction rows using List.reverseRecOn with
  | nil => simp
  | append_singleton rows row ih =>
    rw [List.foldl_append, List.foldl_cons, List.foldl_nil, List.reverse_append,
      List.reverse_singleton, List.singleton_append, List.find?_cons, registered, if_pos rfl]
    by_cases hkey : customKeyOf row = key
    · rw [hkey, Function.update_self, decide_eq_true rfl, Option.some_or]
    · rw [Function.update_of_ne (Ne.symm hkey), decide_eq_false hkey]
      by_cases hplain : keyOf row = key
      · -- the key is no custom one
        subst hplain
        have hnone : rows.reverse.find? (fun row' => customKeyOf row' = keyOf row) = none :=
          List.find?_eq_none.mpr fun row' _ => by simpa using hcustom row' row
        have hmem : ∃ row' ∈ rows ++ [row], keyOf row' = keyOf row :=
          ⟨row, List.mem_append_right _ (List.mem_singleton_self row), rfl⟩
        rw [Function.update_self, hnone, if_pos hmem, Option.none_or]
      · have hiff : (∃ row' ∈ rows ++ [row], keyOf row' = key) ↔ ∃ row' ∈ rows, keyOf row' = key := by
          simp [hplain]
        rw [Function.update_of_ne (Ne.symm hplain), ih]
        simp only [hiff]

end IndexedTable
