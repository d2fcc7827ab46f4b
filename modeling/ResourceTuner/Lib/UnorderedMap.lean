import Mathlib.Data.List.AList

/-!
# Finite maps and sets with the accesses of the C++ containers

The stores of the program are hash maps.  `AList` carries the fact that no key occurs twice;
this module adds the two accesses C++ code mixes freely: `find`, which never changes the map
(`AList.lookup`), and `operator[]`, which inserts a default under a missing key
(`UnorderedMap.subscript`).  Keeping the two apart is what makes a lookup that grows the map
visible in the model.  `UnorderedSet` is `std::unordered_set`, a list without repetitions whose
order is the iteration order.
-/

/-- A finite map from `κ` to `ν` whose iteration order is the order of its entries. -/
abbrev UnorderedMap (κ ν : Type) := AList (fun _ : κ => ν)

namespace UnorderedMap

variable {κ ν : Type} [DecidableEq κ]

/-- The number of keys. -/
def size (m : UnorderedMap κ ν) : Nat := m.keys.length

/-- `m[k]` as C++ evaluates it: the value under `k`, after `d` has been inserted under a missing
`k`. -/
def subscript (m : UnorderedMap κ ν) (k : κ) (d : ν) : ν × UnorderedMap κ ν :=
  match m.lookup k with
  | some v => (v, m)
  | none => (d, m.insert k d)

/-- `operator[]` leaves the map alone exactly when the key was there. -/
theorem subscript_snd_eq_iff (m : UnorderedMap κ ν) (k : κ) (d : ν) :
    (UnorderedMap.subscript m k d).2 = m ↔ k ∈ m := by
  unfold subscript
  cases h : m.lookup k with
  | some v =>
    have hk : k ∈ m := AList.lookup_isSome.mp (by rw [h]; rfl)
    simpa using hk
  | none =>
    have hk : k ∉ m := AList.lookup_eq_none.mp h
    constructor
    · intro heq
      rw [← heq]
      exact (AList.mem_insert m).mpr (Or.inl rfl)
    · intro hk'
      exact absurd hk' hk

theorem subscript_of_lookup {m : UnorderedMap κ ν} {k : κ} {v : ν} (h : m.lookup k = some v)
    (d : ν) : UnorderedMap.subscript m k d = (v, m) := by
  simp [subscript, h]

theorem mem_of_lookup {m : UnorderedMap κ ν} {k : κ} {v : ν} (h : m.lookup k = some v) : k ∈ m :=
  AList.lookup_isSome.mp (by rw [h]; rfl)

theorem size_insert_of_notMem {m : UnorderedMap κ ν} {k : κ} (v : ν) (h : k ∉ m) :
    size (m.insert k v) = size m + 1 := by
  have hk : k ∉ m.keys := fun hmem => h (AList.mem_keys.mpr hmem)
  simp only [size, AList.keys_insert, List.length_cons, List.erase_of_not_mem hk]

theorem size_insert_of_mem {m : UnorderedMap κ ν} {k : κ} (v : ν) (h : k ∈ m) :
    size (m.insert k v) = size m := by
  have hk : k ∈ m.keys := AList.mem_keys.mp h
  have hpos : 0 < m.keys.length := List.length_pos_of_mem hk
  simp only [size, AList.keys_insert, List.length_cons, List.length_erase_of_mem hk]
  omega

theorem size_erase_le (m : UnorderedMap κ ν) (k : κ) :
    size (m.erase k) ≤ size m := by
  simp only [size, AList.keys_erase]
  exact (List.erase_sublist (a := k) (l := m.keys)).length_le

end UnorderedMap

/-- A finite set with an iteration order. -/
structure UnorderedSet (κ : Type) where
  elems : List κ
  nodup : elems.Nodup

namespace UnorderedSet

variable {κ : Type} [DecidableEq κ]

instance : Membership κ (UnorderedSet κ) := ⟨fun s k => k ∈ s.elems⟩

instance (k : κ) (s : UnorderedSet κ) : Decidable (k ∈ s) :=
  inferInstanceAs (Decidable (k ∈ s.elems))

instance : DecidableEq (UnorderedSet κ) := fun s s' =>
  decidable_of_iff (s.elems = s'.elems) (by
    cases s
    cases s'
    simp)

def empty : UnorderedSet κ := ⟨[], List.nodup_nil⟩

def insert (s : UnorderedSet κ) (k : κ) : UnorderedSet κ :=
  ⟨s.elems.insert k, s.nodup.insert⟩

def erase (s : UnorderedSet κ) (k : κ) : UnorderedSet κ :=
  ⟨s.elems.erase k, s.nodup.erase k⟩

omit [DecidableEq κ] in
@[simp] theorem notMem_empty (k : κ) : k ∉ (empty : UnorderedSet κ) := List.not_mem_nil

@[simp] theorem mem_insert {s : UnorderedSet κ} {k k' : κ} : k' ∈ s.insert k ↔ k' = k ∨ k' ∈ s :=
  List.mem_insert_iff

@[simp] theorem mem_erase {s : UnorderedSet κ} {k k' : κ} : k' ∈ s.erase k ↔ k' ≠ k ∧ k' ∈ s :=
  s.nodup.mem_erase_iff

end UnorderedSet
