import ResourceTuner.Lib.UnorderedMap

/-!
# Writes to a map, one after the other

A map that is written key by key holds under each key what the last write to it was.

* **`last?`** — what the last pair with a key holds;
* **`last?_entries`** — it is what the map itself holds;
* **`last?_flatMap_filter`** — who never writes the key may be left out;
* **`insertAll`**, **`lookup_insertAll`** — a finite map.
-/

namespace LastWrite

variable {κ ν : Type} [DecidableEq κ]

/-- What the last pair with the key holds. -/
def last? (k : κ) : List (κ × ν) → Option ν
  | [] => none
  | write :: writes => (last? k writes).or (if write.1 = k then some write.2 else none)

@[simp] theorem last?_nil (k : κ) : last? k ([] : List (κ × ν)) = none := rfl

@[simp] theorem last?_cons (k : κ) (write : κ × ν) (writes : List (κ × ν)) :
    last? k (write :: writes) = (last? k writes).or (if write.1 = k then some write.2 else none) :=
  rfl

theorem last?_append (k : κ) (writes more : List (κ × ν)) :
    last? k (writes ++ more) = (last? k more).or (last? k writes) := by
  induction writes with
  | nil => simp
  | cons write writes ih => rw [List.cons_append, last?_cons, ih, last?_cons, Option.or_assoc]

theorem mem_of_last? {k : κ} {v : ν} {writes : List (κ × ν)} (h : last? k writes = some v) :
    (k, v) ∈ writes := by
  induction writes with
  | nil => cases h
  | cons write writes ih =>
    rw [last?_cons] at h
    cases hlast : last? k writes with
    | some v' =>
      rw [hlast, Option.some_or] at h
      exact List.mem_cons_of_mem _ (ih (hlast.trans h))
    | none =>
      rw [hlast, Option.none_or] at h
      split at h
      · rename_i hkey
        cases h
        exact hkey ▸ List.mem_cons_self
      · cases h

theorem last?_eq_none_iff {k : κ} {writes : List (κ × ν)} :
    last? k writes = none ↔ k ∉ writes.map Prod.fst := by
  induction writes with
  | nil => simp
  | cons write writes ih =>
    rw [last?_cons, Option.or_eq_none_iff, ih, List.map_cons, List.mem_cons, not_or]
    constructor
    · rintro ⟨hnot, hkey⟩
      refine ⟨fun heq => ?_, hnot⟩
      rw [if_pos heq.symm] at hkey
      cases hkey
    · rintro ⟨hne, hnot⟩
      exact ⟨hnot, if_neg (Ne.symm hne)⟩

/-- Where every write to a key is the same, the order does not matter. -/
theorem last?_of_mem {k : κ} {v : ν} {writes : List (κ × ν)} (hmem : (k, v) ∈ writes)
    (hsame : ∀ v', (k, v') ∈ writes → v' = v) : last? k writes = some v := by
  cases hlast : last? k writes with
  | none => exact absurd (List.mem_map_of_mem hmem) (last?_eq_none_iff.mp hlast)
  | some v' => rw [hsame v' (mem_of_last? hlast)]

/-- Those who never write to the key can be left out. -/
theorem last?_flatMap_filter {α : Type} {k : κ} {f : α → List (κ × ν)} {p : α → Bool} {l : List α}
    (hframe : ∀ a ∈ l, p a = false → k ∉ (f a).map Prod.fst) :
    last? k (l.flatMap f) = last? k ((l.filter p).flatMap f) := by
  induction l with
  | nil => rfl
  | cons a l ih =>
    have hrest := ih fun b hb => hframe b (List.mem_cons_of_mem _ hb)
    rw [List.flatMap_cons, last?_append, hrest]
    cases hp : p a with
    | true => rw [List.filter_cons_of_pos hp, List.flatMap_cons, last?_append]
    | false =>
      rw [List.filter_cons_of_neg (by rw [hp]; decide),
        last?_eq_none_iff.mpr (hframe a List.mem_cons_self hp), Option.or_none]

/-! ## Finite maps -/

/-- The entries of a map, each written once. -/
theorem last?_entries (m : UnorderedMap κ ν) (k : κ) :
    last? k (m.entries.map fun entry => (entry.1, entry.2)) = m.lookup k := by
  have hmem : ∀ v, (k, v) ∈ m.entries.map (fun entry => (entry.1, entry.2)) ↔
      m.lookup k = some v := by
    intro v
    rw [← Option.mem_def, AList.mem_lookup_iff, List.mem_map]
    constructor
    · rintro ⟨entry, hentry, heq⟩
      cases heq
      exact hentry
    · exact fun hentry => ⟨⟨k, v⟩, hentry, rfl⟩
  cases hlookup : m.lookup k with
  | some v =>
    refine last?_of_mem ((hmem v).mpr hlookup) fun v' hv' => ?_
    exact Option.some.inj (((hmem v').mp hv').symm.trans hlookup)
  | none =>
    refine last?_eq_none_iff.mpr fun hkey => ?_
    obtain ⟨write, hwrite, rfl⟩ := List.mem_map.mp hkey
    rw [(hmem write.2).mp hwrite] at hlookup
    cases hlookup

def insertAll (m : UnorderedMap κ ν) (writes : List (κ × ν)) : UnorderedMap κ ν :=
  writes.foldl (fun m write => m.insert write.1 write.2) m

theorem lookup_insertAll (m : UnorderedMap κ ν) (writes : List (κ × ν)) (k : κ) :
    (insertAll m writes).lookup k = (last? k writes).or (m.lookup k) := by
  induction writes generalizing m with
  | nil => rfl
  | cons write writes ih =>
    show (insertAll (m.insert write.1 write.2) writes).lookup k = _
    rw [ih, last?_cons, Option.or_assoc]
    congr 1
    by_cases hkey : write.1 = k
    · rw [if_pos hkey, ← hkey, AList.lookup_insert]
      rfl
    · rw [if_neg hkey, AList.lookup_insert_ne (Ne.symm hkey)]
      rfl

end LastWrite
