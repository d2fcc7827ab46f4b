import ResourceTuner.Core.RequestManager
import ResourceTuner.Lib.Recency

/-!
# The cache of untuned handles

`HandleCache` keeps a set and a queue side by side.  An insertion into a full cache drops the oldest
handle of the queue from both, and then the handle is put into the set and behind the queue.  The set
ignores a handle that it has; the queue does not.  From then on the queue is longer than the set, what
it drops may not be in the set any more, and the cache outgrows its capacity.

* **`MostRecent`** — what the cache is for;
* **`Admitted`** — an insertion that both sides treat alike;
* **`Drifted`** — what an insertion that is not leaves for ever;
* **`mostRecent_iff`** — the sequences of insertions after which the cache is right.
-/

namespace ResourceTuner

namespace HandleCache

open Recency

/-- `HandleCache(maxSize)`. -/
def ofCapacity (maxSize : Nat) : HandleCache := ⟨maxSize, .empty, []⟩

/-- Insertions one after the other. -/
def insertAll (cache : HandleCache) (handles : List Int) : HandleCache := handles.foldl insert cache

/-- The cache holds at most `m` handles, its queue lists the handles of its set, each once, and they are
the `m` most recent of those that were inserted. -/
structure MostRecent (m : Nat) (handles : List Int) (cache : HandleCache) : Prop where
  size_le : cache.mHandleSet.elems.length ≤ m
  nodup : cache.mRecencyQueue.Nodup
  queue : ∀ handle, handle ∈ cache.mRecencyQueue ↔ handle ∈ cache.mHandleSet
  present : ∀ handle, cache.isPresent handle = true ↔ handle ∈ recent m handles

/-- The handle is not in the cache, or it is the oldest one of a full cache. -/
def Admitted (m : Nat) (before : List Int) (handle : Int) : Prop :=
  handle ∉ recent m before ∨
    (recent m before).length = m ∧ (recent m before).head? = some handle

instance (m : Nat) (before : List Int) (handle : Int) : Decidable (Admitted m before handle) :=
  inferInstanceAs (Decidable (_ ∨ _))

/-- Every insertion of a sequence is of this kind. -/
def AllAdmitted (m : Nat) (handles : List Int) : Prop :=
  ∀ before handle after, handles = before ++ handle :: after → Admitted m before handle

theorem allAdmitted_nil (m : Nat) : AllAdmitted m [] := by
  intro before handle after h
  simp at h

theorem allAdmitted_append_singleton {m : Nat} {handles : List Int} {handle : Int} :
    AllAdmitted m (handles ++ [handle]) ↔ AllAdmitted m handles ∧ Admitted m handles handle := by
  constructor
  · intro h
    refine ⟨fun before first after heq => ?_, h handles handle [] rfl⟩
    exact h before first (after ++ [handle]) (by rw [heq, List.append_assoc]; rfl)
  · rintro ⟨hall, hlast⟩ before first after heq
    cases after using List.reverseRecOn with
    | nil =>
      obtain ⟨rfl, hlast'⟩ := List.append_inj' heq rfl
      obtain rfl := List.singleton_inj.mp hlast'
      exact hlast
    | append_singleton after last =>
      rw [← List.cons_append, ← List.append_assoc] at heq
      exact hall before first after (List.append_inj' heq rfl).1

/-! ## One insertion -/

section Insert

variable {cache : HandleCache} {handle oldestHandle : Int} {rest : List Int}

@[simp] theorem insert_mMaxSize : (cache.insert handle).mMaxSize = cache.mMaxSize := by
  unfold insert
  simp only
  split
  · split <;> rfl
  · rfl

/-- There is room. -/
theorem insert_of_room (hroom : cache.mHandleSet.elems.length < cache.mMaxSize) :
    cache.insert handle =
      { cache with
        mHandleSet := cache.mHandleSet.insert handle
        mRecencyQueue := cache.mRecencyQueue ++ [handle] } := by
  unfold insert
  rw [if_neg (by omega)]

/-- The oldest handle has to leave. -/
theorem insert_of_full (hfull : cache.mMaxSize ≤ cache.mHandleSet.elems.length)
    (hqueue : cache.mRecencyQueue = oldestHandle :: rest) :
    cache.insert handle =
      { cache with
        mHandleSet := (cache.mHandleSet.erase oldestHandle).insert handle
        mRecencyQueue := rest ++ [handle] } := by
  unfold insert
  simp only
  rw [if_pos hfull]
  simp only [hqueue]

end Insert

/-! ## Insertions that both sides treat alike -/

/-- The queue is the recent handles, the oldest first, and the set has the same. -/
structure InStep (m : Nat) (handles : List Int) (cache : HandleCache) : Prop where
  capacity : cache.mMaxSize = m
  queue : cache.mRecencyQueue = recent m handles
  set : ∀ handle, handle ∈ cache.mHandleSet ↔ handle ∈ recent m handles

section InStep

variable {m : Nat} {handles : List Int} {cache : HandleCache} {handle : Int}

theorem inStep_ofCapacity (m : Nat) : InStep m [] (ofCapacity m) where
  capacity := rfl
  queue := by simp [ofCapacity, recent]
  set handle := by simp [ofCapacity, recent]

theorem InStep.length_eq (h : InStep m handles cache) :
    cache.mHandleSet.elems.length = (recent m handles).length :=
  ((List.perm_ext_iff_of_nodup cache.mHandleSet.nodup (nodup_recent m handles)).mpr h.set).length_eq

theorem InStep.mostRecent (h : InStep m handles cache) : MostRecent m handles cache where
  size_le := h.length_eq.trans_le (length_recent_le m handles)
  nodup := h.queue ▸ nodup_recent m handles
  queue handle := by rw [h.queue, h.set]
  present handle := by rw [isPresent, decide_eq_true_eq, h.set]

/-- **An admitted insertion** keeps both sides in step. -/
theorem InStep.insert (h : InStep (m + 1) handles cache)
    (hadmitted : Admitted (m + 1) handles handle) :
    InStep (m + 1) (handles ++ [handle]) (cache.insert handle) := by
  have hlength := h.length_eq
  have hle := length_recent_le (m + 1) handles
  by_cases hfull : (recent (m + 1) handles).length = m + 1
  · obtain ⟨oldestHandle, rest, hrecent⟩ : ∃ oldestHandle rest,
        recent (m + 1) handles = oldestHandle :: rest := List.exists_cons_of_length_eq_add_one hfull
    have hnodup := nodup_recent (m + 1) handles
    have hset := h.set
    rw [hrecent] at hnodup hset
    have hnotMem := (List.nodup_cons.mp hnodup).1
    -- the oldest handle makes room, whether or not it is the one that comes
    have hnew : recent (m + 1) (handles ++ [handle]) = rest ++ [handle] := by
      rcases hadmitted with hnew | ⟨-, holdest⟩
      · rw [recent_append_of_notMem hnew, if_pos hfull, hrecent, List.tail_cons]
      · rw [hrecent, List.head?_cons, Option.some.injEq] at holdest
        rw [← holdest]
        exact recent_append_of_oldest hrecent (by simpa [hrecent] using hfull)
    rw [insert_of_full (by rw [h.capacity]; omega) (h.queue.trans hrecent)]
    refine ⟨h.capacity, hnew.symm, fun handle' => ?_⟩
    show handle' ∈ (cache.mHandleSet.erase oldestHandle).insert handle ↔ _
    rw [UnorderedSet.mem_insert, UnorderedSet.mem_erase, hset, hnew, List.mem_append,
      List.mem_singleton, List.mem_cons]
    constructor
    · rintro (rfl | ⟨hne, heq | hmem⟩)
      · exact Or.inr rfl
      · exact absurd heq hne
      · exact Or.inl hmem
    · rintro (hmem | rfl)
      · exact Or.inr ⟨by rintro rfl; exact hnotMem hmem, Or.inr hmem⟩
      · exact Or.inl rfl
  · have hnotMem := hadmitted.resolve_right fun holdest => hfull holdest.1
    have hnew : recent (m + 1) (handles ++ [handle]) = recent (m + 1) handles ++ [handle] := by
      rw [recent_append_of_notMem hnotMem, if_neg hfull]
    rw [insert_of_room (by rw [h.capacity]; omega)]
    refine ⟨h.capacity, by rw [hnew, ← h.queue], fun handle' => ?_⟩
    show handle' ∈ cache.mHandleSet.insert handle ↔ _
    rw [UnorderedSet.mem_insert, h.set, hnew, List.mem_append, List.mem_singleton, or_comm]

end InStep

/-! ## Drift -/

/-- Some handle is queued twice, or more handles are queued than the cache may hold. -/
structure Drifted (cache : HandleCache) : Prop where
  queued : ∀ handle ∈ cache.mHandleSet, handle ∈ cache.mRecencyQueue
  excess : ¬ cache.mRecencyQueue.Nodup ∨ cache.mMaxSize < cache.mRecencyQueue.length

section Drifted

variable {m : Nat} {handles : List Int} {cache : HandleCache} {handle : Int}

/-- The set never has more handles than the queue, and fewer when some are queued twice. -/
theorem Drifted.length_lt (h : Drifted cache)
    (hfull : cache.mMaxSize ≤ cache.mHandleSet.elems.length) :
    cache.mMaxSize < cache.mRecencyQueue.length := by
  rcases h.excess with hrepeated | hlong
  · have hsub : cache.mHandleSet.elems.length ≤ cache.mRecencyQueue.dedup.length :=
      (cache.mHandleSet.nodup.subperm fun handle hmem =>
        List.mem_dedup.mpr (h.queued handle hmem)).length_le
    have hlt : cache.mRecencyQueue.dedup.length < cache.mRecencyQueue.length := by
      refine lt_of_le_of_ne (List.dedup_sublist _).length_le fun heq => hrepeated ?_
      rw [← (List.dedup_sublist _).eq_of_length heq]
      exact List.nodup_dedup _
    omega
  · exact hlong

/-- **Drift stays.** -/
theorem Drifted.insert (h : Drifted cache) : Drifted (cache.insert handle) := by
  by_cases hroom : cache.mHandleSet.elems.length < cache.mMaxSize
  · rw [insert_of_room hroom]
    refine ⟨fun handle' hmem => ?_, ?_⟩
    · rcases UnorderedSet.mem_insert.mp hmem with rfl | hmem
      · simp
      · exact List.mem_append_left _ (h.queued handle' hmem)
    · refine h.excess.imp (fun hrepeated hnodup => ?_) fun hlong => ?_
      · exact hrepeated (List.nodup_append.mp hnodup).1
      · simp only [List.length_append, List.length_singleton]
        omega
  · have hfull := not_lt.mp hroom
    have hlong := h.length_lt hfull
    cases hqueue : cache.mRecencyQueue with
    | nil => simp [hqueue] at hlong
    | cons oldestHandle rest =>
      have hqueued := h.queued
      rw [hqueue] at hlong hqueued
      rw [insert_of_full hfull hqueue]
      refine ⟨fun handle' hmem => ?_, Or.inr (by simpa using hlong)⟩
      rcases UnorderedSet.mem_insert.mp hmem with rfl | hmem
      · simp
      · obtain ⟨hne, hmem⟩ := UnorderedSet.mem_erase.mp hmem
        exact List.mem_append_left _ ((List.mem_cons.mp (hqueued handle' hmem)).resolve_left hne)

/-- A cache that has drifted is not right, for any sequence of handles. -/
theorem Drifted.not_mostRecent (h : Drifted cache) (hcapacity : cache.mMaxSize = m) :
    ¬ MostRecent m handles cache := by
  intro hrecent
  have hlength : cache.mRecencyQueue.length = cache.mHandleSet.elems.length :=
    ((List.perm_ext_iff_of_nodup hrecent.nodup cache.mHandleSet.nodup).mpr hrecent.queue).length_eq
  have hsize := hrecent.size_le
  rcases h.excess with hrepeated | hlong
  · exact hrepeated hrecent.nodup
  · omega

/-- **An insertion that is not admitted** makes the two sides drift apart. -/
theorem InStep.drifted (h : InStep (m + 1) handles cache)
    (hadmitted : ¬ Admitted (m + 1) handles handle) : Drifted (cache.insert handle) := by
  rw [Admitted, not_or, not_not] at hadmitted
  obtain ⟨hmem, holdest⟩ := hadmitted
  have hlength := h.length_eq
  by_cases hfull : (recent (m + 1) handles).length = m + 1
  · obtain ⟨oldestHandle, rest, hrecent⟩ : ∃ oldestHandle rest,
        recent (m + 1) handles = oldestHandle :: rest := List.exists_cons_of_length_eq_add_one hfull
    have hset := h.set
    rw [hrecent] at hmem holdest hset
    have hne : handle ≠ oldestHandle := by
      rintro rfl
      exact holdest ⟨hrecent ▸ hfull, rfl⟩
    have hrest := (List.mem_cons.mp hmem).resolve_left hne
    rw [insert_of_full (by rw [h.capacity]; omega) (h.queue.trans hrecent)]
    refine ⟨fun handle' hmem' => ?_, Or.inl fun hnodup => ?_⟩
    · rcases UnorderedSet.mem_insert.mp hmem' with rfl | hmem'
      · simp
      · obtain ⟨hne', hmem'⟩ := UnorderedSet.mem_erase.mp hmem'
        exact List.mem_append_left _
          ((List.mem_cons.mp ((hset handle').mp hmem')).resolve_left hne')
    · exact (List.nodup_append.mp hnodup).2.2 handle hrest handle (by simp) rfl
  · have hle := length_recent_le (m + 1) handles
    rw [insert_of_room (by rw [h.capacity]; omega)]
    refine ⟨fun handle' hmem' => ?_, Or.inl fun hnodup => ?_⟩
    · rcases UnorderedSet.mem_insert.mp hmem' with rfl | hmem'
      · simp
      · rw [h.queue]
        exact List.mem_append_left _ ((h.set handle').mp hmem')
    · rw [h.queue] at hnodup
      exact (List.nodup_append.mp hnodup).2.2 handle hmem handle (by simp) rfl

end Drifted

/-! ## Any sequence of insertions -/

theorem insertAll_append_singleton (cache : HandleCache) (handles : List Int) (handle : Int) :
    cache.insertAll (handles ++ [handle]) = (cache.insertAll handles).insert handle := by
  simp [insertAll]

theorem insertAll_mMaxSize (cache : HandleCache) (handles : List Int) :
    (cache.insertAll handles).mMaxSize = cache.mMaxSize := by
  induction handles using List.reverseRecOn with
  | nil => rfl
  | append_singleton handles handle ih => rw [insertAll_append_singleton, insert_mMaxSize, ih]

/-- The two sides are in step, or they have drifted apart. -/
theorem inStep_or_drifted (m : Nat) (handles : List Int) :
    AllAdmitted (m + 1) handles ∧ InStep (m + 1) handles ((ofCapacity (m + 1)).insertAll handles) ∨
      ¬ AllAdmitted (m + 1) handles ∧ Drifted ((ofCapacity (m + 1)).insertAll handles) := by
  induction handles using List.reverseRecOn with
  | nil => exact Or.inl ⟨allAdmitted_nil _, inStep_ofCapacity _⟩
  | append_singleton handles handle ih =>
    rw [insertAll_append_singleton, allAdmitted_append_singleton]
    rcases ih with ⟨hall, hstep⟩ | ⟨hnot, hdrifted⟩
    · by_cases hadmitted : Admitted (m + 1) handles handle
      · exact Or.inl ⟨⟨hall, hadmitted⟩, hstep.insert hadmitted⟩
      · exact Or.inr ⟨fun h => hadmitted h.2, hstep.drifted hadmitted⟩
    · exact Or.inr ⟨fun h => hnot h.1, hdrifted.insert⟩

/-- **The cache is right** after a sequence of insertions exactly when each was of a handle that was
not in the cache, or of the oldest one in a full cache. -/
theorem mostRecent_iff (m : Nat) (hm : 1 ≤ m) (handles : List Int) :
    MostRecent m handles ((ofCapacity m).insertAll handles) ↔ AllAdmitted m handles := by
  obtain ⟨m, rfl⟩ := Nat.exists_eq_add_of_le' hm
  rcases inStep_or_drifted m handles with ⟨hall, hstep⟩ | ⟨hnot, hdrifted⟩
  · exact iff_of_true hstep.mostRecent hall
  · refine iff_of_false (hdrifted.not_mostRecent ?_) hnot
    exact insertAll_mMaxSize _ _

theorem mostRecent_iff_sample :
    1 ≤ 2 ∧ (MostRecent 2 [1, 2, 1, 3] ((ofCapacity 2).insertAll [1, 2, 1, 3]) ↔
      AllAdmitted 2 [1, 2, 1, 3]) :=
  ⟨by decide, mostRecent_iff 2 (by decide) [1, 2, 1, 3]⟩

/-- A handle that is untuned twice before its tune comes: the cache for two handles ends up with three,
and still has the one that should have left. -/
theorem outgrown_by_repetition :
    ((ofCapacity 2).insertAll [1, 1, 2, 3, 4]).mHandleSet.elems.length = 3 ∧
      ((ofCapacity 2).insertAll [1, 1, 2, 3, 4]).isPresent 2 = true ∧
      recent 2 [1, 1, 2, 3, 4] = [3, 4] ∧
      ¬ MostRecent 2 [1, 1, 2, 3, 4] ((ofCapacity 2).insertAll [1, 1, 2, 3, 4]) := by
  refine ⟨by decide, by decide, by decide, fun h => ?_⟩
  have hsize := h.size_le
  revert hsize
  decide

end HandleCache

end ResourceTuner
