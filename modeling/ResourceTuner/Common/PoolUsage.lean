import Mathlib.Algebra.Group.Int.Defs
import Mathlib.Data.List.Perm.Basic
import ResourceTuner.Common.FreeList

/-!
# What callers can rely on

The counter of a memory pool is a 32-bit number that grows by what `makeAllocation` was asked for.  It
is the length of the free list as long as every request to `new` is granted and the number does not
overflow; and then the pool is a queue of free blocks that never hands a block out twice.

* **`Guarded`** — the counter, and what it protects `getBlock` from;
* **`guarded_iff_fits`** — a run of calls keeps the counter right exactly when every call fits;
* **`Usage`** — a pool with the blocks its callers hold;
* **`Sound`**, **`sound_of_run`** — no block is handed out twice.
-/

namespace ResourceTuner

namespace MemoryPool

/-- The calls of a pool. -/
inductive Call where
  | makeAllocation (blockCount : BitVec 32)
  | getBlock
  | freeBlock (block : Option BlockPtr)

/-- The pool after a call, `none` if it dereferences a null pointer. -/
def call (pool : MemoryPool) : Call → Option MemoryPool
  | .makeAllocation blockCount => (pool.makeAllocation blockCount).map (·.2)
  | .getBlock =>
    match pool.getBlock with
    | (.null_dereference, _) => none
    | (_, pool) => some pool
  | .freeBlock block => pool.freeBlock block

/-- Any call can be made at any time; after a crash nothing changes any more. -/
def calls : Machine MemoryPool Call where
  Enabled _ _ := True
  next pool c := (pool.call c).getD pool

/-! ## The counter -/

/-- The counter is right, `makeAllocation` says how much longer the free list has become, and
`getBlock` never follows a null head. -/
structure Guarded (pool : MemoryPool) : Prop where
  counter : ∃ free carried allocated, pool.Lists free carried allocated ∧
    pool.mfreeBlocks.toInt = free.length
  added : ∀ blockCount, ∃ count pool', pool.makeAllocation blockCount = some (count, pool') ∧
    ∀ free carried allocated free' carried' allocated', pool.Lists free carried allocated →
      pool'.Lists free' carried' allocated' → free'.length = free.length + count
  safe : pool.getBlock.1 ≠ .null_dereference

/-- The counter can follow a call: no negative number of blocks, and no overflow. -/
def Fits (pool : MemoryPool) : Call → Prop
  | .makeAllocation blockCount =>
    0 ≤ blockCount.toInt ∧ pool.mfreeBlocks.toInt + blockCount.toInt < 2 ^ 31
  | .getBlock => True
  | .freeBlock block => block.isSome → pool.mAllocatedListHead.isSome →
    pool.mfreeBlocks.toInt + 1 < 2 ^ 31

instance (pool : MemoryPool) (c : Call) : Decidable (pool.Fits c) :=
  match c with
  | .makeAllocation _ => inferInstanceAs (Decidable (_ ∧ _))
  | .getBlock => .isTrue trivial
  | .freeBlock _ => inferInstanceAs (Decidable (_ → _ → _))

/-- `new` grants everything that a call asks for. -/
def Granted (pool : MemoryPool) : Call → Prop
  | .makeAllocation blockCount => pool.Grants blockCount.toInt.toNat
  | _ => True

section Counter

variable {pool : MemoryPool} {free free' allocated allocated' : List MemoryNodePtr}
  {carried carried' : List BlockPtr}

/-- The free list of a pool is one list. -/
theorem Lists.free_unique (h : pool.Lists free carried allocated)
    (h' : pool.Lists free' carried' allocated') : free = free' :=
  h.holdsFree.unique h'.holdsFree

/-- Adding to the counter: it goes up by as much as was really added exactly when that is what was
asked for, and fits. -/
theorem toInt_add_eq_iff {m n : BitVec 32} (hm : 0 ≤ m.toInt) {k : Nat}
    (hk : k ≤ n.toInt.toNat) :
    (m + n).toInt = m.toInt + k ↔ (0 ≤ n.toInt ∧ m.toInt + n.toInt < 2 ^ 31) ∧ k = n.toInt.toNat := by
  rw [BitVec.toInt_add]
  have hm' := @BitVec.toInt_lt 32 m
  have hn := @BitVec.toInt_lt 32 n
  have hn' := @BitVec.le_toInt 32 n
  simp only [Int.bmod_def]
  omega

theorem toInt_sub_one {m : BitVec 32} (hm : 0 < m.toInt) : (m - 1).toInt = m.toInt - 1 := by
  have hm' := @BitVec.toInt_lt 32 m
  rw [BitVec.toInt_sub, show (1 : BitVec 32).toInt = 1 from rfl]
  simp only [Int.bmod_def]
  omega

/-- With a right counter everything else is right. -/
theorem guarded_iff (h : pool.Lists free carried allocated) :
    pool.Guarded ↔ pool.mfreeBlocks.toInt = free.length := by
  constructor
  · rintro ⟨⟨free', carried', allocated', h', hcount⟩, -, -⟩
    rw [h.free_unique h', hcount]
  · intro hcount
    refine ⟨⟨free, carried, allocated, h, hcount⟩, fun blockCount => ?_, ?_⟩
    · obtain ⟨nodes, new, pool', hmake, hlists, -⟩ := makeAllocation_spec h blockCount
      refine ⟨new.length, pool', hmake, fun free₁ _ _ free₂ _ _ h₁ h₂ => ?_⟩
      have hlength := hlists.carried_length
      have hbefore := h.carried_length
      rw [List.length_append, List.length_append] at hlength
      rw [h₁.free_unique h, h₂.free_unique hlists, List.length_append]
      omega
    · unfold getBlock
      split
      · simp
      · rename_i hne
        have hhead := Chain.Path.head h.holdsFree
        cases free with
        | nil =>
          -- a counter that says zero is zero
          refine absurd (BitVec.eq_of_toInt_eq ?_) hne
          simpa using hcount
        | cons node rest =>
          have hhead' : pool.mFreeListHead = some node := hhead
          simp [hhead']

/-- **One call** on a pool whose counter is right leaves it right exactly when the call fits and all
its allocations are granted. -/
theorem guarded_next_iff (h : pool.Guarded) (c : Call) :
    (calls.next pool c).Guarded ↔ pool.Fits c ∧ pool.Granted c := by
  obtain ⟨free, carried, allocated, hlists, hcount⟩ := h.counter
  have hpos : 0 ≤ pool.mfreeBlocks.toInt := by omega
  cases c with
  | makeAllocation blockCount =>
    obtain ⟨nodes, new, pool', hmake, hlists', -, -, -, -, hcounter, -, hle, hall⟩ :=
      makeAllocation_spec hlists blockCount
    have hnext : calls.next pool (.makeAllocation blockCount) = pool' := by
      simp [calls, call, hmake]
    have hnew : (free ++ nodes).length = free.length + new.length := by
      have hlength := hlists'.carried_length
      have hbefore := hlists.carried_length
      rw [List.length_append, List.length_append] at hlength
      rw [List.length_append]
      omega
    rw [hnext, guarded_iff hlists', hcounter, hnew, Int.natCast_add, ← hcount,
      toInt_add_eq_iff hpos hle, hall]
    rfl
  | getBlock =>
    refine iff_of_true ?_ ⟨trivial, trivial⟩
    by_cases hzero : pool.mfreeBlocks = 0
    · have hnext : calls.next pool .getBlock = pool := by
        simp [calls, call, getBlock, hzero]
      rw [hnext]
      exact h
    · cases free with
      | nil =>
        refine absurd (BitVec.eq_of_toInt_eq ?_) hzero
        simpa using hcount
      | cons node rest =>
        cases hcarried : carried with
        | nil =>
          have hlength := hlists.carried_length
          simp [hcarried] at hlength
        | cons block carried' =>
          rw [hcarried] at hlists
          obtain ⟨pool', hget, hlists', hcounter, -⟩ := getBlock_spec hlists hzero
          have hnext : calls.next pool .getBlock = pool' := by
            simp [calls, call, hget]
          rw [List.length_cons] at hcount
          rw [hnext, guarded_iff hlists', hcounter, toInt_sub_one (by omega), hcount]
          omega
  | freeBlock block =>
    have hsame (hnext : calls.next pool (.freeBlock block) = pool)
        (hfits : pool.Fits (.freeBlock block)) : (calls.next pool (.freeBlock block)).Guarded ↔
          pool.Fits (.freeBlock block) ∧ pool.Granted (.freeBlock block) := by
      rw [hnext]
      exact iff_of_true h ⟨hfits, trivial⟩
    have hhead := Chain.Path.head hlists.holdsAllocated
    cases block with
    | none => exact hsame rfl fun hsome => by cases hsome
    | some block =>
      cases allocated with
      | nil =>
        have hhead' : pool.mAllocatedListHead = none := hhead
        refine hsame (by simp [calls, call, freeBlock, hhead']) fun _ hsome => ?_
        rw [hhead'] at hsome
        cases hsome
      | cons node rest =>
        have hhead' : pool.mAllocatedListHead = some node := hhead
        obtain ⟨pool', hfree, hlists', hcounter, -⟩ := freeBlock_spec hlists block
        have hnext : calls.next pool (.freeBlock (some block)) = pool' := by
          simp [calls, call, hfree]
        have hone := @toInt_add_eq_iff pool.mfreeBlocks 1 hpos 1 (by decide)
        rw [hnext, guarded_iff hlists', hcounter, List.length_append, List.length_singleton,
          Int.natCast_add, ← hcount, hone]
        simp [Fits, Granted, hhead']

/-- A new pool has no blocks and counts none. -/
theorem guarded_new (grants : Nat → Bool) : (new grants).Guarded :=
  (guarded_iff (lists_new grants)).mpr rfl

/-- **The counter of a pool**: before and after every call of a run it is the length of the free list,
and `makeAllocation` and `getBlock` can be relied on, the first one of the run included, exactly when
every call fits and is granted what it asks for. -/
theorem guarded_iff_fits (grants : Nat → Bool) (events : List Call) :
    calls.Steps (fun pool c => pool.Guarded ∧ (calls.next pool c).Guarded) (new grants) events ↔
      calls.Steps (fun pool c => pool.Fits c ∧ pool.Granted c) (new grants) events := by
  have hnew := guarded_new grants
  generalize new grants = pool at hnew
  induction events generalizing pool with
  | nil => exact Iff.rfl
  | cons c rest ih =>
    have hstep := guarded_next_iff hnew c
    constructor
    · rintro ⟨⟨-, hnext⟩, hrest⟩
      exact ⟨hstep.mp hnext, (ih _ hnext).mp hrest⟩
    · rintro ⟨hfits, hrest⟩
      have hnext := hstep.mpr hfits
      exact ⟨⟨hnew, hnext⟩, (ih _ hnext).mpr hrest⟩

end Counter

/-- An allocation that fails is counted all the same, and the next `getBlock` follows a null head. -/
theorem counted_without_block :
    ¬ calls.Steps (fun pool c => pool.Guarded ∧ (calls.next pool c).Guarded) (new fun _ => false)
      [.makeAllocation 1] := by
  rintro ⟨⟨-, h⟩, -⟩
  exact h.safe (by decide)

end MemoryPool

/-! ## A pool and its callers -/

/-- A pool with the blocks that callers hold, the blocks in the order in which they became free, and
the blocks in the order in which they were handed out. -/
structure Usage where
  pool : MemoryPool
  held : List BlockPtr
  queued : List BlockPtr
  handed : List BlockPtr

namespace Usage

open MemoryPool (Call)

/-- A new pool; nobody holds a block. -/
def init (grants : Nat → Bool) : Usage := ⟨.new grants, [], [], []⟩

/-- The state after a call. -/
def next (s : Usage) : Call → Usage
  | .makeAllocation blockCount =>
    match s.pool.makeAllocation blockCount with
    | none => s
    | some (_, pool) =>
      { s with
        pool := pool
        queued := s.queued ++ pool.blocks.drop s.pool.blocks.length }
  | .getBlock =>
    match s.pool.getBlock with
    | (.block (some block), pool) =>
      { s with
        pool := pool
        held := block :: s.held
        handed := s.handed ++ [block] }
    | (_, pool) => { s with pool := pool }
  | .freeBlock none => s
  | .freeBlock (some block) =>
    match s.pool.freeBlock (some block) with
    | none => s
    | some pool =>
      { s with
        pool := pool
        held := s.held.erase block
        queued := s.queued ++ [block] }

/-- Callers free blocks they hold, each once, and allocations succeed. -/
def Enabled (s : Usage) : Call → Prop
  | .makeAllocation blockCount => s.pool.Grants blockCount.toInt.toNat
  | .getBlock => True
  | .freeBlock block => ∃ held ∈ s.held, block = some held

def machine : Machine Usage Call := ⟨Enabled, next⟩

/-- **What callers rely on.** -/
structure Sound (s : Usage) : Prop where
  /-- every block is free or held, once; and free blocks wait in a queue -/
  blocks : ∃ free carried allocated, s.pool.Lists free carried allocated ∧
    (carried ++ s.held).Perm s.pool.blocks ∧ s.pool.blocks.Nodup ∧
    allocated.length = s.held.length ∧ s.queued = s.handed ++ carried
  bad_alloc : s.pool.getBlock.1 = .bad_alloc ↔ ∀ block ∈ s.pool.blocks, block ∈ s.held
  fresh : ∀ block, s.pool.getBlock.1 = .block block →
    ∃ new, block = some new ∧ new ∈ s.pool.blocks ∧ new ∉ s.held
  safe : s.pool.getBlock.1 ≠ .null_dereference

/-- The invariant of a run: the two lists, the counter, and the blocks. -/
structure Inv (s : Usage) (free : List MemoryNodePtr) (carried : List BlockPtr)
    (allocated : List MemoryNodePtr) : Prop where
  lists : s.pool.Lists free carried allocated
  counter : s.pool.mfreeBlocks.toInt = free.length
  perm : (carried ++ s.held).Perm s.pool.blocks
  nodup : s.pool.blocks.Nodup
  old : ∀ block : Nat, block ∈ s.pool.blocks → block < s.pool.asked
  allocated : allocated.length = s.held.length
  queued : s.queued = s.handed ++ carried

section Inv

variable {s : Usage} {free allocated : List MemoryNodePtr} {carried : List BlockPtr}

theorem inv_init (grants : Nat → Bool) : (init grants).Inv [] [] [] where
  lists := MemoryPool.lists_new grants
  counter := rfl
  perm := List.Perm.refl _
  nodup := List.nodup_nil
  old := fun _ h => absurd h List.not_mem_nil
  allocated := rfl
  queued := rfl

theorem next_makeAllocation {blockCount : BitVec 32} {pool' : MemoryPool} {count : Nat}
    {new : List BlockPtr} (hmake : s.pool.makeAllocation blockCount = some (count, pool'))
    (hblocks : pool'.blocks = s.pool.blocks ++ new) :
    s.next (.makeAllocation blockCount) =
      { s with pool := pool', queued := s.queued ++ new } := by
  simp only [Usage.next, hmake, hblocks, List.drop_left]

/-- With no free block `getBlock` throws. -/
theorem Inv.getBlock_nil (h : s.Inv free [] allocated) : s.pool.getBlock = (.bad_alloc, s.pool) := by
  have hfree : free.length = 0 := h.lists.carried_length.symm
  have hzero : s.pool.mfreeBlocks = 0 := by
    refine BitVec.eq_of_toInt_eq ?_
    rw [h.counter, hfree]
    rfl
  simp [MemoryPool.getBlock, hzero]

/-- Else it hands out the first of them. -/
theorem Inv.getBlock_cons {block : BlockPtr} {rest : List BlockPtr}
    (h : s.Inv free (block :: rest) allocated) :
    ∃ node free' pool', free = node :: free' ∧ s.pool.getBlock = (.block (some block), pool') ∧
      pool'.Lists free' rest (node :: allocated) ∧
      pool'.mfreeBlocks = s.pool.mfreeBlocks - 1 ∧ pool'.asked = s.pool.asked ∧
      pool'.blocks = s.pool.blocks := by
  have hlength := h.lists.carried_length
  cases free with
  | nil => cases hlength
  | cons node free' =>
    have hcount : s.pool.mfreeBlocks ≠ 0 := by
      intro hzero
      have hcounter := h.counter
      rw [hzero, List.length_cons] at hcounter
      exact absurd hcounter (by show (0 : Int) ≠ _; omega)
    obtain ⟨pool', hget, hlists, hcounter, hasked, -, hblocks⟩ :=
      MemoryPool.getBlock_spec h.lists hcount
    exact ⟨node, free', pool', rfl, hget, hlists, hcounter, hasked, hblocks⟩

/-- The invariant gives callers all they rely on. -/
theorem Inv.sound (h : s.Inv free carried allocated) : s.Sound := by
  have hnodup : (carried ++ s.held).Nodup := h.perm.nodup_iff.mpr h.nodup
  cases carried with
  | nil =>
    have hall : ∀ block ∈ s.pool.blocks, block ∈ s.held := fun block hmem =>
      h.perm.mem_iff.mpr hmem
    constructor
    · exact ⟨free, _, allocated, h.lists, h.perm, h.nodup, h.allocated, h.queued⟩
    · rw [h.getBlock_nil]
      exact iff_of_true rfl hall
    · rw [h.getBlock_nil]
      intro block heq
      cases heq
    · rw [h.getBlock_nil]
      simp
  | cons block rest =>
    obtain ⟨node, free', pool', -, hget, -⟩ := h.getBlock_cons
    have hmade : block ∈ s.pool.blocks := h.perm.mem_iff.mp List.mem_cons_self
    have hnot : block ∉ s.held := fun hheld =>
      (List.nodup_append.mp hnodup).2.2 block List.mem_cons_self block hheld rfl
    constructor
    · exact ⟨free, _, allocated, h.lists, h.perm, h.nodup, h.allocated, h.queued⟩
    · rw [hget]
      exact iff_of_false (by simp) fun hall => hnot (hall block hmade)
    · rw [hget]
      intro block' heq
      obtain rfl := MemoryPool.Outcome.block.inj heq
      exact ⟨block, rfl, hmade, hnot⟩
    · rw [hget]
      simp

theorem Inv.counter_nonneg (h : s.Inv free carried allocated) : 0 ≤ s.pool.mfreeBlocks.toInt := by
  rw [h.counter]
  omega

/-- The new blocks join the free ones. -/
theorem Inv.makeAllocation (h : s.Inv free carried allocated) {blockCount : BitVec 32}
    (hgrants : s.pool.Grants blockCount.toInt.toNat) (hfits : s.pool.Fits (.makeAllocation blockCount)) :
    ∃ free carried allocated, (s.next (.makeAllocation blockCount)).Inv free carried allocated := by
  obtain ⟨nodes, new, pool', hmake, hlists, hblocks, hnew, hfresh, hasked, hcounter, -, hle, hall⟩ :=
    MemoryPool.makeAllocation_spec h.lists blockCount
  have hnext := next_makeAllocation hmake hblocks
  have hlength := hlists.carried_length
  have hbefore := h.lists.carried_length
  rw [List.length_append] at hlength
  refine ⟨free ++ nodes, carried ++ new, allocated, ?_⟩
  rw [hnext]
  constructor
  · exact hlists
  · show pool'.mfreeBlocks.toInt = _
    rw [hcounter, (MemoryPool.toInt_add_eq_iff h.counter_nonneg hle).mpr ⟨hfits, hall.mpr hgrants⟩, h.counter,
      ← hlength, hbefore, Int.natCast_add]
  · show (carried ++ new ++ s.held).Perm pool'.blocks
    have hcomm := (List.perm_append_comm : (new ++ s.held).Perm (s.held ++ new)).append_left
      carried
    rw [hblocks, List.append_assoc]
    rw [← List.append_assoc carried s.held new] at hcomm
    exact hcomm.trans (h.perm.append_right new)
  · show pool'.blocks.Nodup
    rw [hblocks]
    refine h.nodup.append hnew fun block hold hmem => ?_
    have hlt := h.old block hold
    have hge := (hfresh block hmem).1
    omega
  · intro block hmem
    have hmem' : block ∈ s.pool.blocks ++ new := hblocks ▸ hmem
    rcases List.mem_append.mp hmem' with hold | hmem'
    · exact Nat.lt_of_lt_of_le (h.old block hold) hasked
    · exact (hfresh block hmem').2
  · exact h.allocated
  · show s.queued ++ new = s.handed ++ (carried ++ new)
    rw [h.queued, List.append_assoc]

/-- The first free block becomes a held one. -/
theorem Inv.getBlock (h : s.Inv free carried allocated) :
    ∃ free carried allocated, (s.next .getBlock).Inv free carried allocated := by
  cases carried with
  | nil =>
    have hnext : s.next .getBlock = s := by
      simp only [Usage.next, h.getBlock_nil]
    rw [hnext]
    exact ⟨free, [], allocated, h⟩
  | cons block rest =>
    obtain ⟨node, free', pool', rfl, hget, hlists, hcounter, hasked, hblocks⟩ := h.getBlock_cons
    have hnext : s.next .getBlock = { s with
        pool := pool', held := block :: s.held, handed := s.handed ++ [block] } := by
      simp only [Usage.next, hget]
    have hcount := h.counter
    rw [List.length_cons] at hcount
    refine ⟨free', rest, node :: allocated, ?_⟩
    rw [hnext]
    constructor
    · exact hlists
    · show pool'.mfreeBlocks.toInt = _
      rw [hcounter, MemoryPool.toInt_sub_one (by omega), hcount]
      omega
    · show (rest ++ block :: s.held).Perm pool'.blocks
      rw [hblocks]
      exact List.perm_middle.trans h.perm
    · show pool'.blocks.Nodup
      rw [hblocks]
      exact h.nodup
    · show ∀ block : Nat, block ∈ pool'.blocks → block < pool'.asked
      rw [hblocks, hasked]
      exact h.old
    · show (node :: allocated).length = (block :: s.held).length
      rw [List.length_cons, List.length_cons, h.allocated]
    · show s.queued = s.handed ++ [block] ++ rest
      rw [h.queued, List.append_assoc, List.singleton_append]

/-- A held block becomes the last free one, in the first node of the allocated list. -/
theorem Inv.freeBlock (h : s.Inv free carried allocated) {block : BlockPtr} (hheld : block ∈ s.held)
    (hfits : s.pool.Fits (.freeBlock (some block))) :
    ∃ free carried allocated, (s.next (.freeBlock (some block))).Inv free carried allocated := by
  have hlength := h.allocated
  cases allocated with
  | nil =>
    rw [List.eq_nil_of_length_eq_zero hlength.symm] at hheld
    cases hheld
  | cons node allocated' =>
    have hhead : s.pool.mAllocatedListHead = some node := Chain.Path.head h.lists.holdsAllocated
    obtain ⟨pool', hfree, hlists, hcounter, hasked, -, hblocks⟩ :=
      MemoryPool.freeBlock_spec h.lists block
    have hnext : s.next (.freeBlock (some block)) = { s with
        pool := pool', held := s.held.erase block, queued := s.queued ++ [block] } := by
      simp only [Usage.next, hfree]
    have hone := @MemoryPool.toInt_add_eq_iff s.pool.mfreeBlocks 1 h.counter_nonneg 1 (by decide)
    have hroom : s.pool.mfreeBlocks.toInt + 1 < 2 ^ 31 := hfits rfl (by rw [hhead]; rfl)
    refine ⟨free ++ [node], carried ++ [block], allocated', ?_⟩
    rw [hnext]
    constructor
    · exact hlists
    · show pool'.mfreeBlocks.toInt = _
      rw [hcounter, hone.mpr ⟨⟨by decide, hroom⟩, by decide⟩, h.counter, List.length_append]
      rfl
    · show (carried ++ [block] ++ s.held.erase block).Perm pool'.blocks
      rw [hblocks, List.append_assoc, List.singleton_append]
      exact ((List.perm_cons_erase hheld).symm.append_left carried).trans h.perm
    · show pool'.blocks.Nodup
      rw [hblocks]
      exact h.nodup
    · show ∀ block : Nat, block ∈ pool'.blocks → block < pool'.asked
      rw [hblocks, hasked]
      exact h.old
    · show allocated'.length = (s.held.erase block).length
      rw [List.length_erase_of_mem hheld, ← hlength]
      rfl
    · show s.queued ++ [block] = s.handed ++ (carried ++ [block])
      rw [h.queued, List.append_assoc]

/-- One call. -/
theorem Inv.next (h : s.Inv free carried allocated) {c : Call} (henabled : s.Enabled c)
    (hfits : s.pool.Fits c) : ∃ free carried allocated, (s.next c).Inv free carried allocated := by
  cases c with
  | makeAllocation blockCount => exact h.makeAllocation henabled hfits
  | getBlock => exact h.getBlock
  | freeBlock block =>
    obtain ⟨block, hheld, rfl⟩ := henabled
    exact h.freeBlock hheld hfits

end Inv

/-- **No block is handed out twice**: in every run of a pool whose counter never overflows, and is
never given a negative number of blocks, callers find what they rely on. -/
theorem sound_of_run (grants : Nat → Bool) (events : List Call)
    (hrun : machine.Run (init grants) events)
    (hfits : machine.Steps (fun s c => s.pool.Fits c) (init grants) events) :
    (machine.exec (init grants) events).Sound := by
  have hsteps := Machine.Steps.and hrun hfits
  obtain ⟨free, carried, allocated, h⟩ := hsteps.invariant
    (I := fun s => ∃ free carried allocated, s.Inv free carried allocated)
    ⟨[], [], [], inv_init grants⟩ fun s c ⟨_, _, _, h⟩ ⟨henabled, hfits⟩ => h.next henabled hfits
  exact h.sound

/-- A new pool for which every allocation succeeds. -/
def granted : Usage := init fun _ => true

theorem sound_after_reuse : (machine.exec granted [.makeAllocation 2, .getBlock, .getBlock,
    .freeBlock (some 1), .getBlock]).Sound :=
  sound_of_run _ _
    ⟨fun _ _ => rfl, trivial, trivial, ⟨1, by decide, rfl⟩, trivial, trivial⟩
    (by decide)

/-- The calls that make the counter of a new pool zero by going once around. -/
def overflow : List Call :=
  [.makeAllocation 0x7fffffff, .makeAllocation 0x7fffffff, .makeAllocation 2]

/-- After a negative number of blocks `getBlock` does not throw but follows a null head; and a counter
that has gone once around makes it throw while every block is free. -/
theorem counter_misleads :
    (machine.Run granted [.makeAllocation (-1)] ∧
      ¬ (machine.exec granted [.makeAllocation (-1)]).Sound) ∧
    (machine.Run granted overflow ∧ ¬ (machine.exec granted overflow).Sound) := by
  refine ⟨⟨⟨fun _ _ => rfl, trivial⟩, fun h => h.safe (by decide)⟩, ?_⟩
  obtain ⟨nodes₁, new₁, pool₁, hmake₁, hlists₁, hblocks₁, -, -, -, hcounter₁, hgrants₁, -, hall₁⟩ :=
    MemoryPool.makeAllocation_spec (inv_init fun _ => true).lists 0x7fffffff
  obtain ⟨nodes₂, new₂, pool₂, hmake₂, hlists₂, hblocks₂, -, -, -, hcounter₂, hgrants₂, -⟩ :=
    MemoryPool.makeAllocation_spec hlists₁ 0x7fffffff
  obtain ⟨nodes₃, new₃, pool₃, hmake₃, hlists₃, hblocks₃, -, -, -, hcounter₃, hgrants₃, -⟩ :=
    MemoryPool.makeAllocation_spec hlists₂ 2
  have hnext₁ : granted.next (.makeAllocation 0x7fffffff) = ⟨pool₁, [], new₁, []⟩ :=
    next_makeAllocation hmake₁ hblocks₁
  have hnext₂ := @next_makeAllocation ⟨pool₁, [], new₁, []⟩ _ _ _ _ hmake₂ hblocks₂
  have hnext₃ := @next_makeAllocation ⟨pool₂, [], new₁ ++ new₂, []⟩ _ _ _ _ hmake₃ hblocks₃
  rw [hgrants₁] at hgrants₂
  have hmachine : machine.next = next := rfl
  rw [overflow, Machine.Run, Machine.Steps, Machine.Steps, Machine.Steps, Machine.Steps,
    Machine.exec_cons, Machine.exec_cons, Machine.exec_cons, Machine.exec_nil, hmachine, hnext₁,
    hnext₂, hnext₃]
  constructor
  · refine ⟨fun _ _ => rfl, fun _ _ => ?_, fun _ _ => ?_, trivial⟩
    · rw [hgrants₁]
      rfl
    · rw [hgrants₂]
      rfl
  · intro h
    have hzero : pool₃.mfreeBlocks = 0 := by
      rw [hcounter₃, hcounter₂, hcounter₁]
      rfl
    have hthrow : pool₃.getBlock.1 = .bad_alloc := by
      simp [MemoryPool.getBlock, hzero]
    -- the first block is there, and nobody holds it
    have hlength := hall₁.mpr fun _ _ => rfl
    have hsome : 0 < new₁.length := by
      rw [hlength]
      decide
    obtain ⟨block, hblock⟩ := List.exists_mem_of_length_pos hsome
    have hmem : block ∈ pool₃.blocks := by
      rw [hblocks₃, hblocks₂, hblocks₁]
      simp [hblock]
    exact absurd (h.bad_alloc.mp hthrow block hmem) List.not_mem_nil

end Usage

end ResourceTuner
