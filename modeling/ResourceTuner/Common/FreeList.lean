import ResourceTuner.Lib.Chain
import ResourceTuner.Lib.Machine

/-!
# The lists of a memory pool

`MemoryPool.cpp`.  A pool owns blocks of one size.  A list node that carries a free block is on the
free list, a queue with a head and a tail; when the block is handed out its node goes to the
allocated list, a stack, and comes back from there with whatever block is freed next.  A counter of
free blocks guards the free list against being followed when it is empty.

* **`MemoryPool`**, **`makeAllocation`**, **`getBlock`**, **`freeBlock`** — the code;
* **`Lists`** — the two lists a pool holds, and what is in them;
* **`Exact`** — the counter is the length of the free list;
* **`Usage`**, **`Sound`** — a pool with its callers, and what they can rely on.

The memory is that of `new` as well: an address is given out once, and which requests are granted is
up to `grants`.
-/

namespace ResourceTuner

/-- The address of a list node. -/
abbrev MemoryNodePtr := Nat

/-- The address of a block. -/
abbrev BlockPtr := Nat

/-- `struct MemoryNode`. -/
structure MemoryNode where
  next : Option MemoryNodePtr
  block : Option BlockPtr
  deriving DecidableEq, Repr

/-- `class MemoryPool`, over the nodes in memory and the requests to `new`.  `blocks` lists the blocks
that were ever allocated for the pool. -/
structure MemoryPool where
  mFreeListHead : Option MemoryNodePtr
  mFreeListTail : Option MemoryNodePtr
  mAllocatedListHead : Option MemoryNodePtr
  mfreeBlocks : BitVec 32
  nodes : MemoryNodePtr → MemoryNode
  grants : Nat → Bool
  asked : Nat
  blocks : List BlockPtr

namespace MemoryPool

/-- A new pool. -/
def new (grants : Nat → Bool) : MemoryPool :=
  ⟨none, none, none, 0, fun _ => ⟨none, none⟩, grants, 0, []⟩

/-- The next request to `new` is granted. -/
def granted (pool : MemoryPool) : Bool := pool.grants pool.asked

/-- The pool after a request to `new`. -/
def ask (pool : MemoryPool) : MemoryPool := { pool with asked := pool.asked + 1 }

def setNode (pool : MemoryPool) (node : MemoryNodePtr) (value : MemoryNode) : MemoryPool :=
  { pool with nodes := Function.update pool.nodes node value }

/-- Append a node to the free list.  Where the tail is null the source would dereference it. -/
def linkLast (pool : MemoryPool) (node : MemoryNodePtr) : Option MemoryPool :=
  match pool.mFreeListHead with
  | none => some { pool with mFreeListHead := some node, mFreeListTail := some node }
  | some _ =>
    match pool.mFreeListTail with
    | none => none
    | some tail =>
      let pool := pool.setNode tail { pool.nodes tail with next := some node }
      some { pool with mFreeListTail := (pool.nodes tail).next }

/-- The loop of `addNodesToFreeList`, with the iterations that are left. -/
def addNodesToFreeList : Nat → Nat → MemoryPool → Option (Nat × MemoryPool)
  | 0, allocatedCount, pool => some (allocatedCount, pool)
  | left + 1, allocatedCount, pool =>
    if !pool.granted then some (allocatedCount, pool.ask)
    else
      let allocationBlock := pool.asked
      let pool := pool.ask.setNode allocationBlock ⟨none, none⟩
      -- a node without a block is deleted again
      if !pool.granted then some (allocatedCount, pool.ask)
      else
        let block := pool.asked
        let pool := { pool.ask with blocks := pool.blocks ++ [block] }
        let pool := pool.setNode allocationBlock ⟨none, some block⟩
        match pool.linkLast allocationBlock with
        | none => none
        | some pool => addNodesToFreeList left (allocatedCount + 1) pool

/-- `makeAllocation`: the number of blocks it says it added.  The counter grows by the number of
blocks that were asked for. -/
def makeAllocation (pool : MemoryPool) (blockCount : BitVec 32) : Option (Nat × MemoryPool) :=
  match addNodesToFreeList blockCount.toInt.toNat 0 pool with
  | none => none
  | some (blocksAllocated, pool) =>
    some (blocksAllocated, { pool with mfreeBlocks := pool.mfreeBlocks + blockCount })

/-- What `getBlock` does. -/
inductive Outcome where
  | block (block : Option BlockPtr)
  | bad_alloc
  | null_dereference
  deriving DecidableEq, Repr

def getBlock (pool : MemoryPool) : Outcome × MemoryPool :=
  if pool.mfreeBlocks = 0 then (.bad_alloc, pool)
  else
    match pool.mFreeListHead with
    | none => (.null_dereference, pool)
    | some memNode =>
      let pool := { pool with mFreeListHead := (pool.nodes memNode).next }
      let pool := if pool.mFreeListHead.isNone then { pool with mFreeListTail := none } else pool
      let freeBlock := (pool.nodes memNode).block
      let pool :=
        match pool.mAllocatedListHead with
        | none => pool.setNode memNode ⟨none, none⟩
        | some head => pool.setNode memNode ⟨some head, none⟩
      (.block freeBlock,
        { pool with mAllocatedListHead := some memNode, mfreeBlocks := pool.mfreeBlocks - 1 })

/-- `freeBlock`.  A null block is ignored, and so is any block when none is handed out. -/
def freeBlock (pool : MemoryPool) (block : Option BlockPtr) : Option MemoryPool :=
  match block, pool.mAllocatedListHead with
  | none, _ => some pool
  | some _, none => some pool
  | some block, some memNode =>
    let pool := { pool with mAllocatedListHead := (pool.nodes memNode).next }
    let pool := pool.setNode memNode ⟨none, some block⟩
    match pool.linkLast memNode with
    | none => none
    | some pool => some { pool with mfreeBlocks := pool.mfreeBlocks + 1 }

/-! ## The two lists -/

def freeList (pool : MemoryPool) : Chain MemoryNodePtr :=
  ⟨pool.mFreeListHead, fun node => (pool.nodes node).next⟩

def allocatedList (pool : MemoryPool) : Chain MemoryNodePtr :=
  ⟨pool.mAllocatedListHead, fun node => (pool.nodes node).next⟩

/-- The nodes of the free list with the blocks they carry, and the nodes of the allocated list. -/
structure Lists (pool : MemoryPool) (free : List MemoryNodePtr) (carried : List BlockPtr)
    (allocated : List MemoryNodePtr) : Prop where
  holdsFree : pool.freeList.Holds free
  tail : pool.mFreeListTail = free.getLast?
  content : free.map (fun node => (pool.nodes node).block) = carried.map some
  holdsAllocated : pool.allocatedList.Holds allocated
  nodup : (free ++ allocated).Nodup
  /-- no node is at an address that `new` has yet to give out -/
  old : ∀ node ∈ free ++ allocated, node < pool.asked

section Lists

variable {pool : MemoryPool} {free allocated : List MemoryNodePtr} {carried : List BlockPtr}
  {node : MemoryNodePtr} {block : BlockPtr}

theorem lists_new (grants : Nat → Bool) : (new grants).Lists [] [] [] where
  holdsFree := rfl
  tail := rfl
  content := rfl
  holdsAllocated := rfl
  nodup := List.nodup_nil
  old := fun _ h => absurd h List.not_mem_nil

theorem Lists.carried_length (h : pool.Lists free carried allocated) :
    carried.length = free.length := by
  have hlength := congrArg List.length h.content
  simpa using hlength.symm

/-- Writing a node that is on neither list. -/
theorem Lists.setNode (h : pool.Lists free carried allocated) (hnode : node ∉ free ++ allocated)
    (value : MemoryNode) : (pool.setNode node value).Lists free carried allocated := by
  rw [List.mem_append, not_or] at hnode
  have hnodes : ∀ a, a ≠ node → (pool.setNode node value).nodes a = pool.nodes a :=
    fun a ha => Function.update_of_ne ha _ _
  have hfree : ∀ a ∈ free, (pool.setNode node value).nodes a = pool.nodes a := by
    intro a ha
    refine hnodes a ?_
    rintro rfl
    exact hnode.1 ha
  have hallocated : ∀ a ∈ allocated, (pool.setNode node value).nodes a = pool.nodes a := by
    intro a ha
    refine hnodes a ?_
    rintro rfl
    exact hnode.2 ha
  constructor
  · exact h.holdsFree.congr rfl fun a ha => congrArg MemoryNode.next (hfree a ha)
  · exact h.tail
  · rw [← h.content]
    exact List.map_congr_left fun a ha => congrArg MemoryNode.block (hfree a ha)
  · exact h.holdsAllocated.congr rfl fun a ha => congrArg MemoryNode.next (hallocated a ha)
  · exact h.nodup
  · exact h.old

/-- Appending a node that carries a block. -/
theorem linkLast_spec (h : pool.Lists free carried allocated) (hnode : node ∉ free ++ allocated)
    (hold : node < pool.asked) (hvalue : pool.nodes node = ⟨none, some block⟩) :
    ∃ pool', pool.linkLast node = some pool' ∧
      pool'.Lists (free ++ [node]) (carried ++ [block]) allocated ∧
      pool'.mfreeBlocks = pool.mfreeBlocks ∧ pool'.asked = pool.asked ∧
      pool'.grants = pool.grants ∧ pool'.blocks = pool.blocks := by
  have hnot := hnode
  rw [List.mem_append, not_or] at hnot
  have hnodup : (free ++ [node] ++ allocated).Nodup := by
    rw [List.append_assoc, List.singleton_append, List.nodup_middle, List.nodup_cons]
    exact ⟨hnode, h.nodup⟩
  have hlast : ∀ a ∈ free ++ [node] ++ allocated, a < pool.asked := by
    intro a ha
    simp only [List.mem_append, List.mem_singleton] at ha
    rcases ha with (ha | rfl) | ha
    · exact h.old a (List.mem_append_left _ ha)
    · exact hold
    · exact h.old a (List.mem_append_right _ ha)
  have hstart : pool.mFreeListHead = free.head? := Chain.Path.head h.holdsFree
  unfold linkLast
  cases hfree : free with
  | nil =>
    subst hfree
    rw [List.head?_nil] at hstart
    obtain rfl : carried = [] := List.length_eq_zero_iff.mp h.carried_length
    simp only [hstart]
    refine ⟨_, rfl, ⟨⟨rfl, ?_⟩, rfl, ?_, h.holdsAllocated, hnodup, hlast⟩, rfl, rfl, rfl, rfl⟩
    · show (pool.nodes node).next = none
      rw [hvalue]
    · simp [hvalue]
  | cons first rest =>
    rw [← hfree]
    have hhead : pool.mFreeListHead = some first := by rw [hstart, hfree, List.head?_cons]
    obtain ⟨tail, htail⟩ : ∃ tail, free.getLast? = some tail := by
      rw [hfree]
      exact ⟨_, List.getLast?_cons⟩
    have hmem : tail ∈ free := List.mem_of_getLast? htail
    have hne : tail ≠ node := by
      rintro rfl
      exact hnot.1 hmem
    simp only [hhead, h.tail, htail]
    refine ⟨_, rfl, ⟨?_, ?_, ?_, ?_, hnodup, hlast⟩, rfl, rfl, rfl, rfl⟩
    · -- the tail now links to the node, which links to nothing
      have hsplice := @Chain.holds_splice _ free [] node pool.freeList _
        (by rw [List.append_nil]; exact h.holdsFree)
        (by rw [List.append_nil]; exact (List.nodup_append.mp h.nodup).1)
        (by rw [List.append_nil]; exact hnot.1)
      refine hsplice.congr ?_ fun a ha => ?_
      · rw [htail]
        rfl
      · rw [htail]
        simp only [freeList, setNode, Chain.splice, List.head?_nil]
        by_cases htl : a = tail
        · rw [htl, Function.update_self, Function.update_self]
        · rw [Function.update_of_ne htl, Function.update_of_ne htl]
          by_cases hnd : a = node
          · rw [hnd, Function.update_self, hvalue]
          · rw [Function.update_of_ne hnd]
    · show (Function.update pool.nodes tail _ tail).next = _
      rw [Function.update_self, List.getLast?_concat]
    · have hblock : ∀ a, (Function.update pool.nodes tail
          { pool.nodes tail with next := some node } a).block = (pool.nodes a).block := by
        intro a
        by_cases htl : a = tail
        · rw [htl, Function.update_self]
        · rw [Function.update_of_ne htl]
      show (free ++ [node]).map (fun a => (Function.update pool.nodes tail
        { pool.nodes tail with next := some node } a).block) = (carried ++ [block]).map some
      simp only [hblock, List.map_append, h.content, List.map_singleton, hvalue]
    · refine h.holdsAllocated.congr rfl fun a ha => ?_
      have htl : a ≠ tail := by
        rintro rfl
        exact (List.nodup_append.mp h.nodup).2.2 a hmem a ha rfl
      show (Function.update pool.nodes tail _ a).next = _
      rw [Function.update_of_ne htl]
      rfl

/-- The next requests, two for each of a number of blocks, are all granted. -/
def Grants (pool : MemoryPool) (blockCount : Nat) : Prop :=
  ∀ i < 2 * blockCount, pool.grants (pool.asked + i) = true

/-- What a batch of new nodes changes besides the free list. -/
structure Added (pool pool' : MemoryPool) (left : Nat) (new : List BlockPtr) : Prop where
  blocks : pool'.blocks = pool.blocks ++ new
  nodup : new.Nodup
  fresh : ∀ block : Nat, block ∈ new → pool.asked ≤ block ∧ block < pool'.asked
  asked : pool.asked ≤ pool'.asked
  counter : pool'.mfreeBlocks = pool.mfreeBlocks
  grants : pool'.grants = pool.grants
  le : new.length ≤ left
  all : new.length = left ↔ pool.Grants left

theorem Lists.ask (h : pool.Lists free carried allocated) :
    pool.ask.Lists free carried allocated :=
  ⟨h.holdsFree, h.tail, h.content, h.holdsAllocated, h.nodup,
    fun node hnode => Nat.lt_succ_of_lt (h.old node hnode)⟩

/-- A request that is refused ends the batch. -/
theorem added_nil {pool' : MemoryPool} {left i : Nat} (hi : i < 2 * left)
    (hrefused : pool.grants (pool.asked + i) = false) (hblocks : pool'.blocks = pool.blocks)
    (hasked : pool.asked ≤ pool'.asked) (hcounter : pool'.mfreeBlocks = pool.mfreeBlocks)
    (hgrants : pool'.grants = pool.grants) : Added pool pool' left [] where
  blocks := by rw [hblocks, List.append_nil]
  nodup := List.nodup_nil
  fresh := fun _ h => absurd h List.not_mem_nil
  asked := hasked
  counter := hcounter
  grants := hgrants
  le := Nat.zero_le _
  all := by
    constructor
    · intro h
      rw [List.length_nil] at h
      omega
    · intro h
      rw [h i hi] at hrefused
      cases hrefused

/-- The loop appends a node with a new block for every round whose two requests are granted. -/
theorem addNodesToFreeList_spec (h : pool.Lists free carried allocated) (left count : Nat) :
    ∃ nodes new pool', addNodesToFreeList left count pool = some (count + new.length, pool') ∧
      pool'.Lists (free ++ nodes) (carried ++ new) allocated ∧ Added pool pool' left new := by
  induction left generalizing pool free carried count with
  | zero =>
    refine ⟨[], [], pool, rfl, by simpa using h, ?_⟩
    exact ⟨(List.append_nil _).symm, List.nodup_nil, fun _ h => absurd h List.not_mem_nil, Nat.le_refl _,
      rfl, rfl, Nat.le_refl _, iff_of_true rfl fun i hi => absurd hi (by omega)⟩
  | succ left ih =>
    unfold addNodesToFreeList
    cases hnode : pool.granted with
    | false =>
      refine ⟨[], [], pool.ask, rfl, by simpa using h.ask, ?_⟩
      exact @added_nil pool _ _ 0 (by omega) hnode rfl (Nat.le_succ _) rfl rfl
    | true =>
      have hnew : pool.asked ∉ free ++ allocated := fun hmem =>
        absurd (h.old _ hmem) (Nat.lt_irrefl _)
      have hplaced := h.ask.setNode hnew ⟨none, none⟩
      simp only [Bool.not_true, Bool.false_eq_true, if_false]
      cases hblock : (pool.ask.setNode pool.asked ⟨none, none⟩).granted with
      | false =>
        refine ⟨[], [], _, rfl, by simpa using hplaced.ask, ?_⟩
        exact @added_nil pool _ _ 1 (by omega) hblock rfl (by exact Nat.le_add_right _ 2) rfl rfl
      | true =>
        simp only [Bool.not_true, Bool.false_eq_true, if_false]
        have hfilled : MemoryPool.Lists
            ({ (pool.ask.setNode pool.asked ⟨none, none⟩).ask with
              blocks := pool.blocks ++ [pool.asked + 1] }) free carried allocated :=
          ⟨hplaced.holdsFree, hplaced.tail, hplaced.content, hplaced.holdsAllocated, hplaced.nodup,
            hplaced.ask.old⟩
        obtain ⟨pool₁, hlink, hlists, hcounter, hasked, hgrants, hblocks⟩ :=
          linkLast_spec (hfilled.setNode hnew ⟨none, some (pool.asked + 1)⟩) hnew
            (Nat.lt_add_of_pos_right (by decide : 0 < 2)) (Function.update_self _ _ _)
        obtain ⟨nodes, new, pool', hrest, hlists', hadded⟩ := ih hlists (count + 1)
        have hasked₁ : pool₁.asked = pool.asked + 2 := hasked
        have hgrants₁ : pool₁.grants = pool.grants := hgrants
        have hblocks₁ : pool₁.blocks = pool.blocks ++ [pool.asked + 1] := hblocks
        refine ⟨pool.asked :: nodes, (pool.asked + 1) :: new, pool', ?_, ?_, ?_⟩
        · simp only [ask, setNode] at hlink ⊢
          rw [hlink]
          dsimp only
          rw [hrest, List.length_cons, Nat.add_assoc, Nat.add_comm 1]
        · simpa using hlists'
        · constructor
          · rw [hadded.blocks, hblocks₁, List.append_assoc, List.singleton_append]
          · refine List.nodup_cons.mpr ⟨fun hmem => ?_, hadded.nodup⟩
            have hle := (hadded.fresh _ hmem).1
            omega
          · intro block hmem
            have hle := hadded.asked
            rcases List.mem_cons.mp hmem with rfl | hmem
            · omega
            · have hbounds := hadded.fresh block hmem
              omega
          · have hle := hadded.asked
            omega
          · exact hadded.counter.trans hcounter
          · exact hadded.grants.trans hgrants
          · exact Nat.succ_le_succ hadded.le
          · rw [List.length_cons, Nat.add_right_cancel_iff, hadded.all]
            -- the requests of the first round, and those of the rounds after it
            constructor
            · intro hall i hi
              match i with
              | 0 => exact hnode
              | 1 => exact hblock
              | i + 2 =>
                have hi' := hall i (by omega)
                rwa [hgrants₁, hasked₁, Nat.add_assoc, Nat.add_comm 2] at hi'
            · intro hall i hi
              have hi' := hall (i + 2) (by omega)
              rwa [hgrants₁, hasked₁, Nat.add_assoc, Nat.add_comm 2]

/-- `makeAllocation` always returns the number of blocks it has added. -/
theorem makeAllocation_spec (h : pool.Lists free carried allocated) (blockCount : BitVec 32) :
    ∃ nodes new pool', pool.makeAllocation blockCount = some (new.length, pool') ∧
      pool'.Lists (free ++ nodes) (carried ++ new) allocated ∧
      pool'.blocks = pool.blocks ++ new ∧ new.Nodup ∧
      (∀ block : Nat, block ∈ new → pool.asked ≤ block ∧ block < pool'.asked) ∧
      pool.asked ≤ pool'.asked ∧
      pool'.mfreeBlocks = pool.mfreeBlocks + blockCount ∧ pool'.grants = pool.grants ∧
      new.length ≤ blockCount.toInt.toNat ∧
      (new.length = blockCount.toInt.toNat ↔ pool.Grants blockCount.toInt.toNat) := by
  obtain ⟨nodes, new, pool', hadd, hlists, hadded⟩ :=
    addNodesToFreeList_spec h blockCount.toInt.toNat 0
  rw [Nat.zero_add] at hadd
  refine ⟨nodes, new, { pool' with mfreeBlocks := pool'.mfreeBlocks + blockCount }, ?_, ?_,
    hadded.blocks, hadded.nodup, hadded.fresh, hadded.asked, ?_, hadded.grants, hadded.le,
    hadded.all⟩
  · rw [makeAllocation, hadd]
  · exact ⟨hlists.holdsFree, hlists.tail, hlists.content, hlists.holdsAllocated, hlists.nodup,
      hlists.old⟩
  · show pool'.mfreeBlocks + blockCount = _
    rw [hadded.counter]

/-- The first node of the free list goes to the front of the allocated list, its block to the
caller. -/
theorem getBlock_spec (h : pool.Lists (node :: free) (block :: carried) allocated)
    (hcount : pool.mfreeBlocks ≠ 0) :
    ∃ pool', pool.getBlock = (.block (some block), pool') ∧
      pool'.Lists free carried (node :: allocated) ∧
      pool'.mfreeBlocks = pool.mfreeBlocks - 1 ∧ pool'.asked = pool.asked ∧
      pool'.grants = pool.grants ∧ pool'.blocks = pool.blocks := by
  have hhead : pool.mFreeListHead = some node := h.holdsFree.1
  have hallocated : pool.mAllocatedListHead = allocated.head? :=
    Chain.Path.head h.holdsAllocated
  have hcarried : (pool.nodes node).block = some block := (List.cons.inj h.content).1
  have hnext : (pool.nodes node).next = free.head? := Chain.Path.head h.holdsFree.pop
  obtain ⟨hnew, hrest⟩ := List.nodup_cons.mp (show (node :: (free ++ allocated)).Nodup from h.nodup)
  have hnot := hnew
  rw [List.mem_append, not_or] at hnot
  have hnodes : ∀ a, a ≠ node → Function.update pool.nodes node ⟨allocated.head?, none⟩ a =
      pool.nodes a := fun a ha => Function.update_of_ne ha _ _
  have hfree : ∀ a ∈ free, Function.update pool.nodes node ⟨allocated.head?, none⟩ a =
      pool.nodes a := fun a ha => hnodes a (by rintro rfl; exact hnot.1 ha)
  refine ⟨{ pool with
    mFreeListHead := free.head?
    mFreeListTail := free.getLast?
    mAllocatedListHead := some node
    mfreeBlocks := pool.mfreeBlocks - 1
    nodes := Function.update pool.nodes node ⟨allocated.head?, none⟩ }, ?_, ?_, rfl, rfl, rfl, rfl⟩
  · -- whether either list is empty decides how the source gets there
    have htail := h.tail
    unfold getBlock
    rw [if_neg hcount]
    cases free <;> cases allocated <;>
      simp_all [setNode]
  · constructor
    · exact h.holdsFree.pop.congr hnext.symm fun a ha => congrArg MemoryNode.next (hfree a ha)
    · rfl
    · rw [← (List.cons.inj h.content).2]
      exact List.map_congr_left fun a ha => congrArg MemoryNode.block (hfree a ha)
    · refine (h.holdsAllocated.push hnot.2).congr rfl fun a _ => ?_
      show (Function.update pool.nodes node ⟨allocated.head?, none⟩ a).next =
        Function.update pool.allocatedList.link node pool.mAllocatedListHead a
      by_cases heq : a = node
      · rw [heq, Function.update_self, Function.update_self, hallocated]
      · rw [hnodes a heq, Function.update_of_ne heq]
        rfl
    · rw [List.nodup_middle, List.nodup_cons]
      exact ⟨hnew, hrest⟩
    · intro a ha
      refine h.old a ?_
      simp only [List.mem_append, List.mem_cons, List.cons_append] at ha ⊢
      tauto

/-- A freed block goes to the end of the free list, in the first node of the allocated list. -/
theorem freeBlock_spec (h : pool.Lists free carried (node :: allocated)) (block : BlockPtr) :
    ∃ pool', pool.freeBlock (some block) = some pool' ∧
      pool'.Lists (free ++ [node]) (carried ++ [block]) allocated ∧
      pool'.mfreeBlocks = pool.mfreeBlocks + 1 ∧ pool'.asked = pool.asked ∧
      pool'.grants = pool.grants ∧ pool'.blocks = pool.blocks := by
  have hhead : pool.mAllocatedListHead = some node := h.holdsAllocated.1
  have hnew : node ∉ free ++ allocated := by
    have hnodup := h.nodup
    rw [List.nodup_middle, List.nodup_cons] at hnodup
    exact hnodup.1
  have hpopped : MemoryPool.Lists ({ pool with
      mAllocatedListHead := (pool.nodes node).next }) free carried allocated := by
    refine ⟨h.holdsFree, h.tail, h.content, h.holdsAllocated.pop, ?_, fun a ha => ?_⟩
    · exact h.nodup.sublist ((List.sublist_cons_self node allocated).append_left free)
    · refine h.old a ?_
      rw [List.mem_append] at ha ⊢
      exact ha.imp_right (List.mem_cons_of_mem node)
  have hold : node < pool.asked := h.old node (by simp)
  obtain ⟨pool', hlink, hlists, hcounter, hasked, hgrants, hblocks⟩ :=
    linkLast_spec (hpopped.setNode hnew ⟨none, some block⟩) hnew hold (Function.update_self _ _ _)
  refine ⟨{ pool' with mfreeBlocks := pool'.mfreeBlocks + 1 }, ?_, ?_, ?_, hasked, hgrants, hblocks⟩
  · simp only [freeBlock, hhead]
    rw [hlink]
  · exact ⟨hlists.holdsFree, hlists.tail, hlists.content, hlists.holdsAllocated, hlists.nodup,
      hlists.old⟩
  · show pool'.mfreeBlocks + 1 = _
    rw [hcounter]
    rfl

end Lists

end MemoryPool

end ResourceTuner
