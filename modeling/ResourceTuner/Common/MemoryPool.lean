import Mathlib.Data.List.Basic

/-!
# The blocks of a message

Every object the server makes for a message is a block of a memory pool (`MemoryPool.h`): `MPLACED`
takes one and throws when there is none left, `FreeBlock` gives it back.  A `Pool` is the view of one
message on the pools: how its next allocations are answered, which blocks it has taken, and the
calls of `FreeBlock`.  The few plain allocations on the way (an array of values, a string) draw on the
same answers.
-/

namespace ResourceTuner

/-- The pooled types that a message takes blocks of. -/
inductive BlockKind where
  | MsgForwardInfo
  /-- `char[REQ_BUFFER_SIZE]` -/
  | Buffer
  | Request
  | Signal
  /-- `std::vector<uint32_t>`, the arguments of a signal -/
  | ArgVector
  | Resource
  | ResIterable
  | DLManager
  deriving DecidableEq, Repr

/-- A block; the number tells the blocks of one message apart. -/
structure Block where
  kind : BlockKind
  id : Nat
  deriving DecidableEq, Repr

/-- The pools as one message sees them; the newest blocks come first. -/
structure Pool where
  grants : Nat → Bool
  asked : Nat
  taken : List Block
  returned : List Block

namespace Pool

/-- A pool that has given nothing to the message yet. -/
def fresh (grants : Nat → Bool) : Pool := ⟨grants, 0, [], []⟩

/-- The answer to the next allocation. -/
def answer (pool : Pool) : Bool := pool.grants pool.asked

/-- A plain allocation. -/
def ask (pool : Pool) : Pool := { pool with asked := pool.asked + 1 }

def take (pool : Pool) (block : Block) : Pool := { pool with taken := block :: pool.taken }

section Fields

variable (pool : Pool) (block : Block)

@[simp] theorem ask_taken : pool.ask.taken = pool.taken := rfl
@[simp] theorem ask_grants : pool.ask.grants = pool.grants := rfl
@[simp] theorem ask_asked : pool.ask.asked = pool.asked + 1 := rfl
@[simp] theorem ask_returned : pool.ask.returned = pool.returned := rfl
@[simp] theorem take_taken : (pool.take block).taken = block :: pool.taken := rfl
@[simp] theorem take_grants : (pool.take block).grants = pool.grants := rfl
@[simp] theorem take_asked : (pool.take block).asked = pool.asked := rfl
@[simp] theorem take_returned : (pool.take block).returned = pool.returned := rfl

end Fields

/-- `GetBlock`, `none` where it throws. -/
def getBlock (pool : Pool) (kind : BlockKind) : Option Block × Pool :=
  if pool.answer then (some ⟨kind, pool.asked⟩, pool.ask.take ⟨kind, pool.asked⟩)
  else (none, pool.ask)

/-- `FreeBlock`. -/
def freeBlock (pool : Pool) (block : Block) : Pool :=
  { pool with returned := block :: pool.returned }

/-- Every allocation succeeds. -/
def Granted (pool : Pool) : Prop := ∀ n, pool.grants n = true

theorem getBlock_of_granted {pool : Pool} (h : pool.Granted) (kind : BlockKind) :
    pool.getBlock kind = (some ⟨kind, pool.asked⟩, pool.ask.take ⟨kind, pool.asked⟩) := by
  have hanswer : pool.answer = true := h pool.asked
  rw [getBlock, if_pos hanswer]

theorem granted_getBlock {pool : Pool} (h : pool.Granted) (kind : BlockKind) :
    (pool.getBlock kind).2.Granted := by
  rw [getBlock_of_granted h]
  exact h

end Pool

end ResourceTuner
