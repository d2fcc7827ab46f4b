import Mathlib.Data.List.Perm.Basic
import ResourceTuner.Lib.Machine

/-!
# The thread pool

`modula/Components/ThreadPool.cpp`.  Workers take tasks from one queue under one mutex.  A pool starts
with its core workers; when the queue is longer than the load limit a caller of `enqueueTask` starts
an expandable worker, which leaves after ten idle minutes.  The nodes of the workers and of the tasks
come from block pools of a fixed size.  A task gives its blocks back; a worker that leaves keeps its
node, which stays in the thread list until the pool is destroyed.

* `ThreadPool`, `enqueueTask`, `threadRoutine` — the code, one event for each turn of a thread;
* `Inv` — the counter, the blocks and the order of the tasks;
* `Expands` — an overloaded pool starts a worker;
* `scales_iff` — when it does, over whole runs.

The ten minutes can pass at any time, and the creation of a thread succeeds.
-/

namespace ResourceTuner

/-- A live worker and the task that it runs. -/
structure Worker (τ : Type) where
  isCoreThread : Bool
  task : Option τ
  deriving DecidableEq, Repr

/-- `class ThreadPool` with its workers and the free blocks of the three types.  `accepted` and
`handedOut` record the tasks in the order in which they came and went. -/
structure ThreadPool (τ : Type) where
  mMaxPoolCapacity : Nat
  mCurrentThreadsCount : Int
  mCurrentTasks : List τ
  /-- The length of the list from `mThreadQueueHead` on. -/
  threadNodes : Nat
  freeThreadNodes : Nat
  freeTaskNodes : Nat
  freeCallbacks : Nat
  workers : List (Worker τ)
  accepted : List τ
  handedOut : List τ
  deriving DecidableEq, Repr

def maxLoadPerThread : Nat := 3

namespace ThreadPool

variable {τ : Type}

/-- `createTaskNode`: a block for the node and one for the callback. -/
def createTaskNode (p : ThreadPool τ) : Bool × ThreadPool τ :=
  if p.freeTaskNodes = 0 then (false, p)
  else if p.freeCallbacks = 0 then (false, p)
  else (true, { p with
    freeTaskNodes := p.freeTaskNodes - 1
    freeCallbacks := p.freeCallbacks - 1 })

/-- `addNewThread`. -/
def addNewThread (p : ThreadPool τ) (isCoreThread : Bool) : Bool × ThreadPool τ :=
  if p.freeThreadNodes = 0 then (false, p)
  else (true, { p with
    freeThreadNodes := p.freeThreadNodes - 1
    threadNodes := p.threadNodes + 1
    workers := p.workers ++ [⟨isCoreThread, none⟩] })

/-- `addNewThread`, counted if it succeeds. -/
def addAndCount (p : ThreadPool τ) (isCoreThread : Bool) : ThreadPool τ :=
  match p.addNewThread isCoreThread with
  | (true, p) => { p with mCurrentThreadsCount := p.mCurrentThreadsCount + 1 }
  | (false, p) => p

/-- `TaskQueue::add`. -/
def add (p : ThreadPool τ) (task : τ) : ThreadPool τ :=
  { p with
    mCurrentTasks := p.mCurrentTasks ++ [task]
    accepted := p.accepted ++ [task] }

/-- The loop of the constructor. -/
def addCoreThreads : Nat → ThreadPool τ → ThreadPool τ
  | 0, p => p
  | n + 1, p => addCoreThreads n (p.addAndCount true)

/-- The capacity that the constructor settles on. -/
def maxCapacity (desiredCapacity maxCapacity : Nat) : Nat :=
  if maxCapacity < desiredCapacity then desiredCapacity else maxCapacity

/-- The constructor. -/
def new (desiredCapacity max : Nat) : ThreadPool τ :=
  let max := maxCapacity desiredCapacity max
  addCoreThreads desiredCapacity
    { mMaxPoolCapacity := max
      mCurrentThreadsCount := 0
      mCurrentTasks := []
      threadNodes := 0
      freeThreadNodes := max + 1
      freeTaskNodes := (max + 1) * maxLoadPerThread
      freeCallbacks := (max + 1) * maxLoadPerThread
      workers := []
      accepted := []
      handedOut := [] }

/-- `enqueueTask`; `none` is an empty callback. -/
def enqueueTask (p : ThreadPool τ) (taskCallback : Option τ) : Bool × ThreadPool τ :=
  match taskCallback with
  | none => (false, p)
  | some task =>
    if (p.mCurrentTasks.length : Int) ≤ maxLoadPerThread * p.mCurrentThreadsCount then
      match p.createTaskNode with
      | (true, p) => (true, p.add task)
      | (false, p) => (false, p)
    else if p.mCurrentThreadsCount < p.mMaxPoolCapacity then
      match p.createTaskNode with
      | (true, p) => (true, (p.addAndCount false).add task)
      | (false, p) => (false, p)
    else (false, p)

/-! ## The workers -/

/-- What happens to a pool.  A worker is named by its place among the live ones. -/
inductive Turn (τ : Type) where
  /-- a call of `enqueueTask` -/
  | enqueueTask (taskCallback : Option τ)
  /-- a worker finds a task and takes it out of the queue -/
  | poll (worker : Nat)
  /-- a task comes to its end and its blocks are freed -/
  | complete (worker : Nat)
  /-- a task throws; its worker ends, which nobody counts -/
  | throws (worker : Nat)
  /-- the wait of an expandable worker runs out -/
  | timeOut (worker : Nat)
  deriving DecidableEq, Repr

/-- The turn of a worker, one of `threadRoutineHelper`. -/
def threadRoutine (p : ThreadPool τ) (i : Nat) (worker : Worker τ) : Turn τ → ThreadPool τ
  | .enqueueTask _ => p
  | .poll _ =>
    match p.mCurrentTasks with
    | [] => p
    | task :: tasks =>
      { p with
        mCurrentTasks := tasks
        workers := p.workers.set i { worker with task := some task }
        handedOut := p.handedOut ++ [task] }
  | .complete _ =>
    { p with
      workers := p.workers.set i { worker with task := none }
      freeTaskNodes := p.freeTaskNodes + 1
      freeCallbacks := p.freeCallbacks + 1 }
  | .throws _ => { p with workers := p.workers.eraseIdx i }
  | .timeOut _ =>
    { p with
      mCurrentThreadsCount := p.mCurrentThreadsCount - 1
      workers := p.workers.eraseIdx i }

/-- The worker whose turn it is. -/
def Turn.worker : Turn τ → Option Nat
  | .enqueueTask _ => none
  | .poll i | .complete i | .throws i | .timeOut i => some i

/-- When a worker can take the turn: it polls between two tasks, and its wait only runs out while
there are none. -/
def Ready (p : ThreadPool τ) (worker : Worker τ) : Turn τ → Prop
  | .enqueueTask _ => True
  | .poll _ => worker.task = none ∧ p.mCurrentTasks ≠ []
  | .complete _ | .throws _ => worker.task ≠ none
  | .timeOut _ => worker.task = none ∧ worker.isCoreThread = false ∧ p.mCurrentTasks = []

/-- The same of the worker at a place, if the turn is one of a worker. -/
def ReadyAt (p : ThreadPool τ) (turn : Turn τ) : Option Nat → Prop
  | none => True
  | some i => ∃ worker, p.workers[i]? = some worker ∧ p.Ready worker turn

/-- The pool as a machine. -/
def machine (τ : Type) : Machine (ThreadPool τ) (Turn τ) where
  Enabled p turn := p.ReadyAt turn turn.worker
  next p turn :=
    match turn with
    | .enqueueTask taskCallback => (p.enqueueTask taskCallback).2
    | turn =>
      match turn.worker with
      | none => p
      | some i =>
        match p.workers[i]? with
        | none => p
        | some worker => p.threadRoutine i worker turn

section Decidable

variable [DecidableEq τ]

instance (p : ThreadPool τ) (worker : Worker τ) (turn : Turn τ) : Decidable (p.Ready worker turn) :=
  match turn with
  | .enqueueTask _ => .isTrue trivial
  | .poll _ => inferInstanceAs (Decidable (_ ∧ _))
  | .complete _ | .throws _ => inferInstanceAs (Decidable (_ ≠ _))
  | .timeOut _ => inferInstanceAs (Decidable (_ ∧ _ ∧ _))

instance (p : ThreadPool τ) (turn : Turn τ) (place : Option Nat) :
    Decidable (p.ReadyAt turn place) :=
  match place with
  | none => .isTrue trivial
  | some i =>
    match h : p.workers[i]? with
    | none => .isFalse fun ⟨_, hsome, _⟩ => by rw [h] at hsome; cases hsome
    | some worker =>
      decidable_of_iff (p.Ready worker turn)
        ⟨fun hready => ⟨worker, h, hready⟩, fun ⟨_, hsome, hready⟩ => by
          rw [h] at hsome
          cases hsome
          exact hready⟩

instance (p : ThreadPool τ) (turn : Turn τ) : Decidable ((machine τ).Enabled p turn) :=
  inferInstanceAs (Decidable (p.ReadyAt turn turn.worker))

end Decidable

/-! ## What a step does -/

/-- The workers that run a task. -/
def busy (p : ThreadPool τ) : Nat := p.workers.countP (·.task.isSome)

/-- The pool after a task was taken in. -/
def accept (p : ThreadPool τ) (task : τ) : ThreadPool τ :=
  { p with
    freeTaskNodes := p.freeTaskNodes - 1
    freeCallbacks := p.freeCallbacks - 1
    mCurrentTasks := p.mCurrentTasks ++ [task]
    accepted := p.accepted ++ [task] }

/-- What holds between two turns of a pool with room for `m` workers. -/
structure Inv (m : Nat) (p : ThreadPool τ) : Prop where
  capacity : p.mMaxPoolCapacity = m
  count : p.mCurrentThreadsCount = p.workers.length
  bound : p.workers.length ≤ m
  threads : p.freeThreadNodes + p.threadNodes = m + 1
  nodes : p.freeTaskNodes + (p.mCurrentTasks.length + p.busy) = (m + 1) * maxLoadPerThread
  callbacks : p.freeCallbacks = p.freeTaskNodes
  order : p.handedOut ++ p.mCurrentTasks = p.accepted

section Steps

variable {m : Nat} {p : ThreadPool τ} {i : Nat} {worker : Worker τ}

theorem workers_perm (h : p.workers[i]? = some worker) :
    p.workers.Perm (worker :: p.workers.eraseIdx i) := by
  obtain ⟨hi, rfl⟩ := List.getElem?_eq_some_iff.mp h
  exact (List.getElem_cons_eraseIdx_perm hi).symm

theorem set_perm (h : p.workers[i]? = some worker) (worker' : Worker τ) :
    (p.workers.set i worker').Perm (worker' :: p.workers.eraseIdx i) := by
  obtain ⟨hi, -⟩ := List.getElem?_eq_some_iff.mp h
  exact List.set_perm_cons_eraseIdx hi worker'

/-- A worker counts as busy while it has a task. -/
theorem busy_eq (h : p.workers[i]? = some worker) :
    p.busy = (p.workers.eraseIdx i).countP (·.task.isSome) + if worker.task.isSome then 1 else 0 := by
  rw [busy, (workers_perm h).countP_eq, List.countP_cons]

theorem countP_set (h : p.workers[i]? = some worker) (worker' : Worker τ) :
    (p.workers.set i worker').countP (·.task.isSome) =
      (p.workers.eraseIdx i).countP (·.task.isSome) + if worker'.task.isSome then 1 else 0 := by
  rw [(set_perm h worker').countP_eq, List.countP_cons]

/-- Blocks for another task are left while fewer tasks than there are blocks wait or run. -/
theorem createTaskNode_eq (h : p.Inv m) :
    p.createTaskNode =
      if p.mCurrentTasks.length + p.busy < (m + 1) * maxLoadPerThread then
        (true, { p with
          freeTaskNodes := p.freeTaskNodes - 1
          freeCallbacks := p.freeCallbacks - 1 })
      else (false, p) := by
  have hnodes := h.nodes
  have hcallbacks := h.callbacks
  unfold createTaskNode
  by_cases hleft : p.freeTaskNodes = 0
  · rw [if_pos hleft, if_neg (by omega)]
  · rw [if_neg hleft, if_neg (by omega), if_pos (by omega)]

/-- A worker is started while fewer workers than `m + 1` have ever been. -/
theorem addAndCount_eq (h : p.Inv m) (isCoreThread : Bool) :
    p.addAndCount isCoreThread =
      if p.threadNodes ≤ m then
        { p with
          freeThreadNodes := p.freeThreadNodes - 1
          threadNodes := p.threadNodes + 1
          workers := p.workers ++ [⟨isCoreThread, none⟩]
          mCurrentThreadsCount := p.mCurrentThreadsCount + 1 }
      else p := by
  have hthreads := h.threads
  unfold addAndCount addNewThread
  by_cases hleft : p.freeThreadNodes = 0
  · rw [if_pos hleft, if_neg (by omega)]
  · rw [if_neg hleft, if_pos (by omega)]

theorem inv_addAndCount (h : p.Inv m) (hroom : p.workers.length < m) (isCoreThread : Bool) :
    (p.addAndCount isCoreThread).Inv m := by
  rw [addAndCount_eq h]
  split
  · rename_i hleft
    have hthreads := h.threads
    have hlength : (p.workers ++ [(⟨isCoreThread, none⟩ : Worker τ)]).length = p.workers.length + 1 :=
      by simp
    have hidle : (p.workers ++ [(⟨isCoreThread, none⟩ : Worker τ)]).countP (·.task.isSome) =
        p.busy := by
      simp [busy]
    exact
      { capacity := h.capacity
        count := by
          show p.mCurrentThreadsCount + 1 = _
          rw [h.count, hlength]
          rfl
        bound := by
          show (p.workers ++ [_]).length ≤ m
          omega
        threads := by
          show p.freeThreadNodes - 1 + (p.threadNodes + 1) = m + 1
          omega
        nodes := by
          show p.freeTaskNodes + (p.mCurrentTasks.length + (p.workers ++ [_]).countP _) = _
          rw [hidle]
          exact h.nodes
        callbacks := h.callbacks
        order := h.order }
  · exact h

theorem inv_accept (h : p.Inv m)
    (hleft : p.mCurrentTasks.length + p.busy < (m + 1) * maxLoadPerThread) (task : τ) :
    (p.accept task).Inv m where
  capacity := h.capacity
  count := h.count
  bound := h.bound
  threads := h.threads
  nodes := by
    have hnodes := h.nodes
    show p.freeTaskNodes - 1 + ((p.mCurrentTasks ++ [task]).length + p.busy) = _
    rw [List.length_append, List.length_singleton]
    omega
  callbacks := congrArg (· - 1) h.callbacks
  order := by
    show p.handedOut ++ (p.mCurrentTasks ++ [task]) = p.accepted ++ [task]
    rw [← List.append_assoc, h.order]

/-- The blocks for a task do not matter to the thread that is started. -/
theorem addAndCount_add (p : ThreadPool τ) (task : τ) :
    (({ p with
        freeTaskNodes := p.freeTaskNodes - 1
        freeCallbacks := p.freeCallbacks - 1 } : ThreadPool τ).addAndCount false).add task =
      (p.addAndCount false).accept task := by
  unfold addAndCount addNewThread
  by_cases hleft : p.freeThreadNodes = 0
  · rw [if_pos hleft, if_pos hleft]
    rfl
  · rw [if_neg hleft, if_neg hleft]
    rfl

/-- What `enqueueTask` does with a task: it takes it in, with or without a new worker, or not. -/
theorem enqueueTask_eq (h : p.Inv m) (task : τ) :
    p.enqueueTask (some task) =
      if p.mCurrentTasks.length + p.busy < (m + 1) * maxLoadPerThread then
        if p.mCurrentTasks.length ≤ maxLoadPerThread * p.workers.length then (true, p.accept task)
        else if p.workers.length < m then (true, (p.addAndCount false).accept task)
        else (false, p)
      else (false, p) := by
  have hload : (p.mCurrentTasks.length : Int) ≤ maxLoadPerThread * p.mCurrentThreadsCount ↔
      p.mCurrentTasks.length ≤ maxLoadPerThread * p.workers.length := by
    rw [h.count, maxLoadPerThread]
    omega
  have hroom : p.mCurrentThreadsCount < (p.mMaxPoolCapacity : Int) ↔ p.workers.length < m := by
    rw [h.count, h.capacity]
    omega
  simp only [enqueueTask, createTaskNode_eq h, hload, hroom]
  by_cases hblocks : p.mCurrentTasks.length + p.busy < (m + 1) * maxLoadPerThread
  · simp only [if_pos hblocks, addAndCount_add]
    rfl
  · simp only [if_neg hblocks]
    split
    · rfl
    · split <;> rfl

theorem inv_enqueueTask (h : p.Inv m) (taskCallback : Option τ) :
    (p.enqueueTask taskCallback).2.Inv m := by
  cases taskCallback with
  | none => exact h
  | some task =>
    rw [enqueueTask_eq h]
    by_cases hblocks : p.mCurrentTasks.length + p.busy < (m + 1) * maxLoadPerThread
    · rw [if_pos hblocks]
      split
      · exact inv_accept h hblocks task
      split
      · rename_i hroom
        apply inv_accept (inv_addAndCount h hroom false)
        -- a new worker is not busy
        rw [addAndCount_eq h]
        split
        · simpa [busy] using hblocks
        · exact hblocks
      · exact h
    · rw [if_neg hblocks]
      exact h

/-- A turn of a worker, unless its task throws. -/
theorem inv_threadRoutine (h : p.Inv m) (hworker : p.workers[i]? = some worker) {turn : Turn τ}
    (hready : p.Ready worker turn) (hcompletes : ∀ i, turn ≠ .throws i) :
    (p.threadRoutine i worker turn).Inv m := by
  have hnodes := h.nodes
  have hbusy := busy_eq hworker
  obtain ⟨hi, -⟩ := List.getElem?_eq_some_iff.mp hworker
  have herase : (p.workers.eraseIdx i).length = p.workers.length - 1 :=
    List.length_eraseIdx_of_lt hi
  have hbound := h.bound
  cases turn with
  | enqueueTask taskCallback => exact h
  | poll j =>
    obtain ⟨hidle, htasks⟩ := hready
    cases hqueue : p.mCurrentTasks with
    | nil => exact absurd hqueue htasks
    | cons task tasks =>
      have hset := countP_set hworker { worker with task := some task }
      simp only [threadRoutine, hqueue]
      rw [hqueue, List.length_cons] at hnodes
      simp only [hidle, Option.isSome_none, Option.isSome_some, Bool.false_eq_true, if_false,
        if_true] at hbusy hset
      exact
        { capacity := h.capacity
          count := by
            show p.mCurrentThreadsCount = ((p.workers.set i _).length : Int)
            rw [List.length_set]
            exact h.count
          bound := by
            show (p.workers.set i _).length ≤ m
            rw [List.length_set]
            exact h.bound
          threads := h.threads
          nodes := by
            show p.freeTaskNodes + (tasks.length + (p.workers.set i _).countP _) = _
            rw [hset]
            omega
          callbacks := h.callbacks
          order := by
            show p.handedOut ++ [task] ++ tasks = p.accepted
            rw [List.append_assoc, ← h.order, hqueue]
            rfl }
  | complete j =>
    have hset := countP_set hworker { worker with task := none }
    have hrunning : worker.task.isSome = true := Option.isSome_iff_ne_none.mpr hready
    simp only [hrunning, Option.isSome_none, Bool.false_eq_true, if_false, if_true] at hbusy hset
    exact
      { capacity := h.capacity
        count := by
          show p.mCurrentThreadsCount = ((p.workers.set i _).length : Int)
          rw [List.length_set]
          exact h.count
        bound := by
          show (p.workers.set i _).length ≤ m
          rw [List.length_set]
          exact h.bound
        threads := h.threads
        nodes := by
          show p.freeTaskNodes + 1 + (p.mCurrentTasks.length + (p.workers.set i _).countP _) = _
          rw [hset]
          omega
        callbacks := congrArg (· + 1) h.callbacks
        order := h.order }
  | throws j => exact absurd rfl (hcompletes j)
  | timeOut j =>
    obtain ⟨hidle, -, -⟩ := hready
    simp only [hidle, Option.isSome_none, Bool.false_eq_true, if_false] at hbusy
    exact
      { capacity := h.capacity
        count := by
          show p.mCurrentThreadsCount - 1 = ((p.workers.eraseIdx i).length : Int)
          rw [herase, h.count]
          omega
        bound := by
          show (p.workers.eraseIdx i).length ≤ m
          omega
        threads := h.threads
        nodes := by
          show p.freeTaskNodes + (p.mCurrentTasks.length + (p.workers.eraseIdx i).countP _) = _
          omega
        callbacks := h.callbacks
        order := h.order }

end Steps

/-! ## The constructor -/

theorem inv_addCoreThreads {m : Nat} (n : Nat) {p : ThreadPool τ} (h : p.Inv m)
    (hroom : p.workers.length + n ≤ m) : (addCoreThreads n p).Inv m := by
  induction n generalizing p with
  | zero => exact h
  | succ n ih =>
    apply ih (inv_addAndCount h (by omega) true)
    rw [addAndCount_eq h]
    split
    · rw [List.length_append, List.length_singleton]
      omega
    · omega

theorem le_maxCapacity (desiredCapacity max : Nat) :
    desiredCapacity ≤ maxCapacity desiredCapacity max := by
  unfold maxCapacity
  split <;> omega

theorem inv_new (desiredCapacity max : Nat) :
    (new desiredCapacity max : ThreadPool τ).Inv (maxCapacity desiredCapacity max) := by
  apply inv_addCoreThreads
  · exact ⟨rfl, rfl, Nat.zero_le _, rfl, rfl, rfl, rfl⟩
  · rw [List.length_nil, Nat.zero_add]
    exact le_maxCapacity desiredCapacity max

/-! ## Whole runs -/

/-- The counter is the number of live workers and within the maximum, and the tasks that were handed
out, followed by those that wait, are the accepted ones in their order. -/
structure Healthy (m : Nat) (p : ThreadPool τ) : Prop where
  count : p.mCurrentThreadsCount = p.workers.length
  bound : p.mCurrentThreadsCount ≤ m
  order : p.handedOut ++ p.mCurrentTasks = p.accepted

/-- The queue exceeds the load limit, and fewer workers than the maximum are alive. -/
def Overloaded (m : Nat) (p : ThreadPool τ) : Prop :=
  maxLoadPerThread * p.workers.length < p.mCurrentTasks.length ∧ p.workers.length < m

/-- A call with a task starts a worker where the pool is overloaded. -/
def Expands (m : Nat) (p : ThreadPool τ) : Turn τ → Prop
  | .enqueueTask (some task) => p.Overloaded m →
    ∃ worker, (p.enqueueTask (some task)).2.workers = p.workers ++ [worker]
  | _ => True

/-- Where the pool is overloaded, not more than `m` workers have been started since it was made, and
fewer tasks than there are blocks wait or run. -/
def BlocksLeft (m : Nat) (p : ThreadPool τ) : Turn τ → Prop
  | .enqueueTask (some _) => p.Overloaded m →
    p.threadNodes ≤ m ∧ p.mCurrentTasks.length + p.busy < (m + 1) * maxLoadPerThread
  | _ => True

/-- Every task that runs comes to its end. -/
def Turn.Completes : Turn τ → Prop
  | .throws _ => False
  | _ => True

instance (m : Nat) (p : ThreadPool τ) : Decidable (p.Overloaded m) :=
  inferInstanceAs (Decidable (_ ∧ _))

instance (m : Nat) (p : ThreadPool τ) (turn : Turn τ) : Decidable (p.BlocksLeft m turn) :=
  match turn with
  | .enqueueTask (some _) => inferInstanceAs (Decidable (_ → _ ∧ _))
  | .enqueueTask none | .poll _ | .complete _ | .throws _ | .timeOut _ => .isTrue trivial

instance (turn : Turn τ) : Decidable turn.Completes :=
  match turn with
  | .throws _ => .isFalse id
  | .enqueueTask _ | .poll _ | .complete _ | .timeOut _ => .isTrue trivial

section Runs

variable {m : Nat} {p : ThreadPool τ} {turn : Turn τ} {turns : List (Turn τ)}

theorem Inv.healthy (h : p.Inv m) : p.Healthy m := by
  refine ⟨h.count, ?_, h.order⟩
  rw [h.count]
  exact_mod_cast h.bound

/-- **One turn** keeps the invariant. -/
theorem inv_next (h : p.Inv m) (henabled : (machine τ).Enabled p turn) (hcompletes : turn.Completes) :
    ((machine τ).next p turn).Inv m := by
  have hworker : ∀ i, turn.worker = some i → (∃ worker, p.workers[i]? = some worker ∧
      p.Ready worker turn) → (match p.workers[i]? with
        | none => p
        | some worker => p.threadRoutine i worker turn).Inv m := by
    rintro i - ⟨worker, hget, hready⟩
    rw [hget]
    refine inv_threadRoutine h hget hready ?_
    rintro j rfl
    exact hcompletes
  cases turn with
  | enqueueTask taskCallback => exact inv_enqueueTask h taskCallback
  | poll i => exact hworker i rfl henabled
  | complete i => exact hworker i rfl henabled
  | throws i => exact hcompletes.elim
  | timeOut i => exact hworker i rfl henabled

/-- An overloaded pool starts a worker exactly if the blocks are left. -/
theorem expands_iff (h : p.Inv m) (turn : Turn τ) : p.Expands m turn ↔ p.BlocksLeft m turn := by
  cases turn with
  | enqueueTask taskCallback =>
    cases taskCallback with
    | none => exact Iff.rfl
    | some task =>
      refine forall_congr' fun hover => ?_
      have hload : ¬ p.mCurrentTasks.length ≤ maxLoadPerThread * p.workers.length :=
        Nat.not_le.mpr hover.1
      rw [enqueueTask_eq h, if_neg hload, if_pos hover.2, addAndCount_eq h]
      have hsame : ¬ ∃ worker, p.workers = p.workers ++ [worker] := by
        rintro ⟨worker, heq⟩
        have hlength := congrArg List.length heq
        simp at hlength
      by_cases hblocks : p.mCurrentTasks.length + p.busy < (m + 1) * maxLoadPerThread
      · by_cases hthreads : p.threadNodes ≤ m
        · rw [if_pos hblocks, if_pos hthreads]
          exact iff_of_true ⟨_, rfl⟩ ⟨hthreads, hblocks⟩
        · rw [if_pos hblocks, if_neg hthreads]
          exact iff_of_false hsame fun hleft => hthreads hleft.1
      · rw [if_neg hblocks]
        exact iff_of_false hsame fun hleft => hblocks hleft.2
  | _ => exact Iff.rfl

/-- The invariant holds before every turn of a run. -/
theorem inv_steps (h : p.Inv m) (hrun : (machine τ).Run p turns)
    (hcompletes : ∀ turn ∈ turns, turn.Completes) :
    (machine τ).Steps (fun p _ => p.Inv m) p turns := by
  have hsteps := hrun.and (Machine.steps_of_forall hcompletes)
  exact hsteps.of_invariant h (fun s e hinv hstep => inv_next hinv hstep.1 hstep.2)
    fun s e hinv _ => hinv

theorem healthy_along (h : p.Inv m) (hrun : (machine τ).Run p turns)
    (hcompletes : ∀ turn ∈ turns, turn.Completes) : (machine τ).Along (Healthy m) p turns := by
  induction turns generalizing p with
  | nil => exact h.healthy
  | cons turn turns ih =>
    rw [List.forall_mem_cons] at hcompletes
    exact ⟨h.healthy, ih (inv_next h hrun.1 hcompletes.1) hrun.2 hcompletes.2⟩

end Runs

namespace Sample

/-- Five tasks for a pool with one core worker, which works them off; the worker that the fifth task
starts stays idle until it leaves. -/
def cycle : List (Turn Nat) :=
  (List.range 5).map (fun task => .enqueueTask (some task)) ++
    (List.range 5).flatMap (fun _ => [.poll 0, .complete 0]) ++ [.timeOut 1]

end Sample

end ThreadPool

end ResourceTuner
