import Mathlib.Data.List.Nodup
import Mathlib.Logic.Function.Basic

/-!
# Timers

`modula/Components/Timer.cpp`.  A `Timer` lies in a block of its memory pool.  `startTimer` hands
the timer threads a task that holds the address of the block and nothing else; when its wait is
over the task reads the stop flag it finds at that address, and calls the callback it finds there.
Freeing the block sets the flag and leaves the task in the thread pool, and the next `Timer` built
in the block clears the flag.

* **`getBlock` / `freeBlock`** — the pool, first in first out;
* **`construct` / `startTimer` / `killTimer`** — the class;
* **`implementTimer`** — a task at the end of its wait.
-/

namespace ResourceTuner

/-- `class Timer`.  `object` is no field of the class: it numbers the timers in the order they are
built, from one on, and is what tells a timer from an earlier one in the same block.  `mCallback`
is the request that `timerExpired` is bound to; an empty callback is `none`. -/
structure Timer where
  object : Nat
  mDuration : Int
  mIsRecurring : Bool
  mTimerStop : Bool
  mCallback : Option Nat
  deriving DecidableEq, Repr

/-- `std::bind(&Timer::implementTimer, this)`, a task of the thread pool.  `timer` is the address
the task holds; `object` is the timer that lay there when the task was enqueued. -/
structure TimerTask where
  timer : Nat
  object : Nat
  deriving DecidableEq, Repr

/-- The blocks with what lies in them, the free ones in the order the pool hands them out, the
tasks of the thread pool, and the number the next timer gets. -/
structure Timers where
  timer : Nat → Timer
  free : List Nat
  tasks : List TimerTask
  next : Nat
  object_lt : ∀ b, (timer b).object < next

namespace Timers

/-- Raw memory: no timer has been built. -/
def raw : Timer := ⟨0, 0, false, true, none⟩

/-- A pool of the given blocks, before the first timer. -/
def new (blocks : List Nat) : Timers := ⟨fun _ => raw, blocks, [], 1, fun _ => Nat.one_pos⟩

/-- `MemoryPool::getBlock`, `none` where it throws: there is no free block, or, when `granted` is
false, the lock fails. -/
def getBlock (s : Timers) (granted : Bool) : Option Nat × Timers :=
  match s.free with
  | [] => (none, s)
  | b :: free => if granted then (some b, { s with free := free }) else (none, s)

/-- `new (block) Timer(callBack, isRecurring)`.  The constructor leaves the duration as it finds
it. -/
def construct (s : Timers) (b : Nat) (callBack : Option Nat) (isRecurring : Bool) : Timers where
  timer := Function.update s.timer b
    ⟨s.next, (s.timer b).mDuration, isRecurring, false, callBack⟩
  free := s.free
  tasks := s.tasks
  next := s.next + 1
  object_lt := by
    intro c
    by_cases hc : c = b
    · subst hc
      rw [Function.update_self]
      exact Nat.lt_succ_self _
    · rw [Function.update_of_ne hc]
      exact Nat.lt_succ_of_lt (s.object_lt c)

/-- Write to the timer in a block; it stays the same object. -/
def setTimer (s : Timers) (b : Nat) (timer : Timer) (same : timer.object = (s.timer b).object) :
    Timers where
  timer := Function.update s.timer b timer
  free := s.free
  tasks := s.tasks
  next := s.next
  object_lt := by
    intro c
    by_cases hc : c = b
    · subst hc
      rw [Function.update_self, same]
      exact s.object_lt c
    · rw [Function.update_of_ne hc]
      exact s.object_lt c

def killTimer (s : Timers) (b : Nat) : Timers :=
  s.setTimer b { s.timer b with mTimerStop := true } rfl

def setDuration (s : Timers) (b : Nat) (duration : Int) : Timers :=
  s.setTimer b { s.timer b with mDuration := duration } rfl

/-- `enqueueTask`, for the timer in a block. -/
def enqueueTask (s : Timers) (b : Nat) : Timers :=
  { s with tasks := s.tasks ++ [⟨b, (s.timer b).object⟩] }

/-- `startTimer`.  `enqueued` is the answer of the timer thread pool, false when there is none. -/
def startTimer (s : Timers) (b : Nat) (duration : Int) (enqueued : Bool) : Bool × Timers :=
  if duration = -1 then (true, s)
  else if duration = 0 ∨ duration < -1 then (false, s)
  else
    let s := s.setDuration b duration
    if enqueued then (true, s.enqueueTask b) else (false, s)

/-- `FreeBlock<Timer>`: the destructor kills the timer, and the block goes to the end of the free
list. -/
def freeBlock (s : Timers) (b : Nat) : Timers :=
  { s.killTimer b with free := s.free ++ [b] }

/-- `implementTimer` at the end of the wait: the request it reports as expired, if it does, and
what is left.  The task of a recurring timer goes back to wait. -/
def implementTimer (s : Timers) (task : TimerTask) : Option Nat × Timers :=
  let timer := s.timer task.timer
  if timer.mTimerStop then (none, { s with tasks := s.tasks.erase task })
  else (timer.mCallback,
    if timer.mIsRecurring then s else { s with tasks := s.tasks.erase task })

/-- No task waits on the block. -/
def Idle (s : Timers) (b : Nat) : Prop := ∀ task ∈ s.tasks, task.timer ≠ b

instance (s : Timers) (b : Nat) : Decidable (s.Idle b) :=
  inferInstanceAs (Decidable (∀ task ∈ s.tasks, task.timer ≠ b))

/-! ## What each step writes -/

section Fields

variable (s : Timers) (b : Nat) (callBack : Option Nat) (isRecurring : Bool) (timer : Timer)
  (same : timer.object = (s.timer b).object) (duration : Int)

/-- A timer that is built in a block is another object than the one that was there; only the
duration is not written, and is what the old one left. -/
@[simp] theorem construct_timer_self : (s.construct b callBack isRecurring).timer b =
    ⟨s.next, (s.timer b).mDuration, isRecurring, false, callBack⟩ := Function.update_self _ _ _

/-- The tasks that wait on the block are not told. -/
@[simp] theorem construct_tasks : (s.construct b callBack isRecurring).tasks = s.tasks := rfl
@[simp] theorem construct_next : (s.construct b callBack isRecurring).next = s.next + 1 := rfl

/-- What is written to a block is read from it. -/
@[simp] theorem setTimer_timer_self : (s.setTimer b timer same).timer b = timer :=
  Function.update_self _ _ _

/-- `killTimer` sets the flag, and nothing else. -/
@[simp] theorem killTimer_timer_self :
    (s.killTimer b).timer b = { s.timer b with mTimerStop := true } := Function.update_self _ _ _

/-- `startTimer` writes the duration first. -/
@[simp] theorem setDuration_timer_self :
    (s.setDuration b duration).timer b = { s.timer b with mDuration := duration } :=
  Function.update_self _ _ _

/-- Neither takes a task out of the pool, gives a block back or makes an object. -/
@[simp] theorem killTimer_tasks : (s.killTimer b).tasks = s.tasks := rfl
@[simp] theorem killTimer_free : (s.killTimer b).free = s.free := rfl
@[simp] theorem killTimer_next : (s.killTimer b).next = s.next := rfl
@[simp] theorem setDuration_tasks : (s.setDuration b duration).tasks = s.tasks := rfl
@[simp] theorem setDuration_next : (s.setDuration b duration).next = s.next := rfl
@[simp] theorem freeBlock_timer : (s.freeBlock b).timer = (s.killTimer b).timer := rfl
@[simp] theorem freeBlock_free : (s.freeBlock b).free = s.free ++ [b] := rfl
@[simp] theorem freeBlock_tasks : (s.freeBlock b).tasks = s.tasks := rfl
@[simp] theorem freeBlock_next : (s.freeBlock b).next = s.next := rfl
@[simp] theorem enqueueTask_timer : (s.enqueueTask b).timer = s.timer := rfl
@[simp] theorem enqueueTask_next : (s.enqueueTask b).next = s.next := rfl

@[simp] theorem enqueueTask_tasks :
    (s.enqueueTask b).tasks = s.tasks ++ [⟨b, (s.timer b).object⟩] := rfl

variable {s b} {c : Nat}

/-- The other blocks are as they were. -/
theorem construct_timer_of_ne (h : c ≠ b) :
    (s.construct b callBack isRecurring).timer c = s.timer c := Function.update_of_ne h _ _

/-- They go on running. -/
theorem killTimer_timer_of_ne (h : c ≠ b) : (s.killTimer b).timer c = s.timer c :=
  Function.update_of_ne h _ _

/-- Their durations stay. -/
theorem setDuration_timer_of_ne (h : c ≠ b) : (s.setDuration b duration).timer c = s.timer c :=
  Function.update_of_ne h _ _

end Fields

/-- A stopped timer stays the object it was. -/
theorem killTimer_object (s : Timers) (b c : Nat) :
    ((s.killTimer b).timer c).object = (s.timer c).object := by
  by_cases hc : c = b
  · subst hc
    rw [killTimer_timer_self]
  · rw [killTimer_timer_of_ne hc]

/-! ## The pool and the start -/

variable {s s' : Timers} {granted enqueued : Bool} {b : Nat} {duration : Int}

/-- A block is the first free one. -/
theorem getBlock_eq_some (h : s.getBlock granted = (some b, s')) :
    granted = true ∧ s.free.head? = some b ∧ s' = { s with free := s.free.tail } := by
  cases s with
  | mk timer free tasks next object_lt =>
    cases free with
    | nil => cases h
    | cons c free =>
      cases granted with
      | false => cases h
      | true => cases h; exact ⟨rfl, rfl, rfl⟩

/-- Without one, or without a grant, the pool is as it was. -/
theorem getBlock_eq_none (h : s.getBlock granted = (none, s')) :
    (granted = false ∨ s.free = []) ∧ s' = s := by
  cases s with
  | mk timer free tasks next object_lt =>
    cases free with
    | nil => cases h; exact ⟨.inr rfl, rfl⟩
    | cons c free =>
      cases granted with
      | false => cases h; exact ⟨.inl rfl, rfl⟩
      | true => cases h

/-- An infinite timer starts without a task. -/
theorem startTimer_infinite (s : Timers) (b : Nat) (enqueued : Bool) :
    s.startTimer b (-1) enqueued = (true, s) := rfl

/-- A timer of a positive duration starts if its task is enqueued; otherwise the duration has been
written all the same. -/
theorem startTimer_of_pos (s : Timers) (b : Nat) (enqueued : Bool) (h : 0 < duration) :
    s.startTimer b duration enqueued =
      (enqueued, if enqueued then (s.setDuration b duration).enqueueTask b
        else s.setDuration b duration) := by
  rw [startTimer, if_neg (by omega), if_neg (by omega)]
  cases enqueued <;> rfl

/-- Without a time to wait for, nothing is written. -/
theorem startTimer_of_nonpos (s : Timers) (b : Nat) (enqueued : Bool) (h : ¬ 0 < duration) :
    s.startTimer b duration enqueued = (decide (duration = -1), s) := by
  by_cases hinf : duration = -1
  · subst hinf
    rfl
  · rw [startTimer, if_neg hinf, if_pos (by omega), decide_eq_false hinf]

/-- `startTimer` answers true for an infinite duration, and for a positive one whose task is
enqueued; zero and the other negative ones are refused. -/
theorem startTimer_answer (s : Timers) (b : Nat) (duration : Int) (enqueued : Bool) :
    (s.startTimer b duration enqueued).1 = true ↔
      duration = -1 ∨ 0 < duration ∧ enqueued = true := by
  by_cases hpos : 0 < duration
  · rw [startTimer_of_pos s b enqueued hpos]
    simp [hpos, show duration ≠ -1 by omega]
  · rw [startTimer_of_nonpos s b enqueued hpos]
    simp [hpos]

/-- Starting a timer writes its duration and nothing else. -/
theorem startTimer_timer (s : Timers) (b c : Nat) (duration : Int) (enqueued : Bool) :
    (s.startTimer b duration enqueued).2.timer c =
      { s.timer c with mDuration := ((s.startTimer b duration enqueued).2.timer c).mDuration } := by
  by_cases hpos : 0 < duration
  · rw [startTimer_of_pos s b enqueued hpos]
    have hwritten : (s.setDuration b duration).timer c =
        { s.timer c with mDuration := ((s.setDuration b duration).timer c).mDuration } := by
      by_cases hc : c = b
      · subst hc
        rw [setDuration_timer_self]
      · rw [setDuration_timer_of_ne _ hc]
    cases enqueued with
    | true => exact hwritten
    | false => exact hwritten
  · rw [startTimer_of_nonpos s b enqueued hpos]

/-- Starting makes no object. -/
theorem startTimer_next (s : Timers) (b : Nat) (duration : Int) (enqueued : Bool) :
    (s.startTimer b duration enqueued).2.next = s.next := by
  by_cases hpos : 0 < duration
  · rw [startTimer_of_pos s b enqueued hpos]
    cases enqueued <;> rfl
  · rw [startTimer_of_nonpos s b enqueued hpos]

/-- One task is enqueued, for the timer that lies in the block, if there is a time to wait for. -/
theorem startTimer_tasks (s : Timers) (b : Nat) (duration : Int) (enqueued : Bool) :
    (s.startTimer b duration enqueued).2.tasks =
      s.tasks ++ if 0 < duration ∧ enqueued = true then [⟨b, (s.timer b).object⟩] else [] := by
  by_cases hpos : 0 < duration
  · rw [startTimer_of_pos s b enqueued hpos]
    cases enqueued <;> simp [hpos]
  · rw [startTimer_of_nonpos s b enqueued hpos]
    simp [hpos]

end Timers

end ResourceTuner
