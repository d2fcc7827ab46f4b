import Mathlib.Data.List.Perm.Basic
import ResourceTuner.Common.Request
import ResourceTuner.Lib.Machine

/-!
# The request queue and its consumer thread

`modula/Components/OrderedQueue.cpp`, the loop of `RequestQueue::orderedQueueConsumerHook` and
`restuneThreadStart`.  Producers put messages into a priority queue under a mutex and wake the one
consumer; the consumer holds the mutex from the moment it finds something in the queue until its hook
returns.  What the hook does with a message is left open here.

* `OrderedQueue`, `addAndWakeup`, `pop`, `forcefulAwake`, `Turn` — the code, one turn for each stretch
  between two points where another thread can come in;
* `Inv`, `inv_of_run` — the counter, the messages and the sleeping consumer;
* `hookCalls_of_run` — what one call of the hook serves;
* `ends_of_run` — the clean-up trigger ends the thread.

`std::priority_queue` promises that its top is a message with the least priority, and nothing about
which one.
-/

namespace ResourceTuner

/-- How a call of the hook ends: the queue is empty, the clean-up trigger came, or an exception. -/
inductive Ending where
  | drained
  | trigger
  | threw
  deriving DecidableEq, Repr

/-- A call of the hook: what waited when it began, what it took out so far, and what is left. -/
structure HookCall where
  start : List Message
  popped : List Message
  left : List Message
  deriving DecidableEq, Repr

/-- The call after a message was taken out. -/
def HookCall.pop (call : HookCall) (message : Message) : HookCall :=
  { call with popped := call.popped ++ [message], left := call.left.erase message }

/-- Where the consumer thread is. -/
inductive QueueConsumer where
  /-- in front of the test of `isServerOnline` -/
  | looping
  /-- in `wait`, in front of the lock -/
  | entering
  /-- in the wait of the condition variable -/
  | asleep (notified : Bool)
  /-- in the hook, with the lock -/
  | serving (call : HookCall)
  | finished
  deriving DecidableEq, Repr

/-- `class OrderedQueue` with the flag the consumer thread reads.  `accepted` and `popped` record the
messages that came and went, `calls` the calls of the hook that have ended. -/
structure OrderedQueue where
  mOrderedQueue : List Message
  mElementCount : Int
  serverOnlineStatus : Bool
  consumer : QueueConsumer
  accepted : List Message
  popped : List Message
  calls : List (HookCall × Ending)
  deriving DecidableEq, Repr

namespace OrderedQueue

/-- The queue when the consumer thread is started. -/
def init : OrderedQueue where
  mOrderedQueue := []
  mElementCount := 0
  serverOnlineStatus := true
  consumer := .looping
  accepted := []
  popped := []
  calls := []

def hasPendingTasks (q : OrderedQueue) : Bool := decide (0 < q.mElementCount)

/-- `notify_one`. -/
def notify_one : QueueConsumer → QueueConsumer
  | .asleep _ => .asleep true
  | consumer => consumer

/-- The `push` of `addAndWakeup` and the lines after it. -/
def push (q : OrderedQueue) (message : Message) : OrderedQueue :=
  { q with
    mOrderedQueue := message :: q.mOrderedQueue
    mElementCount := q.mElementCount + 1
    consumer := notify_one q.consumer
    accepted := q.accepted ++ [message] }

/-- `addAndWakeup`; `none` is a null pointer, and without `room` the `push` throws. -/
def addAndWakeup (q : OrderedQueue) (room : Bool) (queueItem : Option Message) :
    Bool × OrderedQueue :=
  match queueItem with
  | none => (false, q)
  | some message =>
    if message.getPriority < SERVER_CLEANUP_TRIGGER_PRIORITY then (false, q)
    else if room = false then (false, q)
    else (true, q.push message)

/-- The message of `forcefulAwake`: only the properties word of the block is ever written. -/
def cleanupMessage (block : Message) : Message :=
  { block with mProperties := 0 }.setPriority SERVER_CLEANUP_TRIGGER_PRIORITY

/-- `forcefulAwake`; without a free block it does nothing. -/
def forcefulAwake (q : OrderedQueue) (room : Bool) (block : Option Message) : OrderedQueue :=
  match block with
  | none => q
  | some block => (q.addAndWakeup room (some (cleanupMessage block))).2

/-- `wait` with the lock: to sleep, or into the hook. -/
def tryHook (q : OrderedQueue) : OrderedQueue :=
  if q.mElementCount = 0 then { q with consumer := .asleep false }
  else { q with consumer := .serving ⟨q.mOrderedQueue, [], q.mOrderedQueue⟩ }

/-- `pop` of a message that is on top. -/
def pop (q : OrderedQueue) (message : Message) : OrderedQueue :=
  { q with
    mOrderedQueue := q.mOrderedQueue.erase message
    mElementCount := q.mElementCount - 1
    popped := q.popped ++ [message] }

/-- The hook goes on. -/
def continueHook (q : OrderedQueue) (call : HookCall) : OrderedQueue :=
  { q with consumer := .serving call }

/-- The hook returns, and `wait` gives the lock back. -/
def endHook (q : OrderedQueue) (call : HookCall) (ending : Ending) : OrderedQueue :=
  { q with consumer := .looping, calls := q.calls ++ [(call, ending)] }

/-- The turns of the threads. -/
inductive Turn where
  /-- a producer calls `addAndWakeup` -/
  | addAndWakeup (room : Bool) (queueItem : Option Message)
  /-- `tear` calls `forcefulAwake` -/
  | forcefulAwake (room : Bool) (block : Option Message)
  /-- the server is told to stop -/
  | goOffline
  /-- the consumer tests `isServerOnline` -/
  | test
  /-- it takes the lock in `wait` -/
  | lock
  /-- it wakes up, notified or not -/
  | wake
  /-- the hook takes a message out and handles it -/
  | pop (message : Message)
  /-- handling it throws -/
  | throws (message : Message)
  /-- the hook finds nothing more -/
  | leave
  deriving DecidableEq, Repr

/-- The turns of the consumer thread. -/
def Turn.isConsumer : Turn → Bool
  | .addAndWakeup .. | .forcefulAwake .. | .goOffline => false
  | _ => true

/-- The loop of the hook with the message it takes out. -/
def serve (q : OrderedQueue) (message : Message) (call : HookCall) : OrderedQueue :=
  if message.getPriority = SERVER_CLEANUP_TRIGGER_PRIORITY then
    (q.pop message).endHook (call.pop message) .trigger
  else (q.pop message).continueHook (call.pop message)

/-- What happens in the call in progress. -/
def inHook (q : OrderedQueue) (turn : HookCall → OrderedQueue) : OrderedQueue :=
  match q.consumer with
  | .serving call => turn call
  | _ => q

/-- The queue after a turn. -/
def next (q : OrderedQueue) : Turn → OrderedQueue
  | .addAndWakeup room queueItem => (q.addAndWakeup room queueItem).2
  | .forcefulAwake room block => q.forcefulAwake room block
  | .goOffline => { q with serverOnlineStatus := false }
  | .test => { q with consumer := if q.serverOnlineStatus then .entering else .finished }
  | .lock | .wake => q.tryHook
  | .pop message => q.inHook (q.serve message)
  | .throws message => q.inHook fun call => (q.pop message).endHook (call.pop message) .threw
  | .leave => q.inHook fun call => q.endHook call .drained

/-- The message can be on top. -/
def OnTop (q : OrderedQueue) (message : Message) : Prop :=
  message ∈ q.mOrderedQueue ∧ ∀ other ∈ q.mOrderedQueue, message.getPriority ≤ other.getPriority

instance (q : OrderedQueue) (message : Message) : Decidable (q.OnTop message) :=
  inferInstanceAs (Decidable (_ ∧ _))

def isServing : QueueConsumer → Bool
  | .serving _ => true
  | _ => false

def isAsleep : QueueConsumer → Bool
  | .asleep _ => true
  | _ => false

/-- When a turn can happen: nobody else takes the lock while the hook has it. -/
def Enabled (q : OrderedQueue) : Turn → Prop
  | .addAndWakeup .. | .forcefulAwake .. => isServing q.consumer = false
  | .goOffline => True
  | .test => q.consumer = .looping
  | .lock => q.consumer = .entering
  | .wake => isAsleep q.consumer = true
  | .pop message => isServing q.consumer = true ∧ q.hasPendingTasks = true ∧ q.OnTop message
  | .throws message =>
    isServing q.consumer = true ∧ q.hasPendingTasks = true ∧ q.OnTop message ∧
      message.getPriority ≠ SERVER_CLEANUP_TRIGGER_PRIORITY
  | .leave => isServing q.consumer = true ∧ q.hasPendingTasks = false

instance (q : OrderedQueue) (turn : Turn) : Decidable (q.Enabled turn) :=
  match turn with
  | .addAndWakeup .. | .forcefulAwake .. | .test | .lock | .wake =>
    inferInstanceAs (Decidable (_ = _))
  | .goOffline => .isTrue trivial
  | .pop _ => inferInstanceAs (Decidable (_ ∧ _ ∧ _))
  | .throws _ => inferInstanceAs (Decidable (_ ∧ _ ∧ _ ∧ _))
  | .leave => inferInstanceAs (Decidable (_ ∧ _))

/-- The queue as a machine. -/
def machine : Machine OrderedQueue Turn where
  Enabled := Enabled
  next := next

instance (q : OrderedQueue) (turn : Turn) : Decidable (machine.Enabled q turn) :=
  inferInstanceAs (Decidable (q.Enabled turn))

/-! ## What a call of the hook does

The hook has the lock, so nothing comes in while it runs: what it has popped and what is left are
what was there when it began. -/

/-- What holds at any point of a call. -/
structure Sound (call : HookCall) : Prop where
  conserved : call.start.Perm (call.popped ++ call.left)
  sorted : call.popped.Pairwise fun message later => message.getPriority ≤ later.getPriority
  least : ∀ message ∈ call.popped, ∀ other ∈ call.left, message.getPriority ≤ other.getPriority

/-- What holds of a call that has ended: it drained the queue, or it found the trigger there and took
out nothing else. -/
structure Lawful (call : HookCall) (ending : Ending) : Prop extends Sound call where
  drained : ending = .drained → call.left = []
  trigger : ending = .trigger →
    ∃ message, call.popped = [message] ∧ message.getPriority = SERVER_CLEANUP_TRIGGER_PRIORITY
  noTrigger : ending ≠ .trigger →
    ∀ message ∈ call.start, SERVER_CLEANUP_TRIGGER_PRIORITY < message.getPriority

section Calls

variable {call : HookCall} {message : Message}

/-- At the start of a call nothing was taken out. -/
theorem sound_start (waiting : List Message) : Sound ⟨waiting, [], waiting⟩ where
  conserved := .refl _
  sorted := .nil
  least := by simp

/-- Taking out a message with the least priority keeps the order. -/
theorem Sound.pop (h : Sound call) (hmem : message ∈ call.left)
    (htop : ∀ other ∈ call.left, message.getPriority ≤ other.getPriority) :
    Sound (call.pop message) where
  conserved := by
    calc call.start.Perm (call.popped ++ call.left) := h.conserved
      _ |>.Perm (call.popped ++ message :: call.left.erase message) :=
        (List.perm_cons_erase hmem).append_left _
      _ = call.popped ++ [message] ++ call.left.erase message := by simp
  sorted := by
    refine List.pairwise_append.mpr ⟨h.sorted, List.pairwise_singleton .., ?_⟩
    intro earlier hearlier last hlast
    rw [List.mem_singleton.mp hlast]
    exact h.least earlier hearlier message hmem
  least := by
    intro earlier hearlier other hother
    have hleft : other ∈ call.left := List.mem_of_mem_erase hother
    rcases List.mem_append.mp hearlier with hpopped | hlast
    · exact h.least earlier hpopped other hleft
    · rw [List.mem_singleton.mp hlast]
      exact htop other hleft

/-- Where no trigger was popped and none is on top, there was none. -/
theorem Sound.noTrigger (h : Sound call)
    (hpopped : ∀ earlier ∈ call.popped, SERVER_CLEANUP_TRIGGER_PRIORITY < earlier.getPriority)
    (hleft : ∀ other ∈ call.left, SERVER_CLEANUP_TRIGGER_PRIORITY < other.getPriority) :
    ∀ first ∈ call.start, SERVER_CLEANUP_TRIGGER_PRIORITY < first.getPriority := by
  intro first hfirst
  rcases List.mem_append.mp (h.conserved.mem_iff.mp hfirst) with hmem | hmem
  · exact hpopped first hmem
  · exact hleft first hmem

/-- A trigger on top is the first message that the call takes out. -/
theorem Sound.popped_eq_nil (h : Sound call)
    (hpopped : ∀ earlier ∈ call.popped, SERVER_CLEANUP_TRIGGER_PRIORITY < earlier.getPriority)
    (hmem : message ∈ call.left) (htrigger : message.getPriority = SERVER_CLEANUP_TRIGGER_PRIORITY) :
    call.popped = [] := by
  refine List.eq_nil_iff_forall_not_mem.mpr fun earlier hearlier => ?_
  have habove := hpopped earlier hearlier
  have hle := h.least earlier hearlier message hmem
  omega

end Calls

/-! ## The invariant -/

/-- The counter, the messages, and the calls that have ended. -/
structure Messages (q : OrderedQueue) : Prop where
  count : q.mElementCount = q.mOrderedQueue.length
  conserved : q.accepted.Perm (q.popped ++ q.mOrderedQueue)
  bounded : ∀ message ∈ q.mOrderedQueue, SERVER_CLEANUP_TRIGGER_PRIORITY ≤ message.getPriority
  calls : ∀ ended ∈ q.calls, Lawful ended.1 ended.2

/-- What a call in progress knows, with the queue it takes from. -/
structure Serves (waiting : List Message) (call : HookCall) : Prop extends Sound call where
  left : call.left = waiting
  served : ∀ message ∈ call.popped, SERVER_CLEANUP_TRIGGER_PRIORITY < message.getPriority

/-- What the consumer knows where it is. -/
def Knows (waiting : List Message) : QueueConsumer → Prop
  | .asleep false => waiting = []
  | .serving call => Serves waiting call
  | .looping | .entering | .asleep true | .finished => True

/-- What holds between two turns. -/
structure Inv (q : OrderedQueue) : Prop extends Messages q where
  knows : Knows q.mOrderedQueue q.consumer

section Steps

variable {q : OrderedQueue} {message : Message} {call : HookCall} {turn : Turn}

/-- An empty queue, and a consumer that has not begun. -/
theorem inv_init : Inv init where
  count := rfl
  conserved := .nil
  bounded := by simp [init]
  calls := by simp [init]
  knows := trivial

/-- `addAndWakeup` takes a message of an admissible priority, or changes nothing. -/
theorem addAndWakeup_cases (q : OrderedQueue) (room : Bool) (queueItem : Option Message) :
    (q.addAndWakeup room queueItem).2 = q ∨
      ∃ message, queueItem = some message ∧
        SERVER_CLEANUP_TRIGGER_PRIORITY ≤ message.getPriority ∧
        (q.addAndWakeup room queueItem).2 = q.push message := by
  cases queueItem with
  | none => exact .inl rfl
  | some message =>
    unfold addAndWakeup
    dsimp only
    split_ifs with hlow hroom
    · exact .inl rfl
    · exact .inl rfl
    · exact .inr ⟨message, rfl, by omega, rfl⟩

/-- So does `forcefulAwake`. -/
theorem forcefulAwake_cases (q : OrderedQueue) (room : Bool) (block : Option Message) :
    q.forcefulAwake room block = q ∨
      ∃ message, SERVER_CLEANUP_TRIGGER_PRIORITY ≤ message.getPriority ∧
        q.forcefulAwake room block = q.push message := by
  cases block with
  | none => exact .inl rfl
  | some block =>
    rcases addAndWakeup_cases q room (some (cleanupMessage block)) with h | ⟨message, -, hlow, h⟩
    · exact .inl h
    · exact .inr ⟨message, hlow, h⟩

/-- Telling the consumer of a message leaves it with nothing to know. -/
theorem knows_notify_one {consumer : QueueConsumer} (hfree : isServing consumer = false)
    (waiting : List Message) : Knows waiting (notify_one consumer) := by
  cases consumer with
  | serving call => cases hfree
  | looping | entering | asleep _ | finished => trivial

theorem Messages.push (h : Messages q)
    (hlow : SERVER_CLEANUP_TRIGGER_PRIORITY ≤ message.getPriority) : Messages (q.push message) where
  count := by
    have hcount := h.count
    simp only [OrderedQueue.push, List.length_cons]
    omega
  conserved := by
    calc (q.accepted ++ [message]).Perm (message :: q.accepted) := List.perm_append_singleton ..
      _ |>.Perm (message :: (q.popped ++ q.mOrderedQueue)) := h.conserved.cons message
      _ |>.Perm (q.popped ++ message :: q.mOrderedQueue) := List.perm_middle.symm
  bounded := by
    intro other hother
    rcases List.mem_cons.mp hother with rfl | hother
    · exact hlow
    · exact h.bounded other hother
  calls := h.calls

theorem Messages.pop (h : Messages q) (htop : q.OnTop message) : Messages (q.pop message) where
  count := by
    have hlength := List.length_erase_of_mem htop.1
    have hpos := List.length_pos_of_mem htop.1
    have hcount := h.count
    simp only [OrderedQueue.pop, hlength]
    omega
  conserved := by
    calc q.accepted.Perm (q.popped ++ q.mOrderedQueue) := h.conserved
      _ |>.Perm (q.popped ++ message :: q.mOrderedQueue.erase message) :=
        (List.perm_cons_erase htop.1).append_left _
      _ = q.popped ++ [message] ++ q.mOrderedQueue.erase message := by simp
  bounded other hother := h.bounded other (List.mem_of_mem_erase hother)
  calls := h.calls

/-- A call that ends as it should is recorded, and the consumer is back in its loop. -/
theorem Messages.endHook {ending : Ending} (h : Messages q) (hlawful : Lawful call ending) :
    Inv (q.endHook call ending) where
  count := h.count
  conserved := h.conserved
  bounded := h.bounded
  calls := by
    intro ended hended
    rcases List.mem_append.mp hended with hold | hnew
    · exact h.calls ended hold
    · rw [List.mem_singleton.mp hnew]
      exact hlawful
  knows := trivial

/-- The consumer sleeps on an empty queue only, and begins a call with all that waits. -/
theorem Messages.tryHook (h : Messages q) : Inv q.tryHook := by
  have hcount := h.count
  unfold OrderedQueue.tryHook
  split_ifs with hempty
  · have hnil : q.mOrderedQueue = [] := List.eq_nil_of_length_eq_zero (by omega)
    exact { h with knows := hnil }
  · exact { h with knows := { sound_start q.mOrderedQueue with left := rfl, served := by simp } }

/-- The call goes on after a message that is no trigger. -/
theorem Serves.pop (h : Serves q.mOrderedQueue call) (htop : q.OnTop message)
    (habove : SERVER_CLEANUP_TRIGGER_PRIORITY < message.getPriority) :
    Serves (q.pop message).mOrderedQueue (call.pop message) where
  toSound := h.toSound.pop (h.left ▸ htop.1) (h.left ▸ htop.2)
  left := by simp only [HookCall.pop, OrderedQueue.pop, h.left]
  served := by
    intro other hother
    rcases List.mem_append.mp hother with hother | hother
    · exact h.served other hother
    · rw [List.mem_singleton.mp hother]
      exact habove

/-- With the trigger on top the call has popped nothing before. -/
theorem Serves.lawful_trigger (h : Serves q.mOrderedQueue call) (htop : q.OnTop message)
    (htrigger : message.getPriority = SERVER_CLEANUP_TRIGGER_PRIORITY) :
    Lawful (call.pop message) .trigger where
  toSound := h.toSound.pop (h.left ▸ htop.1) (h.left ▸ htop.2)
  drained hending := by cases hending
  trigger _ := by
    refine ⟨message, ?_, htrigger⟩
    rw [HookCall.pop, h.toSound.popped_eq_nil h.served (h.left ▸ htop.1) htrigger]
    rfl
  noTrigger hending := absurd rfl hending

/-- Without a trigger on top there is none in the whole call. -/
theorem Serves.lawful_threw (h : Serves q.mOrderedQueue call) (htop : q.OnTop message)
    (habove : SERVER_CLEANUP_TRIGGER_PRIORITY < message.getPriority) :
    Lawful (call.pop message) .threw where
  toSound := (h.pop htop habove).toSound
  drained hending := by cases hending
  trigger hending := by cases hending
  noTrigger _ := by
    refine (h.pop htop habove).toSound.noTrigger (h.pop htop habove).served fun other hother => ?_
    have hmem := h.left ▸ List.mem_of_mem_erase hother
    have hle := htop.2 other hmem
    omega

/-- A call that finds the queue empty has drained it. -/
theorem Serves.lawful_drained (h : Serves q.mOrderedQueue call) (hempty : q.mOrderedQueue = []) :
    Lawful call .drained where
  toSound := h.toSound
  drained _ := h.left.trans hempty
  trigger hending := by cases hending
  noTrigger _ := by
    refine h.toSound.noTrigger h.served fun other hother => ?_
    rw [h.left, hempty] at hother
    cases hother

/-- Without pending tasks the queue is empty. -/
theorem Messages.mOrderedQueue_eq_nil (h : Messages q) (hpending : q.hasPendingTasks = false) :
    q.mOrderedQueue = [] := by
  have hcount := h.count
  have hnot : ¬ 0 < q.mElementCount := of_decide_eq_false hpending
  exact List.eq_nil_of_length_eq_zero (by omega)

/-- A turn of the hook happens in a call in progress. -/
theorem Inv.exists_call (h : Inv q) (hserving : isServing q.consumer = true) :
    ∃ call, q.consumer = .serving call ∧ Serves q.mOrderedQueue call := by
  have hknows := h.knows
  cases hconsumer : q.consumer with
  | serving call =>
    rw [hconsumer] at hknows
    exact ⟨call, rfl, hknows⟩
  | looping | entering | asleep _ | finished => simp [hconsumer, isServing] at hserving

theorem inHook_of_serving (hserving : q.consumer = .serving call) (turn : HookCall → OrderedQueue) :
    q.inHook turn = turn call := by
  rw [inHook, hserving]

/-- Outside of a call any thread may push; the consumer is woken. -/
theorem Inv.push (h : Inv q) (hfree : isServing q.consumer = false)
    (hlow : SERVER_CLEANUP_TRIGGER_PRIORITY ≤ message.getPriority) : Inv (q.push message) where
  toMessages := h.toMessages.push hlow
  knows := knows_notify_one hfree _

/-- What is no trigger is above it. -/
theorem Inv.above (h : Inv q) (hmem : message ∈ q.mOrderedQueue)
    (hnot : message.getPriority ≠ SERVER_CLEANUP_TRIGGER_PRIORITY) :
    SERVER_CLEANUP_TRIGGER_PRIORITY < message.getPriority := by
  have hle := h.bounded message hmem
  omega

/-- **Every turn keeps the invariant**, whichever thread takes it. -/
theorem inv_next (h : Inv q) (henabled : q.Enabled turn) : Inv (q.next turn) := by
  cases turn with
  | addAndWakeup room queueItem =>
    rw [next]
    rcases addAndWakeup_cases q room queueItem with heq | ⟨message, -, hlow, heq⟩
    · rwa [heq]
    · rw [heq]
      exact h.push henabled hlow
  | forcefulAwake room block =>
    rw [next]
    rcases forcefulAwake_cases q room block with heq | ⟨message, hlow, heq⟩
    · rwa [heq]
    · rw [heq]
      exact h.push henabled hlow
  | goOffline => exact ⟨⟨h.count, h.conserved, h.bounded, h.calls⟩, h.knows⟩
  | test =>
    refine ⟨⟨h.count, h.conserved, h.bounded, h.calls⟩, ?_⟩
    rw [next]
    cases q.serverOnlineStatus <;> trivial
  | lock | wake => exact h.toMessages.tryHook
  | pop message =>
    obtain ⟨hserving, -, htop⟩ := henabled
    obtain ⟨call, hserving, hserves⟩ := h.exists_call hserving
    rw [next, inHook_of_serving hserving, serve]
    split_ifs with htrigger
    · exact (h.toMessages.pop htop).endHook (hserves.lawful_trigger htop htrigger)
    · have hmessages := h.toMessages.pop htop
      exact ⟨⟨hmessages.count, hmessages.conserved, hmessages.bounded, hmessages.calls⟩,
        hserves.pop htop (h.above htop.1 htrigger)⟩
  | throws message =>
    obtain ⟨hserving, -, htop, hnot⟩ := henabled
    obtain ⟨call, hserving, hserves⟩ := h.exists_call hserving
    rw [next, inHook_of_serving hserving]
    exact (h.toMessages.pop htop).endHook (hserves.lawful_threw htop (h.above htop.1 hnot))
  | leave =>
    obtain ⟨call, hserving, hserves⟩ := h.exists_call henabled.1
    rw [next, inHook_of_serving hserving]
    have hempty := h.toMessages.mOrderedQueue_eq_nil henabled.2
    exact h.toMessages.endHook (hserves.lawful_drained hempty)

/-- The invariant along a run. -/
theorem inv_of_run {turns : List Turn} (h : Inv q) (hrun : machine.Run q turns) :
    Inv (machine.exec q turns) :=
  hrun.invariant h fun _ _ => inv_next

/-- The invariant in every state that the threads reach. -/
theorem inv_exec {turns : List Turn} (hrun : machine.Run init turns) :
    Inv (machine.exec init turns) :=
  inv_of_run inv_init hrun

end Steps

/-- No message is lost or made up, the counter counts those that wait, none is below the trigger, and
the consumer never sleeps without having been told of what waits. -/
theorem messages_of_run {turns : List Turn} (hrun : machine.Run init turns) :
    (machine.exec init turns).accepted.Perm
        ((machine.exec init turns).popped ++ (machine.exec init turns).mOrderedQueue) ∧
      (machine.exec init turns).mElementCount = (machine.exec init turns).mOrderedQueue.length ∧
      (∀ message ∈ (machine.exec init turns).mOrderedQueue,
        SERVER_CLEANUP_TRIGGER_PRIORITY ≤ message.getPriority) ∧
      ((machine.exec init turns).consumer = .asleep false →
        (machine.exec init turns).mOrderedQueue = []) := by
  have h := inv_exec hrun
  refine ⟨h.conserved, h.count, h.bounded, fun hasleep => ?_⟩
  have hknows := h.knows
  rw [hasleep] at hknows
  exact hknows

/-- Every call of the hook serves what waited when it began, in the order of the priorities: all of it,
or up to the message whose handling throws, or, if the trigger is there, the trigger alone. -/
theorem hookCalls_of_run {turns : List Turn} (hrun : machine.Run init turns) :
    ∀ ended ∈ (machine.exec init turns).calls, Lawful ended.1 ended.2 :=
  (inv_exec hrun).calls

section Sample

/-- A tune request of some priority. -/
def sampleMessage (priority : Int) : Message where
  mReqType := .REQ_RESOURCE_TUNING
  mHandle := 1
  mDuration := -1
  mProperties := BitVec.ofInt 32 priority
  mClientPID := 7
  mClientTID := 7

/-- Two requests come while the consumer sleeps, the less urgent one first; then `tear` comes. -/
def sampleTurns : List Turn :=
  [.test, .lock, .addAndWakeup true (some (sampleMessage 3)),
    .addAndWakeup true (some (sampleMessage 0)), .wake, .pop (sampleMessage 0),
    .pop (sampleMessage 3), .leave, .test, .lock, .goOffline,
    .forcefulAwake true (some (sampleMessage 0))]

theorem run_sampleTurns : machine.Run init sampleTurns := by decide

theorem messages_of_sampleTurns :
    (machine.exec init sampleTurns).accepted.Perm
      ((machine.exec init sampleTurns).popped ++ (machine.exec init sampleTurns).mOrderedQueue) :=
  (messages_of_run run_sampleTurns).1

theorem hookCalls_of_sampleTurns :
    Lawful ⟨[sampleMessage 0, sampleMessage 3], [sampleMessage 0, sampleMessage 3], []⟩ .drained :=
  hookCalls_of_run run_sampleTurns
    (⟨[sampleMessage 0, sampleMessage 3], [sampleMessage 0, sampleMessage 3], []⟩, .drained)
    (by decide)

end Sample

/-! ## The end of the thread -/

/-- The turns the consumer still has in front of it when the server is offline. -/
def remaining : QueueConsumer → Nat
  | .finished => 0
  | .looping => 1
  | .serving _ => 2
  | .entering | .asleep _ => 3

/-- The server is offline, and the trigger waits for a consumer that does not see that. -/
structure Stopping (q : OrderedQueue) : Prop where
  offline : q.serverOnlineStatus = false
  trigger : 1 < remaining q.consumer →
    ∃ message ∈ q.mOrderedQueue, message.getPriority = SERVER_CLEANUP_TRIGGER_PRIORITY

section Stopping

variable {q : OrderedQueue} {message : Message} {turn : Turn}

theorem remaining_notify_one (consumer : QueueConsumer) :
    remaining (notify_one consumer) = remaining consumer := by
  cases consumer <;> rfl

/-- A consumer that is told to stop needs no more than three turns. -/
theorem remaining_le (consumer : QueueConsumer) : remaining consumer ≤ 3 := by
  cases consumer <;> simp [remaining]

/-- With the trigger in the queue, only triggers are on top. -/
theorem Stopping.onTop (h : Stopping q) (hinv : Inv q) (hserving : isServing q.consumer = true)
    (htop : q.OnTop message) : message.getPriority = SERVER_CLEANUP_TRIGGER_PRIORITY := by
  obtain ⟨call, hcall, -⟩ := hinv.exists_call hserving
  obtain ⟨trigger, hmem, htrigger⟩ := h.trigger (by simp [hcall, remaining])
  have hle := htop.2 trigger hmem
  have hlow := hinv.bounded message htop.1
  omega

/-- The trigger itself can be on top. -/
theorem Stopping.exists_onTop (h : Stopping q) (hinv : Inv q) (hserving : isServing q.consumer = true) :
    ∃ message, q.OnTop message := by
  obtain ⟨call, hcall, -⟩ := hinv.exists_call hserving
  obtain ⟨trigger, hmem, htrigger⟩ := h.trigger (by simp [hcall, remaining])
  refine ⟨trigger, hmem, fun other hother => ?_⟩
  have hlow := hinv.bounded other hother
  omega

theorem Stopping.push (h : Stopping q) : Stopping (q.push message) where
  offline := h.offline
  trigger hremaining := by
    obtain ⟨trigger, hmem, htrigger⟩ := h.trigger (by
      rwa [OrderedQueue.push, remaining_notify_one] at hremaining)
    exact ⟨trigger, List.mem_cons_of_mem _ hmem, htrigger⟩

/-- Where a turn leaves a queue that is stopping. -/
structure Stops (q q' : OrderedQueue) (turn : Turn) : Prop where
  stopping : Stopping q'
  remaining : remaining q'.consumer + (if turn.isConsumer then 1 else 0) ≤ remaining q.consumer
  popped : ∃ triggers, q'.popped = q.popped ++ triggers ∧
    ∀ message ∈ triggers, message.getPriority = SERVER_CLEANUP_TRIGGER_PRIORITY

theorem Stopping.stops_self (h : Stopping q) (hturn : turn.isConsumer = false) : Stops q q turn where
  stopping := h
  remaining := by simp [hturn]
  popped := ⟨[], by simp⟩

theorem Stopping.stops_push (h : Stopping q) (hturn : turn.isConsumer = false) :
    Stops q (q.push message) turn where
  stopping := h.push
  remaining := by simp [hturn, OrderedQueue.push, remaining_notify_one]
  popped := ⟨[], by simp [OrderedQueue.push]⟩

/-- A consumer that sleeps or is about to look finds the trigger. -/
theorem Stopping.stops_tryHook (h : Stopping q) (hinv : Inv q) (hconsumer : remaining q.consumer = 3)
    (hturn : turn.isConsumer = true) : Stops q q.tryHook turn := by
  obtain ⟨trigger, hmem, htrigger⟩ := h.trigger (by omega)
  have hcount := hinv.count
  have hpos := List.length_pos_of_mem hmem
  have hne : ¬ q.mElementCount = 0 := by omega
  rw [OrderedQueue.tryHook, if_neg hne]
  exact {
    stopping := ⟨h.offline, fun _ => ⟨trigger, hmem, htrigger⟩⟩
    remaining := by
      rw [hconsumer, hturn]
      exact le_refl 3
    popped := ⟨[], by simp⟩ }

/-- **Every turn of a queue that is stopping** leaves it stopping: the consumer has one turn less,
and pops nothing but triggers. -/
theorem Stopping.stops (h : Stopping q) (hinv : Inv q) (henabled : q.Enabled turn) :
    Stops q (q.next turn) turn := by
  cases turn with
  | addAndWakeup room queueItem =>
    rw [next]
    rcases addAndWakeup_cases q room queueItem with heq | ⟨message, -, -, heq⟩
    · rw [heq]
      exact h.stops_self rfl
    · rw [heq]
      exact h.stops_push rfl
  | forcefulAwake room block =>
    rw [next]
    rcases forcefulAwake_cases q room block with heq | ⟨message, -, heq⟩
    · rw [heq]
      exact h.stops_self rfl
    · rw [heq]
      exact h.stops_push rfl
  | goOffline => exact ⟨⟨rfl, h.trigger⟩, by simp [next, Turn.isConsumer], [], by simp [next]⟩
  | test =>
    have hconsumer : q.consumer = .looping := henabled
    have hfinished : (q.next .test).consumer = .finished := by simp [next, h.offline]
    exact ⟨⟨h.offline, fun hremaining => by simp [hfinished, remaining] at hremaining⟩,
      by simp [hfinished, hconsumer, remaining, Turn.isConsumer], [], by simp [next]⟩
  | lock =>
    have hconsumer : q.consumer = .entering := henabled
    exact h.stops_tryHook hinv (by rw [hconsumer]; rfl) rfl
  | wake =>
    refine h.stops_tryHook hinv ?_ rfl
    have hasleep : isAsleep q.consumer = true := henabled
    cases hconsumer : q.consumer <;> simp [hconsumer, isAsleep, remaining] at hasleep ⊢
  | pop message =>
    obtain ⟨hserving, -, htop⟩ := henabled
    have htrigger := h.onTop hinv hserving htop
    obtain ⟨call, hcall, -⟩ := hinv.exists_call hserving
    rw [next, inHook_of_serving hcall, serve, if_pos htrigger]
    exact ⟨⟨h.offline, fun hremaining => by simp [endHook, remaining] at hremaining⟩,
      by simp [hcall, endHook, remaining, Turn.isConsumer], [message], rfl, by simpa using htrigger⟩
  | throws message =>
    obtain ⟨hserving, -, htop, hnot⟩ := henabled
    exact absurd (h.onTop hinv hserving htop) hnot
  | leave =>
    obtain ⟨hserving, hpending⟩ := henabled
    obtain ⟨call, hcall, -⟩ := hinv.exists_call hserving
    obtain ⟨trigger, hmem, -⟩ := h.trigger (by simp [hcall, remaining])
    rw [hinv.toMessages.mOrderedQueue_eq_nil hpending] at hmem
    cases hmem

/-- The turns of a run from a queue that is stopping. -/
theorem Stopping.of_run {turns : List Turn} (h : Stopping q) (hinv : Inv q)
    (hrun : machine.Run q turns) :
    Stopping (machine.exec q turns) ∧
      remaining (machine.exec q turns).consumer + turns.countP Turn.isConsumer ≤
        remaining q.consumer ∧
      ∃ triggers, (machine.exec q turns).popped = q.popped ++ triggers ∧
        ∀ message ∈ triggers, message.getPriority = SERVER_CLEANUP_TRIGGER_PRIORITY := by
  induction turns generalizing q with
  | nil => exact ⟨h, le_refl _, [], by simp⟩
  | cons turn turns ih =>
    obtain ⟨henabled, hrest⟩ := hrun
    obtain ⟨hstopping, hremaining, first, hfirst, htriggers⟩ := h.stops hinv henabled
    obtain ⟨hlast, hcount, more, hmore, hmoreTriggers⟩ :=
      ih hstopping (inv_next hinv henabled) hrest
    refine ⟨hlast, ?_, first ++ more, ?_, ?_⟩
    · rw [List.countP_cons]
      exact (Nat.add_assoc ..).symm.le.trans ((Nat.add_le_add_right hcount _).trans hremaining)
    · calc (machine.exec (q.next turn) turns).popped = (q.next turn).popped ++ more := hmore
        _ = q.popped ++ first ++ more := by rw [hfirst]
        _ = q.popped ++ (first ++ more) := List.append_assoc ..
    · intro message hmem
      rcases List.mem_append.mp hmem with hmem | hmem
      · exact htriggers message hmem
      · exact hmoreTriggers message hmem

/-- While it has not finished the consumer has a turn that nobody has to give it. -/
theorem Stopping.exists_enabled (h : Stopping q) (hinv : Inv q) :
    q.consumer = .finished ∨ q.consumer ≠ .asleep false ∧
      ∃ turn, turn.isConsumer = true ∧ machine.Enabled q turn := by
  cases hconsumer : q.consumer with
  | finished => exact .inl rfl
  | looping => exact .inr ⟨(fun hasleep => by cases hasleep), .test, rfl, hconsumer⟩
  | entering => exact .inr ⟨(fun hasleep => by cases hasleep), .lock, rfl, hconsumer⟩
  | asleep notified =>
    obtain ⟨trigger, hmem, -⟩ := h.trigger (by simp [hconsumer, remaining])
    refine .inr ⟨fun hasleep => ?_, .wake, rfl, ?_⟩
    · have hknows := hinv.knows
      rw [hconsumer, hasleep] at hknows
      rw [show q.mOrderedQueue = [] from hknows] at hmem
      cases hmem
    · show isAsleep q.consumer = true
      rw [hconsumer]
      rfl
  | serving call =>
    have hserving : isServing q.consumer = true := by
      rw [hconsumer]
      rfl
    obtain ⟨message, htop⟩ := h.exists_onTop hinv hserving
    have hcount := hinv.count
    have hpos := List.length_pos_of_mem htop.1
    refine .inr ⟨(fun hasleep => by cases hasleep), .pop message, rfl, hserving, ?_, htop⟩
    exact decide_eq_true (by omega)

end Stopping

/-- Once the server is offline and the trigger waits, the consumer thread takes at most three more
turns, serves nothing but triggers, and can always go on until it has finished. -/
theorem ends_of_run (before after : List Turn) (hrun : machine.Run init (before ++ after))
    (hoffline : (machine.exec init before).serverOnlineStatus = false)
    (htrigger : ∃ message ∈ (machine.exec init before).mOrderedQueue,
      message.getPriority = SERVER_CLEANUP_TRIGGER_PRIORITY) :
    after.countP Turn.isConsumer ≤ 3 ∧
      (∃ triggers, (machine.exec init (before ++ after)).popped =
          (machine.exec init before).popped ++ triggers ∧
        ∀ message ∈ triggers, message.getPriority = SERVER_CLEANUP_TRIGGER_PRIORITY) ∧
      ((machine.exec init (before ++ after)).consumer = .finished ∨
        (machine.exec init (before ++ after)).consumer ≠ .asleep false ∧
          ∃ turn, turn.isConsumer = true ∧
            machine.Enabled (machine.exec init (before ++ after)) turn) := by
  obtain ⟨hbefore, hafter⟩ := Machine.steps_append.mp hrun
  have hinv := inv_exec hbefore
  obtain ⟨hstopping, hcount, hpopped⟩ :=
    Stopping.of_run ⟨hoffline, fun _ => htrigger⟩ hinv hafter
  have hle := remaining_le (machine.exec init before).consumer
  rw [Machine.exec_append]
  exact ⟨by omega, hpopped, hstopping.exists_enabled (inv_of_run hinv hafter)⟩

theorem ends_of_sampleTurns :
    [Turn.wake, .pop (cleanupMessage (sampleMessage 0)), .test].countP Turn.isConsumer ≤ 3 :=
  (ends_of_run sampleTurns _ (by decide) (by decide) (by decide)).1

end OrderedQueue

end ResourceTuner
