import ResourceTuner.Core.CocoTable
import ResourceTuner.Core.RequestHandler
import ResourceTuner.Core.RequestManager
import ResourceTuner.Lib.Machine

/-!
# The server

`processIncomingRequest` runs on a pool of worker threads, one message each, and
`orderedQueueConsumerHook` runs on one consumer thread.  The threads meet in the client tables, the
request manager and the queue, each behind a lock of its own, so an execution of the server is an
interleaving of the calls that take a lock.  Here a worker is the `Stage` of its message, the call
it makes next; the consumer is a `Consumer`; and one `Event` lets one of them make one call.

* **`Server`** — the shared stores and the position of every thread;
* **`work`** — the calls of `processIncomingRequest`;
* **`pop`, `consume`** — the calls of `orderedQueueConsumerHook`;
* **`machine`** — the interleavings.

A pointer stands for one message and is not given out again, so what was freed twice or used after
it was freed can be told.  The consumer keeps the queue locked while it drains it; the model lets a
worker enqueue at any time, which only adds interleavings.
-/

namespace ResourceTuner

/-- Where a message is: the next call of its worker, or what has become of it. -/
inductive Stage where
  | unused
  | globalRateLimit | clientCheck | createClient | disable | rateLimit | verifyHandle | verify
  | shouldBeAdded | add | enqueue
  | queued
  /-- popped by the consumer, which works on it -/
  | held
  /-- a tune request that was inserted in the table -/
  | live
  | freed
  /-- dropped without being freed: refused by the queue, or popped as the clean-up trigger -/
  | lost
  deriving DecidableEq, Repr

/-- The worker of the message has a call to make. -/
def Stage.working : Stage → Bool
  | .unused | .queued | .held | .live | .freed | .lost => false
  | _ => true

/-- The next call of the consumer, with the popped message and the tune request it is about. -/
inductive Consumer where
  | idle
  | status (req : ReqPtr)
  | mark (req : ReqPtr)
  | insert (req : ReqPtr)
  /-- untrack and free a tune request that was cancelled, or could not be inserted -/
  | discard (req : ReqPtr)
  | find (req : ReqPtr)
  | update (req matchingTuneReq : ReqPtr) (processingStatus : BitVec 8)
  | remove (req matchingTuneReq : ReqPtr)
  | untrack (req matchingTuneReq : ReqPtr)
  /-- a null timer was dereferenced -/
  | crashed (req : ReqPtr)
  deriving DecidableEq, Repr

/-- The popped message. -/
def Consumer.item : Consumer → Option ReqPtr
  | .idle => none
  | .status req => some req
  | .mark req => some req
  | .insert req => some req
  | .discard req => some req
  | .find req => some req
  | .update req _ _ => some req
  | .remove req _ => some req
  | .untrack req _ => some req
  | .crashed req => some req

/-- What the world outside answers to a call: the allocations and the file read of
`createNewClient`, the clock of the rate limiter, the memory pool and the timer threads. -/
structure Answer where
  creation : ClientDataManager.CreationOutcome
  rateLimitHonored : Bool
  timerBlock : Option Nat
  enqueued : Bool

/-- The shared stores and the position of every thread.  `received` lists the messages so far,
`cleaned` the calls of `cleanUpRequest`, each with the table at the time; the newest come first. -/
structure Server where
  heap : Heap
  tracker : Tracker
  table : CocoTable
  isValidated : ReqPtr → Bool
  stage : ReqPtr → Stage
  consumer : Consumer
  received : List ReqPtr
  cleaned : List (ReqPtr × CocoTable)

namespace Server

/-- The map of active requests. -/
def active (s : Server) : UnorderedMap Int RequestInfo := s.tracker.manager.mActiveRequests

/-- A server that has received nothing. -/
def init (heap : Heap) : Server where
  heap := heap
  tracker := ⟨.new, .empty⟩
  table := .new
  isValidated _ := false
  stage _ := .unused
  consumer := .idle
  received := []
  cleaned := []

/-! ## Workers -/

/-- The message moves on. -/
def goto (s : Server) (req : ReqPtr) (stage : Stage) : Server :=
  { s with stage := Function.update s.stage req stage }

/-- `Request::cleanUpRequest`.  The block keeps its contents here; nobody may look at them. -/
def cleanUpRequest (s : Server) (req : ReqPtr) : Server :=
  { s.goto req .freed with cleaned := (req, s.table) :: s.cleaned }

/-- Go on if the call answered true, free the request otherwise. -/
def proceed (s : Server) (req : ReqPtr) (answer : Bool) (stage : Stage) : Server :=
  if answer then s.goto req stage else s.cleanUpRequest req

/-- `addAndWakeup`.  A refused message is not freed, neither here nor by the caller. -/
def addAndWakeup (s : Server) (req : ReqPtr) : Server :=
  if (s.heap req).getPriority < SERVER_CLEANUP_TRIGGER_PRIORITY then s.goto req .lost
  else s.goto req .queued

section Moves

variable {s : Server} {req r : ReqPtr} {stage : Stage} {b : Bool}

/-- A step to another stage is a step of one message, and of nothing but its stage. -/
@[simp] theorem goto_stage_self : (s.goto req stage).stage req = stage := Function.update_self _ _ _

/-- The other messages stay where they are. -/
theorem goto_stage_of_ne (h : r ≠ req) : (s.goto req stage).stage r = s.stage r :=
  Function.update_of_ne h _ _

@[simp] theorem goto_heap : (s.goto req stage).heap = s.heap := rfl
@[simp] theorem goto_tracker : (s.goto req stage).tracker = s.tracker := rfl
@[simp] theorem goto_consumer : (s.goto req stage).consumer = s.consumer := rfl
@[simp] theorem goto_received : (s.goto req stage).received = s.received := rfl

/-- Freeing a message is a step as well. -/
@[simp] theorem cleanUpRequest_stage_self : (s.cleanUpRequest req).stage req = .freed :=
  Function.update_self _ _ _

/-- It frees no other message. -/
theorem cleanUpRequest_stage_of_ne (h : r ≠ req) : (s.cleanUpRequest req).stage r = s.stage r :=
  Function.update_of_ne h _ _

/-- What the message holds is still there: a later read of it is a use after it was freed. -/
@[simp] theorem cleanUpRequest_heap : (s.cleanUpRequest req).heap = s.heap := rfl
@[simp] theorem cleanUpRequest_tracker : (s.cleanUpRequest req).tracker = s.tracker := rfl
@[simp] theorem cleanUpRequest_consumer : (s.cleanUpRequest req).consumer = s.consumer := rfl
@[simp] theorem cleanUpRequest_received : (s.cleanUpRequest req).received = s.received := rfl

/-- After a call the message goes on, or it is freed. -/
@[simp] theorem proceed_stage_self :
    (s.proceed req b stage).stage req = if b then stage else .freed := by
  cases b <;> simp [proceed]

/-- The other messages are not concerned. -/
theorem proceed_stage_of_ne (h : r ≠ req) : (s.proceed req b stage).stage r = s.stage r := by
  cases b
  · exact cleanUpRequest_stage_of_ne h
  · exact goto_stage_of_ne h

/-- Neither way changes what messages hold, the tables of the clients or the consumer. -/
@[simp] theorem proceed_heap : (s.proceed req b stage).heap = s.heap := by cases b <;> rfl
@[simp] theorem proceed_tracker : (s.proceed req b stage).tracker = s.tracker := by cases b <;> rfl
@[simp] theorem proceed_consumer : (s.proceed req b stage).consumer = s.consumer := by
  cases b <;> rfl
@[simp] theorem proceed_received : (s.proceed req b stage).received = s.received := by
  cases b <;> rfl

/-- The queue takes a message or refuses it; both are a step of that message, and so the fields of
the server are as they were. -/
theorem addAndWakeup_eq_goto (s : Server) (req : ReqPtr) :
    ∃ stage, s.addAndWakeup req = s.goto req stage := by
  unfold addAndWakeup
  split <;> exact ⟨_, rfl⟩

/-- The message itself is not written. -/
@[simp] theorem addAndWakeup_heap : (s.addAndWakeup req).heap = s.heap := by
  obtain ⟨stage, h⟩ := addAndWakeup_eq_goto s req
  rw [h, goto_heap]

/-- The tables of the clients are not touched. -/
@[simp] theorem addAndWakeup_tracker : (s.addAndWakeup req).tracker = s.tracker := by
  obtain ⟨stage, h⟩ := addAndWakeup_eq_goto s req
  rw [h, goto_tracker]

/-- The consumer is where it was, even if it has been woken. -/
@[simp] theorem addAndWakeup_consumer : (s.addAndWakeup req).consumer = s.consumer := by
  obtain ⟨stage, h⟩ := addAndWakeup_eq_goto s req
  rw [h, goto_consumer]

/-- No message arrives. -/
@[simp] theorem addAndWakeup_received : (s.addAndWakeup req).received = s.received := by
  obtain ⟨stage, h⟩ := addAndWakeup_eq_goto s req
  rw [h, goto_received]

/-- And none is verified. -/
@[simp] theorem addAndWakeup_isValidated : (s.addAndWakeup req).isValidated = s.isValidated := by
  obtain ⟨stage, h⟩ := addAndWakeup_eq_goto s req
  rw [h]
  rfl

/-- The other messages stay where they are. -/
theorem addAndWakeup_stage_of_ne (h : r ≠ req) : (s.addAndWakeup req).stage r = s.stage r := by
  obtain ⟨stage, heq⟩ := addAndWakeup_eq_goto s req
  rw [heq, goto_stage_of_ne h]

end Moves

/-- `isGlobalRateLimitHonored`. -/
def isGlobalRateLimitHonored (env : Env) (m : RequestManager) : Bool :=
  !decide (m.getActiveReqeustsCount ≥ env.metaConfigs.mMaxConcurrentRequests)

/-- One call of `processIncomingRequest` on a message. -/
def work (env : Env) (s : Server) (req : ReqPtr) (answer : Answer) : Server :=
  let request := s.heap req
  let maxRequests := env.metaConfigs.mMaxConcurrentRequests
  match s.stage req with
  | .globalRateLimit =>
    s.proceed req (isGlobalRateLimitHonored env s.tracker.manager) .clientCheck
  | .clientCheck =>
    let known := s.tracker.clients.clientExists request.mClientPID request.mClientTID
    match request.mReqType with
    | .REQ_RESOURCE_TUNING => s.goto req (if known then .rateLimit else .createClient)
    | .REQ_RESOURCE_UNTUNING => s.proceed req known .disable
    | _ => s.proceed req known .rateLimit
  | .createClient =>
    let created :=
      s.tracker.clients.createNewClient request.mClientPID request.mClientTID answer.creation
    ({ s with tracker := { s.tracker with clients := created.2 } }).proceed req created.1 .rateLimit
  | .disable =>
    let disabled := RequestManager.disableRequestProcessing s.tracker request.mHandle
    ({ s with tracker := disabled.2 }).proceed req disabled.1 .rateLimit
  | .rateLimit =>
    -- trusted clients skip the check
    s.proceed req (s.isValidated req || answer.rateLimitHonored)
      (if request.mReqType = .REQ_RESOURCE_TUNING then .verify else .verifyHandle)
  | .verifyHandle => s.proceed req (s.tracker.manager.verifyHandle request.mHandle) .enqueue
  | .verify =>
    if s.isValidated req then s.goto req .shouldBeAdded
    else
      match VerifyIncomingRequest env s.tracker.clients request with
      | none => s.cleanUpRequest req
      | some request' =>
        ({ s with heap := Function.update s.heap req request' }).goto req .shouldBeAdded
  | .shouldBeAdded =>
    let checked := RequestManager.shouldRequestBeAdded maxRequests s.heap s.tracker request
    ({ s with tracker := checked.2 }).proceed req checked.1 .add
  | .add =>
    let added := RequestManager.addRequest maxRequests s.heap s.tracker req
    ({ s with tracker := added.2 }).proceed req added.1 .enqueue
  | .enqueue => s.addAndWakeup req
  | _ => s

/-! ## The consumer -/

/-- The consumer's next call. -/
def turn (s : Server) (consumer : Consumer) : Server := { s with consumer := consumer }

/-- Take a message off the queue.  The clean-up trigger ends the drain before the message is
looked at. -/
def pop (s : Server) (req : ReqPtr) : Server :=
  if (s.heap req).getPriority = SERVER_CLEANUP_TRIGGER_PRIORITY then s.goto req .lost
  else if (s.heap req).mReqType = .REQ_RESOURCE_TUNING then (s.goto req .held).turn (.status req)
  else (s.goto req .held).turn (.find req)

section Pop

variable {s : Server} {req r : ReqPtr}

/-- To take a message off the queue is a step of the message and one of the consumer, who holds it
from then on; of the clean-up trigger nobody takes care any more. -/
theorem pop_eq_goto (s : Server) (req : ReqPtr) :
    ∃ stage consumer, s.pop req = (s.goto req stage).turn consumer := by
  unfold pop
  split
  · exact ⟨.lost, s.consumer, rfl⟩
  · split <;> exact ⟨.held, _, rfl⟩

/-- The message is not written. -/
@[simp] theorem pop_heap : (s.pop req).heap = s.heap := by
  obtain ⟨stage, consumer, h⟩ := pop_eq_goto s req
  rw [h]
  rfl

/-- The tables of the clients are not touched before the message is looked at. -/
@[simp] theorem pop_tracker : (s.pop req).tracker = s.tracker := by
  obtain ⟨stage, consumer, h⟩ := pop_eq_goto s req
  rw [h]
  rfl

/-- No message arrives. -/
@[simp] theorem pop_received : (s.pop req).received = s.received := by
  obtain ⟨stage, consumer, h⟩ := pop_eq_goto s req
  rw [h]
  rfl

/-- Nothing is applied yet. -/
@[simp] theorem pop_table : (s.pop req).table = s.table := by
  obtain ⟨stage, consumer, h⟩ := pop_eq_goto s req
  rw [h]
  rfl

/-- And none is verified. -/
@[simp] theorem pop_isValidated : (s.pop req).isValidated = s.isValidated := by
  obtain ⟨stage, consumer, h⟩ := pop_eq_goto s req
  rw [h]
  rfl

/-- The other messages stay where they are. -/
theorem pop_stage_of_ne (h : r ≠ req) : (s.pop req).stage r = s.stage r := by
  obtain ⟨stage, consumer, heq⟩ := pop_eq_goto s req
  rw [heq]
  exact goto_stage_of_ne h

end Pop

/-- One call of `orderedQueueConsumerHook` on the popped message. -/
def consume (env : Env) (s : Server) (answer : Answer) : Server :=
  match s.consumer with
  | .idle => s
  | .status req =>
    let status := s.tracker.manager.getRequestProcessingStatus (s.heap req).mHandle
    if hasBit status REQ_CANCELLED ∨ hasBit status REQ_COMPLETED then s.turn (.discard req)
    else s.turn (.mark req)
  | .mark req =>
    ({ s with
      tracker := RequestManager.markRequestAsComplete s.tracker (s.heap req).mHandle }).turn
        (.insert req)
  | .insert req =>
    let inserted := s.table.insertRequest env (s.heap req) answer.timerBlock answer.enqueued
    let s := { s with
      table := inserted.2.1
      heap := Function.update s.heap req inserted.2.2 }
    if inserted.1 then (s.goto req .live).turn .idle else s.turn (.discard req)
  | .discard req =>
    ({ s with tracker := RequestManager.removeRequest s.heap s.tracker req }).cleanUpRequest req
      |>.turn .idle
  | .find req =>
    let matchingTuneReq := s.tracker.manager.getRequestFromMap (s.heap req).mHandle
    let processingStatus := matchingTuneReq.2
    match matchingTuneReq.1 with
    | none => (s.cleanUpRequest req).turn .idle
    | some target =>
      if hasBit processingStatus REQ_NOT_FOUND then (s.cleanUpRequest req).turn .idle
      else
        match (s.heap req).mReqType with
        | .REQ_RESOURCE_UNTUNING =>
          -- ensure that the request has entered the table
          if !hasBit processingStatus REQ_COMPLETED then (s.cleanUpRequest req).turn .idle
          else s.turn (.remove req target)
        | .REQ_RESOURCE_RETUNING => s.turn (.update req target processingStatus)
        | _ => s.turn .idle
  | .update req target processingStatus =>
    let newDuration := (s.heap req).mDuration
    if !hasBit processingStatus REQ_COMPLETED then
      -- not in the table yet: any duration is taken over as it is
      ({ s with
        heap := Function.update s.heap target
          { s.heap target with mDuration := newDuration } }).cleanUpRequest req |>.turn .idle
    else
      match CocoTable.updateRequest (s.heap target) newDuration answer.timerBlock
          answer.enqueued with
      | none => s.turn (.crashed req)
      | some (_, updated) =>
        ({ s with heap := Function.update s.heap target updated }).cleanUpRequest req
          |>.turn .idle
  | .remove req target =>
    ({ s with table := s.table.removeRequest env (s.heap target) }).turn (.untrack req target)
  | .untrack req target =>
    ({ s with tracker := RequestManager.removeRequest s.heap s.tracker target }).cleanUpRequest req
      |>.cleanUpRequest target |>.turn .idle
  | .crashed _ => s

/-! ## Interleavings -/

/-- A message with its position. -/
def arrive (s : Server) (req : ReqPtr) (request : Request) (isValidated : Bool) : Server :=
  { s with
    heap := Function.update s.heap req request
    isValidated := Function.update s.isValidated req isValidated
    received := req :: s.received }

/-- What a thread does next. -/
inductive Event where
  /-- a worker takes a message up -/
  | receive (req : ReqPtr) (request : Request) (isValidated : Bool)
  | work (req : ReqPtr) (answer : Answer)
  | pop (req : ReqPtr)
  | consume (answer : Answer)
  /-- `timerExpired` of `matchingTuneReq` queues an untune request of its own -/
  | timerExpired (req matchingTuneReq : ReqPtr) (duration : Int)

/-- The state after an event. -/
def next (env : Env) (s : Server) : Event → Server
  | .receive req request isValidated =>
    (s.arrive req request isValidated).goto req
      (if request.mReqType = .REQ_RESOURCE_TUNING then .globalRateLimit else .clientCheck)
  | .work req answer => s.work env req answer
  | .pop req => s.pop req
  | .consume answer => s.consume env answer
  | .timerExpired req target duration =>
    (s.arrive req ((s.heap target).populateUntuneRequest duration) true).addAndWakeup req

/-- When an event can happen.  The receiver gives every tune message a handle no other one has, and
the nodes of a message are blocks of its own; the timer of a request runs while it is live. -/
def Enabled (s : Server) : Event → Prop
  | .receive req request _ =>
    s.stage req = .unused ∧
      (request.mReqType = .REQ_RESOURCE_TUNING ∨ request.mReqType = .REQ_RESOURCE_RETUNING ∨
        request.mReqType = .REQ_RESOURCE_UNTUNING) ∧
      (∀ node ∈ request.nodes, node.addr.1 = req) ∧
      (request.mReqType = .REQ_RESOURCE_TUNING → ∀ other ∈ s.received,
        (s.heap other).mReqType = .REQ_RESOURCE_TUNING → (s.heap other).mHandle ≠ request.mHandle)
  | .work req _ => (s.stage req).working
  | .pop req =>
    s.consumer = .idle ∧ s.stage req = .queued ∧ ∀ other ∈ s.received, s.stage other = .queued →
      (s.heap req).getPriority ≤ (s.heap other).getPriority
  | .consume _ => s.consumer ≠ .idle
  | .timerExpired req target _ =>
    s.stage req = .unused ∧ s.stage target = .live ∧ (s.heap target).mTimer.isSome

instance (s : Server) (e : Event) : Decidable (s.Enabled e) :=
  match e with
  | .receive _ _ _ => inferInstanceAs (Decidable (_ ∧ (_ ∨ _ ∨ _) ∧ _ ∧ (_ → _)))
  | .work _ _ => inferInstanceAs (Decidable (_ = _))
  | .pop _ => inferInstanceAs (Decidable (_ ∧ _ ∧ _))
  | .consume _ => inferInstanceAs (Decidable (_ ≠ _))
  | .timerExpired _ _ _ => inferInstanceAs (Decidable (_ ∧ _ ∧ _))

/-- The interleavings of the server's threads. -/
def machine (env : Env) : Machine Server Event := ⟨Enabled, next env⟩

instance (env : Env) (s : Server) (e : Event) : Decidable ((machine env).Enabled s e) :=
  inferInstanceAs (Decidable (s.Enabled e))

/-- All workers have finished and the queue is empty. -/
def Quiescent (s : Server) : Prop :=
  s.consumer = .idle ∧ ∀ req ∈ s.received, !(s.stage req).working ∧ s.stage req ≠ .queued

instance (s : Server) : Decidable s.Quiescent := inferInstanceAs (Decidable (_ ∧ _))

end Server

namespace Sample

/-- Every allocation succeeds, every client is a third-party one, and no client is too fast. -/
def answer : Answer where
  creation := ⟨true, true, some .PERMISSION_THIRD_PARTY⟩
  rateLimitHonored := true
  timerBlock := some 0
  enqueued := true

/-- An infinite tune request for the global resource, at the lower of the client's two
priorities. -/
def tune (req : ReqPtr) : Request := request req 1 [.ofValues (code 1) 0 0 [5]]

/-- Another message of the same client about a handle. -/
def message (type : RequestType) (handle duration : Int) (priority : BitVec 32) : Request where
  mReqType := type
  mHandle := handle
  mDuration := duration
  mProperties := priority
  mClientPID := 1
  mClientTID := 1
  mTimer := none
  mResourceList := none

/-- A message arrives and its worker makes a number of calls without a pause. -/
def worker (req : ReqPtr) (request : Request) (calls : Nat) : List Server.Event :=
  .receive req request false :: List.replicate calls (.work req answer)

/-- The consumer takes a message and makes a number of calls. -/
def drain (req : ReqPtr) (calls : Nat) : List Server.Event :=
  .pop req :: List.replicate calls (.consume answer)

/-- A server that has received nothing. -/
def server : Server := .init fun _ => message .REQ_PROP_GET 0 0 0

end Sample

end ResourceTuner
