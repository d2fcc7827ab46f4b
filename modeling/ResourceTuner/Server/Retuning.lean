import Mathlib.Order.ConditionallyCompleteLattice.Basic
import Mathlib.Data.Int.ConditionallyCompleteOrder
import ResourceTuner.Core.RequestTimers
import ResourceTuner.Server.Invariants

/-!
# Retuning

A retune message is consumed on one of two paths.  While its tune request is queued the new duration
is written as it is; once the request is in the table `updateRequest` turns a shorter one down, but it
compares with the number that stands for an infinite duration, `-1`, and stops the timer of a request
that may have none.  So a retune message only extends as long as it asks for no less than the request
has.

* **`span`** — durations in the order of their lengths;
* **`BothQueued`, `SameEffect`** — a tune request and a retune message that may be consumed in any order;
* **`OnlyExtends`** — every retune of a run extends, in whatever order;
* **`onlyExtends_iff`** — and which retunes these are.
-/

namespace ResourceTuner

/-- A duration as a length of time: `-1` stands for ever. -/
def span (duration : Int) : WithTop Int := if duration = -1 then ⊤ else duration

@[simp] theorem span_infinite : span (-1) = ⊤ := rfl

theorem span_le_iff {old new : Int} : span old ≤ span new ↔ new = -1 ∨ old ≠ -1 ∧ old ≤ new := by
  unfold span
  by_cases hnew : new = -1
  · simp [hnew]
  · by_cases hold : old = -1
    · simp [hold, hnew]
    · simp [hold, hnew]

instance (old new : Int) : Decidable (span old ≤ span new) := decidable_of_iff _ span_le_iff.symm

namespace Server

open Machine

variable {env : Env} {s : Server} {e : Event} {req target tune retune : ReqPtr} {status : BitVec 8}
  {answer : Answer}

/-! ## What a run should do -/

/-- The consumer takes a tune request and inserts it. -/
def insertion (tune : ReqPtr) (answer : Answer) : List Event :=
  [.pop tune, .consume answer, .consume answer, .consume answer]

/-- The consumer takes a retune message and carries it out. -/
def update (retune : ReqPtr) (answer : Answer) : List Event :=
  [.pop retune, .consume answer, .consume answer]

/-- A tune request and a retune message for it are queued, and the consumer is free to take either. -/
structure BothQueued (s : Server) (tune retune : ReqPtr) : Prop where
  idle : s.consumer = .idle
  queued : s.stage tune = .queued ∧ s.stage retune = .queued
  types : (s.heap tune).mReqType = .REQ_RESOURCE_TUNING ∧
    (s.heap retune).mReqType = .REQ_RESOURCE_RETUNING
  noTrigger : (s.heap tune).getPriority ≠ SERVER_CLEANUP_TRIGGER_PRIORITY ∧
    (s.heap retune).getPriority ≠ SERVER_CLEANUP_TRIGGER_PRIORITY
  handle : (s.heap retune).mHandle = (s.heap tune).mHandle
  uncancelled : ¬ hasBit
    (s.tracker.manager.getRequestProcessingStatus (s.heap tune).mHandle) REQ_CANCELLED
  list : (s.heap tune).mResourceList.isSome
  -- both durations are such as the client library admits
  admitted : ((s.heap tune).mDuration = -1 ∨ 0 < (s.heap tune).mDuration) ∧
    ((s.heap retune).mDuration = -1 ∨ 0 < (s.heap retune).mDuration)

instance (s : Server) (tune retune : ReqPtr) : Decidable (s.BothQueued tune retune) :=
  decidable_of_iff
    (s.consumer = .idle ∧ (s.stage tune = .queued ∧ s.stage retune = .queued) ∧
      ((s.heap tune).mReqType = .REQ_RESOURCE_TUNING ∧
        (s.heap retune).mReqType = .REQ_RESOURCE_RETUNING) ∧
      ((s.heap tune).getPriority ≠ SERVER_CLEANUP_TRIGGER_PRIORITY ∧
        (s.heap retune).getPriority ≠ SERVER_CLEANUP_TRIGGER_PRIORITY) ∧
      (s.heap retune).mHandle = (s.heap tune).mHandle ∧
      ¬ hasBit (s.tracker.manager.getRequestProcessingStatus (s.heap tune).mHandle)
        REQ_CANCELLED ∧ (s.heap tune).mResourceList.isSome ∧
      ((s.heap tune).mDuration = -1 ∨ 0 < (s.heap tune).mDuration) ∧
        ((s.heap retune).mDuration = -1 ∨ 0 < (s.heap retune).mDuration))
    ⟨fun ⟨h₁, h₂, h₃, h₄, h₅, h₆, h₇, h₈⟩ => ⟨h₁, h₂, h₃, h₄, h₅, h₆, h₇, h₈⟩,
      fun ⟨h₁, h₂, h₃, h₄, h₅, h₆, h₇, h₈⟩ => ⟨h₁, h₂, h₃, h₄, h₅, h₆, h₇, h₈⟩⟩

/-- If the tune request enters the table, it has the same duration in the end whether the retune message
is consumed before that or after. -/
def SameEffect (env : Env) (s : Server) (tune retune : ReqPtr) : Prop :=
  ∀ inserting updating : Answer,
    let inserted := (machine env).exec s (insertion tune inserting)
    let late := (machine env).exec inserted (update retune updating)
    let updated := (machine env).exec s (update retune updating)
    let early := (machine env).exec updated (insertion tune inserting)
    inserted.stage tune = .live → early.stage tune = .live →
      early.consumer = .idle ∧ late.consumer = .idle ∧
        (late.heap tune).mDuration = (early.heap tune).mDuration

/-- No duration gets shorter between two moments of the run, no retune crashes the consumer, and none
depends on the order in which it is consumed. -/
structure OnlyExtends (env : Env) (s : Server) (events : List Event) : Prop where
  longer : ∀ before between after, events = before ++ between ++ after →
    ∀ req ∈ ((machine env).exec s before).received,
      span (((machine env).exec s before).heap req).mDuration ≤
        span (((machine env).exec s (before ++ between)).heap req).mDuration
  alive : (machine env).Along (fun s => ∀ req, s.consumer ≠ .crashed req) s events
  anyOrder : (machine env).Along
    (fun s => ∀ tune ∈ s.received, ∀ retune ∈ s.received, s.BothQueued tune retune →
      s.SameEffect env tune retune) s events

/-! ## The retunes that do -/

/-- The retune that the consumer is about to carry out finds its request queued and asks for no less
than it has, or finds it in the table and is turned down, or asks for no less and finds its timer. -/
def Prolonging (s : Server) : Consumer → Prop
  | .update req target status =>
    if hasBit status REQ_COMPLETED then
      Timers.Refused (s.heap target) (s.heap req).mDuration ∨
        (s.heap target).mTimer.isSome ∧
          span (s.heap target).mDuration ≤ span (s.heap req).mDuration
    else span (s.heap target).mDuration ≤ span (s.heap req).mDuration
  | _ => True

instance (s : Server) (consumer : Consumer) : Decidable (s.Prolonging consumer) :=
  match consumer with
  | .update _ _ status => inferInstanceAs (Decidable (if hasBit status REQ_COMPLETED then _ else _))
  | .idle | .status _ | .mark _ | .insert _ | .discard _ | .find _ | .remove _ _ | .untrack _ _
  | .crashed _ => .isTrue trivial

/-- A retune that is carried out in this step is a prolonging one. -/
def Prolongs (s : Server) : Event → Prop
  | .consume _ => s.Prolonging s.consumer
  | _ => True

instance (s : Server) (e : Event) : Decidable (s.Prolongs e) :=
  match e with
  | .consume _ => inferInstanceAs (Decidable (s.Prolonging s.consumer))
  | .receive _ _ _ | .work _ _ | .pop _ | .timerExpired _ _ _ => .isTrue trivial

/-- While a retune message waits together with its tune request, the request has a finite duration
and the message asks for no less. -/
def QueuedLonger (s : Server) : Prop :=
  ∀ tune ∈ s.received, ∀ retune ∈ s.received, s.BothQueued tune retune →
    (s.heap tune).mDuration ≠ -1 ∧
      span (s.heap tune).mDuration ≤ span (s.heap retune).mDuration

instance (s : Server) : Decidable s.QueuedLonger :=
  inferInstanceAs (Decidable (∀ tune ∈ s.received, ∀ retune ∈ s.received, _ → _))

/-! ## One step -/

/-- A message keeps its duration unless the consumer carries out a retune. -/
theorem duration_next (henabled : s.Enabled e) {r : ReqPtr}
    (hr : s.stage r ≠ .unused)
    (hno : ∀ answer req target status, e = .consume answer →
      s.consumer ≠ .update req target status) :
    ((next env s e).heap r).mDuration = (s.heap r).mDuration := by
  cases e with
  | receive req request isValidated =>
    have hne : r ≠ req := by
      rintro rfl
      exact hr henabled.1
    simp [next, arrive, hne]
  | work req answer =>
    cases hstage : s.stage req with
    | verify =>
      simp only [next, work, hstage]
      split
      · rfl
      · split
        · rfl
        · rename_i request' hverify
          simp only [goto_heap]
          by_cases hreq : r = req
          · rw [hreq, Function.update_self]
            exact (sameMessage_of_verify hverify).duration
          · rw [Function.update_of_ne hreq]
    | clientCheck =>
      simp only [next, work, hstage]
      split <;> simp
    | enqueue =>
      simp only [next, work, hstage, addAndWakeup]
      split <;> rfl
    | unused | queued | held | live | freed | lost => simp only [next, work, hstage]
    | globalRateLimit | createClient | disable | rateLimit | verifyHandle | shouldBeAdded | add =>
      simp only [next, work, hstage, proceed_heap]
  | pop req => rw [next, pop_heap]
  | timerExpired req target duration =>
    have hne : r ≠ req := by
      rintro rfl
      exact hr henabled.1
    rw [next, addAndWakeup_heap]
    simp [arrive, hne]
  | consume answer =>
    simp only [next]
    cases hconsumer : s.consumer with
    | update req target status => exact absurd hconsumer (hno answer req target status rfl)
    | insert req =>
      obtain ⟨timer, htimer⟩ := @CocoTable.insertRequest_request env s.table (s.heap req)
        answer.timerBlock answer.enqueued
      have hheap : (s.consume env answer).heap =
          Function.update s.heap req { s.heap req with mTimer := timer } := by
        simp only [consume, hconsumer, htimer]
        split <;> rfl
      rw [hheap]
      by_cases hreq : r = req
      · rw [hreq, Function.update_self]
      · rw [Function.update_of_ne hreq]
    | find req =>
      simp only [consume, hconsumer]
      split
      · rfl
      · split
        · rfl
        · split
          · split <;> rfl
          · rfl
          · rfl
    | status req =>
      simp only [consume, hconsumer]
      split <;> rfl
    | idle | crashed req => simp only [consume, hconsumer]
    | mark req | discard req | remove req target | untrack req target =>
      simp only [consume, hconsumer]
      rfl

/-- A retune writes to its request only. -/
theorem duration_of_ne (hconsumer : s.consumer = .update req target status) {r : ReqPtr}
    (hne : r ≠ target) : (s.consume env answer).heap r = s.heap r := by
  simp only [consume, hconsumer]
  split
  · exact Function.update_of_ne hne _ _
  · split
    · rfl
    · exact Function.update_of_ne hne _ _

/-- A retune of a queued request writes its duration. -/
theorem consume_update_queued (hconsumer : s.consumer = .update req target status)
    (hstatus : hasBit status REQ_COMPLETED = false) (answer : Answer) :
    s.consume env answer = (({ s with
      heap := Function.update s.heap target
        { s.heap target with mDuration := (s.heap req).mDuration } }).cleanUpRequest req
      |>.turn .idle) := by
  simp only [consume, hconsumer, hstatus, Bool.not_false, if_true]

/-- A retune of an inserted request is turned down or takes effect. -/
theorem consume_update_inserted (hconsumer : s.consumer = .update req target status)
    (hstatus : hasBit status REQ_COMPLETED = true) (answer : Answer)
    (htimer : Timers.Refused (s.heap target) (s.heap req).mDuration ∨
      (s.heap target).mTimer.isSome) :
    (s.consume env answer).consumer = .idle ∧
      ((s.consume env answer).heap target).mDuration =
        if Timers.Refused (s.heap target) (s.heap req).mDuration then (s.heap target).mDuration
        else (s.heap req).mDuration := by
  simp only [consume, hconsumer, hstatus, Bool.not_true, Bool.false_eq_true, if_false]
  cases hupdate : CocoTable.updateRequest (s.heap target) (s.heap req).mDuration
      answer.timerBlock answer.enqueued with
  | none =>
    obtain ⟨hpassed, hnone⟩ := CocoTable.updateRequest_eq_none_iff.mp hupdate
    simp [hpassed, hnone] at htimer
  | some updated =>
    simp only [turn, cleanUpRequest, goto, Function.update_self]
    exact ⟨trivial, CocoTable.updateRequest_duration hupdate⟩

/-- Or it crashes, if the request has no timer. -/
theorem consume_update_crashes (hconsumer : s.consumer = .update req target status)
    (hstatus : hasBit status REQ_COMPLETED = true) (answer : Answer)
    (hpassed : ¬ Timers.Refused (s.heap target) (s.heap req).mDuration)
    (hnone : (s.heap target).mTimer = none) :
    (s.consume env answer).consumer = .crashed req := by
  have hupdate : CocoTable.updateRequest (s.heap target) (s.heap req).mDuration
      answer.timerBlock answer.enqueued = none := CocoTable.updateRequest_eq_none_iff.mpr ⟨hpassed, hnone⟩
  simp [consume, hconsumer, hstatus, hupdate, turn]

/-- A retune that the consumer carries out extends and does not crash, or it does not prolong. -/
theorem update_extends_iff (hconsumer : s.consumer = .update req target status) (answer : Answer) :
    Prolongs s (.consume answer) ↔
      span (s.heap target).mDuration ≤ span ((s.consume env answer).heap target).mDuration ∧
        ∀ r, (s.consume env answer).consumer ≠ .crashed r := by
  simp only [Prolongs, hconsumer, Prolonging]
  cases hstatus : hasBit status REQ_COMPLETED with
  | false =>
    rw [consume_update_queued hconsumer hstatus answer]
    simp [turn, cleanUpRequest, goto]
  | true =>
    rw [if_pos rfl]
    by_cases hrefused : Timers.Refused (s.heap target) (s.heap req).mDuration
    · obtain ⟨hidle, hduration⟩ := consume_update_inserted hconsumer hstatus answer
        (Or.inl hrefused)
      rw [hduration, if_pos hrefused, hidle]
      exact iff_of_true (Or.inl hrefused) ⟨le_refl _, by simp⟩
    · cases htimer : (s.heap target).mTimer with
      | none =>
        have hcrash : (s.consume env answer).consumer = .crashed req :=
          consume_update_crashes hconsumer hstatus answer hrefused htimer
        rw [hcrash]
        simp [hrefused]
      | some timer =>
        obtain ⟨hidle, hduration⟩ := consume_update_inserted hconsumer hstatus answer
          (Or.inr (by rw [htimer]; rfl))
        rw [hduration, if_neg hrefused, hidle]
        simp [hrefused]

/-- Every message keeps its duration or gets a longer one, and the consumer lives on. -/
def Extends (env : Env) (s : Server) (e : Event) : Prop :=
  (∀ r ∈ s.received, span (s.heap r).mDuration ≤ span ((next env s e).heap r).mDuration) ∧
    ∀ r, (next env s e).consumer ≠ .crashed r

theorem Inv.mem_received (hinv : Inv env s) {r : ReqPtr} :
    r ∈ s.received ↔ s.stage r ≠ .unused := by
  rw [Ne, hinv.received, not_not]

/-- Only a retune can crash the consumer. -/
theorem alive_next (halive : ∀ r, s.consumer ≠ .crashed r)
    (hno : ∀ answer req target status, e = .consume answer →
      s.consumer ≠ .update req target status) (r : ReqPtr) :
    (next env s e).consumer ≠ .crashed r := by
  cases e with
  | receive req request isValidated => exact halive r
  | work req answer =>
    have hconsumer : (s.work env req answer).consumer = s.consumer := by
      simp only [work, addAndWakeup]
      split <;> (try split) <;> (try split) <;> simp
    simp only [next, hconsumer]
    exact halive r
  | pop req =>
    simp only [next, pop, turn]
    split
    · exact halive r
    · split <;> simp
  | timerExpired req target duration =>
    rw [next, addAndWakeup_consumer]
    exact halive r
  | consume answer =>
    simp only [next]
    cases hconsumer : s.consumer with
    | update req target status => exact absurd hconsumer (hno answer req target status rfl)
    | crashed req => exact absurd hconsumer (halive req)
    | idle | status req | mark req | insert req | discard req | find req | remove req target
      | untrack req target =>
      simp only [consume, hconsumer, turn]
      repeat' split
      all_goals simp_all

/-- **A step extends exactly when the retune it carries out, if any, prolongs.** -/
theorem extends_iff (hinv : Inv env s) (henabled : s.Enabled e)
    (halive : ∀ r, s.consumer ≠ .crashed r) : Extends env s e ↔ Prolongs s e := by
  by_cases hretune : ∃ answer req target status, e = .consume answer ∧
      s.consumer = .update req target status
  · obtain ⟨answer, req, target, status, rfl, hconsumer⟩ := hretune
    rw [update_extends_iff hconsumer answer]
    refine and_congr_left fun _ => ⟨fun h => ?_, fun h r hr => ?_⟩
    · -- the request of a retune has arrived
      have hok := hinv.consumer
      simp only [ConsumerOk, hconsumer] at hok
      exact h target (hinv.mem_received.mpr hok.2.1.1)
    · by_cases hne : r = target
      · rw [hne]
        exact h
      · simp only [next, duration_of_ne hconsumer hne, le_refl]
  · have hno : ∀ answer req target status, e = .consume answer →
        s.consumer ≠ .update req target status := by
      intro answer req target status he hconsumer
      exact hretune ⟨answer, req, target, status, he, hconsumer⟩
    refine iff_of_true ⟨fun r hr => ?_, alive_next halive hno⟩ ?_
    · rw [duration_next henabled (hinv.mem_received.mp hr) hno]
    · cases e with
      | consume answer =>
        cases hconsumer : s.consumer with
        | update req target status => exact absurd hconsumer (hno answer req target status rfl)
        | idle | status | mark | insert | discard | find | remove | untrack | crashed =>
          simp only [Prolongs, hconsumer, Prolonging]
      | receive | work | pop | timerExpired => trivial

/-! ## Two messages in two orders -/

/-- An insertion that succeeds gives a finite request the timer it was granted. -/
theorem insertRequest_timer {table : CocoTable} {request : Request} {timerBlock : Option Nat}
    {enqueued : Bool} (h : (table.insertRequest env request timerBlock enqueued).1 = true) :
    (table.insertRequest env request timerBlock enqueued).2.2 =
        { request with mTimer := if request.mDuration ≠ -1 then timerBlock else none } ∧
      (request.mDuration ≠ -1 → timerBlock.isSome) := by
  unfold CocoTable.insertRequest at h ⊢
  split at h
  · cases h
  · rename_i hgranted
    have hsome : request.mDuration ≠ -1 → timerBlock.isSome := by
      intro hfinite
      rw [Option.isSome_iff_ne_none]
      exact fun hnone => hgranted ⟨hfinite, hnone⟩
    refine ⟨?_, hsome⟩
    simp only [if_neg hgranted]
    cases request.mResourceList with
    | none => rfl
    | some nodes =>
      simp only
      split <;> rfl

/-- A request with a duration the client library admits is inserted when the timer is granted and
enqueued. -/
theorem insertRequest_of_granted {table : CocoTable} {request : Request}
    (hlist : request.mResourceList.isSome)
    (hadmitted : request.mDuration = -1 ∨ 0 < request.mDuration) (timer : Nat) :
    (table.insertRequest env request (some timer) true).1 = true := by
  obtain ⟨nodes, hnodes⟩ := Option.isSome_iff_exists.mp hlist
  simp only [CocoTable.insertRequest, hnodes]
  rcases hadmitted with h | h
  · simp [h]
  · have hstart : CocoTable.startTimer request.mDuration true = true := by
      rw [CocoTable.startTimer, if_neg (by omega), if_neg (by omega)]
    simp [hstart]

/-- The consumer is free and the tune request in the queue is one it will insert. -/
structure Insertable (s : Server) (tune : ReqPtr) (status : BitVec 8) : Prop where
  idle : s.consumer = .idle
  type : (s.heap tune).mReqType = .REQ_RESOURCE_TUNING
  noTrigger : (s.heap tune).getPriority ≠ SERVER_CLEANUP_TRIGGER_PRIORITY
  lookup : s.active.lookup (s.heap tune).mHandle = some (some tune, status)
  uncancelled : ¬ hasBit status REQ_CANCELLED
  uncompleted : ¬ hasBit status REQ_COMPLETED

/-- The consumer is free and a retune message for the active request `target` is in the queue. -/
structure Retunable (s : Server) (retune target : ReqPtr) (status : BitVec 8) : Prop where
  idle : s.consumer = .idle
  type : (s.heap retune).mReqType = .REQ_RESOURCE_RETUNING
  noTrigger : (s.heap retune).getPriority ≠ SERVER_CLEANUP_TRIGGER_PRIORITY
  lookup : s.active.lookup (s.heap retune).mHandle = some (some target, status)
  found : ¬ hasBit status REQ_NOT_FOUND

/-- The state in which the consumer inserts the tune request. -/
theorem Insertable.exec (h : s.Insertable tune status) (answer : Answer) :
    (machine env).exec s (insertion tune answer) =
      (({ s.goto tune .held with
        tracker := RequestManager.markRequestAsComplete s.tracker (s.heap tune).mHandle
        consumer := .insert tune } : Server).consume env answer) := by
  have hstatus : s.tracker.manager.getRequestProcessingStatus (s.heap tune).mHandle = status := by
    have hlookup := h.lookup
    unfold Server.active at hlookup
    simp only [RequestManager.getRequestProcessingStatus, hlookup]
  have hpop : next env s (.pop tune) = (s.goto tune .held).turn (.status tune) := by
    simp only [next, pop, if_neg h.noTrigger, if_pos h.type]
  have hlook : next env ((s.goto tune .held).turn (.status tune)) (.consume answer) =
      (s.goto tune .held).turn (.mark tune) := by
    simp [next, consume, turn, hstatus, h.uncancelled, h.uncompleted]
  rw [insertion, Machine.exec_cons, Machine.exec_cons, Machine.exec_cons, Machine.exec_cons,
    Machine.exec_nil]
  simp only [machine, hpop, hlook]
  rfl

/-- The state in which the consumer carries out the retune. -/
theorem Retunable.exec (h : s.Retunable retune target status) (answer : Answer) :
    (machine env).exec s (update retune answer) =
      ((s.goto retune .held).turn (.update retune target status)).consume env answer := by
  have hpop : next env s (.pop retune) = (s.goto retune .held).turn (.find retune) := by
    simp only [next, pop, if_neg h.noTrigger]
    rw [if_neg (by rw [h.type]; decide)]
  have hlookup := h.lookup
  unfold Server.active at hlookup
  have hfind : next env ((s.goto retune .held).turn (.find retune)) (.consume answer) =
      (s.goto retune .held).turn (.update retune target status) := by
    simp [next, consume, turn, RequestManager.getRequestFromMap, hlookup, h.found, h.type]
  rw [update, Machine.exec_cons, Machine.exec_cons, Machine.exec_cons, Machine.exec_nil]
  simp only [machine, hpop, hfind]
  rfl

/-- The tune request enters the table: it is marked and has a timer if it is finite. -/
theorem Insertable.entered (h : s.Insertable tune status) (answer : Answer)
    (hlive : ((machine env).exec s (insertion tune answer)).stage tune = .live) :
    ((machine env).exec s (insertion tune answer)).consumer = .idle ∧
      ((machine env).exec s (insertion tune answer)).heap = Function.update s.heap tune
        { s.heap tune with
          mTimer := if (s.heap tune).mDuration ≠ -1 then answer.timerBlock else none } ∧
      ((s.heap tune).mDuration ≠ -1 → answer.timerBlock.isSome) ∧
      ((machine env).exec s (insertion tune answer)).active.lookup (s.heap tune).mHandle =
        some (some tune, status ||| REQ_COMPLETED) := by
  rw [h.exec answer] at hlive ⊢
  simp only [consume, goto_heap] at hlive ⊢
  cases hinserted : (s.table.insertRequest env (s.heap tune) answer.timerBlock
      answer.enqueued).1 with
  | false =>
    simp [goto, turn, hinserted] at hlive
  | true =>
    obtain ⟨hrequest, hgranted⟩ := insertRequest_timer hinserted
    have hlookup := h.lookup
    unfold Server.active at hlookup
    simp only [goto, hinserted, if_true, turn, Server.active,
      RequestManager.markRequestAsComplete, RequestManager.lookup_addStatus, hlookup]
    exact ⟨trivial, by rw [hrequest], hgranted, rfl⟩

/-- It does if the timer is granted and enqueued. -/
theorem Insertable.live (h : s.Insertable tune status) (hlist : (s.heap tune).mResourceList.isSome)
    (hadmitted : (s.heap tune).mDuration = -1 ∨ 0 < (s.heap tune).mDuration)
    (htimer : answer.timerBlock.isSome) (henqueued : answer.enqueued = true) :
    ((machine env).exec s (insertion tune answer)).stage tune = .live := by
  obtain ⟨timer, htimer⟩ := Option.isSome_iff_exists.mp htimer
  have hinserted := @insertRequest_of_granted env s.table _ hlist hadmitted timer
  rw [h.exec answer]
  simp only [consume, goto_heap, htimer, henqueued]
  simp [goto, turn, hinserted]

/-- Of an inserted request: the retune is turned down or takes effect. -/
theorem Retunable.late (h : s.Retunable retune target status)
    (hstatus : hasBit status REQ_COMPLETED = true) (answer : Answer)
    (htimer : Timers.Refused (s.heap target) (s.heap retune).mDuration ∨
      (s.heap target).mTimer.isSome) :
    ((machine env).exec s (update retune answer)).consumer = .idle ∧
      (((machine env).exec s (update retune answer)).heap target).mDuration =
        if Timers.Refused (s.heap target) (s.heap retune).mDuration then (s.heap target).mDuration
        else (s.heap retune).mDuration := by
  rw [h.exec answer]
  exact consume_update_inserted rfl hstatus answer htimer

/-- And crashes if there is no timer. -/
theorem Retunable.crashes (h : s.Retunable retune target status)
    (hstatus : hasBit status REQ_COMPLETED = true) (answer : Answer)
    (hpassed : ¬ Timers.Refused (s.heap target) (s.heap retune).mDuration)
    (hnone : (s.heap target).mTimer = none) :
    ((machine env).exec s (update retune answer)).consumer = .crashed retune := by
  rw [h.exec answer]
  exact consume_update_crashes rfl hstatus answer hpassed hnone

theorem BothQueued.insertable (h : s.BothQueued tune retune) (hinv : Inv env s) :
    ∃ status, s.Insertable tune status ∧ ¬ hasBit status REQ_NOT_FOUND := by
  have htune : s.IsTune tune := ⟨by rw [h.queued.1]; decide, h.types.1⟩
  obtain ⟨status, hlookup, hok⟩ := hinv.entry tune htune (by rw [h.queued.1]; rfl)
  have hstatus : s.tracker.manager.getRequestProcessingStatus (s.heap tune).mHandle = status := by
    have hlookup := hlookup
    unfold Server.active at hlookup
    simp only [RequestManager.getRequestProcessingStatus, hlookup]
  refine ⟨status, ⟨h.idle, h.types.1, h.noTrigger.1, hlookup, ?_, fun hcompleted => ?_⟩, hok.found⟩
  · rw [← hstatus]
    exact h.uncancelled
  · -- what is completed has left the queue
    rcases hok.inserted hcompleted with hlive | hinsert | hdiscard
    · rw [h.queued.1] at hlive
      cases hlive
    · rw [h.idle] at hinsert
      cases hinsert
    · rw [h.idle] at hdiscard
      cases hdiscard

theorem BothQueued.ne (h : s.BothQueued tune retune) : retune ≠ tune := by
  rintro rfl
  have htypes := h.types
  rw [htypes.1] at htypes
  cases htypes.2

/-- Retuned first, the request waits with its new duration. -/
theorem BothQueued.retuned (h : s.BothQueued tune retune) (hinsertable : s.Insertable tune status)
    (hfound : ¬ hasBit status REQ_NOT_FOUND) (answer : Answer) :
    ((machine env).exec s (update retune answer)).Insertable tune status ∧
      ((machine env).exec s (update retune answer)).heap tune =
        { s.heap tune with mDuration := (s.heap retune).mDuration } := by
  have hretunable : s.Retunable retune tune status :=
    ⟨h.idle, h.types.2, h.noTrigger.2, by rw [h.handle]; exact hinsertable.lookup, hfound⟩
  have hstate := @Retunable.exec env _ _ _ _ hretunable answer
  rw [consume_update_queued rfl (by simpa using hinsertable.uncompleted) answer] at hstate
  have hheap : ((machine env).exec s (update retune answer)).heap tune =
      { s.heap tune with mDuration := (s.heap retune).mDuration } := by
    rw [hstate]
    exact Function.update_self _ _ _
  refine ⟨⟨by rw [hstate]; rfl, ?_, ?_, ?_, hinsertable.uncancelled, hinsertable.uncompleted⟩, hheap⟩
  · rw [hheap]
    exact h.types.1
  · rw [hheap]
    exact h.noTrigger.1
  · rw [hheap, hstate]
    exact hinsertable.lookup

/-- Inserted first, it is marked and has the timer of its old duration. -/
theorem BothQueued.inserted (h : s.BothQueued tune retune) (hinsertable : s.Insertable tune status)
    (hfound : ¬ hasBit status REQ_NOT_FOUND) (answer : Answer)
    (hlive : ((machine env).exec s (insertion tune answer)).stage tune = .live) :
    ((machine env).exec s (insertion tune answer)).Retunable retune tune
        (status ||| REQ_COMPLETED) ∧
      ((machine env).exec s (insertion tune answer)).heap retune = s.heap retune ∧
      (((machine env).exec s (insertion tune answer)).heap tune).mDuration =
        (s.heap tune).mDuration ∧
      ((((machine env).exec s (insertion tune answer)).heap tune).mTimer.isSome ↔
        (s.heap tune).mDuration ≠ -1) := by
  obtain ⟨hidle, hheap, hgranted, hlookup⟩ := hinsertable.entered answer hlive
  have hretune : ((machine env).exec s (insertion tune answer)).heap retune = s.heap retune := by
    rw [hheap, Function.update_of_ne h.ne]
  refine ⟨⟨hidle, ?_, ?_, ?_, ?_⟩, hretune, ?_, ?_⟩
  · rw [hretune]
    exact h.types.2
  · rw [hretune]
    exact h.noTrigger.2
  · rw [hretune, h.handle]
    exact hlookup
  · rw [hasBit_or, Bool.or_eq_true, not_or]
    exact ⟨hfound, by decide⟩
  · rw [hheap, Function.update_self]
  · rw [hheap, Function.update_self]
    by_cases hfinite : (s.heap tune).mDuration = -1
    · simp [hfinite]
    · simpa [hfinite] using hgranted hfinite

/-- A new duration that the client library admits is turned down or not shorter, except for a request
without end. -/
theorem not_refused_iff {request : Request} {duration : Int}
    (hadmitted : duration = -1 ∨ 0 < duration) (hfinite : request.mDuration ≠ -1) :
    ¬ Timers.Refused request duration ↔ span request.mDuration ≤ span duration := by
  rw [span_le_iff, Timers.Refused]
  omega

/-- **The order does not matter** exactly when the tune request has a finite duration and the retune
message asks for no less. -/
theorem sameEffect_iff (hinv : Inv env s) (h : s.BothQueued tune retune) :
    s.SameEffect env tune retune ↔ (s.heap tune).mDuration ≠ -1 ∧
      span (s.heap tune).mDuration ≤ span (s.heap retune).mDuration := by
  obtain ⟨status, hinsertable, hfound⟩ := h.insertable hinv
  have hstatus : hasBit (status ||| REQ_COMPLETED) REQ_COMPLETED = true := by
    rw [hasBit_or, Bool.or_eq_true]
    exact Or.inr (by decide)
  constructor
  · intro hsame
    let answer : Answer := ⟨⟨true, true, none⟩, true, some 0, true⟩
    have hlive : ((machine env).exec s (insertion tune answer)).stage tune = .live :=
      hinsertable.live h.list h.admitted.1 rfl rfl
    obtain ⟨hwaits, hheap⟩ := @BothQueued.retuned env _ _ _ _ h hinsertable hfound answer
    have hlive' := @Insertable.live env _ _ _ answer hwaits (by rw [hheap]; exact h.list)
      (by rw [hheap]; exact h.admitted.2) rfl rfl
    obtain ⟨-, hidle, hduration⟩ := hsame answer answer hlive hlive'
    obtain ⟨hretunable, hretune, hold, htimer⟩ := h.inserted hinsertable hfound answer hlive
    obtain ⟨-, hearly, -⟩ := hwaits.entered answer hlive'
    rw [hearly, Function.update_self, hheap] at hduration
    have hpassed : ¬ Timers.Refused (((machine env).exec s (insertion tune answer)).heap tune)
        (((machine env).exec s (insertion tune answer)).heap retune).mDuration := by
      intro hrefused
      have hkept := (@Retunable.late env _ _ _ _ hretunable hstatus answer (Or.inl hrefused)).2
      rw [if_pos hrefused, hold, hduration] at hkept
      rw [hretune, Timers.Refused, hold] at hrefused
      have hadmitted := h.admitted.2
      simp only at hkept
      omega
    have hfinite : (s.heap tune).mDuration ≠ -1 := by
      rw [← htimer, Option.isSome_iff_ne_none]
      intro hnone
      rw [@Retunable.crashes env _ _ _ _ hretunable hstatus answer hpassed hnone] at hidle
      cases hidle
    refine ⟨hfinite, ?_⟩
    rw [hretune, not_refused_iff h.admitted.2 (by rw [hold]; exact hfinite), hold] at hpassed
    exact hpassed
  · rintro ⟨hfinite, hlonger⟩ inserting updating inserted late updated early hlive hlive'
    obtain ⟨hretunable, hretune, hold, htimer⟩ := h.inserted hinsertable hfound inserting hlive
    obtain ⟨hwaits, hheap⟩ := @BothQueued.retuned env _ _ _ _ h hinsertable hfound updating
    obtain ⟨hidle, hearly, -⟩ := hwaits.entered inserting hlive'
    obtain ⟨hidle', hlate⟩ := @Retunable.late env _ _ _ _ hretunable hstatus updating
      (Or.inr (htimer.mpr hfinite))
    have hpassed : ¬ Timers.Refused (inserted.heap tune) (inserted.heap retune).mDuration := by
      rw [hretune, not_refused_iff h.admitted.2 (by rw [hold]; exact hfinite), hold]
      exact hlonger
    refine ⟨hidle, hidle', ?_⟩
    rw [hlate, if_neg hpassed, hretune, hearly, Function.update_self, hheap]

/-! ## Runs -/

/-- The state of a server that has run so far without a crash. -/
structure Healthy (env : Env) (s : Server) : Prop where
  inv : Inv env s
  alive : ∀ r, s.consumer ≠ .crashed r

theorem Healthy.next (h : Healthy env s) (henabled : s.Enabled e) (hprolongs : s.Prolongs e) :
    Healthy env (next env s e) :=
  ⟨inv_of_effect h.inv (effect_of_enabled h.inv henabled),
    ((extends_iff h.inv henabled h.alive).mpr hprolongs).2⟩

theorem healthy_init (heap : Heap) : Healthy env (init heap) := ⟨inv_init heap, by simp [init]⟩

/-- Steps that prolong never shorten a duration, from any moment on. -/
theorem Healthy.span_le (h : Healthy env s) {events : List Event}
    (hsteps : (machine env).Steps (fun s e => s.Enabled e ∧ s.Prolongs e) s events)
    (hreq : req ∈ s.received) :
    span (s.heap req).mDuration ≤ span (((machine env).exec s events).heap req).mDuration := by
  induction events generalizing s with
  | nil => exact le_refl _
  | cons e events ih =>
    obtain ⟨⟨henabled, hprolongs⟩, hrest⟩ := hsteps
    have hstep := (extends_iff h.inv henabled h.alive).mpr hprolongs
    have hnext : Healthy env (Server.next env s e) := h.next henabled hprolongs
    have hreq' : req ∈ (Server.next env s e).received := by
      rw [hnext.inv.mem_received]
      exact ((effect_of_enabled h.inv henabled).persists (h.inv.mem_received.mp hreq)).1
    exact (hstep.1 req hreq).trans (ih hnext hrest hreq')

/-- **Retuning only extends** in exactly those runs in which every retune that is carried out prolongs,
and every one that waits together with its tune request would. -/
theorem onlyExtends_iff {heap : Heap} {events : List Event}
    (hrun : (machine env).Run (init heap) events) :
    OnlyExtends env (init heap) events ↔
      (machine env).Steps Prolongs (init heap) events ∧
        (machine env).Along QueuedLonger (init heap) events := by
  have hinv (before after : List Event) (heq : events = before ++ after) :
      Inv env ((machine env).exec (init heap) before) := by
    rw [Machine.Run, heq, steps_append] at hrun
    exact inv_of_run hrun.1
  have hqueued : (machine env).Along (fun s => ∀ tune ∈ s.received, ∀ retune ∈ s.received,
        s.BothQueued tune retune → s.SameEffect env tune retune) (init heap) events ↔
      (machine env).Along QueuedLonger (init heap) events := by
    simp only [along_iff, QueuedLonger]
    refine forall_congr' fun before => forall_congr' fun after => forall_congr' fun heq => ?_
    refine forall₂_congr fun tune _ => forall₂_congr fun retune _ => forall_congr' fun h => ?_
    exact sameEffect_iff (hinv before after heq) h
  constructor
  · rintro ⟨hlonger, halive, horder⟩
    refine ⟨steps_iff.mpr fun before e after heq => ?_, hqueued.mp horder⟩
    have heq' : events = before ++ [e] ++ after := by rw [heq, List.append_assoc]; rfl
    have henabled := steps_iff.mp hrun before e after heq
    refine (extends_iff (hinv before (e :: after) heq) henabled
      (along_iff.mp halive before (e :: after) heq)).mp ⟨fun r hr => ?_, fun r => ?_⟩
    · have hstep := hlonger before [e] after heq' r hr
      rwa [exec_append] at hstep
    · have hnext := along_iff.mp halive (before ++ [e]) after heq' r
      rwa [exec_append] at hnext
  · rintro ⟨hprolongs, hwaiting⟩
    have hsteps := hrun.and hprolongs
    have hhealthy (before after : List Event) (heq : events = before ++ after) :
        Healthy env ((machine env).exec (init heap) before) := by
      rw [heq, steps_append] at hsteps
      exact hsteps.1.invariant (healthy_init heap) fun _ _ h hstep => h.next hstep.1 hstep.2
    refine ⟨fun before between after heq req hreq => ?_,
      along_iff.mpr fun before after heq => (hhealthy before after heq).alive, hqueued.mpr hwaiting⟩
    rw [exec_append]
    refine (hhealthy before (between ++ after) (by rw [heq, List.append_assoc])).span_le ?_ hreq
    rw [heq, steps_append, steps_append] at hsteps
    exact hsteps.1.2

end Server

namespace Sample

open Server

/-- A tune request of a client with a duration. -/
def finiteTune (duration : Int) : Request := { tune 1 with mDuration := duration }

/-- A tune request and a retune message for it, both queued. -/
def retuned (duration newDuration : Int) : List Event :=
  worker 1 (finiteTune duration) 8 ++
    worker 2 (message .REQ_RESOURCE_RETUNING 1 newDuration 0) 4

/-- The retune message comes when the request is in the table. -/
def lateRetuned (duration newDuration : Int) : List Event :=
  worker 1 (finiteTune duration) 8 ++ drain 1 3 ++
    worker 2 (message .REQ_RESOURCE_RETUNING 1 newDuration 0) 4 ++ drain 2 2

end Sample

open Server

theorem onlyExtends_sample :
    OnlyExtends Sample.env Sample.server (Sample.lateRetuned 1000 5000) :=
  (onlyExtends_iff (by decide)).mpr ⟨by decide, by decide⟩

/-- A retune message that is popped before its request shortens it, and one for an infinite request in
the table crashes the consumer. -/
theorem retune_shortens :
    (machine Sample.env).Run Sample.server (Sample.retuned 5000 1000 ++ Sample.drain 2 2) ∧
      ¬ OnlyExtends Sample.env Sample.server (Sample.retuned 5000 1000 ++ Sample.drain 2 2) ∧
      (machine Sample.env).Run Sample.server (Sample.lateRetuned (-1) 5000) ∧
      ¬ OnlyExtends Sample.env Sample.server (Sample.lateRetuned (-1) 5000) := by
  refine ⟨by decide, fun h => ?_, by decide, fun h => ?_⟩
  · have hlonger := h.longer (Sample.retuned 5000 1000) (Sample.drain 2 2) [] (by simp) 1 (by decide)
    revert hlonger
    decide
  · have halive := Machine.along_iff.mp h.alive (Sample.lateRetuned (-1) 5000) [] (by simp) 2
    revert halive
    decide

end ResourceTuner
