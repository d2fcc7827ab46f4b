import ResourceTuner.Server.Cancellation

/-!
# Suspending the server

`RequestManager::moveToPendingList`, which the state detector calls when the display goes off.  It
walks the list of active requests, queues an untune message for every request that may not run in
the background, and puts the request on the pending list, from which it is submitted again on
resume.  The requests that were added are in `mActiveRequests`; the list it walks is another one.

* **`moveToPendingList`** — the call;
* **`moved_of_mem`** — it drains the requests on its list;
* **`listed_eq_empty`** — but no step of the server puts a request there;
* **`drained_iff`** — so it drains the table exactly when there is nothing to drain.
-/

namespace ResourceTuner

namespace Server

open RequestManager

/-- The request may run while the display is off. -/
def Background (request : Request) : Prop := request.getProcessingModes &&& MODE_SUSPEND ≠ 0

instance (request : Request) : Decidable (Background request) :=
  inferInstanceAs (Decidable (_ ≠ _))

def listed (s : Server) (list : RequestListType) : UnorderedSet ReqPtr :=
  s.tracker.manager.mRequestsList list

/-- `mRequestsList[PENDING_TUNE].insert(request)`. -/
def addPending (s : Server) (request : ReqPtr) : Server :=
  { s with tracker := { s.tracker with manager := { s.tracker.manager with
      mRequestsList := Function.update s.tracker.manager.mRequestsList .PENDING_TUNE
        ((s.tracker.manager.mRequestsList .PENDING_TUNE).insert request) } } }

/-- The untune message for a request; its duration is what was in its block. -/
def drainUntune (request : Request) (duration : Int) : Request :=
  let untune := request.populateUntuneRequest duration
  { untune with toMessage := untune.toMessage.setPriority HIGH_TRANSFER_PRIORITY }

/-- The body of the loop of `moveToPendingList`.  `block` is the block that the untune message of a
request gets, `none` where the allocation fails. -/
def moveToPending (block : ReqPtr → Option ReqPtr) (duration : Int) (s : Server)
    (request : ReqPtr) : Server :=
  if Background (s.heap request) then s
  else
    match block request with
    | none => s.addPending request
    | some untune =>
      ((s.arrive untune (drainUntune (s.heap request) duration) true).addAndWakeup
        untune).addPending request

def moveToPendingList (s : Server) (block : ReqPtr → Option ReqPtr) (duration : Int) : Server :=
  (s.listed .ACTIVE_TUNE).elems.foldl (moveToPending block duration) s

/-! ## What it does for the requests on its list -/

theorem getPriority_drainUntune (request : Request) (duration : Int) :
    (drainUntune request duration).getPriority = HIGH_TRANSFER_PRIORITY := by
  show Message.getPriority _ = _
  rw [Message.getPriority_eq, drainUntune, Message.setWidth_setPriority]
  -- OR-ing all ones in
  have hones : BitVec.ofInt 8 HIGH_TRANSFER_PRIORITY = BitVec.allOnes 8 := by decide
  rw [hones, BitVec.or_allOnes]
  rfl

section Drain

variable {s : Server} (block : ReqPtr → ReqPtr) (duration : Int) {r other : ReqPtr}

/-- The step touches the block of the untune message and no other. -/
theorem moveToPending_of_ne (h : other ≠ block r) :
    (moveToPending (some ∘ block) duration s r).heap other = s.heap other ∧
      (moveToPending (some ∘ block) duration s r).stage other = s.stage other := by
  unfold moveToPending
  split
  · exact ⟨rfl, rfl⟩
  · simp only [Function.comp_apply]
    refine ⟨?_, ?_⟩
    · rw [show ∀ t : Server, (t.addPending r).heap = t.heap from fun _ => rfl, addAndWakeup_heap]
      exact Function.update_of_ne h _ _
    · rw [show ∀ t : Server, (t.addPending r).stage = t.stage from fun _ => rfl,
        addAndWakeup_stage_of_ne h]
      rfl

/-- The untune message is in the queue, and the request on the pending list. -/
theorem moveToPending_self (h : ¬ Background (s.heap r)) :
    (moveToPending (some ∘ block) duration s r).stage (block r) = .queued ∧
      (moveToPending (some ∘ block) duration s r).heap (block r) =
        drainUntune (s.heap r) duration ∧
      r ∈ (moveToPending (some ∘ block) duration s r).listed .PENDING_TUNE := by
  have hheap : (s.arrive (block r) (drainUntune (s.heap r) duration) true).heap (block r) =
      drainUntune (s.heap r) duration := Function.update_self _ _ _
  -- the queue takes it: its priority is not below the clean-up trigger's
  have hpriority : ¬ ((s.arrive (block r) (drainUntune (s.heap r) duration) true).heap
      (block r)).getPriority < SERVER_CLEANUP_TRIGGER_PRIORITY := by
    rw [hheap, getPriority_drainUntune]
    decide
  rw [moveToPending, if_neg h]
  simp only [Function.comp_apply]
  refine ⟨?_, ?_, ?_⟩
  · show (addAndWakeup _ _).stage _ = _
    rw [addAndWakeup, if_neg hpriority, goto_stage_self]
  · show (addAndWakeup _ _).heap _ = _
    rw [addAndWakeup, if_neg hpriority, goto_heap, hheap]
  · rw [listed, addPending]
    simp

theorem pending_moveToPending (h : other ∈ s.listed .PENDING_TUNE) :
    other ∈ (moveToPending (some ∘ block) duration s r).listed .PENDING_TUNE := by
  unfold moveToPending
  split
  · exact h
  · simp only [Function.comp_apply, listed, addPending, Function.update_self,
      UnorderedSet.mem_insert]
    right
    rw [addAndWakeup_tracker]
    exact h

variable {requests : List ReqPtr}

theorem foldl_moveToPending_of_notMem (h : ∀ r ∈ requests, other ≠ block r) :
    (requests.foldl (moveToPending (some ∘ block) duration) s).heap other = s.heap other ∧
      (requests.foldl (moveToPending (some ∘ block) duration) s).stage other = s.stage other := by
  induction requests generalizing s with
  | nil => exact ⟨rfl, rfl⟩
  | cons r rest ih =>
    obtain ⟨hheap, hstage⟩ := moveToPending_of_ne (s := s) block duration (h r List.mem_cons_self)
    obtain ⟨hheap', hstage'⟩ := ih (s := moveToPending (some ∘ block) duration s r)
      fun r' hr' => h r' (List.mem_cons_of_mem _ hr')
    exact ⟨hheap'.trans hheap, hstage'.trans hstage⟩

theorem pending_foldl_moveToPending (h : other ∈ s.listed .PENDING_TUNE) :
    other ∈ (requests.foldl (moveToPending (some ∘ block) duration) s).listed .PENDING_TUNE := by
  induction requests generalizing s with
  | nil => exact h
  | cons r rest ih => exact ih (pending_moveToPending block duration h)

/-- The loop drains every request it walks over, if each untune message gets a block of its own. -/
theorem moved_of_mem (hnodup : (requests.map block).Nodup)
    (hunused : ∀ r ∈ requests, ∀ r' ∈ requests, r ≠ block r') (hr : r ∈ requests)
    (h : ¬ Background (s.heap r)) :
    (requests.foldl (moveToPending (some ∘ block) duration) s).stage (block r) = .queued ∧
      (requests.foldl (moveToPending (some ∘ block) duration) s).heap (block r) =
        drainUntune (s.heap r) duration ∧
      r ∈ (requests.foldl (moveToPending (some ∘ block) duration) s).listed .PENDING_TUNE := by
  induction requests generalizing s with
  | nil => cases hr
  | cons first rest ih =>
    obtain ⟨hfirst, hrest⟩ := List.nodup_cons.mp hnodup
    rcases List.mem_cons.mp hr with rfl | hmem
    · -- the later messages have other blocks
      have hother : ∀ r' ∈ rest, block r ≠ block r' := fun r' hr' heq =>
        hfirst (heq ▸ List.mem_map_of_mem hr')
      obtain ⟨hstage, hheap, hpending⟩ := moveToPending_self block duration h
      obtain ⟨hheap', hstage'⟩ := foldl_moveToPending_of_notMem block duration
        (s := moveToPending (some ∘ block) duration s r) hother
      have hstill := @pending_foldl_moveToPending _ block duration _ rest hpending
      exact ⟨hstage'.trans hstage, hheap'.trans hheap, hstill⟩
    · have hheap := (moveToPending_of_ne (s := s) block duration
        (hunused r hr first List.mem_cons_self)).1
      have hmoved := ih (s := moveToPending (some ∘ block) duration s first) hrest
        (fun r hr r' hr' => hunused r (List.mem_cons_of_mem _ hr) r' (List.mem_cons_of_mem _ hr'))
        hmem (by rw [hheap]; exact h)
      rw [hheap] at hmoved
      exact hmoved

end Drain

/-! ## What there is on its list -/

section Lists

variable {env : Env}

theorem shouldRequestBeAdded_mRequestsList (maxRequests : Nat) (heap : Heap) (t : Tracker)
    (request : Request) :
    (shouldRequestBeAdded maxRequests heap t request).2.manager.mRequestsList =
      t.manager.mRequestsList := by
  unfold shouldRequestBeAdded
  split
  · rfl
  · split
    · rfl
    · unfold requestMatch
      simp only
      split
      · rfl
      · split <;> rfl

theorem addRequest_mRequestsList (maxRequests : Nat) (heap : Heap) (t : Tracker)
    (request : ReqPtr) :
    (addRequest maxRequests heap t request).2.manager.mRequestsList = t.manager.mRequestsList := by
  unfold addRequest
  simp only
  repeat' split
  all_goals rfl

theorem disableRequestProcessing_mRequestsList (t : Tracker) (handle : Int) :
    (disableRequestProcessing t handle).2.manager.mRequestsList = t.manager.mRequestsList := by
  unfold disableRequestProcessing
  split <;> rfl

/-- No call of a worker writes the lists. -/
theorem work_mRequestsList (s : Server) (req : ReqPtr) (answer : Answer) :
    (s.work env req answer).tracker.manager.mRequestsList = s.tracker.manager.mRequestsList := by
  cases hstage : s.stage req <;> simp only [work, hstage, proceed_tracker]
  case clientCheck => cases (s.heap req).mReqType <;> simp
  case disable => exact disableRequestProcessing_mRequestsList _ _
  case verify =>
    split
    · rfl
    · split <;> rfl
  case shouldBeAdded => exact shouldRequestBeAdded_mRequestsList _ _ _ _
  case add => exact addRequest_mRequestsList _ _ _ _
  case enqueue =>
    rw [addAndWakeup]
    split <;> rfl

/-- No call of the consumer writes the lists. -/
theorem consume_mRequestsList (s : Server) (answer : Answer) :
    (s.consume env answer).tracker.manager.mRequestsList = s.tracker.manager.mRequestsList := by
  cases hconsumer : s.consumer <;> simp only [consume, hconsumer]
  all_goals first
    | rfl
    | (repeat' split) <;> rfl

theorem next_mRequestsList (s : Server) (e : Event) :
    (next env s e).tracker.manager.mRequestsList = s.tracker.manager.mRequestsList := by
  cases e with
  | receive req request isValidated => rfl
  | work req answer => exact work_mRequestsList s req answer
  | pop req => rw [next, pop_tracker]
  | consume answer => exact consume_mRequestsList s answer
  | timerExpired req target duration =>
    rw [next, addAndWakeup_tracker]
    rfl

/-- In every state the server can reach both lists are as the constructor left them. -/
theorem listed_eq_empty {s : Server} (hreachable : Reachable env s) (list : RequestListType) :
    s.listed list = .empty := by
  obtain ⟨heap, events, hrun, rfl⟩ := hreachable
  have hlists : ((machine env).exec (init heap) events).tracker.manager.mRequestsList =
      fun _ => .empty :=
    Machine.Steps.invariant (I := fun s => s.tracker.manager.mRequestsList = fun _ => .empty) hrun
      rfl fun s e hempty _ => (next_mRequestsList s e).trans hempty
  rw [listed, hlists]

end Lists

/-! ## When the table is drained -/

/-- What suspending the server in `s` must bring about in `s'`: every active request that may not
run in the background has an untune message in the queue and is on the pending list, and no other
request got an untune message. -/
structure Drained (s s' : Server) : Prop where
  moved : ∀ handle req status, s.active.lookup handle = some (some req, status) →
    ¬ Background (s.heap req) →
      (∃ untune, s'.stage untune = .queued ∧ (s'.heap untune).mReqType = .REQ_RESOURCE_UNTUNING ∧
        (s'.heap untune).mHandle = handle) ∧ req ∈ s'.listed .PENDING_TUNE
  others : ∀ untune ∈ s'.received, untune ∉ s.received →
    ∃ handle req status, s.active.lookup handle = some (some req, status) ∧
      ¬ Background (s.heap req) ∧ (s'.heap untune).mHandle = handle

/-- Suspending drains the table exactly in the states in which every active request may run in the
background. -/
theorem drained_iff {env : Env} {s : Server} (hreachable : Reachable env s)
    (block : ReqPtr → ReqPtr) (duration : Int) :
    Drained s (s.moveToPendingList (some ∘ block) duration) ↔
      ∀ handle req status, s.active.lookup handle = some (some req, status) →
        Background (s.heap req) := by
  have hsame : s.moveToPendingList (some ∘ block) duration = s := by
    rw [moveToPendingList, listed_eq_empty hreachable]
    rfl
  rw [hsame]
  constructor
  · intro h handle req status hactive
    by_contra hforeground
    have hpending := (h.moved handle req status hactive hforeground).2
    rw [listed_eq_empty hreachable] at hpending
    exact UnorderedSet.notMem_empty _ hpending
  · intro h
    exact ⟨fun handle req status hactive hforeground =>
      absurd (h handle req status hactive) hforeground, fun untune hmem hnew => absurd hmem hnew⟩

end Server

namespace Sample

open Server

theorem reachable_known : Reachable env ((machine env).exec server known) :=
  ⟨_, known, by decide, rfl⟩

theorem drained_iff_known :
    Drained ((machine env).exec server known)
        (((machine env).exec server known).moveToPendingList (some ∘ (· + 10)) 0) ↔
      ∀ handle req status,
        ((machine env).exec server known).active.lookup handle = some (some req, status) →
          Background (((machine env).exec server known).heap req) :=
  drained_iff reachable_known (· + 10) 0

/-- A tune request of a client, in the table, which the display keeps out of the background. -/
theorem foreground_request_not_drained :
    Reachable env ((machine env).exec server known) ∧
      ¬ Drained ((machine env).exec server known)
        (((machine env).exec server known).moveToPendingList (some ∘ (· + 10)) 0) := by
  refine ⟨reachable_known, fun h => ?_⟩
  have hpending := (h.moved 1 1 (REQ_UNCHANGED ||| REQ_COMPLETED) (by decide) (by decide)).2
  revert hpending
  decide

end Sample

end ResourceTuner
