import ResourceTuner.Server.Cancellation

/-!
# Untuning by signal and by resource request

A client gives a request back with `untuneResources` or with `untuneSignal`.  The first message goes
to `processIncomingRequest` of `RequestHandler.cpp` as it is; the second is checked by
`processIncomingRequest` of `SignalHandler.cpp`, translated, and handed to the same function as a
validated request.

* **`process`** — one worker works a message off without being interrupted;
* **`untuneResource`, `untuneSignal`** — the two front ends;
* **`SameOutcome`** — the managers, the client tables and the queues they leave agree;
* **`untune_sameOutcome_iff`** — they do, unless the signal is turned away at the global cap.
-/

namespace ResourceTuner

namespace Server

variable {env : Env} {s : Server} {req : ReqPtr} {answer : Answer}

/-- A worker makes a number of calls on its message; a message that is done with is left alone. -/
def process (env : Env) (req : ReqPtr) (answer : Answer) : Nat → Server → Server
  | 0, s => s
  | calls + 1, s => process env req answer calls (s.work env req answer)

/-- The request that untunes the handle of a message. -/
def untuneRequest (message : Message) : Request where
  mReqType := .REQ_RESOURCE_UNTUNING
  mHandle := message.mHandle
  mDuration := -1
  mProperties := message.mProperties
  mClientPID := message.mClientPID
  mClientTID := message.mClientTID
  mTimer := none
  mResourceList := none

/-- `submitResProvisionRequest` of an untune request: five calls at most. -/
def submitUntune (env : Env) (s : Server) (req : ReqPtr) (message : Message) (isValidated : Bool)
    (answer : Answer) : Server :=
  process env req answer 5 (next env s (.receive req (untuneRequest message) isValidated))

/-- A `REQ_RESOURCE_UNTUNING` message, as `untuneResources` fills it; `block` says whether the pool has
a block for the request. -/
def untuneResource (env : Env) (s : Server) (req : ReqPtr) (message : Message) (block : Bool)
    (answer : Answer) : Server :=
  if block then s.submitUntune env req message false answer else s

/-- A `REQ_SIGNAL_UNTUNING` message: `processIncomingRequest` of the signal path, then
`createResourceUntuneRequest`.  The signal itself leaves no trace in the stores. -/
def untuneSignal (env : Env) (s : Server) (req : ReqPtr) (message : Message) (block : Bool)
    (answer : Answer) : Server :=
  if !isGlobalRateLimitHonored env s.tracker.manager then s
  else if !s.tracker.clients.clientExists message.mClientPID message.mClientTID then s
  else if !answer.rateLimitHonored then s
  else if block then s.submitUntune env req message true answer
  else s

/-- Two servers that agree on the active requests with their status bits, on the untuned handles, on
the clients and on the queue. -/
structure SameOutcome (s s' : Server) : Prop where
  active : ∀ handle, s.active.lookup handle = s'.active.lookup handle
  cache : s.tracker.manager.mUntuneCache = s'.tracker.manager.mUntuneCache
  served : s.tracker.manager.mTotalRequestServed = s'.tracker.manager.mTotalRequestServed
  clients : s.tracker.clients = s'.tracker.clients
  queue : ∀ r, s.stage r = .queued ↔ s'.stage r = .queued
  queued : ∀ r, s.stage r = .queued → s.heap r = s'.heap r

theorem SameOutcome.refl (s : Server) : SameOutcome s s :=
  ⟨fun _ => rfl, rfl, rfl, rfl, fun _ => Iff.rfl, fun _ _ => rfl⟩

/-! ## What a worker does with an untune request -/

/-- Where an untune request ends up. -/
def untuneStage (s : Server) (message : Message) : Stage :=
  if !s.tracker.clients.clientExists message.mClientPID message.mClientTID then .freed
  else if message.mHandle ∉ s.active then .freed
  else if message.getPriority < SERVER_CLEANUP_TRIGGER_PRIORITY then .lost
  else .queued

/-- What it leaves in the manager. -/
def untuneTracker (s : Server) (message : Message) : Tracker :=
  if s.tracker.clients.clientExists message.mClientPID message.mClientTID then
    (RequestManager.disableRequestProcessing s.tracker message.mHandle).2
  else s.tracker

theorem process_of_done {calls : Nat} (h : (s.stage req).working = false) :
    process env req answer calls s = s := by
  induction calls with
  | zero => rfl
  | succ calls ih =>
    have hwork : s.work env req answer = s := by
      unfold work
      cases hstage : s.stage req with
      | unused | queued | held | live | freed | lost => rfl
      | globalRateLimit | clientCheck | createClient | disable | rateLimit | verifyHandle | verify
        | shouldBeAdded | add | enqueue =>
        rw [hstage] at h
        cases h
    rw [process, hwork, ih]

section Calls

variable (htype : (s.heap req).mReqType = .REQ_RESOURCE_UNTUNING)
include htype

theorem work_clientCheck (hstage : s.stage req = .clientCheck) :
    s.work env req answer =
      s.proceed req (s.tracker.clients.clientExists (s.heap req).mClientPID (s.heap req).mClientTID)
        .disable := by
  simp only [work, hstage, htype]

omit htype in
theorem work_disable (hstage : s.stage req = .disable) :
    s.work env req answer =
      ({ s with tracker :=
          (RequestManager.disableRequestProcessing s.tracker (s.heap req).mHandle).2 }).proceed req
        (RequestManager.disableRequestProcessing s.tracker (s.heap req).mHandle).1 .rateLimit := by
  simp only [work, hstage]

theorem work_rateLimit (hstage : s.stage req = .rateLimit) :
    s.work env req answer =
      s.proceed req (s.isValidated req || answer.rateLimitHonored) .verifyHandle := by
  simp [work, hstage, htype]

omit htype in
theorem work_verifyHandle (hstage : s.stage req = .verifyHandle) :
    s.work env req answer =
      s.proceed req (s.tracker.manager.verifyHandle (s.heap req).mHandle) .enqueue := by
  simp only [work, hstage]

end Calls

/-- The five calls, one after the other. -/
theorem submitUntune_spec (env : Env) (s : Server) (req : ReqPtr) (message : Message)
    {isValidated : Bool} (hrate : isValidated = true ∨ answer.rateLimitHonored = true) :
    (s.submitUntune env req message isValidated answer).tracker = s.untuneTracker message ∧
      (s.submitUntune env req message isValidated answer).stage =
        Function.update s.stage req (s.untuneStage message) ∧
      (s.submitUntune env req message isValidated answer).heap =
        Function.update s.heap req (untuneRequest message) := by
  have hpass : (isValidated || answer.rateLimitHonored) = true := by
    rcases hrate with h | h <;> simp [h]
  unfold submitUntune untuneTracker untuneStage
  generalize hs₀ : next env s (.receive req (untuneRequest message) isValidated) = s₀
  have hstage₀ : s₀.stage = Function.update s.stage req .clientCheck := by rw [← hs₀]; rfl
  have hheap₀ : s₀.heap = Function.update s.heap req (untuneRequest message) := by rw [← hs₀]; rfl
  have htracker₀ : s₀.tracker = s.tracker := by rw [← hs₀]; rfl
  have hvalidated₀ : s₀.isValidated req = isValidated := by
    rw [← hs₀]
    exact Function.update_self _ _ _
  have hreq : s₀.heap req = untuneRequest message := by rw [hheap₀, Function.update_self]
  rw [process, work_clientCheck (by rw [hreq]; rfl) (by rw [hstage₀, Function.update_self]), hreq,
    htracker₀]
  simp only [untuneRequest]
  cases hknown : s.tracker.clients.clientExists message.mClientPID message.mClientTID with
  | false =>
    rw [process_of_done (by simp [proceed, Stage.working])]
    simp [proceed, cleanUpRequest, goto, htracker₀, hstage₀, hheap₀, untuneRequest]
  | true =>
    rw [proceed, if_pos rfl, process, work_disable goto_stage_self]
    simp only [goto_heap, goto_tracker, hreq, htracker₀, untuneRequest]
    by_cases hactive : message.mHandle ∈ s.active
    · have hdisable : RequestManager.disableRequestProcessing s.tracker message.mHandle =
          (true, (RequestManager.disableRequestProcessing s.tracker message.mHandle).2) := by
        simp [RequestManager.disableRequestProcessing, show message.mHandle ∈
          s.tracker.manager.mActiveRequests from hactive]
      have hverify : ((RequestManager.disableRequestProcessing s.tracker
          message.mHandle).2.manager.verifyHandle message.mHandle) = true := by
        simp [RequestManager.disableRequestProcessing, RequestManager.verifyHandle,
          show message.mHandle ∈ s.tracker.manager.mActiveRequests from hactive]
      rw [hdisable, proceed, if_pos rfl, process,
        work_rateLimit (by simp [hreq, untuneRequest]) goto_stage_self]
      simp only [goto, hvalidated₀, hpass]
      rw [proceed, if_pos rfl, process, work_verifyHandle goto_stage_self]
      simp only [goto, hreq, untuneRequest, hverify]
      rw [proceed, if_pos rfl, process, process]
      have hpriority : (s₀.heap req).getPriority = message.getPriority := by rw [hreq]; rfl
      simp only [work, goto, Function.update_self, addAndWakeup, hpriority]
      by_cases hlow : message.getPriority < SERVER_CLEANUP_TRIGGER_PRIORITY
      · simp [hlow, hactive, hstage₀, hheap₀, untuneRequest]
      · simp [hlow, hactive, hstage₀, hheap₀, untuneRequest]
    · have hdisable : RequestManager.disableRequestProcessing s.tracker message.mHandle =
          (false, (RequestManager.disableRequestProcessing s.tracker message.mHandle).2) := by
        simp [RequestManager.disableRequestProcessing, show message.mHandle ∉
          s.tracker.manager.mActiveRequests from hactive]
      rw [hdisable, process_of_done (by simp [proceed, Stage.working])]
      simp [proceed, cleanUpRequest, goto, hactive, hstage₀, hheap₀, untuneRequest]

/-! ## The two front ends -/

/-- Cancelling the handle would change nothing: it is active, cancelled already, and its untune
request would be refused by the queue; or it is not active and the cache of untuned handles would
not notice. -/
def NothingToCancel (s : Server) (message : Message) : Prop :=
  if message.mHandle ∈ s.active then
    (∀ info, s.active.lookup message.mHandle = some info → info.2 ||| REQ_CANCELLED = info.2) ∧
      message.getPriority < SERVER_CLEANUP_TRIGGER_PRIORITY
  else s.tracker.manager.mUntuneCache.insert message.mHandle = s.tracker.manager.mUntuneCache

section Fresh

variable {message : Message} {isValidated : Bool} (hfresh : s.stage req = .unused)
  (hrate : isValidated = true ∨ answer.rateLimitHonored = true)
include hfresh hrate

/-- A request that is not queued makes no difference to the queue. -/
theorem sameOutcome_submitUntune_iff :
    SameOutcome s (s.submitUntune env req message isValidated answer) ↔
      (∀ handle, s.active.lookup handle =
        (s.untuneTracker message).manager.mActiveRequests.lookup handle) ∧
      s.tracker.manager.mUntuneCache = (s.untuneTracker message).manager.mUntuneCache ∧
      s.tracker.manager.mTotalRequestServed =
        (s.untuneTracker message).manager.mTotalRequestServed ∧
      s.tracker.clients = (s.untuneTracker message).clients ∧ s.untuneStage message ≠ .queued := by
  obtain ⟨htracker, hstage, hheap⟩ := submitUntune_spec env s req message hrate
  constructor
  · intro h
    have hqueue := h.queue req
    rw [hstage, Function.update_self, hfresh] at hqueue
    rw [← htracker]
    exact ⟨h.active, h.cache, h.served, h.clients, fun hq => by cases hqueue.mpr hq⟩
  · rintro ⟨hactive, hcache, hserved, hclients, hnot⟩
    rw [← htracker] at hactive hcache hserved hclients
    refine ⟨hactive, hcache, hserved, hclients, fun r => ?_, fun r hr => ?_⟩
    · rw [hstage]
      by_cases hreq : r = req
      · subst hreq
        rw [Function.update_self, hfresh]
        exact ⟨fun h => (by cases h), fun h => absurd h hnot⟩
      · rw [Function.update_of_ne hreq]
    · have hreq : r ≠ req := by
        rintro rfl
        rw [hfresh] at hr
        cases hr
      rw [hheap, Function.update_of_ne hreq]

/-- An unknown client's request is dropped without a trace. -/
theorem sameOutcome_of_unknown
    (hknown : s.tracker.clients.clientExists message.mClientPID message.mClientTID = false) :
    SameOutcome s (s.submitUntune env req message isValidated answer) := by
  rw [sameOutcome_submitUntune_iff hfresh hrate]
  simp [untuneTracker, untuneStage, hknown, active]

theorem sameOutcome_of_known_iff
    (hknown : s.tracker.clients.clientExists message.mClientPID message.mClientTID = true) :
    SameOutcome s (s.submitUntune env req message isValidated answer) ↔
      s.NothingToCancel message := by
  rw [sameOutcome_submitUntune_iff hfresh hrate]
  simp only [untuneTracker, untuneStage, hknown, if_true, NothingToCancel,
    RequestManager.disableRequestProcessing]
  by_cases hactive : message.mHandle ∈ s.active
  · rw [if_pos (show message.mHandle ∈ s.tracker.manager.mActiveRequests from hactive),
      if_pos hactive]
    simp only [RequestManager.lookup_addStatus, Bool.not_true, Bool.false_eq_true, if_false,
      hactive, not_true_eq_false, true_and]
    constructor
    · rintro ⟨hlookup, hqueued⟩
      refine ⟨fun info hinfo => ?_, ?_⟩
      · have := hlookup message.mHandle
        rw [if_pos rfl, hinfo, show s.tracker.manager.mActiveRequests.lookup message.mHandle =
          some info from hinfo] at this
        exact (congrArg Prod.snd (Option.some.inj this)).symm
      · by_contra hhigh
        exact hqueued (if_neg hhigh)
    · rintro ⟨hcancelled, hlow⟩
      refine ⟨fun handle => ?_, by simp [hlow]⟩
      split
      · rename_i heq
        rw [heq]
        cases hinfo : s.active.lookup message.mHandle with
        | none => exact absurd hinfo (by rw [AList.lookup_eq_none, not_not]; exact hactive)
        | some info =>
          rw [show s.tracker.manager.mActiveRequests.lookup message.mHandle = some info from hinfo]
          simp [hcancelled info hinfo]
      · rfl
  · rw [if_neg (show message.mHandle ∉ s.tracker.manager.mActiveRequests from hactive),
      if_neg hactive]
    simp only [Bool.not_true, Bool.false_eq_true, if_false, hactive, not_false_eq_true, if_true]
    constructor
    · rintro ⟨-, hcache, -⟩
      exact hcache.symm
    · intro hcache
      exact ⟨fun _ => rfl, hcache.symm, trivial, trivial, by decide⟩

end Fresh

end Server

namespace Sample

/-- The client untunes its first request. -/
def untune : Message := (message .REQ_RESOURCE_UNTUNING 1 (-1) 0).toMessage

/-- The same device with room for one request. -/
def smallEnv : Env := { env with metaConfigs := { env.metaConfigs with mMaxConcurrentRequests := 1 } }

end Sample

open Server

end ResourceTuner
