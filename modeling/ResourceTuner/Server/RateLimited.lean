import ResourceTuner.Server.SignalUntune

/-!
# Messages that the rate limiter drops

`processIncomingRequest` asks the rate limiter after it has called `disableRequestProcessing`.  A retune
message that the limiter turns away leaves no trace; an untune message has marked its handle by then, and
the consumer will drop the tune request although nobody untuned it.

* **`submit`**, **`TurnedAway`** — a message that gets as far as the limiter and no further;
* **`Undisturbed`** — the stores are as before, and so is what the consumer does with a queued request;
* **`undisturbed_iff`** — when a dropped message has no effect.
-/

namespace ResourceTuner

namespace Server

open Machine

variable {env : Env} {s s' : Server} {req tune : ReqPtr} {request : Request} {answer : Answer}

/-- `submitResProvisionRequest` of a message of a client: its worker makes at most five calls. -/
def submit (env : Env) (s : Server) (req : ReqPtr) (request : Request) (answer : Answer) : Server :=
  process env req answer 5 (next env s (.receive req request false))

/-- The untune or retune message gets to the rate limiter, which refuses it. -/
structure TurnedAway (env : Env) (s : Server) (req : ReqPtr) (request : Request) (answer : Answer) :
    Prop where
  fresh : s.stage req = .unused
  type : request.mReqType = .REQ_RESOURCE_UNTUNING ∨ request.mReqType = .REQ_RESOURCE_RETUNING
  reached : ∃ calls, (process env req answer calls
    (next env s (.receive req request false))).stage req = .rateLimit
  refused : answer.rateLimitHonored = false

/-- The active requests with their status bits, the untuned handles, the queue and the table are as
before, and the consumer does the same with a tune request that is still queued. -/
structure Undisturbed (env : Env) (s s' : Server) : Prop where
  active : ∀ handle, s'.active.lookup handle = s.active.lookup handle
  cache : s'.tracker.manager.mUntuneCache = s.tracker.manager.mUntuneCache
  queue : ∀ r, s'.stage r = .queued ↔ s.stage r = .queued
  queued : ∀ r, s.stage r = .queued → s'.heap r = s.heap r
  table : s'.table = s.table
  applied : ∀ tune (answers : List Answer), s.consumer = .idle → s.stage tune = .queued →
    (s.heap tune).mReqType = .REQ_RESOURCE_TUNING →
    let drain := .pop tune :: answers.map Event.consume
    ((machine env).exec s' drain).table = ((machine env).exec s drain).table ∧
      ((machine env).exec s' drain).stage tune = ((machine env).exec s drain).stage tune

/-! ## What is left of a dropped message -/

/-- What the message has done to the manager by the time it is dropped. -/
def droppedTracker (s : Server) (request : Request) : Tracker :=
  if request.mReqType = .REQ_RESOURCE_UNTUNING then
    (RequestManager.disableRequestProcessing s.tracker request.mHandle).2
  else s.tracker

theorem working_of_reached {calls : Nat}
    (h : (process env req answer calls s).stage req = .rateLimit) : (s.stage req).working = true := by
  cases hworking : (s.stage req).working with
  | true => rfl
  | false =>
    rw [process_of_done hworking] at h
    rw [h] at hworking
    cases hworking

theorem work_rateLimit_of_refused (hstage : s.stage req = .rateLimit)
    (hvalidated : s.isValidated req = false) (hrefused : answer.rateLimitHonored = false) :
    s.work env req answer = s.cleanUpRequest req := by
  simp [work, hstage, hvalidated, hrefused, proceed]

/-- A message that is turned away is freed; its handle was active if it was an untune message. -/
theorem submit_of_turnedAway (h : TurnedAway env s req request answer) :
    (s.submit env req request answer).tracker = s.droppedTracker request ∧
      (s.submit env req request answer).stage = Function.update s.stage req .freed ∧
      (s.submit env req request answer).heap = Function.update s.heap req request ∧
      (s.submit env req request answer).table = s.table ∧
      (s.submit env req request answer).consumer = s.consumer ∧
      (request.mReqType = .REQ_RESOURCE_UNTUNING → request.mHandle ∈ s.active) := by
  obtain ⟨hfresh, htype, ⟨calls, hreached⟩, hrefused⟩ := h
  have hnot : request.mReqType ≠ .REQ_RESOURCE_TUNING := by
    rcases htype with htype | htype <;> rw [htype] <;> decide
  unfold submit droppedTracker
  generalize hs₀ : next env s (.receive req request false) = s₀ at hreached ⊢
  have hstage₀ : s₀.stage = Function.update s.stage req .clientCheck := by
    rw [← hs₀]
    simp [next, arrive, goto, hnot]
  have hheap₀ : s₀.heap = Function.update s.heap req request := by rw [← hs₀]; rfl
  have htracker₀ : s₀.tracker = s.tracker := by rw [← hs₀]; rfl
  have htable₀ : s₀.table = s.table := by rw [← hs₀]; rfl
  have hconsumer₀ : s₀.consumer = s.consumer := by rw [← hs₀]; rfl
  have hvalidated₀ : s₀.isValidated req = false := by
    rw [← hs₀]
    exact Function.update_self _ _ _
  have hreq : s₀.heap req = request := by rw [hheap₀, Function.update_self]
  have hcheck : s₀.stage req = .clientCheck := by rw [hstage₀, Function.update_self]
  -- the message is still with its worker after the client check
  obtain ⟨calls, rfl⟩ : ∃ n, calls = n + 1 := by
    cases calls with
    | zero =>
      rw [process, hcheck] at hreached
      cases hreached
    | succ n => exact ⟨n, rfl⟩
  rw [process] at hreached ⊢
  have hworking := working_of_reached hreached
  cases hknown : s₀.tracker.clients.clientExists request.mClientPID request.mClientTID with
  | false =>
    have hwork : s₀.work env req answer = s₀.cleanUpRequest req := by
      rcases htype with htype | htype <;> simp [work, hcheck, hreq, htype, hknown, proceed]
    rw [hwork, cleanUpRequest_stage_self] at hworking
    cases hworking
  | true =>
    rcases htype with htype | htype
    · have hwork : s₀.work env req answer = s₀.goto req .disable := by
        simp [work, hcheck, hreq, htype, hknown, proceed]
      have hdisable := @work_disable env (s₀.goto req .disable) req answer goto_stage_self
      simp only [goto_heap, goto_tracker, hreq, htracker₀] at hdisable
      rw [hwork] at hreached ⊢
      obtain ⟨calls, rfl⟩ : ∃ n, calls = n + 1 := by
        cases calls with
        | zero =>
          rw [process, goto_stage_self] at hreached
          cases hreached
        | succ n => exact ⟨n, rfl⟩
      rw [process, hdisable] at hreached
      have hworking := working_of_reached hreached
      rw [process, hdisable]
      have hheard : (RequestManager.disableRequestProcessing s.tracker request.mHandle).1 = true := by
        cases hfound : (RequestManager.disableRequestProcessing s.tracker request.mHandle).1 with
        | true => rfl
        | false =>
          rw [hfound, proceed, if_neg (by decide), cleanUpRequest_stage_self] at hworking
          cases hworking
      have hactive : request.mHandle ∈ s.active := by
        by_contra hno
        simp [RequestManager.disableRequestProcessing, show request.mHandle ∉
          s.tracker.manager.mActiveRequests from hno] at hheard
      rw [hheard, proceed, if_pos rfl, process,
        work_rateLimit_of_refused goto_stage_self (by exact hvalidated₀) hrefused,
        process_of_done (by rw [cleanUpRequest_stage_self]; rfl)]
      refine ⟨?_, ?_, hheap₀, htable₀, hconsumer₀, fun _ => hactive⟩
      · rw [htype]
        rfl
      · simp [cleanUpRequest, goto, hstage₀]
    · have hwork : s₀.work env req answer = s₀.goto req .rateLimit := by
        simp [work, hcheck, hreq, htype, hknown, proceed]
      rw [hwork, process, work_rateLimit_of_refused goto_stage_self hvalidated₀ hrefused,
        process_of_done (by rw [cleanUpRequest_stage_self]; rfl)]
      refine ⟨?_, ?_, hheap₀, htable₀, hconsumer₀, fun h => ?_⟩
      · rw [htype]
        exact htracker₀
      · simp [cleanUpRequest, goto, hstage₀]
      · rw [htype] at h
        cases h

/-! ## The consumer and a queued tune request -/

/-- Two servers between which the consumer, when it works on the tune request, sees no difference. -/
structure Alike (s s' : Server) (tune : ReqPtr) : Prop where
  active : ∀ handle, s'.active.lookup handle = s.active.lookup handle
  heap : s'.heap tune = s.heap tune
  table : s'.table = s.table
  stage : s'.stage tune = s.stage tune
  consumer : s'.consumer = s.consumer
  works : s.consumer = .idle ∨ s.consumer = .status tune ∨ s.consumer = .mark tune ∨
    s.consumer = .insert tune ∨ s.consumer = .discard tune

theorem Alike.status (h : Alike s s' tune) (handle : Int) :
    s'.tracker.manager.getRequestProcessingStatus handle =
      s.tracker.manager.getRequestProcessingStatus handle := by
  have hlookup := h.active handle
  simp only [Server.active] at hlookup
  simp only [RequestManager.getRequestProcessingStatus, hlookup]

/-- The consumer makes the same call and finds the same. -/
theorem Alike.consume (h : Alike s s' tune) (answer : Answer) :
    Alike (s.consume env answer) (s'.consume env answer) tune := by
  obtain ⟨hactive, hheap, htable, hstage, hconsumer, hworks⟩ := h
  have hstatus (handle : Int) : s'.tracker.manager.getRequestProcessingStatus handle =
      s.tracker.manager.getRequestProcessingStatus handle :=
    Alike.status ⟨hactive, hheap, htable, hstage, hconsumer, hworks⟩ handle
  rcases hworks with hworks | hworks | hworks | hworks | hworks
  · rw [hworks] at hconsumer
    simp only [Server.consume, hworks, hconsumer]
    exact ⟨hactive, hheap, htable, hstage, by rw [hworks, hconsumer], Or.inl hworks⟩
  · rw [hworks] at hconsumer
    simp only [Server.consume, hworks, hconsumer, hheap, hstatus]
    split
    · exact ⟨hactive, hheap, htable, hstage, rfl, by simp [turn]⟩
    · exact ⟨hactive, hheap, htable, hstage, rfl, by simp [turn]⟩
  · rw [hworks] at hconsumer
    simp only [Server.consume, hworks, hconsumer, hheap]
    refine ⟨fun handle => ?_, hheap, htable, hstage, rfl, by simp [turn]⟩
    have hlookup := hactive
    unfold Server.active at hlookup
    simp only [Server.active, turn, RequestManager.markRequestAsComplete,
      RequestManager.lookup_addStatus, hlookup]
  · rw [hworks] at hconsumer
    simp only [Server.consume, hworks, hconsumer, hheap, htable]
    split
    · exact ⟨hactive, by simp [turn, goto], rfl, by simp [turn, goto], rfl, Or.inl rfl⟩
    · exact ⟨hactive, by simp [turn], rfl, hstage, rfl, by simp [turn]⟩
  · rw [hworks] at hconsumer
    simp only [Server.consume, hworks, hconsumer]
    refine ⟨fun handle => ?_, hheap, htable, by simp [turn, cleanUpRequest, goto], rfl, Or.inl rfl⟩
    have hlookup := hactive handle
    unfold Server.active at hlookup
    simp only [Server.active, turn, cleanUpRequest, goto]
    rw [RequestManager.lookup_removeRequest, RequestManager.lookup_removeRequest, hheap, hlookup]

/-- So it leaves the same, in any number of calls. -/
theorem Alike.exec (h : Alike s s' tune) (answers : List Answer) :
    Alike ((machine env).exec s (answers.map Event.consume))
      ((machine env).exec s' (answers.map Event.consume)) tune := by
  induction answers generalizing s s' with
  | nil => exact h
  | cons answer rest ih =>
    rw [List.map_cons, Machine.exec_cons, Machine.exec_cons]
    exact ih (h.consume answer)

/-- A queued tune request is taken off the queue. -/
theorem alike_pop (hactive : ∀ handle, s'.active.lookup handle = s.active.lookup handle)
    (hheap : s'.heap tune = s.heap tune) (htable : s'.table = s.table)
    (hconsumer : s'.consumer = s.consumer) (hidle : s.consumer = .idle) (htype : (s.heap tune).mReqType = .REQ_RESOURCE_TUNING) :
    Alike (s.pop tune) (s'.pop tune) tune := by
  unfold pop
  rw [hheap]
  split
  · exact ⟨hactive, hheap, htable, by simp, hconsumer, Or.inl hidle⟩
  · exact ⟨hactive, hheap, htable, by simp [turn], rfl, by simp [turn]⟩

/-! ## The law -/

theorem or_cancelled_iff (status : BitVec 8) :
    status ||| REQ_CANCELLED = status ↔ hasBit status REQ_CANCELLED := by
  revert status
  decide

/-- What the dropped message has done to the active requests. -/
theorem droppedTracker_active_iff (h : TurnedAway env s req request answer) :
    (∀ handle, (s.droppedTracker request).manager.mActiveRequests.lookup handle =
      s.active.lookup handle) ↔
      request.mReqType = .REQ_RESOURCE_RETUNING ∨ ∃ info,
        s.active.lookup request.mHandle = some info ∧ hasBit info.2 REQ_CANCELLED := by
  obtain ⟨-, -, -, -, -, hheard⟩ := submit_of_turnedAway h
  unfold droppedTracker
  rcases h.type with htype | htype
  · have hactive := hheard htype
    obtain ⟨info, hinfo⟩ := Option.isSome_iff_exists.mp (AList.lookup_isSome.mpr hactive)
    have hmem : request.mHandle ∈ s.tracker.manager.mActiveRequests := hactive
    have hlookup : s.tracker.manager.mActiveRequests.lookup request.mHandle = some info := hinfo
    simp only [htype, if_true, RequestManager.disableRequestProcessing, hmem,
      RequestManager.lookup_addStatus, hlookup, Option.map_some]
    constructor
    · intro h
      have hsame := h request.mHandle
      rw [if_pos rfl, hinfo] at hsame
      have hstatus := (Prod.mk.inj (Option.some.inj hsame)).2
      exact Or.inr ⟨info, hinfo, (or_cancelled_iff info.2).mp hstatus⟩
    · rintro (h | ⟨info', hinfo', hcancelled⟩) handle
      · cases h
      · obtain rfl := Option.some.inj (hinfo.symm.trans hinfo')
        split
        · rename_i heq
          rw [heq, hinfo, (or_cancelled_iff info.2).mpr hcancelled]
        · rfl
  · rw [if_neg (by rw [htype]; decide)]
    exact iff_of_true (fun _ => rfl) (Or.inl htype)

/-- **A dropped message has no effect** exactly when it is a retune message or the handle it would
untune was cancelled before. -/
theorem undisturbed_iff (h : TurnedAway env s req request answer) :
    Undisturbed env s (s.submit env req request answer) ↔
      request.mReqType = .REQ_RESOURCE_RETUNING ∨ ∃ info,
        s.active.lookup request.mHandle = some info ∧ hasBit info.2 REQ_CANCELLED := by
  obtain ⟨htracker, hstage, hheap, htable, hconsumer, hheard⟩ := submit_of_turnedAway h
  rw [← droppedTracker_active_iff h]
  constructor
  · intro hundisturbed handle
    have hlookup := hundisturbed.active handle
    rwa [active, htracker] at hlookup
  · intro hactive
    have hlookup : ∀ handle, (s.submit env req request answer).active.lookup handle =
        s.active.lookup handle := by
      intro handle
      rw [active, htracker]
      exact hactive handle
    have hother : ∀ r, s.stage r = .queued → r ≠ req := by
      rintro r hqueued rfl
      rw [h.fresh] at hqueued
      cases hqueued
    refine ⟨hlookup, ?_, fun r => ?_, fun r hqueued => ?_, htable,
      fun tune answers hidle hqueued htype => ?_⟩
    · rw [htracker]
      unfold droppedTracker RequestManager.disableRequestProcessing
      split
      · rename_i huntune
        have hmem : request.mHandle ∈ s.tracker.manager.mActiveRequests := hheard huntune
        rw [if_pos hmem]
      · rfl
    · by_cases hr : r = req
      · rw [hstage, hr, Function.update_self, h.fresh]
        exact iff_of_false (by decide) (by decide)
      · rw [hstage, Function.update_of_ne hr]
    · rw [hheap, Function.update_of_ne (hother r hqueued)]
    · have hne := hother tune hqueued
      have hpop := alike_pop hlookup (by rw [hheap, Function.update_of_ne hne]) htable hconsumer
        hidle htype
      have halike := @Alike.exec env _ _ _ hpop answers
      exact ⟨halike.table, halike.stage⟩

end Server

namespace Sample

open Server

/-- The client sends its messages too fast. -/
def limited : Answer := { answer with rateLimitHonored := false }

/-- The first tune request of the client is queued. -/
def queued : List Event := worker 1 (tune 1) 8

end Sample

open Server

theorem undisturbed_by_retune :
    Undisturbed Sample.env ((machine Sample.env).exec Sample.server Sample.queued)
      (((machine Sample.env).exec Sample.server Sample.queued).submit Sample.env 2
        (Sample.message .REQ_RESOURCE_RETUNING 1 5 0) Sample.limited) :=
  (undisturbed_iff ⟨by decide, Or.inr rfl, ⟨1, by decide⟩, rfl⟩).mpr (Or.inl rfl)

/-- The untune message of a client that is too fast is dropped, and so is the tune request. -/
theorem disturbed_by_untune :
    TurnedAway Sample.env ((machine Sample.env).exec Sample.server Sample.queued) 2
        (Sample.message .REQ_RESOURCE_UNTUNING 1 (-1) 0) Sample.limited ∧
      ¬ Undisturbed Sample.env ((machine Sample.env).exec Sample.server Sample.queued)
        (((machine Sample.env).exec Sample.server Sample.queued).submit Sample.env 2
          (Sample.message .REQ_RESOURCE_UNTUNING 1 (-1) 0) Sample.limited) := by
  refine ⟨⟨by decide, Or.inl rfl, ⟨2, by decide⟩, rfl⟩, fun h => ?_⟩
  have happlied := (h.applied 1 (List.replicate 4 Sample.answer) (by decide) (by decide)
    (by decide)).2
  revert happlied
  decide

end ResourceTuner
