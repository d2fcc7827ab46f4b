import ResourceTuner.Server.FreedRequests

/-!
# An untune message races its tune message

A client may send a tune message and, at once, an untune message for the same handle; the two are
worked on by different threads.  Wherever the untune message overtakes the tune message, something
is left behind that stops it: the handle in the cache of untuned handles while the tune request is
not tracked, the cancelled bit while it is on its way to the consumer, and once the consumer has
let it pass, an untune message that is still to be popped.

* **`RivalStep`**, **`Roles`** — one tune message and any number of untune messages of a handle, none
  of them rate limited, and no other handle that enters the cache;
* **`Caught`** — what an untune message has left behind, by the position of the tune request;
* **`freed_of_heard`** — when all threads are done, a request whose untune message found the client has
  been freed;
* **`RaceStep`**, **`Cast`** — the same for an infinite tune message of a client that is known;
* **`untuned_of_race`** — nothing is left of its request.
-/

namespace ResourceTuner

namespace Server

variable {env : Env} {s s' : Server} {e : Event} {req tune : ReqPtr} {handle : Int} {answer : Answer}

/-! ## Calls that are about other messages -/

/-- A worker touches its own message only. -/
theorem work_frame (env : Env) (s : Server) (req : ReqPtr) (answer : Answer) :
    (s.work env req answer).consumer = s.consumer ∧
      (s.work env req answer).received = s.received ∧
      ∀ r, r ≠ req → (s.work env req answer).stage r = s.stage r ∧
        (s.work env req answer).heap r = s.heap r := by
  unfold work
  cases s.stage req with
  | unused | queued | held | live | freed | lost => exact ⟨rfl, rfl, fun r _ => ⟨rfl, rfl⟩⟩
  | globalRateLimit | createClient | disable | rateLimit | verifyHandle | shouldBeAdded | add =>
    exact ⟨by simp, by simp, fun r hr => by simp [proceed_stage_of_ne hr]⟩
  | clientCheck =>
    simp only
    split
    · exact ⟨rfl, rfl, fun r hr => ⟨goto_stage_of_ne hr, rfl⟩⟩
    · exact ⟨by simp, by simp, fun r hr => by simp [proceed_stage_of_ne hr]⟩
    · exact ⟨by simp, by simp, fun r hr => by simp [proceed_stage_of_ne hr]⟩
  | verify =>
    simp only
    split
    · exact ⟨rfl, rfl, fun r hr => ⟨goto_stage_of_ne hr, rfl⟩⟩
    · split
      · exact ⟨rfl, rfl, fun r hr => ⟨cleanUpRequest_stage_of_ne hr, rfl⟩⟩
      · exact ⟨rfl, rfl, fun r hr => ⟨goto_stage_of_ne hr, Function.update_of_ne hr _ _⟩⟩
  | enqueue =>
    simp only [addAndWakeup]
    split
    · exact ⟨rfl, rfl, fun r hr => ⟨goto_stage_of_ne hr, rfl⟩⟩
    · exact ⟨rfl, rfl, fun r hr => ⟨goto_stage_of_ne hr, rfl⟩⟩

/-- None of the calls makes a message a verified one. -/
@[simp] theorem proceed_isValidated {b : Bool} {stage : Stage} :
    (s.proceed req b stage).isValidated = s.isValidated := by cases b <;> rfl

/-- No call of a worker does. -/
theorem work_isValidated : (s.work env req answer).isValidated = s.isValidated := by
  unfold work
  cases s.stage req with
  | unused | queued | held | live | freed | lost => rfl
  | globalRateLimit | createClient | disable | rateLimit | verifyHandle | shouldBeAdded | add => simp
  | clientCheck | verify | enqueue =>
    simp only [addAndWakeup]
    repeat' split
    all_goals first
      | rfl
      | simp

/-- Nor does one of the consumer. -/
theorem consume_isValidated : (s.consume env answer).isValidated = s.isValidated := by
  unfold consume
  cases s.consumer with
  | idle | mark | discard | remove | untrack | crashed => rfl
  | status | insert | find | update =>
    simp only
    repeat' split
    all_goals rfl

/-- A worker that is not about to enqueue its message goes to another of its own stages or frees
it. -/
theorem work_self (env : Env) (s : Server) (answer : Answer) (hworking : (s.stage req).working)
    (henqueue : s.stage req ≠ .enqueue) :
    SameMessage (s.heap req) ((s.work env req answer).heap req) ∧
      ((s.work env req answer).stage req = .freed ∨
        ((s.work env req answer).stage req).working) := by
  unfold work
  cases hstage : s.stage req with
  | unused | queued | held | live | freed | lost =>
    rw [hstage] at hworking
    cases hworking
  | enqueue => exact absurd hstage henqueue
  | globalRateLimit | createClient | disable | rateLimit | verifyHandle | shouldBeAdded | add =>
    simp only [proceed_heap, proceed_stage_self]
    refine ⟨.refl _, ?_⟩
    split
    · right
      first
        | rfl
        | split <;> rfl
    · left
      rfl
  | clientCheck =>
    simp only
    split
    · refine ⟨.refl _, Or.inr ?_⟩
      simp only [goto_stage_self]
      split <;> rfl
    · simp only [proceed_heap, proceed_stage_self]
      refine ⟨.refl _, ?_⟩
      split
      · exact Or.inr rfl
      · exact Or.inl rfl
    · simp only [proceed_heap, proceed_stage_self]
      refine ⟨.refl _, ?_⟩
      split
      · exact Or.inr rfl
      · exact Or.inl rfl
  | verify =>
    simp only
    split
    · exact ⟨.refl _, Or.inr (by simp [Stage.working])⟩
    · split
      · exact ⟨.refl _, Or.inl (by simp)⟩
      · rename_i hverify
        refine ⟨?_, Or.inr (by simp [Stage.working])⟩
        simpa using sameMessage_of_verify hverify

/-- What a call of the consumer does to any message: it may change its duration and its timer, free it,
or bring the popped one into the table. -/
theorem consume_message (answer : Answer) (hinv : Inv env s) (r : ReqPtr) :
    Retimed (s.heap r) ((s.consume env answer).heap r) ∧
      ((s.consume env answer).stage r = s.stage r ∨
        (s.stage r = .held ∨ s.stage r = .live) ∧ (s.consume env answer).stage r = .freed ∨
        s.stage r = .held ∧ (s.consume env answer).stage r = .live) := by
  have hsame : Retimed (s.heap r) (s.heap r) := ⟨_, _, rfl⟩
  have hretimed : ∀ {target : ReqPtr} {request : Request}, Retimed (s.heap target) request →
      Retimed (s.heap r) (Function.update s.heap target request r) := by
    intro target request h
    by_cases heq : r = target
    · subst heq
      simpa using h
    · simpa [heq] using hsame
  have hfreed : ∀ {req : ReqPtr}, s.stage req = .held ∨ s.stage req = .live →
      Function.update s.stage req .freed r = s.stage r ∨
        (s.stage r = .held ∨ s.stage r = .live) ∧ Function.update s.stage req .freed r = .freed ∨
        s.stage r = .held ∧ Function.update s.stage req .freed r = .live := by
    intro req h
    by_cases heq : r = req
    · subst heq
      exact Or.inr (Or.inl ⟨h, Function.update_self _ _ _⟩)
    · exact Or.inl (Function.update_of_ne heq _ _)
  have hheld : ∀ {req : ReqPtr}, s.consumer.item = some req →
      s.stage req = .held ∨ s.stage req = .live := fun h => Or.inl (hinv.held h)
  cases hconsumer : s.consumer with
  | idle | crashed =>
    have hnext : s.consume env answer = s := by simp only [consume, hconsumer]
    rw [hnext]
    exact ⟨hsame, Or.inl rfl⟩
  | mark | remove =>
    simp only [consume, hconsumer]
    exact ⟨hsame, Or.inl rfl⟩
  | status req =>
    simp only [consume, hconsumer]
    split <;> exact ⟨hsame, Or.inl rfl⟩
  | insert req =>
    have hheld := hinv.held (show s.consumer.item = some req by rw [hconsumer]; rfl)
    have hrequest : Retimed (s.heap req) (s.table.insertRequest env (s.heap req) answer.timerBlock
        answer.enqueued).2.2 := by
      obtain ⟨timer, htimer⟩ := CocoTable.insertRequest_request
      exact ⟨_, timer, htimer⟩
    simp only [consume, hconsumer]
    split
    · refine ⟨hretimed hrequest, ?_⟩
      by_cases heq : r = req
      · subst heq
        exact Or.inr (Or.inr ⟨hheld, goto_stage_self⟩)
      · exact Or.inl (goto_stage_of_ne heq)
    · exact ⟨hretimed hrequest, Or.inl rfl⟩
  | discard req =>
    simp only [consume, hconsumer]
    exact ⟨hsame, hfreed (hheld (by rw [hconsumer]; rfl))⟩
  | find req =>
    have hdone := hfreed (hheld (show s.consumer.item = some req by rw [hconsumer]; rfl))
    simp only [consume, hconsumer]
    repeat' split
    all_goals first
      | exact ⟨hsame, hdone⟩
      | exact ⟨hsame, Or.inl rfl⟩
  | update req target status =>
    have hdone := hfreed (hheld (show s.consumer.item = some req by rw [hconsumer]; rfl))
    simp only [consume, hconsumer]
    split
    · exact ⟨hretimed ⟨_, (s.heap target).mTimer, rfl⟩, hdone⟩
    · split
      · exact ⟨hsame, Or.inl rfl⟩
      · rename_i hupdate
        exact ⟨hretimed (retimed_of_updateRequest hupdate), hdone⟩
  | untrack req target =>
    obtain ⟨hreq, -, hlive, hne⟩ := hinv.target_of_untrack hconsumer
    simp only [consume, hconsumer]
    refine ⟨hsame, ?_⟩
    by_cases heq : r = target
    · subst heq
      exact Or.inr (Or.inl ⟨Or.inr hlive, cleanUpRequest_stage_self⟩)
    · rw [show (turn (cleanUpRequest (cleanUpRequest _ req) target) Consumer.idle).stage r =
        (cleanUpRequest _ req).stage r from cleanUpRequest_stage_of_ne heq]
      exact hfreed (Or.inl hreq)

/-- The consumer receives nothing. -/
theorem received_consume : (s.consume env answer).received = s.received := by
  unfold consume
  cases s.consumer with
  | idle | mark | discard | remove | untrack | crashed => rfl
  | status | insert =>
    simp only
    split <;> rfl
  | find | update =>
    simp only
    repeat' split
    all_goals rfl

/-! ## The messages of the race -/

/-- What may happen while `tune` and the untune messages of its handle are worked on: no retune
message comes for the handle and no message of it is rate limited, no other handle enters the cache of
untuned handles, and the messages are queued with a priority above the clean-up trigger.  Messages of
other handles may do anything else. -/
def RivalStep (handle : Int) (tune : ReqPtr) (s : Server) : Event → Prop
  | .receive req request _ =>
    (req = tune → request.mReqType = .REQ_RESOURCE_TUNING ∧ request.mHandle = handle) ∧
      (req ≠ tune → request.mHandle = handle → request.mReqType = .REQ_RESOURCE_UNTUNING)
  | .work req answer =>
    ((s.heap req).mHandle = handle → s.stage req = .rateLimit →
        s.isValidated req || answer.rateLimitHonored) ∧
      ((s.heap req).mHandle = handle → s.stage req = .enqueue →
        SERVER_CLEANUP_TRIGGER_PRIORITY < (s.heap req).getPriority) ∧
      ((s.heap req).mHandle ≠ handle → s.stage req = .disable → (s.heap req).mHandle ∈ s.active)
  | .timerExpired req target _ =>
    req ≠ tune ∧ ((s.heap target).mHandle = handle →
      SERVER_CLEANUP_TRIGGER_PRIORITY < (s.heap target).getPriority)
  | .pop _ | .consume _ => True

instance (s : Server) (e : Event) : Decidable (RivalStep handle tune s e) :=
  match e with
  | .receive _ _ _ => inferInstanceAs (Decidable ((_ → _) ∧ (_ → _)))
  | .work _ _ => inferInstanceAs (Decidable ((_ → _) ∧ (_ → _) ∧ (_ → _)))
  | .timerExpired _ _ _ => inferInstanceAs (Decidable (_ ≠ _ ∧ (_ → _)))
  | .pop _ | .consume _ => .isTrue trivial

/-- What is known of a message at a stage: the messages of the handle are the tune request and untune
messages, and none is lost. -/
structure RoleAt (handle : Int) (tune : ReqPtr) (stage : Stage) (request : Request) (req : ReqPtr) :
    Prop where
  itself : req = tune → request.mReqType = .REQ_RESOURCE_TUNING ∧ request.mHandle = handle
  other : req ≠ tune → request.mHandle = handle → request.mReqType = .REQ_RESOURCE_UNTUNING
  queued : request.mHandle = handle → stage = .queued →
    SERVER_CLEANUP_TRIGGER_PRIORITY < request.getPriority
  kept : request.mHandle = handle → stage ≠ .lost

/-- The messages of the handle. -/
def Roles (handle : Int) (tune : ReqPtr) (s : Server) : Prop :=
  ∀ req, s.stage req ≠ .unused → RoleAt handle tune (s.stage req) (s.heap req) req

section Roles

variable (hroles : Roles handle tune s)
include hroles

/-- The tune message of the handle is a tune request from its arrival on. -/
theorem Roles.isTune (h : s.stage tune ≠ .unused) : s.IsTune tune :=
  ⟨h, ((hroles tune h).itself rfl).1⟩

/-- It keeps its handle. -/
theorem Roles.handle_tune (h : s.stage tune ≠ .unused) : (s.heap tune).mHandle = handle :=
  ((hroles tune h).itself rfl).2

/-- The tune request of the handle is the one of the race. -/
theorem Roles.eq_tune (htune : s.IsTune req) (hhandle : (s.heap req).mHandle = handle) :
    req = tune := by
  by_contra hne
  have htype := (hroles req htune.1).other hne hhandle
  rw [htune.2] at htype
  cases htype

/-- The handle is active exactly while the tune request is tracked. -/
theorem Roles.mem_active_iff (hinv : Inv env s) :
    handle ∈ s.active ↔ s.stage tune ≠ .unused ∧ (s.stage tune).tracked := by
  constructor
  · intro hmem
    obtain ⟨info, hinfo⟩ := Option.isSome_iff_exists.mp (AList.lookup_isSome.mpr hmem)
    obtain ⟨req, -, htune, htracked, hhandle⟩ := hinv.origin _ _ hinfo
    obtain rfl := hroles.eq_tune htune hhandle
    exact ⟨htune.1, htracked⟩
  · rintro ⟨hused, htracked⟩
    obtain ⟨status, hlookup, -⟩ := hinv.entry tune (hroles.isTune hused) htracked
    rw [hroles.handle_tune hused] at hlookup
    exact UnorderedMap.mem_of_lookup hlookup

/-- A step has to be looked at only where it changes something. -/
theorem Roles.frame (h : ∀ req, s'.stage req ≠ .unused →
    s'.stage req = s.stage req ∧ s'.heap req = s.heap req ∨
      RoleAt handle tune (s'.stage req) (s'.heap req) req) : Roles handle tune s' := by
  intro req hused'
  rcases h req hused' with ⟨hstage, hheap⟩ | hat
  · rw [hstage] at hused' ⊢
    rw [hheap]
    exact hroles req hused'
  · exact hat

end Roles

/-- A message that moves on, not onto the queue. -/
theorem RoleAt.move {stage stage' : Stage} {request request' : Request}
    (h : RoleAt handle tune stage request req) (htype : request'.mReqType = request.mReqType)
    (hhandle : request'.mHandle = request.mHandle) (hqueued : stage' ≠ .queued)
    (hlost : stage' ≠ .lost) : RoleAt handle tune stage' request' req where
  itself heq := by
    obtain ⟨h1, h2⟩ := h.itself heq
    exact ⟨htype.trans h1, hhandle.trans h2⟩
  other hne heq := htype.trans (h.other hne (hhandle.symm.trans heq))
  queued _ h := absurd h hqueued
  kept _ := hlost

/-- A worker changes the part of no message. -/
theorem roles_of_work (hroles : Roles handle tune s) (hworking : (s.stage req).working)
    (hstep : RivalStep handle tune s (.work req answer)) :
    Roles handle tune (s.work env req answer) := by
  obtain ⟨-, -, hothers⟩ := work_frame env s req answer
  have hused : s.stage req ≠ .unused := by
    intro h
    rw [h] at hworking
    cases hworking
  refine hroles.frame fun r hr => ?_
  by_cases hne : r = req
  · subst hne
    right
    have hat := hroles r hused
    by_cases henqueue : s.stage r = .enqueue
    · have hpriority := fun h => hstep.2.1 h henqueue
      simp only [work, henqueue, addAndWakeup]
      split
      · rename_i hlow
        refine ⟨hat.itself, hat.other, fun _ h => ?_, fun h => ?_⟩
        · simp at h
        · have := hpriority h
          omega
      · exact ⟨hat.itself, hat.other, fun h _ => hpriority h, fun _ => by simp⟩
    · obtain ⟨hsame, hstage⟩ := work_self env s answer hworking henqueue
      have hplace : ∀ stage, stage = .queued ∨ stage = .lost →
          (s.work env r answer).stage r ≠ stage := by
        rintro stage hstages heq
        rw [heq] at hstage
        rcases hstages with rfl | rfl <;> simp [Stage.working] at hstage
      exact hat.move hsame.type hsame.handle (hplace _ (Or.inl rfl)) (hplace _ (Or.inr rfl))
  · exact Or.inl (hothers r hne)

/-- A call of the consumer keeps what a message is, and queues none. -/
theorem roles_of_consume (hinv : Inv env s) (hroles : Roles handle tune s) :
    Roles handle tune (s.consume env answer) := by
  intro r hused'
  obtain ⟨hretimed, hstage⟩ := consume_message answer hinv r
  have hused : s.stage r ≠ .unused := by
    intro h
    rcases hstage with hsame | ⟨hfrom | hfrom, -⟩ | ⟨hfrom, -⟩
    · exact hused' (hsame.trans h)
    all_goals
      rw [h] at hfrom
      cases hfrom
  have hat := hroles r hused
  have hkept := hretimed.kept
  rcases hstage with hsame | ⟨-, hto⟩ | ⟨-, hto⟩
  · rw [hsame]
    refine ⟨fun h => ?_, fun hne h => ?_, fun h hqueued => ?_, fun h => ?_⟩
    · obtain ⟨h1, h2⟩ := hat.itself h
      exact ⟨hkept.type.trans h1, hkept.handle.trans h2⟩
    · exact hkept.type.trans (hat.other hne (hkept.handle.symm.trans h))
    · rw [hretimed.links.2]
      exact hat.queued (hkept.handle.symm.trans h) hqueued
    · exact hat.kept (hkept.handle.symm.trans h)
  all_goals
    rw [hto]
    exact hat.move hkept.type hkept.handle (by decide) (by decide)

/-- Nor does any other step of a rival run. -/
theorem roles_of_next (hinv : Inv env s) (hroles : Roles handle tune s) (henabled : s.Enabled e)
    (hstep : RivalStep handle tune s e) : Roles handle tune (next env s e) := by
  cases e with
  | receive req request isValidated =>
    refine hroles.frame fun r hr => ?_
    by_cases hne : r = req
    · subst hne
      right
      simp only [next, arrive, goto_stage_self, goto_heap, Function.update_self]
      refine ⟨hstep.1, hstep.2, fun _ h => ?_, fun _ => ?_⟩
      · split at h <;> cases h
      · split <;> decide
    · exact Or.inl ⟨goto_stage_of_ne hne, Function.update_of_ne hne _ _⟩
  | work req answer => exact roles_of_work hroles henabled hstep
  | pop req =>
    obtain ⟨-, hqueued, -⟩ := henabled
    have hat := hroles req (by rw [hqueued]; decide)
    simp only [next, pop]
    split
    · rename_i htrigger
      refine hroles.frame fun r hr => ?_
      by_cases hne : r = req
      · subst hne
        right
        rw [goto_stage_self]
        refine ⟨hat.itself, hat.other, fun _ h => ?_, fun h => ?_⟩
        · cases h
        · have := hat.queued h hqueued
          omega
      · exact Or.inl ⟨goto_stage_of_ne hne, rfl⟩
    · have hheld : Roles handle tune (s.goto req .held) := by
        refine hroles.frame fun r hr => ?_
        by_cases hne : r = req
        · subst hne
          right
          rw [goto_stage_self]
          exact hat.move rfl rfl (by decide) (by decide)
        · exact Or.inl ⟨goto_stage_of_ne hne, rfl⟩
      split <;> exact hheld
  | consume answer => exact roles_of_consume hinv hroles
  | timerExpired req target duration =>
    obtain ⟨hne', hpriority⟩ := hstep
    have hnew : ∀ stage, (stage = .lost → (s.heap target).mHandle ≠ handle) →
        RoleAt handle tune stage ((s.heap target).populateUntuneRequest duration) req := by
      intro stage hlost
      exact ⟨fun h => absurd h hne', fun _ _ => rfl, fun h _ => hpriority h, fun h hl => hlost hl h⟩
    simp only [next, addAndWakeup]
    split
    · rename_i hlow
      refine hroles.frame fun r hr => ?_
      by_cases hne : r = req
      · subst hne
        right
        simp only [arrive, goto_stage_self, goto_heap, Function.update_self] at hlow ⊢
        refine hnew .lost fun _ h => ?_
        have hlow' : (s.heap target).getPriority < SERVER_CLEANUP_TRIGGER_PRIORITY := hlow
        have := hpriority h
        omega
      · exact Or.inl ⟨goto_stage_of_ne hne, Function.update_of_ne hne _ _⟩
    · refine hroles.frame fun r hr => ?_
      by_cases hne : r = req
      · subst hne
        right
        simp only [arrive, goto_stage_self, goto_heap, Function.update_self]
        exact hnew .queued fun h => by cases h
      · exact Or.inl ⟨goto_stage_of_ne hne, Function.update_of_ne hne _ _⟩

/-! ### The race of a known client -/

/-- What may happen while `tune` and the untune messages of its handle are worked on: the tune
message is infinite and no retune message comes for its handle; the client is known and not rate
limited; no other handle enters the cache of untuned handles; and the messages are queued with a
priority above the clean-up trigger.  Messages of other handles may do anything else. -/
def RaceStep (handle : Int) (tune : ReqPtr) (s : Server) : Event → Prop
  | .receive req request _ =>
    (req = tune → request.mReqType = .REQ_RESOURCE_TUNING ∧ request.mHandle = handle ∧
        request.mDuration = -1) ∧
      (req ≠ tune → request.mHandle = handle → request.mReqType = .REQ_RESOURCE_UNTUNING)
  | .work req answer =>
    ((s.heap req).mHandle = handle → s.stage req = .clientCheck →
        s.tracker.clients.clientExists (s.heap req).mClientPID (s.heap req).mClientTID) ∧
      ((s.heap req).mHandle = handle → s.stage req = .rateLimit →
        s.isValidated req || answer.rateLimitHonored) ∧
      ((s.heap req).mHandle = handle → s.stage req = .enqueue →
        SERVER_CLEANUP_TRIGGER_PRIORITY < (s.heap req).getPriority) ∧
      ((s.heap req).mHandle ≠ handle → s.stage req = .disable → (s.heap req).mHandle ∈ s.active)
  | .timerExpired req _ _ => req ≠ tune
  | .pop _ | .consume _ => True

instance (s : Server) (e : Event) : Decidable (RaceStep handle tune s e) :=
  match e with
  | .receive _ _ _ => inferInstanceAs (Decidable ((_ → _) ∧ (_ → _)))
  | .work _ _ => inferInstanceAs (Decidable ((_ → _) ∧ (_ → _) ∧ (_ → _) ∧ (_ → _)))
  | .timerExpired _ _ _ => inferInstanceAs (Decidable (_ ≠ _))
  | .pop _ | .consume _ => .isTrue trivial

/-- What is known of a message at a stage: the tune request is infinite and never gets a timer, the
other messages of the handle are untune messages, and no message of the handle is lost. -/
structure CastAt (handle : Int) (tune : ReqPtr) (stage : Stage) (request : Request) (req : ReqPtr) :
    Prop where
  itself : req = tune → request.mReqType = .REQ_RESOURCE_TUNING ∧ request.mHandle = handle ∧
    request.mDuration = -1 ∧ (stage = .live → request.mTimer = none)
  other : req ≠ tune → request.mHandle = handle → request.mReqType = .REQ_RESOURCE_UNTUNING
  queued : request.mHandle = handle → stage = .queued →
    SERVER_CLEANUP_TRIGGER_PRIORITY < request.getPriority
  kept : request.mHandle = handle → stage ≠ .lost

/-- The messages of the race. -/
def Cast (handle : Int) (tune : ReqPtr) (s : Server) : Prop :=
  ∀ req, s.stage req ≠ .unused → CastAt handle tune (s.stage req) (s.heap req) req

/-- The cast of the race is one of rivals in particular. -/
theorem Cast.roles (hcast : Cast handle tune s) : Roles handle tune s := fun req hused =>
  ⟨fun h => ⟨((hcast req hused).itself h).1, ((hcast req hused).itself h).2.1⟩,
    (hcast req hused).other, (hcast req hused).queued, (hcast req hused).kept⟩

/-- A retune message is about another handle, so its target is another request. -/
theorem Cast.target_ne (hinv : Inv env s) (hcast : Cast handle tune s) {target : ReqPtr}
    {status : BitVec 8} (hconsumer : s.consumer = .update req target status) : target ≠ tune := by
  rintro rfl
  have hok := hinv.consumer
  simp only [ConsumerOk, hconsumer] at hok
  obtain ⟨htype, htune, -, -, hhandle, -⟩ := hok
  have hheld := hinv.held (show s.consumer.item = some req by rw [hconsumer]; rfl)
  have hne : req ≠ target := by
    rintro rfl
    rw [htune.2] at htype
    cases htype
  have := (hcast req (by rw [hheld]; decide)).other hne
    (hhandle.symm.trans (hcast.roles.handle_tune htune.1))
  rw [htype] at this
  cases this

/-- Timers belong to live tune requests, and the one of the race has none. -/
theorem Cast.handle_ne_of_timer (hinv : Inv env s) (hcast : Cast handle tune s) {target : ReqPtr}
    (hlive : s.stage target = .live) (htimer : (s.heap target).mTimer.isSome) :
    (s.heap target).mHandle ≠ handle := by
  intro hhandle
  have hused : s.stage target ≠ .unused := by rw [hlive]; decide
  have hfits := hinv.fits target hused
  rw [hlive] at hfits
  obtain rfl := hcast.roles.eq_tune ⟨hused, by simpa [Stage.fits] using hfits⟩ hhandle
  rw [((hcast target hused).itself rfl).2.2.2 hlive] at htimer
  cases htimer

/-- The steps of the race of a known client. -/
theorem Cast.rivalStep (hcast : Cast handle tune s) (hinv : Inv env s) (henabled : s.Enabled e)
    (hstep : RaceStep handle tune s e) : RivalStep handle tune s e := by
  cases e with
  | receive req request isValidated =>
    exact ⟨fun h => ⟨(hstep.1 h).1, (hstep.1 h).2.1⟩, hstep.2⟩
  | work req answer => exact hstep.2
  | pop req => trivial
  | consume answer => trivial
  | timerExpired req target duration =>
    exact ⟨hstep, fun h =>
      absurd h (hcast.handle_ne_of_timer hinv henabled.2.1 henabled.2.2)⟩

/-- A race is one in which the request is infinite. -/
theorem Roles.cast (hroles : Roles handle tune s) (hinfinite : s.stage tune ≠ .unused →
    (s.heap tune).mDuration = -1 ∧ (s.stage tune = .live → (s.heap tune).mTimer = none)) :
    Cast handle tune s := fun req hused =>
  { itself := by
      rintro rfl
      obtain ⟨h1, h2⟩ := (hroles req hused).itself rfl
      exact ⟨h1, h2, hinfinite hused⟩
    other := (hroles req hused).other
    queued := (hroles req hused).queued
    kept := (hroles req hused).kept }

/-- The consumer leaves the tune request infinite and without a timer. -/
theorem Cast.infinite_of_consume (hcast : Cast handle tune s) (hinv : Inv env s)
    (hused : s.stage tune ≠ .unused) :
    ((s.consume env answer).heap tune).mDuration = -1 ∧
      ((s.consume env answer).stage tune = .live →
        ((s.consume env answer).heap tune).mTimer = none) := by
  obtain ⟨-, -, hduration, htimer⟩ := (hcast tune hused).itself rfl
  have hsame : (s.consume env answer).heap tune = s.heap tune →
      ((s.consume env answer).stage tune = .live → s.stage tune = .live) →
      ((s.consume env answer).heap tune).mDuration = -1 ∧
        ((s.consume env answer).stage tune = .live →
          ((s.consume env answer).heap tune).mTimer = none) := by
    intro hheap hstage
    rw [hheap]
    exact ⟨hduration, fun h => htimer (hstage h)⟩
  cases hconsumer : s.consumer with
  | idle | crashed | mark | remove =>
    exact hsame (by simp only [consume, hconsumer, turn]) (by simp [consume, hconsumer, turn])
  | status req =>
    refine hsame ?_ ?_
    all_goals
      simp only [consume, hconsumer]
      split <;> simp [turn]
  | insert req =>
    by_cases hne : tune = req
    · subst hne
      simp only [consume, hconsumer, CocoTable.insertRequest_request_of_infinite hduration]
      split <;> simp [turn, hduration]
    · refine hsame ?_ ?_
      all_goals
        simp only [consume, hconsumer]
        split <;> simp [turn, goto, hne]
  | discard req =>
    refine hsame ?_ ?_
    · simp only [consume, hconsumer, turn, cleanUpRequest, goto]
    · simp only [consume, hconsumer, turn, cleanUpRequest, goto]
      grind
  | find req =>
    refine hsame ?_ ?_
    all_goals
      simp only [consume, hconsumer]
      repeat' split
    all_goals
      simp only [turn, cleanUpRequest, goto]
      try grind
  | update req target status =>
    have hne := hcast.target_ne hinv hconsumer
    refine hsame ?_ ?_
    all_goals
      simp only [consume, hconsumer]
      repeat' split
    all_goals
      simp only [turn, cleanUpRequest, goto]
      try grind
  | untrack req target =>
    refine hsame ?_ ?_
    · simp only [consume, hconsumer, turn, cleanUpRequest, goto]
    · simp only [consume, hconsumer, turn, cleanUpRequest, goto]
      grind

/-- Every step of a race keeps its cast. -/
theorem cast_of_next (hinv : Inv env s) (hcast : Cast handle tune s) (henabled : s.Enabled e)
    (hstep : RaceStep handle tune s e) : Cast handle tune (next env s e) := by
  refine (roles_of_next hinv hcast.roles henabled (hcast.rivalStep hinv henabled hstep)).cast
    fun hused' => ?_
  have hsame : s.stage tune ≠ .unused → (next env s e).heap tune = s.heap tune →
      ((next env s e).stage tune = .live → s.stage tune = .live) →
      ((next env s e).heap tune).mDuration = -1 ∧ ((next env s e).stage tune = .live →
        ((next env s e).heap tune).mTimer = none) := by
    intro hused hheap hstage
    obtain ⟨-, -, hduration, htimer⟩ := (hcast tune hused).itself rfl
    rw [hheap]
    exact ⟨hduration, fun h => htimer (hstage h)⟩
  cases e with
  | receive req request isValidated =>
    by_cases hne : tune = req
    · subst hne
      obtain ⟨htype, -, hduration⟩ := hstep.1 rfl
      simp [next, arrive, htype, hduration]
    · have hstage : (next env s (.receive req request isValidated)).stage tune = s.stage tune :=
        goto_stage_of_ne hne
      exact hsame (hstage ▸ hused') (Function.update_of_ne hne _ _) fun h => hstage ▸ h
  | work req answer =>
    obtain ⟨-, -, hframe⟩ := work_frame env s req answer
    by_cases hne : tune = req
    · subst hne
      have hworking : (s.stage tune).working := henabled
      have hused : s.stage tune ≠ .unused := by
        intro h
        rw [h] at hworking
        cases hworking
      obtain ⟨-, -, hduration, -⟩ := (hcast tune hused).itself rfl
      by_cases henqueue : s.stage tune = .enqueue
      · simp only [next, work, henqueue, addAndWakeup]
        split <;> simp [hduration]
      · obtain ⟨hkept, hplace⟩ := work_self env s answer hworking henqueue
        refine ⟨hkept.duration.trans hduration, fun h => ?_⟩
        rw [show (s.work env tune answer).stage tune = .live from h] at hplace
        rcases hplace with h | h <;> cases h
    · obtain ⟨hstage, hheap⟩ := hframe tune hne
      exact hsame (hstage ▸ hused') hheap fun h => hstage ▸ h
  | pop req =>
    have hstage : (next env s (.pop req)).stage tune = s.stage tune ∨ s.stage tune = .queued ∧
        (next env s (.pop req)).stage tune ≠ .live := by
      obtain ⟨-, hqueued, -⟩ := henabled
      by_cases hne : tune = req
      · subst hne
        refine Or.inr ⟨hqueued, ?_⟩
        simp only [next, pop]
        repeat' split
        all_goals simp [turn]
      · exact Or.inl (pop_stage_of_ne hne)
    have hheap : (next env s (.pop req)).heap tune = s.heap tune := by rw [next, pop_heap]
    rcases hstage with hstage | ⟨hqueued, hlive⟩
    · exact hsame (hstage ▸ hused') hheap fun h => hstage ▸ h
    · exact hsame (by rw [hqueued]; decide) hheap fun h => absurd h hlive
  | consume answer =>
    have hused : s.stage tune ≠ .unused := by
      intro h
      have hreceived := (hinv.received tune).mp h
      rw [← @received_consume env s answer] at hreceived
      have heffect : Effect env s (.consume answer) (s.consume env answer) :=
        effect_of_consume hinv
      have hinv' := inv_of_effect hinv heffect
      exact hused' ((hinv'.received tune).mpr hreceived)
    exact hcast.infinite_of_consume hinv hused
  | timerExpired req target duration =>
    have hne : tune ≠ req := Ne.symm hstep
    have hstage : (next env s (.timerExpired req target duration)).stage tune = s.stage tune :=
      addAndWakeup_stage_of_ne hne
    refine hsame (hstage ▸ hused') ?_ fun h => hstage ▸ h
    rw [next, addAndWakeup_heap]
    exact Function.update_of_ne hne _ _

/-! ## What an untune message leaves behind -/

/-- An untune message of the handle. -/
def Untunes (s : Server) (handle : Int) (req : ReqPtr) : Prop :=
  s.stage req ≠ .unused ∧ (s.heap req).mReqType = .REQ_RESOURCE_UNTUNING ∧
    (s.heap req).mHandle = handle

/-- The worker of the untune message has called `disableRequestProcessing`. -/
def Disabled (s : Server) (handle : Int) (req : ReqPtr) : Prop :=
  s.Untunes handle req ∧ s.stage req ≠ .clientCheck ∧ s.stage req ≠ .disable

/-- Some untune message is on its way, past that call. -/
def Pending (s : Server) (handle : Int) : Prop :=
  ∃ req, s.Untunes handle req ∧ (s.stage req = .rateLimit ∨ s.stage req = .verifyHandle ∨
    s.stage req = .enqueue ∨ s.stage req = .queued ∨ s.consumer = .find req)

/-- The request is active and its status says that it was untuned. -/
def Cancelled (s : Server) (req : ReqPtr) : Prop :=
  ∃ status, s.active.lookup (s.heap req).mHandle = some (some req, status) ∧
    hasBit status REQ_CANCELLED

/-- The tune request has not been added yet. -/
def Waiting (s : Server) (req : ReqPtr) : Prop :=
  (s.stage req).tracked = false ∧ s.stage req ≠ .freed

/-- It was added, and the consumer has not looked at its status. -/
def InQueue (s : Server) (req : ReqPtr) : Prop :=
  s.stage req = .enqueue ∨ s.stage req = .queued ∨ s.consumer = .status req

/-- The consumer has let it pass, and is not removing it. -/
def Applied (s : Server) (req : ReqPtr) : Prop :=
  s.consumer = .mark req ∨ s.consumer = .insert req ∨
    s.stage req = .live ∧ ∀ r, s.consumer ≠ .remove r req ∧ s.consumer ≠ .untrack r req

/-- What stops the tune request once an untune message has called `disableRequestProcessing`. -/
structure Caught (handle : Int) (tune : ReqPtr) (s : Server) : Prop where
  waiting : s.Waiting tune → s.tracker.manager.mUntuneCache.isPresent handle
  inQueue : s.InQueue tune → s.Cancelled tune
  applied : s.Applied tune → s.Pending handle

/-- A step that takes the tune request nowhere. -/
theorem Caught.frame (hcaught : Caught handle tune s) (hwaiting : s'.Waiting tune → s.Waiting tune)
    (hqueue : s'.InQueue tune → s.InQueue tune) (happlied : s'.Applied tune → s.Applied tune)
    (hcache : s.tracker.manager.mUntuneCache.isPresent handle →
      s'.tracker.manager.mUntuneCache.isPresent handle)
    (hcancelled : s'.InQueue tune → s.Cancelled tune → s'.Cancelled tune)
    (hpending : s'.Applied tune → s.Pending handle → s'.Pending handle) :
    Caught handle tune s' where
  waiting h := hcache (hcaught.waiting (hwaiting h))
  inQueue h := hcancelled h (hcaught.inQueue (hqueue h))
  applied h := hpending h (hcaught.applied (happlied h))

/-- Status bits are never taken away from a request that stays tracked. -/
theorem cancelled_of_effect (hinv : Inv env s) (h : Effect env s e s') (hcancelled : s.Cancelled req)
    (htracked' : (s'.stage req).tracked) : s'.Cancelled req := by
  obtain ⟨status, hlookup, hbit⟩ := hcancelled
  obtain ⟨req', hreq', htune, htracked, -⟩ := hinv.origin _ _ hlookup
  obtain rfl := Option.some.inj hreq'
  unfold Cancelled
  rw [(h.persists htune.1).2.handle]
  cases h with
  | arrive | take | turn | insert | fail | dismiss | unlink | stutter =>
    exact ⟨status, hlookup, hbit⟩
  | move _ _ _ _ _ quiet | free _ _ quiet =>
    rcases quiet.lookup (s.heap req).mHandle with heq | ⟨info, hinfo, heq⟩
    · exact ⟨status, heq.trans hlookup, hbit⟩
    · obtain rfl := Option.some.inj (hinfo.symm.trans hlookup)
      exact ⟨_, heq, by simp [hbit]⟩
  | @add _ r _ added =>
    have hne : (s.heap req).mHandle ≠ (s.heap r).mHandle := by
      intro heq
      apply (RequestManager.addRequest_of_true added).1
      rw [← heq]
      exact UnorderedMap.mem_of_lookup hlookup
    exact ⟨status, (lookup_of_added added _).trans ((if_neg hne).trans hlookup), hbit⟩
  | @mark _ r marking =>
    simp only [active, Server.turn, RequestManager.markRequestAsComplete,
      RequestManager.lookup_addStatus]
    split
    · rename_i heq
      rw [heq] at hlookup
      rw [show s.tracker.manager.mActiveRequests.lookup (s.heap r).mHandle = _ from hlookup]
      exact ⟨_, rfl, by simp [hbit]⟩
    · exact ⟨status, hlookup, hbit⟩
  | @discard _ r discarding =>
    have hok := hinv.consumer
    simp only [ConsumerOk, discarding] at hok
    have hne : (s.heap req).mHandle ≠ (s.heap r).mHandle := by
      intro heq
      obtain rfl := hinv.unique req r htune hok heq
      simp [Server.turn, Stage.tracked] at htracked'
    exact ⟨status, (RequestManager.lookup_removeRequest _).trans ((if_neg hne).trans hlookup), hbit⟩
  | @untrack _ r target untracking =>
    obtain ⟨-, htarget, -, -⟩ := hinv.target_of_untrack untracking
    have hne : (s.heap req).mHandle ≠ (s.heap target).mHandle := by
      intro heq
      obtain rfl := hinv.unique req target htune htarget heq
      simp [Server.turn, Stage.tracked] at htracked'
    exact ⟨status, (RequestManager.lookup_removeRequest _).trans ((if_neg hne).trans hlookup), hbit⟩

/-! ## Steps of the race -/

/-- Only `disableRequestProcessing` writes to the cache. -/
theorem untuneCache_work (hstage : s.stage req ≠ .disable) :
    (s.work env req answer).tracker.manager.mUntuneCache = s.tracker.manager.mUntuneCache := by
  unfold work
  cases hs : s.stage req with
  | disable => exact absurd hs hstage
  | unused | queued | held | live | freed | lost => rfl
  | globalRateLimit | createClient | rateLimit | verifyHandle => simp
  | clientCheck =>
    simp only
    split <;> simp
  | verify =>
    simp only
    split
    · rfl
    · split <;> rfl
  | shouldBeAdded =>
    simp only [proceed_tracker, RequestManager.shouldRequestBeAdded, RequestManager.requestMatch]
    repeat' split
    all_goals rfl
  | add =>
    simp only [proceed_tracker, RequestManager.addRequest]
    repeat' split
    all_goals rfl
  | enqueue =>
    simp only [addAndWakeup]
    split <;> rfl

/-- The consumer does not look at the cache of untuned handles. -/
theorem untuneCache_consume :
    (s.consume env answer).tracker.manager.mUntuneCache = s.tracker.manager.mUntuneCache := by
  unfold consume
  cases s.consumer with
  | idle | mark | discard | remove | untrack | crashed => rfl
  | status =>
    simp only
    split <;> rfl
  | insert =>
    simp only
    split <;> rfl
  | find | update =>
    simp only
    repeat' split
    all_goals rfl

/-- The handle of the race stays in the cache: nothing else is put there. -/
theorem untuneCache_of_next (hstep : RivalStep handle tune s e)
    (h : s.tracker.manager.mUntuneCache.isPresent handle) :
    (next env s e).tracker.manager.mUntuneCache.isPresent handle := by
  cases e with
  | receive req request isValidated => exact h
  | work req answer =>
    by_cases hstage : s.stage req = .disable
    · simp only [next, work, hstage, proceed_tracker, RequestManager.disableRequestProcessing]
      split
      · exact h
      · rename_i hnot
        by_cases hhandle : (s.heap req).mHandle = handle
        · rw [hhandle]
          exact HandleCache.isPresent_insert _ _
        · exact absurd (hstep.2.2 hhandle hstage) hnot
    · simp only [next, untuneCache_work hstage]
      exact h
  | pop req =>
    rw [next, pop_tracker]
    exact h
  | consume answer =>
    simp only [next, untuneCache_consume]
    exact h
  | timerExpired req target duration =>
    rw [next, addAndWakeup_tracker]
    exact h

/-- A request in the queue has its entry in the map. -/
theorem InQueue.tracked (hinv : Inv env s) (h : s.InQueue tune) : (s.stage tune).tracked := by
  rcases h with h | h | h
  · rw [h]; rfl
  · rw [h]; rfl
  · rw [hinv.held (show s.consumer.item = some tune by rw [h]; rfl)]; rfl

/-- So has one in the table. -/
theorem Applied.tracked (hinv : Inv env s) (h : s.Applied tune) : (s.stage tune).tracked := by
  rcases h with h | h | ⟨h, -⟩
  · rw [hinv.held (show s.consumer.item = some tune by rw [h]; rfl)]; rfl
  · rw [hinv.held (show s.consumer.item = some tune by rw [h]; rfl)]; rfl
  · rw [h]; rfl

/-- An event that takes neither the tune request nor an untune message anywhere that matters. -/
theorem caught_of_frame (hinv : Inv env s) (henabled : s.Enabled e)
    (hstep : RivalStep handle tune s e) (hcaught : Caught handle tune s)
    (hwaiting : (next env s e).Waiting tune → s.Waiting tune)
    (hqueue : (next env s e).InQueue tune → s.InQueue tune)
    (happlied : (next env s e).Applied tune → s.Applied tune)
    (hpending : (next env s e).Applied tune → s.Pending handle → (next env s e).Pending handle) :
    Caught handle tune (next env s e) := by
  have heffect := effect_of_enabled hinv henabled
  exact hcaught.frame hwaiting hqueue happlied (untuneCache_of_next hstep)
    (fun h hc => cancelled_of_effect hinv heffect hc (h.tracked (inv_of_effect hinv heffect)))
    hpending

/-- A message that arrives does not set the untune request back. -/
theorem caught_of_receive {request : Request} {isValidated : Bool} (hinv : Inv env s)
    (henabled : s.Enabled (.receive req request isValidated))
    (hstep : RivalStep handle tune s (.receive req request isValidated))
    (hcaught : Caught handle tune s) :
    Caught handle tune (next env s (.receive req request isValidated)) := by
  have hfresh := henabled.1
  have hitem := hinv.item
  refine caught_of_frame hinv henabled hstep hcaught ?_ ?_ ?_ ?_
  all_goals
    simp only [next, arrive, goto, Pending, Untunes, Waiting, InQueue, Applied]
    grind [Stage.tracked, Consumer.item]

/-- The untune message of a timer, with where it goes. -/
theorem timerExpired_cases {target : ReqPtr} {duration : Int} (env : Env) (s : Server)
    (req : ReqPtr) : ∃ stage, next env s (.timerExpired req target duration) =
      (s.arrive req ((s.heap target).populateUntuneRequest duration) true).goto req stage ∧
        (SERVER_CLEANUP_TRIGGER_PRIORITY < (s.heap target).getPriority → stage = .queued) := by
  simp only [next, addAndWakeup]
  split
  · rename_i hlow
    refine ⟨_, rfl, fun h => ?_⟩
    simp only [arrive, Function.update_self] at hlow
    have hlow' : (s.heap target).getPriority < SERVER_CLEANUP_TRIGGER_PRIORITY := hlow
    omega
  · exact ⟨_, rfl, fun _ => rfl⟩

/-- Nor does a timer that expires for another request. -/
theorem caught_of_timerExpired {target : ReqPtr} {duration : Int} (hinv : Inv env s)
    (henabled : s.Enabled (.timerExpired req target duration))
    (hstep : RivalStep handle tune s (.timerExpired req target duration))
    (hcaught : Caught handle tune s) :
    Caught handle tune (next env s (.timerExpired req target duration)) := by
  have hfresh := henabled.1
  have hitem := hinv.item
  have hne : req ≠ tune := hstep.1
  obtain ⟨stage, hnext, -⟩ := @timerExpired_cases target duration env s req
  refine caught_of_frame hinv henabled hstep hcaught ?_ ?_ ?_ ?_
  all_goals
    simp only [hnext, arrive, goto, Pending, Untunes, Waiting, InQueue, Applied]
    grind [Stage.tracked, Consumer.item]

/-- The timer of the tune request itself: its untune message is on its way to the live request. -/
theorem caught_of_expiry {duration : Int} (hinv : Inv env s) (hroles : Roles handle tune s)
    (henabled : s.Enabled (.timerExpired req tune duration))
    (hstep : RivalStep handle tune s (.timerExpired req tune duration)) :
    Caught handle tune (next env s (.timerExpired req tune duration)) := by
  obtain ⟨hfresh, hlive, -⟩ := henabled
  have hne : req ≠ tune := hstep.1
  have hhandle := hroles.handle_tune (by rw [hlive]; decide)
  obtain ⟨stage, hnext, hqueued⟩ := @timerExpired_cases tune duration env s req
  have hstage := hqueued (hstep.2 hhandle)
  subst hstage
  have hlive' : (next env s (.timerExpired req tune duration)).stage tune = .live := by
    rw [hnext, goto_stage_of_ne (Ne.symm hne)]
    exact hlive
  have hconsumer : (next env s (.timerExpired req tune duration)).consumer = s.consumer := by
    rw [hnext]
    rfl
  refine ⟨fun h => ?_, fun h => ?_, fun _ => ?_⟩
  · rw [Waiting, hlive'] at h
    cases h.1
  · rw [InQueue, hlive', hconsumer] at h
    rcases h with h | h | h
    · cases h
    · cases h
    · rw [hinv.held (show s.consumer.item = some tune by rw [h]; rfl)] at hlive
      cases hlive
  · refine ⟨req, ?_, ?_⟩
    · rw [Untunes, hnext]
      simp only [goto_stage_self, goto_heap, arrive, Function.update_self]
      exact ⟨by decide, rfl, hhandle⟩
    · rw [hnext, goto_stage_self]
      simp

/-- A worker on a message of another handle. -/
theorem caught_of_work_other (hinv : Inv env s) (hroles : Roles handle tune s)
    (henabled : s.Enabled (.work req answer)) (hstep : RivalStep handle tune s (.work req answer))
    (hother : (s.heap req).mHandle ≠ handle) (hcaught : Caught handle tune s) :
    Caught handle tune (next env s (.work req answer)) := by
  have hused : s.stage req ≠ .unused := by
    intro h
    simp only [Enabled, h] at henabled
    cases henabled
  have hne : tune ≠ req := by
    rintro rfl
    exact hother (hroles.handle_tune hused)
  have heffect : Effect env s (.work req answer) (s.work env req answer) :=
    effect_of_enabled hinv henabled
  have hhandle : ((s.work env req answer).heap req).mHandle ≠ handle := by
    rw [(heffect.persists hused).2.handle]
    exact hother
  obtain ⟨hconsumer, -, hframe⟩ := work_frame env s req answer
  have htune := hframe tune hne
  refine caught_of_frame hinv henabled hstep hcaught ?_ ?_ ?_ ?_
  all_goals
    simp only [next, Pending, Untunes, Waiting, InQueue, Applied, hconsumer]
    grind

/-- Before its last call a worker has not got its message tracked. -/
theorem untracked_of_working {stage : Stage} (h : stage.working) (hne : stage ≠ .enqueue) :
    stage.tracked = false ∧ stage ≠ .freed := by
  cases stage <;> simp_all [Stage.working, Stage.tracked]

/-- The worker of the tune message itself.  It gets the request into the map only past the cache. -/
theorem caught_of_work_tune (hinv : Inv env s) (hroles : Roles handle tune s)
    (henabled : s.Enabled (.work tune answer)) (hstep : RivalStep handle tune s (.work tune answer))
    (hcaught : Caught handle tune s) : Caught handle tune (next env s (.work tune answer)) := by
  have hworking : (s.stage tune).working := henabled
  have hused : s.stage tune ≠ .unused := by
    intro h
    rw [h] at hworking
    cases hworking
  obtain ⟨hconsumer, -, hframe⟩ := work_frame env s tune answer
  have htype := (hroles.isTune hused).2
  have hitem := hinv.item tune
  have hfits := hinv.fits tune hused
  have heffect : Effect env s (.work tune answer) (s.work env tune answer) :=
    effect_of_enabled hinv henabled
  have htype' : ((s.work env tune answer).heap tune).mReqType = .REQ_RESOURCE_TUNING := by
    rw [(heffect.persists hused).2.type]
    exact htype
  -- the untune messages stay where they are
  have hpending : s.Pending handle → (s.work env tune answer).Pending handle := by
    simp only [Pending, Untunes, hconsumer]
    grind
  by_cases hadd : s.stage tune = .add ∧ (RequestManager.addRequest
      env.metaConfigs.mMaxConcurrentRequests s.heap s.tracker tune).1 = true
  · -- a request whose handle is in the cache is not accepted
    obtain ⟨hstage, hadded⟩ := hadd
    have hcache := (RequestManager.addRequest_of_true hadded).2.1
    rw [hroles.handle_tune hused] at hcache
    have hpresent := hcaught.waiting (by simp [Waiting, hstage, Stage.tracked])
    rw [hcache] at hpresent
    cases hpresent
  · -- otherwise it stays out of the map, or goes from the map to the queue
    have hplace : (s.work env tune answer).stage tune = .freed ∨
        (s.work env tune answer).stage tune = .lost ∨
        s.stage tune = .enqueue ∧ (s.work env tune answer).stage tune = .queued ∨
        s.stage tune ≠ .enqueue ∧ ((s.work env tune answer).stage tune).working ∧
          (s.work env tune answer).stage tune ≠ .enqueue := by
      by_cases henqueue : s.stage tune = .enqueue
      · simp only [work, henqueue, addAndWakeup]
        split <;> simp
      · rcases (work_self env s answer hworking henqueue).2 with h | h
        · exact Or.inl h
        · by_cases hstage : s.stage tune = .add
          · left
            simp only [not_and, Bool.not_eq_true] at hadd
            simp [work, hstage, hadd hstage]
          · refine Or.inr (Or.inr (Or.inr ⟨henqueue, h, ?_⟩))
            intro hto
            unfold work at hto
            cases hs : s.stage tune with
            | verifyHandle => simp [hs, htype, Stage.fits] at hfits
            | add => exact hstage hs
            | enqueue => exact henqueue hs
            | unused | queued | held | live | freed | lost =>
              rw [hs] at hworking
              cases hworking
            | globalRateLimit | createClient | disable | shouldBeAdded =>
              simp only [hs, proceed_stage_self] at hto
              split at hto <;> cases hto
            | rateLimit =>
              simp only [hs, proceed_stage_self, htype] at hto
              split at hto <;> cases hto
            | clientCheck =>
              simp only [hs, htype, goto_stage_self] at hto
              split at hto <;> cases hto
            | verify =>
              simp only [hs] at hto
              repeat' split at hto
              all_goals simp at hto
    have hbefore := untracked_of_working hworking
    refine caught_of_frame hinv henabled hstep hcaught ?_ ?_ ?_ fun _ => hpending
    all_goals
      simp only [next, Waiting, InQueue, Applied, hconsumer]
      grind [Stage.tracked, Stage.working]

/-- `disableRequestProcessing` for the handle: it cancels the request if it is active, else it leaves
the handle in the cache. -/
theorem caught_of_disable (hinv : Inv env s) (hroles : Roles handle tune s)
    (henabled : s.Enabled (.work req answer)) (hne : tune ≠ req) (huntunes : s.Untunes handle req)
    (hstage : s.stage req = .disable) : Caught handle tune (next env s (.work req answer)) := by
  obtain ⟨hused, htype, hhandle⟩ := huntunes
  obtain ⟨hconsumer, -, hframe⟩ := work_frame env s req answer
  have htune := hframe tune hne
  have heffect : Effect env s (.work req answer) (s.work env req answer) :=
    effect_of_enabled hinv henabled
  obtain ⟨hused', hkept⟩ := heffect.persists hused
  have htype' := hkept.type.trans htype
  have hhandle' := hkept.handle.trans hhandle
  have hactive := hroles.mem_active_iff hinv
  -- the tune request stays where it is
  have hwaiting : (s.work env req answer).Waiting tune ↔ s.Waiting tune := by
    simp only [Waiting, htune.1]
  have hqueue : (s.work env req answer).InQueue tune ↔ s.InQueue tune := by
    simp only [InQueue, htune.1, hconsumer]
  have happlied : (s.work env req answer).Applied tune ↔ s.Applied tune := by
    simp only [Applied, htune.1, hconsumer]
  by_cases hmem : handle ∈ s.active
  · -- cancelled, and the untune message goes on
    have hwork : s.work env req answer = ({ s with
        tracker := (RequestManager.disableRequestProcessing s.tracker handle).2 }).goto req
          .rateLimit := by
      simp only [work, hstage, hhandle]
      simp [RequestManager.disableRequestProcessing, proceed,
        show handle ∈ s.tracker.manager.mActiveRequests from hmem]
    obtain ⟨hused₁, htracked⟩ := hactive.mp hmem
    obtain ⟨status, hlookup, hstatus⟩ := hinv.entry tune (hroles.isTune hused₁) htracked
    rw [hroles.handle_tune hused₁] at hlookup
    refine ⟨fun h => ?_, fun h => ?_, fun h => ?_⟩
    · rw [(hwaiting.mp h).1] at htracked
      cases htracked
    · refine ⟨status ||| REQ_CANCELLED, ?_, by simp; right; decide⟩
      show (s.work env req answer).active.lookup ((s.work env req answer).heap tune).mHandle = _
      rw [htune.2, hroles.handle_tune hused₁, hwork]
      simp only [active, goto, RequestManager.disableRequestProcessing,
        show handle ∈ s.tracker.manager.mActiveRequests from hmem, if_true,
        RequestManager.lookup_addStatus]
      rw [show s.tracker.manager.mActiveRequests.lookup handle = _ from hlookup]
      rfl
    · refine ⟨req, ⟨hused', htype', hhandle'⟩, Or.inl ?_⟩
      show (s.work env req answer).stage req = _
      rw [hwork, goto_stage_self]
  · -- remembered: the tune request is not tracked
    have huntracked : ¬ (s.stage tune).tracked := by
      intro h
      refine hmem (hactive.mpr ⟨?_, h⟩)
      intro hunused
      rw [hunused] at h
      cases h
    have hinv' := inv_of_effect hinv heffect
    refine ⟨fun _ => ?_, fun h => ?_, fun h => ?_⟩
    · simp only [next, work, hstage, hhandle, proceed_tracker,
        RequestManager.disableRequestProcessing,
        show handle ∉ s.tracker.manager.mActiveRequests from hmem, if_false]
      exact HandleCache.isPresent_insert _ _
    · exact absurd ((hqueue.mp h).tracked hinv) huntracked
    · exact absurd ((happlied.mp h).tracked hinv) huntracked

/-- The worker of an untune message that has called `disableRequestProcessing` goes on as long as the
request is active. -/
theorem caught_of_work_untune (hinv : Inv env s) (hroles : Roles handle tune s)
    (henabled : s.Enabled (.work req answer)) (hstep : RivalStep handle tune s (.work req answer))
    (hne : tune ≠ req) (hhandle : (s.heap req).mHandle = handle) (hcaught : Caught handle tune s) :
    Caught handle tune (next env s (.work req answer)) := by
  have hworking : (s.stage req).working := henabled
  have hused : s.stage req ≠ .unused := by
    intro h
    rw [h] at hworking
    cases hworking
  have htype := (hroles req hused).other (Ne.symm hne) hhandle
  have hfits := hinv.fits req hused
  rw [htype] at hfits
  obtain ⟨hconsumer, -, hframe⟩ := work_frame env s req answer
  have htune := hframe tune hne
  have heffect : Effect env s (.work req answer) (s.work env req answer) :=
    effect_of_enabled hinv henabled
  obtain ⟨hused', hkept⟩ := heffect.persists hused
  have htype' := hkept.type.trans htype
  have hhandle' := hkept.handle.trans hhandle
  have hactive := hroles.mem_active_iff hinv
  have hnotfind : s.consumer ≠ .find req := by
    intro h
    rw [hinv.held (show s.consumer.item = some req by rw [h]; rfl)] at hworking
    cases hworking
  -- another untune message that is on its way stays on its way
  have hothers : s.Pending handle → (s.work env req answer).Pending handle ∨
      s.stage req = .rateLimit ∨ s.stage req = .verifyHandle ∨ s.stage req = .enqueue := by
    rintro ⟨u, ⟨hu, hutype, huhandle⟩, hplace⟩
    by_cases hreq : u = req
    · subst hreq
      rcases hplace with h | h | h | h | h
      · exact Or.inr (Or.inl h)
      · exact Or.inr (Or.inr (Or.inl h))
      · exact Or.inr (Or.inr (Or.inr h))
      · rw [h] at hworking
        cases hworking
      · exact absurd h hnotfind
    · left
      refine ⟨u, ?_, ?_⟩
      · simp only [Untunes, (hframe u hreq).1, (hframe u hreq).2]
        exact ⟨hu, hutype, huhandle⟩
      · rw [(hframe u hreq).1, hconsumer]
        exact hplace
  -- the tune request stays where it is
  have hwaiting : (s.work env req answer).Waiting tune ↔ s.Waiting tune := by
    simp only [Waiting, htune.1]
  have hqueue : (s.work env req answer).InQueue tune ↔ s.InQueue tune := by
    simp only [InQueue, htune.1, hconsumer]
  have happlied : (s.work env req answer).Applied tune ↔ s.Applied tune := by
    simp only [Applied, htune.1, hconsumer]
  cases hstage : s.stage req with
  | unused | queued | held | live | freed | lost =>
    rw [hstage] at hworking
    cases hworking
  | globalRateLimit | createClient | verify | shouldBeAdded | add =>
    rw [hstage] at hfits
    cases hfits
  | clientCheck =>
    refine caught_of_frame hinv henabled hstep hcaught hwaiting.mp hqueue.mp happlied.mp ?_
    · intro _ hp
      rcases hothers hp with h | h | h | h
      · exact h
      all_goals
        rw [hstage] at h
        cases h
  | disable =>
    exact caught_of_disable hinv hroles henabled hne ⟨hused, htype, hhandle⟩ hstage
  | rateLimit =>
    have hnext : (s.work env req answer).stage req = .verifyHandle := by
      have hhonored := hstep.1 hhandle hstage
      simp only [work, hstage, htype, proceed_stage_self, hhonored, if_true]
      rfl
    refine caught_of_frame hinv henabled hstep hcaught hwaiting.mp hqueue.mp happlied.mp ?_
    · simp only [next, Pending, Untunes, hconsumer]
      grind
  | verifyHandle =>
    refine caught_of_frame hinv henabled hstep hcaught hwaiting.mp hqueue.mp happlied.mp ?_
    · intro h
      -- a tune request that was applied is active, so the message goes on
      have htracked := (happlied.mp h).tracked hinv
      have hmem : handle ∈ s.active := by
        refine hactive.mpr ⟨?_, htracked⟩
        intro hunused
        rw [hunused] at htracked
        cases htracked
      have hnext : (s.work env req answer).stage req = .enqueue := by
        simp [work, hstage, hhandle, RequestManager.verifyHandle,
          show handle ∈ s.tracker.manager.mActiveRequests from hmem]
      simp only [next, Pending, Untunes, hconsumer]
      grind
  | enqueue =>
    have hnext : (s.work env req answer).stage req = .queued := by
      have hpriority := hstep.2.1 hhandle hstage
      simp only [work, hstage, addAndWakeup]
      rw [if_neg (by omega), goto_stage_self]
    refine caught_of_frame hinv henabled hstep hcaught hwaiting.mp hqueue.mp happlied.mp ?_
    · simp only [next, Pending, Untunes, hconsumer]
      grind

/-- A message is popped in front of the tune request only if its priority is as strong. -/
theorem caught_of_pop (hinv : Inv env s) (hroles : Roles handle tune s) (henabled : s.Enabled (.pop req))
    (hstep : RivalStep handle tune s (.pop req)) (hcaught : Caught handle tune s) :
    Caught handle tune (next env s (.pop req)) := by
  obtain ⟨hidle, hqueued, -⟩ := id henabled
  have hat := hroles req (by rw [hqueued]; decide)
  by_cases htrigger : (s.heap req).getPriority = SERVER_CLEANUP_TRIGGER_PRIORITY
  · -- a message that is lost is not one of the race
    have hother : (s.heap req).mHandle ≠ handle := by
      intro h
      have := hat.queued h hqueued
      omega
    have hne : req ≠ tune := fun h => hother (hat.itself h).2
    have hnext : next env s (.pop req) = s.goto req .lost := by simp [next, pop, htrigger]
    refine caught_of_frame hinv henabled hstep hcaught ?_ ?_ ?_ ?_
    all_goals
      simp only [hnext, goto, Pending, Untunes, Waiting, InQueue, Applied]
      grind
  · by_cases htype : (s.heap req).mReqType = .REQ_RESOURCE_TUNING
    · have hnext : next env s (.pop req) = (s.goto req .held).turn (.status req) := by
        simp [next, pop, htrigger, htype]
      refine caught_of_frame hinv henabled hstep hcaught ?_ ?_ ?_ ?_
      all_goals
        simp only [hnext, goto, turn, Pending, Untunes, Waiting, InQueue, Applied]
        grind [Stage.tracked]
    · have hnext : next env s (.pop req) = (s.goto req .held).turn (.find req) := by
        simp [next, pop, htrigger, htype]
      have hne : req ≠ tune := fun h => htype (hat.itself h).1
      refine caught_of_frame hinv henabled hstep hcaught ?_ ?_ ?_ ?_
      all_goals
        simp only [hnext, goto, turn, Pending, Untunes, Waiting, InQueue, Applied]
        grind [Stage.tracked]

/-- The consumer at the status of a tune request: one that was cancelled does not pass. -/
theorem caught_of_status (hinv : Inv env s) (henabled : s.Enabled (.consume answer))
    (hconsumer : s.consumer = .status req) (hcaught : Caught handle tune s) :
    Caught handle tune (next env s (.consume answer)) := by
  have hheld := hinv.held (show s.consumer.item = some req by rw [hconsumer]; rfl)
  by_cases hbits : hasBit (s.tracker.manager.getRequestProcessingStatus (s.heap req).mHandle)
      REQ_CANCELLED ∨ hasBit (s.tracker.manager.getRequestProcessingStatus (s.heap req).mHandle)
      REQ_COMPLETED
  · have hnext : next env s (.consume answer) = s.turn (.discard req) := by
      simp only [next, consume, hconsumer, if_pos hbits]
    refine caught_of_frame hinv henabled trivial hcaught ?_ ?_ ?_ ?_
    all_goals
      simp only [hnext, turn, Pending, Untunes, Waiting, InQueue, Applied]
      grind
  · have hnext : next env s (.consume answer) = s.turn (.mark req) := by
      simp only [next, consume, hconsumer, if_neg hbits]
    by_cases htune : req = tune
    · subst htune
      obtain ⟨status, hlookup, hbit⟩ := hcaught.inQueue (Or.inr (Or.inr hconsumer))
      refine absurd (Or.inl ?_) hbits
      simp only [RequestManager.getRequestProcessingStatus]
      rw [show s.tracker.manager.mActiveRequests.lookup (s.heap req).mHandle = _ from hlookup]
      exact hbit
    · refine caught_of_frame hinv henabled trivial hcaught ?_ ?_ ?_ ?_
      all_goals
        simp only [hnext, turn, Pending, Untunes, Waiting, InQueue, Applied]
        grind

/-- A call of the consumer, by the positions it leaves the messages in: it makes no message and
changes none, apart from durations and timers. -/
theorem caught_of_positions (hinv : Inv env s) (henabled : s.Enabled (.consume answer))
    (hcaught : Caught handle tune s) {stage' : ReqPtr → Stage} {consumer' : Consumer}
    (hstage : (s.consume env answer).stage = stage')
    (hconsumer : (s.consume env answer).consumer = consumer')
    (hwaiting : ({ s with stage := stage', consumer := consumer' }).Waiting tune → s.Waiting tune)
    (hqueue : ({ s with stage := stage', consumer := consumer' }).InQueue tune → s.InQueue tune)
    (happlied : ({ s with stage := stage', consumer := consumer' }).Applied tune → s.Applied tune)
    (hpending : ({ s with stage := stage', consumer := consumer' }).Applied tune →
      s.Pending handle → ({ s with stage := stage', consumer := consumer' }).Pending handle) :
    Caught handle tune (next env s (.consume answer)) := by
  have heffect : Effect env s (.consume answer) (s.consume env answer) := effect_of_consume hinv
  have hinv' := inv_of_effect hinv heffect
  have huntunes : ∀ u, (s.consume env answer).Untunes handle u ↔
      ({ s with stage := stage', consumer := consumer' }).Untunes handle u := by
    intro u
    simp only [Untunes, hstage]
    refine and_congr_right fun hu => ?_
    have hused : s.stage u ≠ .unused := by
      intro h
      rw [hinv.received u, ← @received_consume env s answer,
        ← hinv'.received u, hstage] at h
      exact hu h
    have hkept := (heffect.persists hused).2
    rw [hkept.type, hkept.handle]
  refine caught_of_frame hinv henabled trivial hcaught ?_ ?_ ?_ ?_
  · simp only [next, Waiting, hstage]
    exact hwaiting
  · simp only [next, InQueue, hstage, hconsumer]
    exact hqueue
  · simp only [next, Applied, hstage, hconsumer]
    exact happlied
  · intro h hp
    simp only [next, Applied, hstage, hconsumer] at h
    obtain ⟨u, hu, hplace⟩ := hpending h hp
    refine ⟨u, (huntunes u).mpr hu, ?_⟩
    simp only [next, hstage, hconsumer]
    exact hplace

/-- The consumer inserts: a request that was let pass becomes live. -/
theorem caught_of_insert (hinv : Inv env s) (henabled : s.Enabled (.consume answer))
    (hconsumer : s.consumer = .insert req) (hcaught : Caught handle tune s) :
    Caught handle tune (next env s (.consume answer)) := by
  have hheld := hinv.held (show s.consumer.item = some req by rw [hconsumer]; rfl)
  have hitem := hinv.item
  cases hinserted : (s.table.insertRequest env (s.heap req) answer.timerBlock answer.enqueued).1 with
  | true =>
    refine caught_of_positions hinv henabled hcaught
      (show _ = Function.update s.stage req .live by
        simp only [consume, hconsumer, hinserted, if_true]; rfl)
      (show _ = .idle by simp only [consume, hconsumer, hinserted, if_true]; rfl) ?_ ?_ ?_ ?_
    all_goals
      simp only [Pending, Untunes, Waiting, InQueue, Applied]
      grind [Stage.tracked]
  | false =>
    refine caught_of_positions hinv henabled hcaught
      (show _ = s.stage by simp [consume, hconsumer, hinserted, turn])
      (show _ = .discard req by simp [consume, hconsumer, hinserted, turn]) ?_ ?_ ?_ ?_
    all_goals
      simp only [Pending, Untunes, Waiting, InQueue, Applied]
      grind

/-- The consumer is done with a message and turns to the next. -/
theorem caught_of_done (hinv : Inv env s)
    (henabled : s.Enabled (.consume answer)) (hcaught : Caught handle tune s)
    (hitem : s.consumer.item = some req)
    (hstage : (s.consume env answer).stage = Function.update s.stage req .freed)
    (hconsumer : (s.consume env answer).consumer = .idle)
    (huntrack : ∀ r, s.consumer ≠ .remove r tune ∧ s.consumer ≠ .untrack r tune)
    (hfind : s.consumer = .find req → s.Untunes handle req → s.stage tune ≠ .live) :
    Caught handle tune (next env s (.consume answer)) := by
  have hheld := hinv.held hitem
  have hitems := hinv.item
  refine caught_of_positions hinv henabled hcaught hstage hconsumer ?_ ?_ ?_ ?_
  all_goals
    simp only [Pending, Untunes, Waiting, InQueue, Applied] at *
    grind [Stage.tracked, Consumer.item]

/-- The consumer looks the tune request of a message up.  An untune message of the race finds a live
request and removes it; it is dropped only when there is none. -/
theorem caught_of_find (hinv : Inv env s) (hroles : Roles handle tune s)
    (henabled : s.Enabled (.consume answer)) (hconsumer : s.consumer = .find req)
    (hcaught : Caught handle tune s) : Caught handle tune (next env s (.consume answer)) := by
  have hitem : s.consumer.item = some req := by rw [hconsumer]; rfl
  have hheld := hinv.held hitem
  have hused : s.stage req ≠ .unused := by rw [hheld]; decide
  have hok := hinv.consumer
  simp only [ConsumerOk, hconsumer] at hok
  have hne : req ≠ tune := fun h => hok ((hroles req hused).itself h).1
  have huntrack : ∀ r, s.consumer ≠ .remove r tune ∧ s.consumer ≠ .untrack r tune := by
    simp [hconsumer]
  cases hlookup : s.tracker.manager.mActiveRequests.lookup (s.heap req).mHandle with
  | none =>
    have hnext : s.consume env answer = (s.cleanUpRequest req).turn .idle := by
      simp only [consume, hconsumer, RequestManager.getRequestFromMap, hlookup, Option.getD_none]
    refine caught_of_done hinv henabled hcaught hitem (by rw [hnext]; rfl) (by rw [hnext]; rfl) huntrack ?_
    rintro - ⟨-, -, hhandle⟩ hlive
    have hmem := (hroles.mem_active_iff hinv).mpr ⟨by rw [hlive]; decide, by rw [hlive]; rfl⟩
    rw [hhandle] at hlookup
    exact AList.lookup_eq_none.mp hlookup hmem
  | some info =>
    obtain ⟨entry, status⟩ := info
    obtain ⟨target, rfl, htune, htracked, hhandle⟩ := hinv.origin _ _ hlookup
    obtain ⟨status', hentry, hstatus⟩ := hinv.entry target htune htracked
    rw [hhandle] at hentry
    obtain rfl : status = status' := by
      have := hlookup.symm.trans hentry
      simpa using this
    -- a message of the race is about its tune request
    have htarget : s.Untunes handle req → target = tune :=
      fun h => hroles.eq_tune htune (hhandle.trans h.2.2)
    have hfits := hinv.fits req hused
    rw [hheld] at hfits
    simp only [Stage.fits, decide_eq_true_eq] at hfits
    have hfound := hstatus.found
    rcases hfits with htype | htype | htype
    · exact absurd htype hok
    · -- a retune message is about another request
      have hnext : s.consume env answer = s.turn (.update req target status) := by
        simp only [consume, hconsumer, RequestManager.getRequestFromMap, hlookup, Option.getD_some,
          if_neg hfound, htype]
      have hnot : ¬ s.Untunes handle req := by
        rintro ⟨-, h, -⟩
        rw [htype] at h
        cases h
      refine caught_of_positions hinv henabled hcaught (by rw [hnext]) (by rw [hnext]) ?_ ?_ ?_ ?_
      all_goals
        simp only [Pending, Waiting, InQueue, Applied, turn] at *
        grind [Untunes]
    · cases hcompleted : hasBit status REQ_COMPLETED with
      | false =>
        have hnext : s.consume env answer = (s.cleanUpRequest req).turn .idle := by
          simp [consume, hconsumer, RequestManager.getRequestFromMap, hlookup, htype, hcompleted]
        refine caught_of_done hinv henabled hcaught hitem (by rw [hnext]; rfl) (by rw [hnext]; rfl)
          huntrack ?_
        intro _ huntunes hlive
        rw [← htarget huntunes] at hlive
        rw [hstatus.completed (Or.inl hlive)] at hcompleted
        cases hcompleted
      | true =>
        have hnext : s.consume env answer = s.turn (.remove req target) := by
          simp [consume, hconsumer, RequestManager.getRequestFromMap, hlookup,
            if_neg hfound, htype, hcompleted]
        refine caught_of_positions hinv henabled hcaught (by rw [hnext]) (by rw [hnext]) ?_ ?_ ?_ ?_
        all_goals
          simp only [Pending, Waiting, InQueue, Applied, turn] at *
          grind [Untunes]

/-- The consumer drops the cancelled request, or removes the applied one. -/
theorem caught_of_consume (hinv : Inv env s) (hroles : Roles handle tune s)
    (henabled : s.Enabled (.consume answer)) (hcaught : Caught handle tune s) :
    Caught handle tune (next env s (.consume answer)) := by
  have hok := hinv.consumer
  cases hconsumer : s.consumer with
  | idle => exact absurd hconsumer henabled
  | crashed req =>
    have hnext : next env s (.consume answer) = s := by simp only [next, consume, hconsumer]
    rw [hnext]
    exact hcaught
  | status req => exact caught_of_status hinv henabled hconsumer hcaught
  | mark req =>
    have hnext : (s.consume env answer).stage = s.stage := by simp only [consume, hconsumer, turn]
    have hnext' : (s.consume env answer).consumer = .insert req := by
      simp only [consume, hconsumer, turn]
    refine caught_of_positions hinv henabled hcaught hnext hnext' ?_ ?_ ?_ ?_
    all_goals
      simp only [Pending, Untunes, Waiting, InQueue, Applied]
      grind
  | insert req => exact caught_of_insert hinv henabled hconsumer hcaught
  | discard req =>
    exact caught_of_done hinv henabled hcaught (show s.consumer.item = some req by rw [hconsumer]; rfl)
      (by simp only [consume, hconsumer]; rfl) (by simp only [consume, hconsumer]; rfl)
      (by simp [hconsumer]) (by simp [hconsumer])
  | find req => exact caught_of_find hinv hroles henabled hconsumer hcaught
  | update req target status =>
    have hitem : s.consumer.item = some req := by rw [hconsumer]; rfl
    have hdone : (s.consume env answer).stage = Function.update s.stage req .freed →
        (s.consume env answer).consumer = .idle → Caught handle tune (next env s (.consume answer)) :=
      fun hstage hidle => caught_of_done hinv henabled hcaught hitem hstage hidle (by simp [hconsumer])
        (by simp [hconsumer])
    cases hcompleted : hasBit status REQ_COMPLETED with
    | false =>
      refine hdone ?_ ?_
      · simp only [consume, hconsumer, hcompleted, Bool.not_false, if_true]; rfl
      · simp only [consume, hconsumer, hcompleted, Bool.not_false, if_true]; rfl
    | true =>
      cases hupdate : CocoTable.updateRequest (s.heap target) (s.heap req).mDuration
          answer.timerBlock answer.enqueued with
      | none =>
        have hnext : s.consume env answer = s.turn (.crashed req) := by
          simp [consume, hconsumer, hcompleted, hupdate]
        refine caught_of_positions hinv henabled hcaught (by rw [hnext]) (by rw [hnext]) ?_ ?_ ?_ ?_
        all_goals
          simp only [Pending, Untunes, Waiting, InQueue, Applied, turn]
          grind
      | some updated =>
        refine hdone ?_ ?_
        · simp [consume, hconsumer, hcompleted, hupdate, turn, cleanUpRequest, goto]
        · simp [consume, hconsumer, hcompleted, hupdate, turn]
  | remove req target =>
    have hnext : (s.consume env answer).stage = s.stage := by simp only [consume, hconsumer, turn]
    have hnext' : (s.consume env answer).consumer = .untrack req target := by
      simp only [consume, hconsumer, turn]
    refine caught_of_positions hinv henabled hcaught hnext hnext' ?_ ?_ ?_ ?_
    all_goals
      simp only [Pending, Untunes, Waiting, InQueue, Applied]
      grind
  | untrack req target =>
    obtain ⟨hheld, -, hlive, -⟩ := hinv.target_of_untrack hconsumer
    refine caught_of_positions hinv henabled hcaught
      (show _ = Function.update (Function.update s.stage req .freed) target .freed by
        simp only [consume, hconsumer]; rfl)
      (show _ = .idle by simp only [consume, hconsumer]; rfl) ?_ ?_ ?_ ?_
    all_goals
      simp only [Pending, Untunes, Waiting, InQueue, Applied]
      grind

/-! ## The end of the race -/

/-- **No step sets it back**: once the untune request has caught the tune request, it has it in
every later state. -/
theorem caught_of_next (hinv : Inv env s) (hroles : Roles handle tune s) (henabled : s.Enabled e)
    (hstep : RivalStep handle tune s e) (hcaught : Caught handle tune s) :
    Caught handle tune (next env s e) := by
  cases e with
  | receive req request isValidated => exact caught_of_receive hinv henabled hstep hcaught
  | work req answer =>
    by_cases hhandle : (s.heap req).mHandle = handle
    · by_cases htune : tune = req
      · subst htune
        exact caught_of_work_tune hinv hroles henabled hstep hcaught
      · exact caught_of_work_untune hinv hroles henabled hstep htune hhandle hcaught
    · exact caught_of_work_other hinv hroles henabled hstep hhandle hcaught
  | pop req => exact caught_of_pop hinv hroles henabled hstep hcaught
  | consume answer => exact caught_of_consume hinv hroles henabled hcaught
  | timerExpired req target duration => exact caught_of_timerExpired hinv henabled hstep hcaught

/-- A message of the handle is not dropped for want of a client: when its worker looks, the client is
known. -/
def Heard (handle : Int) (req : ReqPtr) (s : Server) : Event → Prop
  | .work r _ => r = req → (s.heap req).mHandle = handle → s.stage req = .clientCheck →
    s.tracker.clients.clientExists (s.heap req).mClientPID (s.heap req).mClientTID
  | _ => True

instance (s : Server) (e : Event) : Decidable (Heard handle req s e) :=
  match e with
  | .work _ _ => inferInstanceAs (Decidable (_ → _ → _ → _))
  | .receive _ _ _ | .pop _ | .consume _ | .timerExpired _ _ _ => .isTrue trivial

/-- Once the worker of an untune message has called `disableRequestProcessing`, or the timer of the
request has queued the message, the tune request is caught. -/
theorem caught_of_disabled {untune : ReqPtr} (hinv : Inv env s) (hroles : Roles handle tune s)
    (henabled : s.Enabled e) (hstep : RivalStep handle tune s e) (hheard : Heard handle untune s e)
    (h : s.Disabled handle untune → Caught handle tune s)
    (hdisabled : (next env s e).Disabled handle untune) : Caught handle tune (next env s e) := by
  by_cases hbefore : s.Disabled handle untune
  · exact caught_of_next hinv hroles henabled hstep (h hbefore)
  obtain ⟨⟨hused', htype', hhandle'⟩, hcheck', hdisable'⟩ := hdisabled
  have hsame : (next env s e).stage untune = s.stage untune →
      (next env s e).heap untune = s.heap untune → False := by
    intro hstage hheap
    rw [hstage] at hused' hcheck' hdisable'
    rw [hheap] at htype' hhandle'
    exact hbefore ⟨⟨hused', htype', hhandle'⟩, hcheck', hdisable'⟩
  have heffect := effect_of_enabled hinv henabled
  cases e with
  | receive req request isValidated =>
    by_cases hne : untune = req
    · subst hne
      simp only [next, arrive, goto_stage_self, goto_heap, Function.update_self] at htype' hcheck'
      rw [if_neg (by rw [htype']; decide)] at hcheck'
      exact absurd rfl hcheck'
    · exact absurd (hsame (goto_stage_of_ne hne) (Function.update_of_ne hne _ _)) id
  | work req answer =>
    obtain ⟨-, -, hframe⟩ := work_frame env s req answer
    by_cases hne : untune = req
    · subst hne
      have hworking : (s.stage untune).working := henabled
      have hused : s.stage untune ≠ .unused := by
        intro h
        rw [h] at hworking
        cases hworking
      obtain ⟨-, hkept⟩ := heffect.persists hused
      have huntunes : s.Untunes handle untune :=
        ⟨hused, hkept.type.symm.trans htype', hkept.handle.symm.trans hhandle'⟩
      have htune : tune ≠ untune := by
        rintro rfl
        have htype := huntunes.2.1
        rw [(hroles.isTune hused).2] at htype
        cases htype
      by_cases hcheck : s.stage untune = .clientCheck
      · have hto : (next env s (.work untune answer)).stage untune = .disable := by
          simp [next, work, hcheck, huntunes.2.1, hheard rfl huntunes.2.2 hcheck]
        exact absurd hto hdisable'
      · by_cases hdisable : s.stage untune = .disable
        · exact caught_of_disable hinv hroles henabled htune huntunes hdisable
        · exact absurd ⟨huntunes, hcheck, hdisable⟩ hbefore
    · exact absurd (hsame (hframe untune hne).1 (hframe untune hne).2) id
  | pop req =>
    by_cases hne : untune = req
    · subst hne
      have hqueued := henabled.2.1
      obtain ⟨-, hkept⟩ := heffect.persists (show s.stage untune ≠ .unused by rw [hqueued]; decide)
      refine absurd ⟨⟨?_, ?_, ?_⟩, ?_, ?_⟩ hbefore
      · rw [hqueued]; decide
      · exact hkept.type.symm.trans htype'
      · exact hkept.handle.symm.trans hhandle'
      · rw [hqueued]; decide
      · rw [hqueued]; decide
    · exact absurd (hsame (pop_stage_of_ne hne) (by rw [next, pop_heap])) id
  | consume answer =>
    obtain ⟨hretimed, hplace⟩ := consume_message answer hinv untune
    have hkept := hretimed.kept
    have huntunes := fun hused => (⟨hused, hkept.type.symm.trans htype',
      hkept.handle.symm.trans hhandle'⟩ : s.Untunes handle untune)
    rcases hplace with hstage | ⟨hfrom | hfrom, -⟩ | ⟨hfrom, -⟩
    · rw [show (next env s (.consume answer)).stage untune = s.stage untune from hstage]
        at hused' hcheck' hdisable'
      exact absurd ⟨huntunes hused', hcheck', hdisable'⟩ hbefore
    all_goals
      refine absurd ⟨huntunes ?_, ?_, ?_⟩ hbefore
      all_goals
        rw [hfrom]
        decide
  | timerExpired req target duration =>
    obtain ⟨stage, hnext, -⟩ := @timerExpired_cases target duration env s req
    by_cases hne : untune = req
    · subst hne
      rw [hnext] at hhandle'
      simp only [arrive, goto_heap, Function.update_self] at hhandle'
      have hused : s.stage target ≠ .unused := by rw [henabled.2.1]; decide
      have hfits := hinv.fits target hused
      rw [henabled.2.1] at hfits
      obtain rfl := hroles.eq_tune ⟨hused, by simpa [Stage.fits] using hfits⟩ hhandle'
      exact caught_of_expiry hinv hroles henabled hstep
    · refine absurd (hsame ?_ ?_) id
      · rw [hnext]
        exact goto_stage_of_ne hne
      · rw [hnext]
        exact Function.update_of_ne hne _ _

/-- When all threads are done, a tune request that is caught has been freed. -/
theorem Caught.freed (hcaught : Caught handle tune s) (hinv : Inv env s)
    (hroles : Roles handle tune s) (hdone : s.Quiescent) (hused : s.stage tune ≠ .unused) :
    s.stage tune = .freed := by
  obtain ⟨hidle, hstages⟩ := hdone
  have hreceived : ∀ req, s.stage req ≠ .unused → req ∈ s.received :=
    fun req h => not_not.mp ((not_congr (hinv.received req)).mp h)
  obtain ⟨hworking, hqueued⟩ := hstages tune (hreceived tune hused)
  cases hstage : s.stage tune with
  | freed => rfl
  | unused => exact absurd hstage hused
  | held =>
    have hitem := (hinv.item tune).mp hstage
    rw [hidle] at hitem
    cases hitem
  | queued => exact absurd hstage hqueued
  | lost => exact absurd hstage ((hroles tune hused).kept (hroles.handle_tune hused))
  | live =>
    -- a live request is waited for by an untune message, but there is none left
    obtain ⟨u, ⟨hu, -⟩, hplace⟩ := hcaught.applied (Or.inr (Or.inr ⟨hstage, by simp [hidle]⟩))
    have hu' := hstages u (hreceived u hu)
    rcases hplace with h | h | h | h | h
    · rw [h] at hu'; cases hu'.1
    · rw [h] at hu'; cases hu'.1
    · rw [h] at hu'; cases hu'.1
    · exact absurd h hu'.2
    · rw [hidle] at h; cases h
  | globalRateLimit | clientCheck | createClient | disable | rateLimit | verifyHandle | verify
    | shouldBeAdded | add | enqueue =>
    rw [hstage] at hworking
    cases hworking

/-- Every message of the race is heard by the server. -/
theorem heard_of_raceStep (hstep : RaceStep handle tune s e) : Heard handle req s e := by
  cases e with
  | work r answer =>
    rintro rfl hhandle
    exact hstep.1 hhandle
  | receive | pop | consume | timerExpired => trivial

/-- The insertion of an infinite request does not fail half way. -/
theorem Cast.insertStarts (hinv : Inv env s) (hcast : Cast handle tune s) :
    InsertStarts env tune s e := by
  cases e with
  | consume answer =>
    intro hconsumer
    have hheld := hinv.held (show s.consumer.item = some tune by rw [hconsumer]; rfl)
    exact Or.inl ((hcast tune (by rw [hheld]; decide)).itself rfl).2.2.1
  | receive | work | pop | timerExpired => trivial

/-- Nothing is left of the request under this handle. -/
structure Untuned (handle : Int) (tune : ReqPtr) (s : Server) : Prop where
  inactive : handle ∉ s.active
  handles : ∀ tid, ¬ s.tracker.clients.Holds tid handle
  unlinked : ¬ s.table.Linked tune
  cleaned : (s.cleaned.map Prod.fst).count tune = 1

/-- A state the server can be in. -/
def Reachable (env : Env) (s : Server) : Prop :=
  ∃ heap events, (machine env).Run (init heap) events ∧ s = (machine env).exec (init heap) events

/-- What the server reaches satisfies its invariant. -/
theorem Reachable.inv (h : Reachable env s) : Inv env s := by
  obtain ⟨heap, events, hrun, rfl⟩ := h
  exact inv_of_run hrun

/-- A request that was freed left nothing behind. -/
theorem untuned_of_freed (hinv : Inv env s) (hroles : Roles handle tune s) (hlink : LinkOk s tune)
    (hfreed : s.stage tune = .freed) : Untuned handle tune s := by
  have hinactive : handle ∉ s.active := by
    rw [hroles.mem_active_iff hinv, hfreed]
    simp [Stage.tracked]
  refine ⟨hinactive, ?_, hlink.not_linked (by rw [hfreed]; decide), ?_⟩
  · intro tid hholds
    obtain ⟨req, status, hlookup, -⟩ := hinv.handles tid handle hholds
    exact hinactive (UnorderedMap.mem_of_lookup hlookup)
  · rw [hinv.cleaned tune, if_pos hfreed]

section Runs

variable {s₀ : Server} {events : List Event} {untune : ReqPtr} (hinv₀ : Inv env s₀)
  (hfresh : ∀ req ∈ s₀.received, (s₀.heap req).mHandle ≠ handle) (htune : tune ∉ s₀.received)
include hinv₀

include hfresh htune in
/-- Before the first message of the handle. -/
theorem roles_of_fresh : Roles handle tune s₀ := by
  intro req hused
  have hreceived := not_not.mp ((not_congr (hinv₀.received req)).mp hused)
  have hother := hfresh req hreceived
  refine ⟨?_, fun _ h => absurd h hother, fun h => absurd h hother, fun h => absurd h hother⟩
  rintro rfl
  exact absurd hreceived htune

include htune in
/-- A tune request that has not arrived is linked nowhere. -/
theorem linkOk_of_fresh : LinkOk s₀ tune := by
  have hunused := (hinv₀.received tune).mpr htune
  refine ⟨?_, ?_⟩
  · rintro ⟨i, k, node, hnode, rfl⟩
    exact absurd hunused (hinv₀.links i k node hnode).2.2.1.1
  · rintro entry hentry rfl
    have hcount := hinv₀.cleaned entry.1
    rw [hunused, if_neg (by decide), List.count_eq_zero] at hcount
    exact absurd (List.mem_map_of_mem hentry) hcount

variable (hrun : (machine env).Run s₀ events)
  (hsteps : (machine env).Steps (RivalStep handle tune) s₀ events)
include hfresh htune hrun hsteps

/-- The parts are what they were at the end of the run. -/
theorem roles_of_run : Inv env ((machine env).exec s₀ events) ∧
    Roles handle tune ((machine env).exec s₀ events) := by
  refine (hrun.and hsteps).invariant (I := fun s => Inv env s ∧ Roles handle tune s)
    ⟨hinv₀, roles_of_fresh hinv₀ hfresh htune⟩ ?_
  rintro s e ⟨hinv, hroles⟩ ⟨henabled, hstep⟩
  exact ⟨inv_of_effect hinv (effect_of_enabled hinv henabled),
    roles_of_next hinv hroles henabled hstep⟩

omit hfresh hsteps in
/-- And the request is linked exactly while it is live. -/
theorem linkOk_of_run (hstarts : (machine env).Steps (InsertStarts env tune) s₀ events) :
    LinkOk ((machine env).exec s₀ events) tune := by
  have hend : Inv env ((machine env).exec s₀ events) ∧
      LinkOk ((machine env).exec s₀ events) tune := by
    refine (hrun.and hstarts).invariant (I := fun s => Inv env s ∧ LinkOk s tune)
      ⟨hinv₀, linkOk_of_fresh hinv₀ htune⟩ ?_
    rintro s e ⟨hinv, hlink⟩ ⟨henabled, hstart⟩
    have heffect := effect_of_enabled hinv henabled
    exact ⟨inv_of_effect hinv heffect, linkOk_of_effect hinv heffect hlink hstart⟩
  exact hend.2

/-- An untune message that was heard has caught the tune request. -/
theorem freed_of_heard (hheard : (machine env).Steps (Heard handle untune) s₀ events)
    (htuned : tune ∈ ((machine env).exec s₀ events).received)
    (huntuned : ((machine env).exec s₀ events).Untunes handle untune)
    (hdone : ((machine env).exec s₀ events).Quiescent) :
    ((machine env).exec s₀ events).stage tune = .freed := by
  have hcaught₀ : s₀.Disabled handle untune → Caught handle tune s₀ := by
    rintro ⟨⟨hused, -, hhandle⟩, -⟩
    exact absurd hhandle (hfresh untune (not_not.mp ((not_congr (hinv₀.received untune)).mp hused)))
  obtain ⟨⟨hinv, hroles⟩, hcaught⟩ : (Inv env ((machine env).exec s₀ events) ∧
      Roles handle tune ((machine env).exec s₀ events)) ∧
      (((machine env).exec s₀ events).Disabled handle untune →
        Caught handle tune ((machine env).exec s₀ events)) := by
    refine ((hrun.and hsteps).and hheard).invariant
      (I := fun s => (Inv env s ∧ Roles handle tune s) ∧
        (s.Disabled handle untune → Caught handle tune s))
      ⟨⟨hinv₀, roles_of_fresh hinv₀ hfresh htune⟩, hcaught₀⟩ ?_
    rintro s e ⟨⟨hinv, hroles⟩, hcaught⟩ ⟨⟨henabled, hstep⟩, hhear⟩
    exact ⟨⟨inv_of_effect hinv (effect_of_enabled hinv henabled),
      roles_of_next hinv hroles henabled hstep⟩,
      caught_of_disabled hinv hroles henabled hstep hhear hcaught⟩
  generalize (machine env).exec s₀ events = s at *
  -- the untune message has come to its end, so it was past `disableRequestProcessing`
  have hdisabled : s.Disabled handle untune := by
    refine ⟨huntuned, ?_, ?_⟩
    all_goals
      intro h
      have hworking := (hdone.2 untune
        (not_not.mp ((not_congr (hinv.received untune)).mp huntuned.1))).1
      rw [h] at hworking
      cases hworking
  exact (hcaught hdisabled).freed hinv hroles hdone
    ((not_congr (hinv.received tune)).mpr (not_not.mpr htuned))

end Runs

/-- **Every order of an infinite tune message and the untune messages that race it ends with the
request gone**: it is not active, its client does not hold the handle, no node of it is linked, and
it was freed once. -/
theorem untuned_of_race {s₀ : Server} {events : List Event} {untune : ReqPtr}
    (hreachable : Reachable env s₀) (hfresh : ∀ req ∈ s₀.received, (s₀.heap req).mHandle ≠ handle)
    (htune : tune ∉ s₀.received) (hrun : (machine env).Run s₀ events)
    (hsteps : (machine env).Steps (RaceStep handle tune) s₀ events)
    (htuned : tune ∈ ((machine env).exec s₀ events).received)
    (huntuned : ((machine env).exec s₀ events).Untunes handle untune)
    (hdone : ((machine env).exec s₀ events).Quiescent) :
    Untuned handle tune ((machine env).exec s₀ events) := by
  have hinv₀ := hreachable.inv
  have hcast₀ : Cast handle tune s₀ := (roles_of_fresh hinv₀ hfresh htune).cast fun hused =>
    absurd ((hinv₀.received tune).mpr htune) hused
  -- the steps of the race of a known client are steps of rivals, whose untune messages are heard
  have hall : (machine env).Steps (fun s e => RivalStep handle tune s e ∧
      InsertStarts env tune s e ∧ Heard handle untune s e) s₀ events := by
    refine (hrun.and hsteps).of_invariant (I := fun s => Inv env s ∧ Cast handle tune s)
      ⟨hinv₀, hcast₀⟩ ?_ ?_
    · rintro s e ⟨hinv, hcast⟩ ⟨henabled, hstep⟩
      exact ⟨inv_of_effect hinv (effect_of_enabled hinv henabled),
        cast_of_next hinv hcast henabled hstep⟩
    · rintro s e ⟨hinv, hcast⟩ ⟨henabled, hstep⟩
      exact ⟨hcast.rivalStep hinv henabled hstep, hcast.insertStarts hinv, heard_of_raceStep hstep⟩
  have hrivals := hall.mono fun s e h => h.1
  obtain ⟨hinv, hroles⟩ := roles_of_run hinv₀ hfresh htune hrun hrivals
  exact untuned_of_freed hinv hroles
    (linkOk_of_run hinv₀ htune hrun (hall.mono fun s e h => h.2.1))
    (freed_of_heard hinv₀ hfresh htune hrun hrivals (hall.mono fun s e h => h.2.2) htuned huntuned
      hdone)

end Server

namespace Sample

/-- The client is known: its first request is live. -/
def known : List Server.Event := worker 1 (tune 1) 8 ++ drain 1 3

/-- The consumer has let the second request pass when its untune message cancels it; the message is
queued and removes the request again. -/
def lateUntune : List Server.Event :=
  worker 2 (request 2 1 [.ofValues (code 1) 0 0 [6]]) 7 ++ drain 2 1 ++
    worker 3 (message .REQ_RESOURCE_UNTUNING 2 0 1) 2 ++ List.replicate 2 (.consume answer) ++
    List.replicate 3 (.work 3 answer) ++ drain 3 3

end Sample

open Server

set_option maxRecDepth 4000 in
theorem untuned_sample :
    Untuned 2 2 ((machine Sample.env).exec
      ((machine Sample.env).exec Sample.server Sample.known) Sample.lateUntune) := by
  have hreachable : Reachable Sample.env ((machine Sample.env).exec Sample.server Sample.known) :=
    ⟨_, Sample.known, by decide, rfl⟩
  have huntunes : ((machine Sample.env).exec
      ((machine Sample.env).exec Sample.server Sample.known) Sample.lateUntune).Untunes 2 3 :=
    ⟨by decide, by decide, by decide⟩
  exact untuned_of_race hreachable (by decide) (by decide) (by decide) (by decide) (by decide)
    huntunes (by decide)

end ResourceTuner
