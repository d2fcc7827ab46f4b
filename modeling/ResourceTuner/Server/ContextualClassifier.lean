import ResourceTuner.Server.Cancellation

/-!
# Placing the focused application

`ContextualClassifier::MoveAppThreadsToCGroup`.  When an application is opened, the one thread of the
classifier untunes its request for the previous application, and then issues a request that moves the
new application's processes into their cgroups.  Both requests are validated ones; the untune request
carries the PID and TID of the new application, and `mRestuneHandle` is cleared whatever becomes of
it.

* **`ContextualClassifier`** — the server, and the position of the classifier's thread;
* **`call`** — the pieces of `MoveAppThreadsToCGroup` between its two submissions;
* **`Trusted`**, **`Undoing`** — the two messages on their way through the server;
* **`onePlacement_of_run`** — one placement at a time, as long as the untune requests are heeded.
-/

namespace ResourceTuner

/-- What an application-open event brings.  `threads` lists, for the thread names of the application's
configuration, the process that `fetchPid` finds (`-1` if none) and the configured cgroup. -/
structure AppOpen where
  incomingPID : Int
  incomingTID : Int
  cgroupIdentifier : Int
  threads : List (Int × Int)

/-- What the world answers to the classifier: the block for a request (`none` where the allocation
throws), the next handle, and the blocks for the resources and for their list. -/
structure PlacementAnswer where
  block : Option ReqPtr
  handle : Int
  resource : Nat → Bool
  list : Nat → Bool

/-- Where the classifier's thread is in `MoveAppThreadsToCGroup`. -/
inductive ClassifierPosition where
  | idle
  | opened (app : AppOpen)
  /-- in `submitResProvisionRequest` of the untune request -/
  | untuning (untuneRequest : ReqPtr) (app : AppOpen)
  | issuing (app : AppOpen)
  /-- in `submitResProvisionRequest` of the tune request -/
  | tuning (request : ReqPtr)

/-- The server and the classifier; `issued` lists the handles of the tune requests submitted so
far. -/
structure ContextualClassifier where
  server : Server
  mRestuneHandle : Int
  position : ClassifierPosition
  issued : List Int

namespace ContextualClassifier

def RES_CGRP_MOVE_PID : BitVec 32 := 0x00090000

/-! ## The requests -/

/-- A request with nothing set but what both requests set. -/
def newRequest (type : RequestType) (handle priority : Int) (app : AppOpen) : Request where
  toMessage := Message.setPriority
    { mReqType := type
      mHandle := handle
      mDuration := -1
      mProperties := 0
      mClientPID := app.incomingPID
      mClientTID := app.incomingTID } priority
  mTimer := none
  mResourceList := none

def untuneRequest (handle : Int) (app : AppOpen) : Request :=
  newRequest .REQ_RESOURCE_UNTUNING handle SYSTEM_HIGH app

def createMovePidResource (addr : ReqPtr × Nat) (cGroupdId pid : Int) : ResIterable where
  addr := addr
  mData := some (Resource.ofValues RES_CGRP_MOVE_PID 0 0 [cGroupdId, pid])

/-- The moves of a placement: the incoming process, and the configured threads that run elsewhere. -/
def moves (app : AppOpen) : List (Int × Int) :=
  (app.cgroupIdentifier, app.incomingPID) ::
    app.threads.filterMap fun (targetPID, currCGroupID) =>
      if targetPID ≠ -1 ∧ targetPID ≠ app.incomingPID then some (currCGroupID, targetPID) else none

/-- Add the resources one after the other, `none` where an allocation throws. -/
def addMoves (answer : PlacementAnswer) (req : ReqPtr) :
    Nat → List (Int × Int) → Request → Option Request
  | _, [], request => some request
  | n, (cGroupdId, pid) :: rest, request =>
    if answer.resource n then
      addMoves answer req (n + 1) rest
        (request.addResource (answer.list n) (createMovePidResource (req, n) cGroupdId pid))
    else none

def tuneRequest (answer : PlacementAnswer) (req : ReqPtr) (app : AppOpen) : Option Request :=
  addMoves answer req 0 (moves app)
    (newRequest .REQ_RESOURCE_TUNING answer.handle SYSTEM_LOW app)

/-! ## The classifier's thread -/

variable {env : Env} {c : ContextualClassifier}

def init (heap : Heap) : ContextualClassifier := ⟨.init heap, -1, .idle, []⟩

/-- The end of an event without a placement, which is also what the exception handler does. -/
def abandon (c : ContextualClassifier) : ContextualClassifier :=
  { c with mRestuneHandle := -1, position := .idle }

/-- One piece of `MoveAppThreadsToCGroup`.  A request that is submitted is a message that arrives at
the server; its worker is the classifier's thread, which waits for it. -/
def call (env : Env) (c : ContextualClassifier) (answer : PlacementAnswer) : ContextualClassifier :=
  match c.position with
  | .idle => c
  | .opened app =>
    if c.mRestuneHandle = -1 then { c with position := .issuing app }
    else
      match answer.block with
      | none => c.abandon
      | some req =>
        { c with
          server := c.server.next env (.receive req (untuneRequest c.mRestuneHandle app) true)
          position := .untuning req app }
  | .untuning _ app => { c with mRestuneHandle := -1, position := .issuing app }
  | .issuing app =>
    match answer.block with
    | none => c.abandon
    | some req =>
      match tuneRequest answer req app with
      | none => c.abandon
      | some request =>
        if request.getResourcesCount > 0 then
          { server := c.server.next env (.receive req request true)
            mRestuneHandle := answer.handle
            position := .tuning req
            issued := answer.handle :: c.issued }
        else c.abandon
  | .tuning _ => { c with position := .idle }

inductive Event where
  | appOpen (app : AppOpen)
  | call (answer : PlacementAnswer)
  | server (e : Server.Event)

def next (env : Env) (c : ContextualClassifier) : Event → ContextualClassifier
  | .appOpen app => { c with position := .opened app }
  | .call answer => c.call env answer
  | .server e => { c with server := c.server.next env e }

/-- The request queue is drained. -/
def Drained (s : Server) : Prop :=
  s.consumer = .idle ∧ ∀ req ∈ s.received, s.stage req ≠ .queued

/-- When the classifier can go on: the blocks are free ones, the handle is a new one, and a submission
has come back. -/
def CallEnabled (c : ContextualClassifier) (answer : PlacementAnswer) : Prop :=
  match c.position with
  | .idle => False
  | .opened _ => ∀ req ∈ answer.block, c.server.stage req = .unused
  | .untuning req _ | .tuning req => (c.server.stage req).working = false
  | .issuing _ =>
    (∀ req ∈ answer.block, c.server.stage req = .unused) ∧ 0 < answer.handle ∧
      ∀ other ∈ c.server.received, (c.server.heap other).mReqType = .REQ_RESOURCE_TUNING →
        (c.server.heap other).mHandle ≠ answer.handle

/-- An application is opened when the classifier is done with the last one and the queue is
drained.  The other threads of the server do what they like. -/
def Enabled (c : ContextualClassifier) : Event → Prop
  | .appOpen _ => c.position matches .idle ∧ Drained c.server
  | .call answer => c.CallEnabled answer
  | .server e => c.server.Enabled e

def machine (env : Env) : Machine ContextualClassifier Event := ⟨Enabled, next env⟩

instance (s : Server) : Decidable (Drained s) := inferInstanceAs (Decidable (_ ∧ _))

instance (c : ContextualClassifier) (answer : PlacementAnswer) :
    Decidable (c.CallEnabled answer) := by
  unfold CallEnabled
  cases c.position <;> infer_instance

instance (c : ContextualClassifier) (e : Event) : Decidable (c.Enabled e) :=
  match e with
  | .appOpen _ => inferInstanceAs (Decidable (_ ∧ _))
  | .call answer => inferInstanceAs (Decidable (c.CallEnabled answer))
  | .server e => inferInstanceAs (Decidable (c.server.Enabled e))

instance (env : Env) (c : ContextualClassifier) (e : Event) :
    Decidable ((machine env).Enabled c e) :=
  inferInstanceAs (Decidable (c.Enabled e))

/-! ## What is promised, and when -/

/-- No request of the classifier is active but the one whose handle it has kept. -/
def OnePlacement (c : ContextualClassifier) : Prop :=
  ∀ handle ∈ c.issued, handle ∈ c.server.active → handle = c.mRestuneHandle

/-- The untune request for a placement that is still active gets a block, and when its worker looks
for the client, the application that was opened is one already. -/
def Heeded (c : ContextualClassifier) : Event → Prop
  | .call answer =>
    match c.position with
    | .opened _ => answer.block = none → c.mRestuneHandle ∉ c.server.active
    | _ => True
  | .server (.work req _) =>
    match c.position with
    | .untuning untune app => req = untune → c.server.stage untune = .clientCheck →
        c.mRestuneHandle ∈ c.server.active →
          c.server.tracker.clients.clientExists app.incomingPID app.incomingTID
    | _ => True
  | _ => True

instance (c : ContextualClassifier) (e : Event) : Decidable (Heeded c e) := by
  unfold Heeded
  cases c.position <;> cases e <;> try infer_instance
  all_goals
    rename_i e
    cases e <;> infer_instance

/-! ## A trusted message -/

section Server

variable {s s' : Server} {e : Server.Event} {req untune tune : ReqPtr} {request : Request}
  {answer : Answer}

/-- A validated message that was submitted as `request`, and that the queue does not refuse. -/
structure Trusted (s : Server) (request : Request) (req : ReqPtr) : Prop where
  used : s.stage req ≠ .unused
  validated : s.isValidated req
  same : Server.Retimed request (s.heap req)
  kept : s.stage req ≠ .lost

/-- Trust depends on three fields of one message. -/
theorem Trusted.congr (h : Trusted s request req) (hstage : s'.stage req = s.stage req)
    (hheap : s'.heap req = s.heap req) (hvalidated : s'.isValidated req = s.isValidated req) :
    Trusted s' request req where
  used := by rw [hstage]; exact h.used
  validated := by rw [hvalidated]; exact h.validated
  same := by rw [hheap]; exact h.same
  kept := by rw [hstage]; exact h.kept

/-- Only the verifier rewrites a message, and it does not look at a validated one. -/
theorem work_heap_of_validated (hvalidated : s.isValidated req) :
    (s.work env req answer).heap = s.heap := by
  unfold Server.work
  cases s.stage req with
  | unused | queued | held | live | freed | lost => rfl
  | globalRateLimit | createClient | disable | rateLimit | verifyHandle | shouldBeAdded | add => simp
  | verify => simp [hvalidated]
  | clientCheck | enqueue =>
    simp only [Server.addAndWakeup]
    repeat' split
    all_goals first
      | rfl
      | simp

theorem stage_ne_unused_of_working (h : (s.stage req).working) : s.stage req ≠ .unused := by
  intro hunused
  rw [hunused] at h
  cases h

/-- The calls of a worker keep the trust: a validated message is not verified again, and the queue
takes its priority. -/
theorem trusted_of_work (h : Trusted s request req)
    (hpriority : SERVER_CLEANUP_TRIGGER_PRIORITY < request.getPriority)
    (hworking : (s.stage req).working) : Trusted (s.work env req answer) request req := by
  have hheap : (s.work env req answer).heap = s.heap := work_heap_of_validated h.validated
  have hstage : (s.work env req answer).stage req ≠ .unused ∧
      (s.work env req answer).stage req ≠ .lost := by
    by_cases henqueue : s.stage req = .enqueue
    · have hhigh : ¬ (s.heap req).getPriority < SERVER_CLEANUP_TRIGGER_PRIORITY := by
        rw [h.same.links.2]
        omega
      simp only [Server.work, henqueue, Server.addAndWakeup, if_neg hhigh, Server.goto_stage_self]
      exact ⟨by decide, by decide⟩
    · rcases (Server.work_self env s answer hworking henqueue).2 with hfreed | hworking'
      · rw [hfreed]
        exact ⟨by decide, by decide⟩
      · refine ⟨stage_ne_unused_of_working hworking', ?_⟩
        intro hlost
        rw [hlost] at hworking'
        cases hworking'
  refine ⟨hstage.1, ?_, ?_, hstage.2⟩
  · rw [Server.work_isValidated]
    exact h.validated
  · rw [hheap]
    exact h.same

theorem trusted_of_next (hinv : Server.Inv env s) (henabled : s.Enabled e)
    (hpriority : SERVER_CLEANUP_TRIGGER_PRIORITY < request.getPriority)
    (h : Trusted s request req) : Trusted (s.next env e) request req := by
  cases e with
  | receive r message isValidated =>
    have hne : req ≠ r := by
      rintro rfl
      exact h.used henabled.1
    exact h.congr (Server.goto_stage_of_ne hne) (Function.update_of_ne hne _ _)
      (Function.update_of_ne hne _ _)
  | work r answer =>
    by_cases hr : req = r
    · subst hr
      exact trusted_of_work h hpriority henabled
    · obtain ⟨-, -, hframe⟩ := Server.work_frame env s r answer
      exact h.congr (hframe req hr).1 (hframe req hr).2 (by rw [Server.next, Server.work_isValidated])
  | pop r =>
    by_cases hr : req = r
    · subst hr
      -- its priority is above the one that ends the drain
      have hhigh : (s.heap req).getPriority ≠ SERVER_CLEANUP_TRIGGER_PRIORITY := by
        rw [h.same.links.2]
        omega
      have hheld : ((s.pop req).stage req = .held) ∧ (s.pop req).heap = s.heap ∧
          (s.pop req).isValidated = s.isValidated := by
        rw [Server.pop, if_neg hhigh]
        split <;> exact ⟨Server.goto_stage_self, rfl, rfl⟩
      refine ⟨?_, ?_, ?_, ?_⟩
      · rw [Server.next, hheld.1]
        decide
      · rw [Server.next, hheld.2.2]
        exact h.validated
      · rw [Server.next, hheld.2.1]
        exact h.same
      · rw [Server.next, hheld.1]
        decide
    · exact h.congr (Server.pop_stage_of_ne hr) (congrFun Server.pop_heap req)
        (congrFun Server.pop_isValidated req)
  | consume answer =>
    obtain ⟨hretimed, hstage⟩ := Server.consume_message answer hinv req
    refine ⟨?_, ?_, h.same.trans hretimed, ?_⟩
    · rcases hstage with hstage | ⟨-, hstage⟩ | ⟨-, hstage⟩
      · rw [Server.next, hstage]
        exact h.used
      · rw [Server.next, hstage]
        decide
      · rw [Server.next, hstage]
        decide
    · rw [Server.next, Server.consume_isValidated]
      exact h.validated
    · rcases hstage with hstage | ⟨-, hstage⟩ | ⟨-, hstage⟩
      · rw [Server.next, hstage]
        exact h.kept
      · rw [Server.next, hstage]
        decide
      · rw [Server.next, hstage]
        decide
  | timerExpired r target duration =>
    have hne : req ≠ r := by
      rintro rfl
      exact h.used henabled.1
    rw [Server.next, Server.addAndWakeup]
    split <;> exact h.congr (Server.goto_stage_of_ne hne) (Function.update_of_ne hne _ _)
      (Function.update_of_ne hne _ _)

/-! ## A tune request that is being undone -/

/-- The untune message has not been popped. -/
def Coming (stage : Stage) : Prop :=
  stage = .clientCheck ∨ stage = .disable ∨ stage = .rateLimit ∨ stage = .verifyHandle ∨
    stage = .enqueue ∨ stage = .queued

/-- The tune request is freed, or its untune message is on the way to the consumer and will find it
there. -/
def Undoing (s : Server) (untune tune : ReqPtr) : Prop :=
  s.stage tune = .freed ∨
    s.stage tune = .live ∧
      (Coming (s.stage untune) ∨ s.consumer = .find untune ∨ s.consumer = .remove untune tune ∨
        s.consumer = .untrack untune tune)

/-- An event elsewhere leaves an untune message as near to its tune message as it was. -/
theorem Undoing.congr (h : Undoing s untune tune) (htune : s'.stage tune = s.stage tune)
    (huntune : s'.stage untune = s.stage untune)
    (hconsumer : s'.consumer = s.consumer ∨ s.consumer = .idle) : Undoing s' untune tune := by
  unfold Undoing
  rw [htune, huntune]
  rcases hconsumer with hconsumer | hidle
  · rw [hconsumer]
    exact h
  · -- no message was popped
    rcases h with h | ⟨hlive, h⟩
    · exact Or.inl h
    · rw [hidle] at h
      refine Or.inr ⟨hlive, Or.inl ?_⟩
      rcases h with h | h | h | h
      · exact h
      all_goals cases h

/-- A live request is the entry of its handle, and marked as completed. -/
theorem entry_of_live (hinv : Server.Inv env s) (hlive : s.stage tune = .live) :
    ∃ status, s.active.lookup (s.heap tune).mHandle = some (some tune, status) ∧
      hasBit status REQ_COMPLETED ∧ ¬ hasBit status REQ_NOT_FOUND := by
  have hused : s.stage tune ≠ .unused := by
    rw [hlive]
    decide
  have hfits := hinv.fits tune hused
  rw [hlive] at hfits
  obtain ⟨status, hlookup, hstatus⟩ :=
    hinv.entry tune ⟨hused, by simpa [Stage.fits] using hfits⟩ (by rw [hlive]; rfl)
  exact ⟨status, hlookup, hstatus.completed (Or.inl hlive), hstatus.found⟩

section Step

variable (hinv : Server.Inv env s) (hu : Trusted s request untune)
  (htype : request.mReqType = .REQ_RESOURCE_UNTUNING)
  (hhandle : (s.heap tune).mHandle = request.mHandle)
include hinv hu htype hhandle

/-- The worker of the untune message: every check on its way is passed. -/
theorem undoing_of_work_untune (hpriority : SERVER_CLEANUP_TRIGGER_PRIORITY < request.getPriority)
    (hworking : (s.stage untune).working) (hlive : s.stage tune = .live)
    (hheeded : s.stage untune = .clientCheck →
      s.tracker.clients.clientExists (s.heap untune).mClientPID (s.heap untune).mClientTID) :
    Undoing (s.work env untune answer) untune tune := by
  have hne : tune ≠ untune := by
    rintro rfl
    rw [hlive] at hworking
    cases hworking
  have hfits := hinv.fits untune hu.used
  have htype' : (s.heap untune).mReqType = .REQ_RESOURCE_UNTUNING := hu.same.kept.type.trans htype
  rw [htype'] at hfits
  obtain ⟨status, hlookup, -⟩ := entry_of_live hinv hlive
  have hactive : (s.heap untune).mHandle ∈ s.tracker.manager.mActiveRequests := by
    rw [hu.same.kept.handle, ← hhandle]
    exact UnorderedMap.mem_of_lookup hlookup
  obtain ⟨-, -, hframe⟩ := Server.work_frame env s untune answer
  refine Or.inr ⟨(hframe tune hne).1.trans hlive, Or.inl ?_⟩
  unfold Coming
  cases hstage : s.stage untune with
  | unused | queued | held | live | freed | lost =>
    rw [hstage] at hworking
    cases hworking
  | globalRateLimit | createClient | verify | shouldBeAdded | add =>
    rw [hstage] at hfits
    cases hfits
  | clientCheck => simp [Server.work, hstage, htype', hheeded hstage]
  | disable => simp [Server.work, hstage, RequestManager.disableRequestProcessing, hactive]
  | rateLimit => simp [Server.work, hstage, htype', hu.validated]
  | verifyHandle => simp [Server.work, hstage, RequestManager.verifyHandle, hactive]
  | enqueue =>
    have hhigh : ¬ (s.heap untune).getPriority < SERVER_CLEANUP_TRIGGER_PRIORITY := by
      rw [hu.same.links.2]
      omega
    simp [Server.work, hstage, Server.addAndWakeup, hhigh]

/-- The consumer: it looks the request up, removes it from the table and frees it. -/
theorem undoing_of_consume (h : Undoing s untune tune) :
    Undoing (s.consume env answer) untune tune := by
  obtain ⟨-, hstage⟩ := Server.consume_message answer hinv tune
  obtain ⟨-, hstage'⟩ := Server.consume_message answer hinv untune
  rcases h with hfreed | ⟨hlive, hplace⟩
  · rw [hfreed] at hstage
    left
    simpa using hstage
  rcases hstage with hstage | ⟨-, hstage⟩ | ⟨hheld, -⟩
  · -- still live: the message is not touched before it is popped
    have hwaiting : s.stage untune ≠ .held → s.stage untune ≠ .live →
        (s.consume env answer).stage untune = s.stage untune := by
      intro hheld hlive
      rcases hstage' with h | ⟨h | h, -⟩ | ⟨h, -⟩
      · exact h
      · exact absurd h hheld
      · exact absurd h hlive
      · exact absurd h hheld
    refine Or.inr ⟨hstage.trans hlive, ?_⟩
    rcases hplace with h | h | h | h
    · left
      have hnot : s.stage untune ≠ .held ∧ s.stage untune ≠ .live := by
        unfold Coming at h
        grind
      rw [hwaiting hnot.1 hnot.2]
      exact h
    · -- it finds the request, which is completed
      obtain ⟨status, hlookup, hcompleted, hfound⟩ := entry_of_live hinv hlive
      rw [hhandle, ← hu.same.kept.handle] at hlookup
      have hlookup' : s.tracker.manager.mActiveRequests.lookup (s.heap untune).mHandle =
        some (some tune, status) := hlookup
      have htype' : (s.heap untune).mReqType = .REQ_RESOURCE_UNTUNING :=
        hu.same.kept.type.trans htype
      have hnext : s.consume env answer = s.turn (.remove untune tune) := by
        simp [Server.consume, h, RequestManager.getRequestFromMap, hlookup', if_neg hfound, htype',
          hcompleted]
      rw [hnext]
      exact Or.inr (Or.inr (Or.inl rfl))
    · have hnext : (s.consume env answer).consumer = .untrack untune tune := by
        simp only [Server.consume, h, Server.turn]
      exact Or.inr (Or.inr (Or.inr hnext))
    · have hgone : (s.consume env answer).stage tune = .freed := by
        simp only [Server.consume, h]
        exact Server.cleanUpRequest_stage_self
      rw [hstage, hlive] at hgone
      cases hgone
  · exact Or.inl hstage
  · rw [hlive] at hheld
    cases hheld

/-- **An untune message that has passed its worker** undoes the tune message, whatever comes
between. -/
theorem undoing_of_next (henabled : s.Enabled e) (htune : s.stage tune ≠ .unused)
    (hpriority : SERVER_CLEANUP_TRIGGER_PRIORITY < request.getPriority)
    (hheeded : ∀ answer, e = .work untune answer → s.stage untune = .clientCheck →
      (s.heap tune).mHandle ∈ s.active →
        s.tracker.clients.clientExists (s.heap untune).mClientPID (s.heap untune).mClientTID)
    (h : Undoing s untune tune) : Undoing (s.next env e) untune tune := by
  cases e with
  | receive r message isValidated =>
    have hne : ∀ {req}, s.stage req ≠ .unused → req ≠ r := by
      rintro req hused rfl
      exact hused henabled.1
    exact h.congr (Server.goto_stage_of_ne (hne htune)) (Server.goto_stage_of_ne (hne hu.used))
      (Or.inl rfl)
  | work r answer =>
    obtain ⟨hconsumer, -, hframe⟩ := Server.work_frame env s r answer
    have hworking : (s.stage r).working := henabled
    have hne : tune ≠ r := by
      rintro rfl
      rcases h with h | ⟨h, -⟩
      · rw [h] at hworking
        cases hworking
      · rw [h] at hworking
        cases hworking
    by_cases hr : untune = r
    · subst hr
      rcases h with hfreed | ⟨hlive, -⟩
      · exact Or.inl ((hframe tune hne).1.trans hfreed)
      · obtain ⟨status, hlookup, -⟩ := entry_of_live hinv hlive
        exact undoing_of_work_untune hinv hu htype hhandle hpriority hworking hlive
          fun hcheck => hheeded answer rfl hcheck (UnorderedMap.mem_of_lookup hlookup)
    · exact h.congr (hframe tune hne).1 (hframe untune hr).1 (Or.inl hconsumer)
  | pop r =>
    obtain ⟨hidle, hqueued, -⟩ := henabled
    have hne : tune ≠ r := by
      rintro rfl
      rcases h with h | ⟨h, -⟩
      · rw [hqueued] at h
        cases h
      · rw [hqueued] at h
        cases h
    by_cases hr : untune = r
    · subst hr
      have hhigh : (s.heap untune).getPriority ≠ SERVER_CLEANUP_TRIGGER_PRIORITY := by
        rw [hu.same.links.2]
        omega
      have hnot : (s.heap untune).mReqType ≠ .REQ_RESOURCE_TUNING := by
        rw [hu.same.kept.type, htype]
        decide
      have hnext : s.next env (.pop untune) = (s.goto untune .held).turn (.find untune) := by
        rw [Server.next, Server.pop, if_neg hhigh, if_neg hnot]
      rw [hnext]
      rcases h with hfreed | ⟨hlive, -⟩
      · exact Or.inl ((Server.goto_stage_of_ne hne).trans hfreed)
      · exact Or.inr ⟨(Server.goto_stage_of_ne hne).trans hlive, Or.inr (Or.inl rfl)⟩
    · exact h.congr (Server.pop_stage_of_ne hne) (Server.pop_stage_of_ne hr) (Or.inr hidle)
  | consume answer => exact undoing_of_consume hinv hu htype hhandle h
  | timerExpired r target duration =>
    have hne : ∀ {req}, s.stage req ≠ .unused → req ≠ r := by
      rintro req hused rfl
      exact hused henabled.1
    exact h.congr (Server.addAndWakeup_stage_of_ne (hne htune))
      (Server.addAndWakeup_stage_of_ne (hne hu.used)) (Or.inl Server.addAndWakeup_consumer)

end Step

/-! ## Messages at rest -/

/-- A message that no worker has in hand moves from the queue to the consumer and to its end. -/
theorem rest_of_next (hinv : Server.Inv env s) (henabled : s.Enabled e)
    (hused : s.stage req ≠ .unused) (hrest : (s.stage req).working = false) :
    (s.next env e).stage req = s.stage req ∨
      s.stage req = .queued ∧ ((s.next env e).stage req = .held ∨
        (s.next env e).stage req = .lost) ∨
      (s.stage req = .held ∨ s.stage req = .live) ∧ (s.next env e).stage req = .freed ∨
      s.stage req = .held ∧ (s.next env e).stage req = .live := by
  cases e with
  | receive r message isValidated =>
    have hne : req ≠ r := by
      rintro rfl
      exact hused henabled.1
    exact Or.inl (Server.goto_stage_of_ne hne)
  | work r answer =>
    have hworking : (s.stage r).working := henabled
    have hne : req ≠ r := by
      rintro rfl
      rw [hrest] at hworking
      cases hworking
    exact Or.inl ((Server.work_frame env s r answer).2.2 req hne).1
  | pop r =>
    by_cases hr : req = r
    · subst hr
      refine Or.inr (Or.inl ⟨henabled.2.1, ?_⟩)
      rw [Server.next, Server.pop]
      split
      · exact Or.inr Server.goto_stage_self
      · split <;> exact Or.inl Server.goto_stage_self
    · left
      rw [Server.next, Server.pop]
      repeat' split
      all_goals exact Server.goto_stage_of_ne hr
  | consume answer =>
    rcases (Server.consume_message answer hinv req).2 with h | h | h
    · exact Or.inl h
    · exact Or.inr (Or.inr (Or.inl h))
    · exact Or.inr (Or.inr (Or.inr h))
  | timerExpired r target duration =>
    have hne : req ≠ r := by
      rintro rfl
      exact hused henabled.1
    left
    rw [Server.next, Server.addAndWakeup]
    split <;> exact Server.goto_stage_of_ne hne

/-- A message that has left its worker does not come back to it. -/
theorem working_of_next (hinv : Server.Inv env s) (henabled : s.Enabled e)
    (hused : s.stage req ≠ .unused) (hrest : (s.stage req).working = false) :
    ((s.next env e).stage req).working = false := by
  rcases rest_of_next hinv henabled hused hrest with h | ⟨-, h | h⟩ | ⟨-, h⟩ | ⟨-, h⟩
  · rw [h]
    exact hrest
  all_goals
    rw [h]
    rfl

/-- The tune request has come to the table, or to its end. -/
def Settled (s : Server) (tune : ReqPtr) : Prop := s.stage tune = .live ∨ s.stage tune = .freed

/-- What has come to the table stays there or ends. -/
theorem settled_of_next (hinv : Server.Inv env s) (henabled : s.Enabled e) (h : Settled s tune) :
    Settled (s.next env e) tune := by
  have hrest : s.stage tune ≠ .unused ∧ (s.stage tune).working = false ∧
      s.stage tune ≠ .queued ∧ s.stage tune ≠ .held := by
    rcases h with h | h
    all_goals
      rw [h]
      decide
  rcases rest_of_next hinv henabled hrest.1 hrest.2.1 with hsame | ⟨hq, -⟩ | ⟨-, hfreed⟩ | ⟨hh, -⟩
  · rw [Settled, hsame]
    exact h
  · exact absurd hq hrest.2.2.1
  · exact Or.inr hfreed
  · exact absurd hh hrest.2.2.2

/-! ## The two messages of a placement -/

/-- A message of the classifier: trusted, and with a priority that the queue takes. -/
structure Submitted (s : Server) (type : RequestType) (handle : Int) (request : Request)
    (req : ReqPtr) : Prop where
  trusted : Trusted s request req
  type : request.mReqType = type
  handle : request.mHandle = handle
  priority : SERVER_CLEANUP_TRIGGER_PRIORITY < request.getPriority

theorem submitted_of_next {type : RequestType} {handle : Int} (hinv : Server.Inv env s)
    (henabled : s.Enabled e) (h : Submitted s type handle request req) :
    Submitted (s.next env e) type handle request req :=
  ⟨trusted_of_next hinv henabled h.priority h.trusted, h.type, h.handle, h.priority⟩

/-- The tune message of a handle. -/
def Placement (s : Server) (handle : Int) (tune : ReqPtr) : Prop :=
  ∃ request, Submitted s .REQ_RESOURCE_TUNING handle request tune

/-- The placement is over, or an untune message that has passed its worker will end it. -/
def Undone (s : Server) (handle : Int) (tune : ReqPtr) : Prop :=
  s.stage tune = .freed ∨ ∃ untune request,
    Submitted s .REQ_RESOURCE_UNTUNING handle request untune ∧
      (s.stage untune).working = false ∧ Undoing s untune tune

section Placement

variable {handle : Int}

/-- The tune message of a handle carries it. -/
theorem Placement.isTune (h : Placement s handle tune) :
    s.IsTune tune ∧ (s.heap tune).mHandle = handle := by
  obtain ⟨request, hsubmitted⟩ := h
  have hkept := hsubmitted.trusted.same.kept
  exact ⟨⟨hsubmitted.trusted.used, hkept.type.trans hsubmitted.type⟩,
    hkept.handle.trans hsubmitted.handle⟩

theorem placement_of_next (hinv : Server.Inv env s) (henabled : s.Enabled e)
    (h : Placement s handle tune) : Placement (s.next env e) handle tune := by
  obtain ⟨request, hsubmitted⟩ := h
  exact ⟨request, submitted_of_next hinv henabled hsubmitted⟩

/-- A placement that is undone is not done again. -/
theorem undone_of_next (hinv : Server.Inv env s) (henabled : s.Enabled e)
    (hplacement : Placement s handle tune) (h : Undone s handle tune) :
    Undone (s.next env e) handle tune := by
  obtain ⟨htune, hhandle⟩ := hplacement.isTune
  rcases h with hfreed | ⟨untune, request, hsubmitted, hrest, hundoing⟩
  · left
    rcases rest_of_next hinv henabled htune.1 (by rw [hfreed]; rfl) with
      h | ⟨h, -⟩ | ⟨-, h⟩ | ⟨h, -⟩
    · exact h.trans hfreed
    · rw [hfreed] at h
      cases h
    · exact h
    · rw [hfreed] at h
      cases h
  · refine Or.inr ⟨untune, request, submitted_of_next hinv henabled hsubmitted,
      working_of_next hinv henabled hsubmitted.trusted.used hrest, ?_⟩
    refine undoing_of_next hinv hsubmitted.trusted hsubmitted.type
      (hhandle.trans hsubmitted.handle.symm) henabled htune.1 hsubmitted.priority ?_ hundoing
    rintro answer rfl hcheck
    rw [hcheck] at hrest
    cases hrest

/-- Once the queue is drained, a placement that is undone is not active. -/
theorem inactive_of_undone (hinv : Server.Inv env s) (hdrained : Drained s)
    (hplacement : Placement s handle tune) (h : Undone s handle tune) : handle ∉ s.active := by
  obtain ⟨htune, hhandle⟩ := hplacement.isTune
  have hfreed : s.stage tune = .freed := by
    rcases h with hfreed | ⟨untune, request, hsubmitted, hrest, hfreed | ⟨-, hplace⟩⟩
    · exact hfreed
    · exact hfreed
    · have hqueued := hdrained.2 untune
        (not_not.mp ((not_congr (hinv.received untune)).mp hsubmitted.trusted.used))
      rw [hdrained.1] at hplace
      rcases hplace with h | h | h | h
      · rcases h with h | h | h | h | h | h
        all_goals first
          | exact absurd h hqueued
          | (rw [h] at hrest; cases hrest)
      all_goals cases h
  intro hmem
  obtain ⟨info, hinfo⟩ := Option.isSome_iff_exists.mp (AList.lookup_isSome.mpr hmem)
  obtain ⟨req, -, htune', htracked, hhandle'⟩ := hinv.origin _ _ hinfo
  obtain rfl := hinv.unique req tune htune' htune (hhandle'.trans hhandle.symm)
  rw [hfreed] at htracked
  cases htracked

end Placement

end Server

/-! ## The requests are what they should be -/

/-- The two priorities of the classifier are read back as they were set. -/
theorem getPriority_newRequest (type : RequestType) (handle : Int) (app : AppOpen) :
    (newRequest type handle SYSTEM_HIGH app).getPriority = SYSTEM_HIGH ∧
      (newRequest type handle SYSTEM_LOW app).getPriority = SYSTEM_LOW := by
  constructor
  · show ((((0 : BitVec 32) ||| (BitVec.ofInt 8 SYSTEM_HIGH).signExtend 32) &&& 0xff).setWidth
      8).toInt = SYSTEM_HIGH
    decide
  · show ((((0 : BitVec 32) ||| (BitVec.ofInt 8 SYSTEM_LOW).signExtend 32) &&& 0xff).setWidth
      8).toInt = SYSTEM_LOW
    decide

/-- Adding resources leaves the message alone; every node is a block of the request's own. -/
theorem addMoves_spec {answer : PlacementAnswer} {req : ReqPtr} {n : Nat}
    {rest : List (Int × Int)} {request request' : Request}
    (h : addMoves answer req n rest request = some request')
    (howned : ∀ node ∈ request.nodes, node.addr.1 = req) :
    request'.toMessage = request.toMessage ∧ ∀ node ∈ request'.nodes, node.addr.1 = req := by
  induction rest generalizing n request with
  | nil =>
    obtain rfl := Option.some.inj h
    exact ⟨rfl, howned⟩
  | cons move rest ih =>
    obtain ⟨cGroupdId, pid⟩ := move
    unfold addMoves at h
    split at h
    · obtain ⟨hmessage, hnodes⟩ := ih h (by
        intro node hnode
        unfold Request.addResource at hnode
        split at hnode
        · split at hnode
          · obtain rfl : node = _ := by simpa [Request.nodes, DLManager.insert] using hnode
            rfl
          · exact howned node hnode
        · rename_i nodes hlist
          rcases List.mem_append.mp (show node ∈ nodes ++ [_] from hnode) with hmem | hmem
          · exact howned node (by rw [Request.nodes, hlist]; exact hmem)
          · obtain rfl := List.mem_singleton.mp hmem
            rfl)
      refine ⟨hmessage.trans ?_, hnodes⟩
      unfold Request.addResource
      split
      · split <;> rfl
      · rfl
    · cases h

/-! ## The invariant -/

variable {answer : PlacementAnswer} {app : AppOpen} {e : Server.Event}

/-- What is known of the request whose handle the classifier has kept, by the position of its
thread. -/
def CurrentAt (s : Server) (handle : Int) (tune : ReqPtr) : ClassifierPosition → Prop
  | .idle => (s.stage tune).working = false
  | .opened _ => Settled s tune
  | .untuning untune app =>
    Submitted s .REQ_RESOURCE_UNTUNING handle (untuneRequest handle app) untune ∧
      Undoing s untune tune
  | .issuing _ => False
  | .tuning request => tune = request

/-- Every placement but the current one is undone. -/
structure Placed (env : Env) (c : ContextualClassifier) : Prop where
  server : Server.Inv env c.server
  positive : ∀ handle ∈ c.issued, 0 < handle
  undone : ∀ handle ∈ c.issued, handle ≠ c.mRestuneHandle →
    ∃ tune, Placement c.server handle tune ∧ Undone c.server handle tune
  current : c.mRestuneHandle ∈ c.issued → ∃ tune, Placement c.server c.mRestuneHandle tune ∧
    CurrentAt c.server c.mRestuneHandle tune c.position

theorem placed_init (env : Env) (heap : Heap) : Placed env (init heap) where
  server := Server.inv_init heap
  positive _ h := by cases h
  undone _ h := by cases h
  current h := by cases h

/-- The server takes a step that is none of the classifier's own. -/
theorem undone_of_server (hplaced : Placed env c) (henabled : c.server.Enabled e) :
    ∀ handle ∈ c.issued, handle ≠ c.mRestuneHandle →
      ∃ tune, Placement (c.server.next env e) handle tune ∧
        Undone (c.server.next env e) handle tune := by
  intro handle hissued hne
  obtain ⟨tune, hplacement, hundone⟩ := hplaced.undone handle hissued hne
  exact ⟨tune, placement_of_next hplaced.server henabled hplacement,
    undone_of_next hplaced.server henabled hplacement hundone⟩

/-- An event of the server keeps the account of the placements. -/
theorem placed_of_server (hplaced : Placed env c) (henabled : c.server.Enabled e)
    (hheeded : Heeded c (.server e)) : Placed env (c.next env (.server e)) where
  server := Server.inv_of_effect hplaced.server (Server.effect_of_enabled hplaced.server henabled)
  positive := hplaced.positive
  undone := undone_of_server hplaced henabled
  current := by
    intro hissued
    obtain ⟨tune, hplacement, hcurrent⟩ := hplaced.current hissued
    obtain ⟨htune, hhandle⟩ := hplacement.isTune
    refine ⟨tune, placement_of_next hplaced.server henabled hplacement, ?_⟩
    show CurrentAt (c.server.next env e) c.mRestuneHandle tune c.position
    cases hposition : c.position with
    | idle =>
      rw [hposition] at hcurrent
      exact working_of_next hplaced.server henabled htune.1 hcurrent
    | opened app =>
      rw [hposition] at hcurrent
      exact settled_of_next hplaced.server henabled hcurrent
    | untuning untune app =>
      rw [hposition] at hcurrent
      obtain ⟨hsubmitted, hundoing⟩ := hcurrent
      refine ⟨submitted_of_next hplaced.server henabled hsubmitted, ?_⟩
      refine undoing_of_next hplaced.server hsubmitted.trusted hsubmitted.type hhandle henabled
        htune.1 hsubmitted.priority ?_ hundoing
      rintro answer rfl hcheck hactive
      -- the message says who opened the application
      obtain ⟨duration, timer, hheap⟩ := hsubmitted.trusted.same
      rw [hheap]
      simp only [Heeded, hposition] at hheeded
      exact hheeded trivial hcheck (hhandle ▸ hactive)
    | issuing app =>
      rw [hposition] at hcurrent
      exact hcurrent.elim
    | tuning request =>
      rw [hposition] at hcurrent
      exact hcurrent

/-- An application is opened: the last tune request has come to the table or to its end. -/
theorem placed_of_appOpen (hplaced : Placed env c) (hidle : c.position matches .idle)
    (hdrained : Drained c.server) : Placed env (c.next env (.appOpen app)) where
  server := hplaced.server
  positive := hplaced.positive
  undone := hplaced.undone
  current := by
    intro hissued
    obtain ⟨tune, hplacement, hcurrent⟩ := hplaced.current hissued
    refine ⟨tune, hplacement, ?_⟩
    have hrest : (c.server.stage tune).working = false := by
      cases hposition : c.position with
      | idle =>
        rw [hposition] at hcurrent
        exact hcurrent
      | opened | untuning | issuing | tuning =>
        rw [hposition] at hidle
        cases hidle
    obtain ⟨request, hsubmitted⟩ := hplacement
    have hused := hsubmitted.trusted.used
    have hqueued := hdrained.2 tune (not_not.mp ((not_congr (hplaced.server.received tune)).mp hused))
    have hheld : c.server.stage tune ≠ .held := by
      intro h
      have hitem := (hplaced.server.item tune).mp h
      rw [hdrained.1] at hitem
      cases hitem
    show Settled c.server tune
    unfold Settled
    cases hstage : c.server.stage tune with
    | live => exact Or.inl rfl
    | freed => exact Or.inr rfl
    | unused => exact absurd hstage hused
    | queued => exact absurd hstage hqueued
    | held => exact absurd hstage hheld
    | lost => exact absurd hstage hsubmitted.trusted.kept
    | globalRateLimit | clientCheck | createClient | disable | rateLimit | verifyHandle | verify
      | shouldBeAdded | add | enqueue =>
      rw [hstage] at hrest
      cases hrest

/-- What a submitted message is to the server. -/
theorem submitted_receive (env : Env) (s : Server) {request : Request} (req : ReqPtr)
    (hpriority : SERVER_CLEANUP_TRIGGER_PRIORITY < request.getPriority) :
    Submitted (s.next env (.receive req request true)) request.mReqType request.mHandle request
      req := by
  refine ⟨⟨?_, ?_, ?_, ?_⟩, rfl, rfl, hpriority⟩
  · simp only [Server.next, Server.goto_stage_self]
    split <;> decide
  · exact Function.update_self _ _ _
  · simp only [Server.next, Server.arrive, Server.goto, Function.update_self]
    exact ⟨_, _, rfl⟩
  · simp only [Server.next, Server.goto_stage_self]
    split <;> decide

/-- The end of an event after which nothing is kept: what was kept before is over. -/
theorem placed_of_abandon (hplaced : Placed env c)
    (hcurrent : c.mRestuneHandle ∈ c.issued → ∃ tune,
      Placement c.server c.mRestuneHandle tune ∧ Undone c.server c.mRestuneHandle tune)
    {position : ClassifierPosition} :
    Placed env { c with mRestuneHandle := -1, position := position } where
  server := hplaced.server
  positive := hplaced.positive
  undone := by
    intro handle hissued _
    by_cases heq : handle = c.mRestuneHandle
    · subst heq
      exact hcurrent hissued
    · exact hplaced.undone handle hissued heq
  current := by
    intro hissued
    have hpositive := hplaced.positive _ hissued
    simp at hpositive

/-- The number `-1` is no handle that was issued. -/
theorem Placed.notMem_issued (hplaced : Placed env c) (h : c.mRestuneHandle = -1) :
    c.mRestuneHandle ∉ c.issued := by
  intro hissued
  have hpositive := hplaced.positive _ hissued
  omega

/-- The first piece: the untune request of the kept handle is submitted. -/
theorem placed_of_opened (hplaced : Placed env c) (hposition : c.position = .opened app)
    (henabled : c.CallEnabled answer) (hheeded : Heeded c (.call answer)) :
    Placed env (c.call env answer) := by
  simp only [CallEnabled, hposition] at henabled
  simp only [Heeded, hposition] at hheeded
  by_cases hnone : c.mRestuneHandle = -1
  · have hcall : c.call env answer = { c with position := .issuing app } := by
      simp only [call, hposition, if_pos hnone]
    rw [hcall]
    exact ⟨hplaced.server, hplaced.positive, hplaced.undone,
      fun hissued => absurd hissued (hplaced.notMem_issued hnone)⟩
  cases hblock : answer.block with
  | none =>
    have hcall : c.call env answer = c.abandon := by
      simp only [call, hposition, if_neg hnone, hblock]
    rw [hcall]
    refine placed_of_abandon hplaced fun hissued => ?_
    obtain ⟨tune, hplacement, hsettled⟩ := hplaced.current hissued
    refine ⟨tune, hplacement, ?_⟩
    rw [hposition] at hsettled
    rcases hsettled with hlive | hfreed
    · -- a live request would be active
      obtain ⟨status, hlookup, -⟩ := entry_of_live hplaced.server hlive
      rw [hplacement.isTune.2] at hlookup
      exact absurd (UnorderedMap.mem_of_lookup hlookup) (hheeded hblock)
    · exact Or.inl hfreed
  | some req =>
    have hcall : c.call env answer =
        { c with
          server := c.server.next env (.receive req (untuneRequest c.mRestuneHandle app) true)
          position := .untuning req app } := by
      simp only [call, hposition, if_neg hnone, hblock]
    have hfresh := henabled req hblock
    have hreceive : c.server.Enabled (.receive req (untuneRequest c.mRestuneHandle app) true) :=
      ⟨hfresh, Or.inr (Or.inr rfl), fun node hnode => (by cases hnode), fun h => (by cases h)⟩
    rw [hcall]
    refine ⟨Server.inv_of_effect hplaced.server (Server.effect_of_enabled hplaced.server hreceive),
      hplaced.positive, undone_of_server hplaced hreceive, fun hissued => ?_⟩
    obtain ⟨tune, hplacement, hsettled⟩ := hplaced.current hissued
    rw [hposition] at hsettled
    refine ⟨tune, placement_of_next hplaced.server hreceive hplacement, ?_, ?_⟩
    · refine submitted_receive env c.server req ?_
      rw [untuneRequest, (getPriority_newRequest _ _ _).1]
      decide
    · rcases settled_of_next hplaced.server hreceive hsettled with hlive | hfreed
      · refine Or.inr ⟨hlive, Or.inl (Or.inl ?_)⟩
        exact Server.goto_stage_self
      · exact Or.inl hfreed

/-- The last piece: the tune request of the new application is submitted. -/
theorem placed_of_issuing (hplaced : Placed env c) (hposition : c.position = .issuing app)
    (henabled : c.CallEnabled answer) : Placed env (c.call env answer) := by
  simp only [CallEnabled, hposition] at henabled
  obtain ⟨hblocks, hpositive, hnew⟩ := henabled
  have hnotissued : c.mRestuneHandle ∉ c.issued := by
    intro hissued
    obtain ⟨tune, -, hcurrent⟩ := hplaced.current hissued
    rw [hposition] at hcurrent
    exact hcurrent
  have habandon : Placed env c.abandon :=
    placed_of_abandon hplaced fun hissued => absurd hissued hnotissued
  cases hblock : answer.block with
  | none =>
    have hcall : c.call env answer = c.abandon := by simp only [call, hposition, hblock]
    rw [hcall]
    exact habandon
  | some req =>
    cases hrequest : tuneRequest answer req app with
    | none =>
      have hcall : c.call env answer = c.abandon := by simp only [call, hposition, hblock, hrequest]
      rw [hcall]
      exact habandon
    | some request =>
      by_cases hcount : request.getResourcesCount > 0
      · have hcall : c.call env answer =
            { server := c.server.next env (.receive req request true)
              mRestuneHandle := answer.handle
              position := .tuning req
              issued := answer.handle :: c.issued } := by
          simp only [call, hposition, hblock, hrequest, if_pos hcount]
        obtain ⟨hmessage, howned⟩ := addMoves_spec hrequest fun node hnode => (by cases hnode)
        have htype : request.mReqType = .REQ_RESOURCE_TUNING := by
          rw [hmessage]
          rfl
        have hhandle : request.mHandle = answer.handle := by
          rw [hmessage]
          rfl
        have hpriority : SERVER_CLEANUP_TRIGGER_PRIORITY < request.getPriority := by
          rw [Request.getPriority, hmessage, ← Request.getPriority, (getPriority_newRequest _ _ _).2]
          decide
        have hreceive : c.server.Enabled (.receive req request true) :=
          ⟨hblocks req hblock, Or.inl htype, howned, fun _ => by rw [hhandle]; exact hnew⟩
        rw [hcall]
        refine ⟨Server.inv_of_effect hplaced.server
          (Server.effect_of_enabled hplaced.server hreceive), ?_, ?_, ?_⟩
        · intro handle hissued
          rcases List.mem_cons.mp hissued with rfl | hissued
          · exact hpositive
          · exact hplaced.positive handle hissued
        · intro handle hissued hne
          rcases List.mem_cons.mp hissued with rfl | hissued
          · exact absurd rfl hne
          · refine undone_of_server hplaced hreceive handle hissued ?_
            rintro rfl
            exact hnotissued hissued
        · intro _
          refine ⟨req, ⟨request, ?_⟩, rfl⟩
          have hsubmitted := submitted_receive env c.server req hpriority
          rw [htype, hhandle] at hsubmitted
          exact hsubmitted
      · have hcall : c.call env answer = c.abandon := by
          simp only [call, hposition, hblock, hrequest, if_neg hcount]
        rw [hcall]
        exact habandon

/-- **A call of the classifier** undoes the last placement before it makes the next one. -/
theorem placed_of_call (hplaced : Placed env c) (henabled : c.CallEnabled answer)
    (hheeded : Heeded c (.call answer)) : Placed env (c.call env answer) := by
  cases hposition : c.position with
  | idle =>
    simp only [CallEnabled, hposition] at henabled
  | opened app => exact placed_of_opened hplaced hposition henabled hheeded
  | untuning untune app =>
    simp only [CallEnabled, hposition] at henabled
    have hcall : c.call env answer = { c with mRestuneHandle := -1, position := .issuing app } := by
      simp only [call, hposition]
    rw [hcall]
    refine placed_of_abandon hplaced fun hissued => ?_
    obtain ⟨tune, hplacement, hcurrent⟩ := hplaced.current hissued
    rw [hposition] at hcurrent
    exact ⟨tune, hplacement, Or.inr ⟨untune, _, hcurrent.1, henabled, hcurrent.2⟩⟩
  | issuing app => exact placed_of_issuing hplaced hposition henabled
  | tuning request =>
    simp only [CallEnabled, hposition] at henabled
    have hcall : c.call env answer = { c with position := .idle } := by
      simp only [call, hposition]
    rw [hcall]
    refine ⟨hplaced.server, hplaced.positive, hplaced.undone, fun hissued => ?_⟩
    obtain ⟨tune, hplacement, hcurrent⟩ := hplaced.current hissued
    rw [hposition] at hcurrent
    obtain rfl : tune = request := hcurrent
    exact ⟨tune, hplacement, henabled⟩

/-- **One placement at a time**: in every run in which the untune requests are heeded, when the
classifier is done with an application and the queue is drained, none of its requests is active but
the one whose handle it has kept. -/
theorem onePlacement_of_run {heap : Heap} {events : List Event}
    (hrun : (machine env).Run (init heap) events)
    (hheeded : (machine env).Steps Heeded (init heap) events)
    (hdrained : Drained ((machine env).exec (init heap) events).server) :
    OnePlacement ((machine env).exec (init heap) events) := by
  have hplaced : Placed env ((machine env).exec (init heap) events) := by
    refine (hrun.and hheeded).invariant (placed_init env heap) ?_
    rintro c e hplaced ⟨henabled, hheeded⟩
    cases e with
    | appOpen app => exact placed_of_appOpen hplaced henabled.1 henabled.2
    | call answer => exact placed_of_call hplaced henabled hheeded
    | server e => exact placed_of_server hplaced henabled hheeded
  intro handle hissued hactive
  by_contra hne
  obtain ⟨tune, hplacement, hundone⟩ := hplaced.undone handle hissued hne
  exact inactive_of_undone hplaced.server hdrained hplacement hundone hactive

end ContextualClassifier

namespace Sample

open ContextualClassifier

/-- Every allocation succeeds. -/
def placementAnswer (req : ReqPtr) (handle : Int) : PlacementAnswer :=
  ⟨some req, handle, fun _ => true, fun _ => true⟩

/-- The server makes a number of steps. -/
def steps (e : Server.Event) (n : Nat) : List ContextualClassifier.Event :=
  List.replicate n (.server e)

/-- The first application: there is nothing to untune. -/
def firstApp : List ContextualClassifier.Event :=
  [.appOpen ⟨1, 1, 1, []⟩, .call (placementAnswer 0 0), .call (placementAnswer 1 1)] ++
    steps (.work 1 answer) 8 ++ [.call (placementAnswer 0 0), .server (.pop 1)] ++
    steps (.consume answer) 3

/-- Another application, whose untune message is done with after some calls. -/
def secondApp (pid : Int) (untune tune : List ContextualClassifier.Event) :
    List ContextualClassifier.Event :=
  [.appOpen ⟨pid, pid, 2, []⟩, .call (placementAnswer 2 0)] ++ untune ++
    [.call (placementAnswer 0 0), .call (placementAnswer 3 2)] ++ tune ++ [.call (placementAnswer 0 0)]

/-- The client of the second application is known: its untune message reaches the consumer. -/
def knownApp : List ContextualClassifier.Event :=
  secondApp 1 (steps (.work 2 answer) 5) (steps (.work 3 answer) 7) ++ [.server (.pop 2)] ++
    steps (.consume answer) 3 ++ [.server (.pop 3)] ++ steps (.consume answer) 3

/-- The client of the second application is not known: its untune message is dropped. -/
def unknownApp : List ContextualClassifier.Event :=
  secondApp 2 (steps (.work 2 answer) 1) (steps (.work 3 answer) 8) ++ [.server (.pop 3)] ++
    steps (.consume answer) 3

theorem onePlacement_sample :
    OnePlacement ((machine env).exec (init fun _ => message .REQ_PROP_GET 0 0 0)
      (firstApp ++ knownApp)) :=
  onePlacement_of_run (by decide +kernel) (by decide +kernel) (by decide +kernel)

/-- Two placements are active after an application of an unknown client was opened. -/
theorem unknown_app_keeps_placement :
    (machine env).Run (init fun _ => message .REQ_PROP_GET 0 0 0) (firstApp ++ unknownApp) ∧
      Drained ((machine env).exec (init fun _ => message .REQ_PROP_GET 0 0 0)
        (firstApp ++ unknownApp)).server ∧
      ¬ OnePlacement ((machine env).exec (init fun _ => message .REQ_PROP_GET 0 0 0)
        (firstApp ++ unknownApp)) := by
  refine ⟨by decide +kernel, by decide +kernel, ?_⟩
  intro h
  have hfirst := h 1 (by decide +kernel) (by decide +kernel)
  revert hfirst
  decide +kernel

end Sample

end ResourceTuner
