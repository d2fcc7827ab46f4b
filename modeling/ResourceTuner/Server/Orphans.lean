import ResourceTuner.Server.DeadClients

/-!
# No orphaned request

In a run whose steps lose no request every active request stays accounted for (`Accounted`): its thread
can be found, or it will be untuned.  The calls of the server are taken first, those that keep what is
tracked (`Keeps`) at once and the two that do not one by one; then the rounds of the pulse monitor and of
the collector.

* **`Leaving.next`** — an untune message that is on its way arrives;
* **`Sane`** — no untune message for an active request is taken for the clean-up trigger;
* **`accounted_of_next`** — one event;
* **`noOrphan_along_run`** — a run.
-/

namespace ResourceTuner

/-! ## Calls that lose no request -/

namespace Server

variable {env : Env} {s : Server} {e : Event} {req r : ReqPtr} {handle : Int} {answer : Answer}
  {t t' : Tracker}

/-- The call tracks no new request, and what stays tracked stays in the set of its thread. -/
structure Keeps (t t' : Tracker) : Prop where
  lookup : ∀ handle info', t'.manager.mActiveRequests.lookup handle = some info' →
    ∃ info, t.manager.mActiveRequests.lookup handle = some info ∧ info.1 = info'.1
  holds : ∀ handle info' tid, t'.manager.mActiveRequests.lookup handle = some info' →
    t.clients.Holds tid handle → t'.clients.Holds tid handle
  lists : ∀ pid tid, t.clients.Lists pid tid → t'.clients.Lists pid tid

/-- A quiet call keeps, as long as it leaves the sets of the threads and the lists that the clients
have. -/
theorem Keeps.of_quiet (quiet : Quiet t t')
    (hhandles : ∀ tid, t'.clients.handles tid = t.clients.handles tid)
    (hrepo : t'.clients.mClientRepo = t.clients.mClientRepo) : Keeps t t' where
  lookup handle info' h := quiet.origin h
  holds handle info' tid _ h := by
    obtain ⟨set, hset, hmem⟩ := h
    exact ⟨set, (hhandles tid).trans hset, hmem⟩
  lists pid tid h := by
    unfold ClientDataManager.Lists at h ⊢
    rwa [hrepo]

theorem Keeps.refl (t : Tracker) : Keeps t t := .of_quiet (.refl t) (fun _ => rfl) rfl

/-- The duplicate check reads the set of a thread. -/
theorem clients_shouldRequestBeAdded {maxRequests : Nat} {heap : Heap} {request : Request} :
    (RequestManager.shouldRequestBeAdded maxRequests heap t request).2.clients = t.clients ∨
      (RequestManager.shouldRequestBeAdded maxRequests heap t request).2.clients =
        (t.clients.getRequestsByClientID request.mClientTID).2 := by
  unfold RequestManager.shouldRequestBeAdded
  split
  · exact Or.inl rfl
  split
  · exact Or.inl rfl
  simp only [RequestManager.requestMatch]
  split
  · exact Or.inr rfl
  split <;> exact Or.inr rfl

/-- The test for duplicates tracks no request. -/
theorem keeps_shouldRequestBeAdded {maxRequests : Nat} {heap : Heap} {request : Request}
    (hactive : ∀ tid handle, t.clients.Holds tid handle → handle ∈ t.manager.mActiveRequests) :
    Keeps t (RequestManager.shouldRequestBeAdded maxRequests heap t request).2 := by
  have hquiet : Quiet t (RequestManager.shouldRequestBeAdded maxRequests heap t request).2 :=
    quiet_shouldRequestBeAdded hactive
  have hclients := @clients_shouldRequestBeAdded t maxRequests heap request
  refine .of_quiet hquiet (fun tid => ?_) ?_
  · rcases hclients with h | h
    · rw [h]
    · rw [h, ClientDataManager.handles_getRequestsByClientID]
  · rcases hclients with h | h <;> rw [h]
    rfl

/-- To cancel a request sets a flag. -/
theorem keeps_disableRequestProcessing (handle : Int) :
    Keeps t (RequestManager.disableRequestProcessing t handle).2 := by
  have hclients : (RequestManager.disableRequestProcessing t handle).2.clients = t.clients := by
    unfold RequestManager.disableRequestProcessing
    split <;> rfl
  exact .of_quiet (quiet_disableRequestProcessing handle) (fun tid => by rw [hclients])
    (by rw [hclients])

/-- To complete it sets another. -/
theorem keeps_markRequestAsComplete (handle : Int) :
    Keeps t (RequestManager.markRequestAsComplete t handle) where
  lookup handle' info' h := by
    simp only [RequestManager.markRequestAsComplete, RequestManager.lookup_addStatus] at h
    split at h
    · rename_i heq
      subst heq
      obtain ⟨info, hinfo, rfl⟩ := Option.map_eq_some_iff.mp h
      exact ⟨info, hinfo, rfl⟩
    · exact ⟨info', h, rfl⟩
  holds _ _ _ _ h := h
  lists _ _ h := h

/-- A removed request leaves both stores at once. -/
theorem keeps_removeRequest (heap : Heap) (request : ReqPtr) :
    Keeps t (RequestManager.removeRequest heap t request) where
  lookup handle info' h := by
    rw [RequestManager.lookup_removeRequest] at h
    split at h
    · cases h
    · exact ⟨info', h, rfl⟩
  holds handle info' tid h hholds := by
    rw [RequestManager.lookup_removeRequest] at h
    split at h
    · cases h
    · rename_i hne
      exact (holds_deleteRequestByClientId_of_ne hne).mpr hholds
  lists pid tid h := by
    unfold ClientDataManager.Lists at h ⊢
    simp only [RequestManager.removeRequest]
    rwa [ClientDataManager.mClientRepo_deleteRequestByClientId]

/-- Of the calls on a message only those that create a client and add a request do more. -/
theorem keeps_of_work (hinv : Inv env s) (hcreate : s.stage req ≠ .createClient)
    (hadd : s.stage req ≠ .add) : Keeps s.tracker (s.work env req answer).tracker := by
  cases hstage : s.stage req with
  | createClient => exact absurd hstage hcreate
  | add => exact absurd hstage hadd
  | unused | queued | held | live | freed | lost =>
    simp only [work, hstage]
    exact .refl _
  | globalRateLimit | rateLimit | verifyHandle =>
    simp only [work, hstage, proceed_tracker]
    exact .refl _
  | clientCheck | verify | enqueue =>
    have htracker : (s.work env req answer).tracker = s.tracker := by
      simp only [work, hstage, addAndWakeup]
      repeat' split
      all_goals simp
    rw [htracker]
    exact .refl _
  | disable =>
    simp only [work, hstage, proceed_tracker]
    exact keeps_disableRequestProcessing _
  | shouldBeAdded =>
    simp only [work, hstage, proceed_tracker]
    refine keeps_shouldRequestBeAdded fun tid handle h => ?_
    obtain ⟨req', status, hlookup, -⟩ := hinv.handles tid handle h
    exact UnorderedMap.mem_of_lookup hlookup

/-- The consumer adds nothing. -/
theorem keeps_of_consume : Keeps s.tracker (s.consume env answer).tracker := by
  cases hconsumer : s.consumer with
  | idle | crashed =>
    simp only [consume, hconsumer]
    exact .refl _
  | mark req =>
    simp only [consume, hconsumer]
    exact keeps_markRequestAsComplete _
  | discard req =>
    simp only [consume, hconsumer]
    exact keeps_removeRequest _ _
  | untrack req target =>
    simp only [consume, hconsumer]
    exact keeps_removeRequest _ _
  | status | insert | find | update | remove =>
    have htracker : (s.consume env answer).tracker = s.tracker := by
      simp only [consume, hconsumer]
      repeat' split
      all_goals rfl
    rw [htracker]
    exact .refl _

/-- Only two calls of a worker can track a request or take a set away. -/
theorem keeps_of_next (hinv : Inv env s)
    (hwork : ∀ req answer, e = .work req answer → s.stage req ≠ .createClient ∧ s.stage req ≠ .add) :
    Keeps s.tracker (next env s e).tracker := by
  cases e with
  | receive => exact .refl _
  | work req answer => exact keeps_of_work hinv (hwork req answer rfl).1 (hwork req answer rfl).2
  | pop req =>
    rw [next, pop_tracker]
    exact .refl _
  | consume answer => exact keeps_of_consume
  | timerExpired req target duration =>
    rw [next, addAndWakeup_tracker]
    exact .refl _

end Server

/-! ## Untune messages on their way -/

namespace Supervised

section Leaving

open Server

variable {env : Env} {s s' : Server} {e : Server.Event} {req r untune : ReqPtr} {handle : Int}
  {answer : Answer}

/-- A message that is only retimed still untunes its handle. -/
theorem Untunes.retimed {message message' : Request} (h : Untunes message handle)
    (hretimed : Retimed message message') : Untunes message' handle where
  type := hretimed.kept.type.trans h.type
  handle := hretimed.kept.handle.trans h.handle
  priority := by
    rw [hretimed.links.2]
    exact h.priority

theorem item_of_untuning {consumer : Consumer} (h : consumer.untuning = some untune) :
    consumer.item = some untune := by
  cases consumer with
  | find | remove | untrack => exact h
  | idle | status | mark | insert | discard | update | crashed => cases h

/-- An event that is not about a queued message or one that the consumer has taken. -/
theorem Leaving.frame (hinv : Inv env s) (h : Leaving s handle req)
    (hframe : ∀ r, s.stage r = .queued ∨ s.stage r = .held ∨ s.stage r = .live →
      s'.stage r = s.stage r ∧ s'.heap r = s.heap r)
    (hreceived : ∀ r ∈ s.received, r ∈ s'.received) (hconsumer : s'.consumer = s.consumer) :
    Leaving s' handle req := by
  obtain ⟨hstage, untune, hmem, huntunes, hplace⟩ := h
  have huntune : s.stage untune = .queued ∨ s.stage untune = .held ∨ s.stage untune = .live := by
    rcases hplace with h | h
    · exact Or.inl h
    · exact Or.inr (Or.inl (hinv.held (item_of_untuning h)))
  refine ⟨?_, untune, hreceived untune hmem, by rwa [(hframe untune huntune).2], ?_⟩
  · rw [(hframe req (Or.inr hstage)).1]
    exact hstage
  · rw [(hframe untune huntune).1, hconsumer]
    exact hplace

/-- A message that arrives at the queue. -/
theorem Leaving.arrive (hinv : Inv env s) (hfresh : s.stage r = .unused) {request : Request}
    {isValidated : Bool} (h : Leaving s handle req) :
    Leaving ((s.arrive r request isValidated).addAndWakeup r) handle req := by
  refine h.frame hinv (fun other hother => ?_) (fun other hother => ?_) addAndWakeup_consumer
  · have hne : other ≠ r := by
      rintro rfl
      rw [hfresh] at hother
      rcases hother with h | h | h <;> cases h
    rw [addAndWakeup_stage_of_ne hne, addAndWakeup_heap]
    exact ⟨rfl, Function.update_of_ne hne _ _⟩
  · rw [addAndWakeup_received]
    exact List.mem_cons_of_mem _ hother

/-- The consumer takes the untune message up, or another one before it. -/
theorem Leaving.pop (hidle : s.consumer = .idle) (hqueued : s.stage r = .queued)
    (h : Leaving s handle req) : Leaving (s.pop r) handle req := by
  obtain ⟨hstage, untune, hmem, huntunes, hplace⟩ := h
  have hne : req ≠ r := by
    rintro rfl
    rw [hqueued] at hstage
    rcases hstage with h | h <;> cases h
  refine ⟨?_, untune, by rwa [pop_received], by rwa [pop_heap], ?_⟩
  · rw [pop_stage_of_ne hne]
    exact hstage
  by_cases heq : untune = r
  · subst heq
    have htype : (s.heap untune).mReqType ≠ .REQ_RESOURCE_TUNING := by
      rw [huntunes.type]
      decide
    right
    simp only [Server.pop, if_neg huntunes.priority, if_neg htype]
    rfl
  · left
    rw [pop_stage_of_ne heq]
    rw [hidle] at hplace
    rcases hplace with h | h
    · exact h
    · cases h

/-- A request that was freed is not active. -/
theorem inactive_of_freed (hinv : Inv env s) (htune : s.IsTune req)
    (hhandle : (s.heap req).mHandle = handle) (hfreed : s.stage req = .freed) :
    s.active.lookup handle = none := by
  cases hlookup : s.active.lookup handle with
  | none => rfl
  | some info =>
    obtain ⟨req', -, htune', htracked, hhandle'⟩ := hinv.origin handle info hlookup
    obtain rfl := hinv.unique req' req htune' htune (hhandle'.trans hhandle.symm)
    rw [hfreed] at htracked
    cases htracked

/-- The consumer finds a live request of an untune message and will remove it. -/
theorem consume_of_find (hinv : Inv env s) (htune : s.IsTune req) (hlive : s.stage req = .live)
    (huntunes : Untunes (s.heap untune) (s.heap req).mHandle) (hconsumer : s.consumer = .find untune) :
    (s.consume env answer).consumer = .remove untune req := by
  obtain ⟨status, hlookup, hstatus⟩ := hinv.entry req htune (by rw [hlive]; rfl)
  have hfound : s.tracker.manager.mActiveRequests.lookup (s.heap untune).mHandle =
      some (some req, status) := by
    rw [huntunes.handle]
    exact hlookup
  simp only [consume, hconsumer, RequestManager.getRequestFromMap, hfound, Option.getD_some,
    if_neg hstatus.found, huntunes.type, hstatus.completed (Or.inl hlive), Bool.not_true,
    Bool.false_eq_true, if_false]
  rfl

/-- A request that is leaving is still leaving after a call of the consumer, until it is freed. -/
theorem Leaving.consume (hinv : Inv env s) (htune : s.IsTune req)
    (hhandle : (s.heap req).mHandle = handle) (h : Leaving s handle req)
    (hkept : (s.consume env answer).stage req ≠ .freed) :
    Leaving (s.consume env answer) handle req := by
  obtain ⟨hstage, untune, hmem, huntunes, hplace⟩ := h
  obtain ⟨-, hreq⟩ := consume_message answer hinv req
  obtain ⟨hretimed, huntune⟩ := consume_message answer hinv untune
  have hstage' : (s.consume env answer).stage req = .held ∨ (s.consume env answer).stage req = .live := by
    rcases hreq with heq | ⟨-, hfreed⟩ | ⟨-, hlive⟩
    · rw [heq]
      exact hstage
    · exact absurd hfreed hkept
    · exact Or.inr hlive
  refine ⟨hstage', untune, by rwa [received_consume], huntunes.retimed hretimed, ?_⟩
  subst hhandle
  rcases hplace with hqueued | huntuning
  · left
    rcases huntune with heq | ⟨hheld | hlive, -⟩ | ⟨hheld, -⟩
    · exact heq.trans hqueued
    all_goals simp_all
  -- the consumer works on the untune message, so the request is in the table
  have hlive : s.stage req = .live := by
    rcases hstage with hheld | hlive
    · have hitem := (hinv.item req).mp hheld
      obtain rfl : untune = req := Option.some.inj ((item_of_untuning huntuning).symm.trans hitem)
      cases huntunes.type.symm.trans htune.2
    · exact hlive
  right
  cases hconsumer : s.consumer with
  | find r =>
    rw [hconsumer] at huntuning
    obtain rfl := Option.some.inj huntuning
    rw [consume_of_find hinv htune hlive huntunes hconsumer]
    rfl
  | remove r target =>
    simp only [Server.consume, hconsumer]
    rwa [hconsumer] at huntuning
  | untrack r target =>
    -- the request is the target, which is freed
    rw [hconsumer] at huntuning
    obtain rfl := Option.some.inj huntuning
    have hok := hinv.consumer
    simp only [ConsumerOk, hconsumer] at hok
    obtain ⟨-, htarget, -, heq⟩ := hok
    obtain rfl := hinv.unique target req htarget htune (heq.trans huntunes.handle)
    refine absurd ?_ hkept
    simp only [Server.consume, hconsumer]
    exact cleanUpRequest_stage_self
  | idle | status | mark | insert | discard | update | crashed =>
    rw [hconsumer] at huntuning
    cases huntuning

/-- **Once an untune message is on its way, the request goes.** -/
theorem Leaving.next (hinv : Inv env s) (henabled : s.Enabled e) (htune : s.IsTune req)
    (hhandle : (s.heap req).mHandle = handle) (h : Leaving s handle req) :
    Leaving (Server.next env s e) handle req ∨ (Server.next env s e).active.lookup handle = none := by
  -- an event that is about a message which was not received before, or is with its worker
  have hother : ∀ {req r : ReqPtr}, s.stage req = .unused ∨ (s.stage req).working →
      s.stage r = .queued ∨ s.stage r = .held ∨ s.stage r = .live → r ≠ req := by
    rintro req r hreq hr rfl
    rcases hr with hr | hr | hr <;> rw [hr] at hreq <;> rcases hreq with h | h <;> cases h
  have heffect := effect_of_enabled hinv henabled
  cases e with
  | receive r request isValidated =>
    refine Or.inl (h.frame hinv (fun other hother' => ?_)
      (fun other hmem => List.mem_cons_of_mem _ hmem) rfl)
    have hne := hother (Or.inl henabled.1) hother'
    exact ⟨goto_stage_of_ne hne, Function.update_of_ne hne _ _⟩
  | work r answer =>
    obtain ⟨hconsumer, hreceived, hframe⟩ := work_frame env s r answer
    exact Or.inl (h.frame hinv (fun other hother' => hframe other (hother (Or.inr henabled) hother'))
      (fun other hmem => by rwa [Server.next, hreceived]) hconsumer)
  | pop r => exact Or.inl (h.pop henabled.1 henabled.2.1)
  | consume answer =>
    by_cases hfreed : (s.consume env answer).stage req = .freed
    · refine Or.inr (inactive_of_freed (inv_of_effect hinv heffect) (heffect.isTune htune) ?_ hfreed)
      exact (heffect.persists htune.1).2.handle.trans hhandle
    · exact Or.inl (h.consume hinv htune hhandle hfreed)
  | timerExpired r target duration => exact Or.inl (h.arrive hinv henabled.1)

end Leaving

end Supervised

/-! ## Priorities of active requests -/

namespace Server

variable {env : Env} {s s' : Server} {e : Event} {req r : ReqPtr} {answer : Answer}

/-- Requests that passed `isSane` are not taken for the clean-up trigger, nor are untune messages made
of them. -/
def Sane (s : Server) : Prop :=
  ∀ req, s.IsTune req → s.stage req = .add ∨ (s.stage req).tracked →
    SERVER_CLEANUP_TRIGGER_PRIORITY < (s.heap req).getPriority

theorem sane_init (heap : Heap) : Sane (init heap) := fun _ h => absurd rfl h.1

/-- A request that is admitted has a priority above that of the clean-up trigger. -/
theorem priority_of_shouldRequestBeAdded {maxRequests : Nat} {heap : Heap} {t : Tracker}
    {request : Request} (h : (RequestManager.shouldRequestBeAdded maxRequests heap t request).1) :
    SERVER_CLEANUP_TRIGGER_PRIORITY < request.getPriority := by
  unfold RequestManager.shouldRequestBeAdded at h
  split at h
  · cases h
  rename_i hsane
  have hpriority : ¬ request.getPriority < 0 := by
    intro hneg
    refine hsane ?_
    unfold RequestManager.isSane
    split
    · rfl
    · simp [hneg]
  have htrigger : SERVER_CLEANUP_TRIGGER_PRIORITY < 0 := by decide
  omega

/-- A message whose priority nothing changes, and that was admitted before. -/
theorem Sane.frame (hsane : Sane s) (hkept : Kept (s.heap r) (s'.heap r))
    (hpriority : (s'.heap r).getPriority = (s.heap r).getPriority) (htune : s'.IsTune r)
    (hstage : s.stage r = .add ∨ (s.stage r).tracked) :
    SERVER_CLEANUP_TRIGGER_PRIORITY < (s'.heap r).getPriority := by
  rw [hpriority]
  refine hsane r ⟨?_, hkept.type.symm.trans htune.2⟩ hstage
  intro h
  rw [h] at hstage
  rcases hstage with h | h <;> cases h

/-- A worker tracks no request that it did not check. -/
theorem sane_of_work (hinv : Inv env s) (hsane : Sane s) (hworking : (s.stage req).working)
    (htune : (s.work env req answer).IsTune req)
    (hstage : (s.work env req answer).stage req = .add ∨ ((s.work env req answer).stage req).tracked) :
    SERVER_CLEANUP_TRIGGER_PRIORITY < ((s.work env req answer).heap req).getPriority := by
  have hfits := hinv.fits req (by intro h; rw [h] at hworking; cases hworking)
  cases hold : s.stage req with
  | unused | queued | held | live | freed | lost =>
    rw [hold] at hworking
    cases hworking
  | globalRateLimit | createClient | disable | rateLimit =>
    simp only [work, hold, proceed_stage_self] at hstage
    repeat' split at hstage
    all_goals rcases hstage with h | h <;> cases h
  | clientCheck =>
    simp only [work, hold] at hstage
    split at hstage
    · simp only [goto_stage_self] at hstage
      split at hstage <;> rcases hstage with h | h <;> cases h
    all_goals
      simp only [proceed_stage_self] at hstage
      split at hstage <;> rcases hstage with h | h <;> cases h
  | verify =>
    simp only [work, hold] at hstage
    repeat' split at hstage
    all_goals
      simp only [goto_stage_self, cleanUpRequest_stage_self] at hstage
      rcases hstage with h | h <;> cases h
  | verifyHandle =>
    -- not the stage of a tune request
    have htype := htune.2
    simp only [work, hold, proceed_heap] at htype
    rw [hold, htype] at hfits
    cases hfits
  | shouldBeAdded =>
    simp only [work, hold, proceed_stage_self, proceed_heap] at hstage ⊢
    split at hstage
    · rename_i hadded
      exact priority_of_shouldRequestBeAdded hadded
    · rcases hstage with h | h <;> cases h
  | add =>
    have hheap : (s.work env req answer).heap = s.heap := by simp only [work, hold, proceed_heap]
    exact hsane.frame (by rw [hheap]; exact .refl _) (by rw [hheap]) htune (Or.inl hold)
  | enqueue =>
    have hheap : (s.work env req answer).heap = s.heap := by
      simp only [work, hold, addAndWakeup]
      split <;> rfl
    exact hsane.frame (by rw [hheap]; exact .refl _) (by rw [hheap]) htune
      (Or.inr (by rw [hold]; rfl))

/-- An untune message is no tune request. -/
theorem Sane.arrive (hsane : Sane s) {request : Request} {isValidated : Bool}
    (htype : request.mReqType ≠ .REQ_RESOURCE_TUNING) :
    Sane ((s.arrive req request isValidated).addAndWakeup req) := by
  intro r htune hstage
  by_cases hr : r = req
  · subst hr
    have htuning := htune.2
    rw [addAndWakeup_heap] at htuning
    simp only [Server.arrive, Function.update_self] at htuning
    exact absurd htuning htype
  · rw [addAndWakeup_stage_of_ne hr] at hstage
    have hsame : ((s.arrive req request isValidated).addAndWakeup req).heap r = s.heap r := by
      rw [addAndWakeup_heap]
      exact Function.update_of_ne hr _ _
    exact hsane.frame (by rw [hsame]; exact .refl _) (by rw [hsame]) htune hstage

/-- So every tracked request has one, after each event. -/
theorem sane_of_next (hinv : Inv env s) (henabled : s.Enabled e) (hsane : Sane s) :
    Sane (next env s e) := by
  intro r htune hstage
  have hsame : ∀ {s' : Server}, s'.stage r = s.stage r → s'.heap r = s.heap r → s'.IsTune r →
      s'.stage r = .add ∨ (s'.stage r).tracked →
        SERVER_CLEANUP_TRIGGER_PRIORITY < (s'.heap r).getPriority := by
    intro s' hst hheap htune hstage
    rw [hst] at hstage
    exact hsane.frame (by rw [hheap]; exact .refl _) (by rw [hheap]) htune hstage
  cases e with
  | receive req request isValidated =>
    by_cases hr : r = req
    · subst hr
      simp only [next, goto_stage_self] at hstage
      split at hstage <;> rcases hstage with h | h <;> cases h
    · exact hsame (goto_stage_of_ne hr) (Function.update_of_ne hr _ _) htune hstage
  | work req answer =>
    by_cases hr : r = req
    · subst hr
      exact sane_of_work hinv hsane henabled htune hstage
    · obtain ⟨-, -, hframe⟩ := work_frame env s req answer
      exact hsame (hframe r hr).1 (hframe r hr).2 htune hstage
  | pop req =>
    by_cases hr : r = req
    · subst hr
      exact hsane.frame (by rw [next, pop_heap]; exact .refl _) (by rw [next, pop_heap]) htune
        (Or.inr (by rw [henabled.2.1]; rfl))
    · exact hsame (pop_stage_of_ne hr) (by rw [next, pop_heap]) htune hstage
  | consume answer =>
    obtain ⟨hretimed, hstages⟩ := consume_message answer hinv r
    refine hsane.frame hretimed.kept hretimed.links.2 htune ?_
    simp only [next] at hstage
    rcases hstages with h | ⟨-, h⟩ | ⟨h, -⟩
    · rwa [h] at hstage
    · rw [h] at hstage
      rcases hstage with h | h <;> cases h
    · exact Or.inr (by rw [h]; rfl)
  | timerExpired req target duration => exact hsane.arrive (fun h => by cases h) r htune hstage

end Server

/-! ## One event -/

namespace Supervised

section Steps

open Server

variable {env : Env} {s s' : Supervised} {e : Server.Event} {req target : ReqPtr} {handle : Int}
  {status : BitVec 8} {answer : Answer}

/-- Every active request can be found, or an untune message is on its way. -/
structure Accounted (env : Env) (s : Supervised) : Prop where
  inv : Inv env s.server
  sane : Sane s.server
  found : ∀ handle target status, s.server.active.lookup handle = some (some target, status) →
    s.clients.Holds (s.server.heap target).mClientTID handle ∧
        s.Found (s.server.heap target).mClientTID handle ∨
      s.Untuned handle target
  submitting : ∀ handle target rest count, s.collection = .submitting handle target rest count →
    s.server.IsTune target ∧ (s.server.heap target).mHandle = handle

theorem accounted_init (heap : Heap) : Accounted env (init heap) where
  inv := inv_init heap
  sane := sane_init heap
  found handle target status h := by cases h
  submitting handle target rest count h := by cases h

/-- The request of an active handle. -/
theorem Accounted.origin (h : Accounted env s)
    (hlookup : s.server.active.lookup handle = some (some target, status)) :
    s.server.IsTune target ∧ (s.server.heap target).mHandle = handle := by
  obtain ⟨req, hreq, htune, -, hhandle⟩ := h.inv.origin _ _ hlookup
  obtain rfl := Option.some.inj hreq
  exact ⟨htune, hhandle⟩

/-- An event of the server after which an active request is where it was. -/
theorem Accounted.untuned_next (h : Accounted env s) (henabled : s.server.Enabled e)
    (htune : s.server.IsTune target) (hhandle : (s.server.heap target).mHandle = handle)
    (hactive : (s.server.next env e).active.lookup handle = some (some target, status))
    (huntuned : s.Untuned handle target) :
    Untuned { s with server := s.server.next env e } handle target := by
  rcases huntuned with hpending | hleaving
  · exact Or.inl hpending
  · rcases hleaving.next h.inv henabled htune hhandle with hleaving | hnone
    · exact Or.inr hleaving
    · rw [hnone] at hactive
      cases hactive

/-- A handle that is found stays found if no list of a client gets shorter. -/
theorem Found.mono {tid : Int} (h : s.Found tid handle)
    (hlists : ∀ pid tid, s.clients.Lists pid tid → s'.clients.Lists pid tid)
    (hqueue : s'.mGcQueue = s.mGcQueue) (hcollection : s'.collection = s.collection) :
    s'.Found tid handle := by
  rcases h with ⟨pid, h⟩ | h | h
  · exact Or.inl ⟨pid, hlists pid tid h⟩
  · exact Or.inr (Or.inl (by rwa [hqueue]))
  · exact Or.inr (Or.inr (by rwa [hcollection]))

/-- What a step of the server has to show. -/
theorem Accounted.serve (h : Accounted env s) (henabled : s.server.Enabled e)
    (hstep : ∀ handle target status,
      (s.server.next env e).active.lookup handle = some (some target, status) →
        (s.server.next env e).tracker.clients.Holds (s.server.heap target).mClientTID handle ∧
            Found { s with server := s.server.next env e } (s.server.heap target).mClientTID handle ∨
          Untuned { s with server := s.server.next env e } handle target)
    (htunes : ∀ handle target status,
      (s.server.next env e).active.lookup handle = some (some target, status) →
        s.server.stage target ≠ .unused) :
    Accounted env { s with server := s.server.next env e } := by
  have heffect := effect_of_enabled h.inv henabled
  refine ⟨inv_of_effect h.inv heffect, sane_of_next h.inv henabled h.sane, ?_, ?_⟩
  · intro handle target status hlookup
    have htid := (heffect.persists (htunes handle target status hlookup)).2.tid
    show _ ∨ _
    simp only [clients]
    rw [htid]
    exact hstep handle target status hlookup
  · intro handle target rest count hcollection
    obtain ⟨htune, hhandle⟩ := h.submitting handle target rest count hcollection
    exact ⟨heffect.isTune htune, (heffect.persists htune.1).2.handle.trans hhandle⟩

/-- A call that keeps what is tracked. -/
theorem Accounted.serve_of_keeps (h : Accounted env s) (henabled : s.server.Enabled e)
    (hkeeps : Keeps s.server.tracker (s.server.next env e).tracker) :
    Accounted env { s with server := s.server.next env e } := by
  have hold : ∀ handle target status,
      (s.server.next env e).active.lookup handle = some (some target, status) →
        ∃ status, s.server.active.lookup handle = some (some target, status) := by
    intro handle target status hlookup
    obtain ⟨⟨entry, status'⟩, hinfo, heq⟩ := hkeeps.lookup handle _ hlookup
    obtain rfl : entry = some target := heq
    exact ⟨status', hinfo⟩
  refine h.serve henabled (fun handle target status hlookup => ?_) fun handle target status hlookup => ?_
  · obtain ⟨status', hlookup'⟩ := hold handle target status hlookup
    obtain ⟨htune, hhandle⟩ := h.origin hlookup'
    rcases h.found handle target status' hlookup' with ⟨hholds, hfound⟩ | huntuned
    · exact Or.inl ⟨hkeeps.holds handle _ _ hlookup hholds, hfound.mono hkeeps.lists rfl rfl⟩
    · exact Or.inr (h.untuned_next henabled htune hhandle hlookup huntuned)
  · obtain ⟨status', hlookup'⟩ := hold handle target status hlookup
    exact (h.origin hlookup').1.1

/-- A new client whose thread has no entry, or one that holds nothing that is still needed. -/
theorem Accounted.createClient (h : Accounted env s) (henabled : (s.server.stage req).working)
    (hstage : s.server.stage req = .createClient) (htraced : Traced env s (.serve (.work req answer))) :
    Accounted env { s with server := s.server.next env (.work req answer) } := by
  rw [Traced, hstage] at htraced
  let tid := (s.server.heap req).mClientTID
  let created := s.clients.createNewClient (s.server.heap req).mClientPID tid answer.creation
  have htracker : (s.server.next env (.work req answer)).tracker =
      { s.server.tracker with clients := created.2 } := by
    simp only [Server.next, work, hstage, proceed_tracker]
    rfl
  by_cases hnew : s.clients.clientExists (s.server.heap req).mClientPID tid = false ∧
      answer.creation.tidBlock = true
  · have hold : ∀ handle target status,
        (s.server.next env (.work req answer)).active.lookup handle = some (some target, status) →
          s.server.active.lookup handle = some (some target, status) := by
      intro handle target status hlookup
      rwa [active, htracker] at hlookup
    refine h.serve henabled (fun handle target status hlookup => ?_)
      fun handle target status hlookup => (h.origin (hold handle target status hlookup)).1.1
    have hlookup' := hold handle target status hlookup
    obtain ⟨htune, hhandle⟩ := h.origin hlookup'
    rcases h.found handle target status hlookup' with ⟨hholds, hfound⟩ | huntuned
    · by_cases htid : (s.server.heap target).mClientTID = tid
      · -- the entry is written anew
        rw [htid] at hholds
        refine Or.inr (h.untuned_next henabled htune hhandle hlookup ?_)
        exact htraced hnew.2 hnew.1 handle target status hlookup' hholds
      · left
        rw [htracker]
        refine ⟨?_, hfound.mono (fun pid tid hlists => ?_) rfl rfl⟩
        · obtain ⟨set, hset, hmem⟩ := hholds
          exact ⟨set, (ClientDataManager.handles_createNewClient_of_ne htid).trans hset, hmem⟩
        · simp only [clients, htracker]
          exact ClientDataManager.lists_createNewClient hlists
    · exact Or.inr (h.untuned_next henabled htune hhandle hlookup huntuned)
  · have hsame : created.2 = s.server.tracker.clients := by
      rcases not_and_or.mp hnew with hexists | hblock
      · exact ClientDataManager.createNewClient_of_exists (by simpa using hexists)
      · exact ClientDataManager.createNewClient_of_no_block (by simpa using hblock)
    refine h.serve_of_keeps henabled ?_
    rw [htracker, hsame]
    exact .refl _

/-- A request is added to the set of a thread that can be found. -/
theorem Accounted.add (h : Accounted env s) (henabled : (s.server.stage req).working)
    (hstage : s.server.stage req = .add) (htraced : Traced env s (.serve (.work req answer))) :
    Accounted env { s with server := s.server.next env (.work req answer) } := by
  rw [Traced, hstage] at htraced
  let maxRequests := env.metaConfigs.mMaxConcurrentRequests
  have htracker : (s.server.next env (.work req answer)).tracker =
      (RequestManager.addRequest maxRequests s.server.heap s.server.tracker req).2 := by
    simp only [Server.next, work, hstage, proceed_tracker]
    rfl
  cases hadded : (RequestManager.addRequest maxRequests s.server.heap s.server.tracker req).1 with
  | false =>
    refine h.serve_of_keeps henabled ?_
    rw [htracker, addRequest_of_refused h.inv hstage hadded]
    exact .refl _
  | true =>
    obtain ⟨-, hcache, -, -, hclients⟩ := RequestManager.addRequest_of_true hadded
    have hcount : s.server.tracker.manager.getActiveReqeustsCount < maxRequests := by
      by_contra hcap
      simp [RequestManager.addRequest, not_lt.mp hcap] at hadded
    obtain ⟨hentry, hthread⟩ := htraced hcount hcache
    obtain ⟨set, hset⟩ := Option.isSome_iff_exists.mp hentry
    have hlookup : ∀ handle, (s.server.next env (.work req answer)).active.lookup handle =
        if handle = (s.server.heap req).mHandle then some (some req, REQ_UNCHANGED)
        else s.server.active.lookup handle := by
      intro handle
      rw [active, htracker]
      exact lookup_of_added hadded handle
    have hlists : ∀ pid tid, s.clients.Lists pid tid →
        (s.server.next env (.work req answer)).tracker.clients.Lists pid tid := by
      intro pid tid hlists
      unfold ClientDataManager.Lists at hlists ⊢
      rwa [htracker, hclients, ClientDataManager.mClientRepo_insertRequestByClientId]
    have hhandles := fun tid => @ClientDataManager.handles_insertRequestByClientId s.clients
      (s.server.heap req).mClientTID (s.server.heap req).mHandle set hset tid
    refine h.serve henabled (fun handle target status hactive => ?_) fun handle target status hactive => ?_
    · rw [hlookup handle] at hactive
      split at hactive
      · -- the new request
        rename_i heq
        obtain rfl : req = target := by simpa using (Prod.mk.inj (Option.some.inj hactive)).1
        left
        rw [htracker, hclients, heq]
        refine ⟨⟨_, (hhandles _).trans (if_pos rfl), UnorderedSet.mem_insert.mpr (Or.inl rfl)⟩, ?_⟩
        rcases hthread with ⟨pid, hlisted⟩ | hqueue
        · exact Or.inl ⟨pid, hlists pid _ hlisted⟩
        · exact Or.inr (Or.inl hqueue)
      · rename_i hne
        obtain ⟨htune, hhandle⟩ := h.origin hactive
        rcases h.found handle target status hactive with ⟨⟨set', hset', hmem⟩, hfound⟩ | huntuned
        · left
          refine ⟨?_, hfound.mono hlists rfl rfl⟩
          rw [htracker, hclients]
          by_cases htid : (s.server.heap target).mClientTID = (s.server.heap req).mClientTID
          · obtain rfl := Option.some.inj (hset.symm.trans (htid ▸ hset'))
            exact ⟨_, (hhandles _).trans (if_pos htid), UnorderedSet.mem_insert.mpr (Or.inr hmem)⟩
          · exact ⟨set', (hhandles _).trans ((if_neg htid).trans hset'), hmem⟩
        · have hactive' := (hlookup handle).trans ((if_neg hne).trans hactive)
          exact Or.inr (h.untuned_next henabled htune hhandle hactive' huntuned)
    · rw [hlookup handle] at hactive
      split at hactive
      · obtain rfl : req = target := by simpa using (Prod.mk.inj (Option.some.inj hactive)).1
        rw [hstage]
        decide
      · exact (h.origin hactive).1.1

/-- An event of the server leaves every active handle accounted for, if it is one of those asked of
a run. -/
theorem accounted_of_serve (h : Accounted env s) (henabled : s.server.Enabled e)
    (htraced : Traced env s (.serve e)) : Accounted env { s with server := s.server.next env e } := by
  by_cases hcreate : ∃ req answer, e = .work req answer ∧ s.server.stage req = .createClient
  · obtain ⟨req, answer, rfl, hstage⟩ := hcreate
    exact h.createClient henabled hstage htraced
  by_cases hadd : ∃ req answer, e = .work req answer ∧ s.server.stage req = .add
  · obtain ⟨req, answer, rfl, hstage⟩ := hadd
    exact h.add henabled hstage htraced
  refine h.serve_of_keeps henabled (keeps_of_next h.inv fun req answer he => ⟨?_, ?_⟩)
  · exact fun hstage => hcreate ⟨req, answer, he, hstage⟩
  · exact fun hstage => hadd ⟨req, answer, he, hstage⟩

/-- Fewer handles in the sets of the threads. -/
theorem inv_withClients (hinv : Inv env s.server) {clients : ClientDataManager}
    (hholds : ∀ tid handle, clients.Holds tid handle → s.clients.Holds tid handle) :
    Inv env (s.withClients clients).server where
  received := hinv.received
  fits := hinv.fits
  unique := hinv.unique
  owned := hinv.owned
  item := hinv.item
  consumer := hinv.consumer
  origin := hinv.origin
  entry req htune htracked := by
    obtain ⟨status, hlookup, hstatus⟩ := hinv.entry req htune htracked
    exact ⟨status, hlookup, hstatus.congr Iff.rfl Iff.rfl id⟩
  handles tid handle h := hinv.handles tid handle (hholds tid handle h)
  cleaned := hinv.cleaned
  links := hinv.links

/-- The threads of a dead process are submitted before its entry goes. -/
theorem accounted_of_check (h : Accounted env s) {dead : Bool} (htraced : Traced env s (.check dead)) :
    Accounted env (s.check dead) := by
  cases hpulse : s.pulse with
  | idle =>
    simp only [check, hpulse]
    exact ⟨h.inv, h.sane, h.found, h.submitting⟩
  | checking clientList =>
    cases clientList with
    | nil =>
      simp only [check, hpulse]
      exact ⟨h.inv, h.sane, h.found, h.submitting⟩
    | cons pid clientList =>
      simp only [check, hpulse]
      split
      · refine ⟨h.inv, h.sane, fun handle target status hlookup => ?_, h.submitting⟩
        rcases h.found handle target status hlookup with ⟨hholds, hfound⟩ | huntuned
        · refine Or.inl ⟨hholds, ?_⟩
          rcases hfound with h | h | h
          · exact Or.inl h
          · exact Or.inr (Or.inl (List.mem_append_left _ h))
          · exact Or.inr (Or.inr h)
        · exact Or.inr huntuned
      · exact ⟨h.inv, h.sane, h.found, h.submitting⟩
  | deleting pid clientList =>
    rw [Traced, hpulse] at htraced
    simp only [check, hpulse]
    have hinv := inv_withClients h.inv (fun tid handle h =>
      show s.clients.Holds tid handle from h : ∀ tid handle,
        (s.clients.deleteClientPID pid).Holds tid handle → s.clients.Holds tid handle)
    refine ⟨hinv, h.sane, fun handle target status hlookup => ?_, h.submitting⟩
    have hdeleted := htraced handle target status hlookup
    rcases h.found handle target status hlookup with ⟨hholds, hfound⟩ | huntuned
    · by_cases hlists : s.clients.Lists pid (s.server.heap target).mClientTID
      · rcases hdeleted hlists with hlisted | hqueue | hcopied | huntuned
        · exact Or.inl ⟨hholds, Or.inl hlisted⟩
        · exact Or.inl ⟨hholds, Or.inr (Or.inl hqueue)⟩
        · exact Or.inl ⟨hholds, Or.inr (Or.inr hcopied)⟩
        · exact Or.inr huntuned
      · refine Or.inl ⟨hholds, ?_⟩
        rcases hfound with ⟨pid', h⟩ | h | h
        · refine Or.inl ⟨pid', ClientDataManager.lists_deleteClientPID_of_ne ?_ h⟩
          rintro rfl
          exact hlists h
        · exact Or.inr (Or.inl h)
        · exact Or.inr (Or.inr h)
    · exact Or.inr huntuned

/-- The collector moves on without having changed a store. -/
theorem Accounted.turn (h : Accounted env s) {collection : Collection}
    (hcopied : ∀ tid, s.collection.copied tid = [])
    (hpending : ∀ handle target status,
      s.server.active.lookup handle = some (some target, status) → handle ∈ s.collection.pending →
        handle ∈ collection.pending ∨ Leaving s.server handle target)
    (hsubmitting : ∀ handle target rest count, collection = .submitting handle target rest count →
      s.server.IsTune target ∧ (s.server.heap target).mHandle = handle) :
    Accounted env { s with collection := collection } := by
  refine ⟨h.inv, h.sane, fun handle target status hlookup => ?_, hsubmitting⟩
  rcases h.found handle target status hlookup with ⟨hholds, hfound⟩ | huntuned | hleaving
  · refine Or.inl ⟨hholds, ?_⟩
    rcases hfound with h | h | h
    · exact Or.inl h
    · exact Or.inr (Or.inl h)
    · rw [hcopied] at h
      cases h
  · exact Or.inr (hpending handle target status hlookup huntuned)
  · exact Or.inr (Or.inr hleaving)

/-- Nothing was copied and nothing is pending. -/
theorem Accounted.pass (h : Accounted env s) {collection : Collection}
    (hcopied : ∀ tid, s.collection.copied tid = []) (hpending : s.collection.pending = [])
    (hidle : ∀ handle target rest count, collection ≠ .submitting handle target rest count) :
    Accounted env { s with collection := collection } := by
  refine h.turn hcopied (fun handle target status _ hmem => ?_) fun handle target rest count heq => ?_
  · rw [hpending] at hmem
    cases hmem
  · exact absurd heq (hidle handle target rest count)

/-- The handles of the thread at the front are copied. -/
theorem Accounted.copy (h : Accounted env s) {clientTID : Int} {rest : List Int} {count : Nat}
    (hcollection : s.collection = .cleaning count) (hqueue : s.mGcQueue = clientTID :: rest) :
    Accounted env { s.withClients (s.clients.getRequestsByClientID clientTID).2 with
      mGcQueue := rest
      collection :=
        match (s.clients.getRequestsByClientID clientTID).1 with
        | none => .crashed
        | some clientHandles => .deleting clientTID clientHandles.elems count } := by
  have hread := s.clients.handles_getRequestsByClientID clientTID
  have hholds : ∀ tid handle, (s.clients.getRequestsByClientID clientTID).2.Holds tid handle ↔
      s.clients.Holds tid handle := by
    intro tid handle
    simp only [ClientDataManager.Holds, hread]
  have hinv := inv_withClients h.inv fun tid handle h => (hholds tid handle).mp h
  refine ⟨hinv, h.sane, fun handle target status hlookup => ?_, fun handle target rest count h => ?_⟩
  · rcases h.found handle target status hlookup with ⟨hheld, hfound⟩ | hpending | hleaving
    · refine Or.inl ⟨(hholds _ _).mpr hheld, ?_⟩
      rcases hfound with h | h | h
      · exact Or.inl h
      · rw [hqueue] at h
        rcases List.mem_cons.mp h with heq | hrest
        · obtain ⟨set, hset, hmem⟩ := hheld
          rw [heq, ← ClientDataManager.getRequestsByClientID_fst] at hset
          refine Or.inr (Or.inr ?_)
          show handle ∈ Collection.copied (s.server.heap target).mClientTID
            (match (s.clients.getRequestsByClientID clientTID).1 with
            | none => Collection.crashed
            | some clientHandles => .deleting clientTID clientHandles.elems count)
          rw [hset]
          simp only [Collection.copied, heq, if_true]
          exact hmem
        · exact Or.inr (Or.inl hrest)
      · rw [hcollection] at h
        cases h
    · rw [hcollection] at hpending
      cases hpending
    · exact Or.inr (Or.inr hleaving)
  · simp only at h
    split at h <;> cases h

/-- The entry of a thread goes when all its handles were copied. -/
theorem Accounted.delete (h : Accounted env s) {clientTID : Int} {handlesToRemove : List Int}
    {count : Nat} (hcollection : s.collection = .deleting clientTID handlesToRemove count)
    {clients : ClientDataManager} (hdelete : s.clients.deleteClientTID clientTID = some clients)
    (hcopied : ∀ handle target status, s.server.active.lookup handle = some (some target, status) →
      s.clients.Holds clientTID handle → handle ∈ handlesToRemove ∨ s.Untuned handle target) :
    Accounted env { s.withClients clients with collection := .untuning handlesToRemove count } := by
  obtain ⟨hrepo, hothers, hnone⟩ := ClientDataManager.deleteClientTID_spec hdelete
  have hholds : ∀ tid handle, clients.Holds tid handle → s.clients.Holds tid handle := by
    rintro tid handle ⟨set, hset, hmem⟩
    by_cases htid : tid = clientTID
    · rw [htid, hnone] at hset
      cases hset
    · exact ⟨set, (hothers tid htid).symm.trans hset, hmem⟩
  have huntuned : ∀ {handle target}, s.Untuned handle target →
      Untuned { s.withClients clients with collection := .untuning handlesToRemove count } handle
        target := by
    rintro handle target (hpending | hleaving)
    · rw [hcollection] at hpending
      cases hpending
    · exact Or.inr hleaving
  refine ⟨inv_withClients h.inv hholds, h.sane, fun handle target status hlookup => ?_,
    fun handle target rest count h => by cases h⟩
  rcases h.found handle target status hlookup with ⟨hheld, hfound⟩ | hleft
  · by_cases htid : (s.server.heap target).mClientTID = clientTID
    · rw [htid] at hheld
      rcases hcopied handle target status hlookup hheld with hmem | hleft
      · exact Or.inr (Or.inl hmem)
      · exact Or.inr (huntuned hleft)
    · obtain ⟨set, hset, hmem⟩ := hheld
      refine Or.inl ⟨⟨set, (hothers _ htid).trans hset, hmem⟩, ?_⟩
      rcases hfound with ⟨pid, info, hinfo, hlisted⟩ | h | h
      · exact Or.inl ⟨pid, info, (congrArg (AList.lookup pid) hrepo).trans hinfo, hlisted⟩
      · exact Or.inr (Or.inl h)
      · rw [hcollection, Collection.copied, if_neg (Ne.symm htid)] at h
        cases h
  · exact Or.inr (huntuned hleft)

/-- An untune message is made for a request which the consumer has taken. -/
theorem Accounted.submit (h : Accounted env s) {rest : List Int} {count : Nat} {untune : ReqPtr}
    {duration : Int} (hcollection : s.collection = .submitting handle target rest count)
    (hfresh : s.server.stage untune = .unused)
    (htaken : ∀ status, s.server.active.lookup handle = some (some target, status) →
      Leaving s.server handle target ∨ s.server.stage target = .held ∨ s.server.stage target = .live) :
    Accounted env { s with
      server := (s.server.arrive untune
        (ClientGarbageCollector.untuneRequest (s.server.heap target) duration) true).addAndWakeup untune
      collection := .untuning rest count } := by
  obtain ⟨htarget, hhandle⟩ := h.submitting handle target rest count hcollection
  let message := ClientGarbageCollector.untuneRequest (s.server.heap target) duration
  let server := (s.server.arrive untune message true).addAndWakeup untune
  have hother : ∀ {r}, s.server.stage r ≠ .unused → r ≠ untune := by
    rintro r hr rfl
    exact hr hfresh
  have heffect : Effect env s.server (.pop untune) server := by
    have howned : ∀ node ∈ message.nodes, node.addr.1 = untune := fun node h => by cases h
    simp only [server, addAndWakeup]
    split
    · exact Effect.arrive hfresh rfl rfl (fun h => by cases h) howned (fun h => by cases h)
    · exact Effect.arrive hfresh rfl rfl (fun h => by cases h) howned (fun h => by cases h)
  have htracker : server.tracker = s.server.tracker := addAndWakeup_tracker
  have hupdated : server.heap = Function.update s.server.heap untune message := addAndWakeup_heap
  have hheap : ∀ r, s.server.stage r ≠ .unused → server.heap r = s.server.heap r := by
    intro r hr
    rw [hupdated, Function.update_of_ne (hother hr)]
  have hqueued : s.server.stage target = .held ∨ s.server.stage target = .live →
      Leaving server handle target := by
    intro htaken
    have hpriority := h.sane target htarget (Or.inr (by rcases htaken with h | h <;> rw [h] <;> rfl))
    have hsame : message.getPriority = (s.server.heap target).getPriority :=
      ClientGarbageCollector.untuneRequest_getPriority _ _
    have hplaced : server.stage untune = .queued := by
      simp only [server, addAndWakeup]
      rw [if_neg]
      · exact goto_stage_self
      · simp only [Server.arrive, Function.update_self]
        omega
    have hstage : server.stage target = s.server.stage target :=
      addAndWakeup_stage_of_ne (hother htarget.1)
    have hreceived : server.received = untune :: s.server.received := addAndWakeup_received
    refine ⟨by rwa [hstage], untune, ?_, ?_, Or.inl hplaced⟩
    · rw [hreceived]
      exact List.mem_cons_self
    · rw [hupdated, Function.update_self]
      exact ⟨rfl, hhandle, by omega⟩
  refine ⟨inv_of_effect h.inv heffect, h.sane.arrive (fun h => by cases h), ?_,
    fun handle target rest count h => by cases h⟩
  intro handle' target' status hlookup
  have hlookup' : s.server.active.lookup handle' = some (some target', status) := by
    rw [← hlookup]
    show _ = server.active.lookup handle'
    rw [active, active, htracker]
  obtain ⟨htune', hhandle'⟩ := h.origin hlookup'
  rcases h.found handle' target' status hlookup' with ⟨hheld, hfound⟩ | hpending | hleaving
  · left
    show server.tracker.clients.Holds (server.heap target').mClientTID handle' ∧
      Found _ (server.heap target').mClientTID handle'
    rw [hheap target' htune'.1, htracker]
    refine ⟨hheld, ?_⟩
    rcases hfound with ⟨pid, h⟩ | h | h
    · refine Or.inl ⟨pid, ?_⟩
      show server.tracker.clients.Lists _ _
      rwa [htracker]
    · exact Or.inr (Or.inl h)
    · rw [hcollection] at h
      cases h
  · right
    rw [hcollection] at hpending
    rcases List.mem_cons.mp hpending with rfl | hrest
    · obtain rfl := h.inv.unique target' target htune' htarget (hhandle'.trans hhandle.symm)
      rcases htaken status hlookup' with hleaving | htaken
      · exact Or.inr (hleaving.arrive h.inv hfresh)
      · exact Or.inr (hqueued htaken)
    · exact Or.inl hrest
  · exact Or.inr (Or.inr (hleaving.arrive h.inv hfresh))

/-- A null entry has no handles to lose. -/
theorem Accounted.crash (h : Accounted env s) {clientTID : Int} {handlesToRemove : List Int} {count : Nat}
    (hcollection : s.collection = .deleting clientTID handlesToRemove count)
    (hdelete : s.clients.deleteClientTID clientTID = none) :
    Accounted env { s with collection := .crashed } := by
  have hnone := ClientDataManager.handles_of_deleteClientTID_none hdelete
  refine ⟨h.inv, h.sane, fun handle target status hlookup => ?_, fun _ _ _ _ h => by cases h⟩
  rcases h.found handle target status hlookup with ⟨hheld, hfound⟩ | hpending | hleft
  · refine Or.inl ⟨hheld, ?_⟩
    rcases hfound with h | h | h
    · exact Or.inl h
    · exact Or.inr (Or.inl h)
    · rw [hcollection, Collection.copied] at h
      split at h
      · rename_i htid
        obtain ⟨set, hset, -⟩ := hheld
        cases hset.symm.trans (htid ▸ hnone)
      · cases h
  · rw [hcollection] at hpending
    cases hpending
  · exact Or.inr (Or.inr hleft)

/-- The collector looks the request of a handle up. -/
theorem Accounted.find (h : Accounted env s) {rest : List Int} {count : Nat}
    (hcollection : s.collection = .untuning (handle :: rest) count) :
    Accounted env { s with
      collection :=
        match (s.server.tracker.manager.getRequestFromMap handle).1 with
        | none => .untuning rest count
        | some request => .submitting handle request rest count } := by
  have hcopied : ∀ tid, s.collection.copied tid = [] := by
    rw [hcollection]
    exact fun _ => rfl
  cases hlookup : s.server.active.lookup handle with
  | none =>
    -- the handle is not active
    have hrequest : (s.server.tracker.manager.getRequestFromMap handle).1 = none := by
      unfold active at hlookup
      simp [RequestManager.getRequestFromMap, hlookup]
    rw [hrequest]
    refine h.turn hcopied (fun handle' target status hactive hpending => ?_) fun _ _ _ _ h => by cases h
    rw [hcollection] at hpending
    rcases List.mem_cons.mp hpending with rfl | hrest
    · rw [hlookup] at hactive
      cases hactive
    · exact Or.inl hrest
  | some info =>
    obtain ⟨request, hentry, -⟩ := h.inv.origin handle info hlookup
    obtain ⟨entry, status⟩ := info
    obtain rfl : entry = some request := hentry
    have hrequest : (s.server.tracker.manager.getRequestFromMap handle).1 = some request := by
      unfold active at hlookup
      simp [RequestManager.getRequestFromMap, hlookup]
    rw [hrequest]
    refine h.turn hcopied (fun handle' target status _ hpending => ?_) fun handle' target rest count heq => ?_
    · rw [hcollection] at hpending
      exact Or.inl hpending
    · cases heq
      exact h.origin hlookup

/-- No block for an untune message, which the request does not need any more. -/
theorem Accounted.skip (h : Accounted env s) {rest : List Int} {count : Nat}
    (hcollection : s.collection = .submitting handle target rest count)
    (hleaving : ∀ status, s.server.active.lookup handle = some (some target, status) →
      Leaving s.server handle target) :
    Accounted env { s with collection := .untuning rest count } := by
  refine h.turn (by rw [hcollection]; exact fun _ => rfl) (fun handle' target' status hlookup hpending => ?_)
    fun _ _ _ _ h => by cases h
  rw [hcollection] at hpending
  rcases List.mem_cons.mp hpending with rfl | hrest
  · obtain ⟨htarget, hhandle⟩ := h.submitting _ _ _ _ hcollection
    obtain ⟨htune, hhandle'⟩ := h.origin hlookup
    obtain rfl := h.inv.unique target' target htune htarget (hhandle'.trans hhandle.symm)
    exact Or.inr (hleaving status hlookup)
  · exact Or.inl hrest

/-- So does a call of the collector: the handles it takes from the lists it untunes. -/
theorem accounted_of_clean (h : Accounted env s) {mCleanupBatchSize : BitVec 32}
    {block : Option (ReqPtr × Int)} (hfresh : ∀ b ∈ block, s.server.stage b.1 = .unused)
    (htraced : Traced env s (.clean block)) : Accounted env (s.clean mCleanupBatchSize block) := by
  rw [Traced] at htraced
  cases hcollection : s.collection with
  | idle =>
    simp only [clean, hcollection]
    exact h.pass (by rw [hcollection]; exact fun _ => rfl) (by rw [hcollection]; rfl) (by simp)
  | crashed =>
    simp only [clean, hcollection]
    exact h
  | cleaning count =>
    have hpass : Accounted env { s with collection := .idle } :=
      h.pass (by rw [hcollection]; exact fun _ => rfl) (by rw [hcollection]; rfl) (by simp)
    simp only [clean, hcollection]
    split
    · exact hpass
    · rename_i clientTID rest hqueue
      split
      · exact h.copy hcollection hqueue
      · exact hpass
  | deleting clientTID handlesToRemove count =>
    rw [hcollection] at htraced
    simp only [clean, hcollection]
    split
    · rename_i hdelete
      exact h.crash hcollection hdelete
    · rename_i hdelete
      exact h.delete hcollection hdelete htraced
  | untuning handlesToRemove count =>
    cases handlesToRemove with
    | nil =>
      simp only [clean, hcollection]
      exact h.pass (by rw [hcollection]; exact fun _ => rfl) (by rw [hcollection]; rfl) (by simp)
    | cons handle handlesToRemove =>
      have hfind := h.find hcollection
      simp only [clean, hcollection]
      split
      · rename_i hnone
        rwa [hnone] at hfind
      · rename_i request hrequest
        rwa [hrequest] at hfind
  | submitting handle target rest count =>
    rw [hcollection] at htraced
    cases block with
    | none =>
      simp only [clean, hcollection]
      refine h.skip hcollection fun status hlookup => ?_
      rcases htraced (UnorderedMap.mem_of_lookup hlookup) with hleaving | ⟨hblock, -⟩
      · exact hleaving
      · cases hblock
    | some b =>
      simp only [clean, hcollection]
      refine h.submit hcollection (hfresh b rfl) fun status hlookup => ?_
      rcases htraced (UnorderedMap.mem_of_lookup hlookup) with hleaving | ⟨-, htaken⟩
      · exact Or.inl hleaving
      · exact Or.inr htaken

/-- A step that loses no request keeps them all accounted for. -/
theorem accounted_of_next (h : Accounted env s) {mCleanupBatchSize : BitVec 32} {e : Event}
    (henabled : s.Enabled e) (htraced : Traced env s e) :
    Accounted env (s.next env mCleanupBatchSize e) := by
  cases e with
  | serve e => exact accounted_of_serve h henabled.2 htraced
  | check dead => exact accounted_of_check h htraced
  | clean block => exact accounted_of_clean h henabled.2 htraced

/-- Between two batches nothing is copied and nothing pending. -/
theorem Accounted.noOrphan (h : Accounted env s) (hrest : s.AtRest) : s.NoOrphan := by
  intro handle info hlookup
  obtain ⟨target, htarget, -⟩ := h.inv.origin handle info hlookup
  obtain ⟨entry, status⟩ := info
  obtain rfl : entry = some target := htarget
  refine ⟨target, rfl, ?_⟩
  rcases h.found handle target status hlookup with ⟨hheld, hfound⟩ | hpending | hleaving
  · refine Or.inl ⟨hheld, ?_⟩
    rcases hfound with h | h | h
    · exact Or.inl h
    · exact Or.inr h
    · rw [hrest.collection] at h
      cases h
  · rw [hrest.collection] at hpending
    cases hpending
  · exact Or.inr hleaving

end Steps

/-- **No orphaned request**: in every run whose steps lose no request, every active request can be found
whenever the threads are at rest. -/
theorem noOrphan_along_run {env : Env} {mCleanupBatchSize : BitVec 32} {heap : Heap}
    {events : List Event} (hrun : (machine env mCleanupBatchSize).Run (init heap) events)
    (htraced : (machine env mCleanupBatchSize).Steps (Traced env) (init heap) events) :
    (machine env mCleanupBatchSize).Along (fun s => s.AtRest → s.NoOrphan) (init heap) events := by
  refine Machine.along_iff.mpr fun before after heq hrest => ?_
  have hsteps := hrun.and htraced
  rw [heq, Machine.steps_append] at hsteps
  have haccounted : Accounted env ((machine env mCleanupBatchSize).exec (init heap) before) :=
    hsteps.1.invariant (accounted_init heap) fun _ _ h hstep => accounted_of_next h hstep.1 hstep.2
  exact haccounted.noOrphan hrest

end Supervised

namespace Sample

open Supervised

/-- The pulse monitor finds the client dead. -/
def death : List Event := [.check false, .check true, .check false, .check false]

/-- The collector cleans up after its only thread, with a block for one untune message. -/
def collect (untune : ReqPtr) : List Event :=
  [.clean none, .clean none, .clean none, .clean none, .clean (some (untune, -1)), .clean none,
    .clean none]

/-- The request is in the table when its client dies. -/
def settled : List Event :=
  (worker 1 (tune 1) 8 ++ drain 1 3).map .serve ++ death ++ collect 2 ++ (drain 2 3).map .serve

/-- The worker of the request is about to enqueue it when the untune message overtakes it. -/
def overtaken : List Event :=
  (worker 1 (tune 1) 7).map .serve ++ death ++ collect 2 ++
    (drain 2 1 ++ .work 1 answer :: drain 1 3).map .serve

/-- A server of which nobody is a client. -/
def supervised : Supervised := .init fun _ => message .REQ_PROP_GET 0 0 0

end Sample

namespace Supervised

theorem noOrphan_sample :
    (machine Sample.env 2).Along (fun s => s.AtRest → s.NoOrphan) Sample.supervised Sample.settled :=
  noOrphan_along_run (by decide) (by decide)

/-- The untune message of the collector is dropped, since its request is not in the table yet.  Then
the request is inserted, for a client that nobody knows any more; and nothing is left to do. -/
theorem request_orphaned :
    (machine Sample.env 2).Run Sample.supervised Sample.overtaken ∧
      ((machine Sample.env 2).exec Sample.supervised Sample.overtaken).AtRest ∧
      ((machine Sample.env 2).exec Sample.supervised Sample.overtaken).server.Quiescent ∧
      ((machine Sample.env 2).exec Sample.supervised Sample.overtaken).pulse = .idle ∧
      ¬ ((machine Sample.env 2).exec Sample.supervised Sample.overtaken).NoOrphan := by
  refine ⟨by decide, ⟨by decide, by decide⟩, by decide, by decide, fun h => ?_⟩
  obtain ⟨req, hreq, h⟩ := h 1 _ rfl
  obtain rfl : 1 = req := Option.some.inj hreq
  revert h
  decide

end Supervised

end ResourceTuner
