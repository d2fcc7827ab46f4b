import ResourceTuner.Core.CocoTableLinks
import ResourceTuner.Core.DuplicateDetection
import ResourceTuner.Server.Server

/-!
# What one event can do

`next` has a branch for every call of every thread.  Seen from the stores there are only a few kinds
of change: a message arrives, a worker moves on or gives up, a tune request is added, and the steps
of the consumer.  `Effect` lists them, and `effect_of_enabled` says that the list is complete in a
state that satisfies `Inv`; every invariant of the server is then one case analysis over `Effect`.

* **`Inv`** — the invariant that holds in every reachable state, whatever the messages;
* **`Quiet`** — a call on the stores that tracks and untracks nothing;
* **`Effect`** — what an event can do;
* **`effect_of_enabled`** — and that it does nothing else.
-/

namespace ResourceTuner

/-- The stages a message of a type can be at. -/
def Stage.fits (type : RequestType) : Stage → Bool
  | .unused => true
  | .globalRateLimit | .createClient | .verify | .shouldBeAdded | .add | .live =>
    type = .REQ_RESOURCE_TUNING
  | .disable => type = .REQ_RESOURCE_UNTUNING
  | .verifyHandle => type = .REQ_RESOURCE_UNTUNING ∨ type = .REQ_RESOURCE_RETUNING
  | _ =>
    type = .REQ_RESOURCE_TUNING ∨ type = .REQ_RESOURCE_RETUNING ∨ type = .REQ_RESOURCE_UNTUNING

/-- The stages at which a tune request is in the map of active requests. -/
def Stage.tracked : Stage → Bool
  | .enqueue | .queued | .held | .live | .lost => true
  | _ => false

/-- The stages between the arrival of a message and its end at which the consumer does not touch
it. -/
def Stage.moving : Stage → Bool
  | .unused | .held | .live | .freed => false
  | _ => true

namespace Server

/-- A message that has arrived and is a tune request. -/
def IsTune (s : Server) (req : ReqPtr) : Prop :=
  s.stage req ≠ .unused ∧ (s.heap req).mReqType = .REQ_RESOURCE_TUNING

/-! ## The invariant -/

/-- What the consumer knows about the messages it works on. -/
def ConsumerOk (s : Server) : Prop :=
  match s.consumer with
  | .idle => True
  | .status req | .mark req | .insert req | .discard req => s.IsTune req
  | .find req | .crashed req => (s.heap req).mReqType ≠ .REQ_RESOURCE_TUNING
  | .update req target status =>
    (s.heap req).mReqType = .REQ_RESOURCE_RETUNING ∧ s.IsTune target ∧ (s.stage target).tracked ∧
      s.stage target ≠ .held ∧ (s.heap target).mHandle = (s.heap req).mHandle ∧
      (s.stage target = .live ↔ hasBit status REQ_COMPLETED)
  | .remove req target | .untrack req target =>
    (s.heap req).mReqType = .REQ_RESOURCE_UNTUNING ∧ s.IsTune target ∧ s.stage target = .live ∧
      (s.heap target).mHandle = (s.heap req).mHandle

/-- The status bits of an active request: completed from the moment it is marked. -/
structure StatusOk (s : Server) (req : ReqPtr) (status : BitVec 8) : Prop where
  completed : s.stage req = .live ∨ s.consumer = .insert req → hasBit status REQ_COMPLETED
  inserted : hasBit status REQ_COMPLETED →
    s.stage req = .live ∨ s.consumer = .insert req ∨ s.consumer = .discard req
  found : ¬ hasBit status REQ_NOT_FOUND

/-- The invariant of every reachable state. -/
structure Inv (env : Env) (s : Server) : Prop where
  received : ∀ req, s.stage req = .unused ↔ req ∉ s.received
  fits : ∀ req, s.stage req ≠ .unused → (s.stage req).fits (s.heap req).mReqType
  unique : ∀ req req', s.IsTune req → s.IsTune req' →
    (s.heap req).mHandle = (s.heap req').mHandle → req = req'
  owned : ∀ req, s.stage req ≠ .unused → ∀ node ∈ (s.heap req).nodes, node.addr.1 = req
  item : ∀ req, s.stage req = .held ↔ s.consumer.item = some req
  consumer : s.ConsumerOk
  -- the map holds the tracked tune requests, each under its handle
  origin : ∀ handle info, s.active.lookup handle = some info → ∃ req, info.1 = some req ∧
    s.IsTune req ∧ (s.stage req).tracked ∧ (s.heap req).mHandle = handle
  entry : ∀ req, s.IsTune req → (s.stage req).tracked → ∃ status,
    s.active.lookup (s.heap req).mHandle = some (some req, status) ∧ s.StatusOk req status
  -- a thread's set holds handles of its own active requests
  handles : ∀ tid handle, s.tracker.clients.Holds tid handle → ∃ req status,
    s.active.lookup handle = some (some req, status) ∧ (s.heap req).mClientTID = tid
  cleaned : ∀ req, (s.cleaned.map Prod.fst).count req = if s.stage req = .freed then 1 else 0
  -- a linked node is at home, and its request came as far as the table
  links : ∀ i k, ∀ node ∈ s.table.mCocoTable i k, node ∈ (s.heap node.addr.1).nodes ∧
    CocoTable.home env (s.heap node.addr.1).getPriority node = some (i, k) ∧
    s.IsTune node.addr.1 ∧
    (s.stage node.addr.1 = .held ∨ s.stage node.addr.1 = .live ∨ s.stage node.addr.1 = .freed)

/-! ## Quiet calls -/

/-- The call adds and removes no active request and no handle of a client; it may cancel. -/
structure Quiet (t t' : Tracker) : Prop where
  lookup : ∀ handle, t'.manager.mActiveRequests.lookup handle =
      t.manager.mActiveRequests.lookup handle ∨
    ∃ info, t.manager.mActiveRequests.lookup handle = some info ∧
      t'.manager.mActiveRequests.lookup handle = some (info.1, info.2 ||| REQ_CANCELLED)
  handles : ∀ tid handle, t'.clients.Holds tid handle → t.clients.Holds tid handle

section Quiet

variable {t : Tracker}

theorem Quiet.of_eq {t' : Tracker}
    (hactive : t'.manager.mActiveRequests = t.manager.mActiveRequests)
    (hhandles : ∀ tid, t'.clients.handles tid = t.clients.handles tid) : Quiet t t' where
  lookup handle := Or.inl (by rw [hactive])
  handles tid handle h := by
    obtain ⟨set, hset, hmem⟩ := h
    exact ⟨set, by rw [← hhandles]; exact hset, hmem⟩

theorem Quiet.refl (t : Tracker) : Quiet t t := .of_eq rfl fun _ => rfl

/-- A new client starts with an empty set. -/
theorem quiet_createNewClient (pid tid : Int) (outcome : ClientDataManager.CreationOutcome) :
    Quiet t { t with clients := (t.clients.createNewClient pid tid outcome).2 } where
  lookup handle := Or.inl rfl
  handles := by
    have hnew : ∀ tid' set', (t.clients.createNewClient pid tid outcome).2.handles tid' =
        some set' → t.clients.handles tid' = some set' ∨ set' = .empty := by
      intro tid' set' h
      have hrepo : (t.clients.createNewClient pid tid outcome).2.mClientTidRepo =
            t.clients.mClientTidRepo ∨
          (t.clients.createNewClient pid tid outcome).2.mClientTidRepo =
            t.clients.mClientTidRepo.insert tid (some .fresh) := by
        unfold ClientDataManager.createNewClient
        split
        · exact Or.inl rfl
        split
        · exact Or.inl rfl
        simp only
        split <;> split <;> exact Or.inr rfl
      unfold ClientDataManager.handles at h ⊢
      rcases hrepo with hrepo | hrepo
      · rw [hrepo] at h
        exact Or.inl h
      · rw [hrepo] at h
        by_cases htid : tid' = tid
        · subst htid
          simp only [AList.lookup_insert, Option.bind_some, Option.map_some,
            Option.some.injEq] at h
          exact Or.inr h.symm
        · rw [AList.lookup_insert_ne htid] at h
          exact Or.inl h
    rintro tid' handle ⟨set', h, hmem⟩
    rcases hnew tid' set' h with hold | rfl
    · exact ⟨set', hold, hmem⟩
    · exact absurd hmem (UnorderedSet.notMem_empty handle)

/-- The duplicate check of a server whose sets name active requests only is quiet. -/
theorem quiet_shouldRequestBeAdded {maxRequests : Nat} {heap : Heap} {request : Request}
    (hactive : ∀ tid handle, t.clients.Holds tid handle → handle ∈ t.manager.mActiveRequests) :
    Quiet t (RequestManager.shouldRequestBeAdded maxRequests heap t request).2 := by
  unfold RequestManager.shouldRequestBeAdded
  split
  · exact .refl t
  split
  · exact .refl t
  simp only [RequestManager.requestMatch]
  have hread := fun tid' => t.clients.handles_getRequestsByClientID request.mClientTID tid'
  split
  · exact .of_eq rfl hread
  rename_i set hset
  split
  · exact .of_eq rfl hread
  refine .of_eq ?_ hread
  have hhandles : t.clients.handles request.mClientTID = some set := by
    unfold ClientDataManager.getRequestsByClientID UnorderedMap.subscript at hset
    unfold ClientDataManager.handles
    cases hlookup : t.clients.mClientTidRepo.lookup request.mClientTID with
    | none => simp [hlookup] at hset
    | some entry => simpa [hlookup] using hset
  refine matchHandles_snd.mpr ?_
  intro before handle after h hstale
  refine absurd (hactive _ handle ⟨set, hhandles, ?_⟩) hstale
  show handle ∈ set.elems
  rw [h]
  simp

/-- Cancelling, or remembering an untuned handle. -/
theorem quiet_disableRequestProcessing (handle : Int) :
    Quiet t (RequestManager.disableRequestProcessing t handle).2 := by
  unfold RequestManager.disableRequestProcessing
  split
  · refine ⟨?_, fun tid handle h => h⟩
    intro handle'
    simp only [RequestManager.lookup_addStatus]
    split
    · rename_i heq
      subst heq
      cases hlookup : t.manager.mActiveRequests.lookup handle' with
      | none => exact Or.inl rfl
      | some info => exact Or.inr ⟨info, rfl, rfl⟩
    · exact Or.inl rfl
  · exact .of_eq rfl fun _ => rfl

end Quiet

/-! ## Effects -/

/-- The same message with the same owner; a rewritten request may differ in all else. -/
structure SameMessage (request request' : Request) : Prop where
  type : request'.mReqType = request.mReqType
  handle : request'.mHandle = request.mHandle
  tid : request'.mClientTID = request.mClientTID
  duration : request'.mDuration = request.mDuration
  addrs : ∀ node' ∈ request'.nodes, ∃ node ∈ request.nodes, node'.addr = node.addr

theorem SameMessage.refl (request : Request) : SameMessage request request :=
  ⟨rfl, rfl, rfl, rfl, fun node h => ⟨node, h, rfl⟩⟩

/-- The same request up to its duration and its timer. -/
def Retimed (request request' : Request) : Prop :=
  ∃ duration timer, request' = { request with mDuration := duration, mTimer := timer }

theorem retimed_of_updateRequest {request request' : Request} {duration : Int}
    {timerBlock : Option Nat} {enqueued b : Bool}
    (h : CocoTable.updateRequest request duration timerBlock enqueued = some (b, request')) :
    Retimed request request' := by
  unfold CocoTable.updateRequest at h
  split at h
  · cases h
    exact ⟨_, _, rfl⟩
  · split at h
    · cases h
    · simp only at h
      split at h
      · cases h
        exact ⟨_, _, rfl⟩
      · cases h
        exact ⟨_, _, rfl⟩

/-- What an event can do to the server. -/
inductive Effect (env : Env) (s : Server) : Event → Server → Prop where
  /-- a message arrives, from a client or from a timer -/
  | arrive {e : Event} {req : ReqPtr} {request : Request} {isValidated : Bool} {stage : Stage}
      (fresh : s.stage req = .unused) (moving : stage.moving) (fits : stage.fits request.mReqType)
      (untracked : request.mReqType = .REQ_RESOURCE_TUNING → stage.tracked = false)
      (owned : ∀ node ∈ request.nodes, node.addr.1 = req)
      (unique : request.mReqType = .REQ_RESOURCE_TUNING → ∀ other ∈ s.received,
        (s.heap other).mReqType = .REQ_RESOURCE_TUNING →
          (s.heap other).mHandle ≠ request.mHandle) :
      Effect env s e ((s.arrive req request isValidated).goto req stage)
  /-- a worker goes on -/
  | move {e : Event} {req : ReqPtr} {request : Request} {tracker : Tracker} {stage : Stage}
      (moving : (s.stage req).moving) (moving' : stage.moving)
      (fits : stage.fits (s.heap req).mReqType)
      (tracked : (s.heap req).mReqType = .REQ_RESOURCE_TUNING →
        stage.tracked = (s.stage req).tracked)
      (same : SameMessage (s.heap req) request) (quiet : Quiet s.tracker tracker) :
      Effect env s e (({ s with
        heap := Function.update s.heap req request
        tracker := tracker }).goto req stage)
  /-- a worker frees a message that is not tracked -/
  | free {e : Event} {req : ReqPtr} {tracker : Tracker} (moving : (s.stage req).moving)
      (untracked : (s.heap req).mReqType = .REQ_RESOURCE_TUNING → (s.stage req).tracked = false)
      (quiet : Quiet s.tracker tracker) :
      Effect env s e (({ s with tracker := tracker }).cleanUpRequest req)
  | add {e : Event} {req : ReqPtr} (stage : s.stage req = .add)
      (added : (RequestManager.addRequest env.metaConfigs.mMaxConcurrentRequests s.heap s.tracker
        req).1) :
      Effect env s e (({ s with
        tracker := (RequestManager.addRequest env.metaConfigs.mMaxConcurrentRequests s.heap
          s.tracker req).2 }).goto req .enqueue)
  /-- the consumer pops a message -/
  | take {e : Event} {req : ReqPtr} {consumer : Consumer} (idle : s.consumer = .idle)
      (queued : s.stage req = .queued)
      (taken : (s.heap req).mReqType = .REQ_RESOURCE_TUNING ∧ consumer = .status req ∨
        (s.heap req).mReqType ≠ .REQ_RESOURCE_TUNING ∧ consumer = .find req) :
      Effect env s e ((s.goto req .held).turn consumer)
  /-- the consumer has looked something up -/
  | turn {e : Event} {consumer : Consumer} (item : consumer.item = s.consumer.item)
      (ok : (s.turn consumer).ConsumerOk)
      (looking : ∀ req, s.consumer ≠ .insert req ∧ s.consumer ≠ .discard req ∧
        consumer ≠ .insert req ∧ ∀ target, consumer ≠ .untrack req target) :
      Effect env s e (s.turn consumer)
  | mark {e : Event} {req : ReqPtr} (marking : s.consumer = .mark req) :
      Effect env s e (({ s with
        tracker := RequestManager.markRequestAsComplete s.tracker (s.heap req).mHandle }).turn
          (.insert req))
  | insert {e : Event} {req : ReqPtr} {table : CocoTable} {request : Request}
      {timerBlock : Option Nat} {enqueued : Bool} (inserting : s.consumer = .insert req)
      (inserted : s.table.insertRequest env (s.heap req) timerBlock enqueued =
        (true, table, request)) (retimed : Retimed (s.heap req) request) :
      Effect env s e (({ s with table := table, heap := Function.update s.heap req request }).goto
        req .live |>.turn .idle)
  | fail {req : ReqPtr} {table : CocoTable} {request : Request} {answer : Answer}
      (inserting : s.consumer = .insert req)
      (failed : s.table.insertRequest env (s.heap req) answer.timerBlock answer.enqueued =
        (false, table, request)) (retimed : Retimed (s.heap req) request) :
      Effect env s (.consume answer)
        (({ s with table := table, heap := Function.update s.heap req request }).turn
          (.discard req))
  | discard {e : Event} {req : ReqPtr} (discarding : s.consumer = .discard req) :
      Effect env s e (({ s with
        tracker := RequestManager.removeRequest s.heap s.tracker req }).cleanUpRequest req
          |>.turn .idle)
  /-- the consumer is done with an untune or retune message -/
  | dismiss {e : Event} {req target : ReqPtr} {request : Request}
      (item : s.consumer.item = some req)
      (type : (s.heap req).mReqType ≠ .REQ_RESOURCE_TUNING)
      (retimed : Retimed (s.heap target) request) :
      Effect env s e (({ s with heap := Function.update s.heap target request }).cleanUpRequest req
        |>.turn .idle)
  | unlink {e : Event} {req target : ReqPtr} (removing : s.consumer = .remove req target) :
      Effect env s e (({ s with table := s.table.removeRequest env (s.heap target) }).turn
        (.untrack req target))
  | untrack {e : Event} {req target : ReqPtr} (untracking : s.consumer = .untrack req target) :
      Effect env s e (({ s with
        tracker := RequestManager.removeRequest s.heap s.tracker target }).cleanUpRequest req
          |>.cleanUpRequest target |>.turn .idle)
  | stutter {e : Event} : Effect env s e s

/-! ## Nothing else happens -/

theorem addr_of_verifyNodes {env : Env} {permissions : Permissions} {nodes nodes' : List ResIterable}
    (h : verifyNodes env permissions nodes = some nodes') :
    ∀ node' ∈ nodes', ∃ node ∈ nodes, node'.addr = node.addr := by
  induction nodes generalizing nodes' with
  | nil =>
    obtain rfl := Option.some.inj h
    intro node' hmem
    cases hmem
  | cons first rest ih =>
    unfold verifyNodes at h
    cases hdata : first.mData with
    | none => simp [hdata] at h
    | some r =>
      cases hr : verifyResource env permissions r with
      | none => simp [hdata, hr] at h
      | some r' =>
        simp only [hdata, hr] at h
        obtain ⟨rest', hrest, rfl⟩ := Option.map_eq_some_iff.mp h
        intro node' hmem
        rcases List.mem_cons.mp hmem with rfl | hmem
        · exact ⟨first, List.mem_cons_self, rfl⟩
        · obtain ⟨node, hnode, haddr⟩ := ih hrest node' hmem
          exact ⟨node, List.mem_cons_of_mem _ hnode, haddr⟩

/-- The verifier rewrites resources and priority, and nothing by which a message is known. -/
theorem sameMessage_of_verify {env : Env} {clients : ClientDataManager} {request request' : Request}
    (h : VerifyIncomingRequest env clients request = some request') :
    SameMessage request request' := by
  unfold VerifyIncomingRequest at h
  split at h
  · cases h
  simp only at h
  split at h
  · cases h
  cases hclient : clients.getClientLevelByClientID request.mClientPID with
  | none => simp [hclient] at h
  | some permissions =>
    simp only [hclient] at h
    split at h
    · cases h
    split at h
    · cases h
    cases hlist : request.mResourceList with
    | none => simp [hlist] at h
    | some nodes =>
      simp only [hlist] at h
      obtain ⟨nodes', hnodes, rfl⟩ := Option.map_eq_some_iff.mp h
      refine ⟨rfl, rfl, rfl, rfl, ?_⟩
      simpa [Request.nodes, hlist] using addr_of_verifyNodes hnodes

section Inversion

variable {env : Env} {s : Server} {e : Event} {req : ReqPtr} {answer : Answer}

/-- A worker that changes neither the heap nor what is tracked. -/
theorem Effect.goto {tracker : Tracker} {stage : Stage} (moving : (s.stage req).moving)
    (moving' : stage.moving) (fits : stage.fits (s.heap req).mReqType)
    (tracked : (s.heap req).mReqType = .REQ_RESOURCE_TUNING →
      stage.tracked = (s.stage req).tracked)
    (quiet : Quiet s.tracker tracker) :
    Effect env s e (({ s with tracker := tracker }).goto req stage) := by
  have h : Effect env s e _ := Effect.move moving moving' fits tracked (.refl (s.heap req)) quiet
  rwa [Function.update_eq_self] at h

/-- A worker that goes on or gives up, before its message is tracked. -/
theorem Effect.proceed {tracker : Tracker} {stage : Stage} (moving : (s.stage req).moving)
    (moving' : stage.moving) (fits : stage.fits (s.heap req).mReqType)
    (untracked : (s.heap req).mReqType = .REQ_RESOURCE_TUNING →
      (s.stage req).tracked = false ∧ stage.tracked = false)
    (quiet : Quiet s.tracker tracker) (b : Bool) :
    Effect env s e (({ s with tracker := tracker }).proceed req b stage) := by
  cases b with
  | true =>
    refine Effect.goto moving moving' fits (fun h => ?_) quiet
    rw [(untracked h).1, (untracked h).2]
  | false => exact Effect.free moving (fun h => (untracked h).1) quiet

theorem Inv.isTune_of_adding (hinv : Inv env s) (hstage : s.stage req = .add) : s.IsTune req := by
  have hfits := hinv.fits req (by rw [hstage]; decide)
  rw [hstage] at hfits
  exact ⟨by rw [hstage]; decide, by simpa [Stage.fits] using hfits⟩

/-- A refused `addRequest` changes nothing, since no other tune request has the handle. -/
theorem addRequest_of_refused (hinv : Inv env s) (hstage : s.stage req = .add) {maxRequests : Nat}
    (h : (RequestManager.addRequest maxRequests s.heap s.tracker req).1 = false) :
    (RequestManager.addRequest maxRequests s.heap s.tracker req).2 = s.tracker := by
  have hnew : (s.heap req).mHandle ∉ s.tracker.manager.mActiveRequests := by
    intro hmem
    obtain ⟨info, hinfo⟩ := Option.isSome_iff_exists.mp (AList.lookup_isSome.mpr hmem)
    obtain ⟨req', -, htune', htracked', hhandle⟩ := hinv.origin _ _ hinfo
    obtain rfl := hinv.unique _ _ htune' (hinv.isTune_of_adding hstage) hhandle
    rw [hstage] at htracked'
    cases htracked'
  unfold RequestManager.addRequest at h ⊢
  simp only [hnew, if_false] at h ⊢
  split
  · rfl
  split
  · rfl
  · rename_i hcap hcache
    simp [hcap, hcache] at h

theorem effect_of_work (hinv : Inv env s) (hworking : (s.stage req).working) :
    Effect env s e (s.work env req answer) := by
  have hfits := hinv.fits req (by intro h; rw [h] at hworking; cases hworking)
  cases hstage : s.stage req with
  | unused | queued | held | live | freed | lost =>
    rw [hstage] at hworking
    cases hworking
  | globalRateLimit =>
    simp only [work, hstage]
    exact Effect.proceed (by rw [hstage]; rfl) rfl (by simp_all [Stage.fits])
      (by simp [hstage, Stage.tracked]) (.refl _) _
  | clientCheck =>
    rw [hstage] at hfits
    simp only [work, hstage]
    split
    · rename_i htype
      refine Effect.goto (by rw [hstage]; rfl) ?_ ?_ ?_ (.refl _)
      · split <;> rfl
      · split <;> simp [htype, Stage.fits]
      · intro _
        split <;> simp [hstage, Stage.tracked]
    · rename_i htype
      exact Effect.proceed (by rw [hstage]; rfl) rfl (by simp [htype, Stage.fits])
        (by simp [htype]) (.refl _) _
    · rename_i htune huntune
      have hfits' : Stage.fits (s.heap req).mReqType .rateLimit := hfits
      exact Effect.proceed (by rw [hstage]; rfl) rfl hfits' (fun h => absurd h htune) (.refl _) _
  | createClient =>
    simp only [work, hstage]
    exact Effect.proceed (by rw [hstage]; rfl) rfl (by simp_all [Stage.fits])
      (by simp [hstage, Stage.tracked]) (quiet_createNewClient _ _ _) _
  | disable =>
    rw [hstage] at hfits
    have htype : (s.heap req).mReqType = .REQ_RESOURCE_UNTUNING := by simpa [Stage.fits] using hfits
    simp only [work, hstage]
    exact Effect.proceed (by rw [hstage]; rfl) rfl (by simp [htype, Stage.fits]) (by simp [htype])
      (quiet_disableRequestProcessing _) _
  | rateLimit =>
    rw [hstage] at hfits
    simp only [work, hstage]
    refine Effect.proceed (by rw [hstage]; rfl) ?_ ?_ ?_ (.refl _) _
    · split <;> rfl
    · simp only [Stage.fits, decide_eq_true_eq] at hfits
      rcases hfits with h | h | h <;> simp [h, Stage.fits]
    · intro htune
      simp [hstage, htune, Stage.tracked]
  | verifyHandle =>
    rw [hstage] at hfits
    simp only [Stage.fits, decide_eq_true_eq] at hfits
    simp only [work, hstage]
    refine Effect.proceed (by rw [hstage]; rfl) rfl ?_ ?_ (.refl _) _
    · rcases hfits with h | h <;> simp [h, Stage.fits]
    · rcases hfits with h | h <;> simp [h]
  | verify =>
    rw [hstage] at hfits
    have htype : (s.heap req).mReqType = .REQ_RESOURCE_TUNING := by simpa [Stage.fits] using hfits
    simp only [work, hstage]
    split
    · exact Effect.goto (by rw [hstage]; rfl) rfl (by simp [htype, Stage.fits])
        (by simp [hstage, Stage.tracked]) (.refl _)
    · split
      · exact Effect.free (by rw [hstage]; rfl) (by simp [hstage, Stage.tracked]) (.refl _)
      · rename_i hverify
        exact Effect.move (by rw [hstage]; rfl) rfl (by simp [htype, Stage.fits])
          (by simp [hstage, Stage.tracked]) (sameMessage_of_verify hverify) (.refl _)
  | shouldBeAdded =>
    have hactive : ∀ tid handle, s.tracker.clients.Holds tid handle →
        handle ∈ s.tracker.manager.mActiveRequests := by
      intro tid handle h
      obtain ⟨req', status, hlookup, -⟩ := hinv.handles tid handle h
      exact UnorderedMap.mem_of_lookup hlookup
    simp only [work, hstage]
    exact Effect.proceed (by rw [hstage]; rfl) rfl (by simp_all [Stage.fits])
      (by simp [hstage, Stage.tracked]) (quiet_shouldRequestBeAdded hactive) _
  | add =>
    simp only [work, hstage]
    cases hadded : (RequestManager.addRequest env.metaConfigs.mMaxConcurrentRequests s.heap
        s.tracker req).1 with
    | true => exact Effect.add hstage hadded
    | false =>
      rw [addRequest_of_refused hinv hstage hadded]
      exact Effect.free (by rw [hstage]; rfl) (by simp [hstage, Stage.tracked]) (.refl _)
  | enqueue =>
    rw [hstage] at hfits
    have hqueued : Stage.fits (s.heap req).mReqType .queued := hfits
    have hlost : Stage.fits (s.heap req).mReqType .lost := hfits
    simp only [work, hstage, addAndWakeup]
    split
    · exact Effect.goto (by rw [hstage]; rfl) rfl hlost (by simp [hstage, Stage.tracked]) (.refl _)
    · exact Effect.goto (by rw [hstage]; rfl) rfl hqueued (by simp [hstage, Stage.tracked]) (.refl _)

/-- The consumer leaves a message without having found anything to change. -/
theorem Effect.drop (item : s.consumer.item = some req)
    (type : (s.heap req).mReqType ≠ .REQ_RESOURCE_TUNING) :
    Effect env s e ((s.cleanUpRequest req).turn .idle) := by
  have h : Effect env s e _ :=
    Effect.dismiss item type (show Retimed (s.heap req) (s.heap req) from ⟨_, _, rfl⟩)
  rwa [Function.update_eq_self] at h

theorem effect_of_find (hinv : Inv env s) (hconsumer : s.consumer = .find req) :
    Effect env s (.consume answer) (s.consume env answer) := by
  have hok := hinv.consumer
  simp only [ConsumerOk, hconsumer] at hok
  have hitem : s.consumer.item = some req := by rw [hconsumer]; rfl
  have hheld := (hinv.item req).mpr hitem
  have hfits := hinv.fits req (by rw [hheld]; decide)
  have hlooking : ∀ r, s.consumer ≠ .insert r ∧ s.consumer ≠ .discard r := by simp [hconsumer]
  cases hlookup : s.tracker.manager.mActiveRequests.lookup (s.heap req).mHandle with
  | none =>
    simp only [consume, hconsumer, RequestManager.getRequestFromMap, hlookup, Option.getD_none]
    exact Effect.drop hitem hok
  | some info =>
    obtain ⟨entry, status⟩ := info
    obtain ⟨target, rfl, htune, htracked, hhandle⟩ := hinv.origin _ _ hlookup
    obtain ⟨status', hentry, hstatus⟩ := hinv.entry target htune htracked
    rw [hhandle] at hentry
    obtain rfl : status = status' := by
      have := hlookup.symm.trans hentry
      simpa using this
    have hne : target ≠ req := by
      rintro rfl
      exact hok htune.2
    have hnotheld : s.stage target ≠ .held := by
      intro h
      have := (hinv.item target).mp h
      rw [hitem] at this
      exact hne (Option.some.inj this).symm
    have hlive : s.stage target = .live ↔ hasBit status REQ_COMPLETED := by
      refine ⟨fun h => hstatus.completed (Or.inl h), fun h => ?_⟩
      rcases hstatus.inserted h with h | h | h
      · exact h
      · rw [hconsumer] at h; cases h
      · rw [hconsumer] at h; cases h
    simp only [consume, hconsumer, RequestManager.getRequestFromMap, hlookup, Option.getD_some,
      if_neg hstatus.found]
    split
    · split
      · exact Effect.drop hitem hok
      · rename_i huntune hcompleted
        refine Effect.turn (by rw [hconsumer]; rfl) ?_ ?_
        · exact ⟨huntune, htune, hlive.mpr (by simpa using hcompleted), hhandle⟩
        · intro r
          exact ⟨(hlooking r).1, (hlooking r).2, by simp, by simp⟩
    · rename_i hretune
      refine Effect.turn (by rw [hconsumer]; rfl) ?_ ?_
      · exact ⟨hretune, htune, htracked, hnotheld, hhandle, hlive⟩
      · intro r
        exact ⟨(hlooking r).1, (hlooking r).2, by simp, by simp⟩
    · -- no message of another type reaches the queue
      rename_i huntune hretune
      rw [hheld] at hfits
      simp only [Stage.fits, decide_eq_true_eq] at hfits
      rcases hfits with h | h | h
      · exact absurd h hok
      · exact absurd h hretune
      · exact absurd h huntune

theorem effect_of_update (hinv : Inv env s) {target : ReqPtr} {status : BitVec 8}
    (hconsumer : s.consumer = .update req target status) :
    Effect env s (.consume answer) (s.consume env answer) := by
  have hok := hinv.consumer
  simp only [ConsumerOk, hconsumer] at hok
  have htype : (s.heap req).mReqType ≠ .REQ_RESOURCE_TUNING := by rw [hok.1]; decide
  have hitem : s.consumer.item = some req := by rw [hconsumer]; rfl
  simp only [consume, hconsumer]
  split
  · exact Effect.dismiss hitem htype ⟨_, (s.heap target).mTimer, rfl⟩
  · split
    · refine Effect.turn (by rw [hconsumer]; rfl) htype ?_
      intro r
      exact ⟨by simp [hconsumer], by simp [hconsumer], by simp, by simp⟩
    · rename_i hupdate
      exact Effect.dismiss hitem htype (retimed_of_updateRequest hupdate)

theorem effect_of_consume (hinv : Inv env s) :
    Effect env s (.consume answer) (s.consume env answer) := by
  have hok := hinv.consumer
  cases hconsumer : s.consumer with
  | idle | crashed req =>
    simp only [consume, hconsumer]
    exact .stutter
  | status req =>
    simp only [ConsumerOk, hconsumer] at hok
    simp only [consume, hconsumer]
    split
    · exact Effect.turn (by rw [hconsumer]; rfl) hok (by simp [hconsumer])
    · exact Effect.turn (by rw [hconsumer]; rfl) hok (by simp [hconsumer])
  | mark req =>
    simp only [consume, hconsumer]
    exact .mark hconsumer
  | insert req =>
    have hretimed : Retimed (s.heap req) (s.table.insertRequest env (s.heap req) answer.timerBlock
        answer.enqueued).2.2 := by
      obtain ⟨timer, htimer⟩ := CocoTable.insertRequest_request
      exact ⟨_, timer, htimer⟩
    simp only [consume, hconsumer]
    split
    · rename_i hinserted
      exact .insert hconsumer (Prod.ext hinserted rfl) hretimed
    · rename_i hfailed
      exact .fail hconsumer (Prod.ext (by simpa using hfailed) rfl) hretimed
  | discard req =>
    simp only [consume, hconsumer]
    exact .discard hconsumer
  | find req => exact effect_of_find hinv hconsumer
  | update req target status => exact effect_of_update hinv hconsumer
  | remove req target =>
    simp only [consume, hconsumer]
    exact .unlink hconsumer
  | untrack req target =>
    simp only [consume, hconsumer]
    exact .untrack hconsumer

theorem effect_of_pop (hinv : Inv env s) (hidle : s.consumer = .idle)
    (hqueued : s.stage req = .queued) : Effect env s e (s.pop req) := by
  have hfits := hinv.fits req (by rw [hqueued]; decide)
  rw [hqueued] at hfits
  unfold pop
  split
  · have hlost : Stage.fits (s.heap req).mReqType .lost := hfits
    exact Effect.goto (by rw [hqueued]; rfl) rfl hlost (by simp [hqueued, Stage.tracked]) (.refl _)
  split
  · rename_i htype
    exact .take hidle hqueued (Or.inl ⟨htype, rfl⟩)
  · rename_i htype
    exact .take hidle hqueued (Or.inr ⟨htype, rfl⟩)

/-- **The list of effects is complete.** -/
theorem effect_of_enabled (hinv : Inv env s) (henabled : s.Enabled e) :
    Effect env s e (next env s e) := by
  cases e with
  | receive req request isValidated =>
    obtain ⟨hfresh, htype, howned, hunique⟩ := henabled
    refine Effect.arrive hfresh ?_ ?_ ?_ howned hunique
    · split <;> rfl
    · split
      · rename_i h
        simp [h, Stage.fits]
      · simpa [Stage.fits] using htype
    · intro h
      simp [h, Stage.tracked]
  | work req answer => exact effect_of_work hinv henabled
  | pop req => exact effect_of_pop hinv henabled.1 henabled.2.1
  | consume answer => exact effect_of_consume hinv
  | timerExpired req target duration =>
    have howned : ∀ node ∈ ((s.heap target).populateUntuneRequest duration).nodes,
        node.addr.1 = req := by
      intro node h
      cases h
    simp only [next, addAndWakeup]
    split
    · exact Effect.arrive henabled.1 rfl rfl (fun h => by cases h) howned (fun h => by cases h)
    · exact Effect.arrive henabled.1 rfl rfl (fun h => by cases h) howned (fun h => by cases h)

end Inversion

end Server

end ResourceTuner
