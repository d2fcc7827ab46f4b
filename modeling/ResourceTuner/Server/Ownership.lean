import ResourceTuner.Server.Cancellation

/-!
# Whose requests a client can touch

An untune or retune message names a request by its handle, and the handles are consecutive numbers.  No
call on its way compares the client of the message with the client of the request: `clientExists` looks
at the sender alone, `disableRequestProcessing`, `verifyHandle` and `getRequestFromMap` at the handle
alone, and `checkOwnership`, which the header of the request manager declares, is neither defined nor
called.

* **`SentBy`** — the events that belong to the untune and retune messages of one client;
* **`Untouched`** — what all other clients have: requests, status bits, nodes and handles;
* **`SparesOthers`** — where a message is applied, its handle is not another client's;
* **`untouched_of_run`** — under that condition the others keep what they have.
-/

namespace ResourceTuner

namespace Server

variable {env : Env} {s s' s'' : Server} {e : Event} {req r target : ReqPtr} {pid handle : Int}
  {answer : Answer}

/-- The message is an untune or retune message of the client. -/
def Sends (s : Server) (pid : Int) (req : ReqPtr) : Prop :=
  (s.heap req).mReqType ≠ .REQ_RESOURCE_TUNING ∧ (s.heap req).mClientPID = pid

/-- The event belongs to an untune or retune message of the client: it arrives, its worker makes a
call, it is popped, or the consumer works on it. -/
def SentBy (pid : Int) (s : Server) : Event → Prop
  | .receive _ request _ => request.mReqType ≠ .REQ_RESOURCE_TUNING ∧ request.mClientPID = pid
  | .work req _ | .pop req => s.Sends pid req
  | .consume _ => ∀ req ∈ s.consumer.item, s.Sends pid req
  | .timerExpired _ _ _ => False

/-- The handle is the one of an active request of another client. -/
def Foreign (s : Server) (pid handle : Int) : Prop :=
  ∃ info ∈ s.active.lookup handle, ∃ target ∈ info.1, (s.heap target).mClientPID ≠ pid

/-- Where the message takes effect, its handle is not that of another client's request: when its
worker cancels the request, and when the consumer looks the request up and applies the message. -/
def SparesOthers (pid : Int) (s : Server) : Event → Prop
  | .work req _ => s.stage req = .disable → ¬ s.Foreign pid (s.heap req).mHandle
  | .consume _ => ∀ req ∈ s.consumer.item, ¬ s.Foreign pid (s.heap req).mHandle
  | .receive _ _ _ | .pop _ | .timerExpired _ _ _ => True

instance (s : Server) (pid handle : Int) : Decidable (s.Foreign pid handle) :=
  inferInstanceAs (Decidable (∃ info ∈ s.active.lookup handle, ∃ target ∈ info.1,
    (s.heap target).mClientPID ≠ pid))

instance (s : Server) (pid : Int) (req : ReqPtr) : Decidable (s.Sends pid req) :=
  inferInstanceAs (Decidable (_ ∧ _))

instance (s : Server) (e : Event) : Decidable (SentBy pid s e) :=
  match e with
  | .receive _ _ _ => inferInstanceAs (Decidable (_ ∧ _))
  | .work req _ | .pop req => inferInstanceAs (Decidable (s.Sends pid req))
  | .consume _ => inferInstanceAs (Decidable (∀ req ∈ _, s.Sends pid req))
  | .timerExpired _ _ _ => .isFalse not_false

instance (s : Server) (e : Event) : Decidable (SparesOthers pid s e) :=
  match e with
  | .work _ _ => inferInstanceAs (Decidable (_ → _))
  | .consume _ => inferInstanceAs (Decidable (∀ req ∈ _, ¬ s.Foreign pid (s.heap req).mHandle))
  | .receive _ _ _ | .pop _ | .timerExpired _ _ _ => .isTrue trivial

/-- A message of another client. -/
def Other (s : Server) (pid : Int) (req : ReqPtr) : Prop :=
  s.stage req ≠ .unused ∧ (s.heap req).mClientPID ≠ pid

/-- The nodes of the requests of other clients in a list of the table. -/
def otherNodes (s : Server) (pid : Int) (i k : Nat) : List ResIterable :=
  (s.table.mCocoTable i k).filter fun node => (s.heap node.addr.1).mClientPID ≠ pid

/-- The other clients have what they had: their messages are where they were and say what they said,
their active requests have the same status bits, their nodes are linked in the same lists and in the
same order, and their threads hold the same handles. -/
structure Untouched (pid : Int) (s s' : Server) : Prop where
  requests : ∀ req, s.Other pid req → s'.stage req = s.stage req ∧ s'.heap req = s.heap req
  active : ∀ handle req status, s.Other pid req →
    (s'.active.lookup handle = some (some req, status) ↔
      s.active.lookup handle = some (some req, status))
  nodes : ∀ i k, s'.otherNodes pid i k = s.otherNodes pid i k
  handles : ∀ tid handle, s.Foreign pid handle →
    (s'.tracker.clients.Holds tid handle ↔ s.tracker.clients.Holds tid handle)

/-! ## Composition -/

theorem foreign_iff : s.Foreign pid handle ↔
    ∃ req status, s.active.lookup handle = some (some req, status) ∧
      (s.heap req).mClientPID ≠ pid := by
  constructor
  · rintro ⟨⟨entry, status⟩, hlookup, req, rfl, hpid⟩
    exact ⟨req, status, hlookup, hpid⟩
  · rintro ⟨req, status, hlookup, hpid⟩
    exact ⟨_, hlookup, req, rfl, hpid⟩

theorem Untouched.refl (s : Server) : Untouched pid s s :=
  ⟨fun _ _ => ⟨rfl, rfl⟩, fun _ _ _ _ => Iff.rfl, fun _ _ => rfl, fun _ _ _ => Iff.rfl⟩

theorem Untouched.other (h : Untouched pid s s') (hother : s.Other pid req) : s'.Other pid req := by
  obtain ⟨hstage, hheap⟩ := h.requests req hother
  exact ⟨by rw [hstage]; exact hother.1, by rw [hheap]; exact hother.2⟩

theorem Untouched.foreign (hinv : Inv env s) (h : Untouched pid s s')
    (hforeign : s.Foreign pid handle) : s'.Foreign pid handle := by
  obtain ⟨req, status, hlookup, hpid⟩ := foreign_iff.mp hforeign
  obtain ⟨req', hreq', htune, -⟩ := hinv.origin _ _ hlookup
  obtain rfl := Option.some.inj hreq'
  have hother : s.Other pid req := ⟨htune.1, hpid⟩
  exact foreign_iff.mpr ⟨req, status, (h.active _ _ _ hother).mpr hlookup, (h.other hother).2⟩

theorem Untouched.trans (hinv : Inv env s) (h : Untouched pid s s') (h' : Untouched pid s' s'') :
    Untouched pid s s'' where
  requests req hother := by
    obtain ⟨hstage, hheap⟩ := h.requests req hother
    obtain ⟨hstage', hheap'⟩ := h'.requests req (h.other hother)
    exact ⟨hstage'.trans hstage, hheap'.trans hheap⟩
  active handle req status hother :=
    (h'.active handle req status (h.other hother)).trans (h.active handle req status hother)
  nodes i k := (h'.nodes i k).trans (h.nodes i k)
  handles tid handle hforeign :=
    (h'.handles tid handle (h.foreign hinv hforeign)).trans (h.handles tid handle hforeign)

/-! ## One event -/

/-- An event that leaves the table and the tracker alone, and touches one message of the client. -/
theorem untouched_of_moved (hinv : Inv env s) (htracker : s'.tracker = s.tracker)
    (htable : s'.table = s.table)
    (hothers : ∀ r, s.Other pid r → s'.stage r = s.stage r ∧ s'.heap r = s.heap r)
    (hpid : ∀ r, s.stage r ≠ .unused → (s'.heap r).mClientPID = (s.heap r).mClientPID) :
    Untouched pid s s' where
  requests := hothers
  active handle req status _ := by rw [active, active, htracker]
  nodes i k := by
    unfold otherNodes
    rw [htable]
    refine List.filter_congr fun node hnode => ?_
    rw [hpid _ (hinv.links i k node hnode).2.2.1.1]
  handles tid handle _ := by rw [htracker]

theorem Other.ne (hother : s.Other pid r) (hsends : s.Sends pid req) : r ≠ req := by
  rintro rfl
  exact hother.2 hsends.2

/-- Cancelling a request of the client itself, or remembering a handle that is not active. -/
theorem lookup_disable (hspares : ¬ s.Foreign pid handle) {handle' : Int} {status : BitVec 8}
    (hpid : (s.heap r).mClientPID ≠ pid) :
    (RequestManager.disableRequestProcessing s.tracker handle).2.manager.mActiveRequests.lookup
        handle' = some (some r, status) ↔ s.active.lookup handle' = some (some r, status) := by
  unfold RequestManager.disableRequestProcessing
  split
  · simp only [RequestManager.lookup_addStatus]
    split
    · rename_i heq
      subst heq
      -- the entry is the client's own, before and after
      have hno : ∀ status, s.active.lookup handle' ≠ some (some r, status) := fun status h =>
        hspares (foreign_iff.mpr ⟨r, status, h, hpid⟩)
      constructor
      · intro h
        obtain ⟨info, hinfo, heq⟩ := Option.map_eq_some_iff.mp h
        obtain ⟨entry, status'⟩ := info
        obtain rfl : entry = some r := congrArg Prod.fst heq
        exact absurd hinfo (hno status')
      · intro h
        exact absurd h (hno status)
    · rfl
  · rfl

@[simp] theorem proceed_table {b : Bool} {stage : Stage} :
    (s.proceed req b stage).table = s.table := by cases b <;> rfl

theorem untouched_of_work (hinv : Inv env s) (hworking : (s.stage req).working)
    (hsends : s.Sends pid req) (hspares : SparesOthers pid s (.work req answer)) :
    Untouched pid s (s.work env req answer) := by
  obtain ⟨-, -, hframe⟩ := work_frame env s req answer
  have hfits := hinv.fits req (by intro h; rw [h] at hworking; cases hworking)
  have hothers : ∀ r, s.Other pid r → (s.work env req answer).stage r = s.stage r ∧
      (s.work env req answer).heap r = s.heap r := fun r hr => hframe r (hr.ne hsends)
  cases hstage : s.stage req with
  | unused | queued | held | live | freed | lost =>
    rw [hstage] at hworking
    cases hworking
  | globalRateLimit | createClient | verify | shouldBeAdded | add =>
    rw [hstage] at hfits
    exact absurd (by simpa [Stage.fits] using hfits) hsends.1
  | clientCheck | rateLimit | verifyHandle | enqueue =>
    refine untouched_of_moved hinv ?_ ?_ hothers fun r _ => ?_
    all_goals
      simp only [work, hstage, addAndWakeup]
      repeat' split
      all_goals first
        | rfl
        | simp [proceed, cleanUpRequest, goto]
          split <;> rfl
  | disable =>
    refine ⟨hothers, fun handle r status hr => ?_, fun i k => ?_, fun tid handle _ => ?_⟩
    · rw [active]
      simp only [work, hstage, proceed_tracker]
      exact lookup_disable (hspares hstage) hr.2
    · simp only [otherNodes, work, hstage, proceed_table, proceed_heap]
    · simp only [work, hstage, proceed_tracker, RequestManager.disableRequestProcessing]
      split <;> rfl

/-- The request a message of the client is applied to is the client's own. -/
theorem SparesOthers.own (hinv : Inv env s) (hspares : SparesOthers pid s (.consume answer))
    (hitem : s.consumer.item = some req) (htune : s.IsTune target)
    (htracked : (s.stage target).tracked)
    (hhandle : (s.heap target).mHandle = (s.heap req).mHandle) :
    (s.heap target).mClientPID = pid := by
  obtain ⟨status, hlookup, -⟩ := hinv.entry target htune htracked
  rw [hhandle] at hlookup
  by_contra hpid
  exact hspares req hitem (foreign_iff.mpr ⟨target, status, hlookup, hpid⟩)

theorem holds_deleteRequestByClientId_of_ne {clients : ClientDataManager} {tid tid' handle' : Int}
    (hne : handle' ≠ handle) :
    (clients.deleteRequestByClientId tid handle).Holds tid' handle' ↔
      clients.Holds tid' handle' := by
  refine ⟨fun h => (ClientDataManager.holds_of_deleteRequestByClientId h).1, ?_⟩
  rintro ⟨set, hset, hmem⟩
  cases hs : clients.handles tid with
  | none =>
    refine ⟨set, ?_, hmem⟩
    rw [ClientDataManager.deleteRequestByClientId_of_none hs]
    exact hset
  | some set' =>
    by_cases htid : tid' = tid
    · subst htid
      obtain rfl := Option.some.inj (hs.symm.trans hset)
      refine ⟨set'.erase handle, ?_, UnorderedSet.mem_erase.mpr ⟨hne, hmem⟩⟩
      rw [ClientDataManager.handles_deleteRequestByClientId hs, if_pos rfl]
    · exact ⟨set, by rw [ClientDataManager.handles_deleteRequestByClientId hs, if_neg htid, hset],
        hmem⟩

/-- The consumer applies a message of the client to a request of its own. -/
theorem untouched_of_consume (hinv : Inv env s)
    (hsent : SentBy pid s (.consume answer)) (hspares : SparesOthers pid s (.consume answer)) :
    Untouched pid s (s.consume env answer) := by
  have hok := hinv.consumer
  have hpid : ∀ r, ((s.consume env answer).heap r).mClientPID = (s.heap r).mClientPID := by
    intro r
    obtain ⟨duration, timer, hretimed⟩ := (consume_message answer hinv r).1
    rw [hretimed]
  -- a message of the client that is freed
  have hfreed : ∀ {req : ReqPtr}, s.consumer.item = some req → ∀ r, s.Other pid r →
      Function.update s.stage req .freed r = s.stage r := fun hitem r hr =>
    Function.update_of_ne (hr.ne (hsent _ hitem)) _ _
  cases hconsumer : s.consumer with
  | idle | crashed =>
    have hnext : s.consume env answer = s := by simp only [consume, hconsumer]
    rw [hnext]
    exact .refl s
  | status req | mark req | insert req | discard req =>
    -- no tune request is a message of the client
    simp only [ConsumerOk, hconsumer] at hok
    exact absurd hok.2 (hsent req (by rw [hconsumer]; rfl)).1
  | find req =>
    have hdone := hfreed (show s.consumer.item = some req by rw [hconsumer]; rfl)
    refine untouched_of_moved hinv ?_ ?_ (fun r hr => ?_) fun r _ => hpid r
    all_goals
      simp only [consume, hconsumer]
      repeat' split
      all_goals first
        | rfl
        | exact ⟨hdone r hr, rfl⟩
        | exact ⟨rfl, rfl⟩
  | update req target status =>
    have hitem : s.consumer.item = some req := by rw [hconsumer]; rfl
    have hdone := hfreed hitem
    simp only [ConsumerOk, hconsumer] at hok
    obtain ⟨-, htune, htracked, -, hhandle, -⟩ := hok
    have hown := hspares.own hinv hitem htune htracked hhandle
    have hretimed : ∀ request r, s.Other pid r →
        Function.update s.heap target request r = s.heap r := by
      intro request r hr
      refine Function.update_of_ne ?_ _ _
      rintro rfl
      exact hr.2 hown
    refine untouched_of_moved hinv ?_ ?_ (fun r hr => ?_) fun r _ => hpid r
    all_goals
      simp only [consume, hconsumer]
      repeat' split
      all_goals first
        | rfl
        | exact ⟨hdone r hr, hretimed _ r hr⟩
        | exact ⟨rfl, rfl⟩
  | remove req target =>
    have hitem : s.consumer.item = some req := by rw [hconsumer]; rfl
    simp only [ConsumerOk, hconsumer] at hok
    obtain ⟨-, htune, hlive, hhandle⟩ := hok
    have hown := hspares.own hinv hitem htune (by rw [hlive]; rfl) hhandle
    simp only [consume, hconsumer]
    refine ⟨fun r _ => ⟨rfl, rfl⟩, fun handle r status _ => Iff.rfl, fun i k => ?_,
      fun tid handle _ => Iff.rfl⟩
    refine CocoTable.filter_removeRequest fun node hnode => ?_
    have hhome := hinv.owned target htune.1 node hnode
    simp [turn, hhome, hown]
  | untrack req target =>
    have hitem : s.consumer.item = some req := by rw [hconsumer]; rfl
    simp only [ConsumerOk, hconsumer] at hok
    obtain ⟨-, htune, hlive, hhandle⟩ := hok
    have hown := hspares.own hinv hitem htune (by rw [hlive]; rfl) hhandle
    obtain ⟨status, hentry, -⟩ := hinv.entry target htune (by rw [hlive]; rfl)
    simp only [consume, hconsumer]
    refine ⟨fun r hr => ⟨?_, rfl⟩, fun handle r status' hr => ?_, fun i k => rfl,
      fun tid handle hforeign => ?_⟩
    · have hne : r ≠ target := by
        rintro rfl
        exact hr.2 hown
      exact (Function.update_of_ne hne _ _).trans (hfreed hitem r hr)
    · show (RequestManager.removeRequest _ _ _).manager.mActiveRequests.lookup _ = _ ↔ _
      rw [RequestManager.lookup_removeRequest]
      split
      · rename_i heq
        -- the entry that goes is the client's own
        rw [heq, hentry]
        constructor
        · intro h
          cases h
        · intro h
          simp only [Option.some.injEq, Prod.mk.injEq] at h
          rw [h.1] at hown
          exact absurd hown hr.2
      · rfl
    · have hne : handle ≠ (s.heap target).mHandle := by
        rintro rfl
        obtain ⟨r, status', hlookup, hother⟩ := foreign_iff.mp hforeign
        rw [hentry] at hlookup
        simp only [Option.some.injEq, Prod.mk.injEq] at hlookup
        rw [hlookup.1] at hown
        exact hother hown
      exact holds_deleteRequestByClientId_of_ne hne

theorem untouched_of_next (hinv : Inv env s) (henabled : s.Enabled e) (hsent : SentBy pid s e)
    (hspares : SparesOthers pid s e) : Untouched pid s (next env s e) := by
  cases e with
  | receive req request isValidated =>
    -- the block of the new message was in nobody's use
    have hne : ∀ r, s.stage r ≠ .unused → r ≠ req := by
      rintro r hused rfl
      exact hused henabled.1
    refine untouched_of_moved hinv rfl rfl (fun r hr => ?_) fun r hused => ?_
    · exact ⟨goto_stage_of_ne (hne r hr.1), Function.update_of_ne (hne r hr.1) _ _⟩
    · have hheap : (next env s (.receive req request isValidated)).heap r = s.heap r :=
        Function.update_of_ne (hne r hused) _ _
      rw [hheap]
  | work req answer => exact untouched_of_work hinv henabled hsent hspares
  | pop req =>
    refine untouched_of_moved hinv pop_tracker pop_table (fun r hr => ?_) fun r _ => ?_
    · exact ⟨pop_stage_of_ne (hr.ne hsent), congrFun pop_heap r⟩
    · rw [next, pop_heap]
  | consume answer => exact untouched_of_consume hinv hsent hspares
  | timerExpired req target duration => exact hsent.elim

end Server

namespace Sample

/-- A message of a second client. -/
def ofSecond (request : Request) : Request := { request with mClientPID := 2, mClientTID := 2 }

/-- Both clients have a live request. -/
def twoClients : List Server.Event :=
  known ++ worker 2 (ofSecond (tune 2)) 8 ++ drain 2 3

/-- The second client untunes a handle. -/
def secondUntunes (handle : Int) : List Server.Event :=
  worker 3 (ofSecond (message .REQ_RESOURCE_UNTUNING handle 0 1)) 5 ++ drain 3 3

end Sample

open Server

theorem reachable_twoClients :
    Reachable Sample.env ((machine Sample.env).exec Sample.server Sample.twoClients) :=
  ⟨_, Sample.twoClients, by decide +kernel, rfl⟩

end ResourceTuner
