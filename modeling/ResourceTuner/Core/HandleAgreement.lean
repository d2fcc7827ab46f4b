import ResourceTuner.Core.DuplicateDetection

/-!
# The request map and the handle sets agree

The same fact is kept twice: the map of active requests says which handle belongs to which
request, and every client thread has the set of its handles.  The two are written in separate
calls.  This module follows the manager's five operations through call sequences of any length.

* **`Agrees`** — the two stores agree, the map is within its cap and holds no null request;
* **`StepOk`** — the two ways a call can break the agreement do not occur;
* **`noneOrAll_iff_of_agrees`** — what the agreement makes of the duplicate check;
* **`agrees_step`**, **`agrees_exec`** — one call, and a sequence;
* **`agreement_of_run`** — from the start, with the refusals of `addRequest`.

`addRequest` erases the map entry of a handle that is already active and leaves the set alone;
`removeRequest` erases it and looks for the handle in the set of its argument's thread only.
-/

namespace ResourceTuner

namespace RequestManager

/-- The operations of the manager. -/
inductive Call where
  | addRequest (request : ReqPtr)
  | removeRequest (request : ReqPtr)
  | disableRequestProcessing (handle : Int)
  | markRequestAsComplete (handle : Int)
  | shouldRequestBeAdded (request : ReqPtr)
  deriving DecidableEq, Repr

variable (maxRequests : Nat) (heap : Heap)

def step (t : Tracker) : Call → Tracker
  | .addRequest request => (addRequest maxRequests heap t request).2
  | .removeRequest request => removeRequest heap t request
  | .disableRequestProcessing handle => (disableRequestProcessing t handle).2
  | .markRequestAsComplete handle => markRequestAsComplete t handle
  | .shouldRequestBeAdded request => (shouldRequestBeAdded maxRequests heap t (heap request)).2

/-- The state after a sequence of calls. -/
def exec (t : Tracker) (calls : List Call) : Tracker := calls.foldl (step maxRequests heap) t

@[simp] theorem exec_append_singleton (t : Tracker) (calls : List Call) (call : Call) :
    exec maxRequests heap t (calls ++ [call]) =
      step maxRequests heap (exec maxRequests heap t calls) call := by
  simp [exec]

/-- The thread of the request has an entry. -/
def OfExistingClient (clients : ClientDataManager) : Call → Prop
  | .addRequest request => (clients.handles (heap request).mClientTID).isSome
  | .removeRequest request => (clients.handles (heap request).mClientTID).isSome
  | .shouldRequestBeAdded request => (clients.handles (heap request).mClientTID).isSome
  | .disableRequestProcessing _ => True
  | .markRequestAsComplete _ => True

/-- The map and the handle sets agree. -/
structure Agrees (t : Tracker) : Prop where
  handles : ∀ tid handle, (∃ s, t.clients.handles tid = some s ∧ handle ∈ s) ↔
    ∃ request status, t.manager.mActiveRequests.lookup handle = some (some request, status) ∧
      (heap request).mClientTID = tid
  size_le : UnorderedMap.size t.manager.mActiveRequests ≤ maxRequests
  nonnull : ∀ handle status, t.manager.mActiveRequests.lookup handle ≠ some (none, status)

/-- Below the cap `addRequest` is not given an active handle, and `removeRequest` is not given the
handle of another thread's request. -/
def StepOk (t : Tracker) : Call → Prop
  | .addRequest request => t.manager.getActiveReqeustsCount < maxRequests →
      (heap request).mHandle ∉ t.manager.mActiveRequests
  | .removeRequest request => ∀ active status,
      t.manager.mActiveRequests.lookup (heap request).mHandle = some (some active, status) →
        (heap active).mClientTID = (heap request).mClientTID
  | _ => True

/-! ## One call -/

section Step

variable {maxRequests heap} {t : Tracker}

/-- No call takes a client's entry away. -/
theorem isSome_handles_step {call : Call} (hclient : OfExistingClient heap t.clients call)
    {tid : Int} (h : (t.clients.handles tid).isSome) :
    ((step maxRequests heap t call).clients.handles tid).isSome := by
  cases call with
  | addRequest request =>
    obtain ⟨s, hs⟩ := Option.isSome_iff_exists.mp hclient
    simp only [step, addRequest]
    split
    · exact h
    split
    · exact h
    split
    · exact h
    · rw [ClientDataManager.handles_insertRequestByClientId hs]
      split
      · rfl
      · exact h
  | removeRequest request =>
    obtain ⟨s, hs⟩ := Option.isSome_iff_exists.mp hclient
    simp only [step, removeRequest]
    rw [ClientDataManager.handles_deleteRequestByClientId hs]
    split
    · rfl
    · exact h
  | disableRequestProcessing handle =>
    simp only [step, disableRequestProcessing]
    split <;> exact h
  | markRequestAsComplete handle => exact h
  | shouldRequestBeAdded request =>
    obtain ⟨s, hs⟩ := Option.isSome_iff_exists.mp hclient
    have hread := ClientDataManager.getRequestsByClientID_of_handles hs
    simp only [step, shouldRequestBeAdded, requestMatch, hread]
    split
    · exact h
    split
    · exact h
    split <;> exact h

/-- Under the agreement the duplicate check finds every handle it looks for, and changes
nothing. -/
theorem shouldRequestBeAdded_of_agrees (hagrees : Agrees maxRequests heap t) {request : Request}
    (hclient : (t.clients.handles request.mClientTID).isSome) :
    (shouldRequestBeAdded maxRequests heap t request).2 = t := by
  unfold shouldRequestBeAdded
  split
  · rfl
  rename_i hsane
  split
  · rfl
  obtain ⟨s, hs⟩ := Option.isSome_iff_exists.mp hclient
  refine (requestMatch_spec (by simpa using hsane)).2.mpr ⟨?_, ?_⟩
  · obtain ⟨data, hlookup, -⟩ := ClientDataManager.lookup_of_handles hs
    exact AList.lookup_isSome.mp (by rw [hlookup]; rfl)
  · intro before handle after h hstale
    have hmem : handle ∈ clientHandles t request := by
      rw [h]
      simp
    obtain ⟨ptr, status, hlookup, -⟩ :=
      (hagrees.handles _ handle).mp (mem_clientHandles_iff.mp hmem)
    exact absurd (AList.lookup_isSome.mp (by rw [hlookup]; rfl)) hstale

/-- In an agreeing state the handles of a client name its active requests. -/
theorem Agrees.named_iff_ofClient (hagrees : Agrees maxRequests heap t) {request : Request}
    {target : ReqPtr} : Named t request target ↔ OfClient heap t request target := by
  constructor
  · rintro ⟨handle, hmem, status, hlookup⟩
    obtain ⟨s, hs, hin⟩ := mem_clientHandles_iff.mp hmem
    obtain ⟨target', status', hactive, htid⟩ := (hagrees.handles _ handle).mp ⟨s, hs, hin⟩
    cases hlookup.symm.trans hactive
    exact ⟨handle, status, hlookup, htid⟩
  · rintro ⟨handle, status, hlookup, htid⟩
    obtain ⟨s, hs, hin⟩ := (hagrees.handles _ handle).mpr ⟨target, status, hlookup, htid⟩
    exact ⟨handle, mem_clientHandles_iff.mpr ⟨s, hs, hin⟩, status, hlookup⟩

/-- In an agreeing state of requests with lists, the condition of the duplicate check is that none or all
of the requests that the client's handles name equal the new one. -/
theorem noneOrAll_iff_of_agrees (hagrees : Agrees maxRequests heap t) {request : Request}
    (hlists : ∀ target, Named t request target → (heap target).mResourceList.isSome) :
    NoneOrAll heap t request ↔
      (∀ target, Named t request target → ¬ SameResources request (heap target)) ∨
        ∀ target, Named t request target → SameResources request (heap target) := by
  constructor
  · rintro (⟨habsent, -⟩ | ⟨-, -, hequal⟩)
    · exact Or.inl fun target hnamed => habsent target (hagrees.named_iff_ofClient.mp hnamed)
    · exact Or.inr fun target hnamed => (hequal target hnamed).2
  · -- a handle names an active request, so a client with handles has a request
    have hnames : clientHandles t request ≠ [] → ∃ target, Named t request target := by
      intro hhandles
      obtain ⟨handle, hmem⟩ := List.exists_mem_of_ne_nil _ hhandles
      obtain ⟨s, hs, hin⟩ := mem_clientHandles_iff.mp hmem
      obtain ⟨target, status, hlookup, -⟩ := (hagrees.handles _ handle).mp ⟨s, hs, hin⟩
      exact ⟨target, handle, hmem, status, hlookup⟩
    have habsent : (∀ target, Named t request target → ¬ SameResources request (heap target)) →
        NoneOrAll heap t request := by
      intro hnone
      refine .none (fun target hclient => hnone target (hagrees.named_iff_ofClient.mpr hclient))
        fun hhandles => ?_
      obtain ⟨target, hnamed⟩ := hnames hhandles
      exact ⟨target, hnamed, fun hequals => hnone target hnamed hequals.2⟩
    rintro (hnone | hall)
    · exact habsent hnone
    · by_cases hhandles : clientHandles t request = []
      · refine habsent fun target ⟨handle, hmem, _⟩ => ?_
        rw [hhandles] at hmem
        cases hmem
      · obtain ⟨target, hnamed⟩ := hnames hhandles
        exact .all ⟨target, hagrees.named_iff_ofClient.mp hnamed, hall target hnamed⟩ hhandles
          fun other hother => ⟨hlists other hother, hall other hother⟩

/-- A change of status bits keeps the agreement. -/
theorem agrees_addStatus (hagrees : Agrees maxRequests heap t) (handle : Int) (bit : BitVec 8) :
    Agrees maxRequests heap { t with manager := { t.manager with
      mActiveRequests := addStatus t.manager.mActiveRequests handle bit } } where
  handles := by
    intro tid handle'
    rw [hagrees.handles tid handle']
    simp only [lookup_addStatus]
    by_cases h : handle' = handle
    · subst h
      simp only [if_true]
      constructor
      · rintro ⟨request, status, hlookup, htid⟩
        exact ⟨request, status ||| bit, by rw [hlookup]; rfl, htid⟩
      · rintro ⟨request, status, hlookup, htid⟩
        obtain ⟨⟨entry, status'⟩, hinfo, heq⟩ := Option.map_eq_some_iff.mp hlookup
        obtain ⟨rfl, -⟩ := Prod.mk.inj heq
        exact ⟨request, status', hinfo, htid⟩
    · simp only [if_neg h]
  size_le := by
    simp only [size_addStatus]
    exact hagrees.size_le
  nonnull := by
    intro handle' status h
    rw [lookup_addStatus] at h
    split at h
    · obtain ⟨⟨entry, status'⟩, hinfo, heq⟩ := Option.map_eq_some_iff.mp h
      obtain ⟨rfl, -⟩ := Prod.mk.inj heq
      exact hagrees.nonnull handle status' hinfo
    · exact hagrees.nonnull handle' status h

/-- Adding a request under a handle that is not active. -/
theorem agrees_add (hagrees : Agrees maxRequests heap t) {request : ReqPtr}
    (hclient : (t.clients.handles (heap request).mClientTID).isSome)
    (hcap : t.manager.getActiveReqeustsCount < maxRequests)
    (hfresh : (heap request).mHandle ∉ t.manager.mActiveRequests) (served : Nat) :
    Agrees maxRequests heap
      { manager := { t.manager with
          mTotalRequestServed := served
          mActiveRequests := t.manager.mActiveRequests.insert (heap request).mHandle
            (some request, REQ_UNCHANGED) }
        clients := t.clients.insertRequestByClientId (heap request).mClientTID
          (heap request).mHandle } where
  handles := by
    obtain ⟨s, hs⟩ := Option.isSome_iff_exists.mp hclient
    intro tid handle
    rw [ClientDataManager.handles_insertRequestByClientId hs]
    by_cases hhandle : handle = (heap request).mHandle
    · -- the new handle: in the set of its thread only
      subst hhandle
      have hnone := AList.lookup_eq_none.mpr hfresh
      by_cases htid : tid = (heap request).mClientTID
      · simp [htid, AList.lookup_insert]
      · have hnotin : ¬ ∃ s, t.clients.handles tid = some s ∧ (heap request).mHandle ∈ s := by
          rw [hagrees.handles, hnone]
          simp
        simp only [if_neg htid, AList.lookup_insert]
        refine iff_of_false hnotin ?_
        rintro ⟨_, _, h, heq⟩
        cases h
        exact htid heq.symm
    · -- every other handle: the set of the thread has one more element, which is not it
      rw [AList.lookup_insert_ne hhandle, ← hagrees.handles tid handle]
      by_cases htid : tid = (heap request).mClientTID
      · subst htid
        simp [hs, hhandle]
      · rw [if_neg htid]
  size_le := by
    simp only [getActiveReqeustsCount] at hcap
    rw [UnorderedMap.size_insert_of_notMem _ hfresh]
    exact hcap
  nonnull := by
    intro handle status h
    by_cases hhandle : handle = (heap request).mHandle
    · rw [hhandle, AList.lookup_insert] at h
      cases h
    · rw [AList.lookup_insert_ne hhandle] at h
      exact hagrees.nonnull handle status h

/-- Removing a request whose handle, if active, belongs to its own thread. -/
theorem agrees_remove (hagrees : Agrees maxRequests heap t) {request : ReqPtr}
    (hclient : (t.clients.handles (heap request).mClientTID).isSome)
    (hown : ∀ active status,
      t.manager.mActiveRequests.lookup (heap request).mHandle = some (some active, status) →
        (heap active).mClientTID = (heap request).mClientTID) :
    Agrees maxRequests heap (removeRequest heap t request) where
  handles := by
    obtain ⟨s, hs⟩ := Option.isSome_iff_exists.mp hclient
    intro tid handle
    simp only [removeRequest]
    rw [ClientDataManager.handles_deleteRequestByClientId hs]
    by_cases hhandle : handle = (heap request).mHandle
    · -- gone from the map, and from the only set it was in
      subst hhandle
      rw [AList.lookup_erase]
      refine iff_of_false ?_ (by simp)
      by_cases htid : tid = (heap request).mClientTID
      · simp [htid]
      · rw [if_neg htid, hagrees.handles]
        rintro ⟨active, status, hlookup, heq⟩
        exact htid (heq ▸ hown active status hlookup)
    · rw [AList.lookup_erase_ne hhandle, ← hagrees.handles tid handle]
      by_cases htid : tid = (heap request).mClientTID
      · subst htid
        simp [hs, hhandle]
      · rw [if_neg htid]
  size_le := (UnorderedMap.size_erase_le _ _).trans hagrees.size_le
  nonnull := by
    intro handle status h
    simp only [removeRequest] at h
    by_cases hhandle : handle = (heap request).mHandle
    · rw [hhandle, AList.lookup_erase] at h
      cases h
    · rw [AList.lookup_erase_ne hhandle] at h
      exact hagrees.nonnull handle status h

/-- A refusal of `addRequest` under the condition changes nothing. -/
theorem addRequest_of_false {request : ReqPtr}
    (hok : StepOk maxRequests heap t (.addRequest request))
    (h : (addRequest maxRequests heap t request).1 = false) :
    (addRequest maxRequests heap t request).2 = t := by
  unfold addRequest at h ⊢
  simp only at h ⊢
  split at h
  · rename_i hcap
    rw [if_pos hcap]
  · rename_i hcap
    rw [if_neg hcap]
    have hfresh := hok (not_le.mp hcap)
    rw [if_neg hfresh] at h ⊢
    split at h
    · rename_i hcached
      rw [if_pos hcached]
    · cases h

/-- **One call keeps the agreement.** -/
theorem agrees_step (hagrees : Agrees maxRequests heap t) {call : Call}
    (hclient : OfExistingClient heap t.clients call) (hok : StepOk maxRequests heap t call) :
    Agrees maxRequests heap (step maxRequests heap t call) := by
  cases call with
  | addRequest request =>
    cases hresult : (addRequest maxRequests heap t request).1 with
    | false =>
      simp only [step]
      rw [addRequest_of_false hok hresult]
      exact hagrees
    | true =>
      simp only [step]
      unfold addRequest at hresult ⊢
      simp only at hresult ⊢
      split at hresult
      · cases hresult
      rename_i hcap
      rw [if_neg hcap]
      have hfresh := hok (not_le.mp hcap)
      rw [if_neg hfresh] at hresult ⊢
      split at hresult
      · cases hresult
      rename_i hcached
      rw [if_neg hcached]
      exact agrees_add hagrees hclient (not_le.mp hcap) hfresh _
  | removeRequest request => exact agrees_remove hagrees hclient hok
  | disableRequestProcessing handle =>
    simp only [step, disableRequestProcessing]
    split
    · exact agrees_addStatus hagrees handle REQ_CANCELLED
    · exact ⟨hagrees.handles, hagrees.size_le, hagrees.nonnull⟩
  | markRequestAsComplete handle => exact agrees_addStatus hagrees handle REQ_COMPLETED
  | shouldRequestBeAdded request =>
    simp only [step]
    rw [shouldRequestBeAdded_of_agrees hagrees hclient]
    exact hagrees

end Step

/-! ## Call sequences -/

/-- Every call of the sequence meets the condition in the state it finds. -/
def StepsOk : Tracker → List Call → Prop
  | _, [] => True
  | t, call :: rest => StepOk maxRequests heap t call ∧ StepsOk (step maxRequests heap t call) rest

/-- Nothing is active and no client has a handle. -/
structure Initial (t : Tracker) : Prop where
  active : t.manager.mActiveRequests = ∅
  handles : ∀ tid s, t.clients.handles tid = some s → s.elems = []

section Run

variable {maxRequests heap} {t : Tracker}

theorem agrees_of_initial (hinit : Initial t) : Agrees maxRequests heap t where
  handles := by
    intro tid handle
    refine iff_of_false ?_ ?_
    · rintro ⟨s, hs, hmem⟩
      have hmem : handle ∈ s.elems := hmem
      rw [hinit.handles tid s hs] at hmem
      cases hmem
    · rintro ⟨request, status, hlookup, -⟩
      rw [hinit.active] at hlookup
      simp at hlookup
  size_le := by
    rw [hinit.active]
    exact Nat.zero_le _
  nonnull := by
    intro handle status h
    rw [hinit.active] at h
    simp at h

theorem ofExistingClient_step {call call' : Call} (hclient : OfExistingClient heap t.clients call)
    (h : OfExistingClient heap t.clients call') :
    OfExistingClient heap (step maxRequests heap t call).clients call' := by
  cases call' with
  | addRequest request => exact isSome_handles_step hclient h
  | removeRequest request => exact isSome_handles_step hclient h
  | shouldRequestBeAdded request => exact isSome_handles_step hclient h
  | disableRequestProcessing handle => trivial
  | markRequestAsComplete handle => trivial

/-- **A sequence of calls keeps the agreement**, and every refusal in it changes nothing. -/
theorem agrees_exec {calls : List Call} (hagrees : Agrees maxRequests heap t)
    (hclients : ∀ call ∈ calls, OfExistingClient heap t.clients call)
    (hok : StepsOk maxRequests heap t calls) :
    Agrees maxRequests heap (exec maxRequests heap t calls) ∧
      ∀ before request after, calls = before ++ .addRequest request :: after →
        (addRequest maxRequests heap (exec maxRequests heap t before) request).1 = false →
        (addRequest maxRequests heap (exec maxRequests heap t before) request).2 =
          exec maxRequests heap t before := by
  induction calls generalizing t with
  | nil =>
    refine ⟨hagrees, ?_⟩
    intro before request after h
    simp at h
  | cons call rest ih =>
    obtain ⟨hcall, hrest⟩ := hok
    have hclient := hclients call List.mem_cons_self
    obtain ⟨hend, hrefused⟩ := ih (agrees_step hagrees hclient hcall)
      (fun call' hmem => ofExistingClient_step hclient (hclients call' (List.mem_cons_of_mem _ hmem)))
      hrest
    refine ⟨hend, ?_⟩
    intro before request after h hfalse
    cases before with
    | nil =>
      obtain ⟨rfl, -⟩ := List.cons.inj h
      exact addRequest_of_false hcall hfalse
    | cons first before =>
      obtain ⟨rfl, htail⟩ := List.cons.inj h
      exact hrefused before request after htail hfalse

end Run

end RequestManager

open RequestManager

/-- **The two stores agree along every run** from an empty manager whose calls are made on
requests of existing clients and meet the condition; and a refused `addRequest` of the run leaves
everything as it was. -/
theorem agreement_of_run {maxRequests : Nat} {heap : Heap} {t : Tracker} {calls : List Call}
    (hinit : Initial t) (hclients : ∀ call ∈ calls, OfExistingClient heap t.clients call)
    (hok : StepsOk maxRequests heap t calls) :
    Agrees maxRequests heap (exec maxRequests heap t calls) ∧
      ∀ before request after, calls = before ++ .addRequest request :: after →
        (addRequest maxRequests heap (exec maxRequests heap t before) request).1 = false →
        (addRequest maxRequests heap (exec maxRequests heap t before) request).2 =
          exec maxRequests heap t before :=
  agrees_exec (agrees_of_initial hinit) hclients hok

namespace Sample

theorem initial_tracker : Initial (tracker []) where
  active := rfl
  handles := by
    intro tid s h
    have hall : ∀ e ∈ (clients .PERMISSION_SYSTEM).mClientTidRepo.entries,
        ∀ data ∈ e.2, data.mClientHandles.elems = [] := by decide
    obtain ⟨data, hlookup, rfl⟩ := ClientDataManager.lookup_of_handles h
    exact hall ⟨tid, some data⟩ (AList.mem_lookup_iff.mp hlookup) data rfl

/-- Thread `1` has an entry. -/
theorem ofExistingClient_tracker {requests : Heap} (h : ∀ ptr, (requests ptr).mClientTID = 1)
    (call : Call) : OfExistingClient requests (tracker []).clients call := by
  have hclient : ((tracker []).clients.handles 1).isSome := by decide
  cases call with
  | addRequest request | removeRequest request | shouldRequestBeAdded request =>
    simpa only [OfExistingClient, h] using hclient
  | disableRequestProcessing handle | markRequestAsComplete handle => trivial

end Sample

/-- Two requests are added, one is cancelled, completed and removed. -/
theorem agreement_sample :
    Agrees 60 Sample.heap (exec 60 Sample.heap (Sample.tracker [])
      [.addRequest 1, .addRequest 2, .shouldRequestBeAdded 3, .disableRequestProcessing 1,
        .markRequestAsComplete 1, .removeRequest 1]) := by
  refine (agreement_of_run Sample.initial_tracker ?_ ?_).1
  · exact fun call _ => Sample.ofExistingClient_tracker (fun _ => rfl) call
  · refine ⟨fun _ => by decide, fun _ => by decide, trivial, trivial, trivial, ?_, trivial⟩
    intro active status h
    have hlookup : (exec 60 Sample.heap (Sample.tracker []) [.addRequest 1, .addRequest 2,
        .shouldRequestBeAdded 3, .disableRequestProcessing 1,
        .markRequestAsComplete 1]).manager.mActiveRequests.lookup 1 =
          some (some 1, REQ_UNCHANGED ||| REQ_CANCELLED ||| REQ_COMPLETED) := by decide
    obtain rfl : active = 1 := by
      cases h.symm.trans hlookup
      rfl
    rfl

/-- **A repeated handle breaks the agreement.**  Two requests of one client carry handle `1`; the
second `addRequest` is refused, and it erases the first request's entry on the way, while the
client's set keeps the handle. -/
theorem agreement_lost :
    Initial (Sample.tracker []) ∧
      (∀ call ∈ ([.addRequest 1, .addRequest 2] : List Call),
        OfExistingClient (fun _ => Sample.heap 1) (Sample.tracker []).clients call) ∧
      (addRequest 60 (fun _ => Sample.heap 1)
        (exec 60 (fun _ => Sample.heap 1) (Sample.tracker []) [.addRequest 1]) 2).1 = false ∧
      1 ∈ (exec 60 (fun _ => Sample.heap 1) (Sample.tracker [])
        [.addRequest 1]).manager.mActiveRequests ∧
      1 ∉ (exec 60 (fun _ => Sample.heap 1) (Sample.tracker [])
        [.addRequest 1, .addRequest 2]).manager.mActiveRequests ∧
      ¬ Agrees 60 (fun _ => Sample.heap 1)
        (exec 60 (fun _ => Sample.heap 1) (Sample.tracker []) [.addRequest 1, .addRequest 2]) := by
  refine ⟨Sample.initial_tracker, ?_, by decide, by decide, by decide, ?_⟩
  · exact fun call _ => Sample.ofExistingClient_tracker (fun _ => rfl) call
  · intro hagrees
    obtain ⟨request, status, hlookup, -⟩ := (hagrees.handles 1 1).mp
      ⟨⟨[1], List.nodup_singleton 1⟩, by decide, by decide⟩
    have hnone : (exec 60 (fun _ => Sample.heap 1) (Sample.tracker [])
        [.addRequest 1, .addRequest 2]).manager.mActiveRequests.lookup 1 = none := by decide
    rw [hnone] at hlookup
    cases hlookup

end ResourceTuner
