import ResourceTuner.Common.Request
import ResourceTuner.Core.ClientDataManager
import ResourceTuner.Core.ResourceRegistry

/-!
# Active requests

`RequestManager.cpp`: the map from handles to active requests with their processing status, the
cache of handles that were untuned before their tune arrived, and the duplicate check.  The map
holds pointers; `Heap` says which request a pointer points to.  The manager calls into the client
tables, so its operations work on a `Tracker`, both stores together.

The null tests on request arguments are left out: no caller passes a null pointer.
-/

namespace ResourceTuner

/-- The address of a request block. -/
abbrev ReqPtr := Nat

/-- The request at an address. -/
abbrev Heap := ReqPtr → Request

/-! ## Untuned handles -/

/-- `class HandleCache`: the newest `mMaxSize` handles. -/
structure HandleCache where
  mMaxSize : Nat
  mHandleSet : UnorderedSet Int
  mRecencyQueue : List Int

namespace HandleCache

/-- `HandleCache(maxSize = 30)`. -/
def new : HandleCache := ⟨30, .empty, []⟩

/-- `insert`.  A handle that is in the cache already is queued once more. -/
def insert (cache : HandleCache) (handle : Int) : HandleCache :=
  let evicted :=
    if cache.mHandleSet.elems.length ≥ cache.mMaxSize then
      match cache.mRecencyQueue with
      | [] => cache
      | oldestHandle :: rest =>
        { cache with
          mHandleSet := cache.mHandleSet.erase oldestHandle
          mRecencyQueue := rest }
    else cache
  { evicted with
    mHandleSet := evicted.mHandleSet.insert handle
    mRecencyQueue := evicted.mRecencyQueue ++ [handle] }

def isPresent (cache : HandleCache) (handle : Int) : Bool := decide (handle ∈ cache.mHandleSet)

/-- What was inserted last is there. -/
@[simp] theorem isPresent_insert (cache : HandleCache) (handle : Int) :
    (cache.insert handle).isPresent handle = true := by
  simp [isPresent, insert]

end HandleCache

/-! ## The manager -/

/-- `RequestInfo`: the request, possibly null, and its status bits. -/
abbrev RequestInfo := Option ReqPtr × BitVec 8

inductive RequestListType where
  | ACTIVE_TUNE
  | PENDING_TUNE
  deriving DecidableEq, Repr

/-- `class RequestManager`. -/
structure RequestManager where
  mTotalRequestServed : Nat
  mRequestsList : RequestListType → UnorderedSet ReqPtr
  mActiveRequests : UnorderedMap Int RequestInfo
  mUntuneCache : HandleCache

def RequestManager.new : RequestManager := ⟨0, fun _ => .empty, ∅, .new⟩

/-- The manager and the client tables it writes to. -/
structure Tracker where
  manager : RequestManager
  clients : ClientDataManager

/-- `resourceCmpPolicy`.  A node without a resource would be dereferenced by the source. -/
def resourceCmpPolicy (src target : ResIterable) : Bool :=
  match src.mData, target.mData with
  | some res1, some res2 =>
    if res1.mResCode ≠ res2.mResCode then false
    else if res1.mResInfo ≠ res2.mResInfo then false
    else if res1.mOptionalInfo ≠ res2.mOptionalInfo then false
    else if res1.getValuesCount ≠ res2.getValuesCount then false
    else if res1.getValuesCount = 1 then res1.getValueAt 0 == res2.getValueAt 0
    else (List.range res1.getValuesCount.toNat).all fun i => res1.getValueAt i == res2.getValueAt i
  | _, _ => false

namespace RequestManager

/-- `isSane`, for a request that is not null; the count of its resources is never negative. -/
def isSane (request : Request) : Bool :=
  if request.mReqType ≠ .REQ_RESOURCE_TUNING ∧ request.mReqType ≠ .REQ_RESOURCE_RETUNING ∧
      request.mReqType ≠ .REQ_RESOURCE_UNTUNING then false
  else if request.mHandle ≤ 0 ∨ request.getPriority < 0 ∨ request.mClientPID < 0 ∨
      request.mClientTID < 0 then false
  else
    match request.mResourceList with
    | none => false
    | some nodes => nodes.all (·.mData.isSome)

/-- The comparison of two requests in `requestMatch`. -/
def matchesTarget (request targetRequest : Request) : Bool :=
  if request.getResourcesCount ≠ targetRequest.getResourcesCount then false
  else
    match request.mResourceList, targetRequest.mResourceList with
    | some nodes, some targetNodes => DLManager.matchAgainst resourceCmpPolicy nodes targetNodes
    | _, _ => false

/-- The loop of `requestMatch` over the client's handles.  The map is read with `operator[]`. -/
def matchHandles (heap : Heap) (request : Request) :
    List Int → UnorderedMap Int RequestInfo → Bool × UnorderedMap Int RequestInfo
  | [], active => (true, active)
  | handle :: rest, active =>
    let entry := UnorderedMap.subscript active handle (none, 0)
    match entry.1.1 with
    | none => matchHandles heap request rest entry.2
    | some targetRequest =>
      if !matchesTarget request (heap targetRequest) then (false, entry.2)
      else matchHandles heap request rest entry.2

/-- `requestMatch`, with the state its reads leave behind. -/
def requestMatch (heap : Heap) (t : Tracker) (request : Request) : Bool × Tracker :=
  let lookup := t.clients.getRequestsByClientID request.mClientTID
  match lookup.1 with
  | none => (false, { t with clients := lookup.2 })
  | some clientHandles =>
    if clientHandles.elems.length = 0 then (false, { t with clients := lookup.2 })
    else
      let result := matchHandles heap request clientHandles.elems t.manager.mActiveRequests
      (result.1,
        { manager := { t.manager with mActiveRequests := result.2 }, clients := lookup.2 })

def verifyHandle (m : RequestManager) (handle : Int) : Bool := decide (handle ∈ m.mActiveRequests)

/-- `getRequestFromMap`, a null request for an unknown handle. -/
def getRequestFromMap (m : RequestManager) (handle : Int) : RequestInfo :=
  (m.mActiveRequests.lookup handle).getD (none, REQ_CANCELLED)

def getActiveReqeustsCount (m : RequestManager) : Nat := UnorderedMap.size m.mActiveRequests

/-- `shouldRequestBeAdded`; `maxRequests` is `metaConfigs.mMaxConcurrentRequests`. -/
def shouldRequestBeAdded (maxRequests : Nat) (heap : Heap) (t : Tracker) (request : Request) :
    Bool × Tracker :=
  if !isSane request then (false, t)
  else if t.manager.getActiveReqeustsCount ≥ maxRequests then (false, t)
  else
    let duplicateFound := requestMatch heap t request
    (!duplicateFound.1, duplicateFound.2)

/-- `addRequest`.  Note the middle refusal: a handle that is active already is erased. -/
def addRequest (maxRequests : Nat) (heap : Heap) (t : Tracker) (request : ReqPtr) :
    Bool × Tracker :=
  let handle := (heap request).mHandle
  if t.manager.getActiveReqeustsCount ≥ maxRequests then (false, t)
  else if handle ∈ t.manager.mActiveRequests then
    (false, { t with manager := { t.manager with
      mActiveRequests := t.manager.mActiveRequests.erase handle } })
  else if t.manager.mUntuneCache.isPresent handle then (false, t)
  else
    (true,
      { manager := { t.manager with
          mTotalRequestServed := t.manager.mTotalRequestServed + 1
          mActiveRequests := t.manager.mActiveRequests.insert handle (some request, REQ_UNCHANGED) }
        clients := t.clients.insertRequestByClientId (heap request).mClientTID handle })

def removeRequest (heap : Heap) (t : Tracker) (request : ReqPtr) : Tracker where
  manager := { t.manager with
    mActiveRequests := t.manager.mActiveRequests.erase (heap request).mHandle }
  clients := t.clients.deleteRequestByClientId (heap request).mClientTID (heap request).mHandle

/-- OR a bit into the status of an active handle. -/
def addStatus (active : UnorderedMap Int RequestInfo) (handle : Int) (bit : BitVec 8) :
    UnorderedMap Int RequestInfo :=
  match active.lookup handle with
  | none => active
  | some info => active.insert handle (info.1, info.2 ||| bit)

/-- `disableRequestProcessing`: cancel an active request, or remember that its untune came
first. -/
def disableRequestProcessing (t : Tracker) (handle : Int) : Bool × Tracker :=
  if handle ∈ t.manager.mActiveRequests then
    (true, { t with manager := { t.manager with
      mActiveRequests := addStatus t.manager.mActiveRequests handle REQ_CANCELLED } })
  else
    (false, { t with manager := { t.manager with
      mUntuneCache := t.manager.mUntuneCache.insert handle } })

def markRequestAsComplete (t : Tracker) (handle : Int) : Tracker :=
  { t with manager := { t.manager with
    mActiveRequests := addStatus t.manager.mActiveRequests handle REQ_COMPLETED } }

def getRequestProcessingStatus (m : RequestManager) (handle : Int) : BitVec 8 :=
  match m.mActiveRequests.lookup handle with
  | none => REQ_NOT_FOUND
  | some info => info.2

/-! ## Field lemmas -/

section Fields

variable {active : UnorderedMap Int RequestInfo} {handle : Int} {bit : BitVec 8}

/-- A status bit changes the status of its handle only. -/
theorem lookup_addStatus (handle' : Int) :
    (addStatus active handle bit).lookup handle' =
      if handle' = handle then (active.lookup handle).map fun info => (info.1, info.2 ||| bit)
      else active.lookup handle' := by
  unfold addStatus
  by_cases h : handle' = handle
  · subst h
    cases hlookup : active.lookup handle' with
    | none => simp [hlookup]
    | some info => simp [AList.lookup_insert]
  · cases active.lookup handle with
    | none => simp [h]
    | some info => simp [h, AList.lookup_insert_ne h]

@[simp] theorem mem_addStatus {handle' : Int} :
    handle' ∈ addStatus active handle bit ↔ handle' ∈ active := by
  rw [← AList.lookup_isSome, ← AList.lookup_isSome, lookup_addStatus]
  by_cases h : handle' = handle
  · subst h
    simp
  · simp [h]

@[simp] theorem size_addStatus :
    UnorderedMap.size (addStatus active handle bit) = UnorderedMap.size active := by
  unfold addStatus
  cases h : active.lookup handle with
  | none => rfl
  | some info =>
    exact UnorderedMap.size_insert_of_mem _ (AList.lookup_isSome.mp (by rw [h]; rfl))

end Fields

end RequestManager

/-! ## Handles of a client -/

namespace ClientDataManager

variable {m : ClientDataManager} {tid handle : Int}

theorem lookup_of_handles {s : UnorderedSet Int} (h : m.handles tid = some s) :
    ∃ data, m.mClientTidRepo.lookup tid = some (some data) ∧ data.mClientHandles = s := by
  obtain ⟨entry, hentry, hmap⟩ := Option.bind_eq_some_iff.mp h
  obtain ⟨data, rfl, hs⟩ := Option.map_eq_some_iff.mp hmap
  exact ⟨data, hentry, hs⟩

/-- Reading the handles of a known thread changes nothing. -/
theorem getRequestsByClientID_of_handles {s : UnorderedSet Int} (h : m.handles tid = some s) :
    m.getRequestsByClientID tid = (some s, m) := by
  obtain ⟨data, hlookup, rfl⟩ := lookup_of_handles h
  simp [getRequestsByClientID, UnorderedMap.subscript_of_lookup hlookup]

/-- For a known thread the handle is added to that thread's set and nothing else changes. -/
theorem handles_insertRequestByClientId {s : UnorderedSet Int} (h : m.handles tid = some s)
    (tid' : Int) :
    (m.insertRequestByClientId tid handle).handles tid' =
      if tid' = tid then some (s.insert handle) else m.handles tid' := by
  obtain ⟨data, hlookup, rfl⟩ := lookup_of_handles h
  simp only [insertRequestByClientId, UnorderedMap.subscript_of_lookup hlookup, handles]
  by_cases htid : tid' = tid
  · subst htid
    simp [AList.lookup_insert]
  · simp [htid, AList.lookup_insert_ne htid]

theorem handles_deleteRequestByClientId {s : UnorderedSet Int} (h : m.handles tid = some s)
    (tid' : Int) :
    (m.deleteRequestByClientId tid handle).handles tid' =
      if tid' = tid then some (s.erase handle) else m.handles tid' := by
  obtain ⟨data, hlookup, rfl⟩ := lookup_of_handles h
  simp only [deleteRequestByClientId, hlookup, handles]
  by_cases htid : tid' = tid
  · subst htid
    simp [AList.lookup_insert]
  · simp [htid, AList.lookup_insert_ne htid]

/-- Reading an unknown thread's handles leaves a null entry, which has no handles. -/
theorem handles_getRequestsByClientID (m : ClientDataManager) (tid tid' : Int) :
    (m.getRequestsByClientID tid).2.handles tid' = m.handles tid' := by
  unfold getRequestsByClientID handles UnorderedMap.subscript
  cases hlookup : m.mClientTidRepo.lookup tid with
  | some entry => rfl
  | none =>
    by_cases htid : tid' = tid
    · subst htid
      simp [hlookup]
    · simp [AList.lookup_insert_ne htid]

/-- The handle is in the set of the thread. -/
def Holds (m : ClientDataManager) (tid handle : Int) : Prop :=
  ∃ set, m.handles tid = some set ∧ handle ∈ set

variable {tid' handle' : Int}

/-- Adding a handle adds it to no other set; under an unknown thread it is not added at all. -/
theorem holds_of_insertRequestByClientId
    (h : (m.insertRequestByClientId tid handle).Holds tid' handle') :
    m.Holds tid' handle' ∨ tid' = tid ∧ handle' = handle := by
  obtain ⟨set', hset', hmem⟩ := h
  cases hs : m.handles tid with
  | some set =>
    rw [handles_insertRequestByClientId hs] at hset'
    split at hset'
    · rename_i htid
      obtain rfl := Option.some.inj hset'
      rcases UnorderedSet.mem_insert.mp hmem with rfl | hmem
      · exact Or.inr ⟨htid, rfl⟩
      · exact Or.inl ⟨set, htid ▸ hs, hmem⟩
    · exact Or.inl ⟨set', hset', hmem⟩
  | none =>
    refine Or.inl ⟨set', ?_, hmem⟩
    -- whether the thread has a null entry or none at all, a null entry is what is left
    have hread : (UnorderedMap.subscript m.mClientTidRepo tid none).1 = none := by
      unfold UnorderedMap.subscript
      cases hlookup : m.mClientTidRepo.lookup tid with
      | none => rfl
      | some entry => simpa [handles, hlookup] using hs
    have heq : m.insertRequestByClientId tid handle = (m.getRequestsByClientID tid).2 := by
      simp only [insertRequestByClientId, getRequestsByClientID, hread]
    rw [← hset', heq, handles_getRequestsByClientID]

theorem deleteRequestByClientId_of_none (h : m.handles tid = none) :
    m.deleteRequestByClientId tid handle = m := by
  unfold deleteRequestByClientId
  split
  · rename_i data hlookup
    simp [handles, hlookup] at h
  · rfl

/-- Deleting a handle deletes it from the set of the thread. -/
theorem holds_of_deleteRequestByClientId
    (h : (m.deleteRequestByClientId tid handle).Holds tid' handle') :
    m.Holds tid' handle' ∧ ¬ (tid' = tid ∧ handle' = handle) := by
  obtain ⟨set', hset', hmem⟩ := h
  cases hs : m.handles tid with
  | some set =>
    rw [handles_deleteRequestByClientId hs] at hset'
    split at hset'
    · rename_i htid
      obtain rfl := Option.some.inj hset'
      obtain ⟨hne, hmem⟩ := UnorderedSet.mem_erase.mp hmem
      exact ⟨⟨set, htid ▸ hs, hmem⟩, fun heq => hne heq.2⟩
    · rename_i htid
      exact ⟨⟨set', hset', hmem⟩, fun heq => htid heq.1⟩
  | none =>
    rw [deleteRequestByClientId_of_none hs] at hset'
    refine ⟨⟨set', hset', hmem⟩, ?_⟩
    rintro ⟨rfl, -⟩
    rw [hs] at hset'
    cases hset'

end ClientDataManager

namespace RequestManager

variable {maxRequests : Nat} {heap : Heap} {t : Tracker} {request : ReqPtr}

/-- An accepted request was not active and not untuned before, and is now the entry of its
handle. -/
theorem addRequest_of_true (h : (addRequest maxRequests heap t request).1 = true) :
    (heap request).mHandle ∉ t.manager.mActiveRequests ∧
      t.manager.mUntuneCache.isPresent (heap request).mHandle = false ∧
      (addRequest maxRequests heap t request).2.manager.mUntuneCache = t.manager.mUntuneCache ∧
      (addRequest maxRequests heap t request).2.manager.mActiveRequests =
        t.manager.mActiveRequests.insert (heap request).mHandle (some request, REQ_UNCHANGED) ∧
      (addRequest maxRequests heap t request).2.clients =
        t.clients.insertRequestByClientId (heap request).mClientTID (heap request).mHandle := by
  unfold addRequest at h ⊢
  by_cases hcap : t.manager.getActiveReqeustsCount ≥ maxRequests
  · simp [hcap] at h
  by_cases hactive : (heap request).mHandle ∈ t.manager.mActiveRequests
  · simp [hcap, hactive] at h
  cases hcache : t.manager.mUntuneCache.isPresent (heap request).mHandle with
  | true => simp [hcap, hactive, hcache] at h
  | false => simp [hcap, hactive, hcache]

theorem lookup_removeRequest (handle : Int) :
    (removeRequest heap t request).manager.mActiveRequests.lookup handle =
      if handle = (heap request).mHandle then none else t.manager.mActiveRequests.lookup handle := by
  simp only [removeRequest]
  split
  · rename_i h
    rw [h]
    exact AList.lookup_erase _ _
  · rename_i h
    exact AList.lookup_erase_ne h

end RequestManager

end ResourceTuner
