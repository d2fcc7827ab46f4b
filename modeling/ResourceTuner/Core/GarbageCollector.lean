import ResourceTuner.Core.RequestManager

/-!
# Cleaning up after dead clients

`ClientGarbageCollector.cpp`.  The threads of a dead client wait in a queue.  Every time its timer goes
off the collector takes a batch of them, deletes their entries in the client tables and untunes the
requests whose handles the entries held.

* **`performCleanup`** — one batch;
* **`taken`** — how many threads its loop takes, the bound being read anew in every round;
* **`Batch`**, **`batch_iff`** — what a batch should do, and when it does it;
* **`Drained`**, **`drained_iff`** — when the queue is empty after as many batches as it has room for.
-/

namespace ResourceTuner

/-- What a clean-up reads and does not change: the active requests, the configuration, and the answer
to every `MPLACED(Request)`, which is the duration the new block comes with or `none` where it
throws. -/
structure CleanupContext where
  manager : RequestManager
  heap : Heap
  mCleanupBatchSize : BitVec 32
  blocks : Nat → Option Int

/-- The queue of the collector, the client tables, and the messages handed to the request queue. -/
structure ClientGarbageCollector where
  mGcQueue : List Int
  clients : ClientDataManager
  queued : List Request
  asked : Nat

namespace ClientGarbageCollector

/-- `addAndWakeup` of the request queue. -/
def addAndWakeup (s : ClientGarbageCollector) (request : Request) : ClientGarbageCollector :=
  if request.getPriority < SERVER_CLEANUP_TRIGGER_PRIORITY then s
  else { s with queued := s.queued ++ [request] }

/-- The untune request for a request, in a block that came with a duration. -/
def untuneRequest (request : Request) (duration : Int) : Request :=
  { request.populateUntuneRequest duration with
    toMessage := (request.populateUntuneRequest duration).toMessage.setPriority REQ_PRIORITY_HIGH }

/-- The body of the loop over the handles. -/
def untuneHandle (env : CleanupContext) (s : ClientGarbageCollector) (handle : Int) :
    ClientGarbageCollector :=
  match (env.manager.getRequestFromMap handle).1 with
  | none => s
  | some request =>
    match env.blocks s.asked with
    | none => { s with asked := s.asked + 1 }
    | some duration =>
      ({ s with asked := s.asked + 1 }).addAndWakeup (untuneRequest (env.heap request) duration)

/-- The body of the loop over the threads, `none` where it dereferences a null pointer.  The entry is
deleted before the handles are looked at. -/
def cleanupClient (env : CleanupContext) (s : ClientGarbageCollector) (clientTID : Int) :
    Option ClientGarbageCollector :=
  let lookup := s.clients.getRequestsByClientID clientTID
  match lookup.1 with
  | none => none
  | some clientHandles =>
    (lookup.2.deleteClientTID clientTID).map fun clients =>
      clientHandles.elems.foldl (untuneHandle env) { s with clients := clients }

/-- The loop: the queue that is left, and the rounds so far.  The bound is computed from the queue
that is left. -/
def cleanupLoop (env : CleanupContext) :
    List Int → Nat → ClientGarbageCollector → Option ClientGarbageCollector
  | [], _, s => some { s with mGcQueue := [] }
  | clientTID :: rest, count, s =>
    if count < min ((rest.length + 1) % 2 ^ 32) env.mCleanupBatchSize.toNat then
      (s.cleanupClient env clientTID).bind (cleanupLoop env rest (count + 1))
    else some { s with mGcQueue := clientTID :: rest }

/-- `performCleanup`. -/
def performCleanup (env : CleanupContext) (s : ClientGarbageCollector) :
    Option ClientGarbageCollector :=
  cleanupLoop env s.mGcQueue 0 s

/-- A number of batches. -/
def cleanups (env : CleanupContext) : Nat → ClientGarbageCollector → Option ClientGarbageCollector
  | 0, s => some s
  | n + 1, s => (s.performCleanup env).bind (cleanups env n)

/-! ## How many threads a batch takes -/

/-- The threads that the loop takes from a queue of a length, after some rounds. -/
def taken (batch : Nat) : Nat → Nat → Nat
  | 0, _ => 0
  | length + 1, count =>
    if count < min ((length + 1) % 2 ^ 32) batch then taken batch length (count + 1) + 1 else 0

section Taken

variable {batch length count : Nat}

/-- No more threads are taken than wait. -/
theorem taken_le_length : taken batch length count ≤ length := by
  induction length generalizing count with
  | zero => exact Nat.le_refl 0
  | succ length ih =>
    unfold taken
    split
    · exact Nat.succ_le_succ ih
    · exact Nat.zero_le _

/-- The loop gets through a batch exactly when its guard holds in every round of it. -/
theorem taken_eq_iff :
    taken batch length count = min length (batch - count) ↔
      ∀ i < min length (batch - count), count + i < (length - i) % 2 ^ 32 := by
  induction length generalizing count with
  | zero => simp [taken]
  | succ length ih =>
    have hrest := @ih (count + 1)
    unfold taken
    split
    · rename_i hguard
      have hmin : min (length + 1) (batch - count) = min length (batch - (count + 1)) + 1 := by
        omega
      rw [hmin, Nat.add_right_cancel_iff, hrest]
      constructor
      · intro h i hi
        cases i with
        | zero => exact Nat.lt_of_lt_of_le hguard (Nat.min_le_left _ _)
        | succ i =>
          have hi' := h i (by omega)
          rwa [Nat.add_sub_add_right, show count + (i + 1) = count + 1 + i by omega]
      · intro h i hi
        have hi' := h (i + 1) (by omega)
        rwa [Nat.add_sub_add_right, show count + (i + 1) = count + 1 + i by omega] at hi'
    · rename_i hguard
      constructor
      · intro h i hi
        omega
      · intro h
        -- the guard is what the first round needs
        by_contra hne
        have hfirst := h 0 (by omega)
        rw [Nat.add_zero, Nat.sub_zero] at hfirst
        omega

/-- With less than `2^32` threads the loop takes a batch, or the half of the queue. -/
theorem taken_eq_half (hsmall : length < 2 ^ 32) :
    taken batch length count = min (batch - count) ((length + 1 - count) / 2) := by
  induction length generalizing count with
  | zero =>
    unfold taken
    omega
  | succ length ih =>
    have hrest := @ih (count + 1) (by omega)
    have hcast : (length + 1) % 2 ^ 32 = length + 1 := Nat.mod_eq_of_lt hsmall
    unfold taken
    rw [hcast, hrest]
    split <;> omega

/-- A queue of `2^32` threads or more never gets shorter than that. -/
theorem le_length_sub_taken (hlarge : 2 ^ 32 ≤ length) :
    2 ^ 32 ≤ length - taken batch length count := by
  induction length generalizing count with
  | zero => omega
  | succ length ih =>
    unfold taken
    split
    · rename_i hguard
      have hlonger : 2 ^ 32 ≤ length := by
        by_contra hshort
        have heq : length + 1 = 2 ^ 32 := by omega
        rw [heq, Nat.mod_self] at hguard
        omega
      have hrest := @ih (count + 1) hlonger
      omega
    · exact hlarge

/-- The threads that a number of batches take. -/
def takenIn (batch : Nat) : Nat → Nat → Nat
  | _, 0 => 0
  | length, n + 1 =>
    taken batch length 0 + takenIn batch (length - taken batch length 0) n

/-- `⌈length / batch⌉`. -/
def batches (length batch : Nat) : Nat := (length + batch - 1) / batch

/-- Nor are in any number of rounds. -/
theorem takenIn_le {n : Nat} : takenIn batch length n ≤ length := by
  induction n generalizing length with
  | zero => exact Nat.zero_le _
  | succ n ih =>
    have hfirst := @taken_le_length batch length 0
    have hrest := @ih (length - taken batch length 0)
    unfold takenIn
    omega

/-- From a queue of `2 ^ 32` and more the last `2 ^ 32` are never taken: the count is one of 32
bits. -/
theorem takenIn_of_large {n : Nat} (hlarge : 2 ^ 32 ≤ length) :
    takenIn batch length n ≤ length - 2 ^ 32 := by
  induction n generalizing length with
  | zero => exact Nat.zero_le _
  | succ n ih =>
    have hfirst := @le_length_sub_taken batch length 0 hlarge
    have hrest := ih hfirst
    unfold takenIn
    omega

/-- A queue that fits a batch is one batch. -/
theorem batches_one (hpos : 0 < length) (hle : length ≤ batch) : batches length batch = 1 := by
  unfold batches
  rw [Nat.div_eq_iff (by omega)]
  omega

/-- A longer one is one batch more than what is left of it. -/
theorem batches_succ (hbatch : 0 < batch) (hlt : batch < length) :
    batches length batch = batches (length - batch) batch + 1 := by
  unfold batches
  rw [← Nat.add_div_right _ hbatch]
  congr 1
  omega

/-- One by one all are taken. -/
theorem takenIn_one_by_one (hsmall : length < 2 ^ 32) : takenIn 1 length length = length := by
  induction length with
  | zero => rfl
  | succ length ih =>
    have hfirst := @taken_eq_half 1 (length + 1) 0 hsmall
    have hone : taken 1 (length + 1) 0 = 1 := by omega
    unfold takenIn
    rw [hone, Nat.add_sub_cancel, ih (by omega), Nat.add_comm]

/-- In pairs it takes one round more than there are pairs, since the last one is taken alone. -/
theorem takenIn_in_pairs (hsmall : 2 * length + 1 < 2 ^ 32) :
    takenIn 2 (2 * length + 1) (length + 1) = 2 * length + 1 := by
  induction length with
  | zero => decide
  | succ length ih =>
    have hfirst := @taken_eq_half 2 (2 * (length + 1) + 1) 0 hsmall
    have htwo : taken 2 (2 * (length + 1) + 1) 0 = 2 := by omega
    unfold takenIn
    rw [htwo, show 2 * (length + 1) + 1 - 2 = 2 * length + 1 by omega, ih (by omega)]
    omega

/-- From two threads on a batch of more than one leaves something behind, unless it takes an odd
queue in pairs. -/
theorem takenIn_batches_lt (hsmall : length < 2 ^ 32) (hbatch : 2 ≤ batch) (hlength : 2 ≤ length)
    (hodd : ¬ (batch = 2 ∧ length % 2 = 1)) :
    takenIn batch length (batches length batch) < length := by
  induction length using Nat.strong_induction_on with
  | _ length ih =>
    have hfirst := @taken_eq_half batch length 0 hsmall
    by_cases hle : length ≤ batch
    · rw [batches_one (by omega) hle]
      simp only [takenIn]
      omega
    · rw [batches_succ (by omega) (by omega), takenIn]
      by_cases hfull : batch ≤ (length + 1) / 2
      · have hwhole : taken batch length 0 = batch := by omega
        have hrest := ih (length - batch) (by omega) (by omega) (by omega) (by omega)
        rw [hwhole]
        omega
      · -- the half of the queue is taken, and one batch is left for the other half
        have hhalf : taken batch length 0 = (length + 1) / 2 := by omega
        have hrest := @taken_eq_half batch (length / 2) 0 (by omega)
        rw [hhalf, batches_one (by omega) (by omega),
          show length - (length + 1) / 2 = length / 2 by omega]
        simp only [takenIn]
        omega

/-- The queue is taken in as many batches as it has room for. -/
theorem takenIn_batches_iff :
    takenIn batch length (batches length batch) = length ↔
      length = 0 ∨ length < 2 ^ 32 ∧
        (length = 1 ∧ 0 < batch ∨ batch = 1 ∨ batch = 2 ∧ length % 2 = 1) := by
  constructor
  · intro h
    by_contra hno
    have hsmall : length < 2 ^ 32 := by
      by_contra hlarge
      have hle := @takenIn_of_large batch length (batches length batch) (by omega)
      omega
    have hbatch : batch ≠ 0 := by
      rintro rfl
      simp only [batches, Nat.div_zero, takenIn] at h
      omega
    have hlt := @takenIn_batches_lt batch length hsmall (by omega) (by omega) (by omega)
    omega
  · rintro (rfl | ⟨hsmall, ⟨rfl, hbatch⟩ | rfl | ⟨rfl, hodd⟩⟩)
    · exact Nat.le_zero.mp takenIn_le
    · have hfirst := @taken_eq_half batch 1 0 hsmall
      rw [batches_one (by decide) hbatch]
      simp only [takenIn]
      omega
    · have hone : batches length 1 = length := by simp [batches]
      rw [hone]
      exact takenIn_one_by_one hsmall
    · obtain ⟨half, rfl⟩ : ∃ half, length = 2 * half + 1 := ⟨length / 2, by omega⟩
      have hpairs : batches (2 * half + 1) 2 = half + 1 := by
        unfold batches
        omega
      rw [hpairs]
      exact takenIn_in_pairs hsmall

end Taken

/-! ## The threads and their handles -/

/-- The loop over a list of threads. -/
def cleanupAll (env : CleanupContext) :
    List Int → ClientGarbageCollector → Option ClientGarbageCollector
  | [], s => some s
  | clientTID :: rest, s => (s.cleanupClient env clientTID).bind (cleanupAll env rest)

/-- The handles in the entry of a thread. -/
def handlesOf (clients : ClientDataManager) (clientTID : Int) : List Int :=
  ((clients.handles clientTID).map (·.elems)).getD []

/-- Put back the queue that the loop has not come to. -/
def withQueue (queue : List Int) (s : ClientGarbageCollector) : ClientGarbageCollector :=
  { s with mGcQueue := queue }

def withClients (clients : ClientDataManager) (s : ClientGarbageCollector) :
    ClientGarbageCollector :=
  { s with clients := clients }

@[simp] theorem withClients_clients (clients : ClientDataManager) (s : ClientGarbageCollector) :
    (s.withClients clients).clients = clients := rfl

@[simp] theorem withQueue_mGcQueue (queue : List Int) (s : ClientGarbageCollector) :
    (s.withQueue queue).mGcQueue = queue := rfl

section Threads

variable {env : CleanupContext} {s s' : ClientGarbageCollector} {clientTID : Int}
  {tids handles : List Int} {data : ClientTidData}

/-- A thread whose entry is missing, or null, is not survived. -/
theorem cleanupClient_of_none (h : ∀ data, s.clients.mClientTidRepo.lookup clientTID ≠
    some (some data)) : s.cleanupClient env clientTID = none := by
  have hread : (s.clients.getRequestsByClientID clientTID).1 = none := by
    unfold ClientDataManager.getRequestsByClientID UnorderedMap.subscript
    cases hlookup : s.clients.mClientTidRepo.lookup clientTID with
    | none => rfl
    | some entry =>
      cases entry with
      | none => rfl
      | some data => exact absurd hlookup (h data)
  simp only [cleanupClient, hread]

/-- The entry of a thread is deleted and its handles are untuned one by one. -/
theorem cleanupClient_of_lookup
    (h : s.clients.mClientTidRepo.lookup clientTID = some (some data)) :
    s.cleanupClient env clientTID = some (data.mClientHandles.elems.foldl (untuneHandle env)
      (s.withClients { s.clients with
        mClientTidRepo := s.clients.mClientTidRepo.erase clientTID })) := by
  have hhandles : s.clients.handles clientTID = some data.mClientHandles := by
    simp [ClientDataManager.handles, h]
  have hread := ClientDataManager.getRequestsByClientID_of_handles hhandles
  simp [cleanupClient, hread, ClientDataManager.deleteClientTID, ClientDataManager.findTid, h,
    withClients]

/-- Untuning depends on neither the queue of the collector nor the tables, and changes neither. -/
theorem untuneHandle_withQueue (queue : List Int) (s : ClientGarbageCollector) (handle : Int) :
    untuneHandle env (s.withQueue queue) handle = (untuneHandle env s handle).withQueue queue := by
  simp only [untuneHandle, addAndWakeup, withQueue]
  cases (env.manager.getRequestFromMap handle).1 with
  | none => rfl
  | some request =>
    dsimp only
    cases env.blocks s.asked with
    | none => rfl
    | some duration =>
      dsimp only
      split <;> rfl

/-- The untune messages have nothing to do with the tables of the clients. -/
theorem untuneHandle_withClients (clients : ClientDataManager) (s : ClientGarbageCollector)
    (handle : Int) :
    untuneHandle env (s.withClients clients) handle =
      (untuneHandle env s handle).withClients clients := by
  simp only [untuneHandle, addAndWakeup, withClients]
  cases (env.manager.getRequestFromMap handle).1 with
  | none => rfl
  | some request =>
    dsimp only
    cases env.blocks s.asked with
    | none => rfl
    | some duration =>
      dsimp only
      split <;> rfl

/-- Nor with the queue. -/
theorem foldl_untuneHandle_withQueue (queue : List Int) :
    handles.foldl (untuneHandle env) (s.withQueue queue) =
      (handles.foldl (untuneHandle env) s).withQueue queue :=
  List.foldl_hom (withQueue queue) (untuneHandle_withQueue queue)

/-- The same for all the handles of a thread. -/
theorem foldl_untuneHandle_withClients (clients : ClientDataManager) :
    handles.foldl (untuneHandle env) (s.withClients clients) =
      (handles.foldl (untuneHandle env) s).withClients clients :=
  List.foldl_hom (withClients clients) (untuneHandle_withClients clients)

/-- They leave the tables as they are. -/
theorem foldl_untuneHandle_clients :
    (handles.foldl (untuneHandle env) s).clients = s.clients := by
  have hwith := @foldl_untuneHandle_withClients env s handles s.clients
  have hclients := congrArg ClientGarbageCollector.clients hwith
  exact hclients

/-- The tables without the entries of some threads. -/
def without (clients : ClientDataManager) (tids : List Int) : ClientDataManager :=
  { clients with
    mClientTidRepo := tids.foldl (fun repo tid => repo.erase tid) clients.mClientTidRepo }

/-- Deleted threads have no entry, the others have theirs. -/
theorem lookup_without (clients : ClientDataManager) (tids : List Int) (tid : Int) :
    (without clients tids).mClientTidRepo.lookup tid =
      if tid ∈ tids then none else clients.mClientTidRepo.lookup tid := by
  unfold without
  dsimp only
  induction tids generalizing clients with
  | nil => rfl
  | cons first rest ih =>
    rw [List.foldl_cons]
    have hrest := ih { clients with mClientTidRepo := clients.mClientTidRepo.erase first }
    dsimp only at hrest
    rw [hrest]
    by_cases hfirst : tid = first
    · subst hfirst
      simp
    · simp [hfirst, AList.lookup_erase_ne hfirst]

/-- Every thread of the list has an entry. -/
def Listed (clients : ClientDataManager) (tids : List Int) : Prop :=
  ∀ tid ∈ tids, ∃ data, clients.mClientTidRepo.lookup tid = some (some data)

/-- What the loop does to threads that all have an entry, each once. -/
theorem cleanupAll_of_listed (hnodup : tids.Nodup) (hlisted : Listed s.clients tids) :
    cleanupAll env tids s = some ((tids.flatMap (handlesOf s.clients)).foldl (untuneHandle env)
      (s.withClients (without s.clients tids))) := by
  induction tids generalizing s with
  | nil => rfl
  | cons tid rest ih =>
    obtain ⟨hnew, hrest⟩ := List.nodup_cons.mp hnodup
    obtain ⟨data, hlookup⟩ := hlisted tid List.mem_cons_self
    have hkept : ∀ tid' ∈ rest, (s.clients.mClientTidRepo.erase tid).lookup tid' =
        s.clients.mClientTidRepo.lookup tid' := by
      intro tid' hmem
      refine AList.lookup_erase_ne ?_
      rintro rfl
      exact hnew hmem
    -- the round leaves the tables without the entry, and the other entries alone
    rw [cleanupAll, cleanupClient_of_lookup hlookup, Option.bind_some]
    have hlisted' : Listed (data.mClientHandles.elems.foldl (untuneHandle env)
        (s.withClients { s.clients with
          mClientTidRepo := s.clients.mClientTidRepo.erase tid })).clients rest := by
      rw [foldl_untuneHandle_clients]
      intro tid' hmem
      obtain ⟨data', hlookup'⟩ := hlisted tid' (List.mem_cons_of_mem _ hmem)
      exact ⟨data', (hkept tid' hmem).trans hlookup'⟩
    have hhandles : rest.flatMap (handlesOf { s.clients with
        mClientTidRepo := s.clients.mClientTidRepo.erase tid }) =
        rest.flatMap (handlesOf s.clients) := by
      refine List.flatMap_congr fun tid' hmem => ?_
      simp only [handlesOf, ClientDataManager.handles, hkept tid' hmem]
    have hfirst : handlesOf s.clients tid = data.mClientHandles.elems := by
      simp [handlesOf, ClientDataManager.handles, hlookup]
    rw [ih hrest hlisted', foldl_untuneHandle_clients, withClients_clients, hhandles, ← foldl_untuneHandle_withClients,
      List.flatMap_cons, hfirst, List.foldl_append]
    rfl

/-- Nothing else is survived. -/
theorem listed_of_cleanupAll (h : cleanupAll env tids s = some s') :
    tids.Nodup ∧ Listed s.clients tids := by
  induction tids generalizing s with
  | nil => exact ⟨List.nodup_nil, fun _ hmem => absurd hmem List.not_mem_nil⟩
  | cons tid rest ih =>
    rw [cleanupAll] at h
    by_cases hentry : ∃ data, s.clients.mClientTidRepo.lookup tid = some (some data)
    · obtain ⟨data, hlookup⟩ := hentry
      rw [cleanupClient_of_lookup hlookup, Option.bind_some] at h
      obtain ⟨hrest, hlisted⟩ := ih h
      rw [foldl_untuneHandle_clients] at hlisted
      have hnew : tid ∉ rest := by
        intro hmem
        obtain ⟨data', hlookup'⟩ := hlisted tid hmem
        have herased : (s.clients.mClientTidRepo.erase tid).lookup tid = some (some data') := hlookup'
        rw [AList.lookup_erase] at herased
        cases herased
      refine ⟨List.nodup_cons.mpr ⟨hnew, hrest⟩, fun tid' hmem => ?_⟩
      rcases List.mem_cons.mp hmem with rfl | hlater
      · exact ⟨data, hlookup⟩
      · obtain ⟨data', hlookup'⟩ := hlisted tid' hlater
        have hne : tid' ≠ tid := by
          rintro rfl
          exact hnew hlater
        have hkept : (s.clients.mClientTidRepo.erase tid).lookup tid' = some (some data') := hlookup'
        exact ⟨data', by rwa [AList.lookup_erase_ne hne] at hkept⟩
    · rw [cleanupClient_of_none fun data hlookup => hentry ⟨data, hlookup⟩] at h
      cases h

/-! ## Batches -/

/-- A thread is cleaned up whatever else waits. -/
theorem cleanupClient_withQueue (queue : List Int) :
    (s.withQueue queue).cleanupClient env clientTID =
      (s.cleanupClient env clientTID).map (withQueue queue) := by
  by_cases hentry : ∃ data, s.clients.mClientTidRepo.lookup clientTID = some (some data)
  · obtain ⟨data, hlookup⟩ := hentry
    rw [cleanupClient_of_lookup hlookup,
      cleanupClient_of_lookup (show (s.withQueue queue).clients.mClientTidRepo.lookup clientTID = _
        from hlookup)]
    have hfold := @foldl_untuneHandle_withQueue env
      (s.withClients { s.clients with
        mClientTidRepo := s.clients.mClientTidRepo.erase clientTID }) data.mClientHandles.elems queue
    exact congrArg some hfold
  · have hnone := fun data hlookup => hentry ⟨data, hlookup⟩
    have hqueue : (s.withQueue queue).cleanupClient env clientTID = none :=
      cleanupClient_of_none hnone
    rw [hqueue, cleanupClient_of_none hnone]
    rfl

/-- So are any number of them. -/
theorem cleanupAll_withQueue (queue : List Int) :
    cleanupAll env tids (s.withQueue queue) = (cleanupAll env tids s).map (withQueue queue) := by
  induction tids generalizing s with
  | nil => rfl
  | cons tid rest ih =>
    rw [cleanupAll, cleanupAll, cleanupClient_withQueue]
    cases s.cleanupClient env tid with
    | none => rfl
    | some s₁ => exact ih

/-- They are cleaned up one after the other, until the collector crashes. -/
theorem cleanupAll_append (tids more : List Int) :
    cleanupAll env (tids ++ more) s = (cleanupAll env tids s).bind (cleanupAll env more) := by
  induction tids generalizing s with
  | nil => rfl
  | cons tid rest ih =>
    rw [List.cons_append, cleanupAll, cleanupAll]
    cases s.cleanupClient env tid with
    | none => rfl
    | some s₁ => exact ih

/-- The loop takes the first threads of the queue. -/
theorem cleanupLoop_eq (queue : List Int) (count : Nat) :
    cleanupLoop env queue count s =
      (cleanupAll env (queue.take (taken env.mCleanupBatchSize.toNat queue.length count)) s).map
        (withQueue (queue.drop (taken env.mCleanupBatchSize.toNat queue.length count))) := by
  induction queue generalizing count s with
  | nil => rfl
  | cons tid rest ih =>
    rw [cleanupLoop, List.length_cons, taken]
    split
    · rw [List.take_succ_cons, List.drop_succ_cons, cleanupAll]
      cases s.cleanupClient env tid with
      | none => rfl
      | some s₁ => exact ih (count + 1)
    · rfl

/-- **A call of the collector** cleans up the threads its loop comes to, and leaves the others in
the queue. -/
theorem performCleanup_eq :
    s.performCleanup env =
      (cleanupAll env (s.mGcQueue.take (taken env.mCleanupBatchSize.toNat s.mGcQueue.length 0))
        s).map
        (withQueue (s.mGcQueue.drop (taken env.mCleanupBatchSize.toNat s.mGcQueue.length 0))) :=
  cleanupLoop_eq s.mGcQueue 0

/-- A number of batches takes the first threads of the queue. -/
theorem cleanups_eq (n : Nat) :
    s.cleanups env n =
      (cleanupAll env (s.mGcQueue.take (takenIn env.mCleanupBatchSize.toNat s.mGcQueue.length n))
        s).map
        (withQueue (s.mGcQueue.drop (takenIn env.mCleanupBatchSize.toNat s.mGcQueue.length n))) := by
  induction n generalizing s with
  | zero => rfl
  | succ n ih =>
    rw [cleanups, performCleanup_eq, takenIn]
    generalize taken env.mCleanupBatchSize.toNat s.mGcQueue.length 0 = first
    rw [List.take_add, cleanupAll_append, ← List.drop_drop]
    cases cleanupAll env (s.mGcQueue.take first) s with
    | none => rfl
    | some s₁ =>
      -- the next batches start from the queue that the first one has left
      have hrest := @ih (s₁.withQueue (s.mGcQueue.drop first))
      rw [cleanupAll_withQueue] at hrest
      show cleanups env n (s₁.withQueue (s.mGcQueue.drop first)) = _
      rw [hrest, withQueue_mGcQueue, List.length_drop, Option.map_map, Option.bind_some]
      rfl

/-! ## The untune requests -/

/-- The handle is in the map of active requests. -/
def IsActive (env : CleanupContext) (handle : Int) : Prop :=
  handle ∈ env.manager.mActiveRequests

instance (env : CleanupContext) (handle : Int) : Decidable (IsActive env handle) :=
  inferInstanceAs (Decidable (_ ∈ _))

/-- The message untunes the request that is active under the handle. -/
def Untunes (env : CleanupContext) (handle : Int) (message : Request) : Prop :=
  ∃ request status duration, env.manager.mActiveRequests.lookup handle = some (some request, status) ∧
    message = untuneRequest (env.heap request) duration

/-- Every active handle has a request, of a priority that the request queue admits; and the pool has
a block for every untune request. -/
structure Servable (env : CleanupContext) (asked : Nat) (handles : List Int) : Prop where
  requests : ∀ handle ∈ handles, IsActive env handle → ∃ request status,
    env.manager.mActiveRequests.lookup handle = some (some request, status) ∧
      SERVER_CLEANUP_TRIGGER_PRIORITY ≤ (env.heap request).getPriority
  blocks : ∀ i < (handles.filter (IsActive env ·)).length, (env.blocks (asked + i)).isSome

/-- `setPriority` ORs a zero into the word. -/
theorem untuneRequest_getPriority (request : Request) (duration : Int) :
    (untuneRequest request duration).getPriority = request.getPriority := by
  simp [untuneRequest, Request.getPriority, Message.getPriority, Message.setPriority,
    Request.populateUntuneRequest, REQ_PRIORITY_HIGH]

/-- An active handle is untuned, or something is in the way. -/
theorem untuneHandle_of_active {handle : Int} (hactive : IsActive env handle) :
    (∃ request status duration,
      env.manager.mActiveRequests.lookup handle = some (some request, status) ∧
      SERVER_CLEANUP_TRIGGER_PRIORITY ≤ (env.heap request).getPriority ∧
      env.blocks s.asked = some duration ∧
      untuneHandle env s handle = { s with
        queued := s.queued ++ [untuneRequest (env.heap request) duration]
        asked := s.asked + 1 }) ∨
    (untuneHandle env s handle).queued = s.queued ∧
      ¬ ((∃ request status,
        env.manager.mActiveRequests.lookup handle = some (some request, status) ∧
          SERVER_CLEANUP_TRIGGER_PRIORITY ≤ (env.heap request).getPriority) ∧
        (env.blocks s.asked).isSome) := by
  obtain ⟨⟨entry, status⟩, hlookup⟩ :=
    Option.isSome_iff_exists.mp (AList.lookup_isSome.mpr hactive)
  have hinfo : (env.manager.getRequestFromMap handle).1 = entry := by
    simp [RequestManager.getRequestFromMap, hlookup]
  simp only [untuneHandle, hinfo, hlookup]
  cases entry with
  | none =>
    right
    refine ⟨rfl, ?_⟩
    rintro ⟨⟨request, status', heq, -⟩, -⟩
    cases heq
  | some request =>
    cases hblock : env.blocks s.asked with
    | none =>
      right
      refine ⟨rfl, ?_⟩
      rintro ⟨-, hsome⟩
      cases hsome
    | some duration =>
      simp only [addAndWakeup, untuneRequest_getPriority]
      split
      · right
        refine ⟨rfl, ?_⟩
        rintro ⟨⟨request', status', heq, hpriority⟩, -⟩
        obtain rfl := Option.some.inj (Prod.mk.inj (Option.some.inj heq)).1
        omega
      · left
        exact ⟨request, status, duration, rfl, by omega, rfl, rfl⟩

/-- A handle without an active request needs no message. -/
theorem untuneHandle_of_not_active {handle : Int} (hactive : ¬ IsActive env handle) :
    untuneHandle env s handle = s := by
  have hlookup : env.manager.mActiveRequests.lookup handle = none := AList.lookup_eq_none.mpr hactive
  have hinfo : (env.manager.getRequestFromMap handle).1 = none := by
    simp [RequestManager.getRequestFromMap, hlookup]
  simp only [untuneHandle, hinfo]

/-- The handles that need a message, one by one. -/
theorem filter_of_active {handle : Int} (hactive : IsActive env handle) :
    (handle :: handles).filter (IsActive env ·) = handle :: handles.filter (IsActive env ·) :=
  List.filter_cons_of_pos (by simpa using hactive)

theorem filter_of_not_active {handle : Int} (hactive : ¬ IsActive env handle) :
    (handle :: handles).filter (IsActive env ·) = handles.filter (IsActive env ·) :=
  List.filter_cons_of_neg (by simpa using hactive)

/-- The first active handle takes the first block. -/
theorem servable_cons {handle : Int} {asked : Nat} (hactive : IsActive env handle) :
    Servable env asked (handle :: handles) ↔
      ((∃ request status,
        env.manager.mActiveRequests.lookup handle = some (some request, status) ∧
          SERVER_CLEANUP_TRIGGER_PRIORITY ≤ (env.heap request).getPriority) ∧
        (env.blocks asked).isSome) ∧ Servable env (asked + 1) handles := by
  constructor
  · rintro ⟨hrequests, hblocks⟩
    rw [filter_of_active hactive, List.length_cons] at hblocks
    refine ⟨⟨hrequests handle List.mem_cons_self hactive, hblocks 0 (Nat.succ_pos _)⟩,
      fun handle' hmem => hrequests handle' (List.mem_cons_of_mem _ hmem), fun i hi => ?_⟩
    have hblock := hblocks (i + 1) (Nat.succ_lt_succ hi)
    rwa [show asked + 1 + i = asked + (i + 1) by omega]
  · rintro ⟨⟨hrequest, hblock⟩, hrequests, hblocks⟩
    refine ⟨fun handle' hmem hactive' => ?_, ?_⟩
    · rcases List.mem_cons.mp hmem with rfl | hmem
      · exact hrequest
      · exact hrequests handle' hmem hactive'
    · rw [filter_of_active hactive, List.length_cons]
      intro i hi
      cases i with
      | zero => exact hblock
      | succ i =>
        rw [show asked + (i + 1) = asked + 1 + i by omega]
        exact hblocks i (Nat.lt_of_succ_lt_succ hi)

/-- A handle that needs none needs no block. -/
theorem servable_cons_of_not_active {handle : Int} {asked : Nat}
    (hactive : ¬ IsActive env handle) :
    Servable env asked (handle :: handles) ↔ Servable env asked handles := by
  constructor
  · rintro ⟨hrequests, hblocks⟩
    rw [filter_of_not_active hactive] at hblocks
    exact ⟨fun handle' hmem => hrequests handle' (List.mem_cons_of_mem _ hmem), hblocks⟩
  · rintro ⟨hrequests, hblocks⟩
    refine ⟨fun handle' hmem hactive' => ?_, by rwa [filter_of_not_active hactive]⟩
    rcases List.mem_cons.mp hmem with rfl | hmem
    · exact absurd hactive' hactive
    · exact hrequests handle' hmem hactive'

/-- The messages that the loop over the handles sends: one for every active handle exactly when all
of them can be served. -/
theorem untuneHandles_spec (handles : List Int) :
    ∃ new, (handles.foldl (untuneHandle env) s).queued = s.queued ++ new ∧
      new.length ≤ (handles.filter (IsActive env ·)).length ∧
      (List.Forall₂ (Untunes env) (handles.filter (IsActive env ·)) new ↔
        Servable env s.asked handles) := by
  induction handles generalizing s with
  | nil =>
    refine ⟨[], (List.append_nil _).symm, Nat.le_refl _, iff_of_true .nil ⟨?_, ?_⟩⟩
    · exact fun _ hmem => absurd hmem List.not_mem_nil
    · exact fun _ hi => absurd hi (Nat.not_lt_zero _)
  | cons handle rest ih =>
    rw [List.foldl_cons]
    by_cases hactive : IsActive env handle
    · obtain ⟨new, hnew, hle, hiff⟩ := @ih (untuneHandle env s handle)
      rw [filter_of_active hactive, servable_cons hactive]
      rcases @untuneHandle_of_active env s handle hactive with
        ⟨request, status, duration, hlookup, hpriority, hblock, hstep⟩ | ⟨hqueued, hblocked⟩
      · refine ⟨untuneRequest (env.heap request) duration :: new, ?_, Nat.succ_le_succ hle, ?_⟩
        · rw [hnew, hstep, List.append_assoc, List.singleton_append]
        · have hfirst : Untunes env handle (untuneRequest (env.heap request) duration) :=
            ⟨request, status, duration, hlookup, rfl⟩
          have hsome : (env.blocks s.asked).isSome := by rw [hblock]; rfl
          rw [hstep] at hiff
          rw [List.forall₂_cons, hiff]
          exact and_congr_left fun _ => iff_of_true hfirst
            ⟨⟨request, status, hlookup, hpriority⟩, hsome⟩
      · -- one message is missing, and the rest cannot make up for it
        refine ⟨new, by rw [hnew, hqueued], Nat.le_succ_of_le hle, iff_of_false ?_ ?_⟩
        · intro hall
          have hlength := hall.length_eq
          rw [List.length_cons] at hlength
          omega
        · exact fun hservable => hblocked hservable.1
    · rw [untuneHandle_of_not_active hactive, filter_of_not_active hactive,
        servable_cons_of_not_active hactive]
      exact ih

end Threads

/-! ## The law of the batches -/

/-- The threads of the next batch. -/
def batch (env : CleanupContext) (s : ClientGarbageCollector) : List Int :=
  s.mGcQueue.take (min s.mGcQueue.length env.mCleanupBatchSize.toNat)

/-- The active handles in the entries of the next batch. -/
def activeHandles (env : CleanupContext) (s : ClientGarbageCollector) : List Int :=
  ((s.batch env).flatMap (handlesOf s.clients)).filter (IsActive env ·)

/-- **What a clean-up should do**: take a batch off the queue, delete the entries of its threads and
nothing else, and send one untune request for every active handle of theirs. -/
structure Batch (env : CleanupContext) (s s' : ClientGarbageCollector) : Prop where
  queue : s.mGcQueue = s.batch env ++ s'.mGcQueue
  entries : ∀ tid, s'.clients.mClientTidRepo.lookup tid =
    if tid ∈ s.batch env then none else s.clients.mClientTidRepo.lookup tid
  processes : s'.clients.mClientRepo = s.clients.mClientRepo
  untunes : ∃ new, s'.queued = s.queued ++ new ∧
    List.Forall₂ (Untunes env) (s.activeHandles env) new

/-- The clean-up returns, and does what it should. -/
def CleansBatch (env : CleanupContext) (s : ClientGarbageCollector) : Prop :=
  ∃ s', s.performCleanup env = some s' ∧ Batch env s s'

/-- As many clean-ups as the queue has batches return, and leave it empty. -/
def Drains (env : CleanupContext) (s : ClientGarbageCollector) : Prop :=
  ∃ s', s.cleanups env (batches s.mGcQueue.length env.mCleanupBatchSize.toNat) = some s' ∧
    s'.mGcQueue = []

/-- When a clean-up does what it should. -/
structure Cleanable (env : CleanupContext) (s : ClientGarbageCollector) : Prop where
  /-- the bound of the loop does not fall below the rounds it has made -/
  rounds : ∀ i < min s.mGcQueue.length env.mCleanupBatchSize.toNat,
    i < (s.mGcQueue.length - i) % 2 ^ 32
  nodup : (s.batch env).Nodup
  listed : Listed s.clients (s.batch env)
  servable : Servable env s.asked ((s.batch env).flatMap (handlesOf s.clients))

/-- When the clean-ups empty the queue. -/
structure Drainable (env : CleanupContext) (s : ClientGarbageCollector) : Prop where
  size : s.mGcQueue.length = 0 ∨ s.mGcQueue.length < 2 ^ 32 ∧
    (s.mGcQueue.length = 1 ∧ 0 < env.mCleanupBatchSize.toNat ∨ env.mCleanupBatchSize.toNat = 1 ∨
      env.mCleanupBatchSize.toNat = 2 ∧ s.mGcQueue.length % 2 = 1)
  nodup : s.mGcQueue.Nodup
  listed : Listed s.clients s.mGcQueue

section Laws

variable {env : CleanupContext} {s : ClientGarbageCollector}

/-- With fewer than `2^32` threads in the queue, the rounds need a batch of at most half the queue. -/
theorem rounds_iff (hsmall : s.mGcQueue.length < 2 ^ 32) :
    (∀ i < min s.mGcQueue.length env.mCleanupBatchSize.toNat,
      i < (s.mGcQueue.length - i) % 2 ^ 32) ↔
      2 * min s.mGcQueue.length env.mCleanupBatchSize.toNat ≤ s.mGcQueue.length + 1 := by
  have hiff := @taken_eq_iff env.mCleanupBatchSize.toNat s.mGcQueue.length 0
  have hhalf := @taken_eq_half env.mCleanupBatchSize.toNat s.mGcQueue.length 0 hsmall
  simp only [Nat.zero_add, Nat.sub_zero] at hiff hhalf
  rw [← hiff, hhalf]
  omega

/-- **A batch is cleaned** exactly when its loop comes to all of it, no entry is null and there are
blocks for the messages. -/
theorem cleansBatch_iff : CleansBatch env s ↔ Cleanable env s := by
  have htaken := @taken_eq_iff env.mCleanupBatchSize.toNat s.mGcQueue.length 0
  have hle := @taken_le_length env.mCleanupBatchSize.toNat s.mGcQueue.length 0
  simp only [Nat.zero_add, Nat.sub_zero] at htaken
  constructor
  · rintro ⟨s', hcleanup, hbatch⟩
    rw [performCleanup_eq] at hcleanup
    obtain ⟨s₁, hall, rfl⟩ := Option.map_eq_some_iff.mp hcleanup
    have heq : taken env.mCleanupBatchSize.toNat s.mGcQueue.length 0 =
        min s.mGcQueue.length env.mCleanupBatchSize.toNat := by
      have hlength := congrArg List.length hbatch.queue
      simp only [batch, withQueue_mGcQueue, List.length_append, List.length_take,
        List.length_drop] at hlength
      omega
    rw [heq] at hall
    obtain ⟨hnodup, hlisted⟩ := listed_of_cleanupAll hall
    refine ⟨htaken.mp heq, hnodup, hlisted, ?_⟩
    rw [cleanupAll_of_listed hnodup hlisted] at hall
    obtain rfl := Option.some.inj hall
    obtain ⟨new, hqueued, hall⟩ := hbatch.untunes
    obtain ⟨new', hqueued', -, hiff⟩ := @untuneHandles_spec env
      (s.withClients (without s.clients (s.batch env)))
      ((s.batch env).flatMap (handlesOf s.clients))
    obtain rfl : new' = new := List.append_cancel_left (hqueued'.symm.trans hqueued)
    exact hiff.mp hall
  · rintro ⟨hrounds, hnodup, hlisted, hservable⟩
    have heq := htaken.mpr hrounds
    obtain ⟨new, hqueued, -, hiff⟩ := @untuneHandles_spec env
      (s.withClients (without s.clients (s.batch env)))
      ((s.batch env).flatMap (handlesOf s.clients))
    have hcleanup : s.performCleanup env = some (withQueue
        (s.mGcQueue.drop (min s.mGcQueue.length env.mCleanupBatchSize.toNat))
        (((s.batch env).flatMap (handlesOf s.clients)).foldl (untuneHandle env)
          (s.withClients (without s.clients (s.batch env))))) := by
      rw [performCleanup_eq, heq]
      exact congrArg (Option.map _) (cleanupAll_of_listed hnodup hlisted)
    refine ⟨_, hcleanup, ?_, fun tid => ?_, ?_, new, hqueued, hiff.mpr hservable⟩
    · exact (List.take_append_drop _ _).symm
    · show (ClientGarbageCollector.clients (List.foldl _ _ _)).mClientTidRepo.lookup tid = _
      rw [foldl_untuneHandle_clients]
      exact lookup_without s.clients (s.batch env) tid
    · show (ClientGarbageCollector.clients (List.foldl _ _ _)).mClientRepo = _
      rw [foldl_untuneHandle_clients]
      rfl

/-- **The queue is drained** exactly when every call is. -/
theorem drains_iff : Drains env s ↔ Drainable env s := by
  have hsize := @takenIn_batches_iff env.mCleanupBatchSize.toNat s.mGcQueue.length
  have hle := @takenIn_le env.mCleanupBatchSize.toNat s.mGcQueue.length
    (batches s.mGcQueue.length env.mCleanupBatchSize.toNat)
  constructor
  · rintro ⟨s', hcleanups, hempty⟩
    rw [cleanups_eq] at hcleanups
    obtain ⟨s₁, hall, rfl⟩ := Option.map_eq_some_iff.mp hcleanups
    rw [withQueue_mGcQueue, List.drop_eq_nil_iff] at hempty
    have heq := Nat.le_antisymm hle hempty
    rw [heq, List.take_length] at hall
    obtain ⟨hnodup, hlisted⟩ := listed_of_cleanupAll hall
    exact ⟨hsize.mp heq, hnodup, hlisted⟩
  · rintro ⟨hfits, hnodup, hlisted⟩
    have heq := hsize.mpr hfits
    have hcleanups : s.cleanups env (batches s.mGcQueue.length env.mCleanupBatchSize.toNat) =
        some (withQueue [] ((s.mGcQueue.flatMap (handlesOf s.clients)).foldl (untuneHandle env)
          (s.withClients (without s.clients s.mGcQueue)))) := by
      rw [cleanups_eq, heq, List.take_length, List.drop_length, cleanupAll_of_listed hnodup hlisted]
      rfl
    exact ⟨_, hcleanups, rfl⟩

end Laws

/-- **The law of the collector**: exactly when a clean-up takes its batch, and exactly when the
queue is empty after as many clean-ups as it has batches. -/
theorem collector_law (env : CleanupContext) (s : ClientGarbageCollector) :
    (CleansBatch env s ↔ Cleanable env s) ∧ (Drains env s ↔ Drainable env s) :=
  ⟨cleansBatch_iff, drains_iff⟩

end ClientGarbageCollector

namespace Sample

/-- No request is active, and a batch has room for two threads. -/
def cleanupContext : CleanupContext where
  manager := .new
  heap _ := ⟨⟨.REQ_PROP_GET, 0, 0, 0, 0, 0⟩, none, none⟩
  mCleanupBatchSize := 2
  blocks _ := some 0

/-- The threads 1 and 2 have entries without handles; a queue of threads waits. -/
def collector (queue : List Int) : ClientGarbageCollector where
  mGcQueue := queue
  clients := ⟨∅, AList.insert 1 (some .fresh) (AList.insert 2 (some .fresh) ∅)⟩
  queued := []
  asked := 0

end Sample

/-- Two dead threads are one batch, but only one of them is taken; and a thread whose entry is gone is
not survived. -/
theorem half_a_batch :
    (¬ (Sample.collector [1, 2]).CleansBatch Sample.cleanupContext ∧
      ¬ (Sample.collector [1, 2]).Drains Sample.cleanupContext) ∧
    ¬ (Sample.collector [3]).CleansBatch Sample.cleanupContext := by
  refine ⟨⟨fun h => ?_, fun h => ?_⟩, fun h => ?_⟩
  · exact absurd (ClientGarbageCollector.cleansBatch_iff.mp h).rounds (by decide)
  · exact absurd (ClientGarbageCollector.drains_iff.mp h).size (by decide)
  · obtain ⟨data, hlookup⟩ := (ClientGarbageCollector.cleansBatch_iff.mp h).listed 3 (by decide)
    have hnone : (Sample.collector [3]).clients.mClientTidRepo.lookup 3 = none := by decide
    rw [hnone] at hlookup
    cases hlookup

end ResourceTuner
