import ResourceTuner.Core.ClientTables
import ResourceTuner.Core.GarbageCollector
import ResourceTuner.Server.Ownership

/-!
# Requests of dead clients

`PulseMonitor.cpp` and `ClientGarbageCollector.cpp` next to the server.  A client that is found dead
loses its process entry at once; its threads wait in the queue of the collector, which takes their
entries away and untunes the requests they held.  Workers and the consumer go on meanwhile.

* **`Supervised`** — the server with the positions of the two timers' threads;
* **`NoOrphan`** — every active request can still be found by one of them, or is about to be untuned;
* **`Traced`** — the steps that lose no request on the way.

Both timers call their function again when it has returned.  Reading the handles of a thread and copying
them is one call here.
-/

namespace ResourceTuner

/-- The next call of `checkForDeadClients`. -/
inductive PulseMonitor where
  | idle
  /-- the processes it has still to look at -/
  | checking (clientList : List Int)
  /-- the threads of a dead process have been submitted -/
  | deleting (pid : Int) (clientList : List Int)
  deriving DecidableEq, Repr

/-- The next call of `performCleanup`, with the rounds so far. -/
inductive Collection where
  | idle
  | cleaning (count : Nat)
  /-- the handles of a thread have been copied -/
  | deleting (clientTID : Int) (handlesToRemove : List Int) (count : Nat)
  | untuning (handlesToRemove : List Int) (count : Nat)
  /-- the request of a handle has been found -/
  | submitting (handle : Int) (request : ReqPtr) (handlesToRemove : List Int) (count : Nat)
  /-- a null pointer was dereferenced -/
  | crashed
  deriving DecidableEq, Repr

/-- The handles the collector has copied and still has to untune. -/
def Collection.pending : Collection → List Int
  | .untuning handlesToRemove _ => handlesToRemove
  | .submitting handle _ handlesToRemove _ => handle :: handlesToRemove
  | _ => []

/-- The handles the collector has copied from the entry of a thread and will delete with it. -/
def Collection.copied (clientTID : Int) : Collection → List Int
  | .deleting tid handlesToRemove _ => if tid = clientTID then handlesToRemove else []
  | _ => []

/-- The message that the consumer may apply to a request in the table. -/
def Consumer.untuning : Consumer → Option ReqPtr
  | .find req => some req
  | .remove req _ => some req
  | .untrack req _ => some req
  | _ => none

/-- The server, the queue of the collector, and the positions of both threads. -/
structure Supervised where
  server : Server
  mGcQueue : List Int
  pulse : PulseMonitor
  collection : Collection

namespace Supervised

/-- The client tables. -/
def clients (s : Supervised) : ClientDataManager := s.server.tracker.clients

def withClients (s : Supervised) (clients : ClientDataManager) : Supervised :=
  { s with server := { s.server with tracker := { s.server.tracker with clients := clients } } }

/-- A server that has received nothing. -/
def init (heap : Heap) : Supervised := ⟨.init heap, [], .idle, .idle⟩

/-- One call of `checkForDeadClients`; `dead` is what the file system says of the next process. -/
def check (s : Supervised) (dead : Bool) : Supervised :=
  match s.pulse with
  | .idle => { s with pulse := .checking s.clients.getActiveClientList }
  | .checking [] => { s with pulse := .idle }
  | .checking (pid :: clientList) =>
    if dead then
      { s with
        mGcQueue := s.mGcQueue ++ s.clients.getThreadsByClientId pid
        pulse := .deleting pid clientList }
    else { s with pulse := .checking clientList }
  | .deleting pid clientList =>
    { s.withClients (s.clients.deleteClientPID pid) with pulse := .checking clientList }

/-- One call of `performCleanup`; `block` is the block of an untune request with the duration it comes
with, if there is one. -/
def clean (mCleanupBatchSize : BitVec 32) (s : Supervised) (block : Option (ReqPtr × Int)) :
    Supervised :=
  match s.collection with
  | .idle => { s with collection := .cleaning 0 }
  | .cleaning count =>
    match s.mGcQueue with
    | [] => { s with collection := .idle }
    | clientTID :: rest =>
      if count < min ((rest.length + 1) % 2 ^ 32) mCleanupBatchSize.toNat then
        let lookup := s.clients.getRequestsByClientID clientTID
        { s.withClients lookup.2 with
          mGcQueue := rest
          collection :=
            match lookup.1 with
            | none => .crashed
            | some clientHandles => .deleting clientTID clientHandles.elems count }
      else { s with collection := .idle }
  | .deleting clientTID handlesToRemove count =>
    match s.clients.deleteClientTID clientTID with
    | none => { s with collection := .crashed }
    | some clients => { s.withClients clients with collection := .untuning handlesToRemove count }
  | .untuning [] count => { s with collection := .cleaning (count + 1) }
  | .untuning (handle :: handlesToRemove) count =>
    match (s.server.tracker.manager.getRequestFromMap handle).1 with
    | none => { s with collection := .untuning handlesToRemove count }
    | some request => { s with collection := .submitting handle request handlesToRemove count }
  | .submitting _ request handlesToRemove count =>
    match block with
    | none => { s with collection := .untuning handlesToRemove count }
    | some (req, duration) =>
      let untune := ClientGarbageCollector.untuneRequest (s.server.heap request) duration
      { s with
        server := (s.server.arrive req untune true).addAndWakeup req
        collection := .untuning handlesToRemove count }
  | .crashed => s

/-- What a thread does next. -/
inductive Event where
  | serve (e : Server.Event)
  | check (dead : Bool)
  | clean (block : Option (ReqPtr × Int))

def next (env : Env) (mCleanupBatchSize : BitVec 32) (s : Supervised) : Event → Supervised
  | .serve e => { s with server := s.server.next env e }
  | .check dead => s.check dead
  | .clean block => s.clean mCleanupBatchSize block

/-- When an event can happen.  Threads are submitted under the lock that a clean-up holds to its end, and
a new block is not in use. -/
def Enabled (s : Supervised) : Event → Prop
  | .serve e => s.collection ≠ .crashed ∧ s.server.Enabled e
  | .check dead => s.collection ≠ .crashed ∧ (dead → s.collection = .idle)
  | .clean block => s.collection ≠ .crashed ∧ ∀ b ∈ block, s.server.stage b.1 = .unused

instance (s : Supervised) (e : Event) : Decidable (s.Enabled e) :=
  match e with
  | .serve e => inferInstanceAs (Decidable (_ ≠ _ ∧ s.server.Enabled e))
  | .check _ => inferInstanceAs (Decidable (_ ≠ _ ∧ (_ → _)))
  | .clean _ => inferInstanceAs (Decidable (_ ≠ _ ∧ ∀ b ∈ _, _))

/-- The interleavings of all threads. -/
def machine (env : Env) (mCleanupBatchSize : BitVec 32) : Machine Supervised Event :=
  ⟨Enabled, next env mCleanupBatchSize⟩

instance (env : Env) (mCleanupBatchSize : BitVec 32) (s : Supervised) (e : Event) :
    Decidable ((machine env mCleanupBatchSize).Enabled s e) :=
  inferInstanceAs (Decidable (s.Enabled e))

/-! ## Orphans -/

/-- Some process lists the thread. -/
def Listed (m : ClientDataManager) (tid : Int) : Prop := ∃ pid, m.Lists pid tid

/-- An untune message for the handle which is not taken for the clean-up trigger. -/
structure Untunes (message : Request) (handle : Int) : Prop where
  type : message.mReqType = .REQ_RESOURCE_UNTUNING
  handle : message.mHandle = handle
  priority : message.getPriority ≠ SERVER_CLEANUP_TRIGGER_PRIORITY

/-- The consumer has taken the request, and an untune message for it is queued or in the consumer's
hands. -/
def Leaving (s : Server) (handle : Int) (req : ReqPtr) : Prop :=
  (s.stage req = .held ∨ s.stage req = .live) ∧ ∃ untune ∈ s.received,
    Untunes (s.heap untune) handle ∧ (s.stage untune = .queued ∨ s.consumer.untuning = some untune)

/-- Every active handle is in the set of its thread, and the thread is listed under a process or waits
for the collector; or an untune message that will remove the request is on its way. -/
def NoOrphan (s : Supervised) : Prop :=
  ∀ handle info, s.server.active.lookup handle = some info → ∃ req, info.1 = some req ∧
    (s.clients.Holds (s.server.heap req).mClientTID handle ∧
        (Listed s.clients (s.server.heap req).mClientTID ∨
          (s.server.heap req).mClientTID ∈ s.mGcQueue) ∨
      Leaving s.server handle req)

/-- No worker is in the middle of a message, nor the collector in the middle of a batch. -/
structure AtRest (s : Supervised) : Prop where
  workers : ∀ req ∈ s.server.received, (s.server.stage req).working = false
  collection : s.collection = .idle

/-! ## Steps that lose no request -/

/-- All active requests. -/
def EveryActive (s : Supervised) (P : Int → ReqPtr → Prop) : Prop :=
  ∀ handle target status, s.server.active.lookup handle = some (some target, status) →
    P handle target

/-- The collector or the consumer will untune the request whatever becomes of its thread. -/
def Untuned (s : Supervised) (handle : Int) (req : ReqPtr) : Prop :=
  handle ∈ s.collection.pending ∨ Leaving s.server handle req

/-- The thread can be found: it is listed, or it waits, or the handle was copied from its entry. -/
def Found (s : Supervised) (tid handle : Int) : Prop :=
  Listed s.clients tid ∨ tid ∈ s.mGcQueue ∨ handle ∈ s.collection.copied tid

/-- A new client does not replace the entry of a thread that holds requests, and a request is added
under a thread that has an entry and can be found. -/
def WorkTraced (env : Env) (s : Supervised) (req : ReqPtr) (answer : Answer) : Stage → Prop
  | .createClient => answer.creation.tidBlock →
      s.clients.clientExists (s.server.heap req).mClientPID (s.server.heap req).mClientTID = false →
        s.EveryActive fun handle target =>
          s.clients.Holds (s.server.heap req).mClientTID handle → s.Untuned handle target
  | .add =>
      s.server.tracker.manager.getActiveReqeustsCount < env.metaConfigs.mMaxConcurrentRequests →
      s.server.tracker.manager.mUntuneCache.isPresent (s.server.heap req).mHandle = false →
        (s.clients.handles (s.server.heap req).mClientTID).isSome ∧
          (Listed s.clients (s.server.heap req).mClientTID ∨
            (s.server.heap req).mClientTID ∈ s.mGcQueue)
  | _ => True

/-- A process is deleted when its threads that hold requests can still be found. -/
def CheckTraced (s : Supervised) : PulseMonitor → Prop
  | .deleting pid _ => s.EveryActive fun handle target =>
      s.clients.Lists pid (s.server.heap target).mClientTID →
        Listed (s.clients.deleteClientPID pid) (s.server.heap target).mClientTID ∨
          (s.server.heap target).mClientTID ∈ s.mGcQueue ∨
          handle ∈ s.collection.copied (s.server.heap target).mClientTID ∨ s.Untuned handle target
  | _ => True

/-- An entry is deleted when all its handles were copied, and an untune message is made when the
consumer has taken its request, and the message gets a block. -/
def CleanTraced (s : Supervised) (block : Option (ReqPtr × Int)) : Collection → Prop
  | .deleting tid handlesToRemove _ => s.EveryActive fun handle target =>
      s.clients.Holds tid handle → handle ∈ handlesToRemove ∨ s.Untuned handle target
  | .submitting handle target _ _ => handle ∈ s.server.active →
      Leaving s.server handle target ∨
        block.isSome ∧ (s.server.stage target = .held ∨ s.server.stage target = .live)
  | _ => True

/-- The step loses no request.  Requests that will be untuned anyway do not count. -/
def Traced (env : Env) (s : Supervised) : Event → Prop
  | .serve (.work req answer) => s.WorkTraced env req answer (s.server.stage req)
  | .serve _ => True
  | .check _ => s.CheckTraced s.pulse
  | .clean block => s.CleanTraced block s.collection

/-! ### Decidability -/

section Decidability

variable (env : Env) (s : Supervised)

instance (m : ClientDataManager) (tid : Int) : Decidable (Listed m tid) :=
  decidable_of_iff (∃ pid ∈ m.mClientRepo.keys, m.Lists pid tid)
    ⟨fun ⟨pid, _, h⟩ => ⟨pid, h⟩, fun ⟨pid, info, hinfo, h⟩ =>
      ⟨pid, AList.mem_keys.mp (UnorderedMap.mem_of_lookup hinfo), info, hinfo, h⟩⟩

instance (message : Request) (handle : Int) : Decidable (Untunes message handle) :=
  decidable_of_iff (message.mReqType = .REQ_RESOURCE_UNTUNING ∧ message.mHandle = handle ∧
      message.getPriority ≠ SERVER_CLEANUP_TRIGGER_PRIORITY)
    ⟨fun h => ⟨h.1, h.2.1, h.2.2⟩, fun h => ⟨h.type, h.handle, h.priority⟩⟩

instance (server : Server) (handle : Int) (req : ReqPtr) : Decidable (Leaving server handle req) :=
  inferInstanceAs (Decidable (_ ∧ ∃ untune ∈ _, _ ∧ (_ ∨ _)))

instance (P : Int → ReqPtr → Prop) [∀ handle target, Decidable (P handle target)] :
    Decidable (s.EveryActive P) :=
  decidable_of_iff (∀ handle ∈ s.server.active.keys,
      ∀ target ∈ (s.server.active.lookup handle).bind Prod.fst, P handle target) <| by
    constructor
    · intro h handle target status hlookup
      exact h handle (AList.mem_keys.mp (UnorderedMap.mem_of_lookup hlookup)) target
        (by rw [hlookup]; rfl)
    · intro h handle _ target htarget
      obtain ⟨⟨entry, status⟩, hlookup, rfl⟩ := Option.bind_eq_some_iff.mp htarget
      exact h handle target status hlookup

instance (handle : Int) (req : ReqPtr) : Decidable (s.Untuned handle req) :=
  inferInstanceAs (Decidable (_ ∨ _))

instance (req : ReqPtr) (answer : Answer) : ∀ stage, Decidable (s.WorkTraced env req answer stage)
  | .createClient => inferInstanceAs (Decidable (_ → _ → _))
  | .add => inferInstanceAs (Decidable (_ → _ → _))
  | .unused | .globalRateLimit | .clientCheck | .disable | .rateLimit | .verifyHandle | .verify
    | .shouldBeAdded | .enqueue | .queued | .held | .live | .freed | .lost => .isTrue trivial

instance : ∀ pulse, Decidable (s.CheckTraced pulse)
  | .deleting _ _ => inferInstanceAs (Decidable (s.EveryActive _))
  | .idle | .checking _ => .isTrue trivial

instance (block : Option (ReqPtr × Int)) : ∀ collection, Decidable (s.CleanTraced block collection)
  | .deleting _ _ _ => inferInstanceAs (Decidable (s.EveryActive _))
  | .submitting _ _ _ _ => inferInstanceAs (Decidable (_ → _))
  | .idle | .cleaning _ | .untuning _ _ | .crashed => .isTrue trivial

instance : ∀ e, Decidable (Traced env s e)
  | .serve (.work _ _) => inferInstanceAs (Decidable (s.WorkTraced _ _ _ _))
  | .serve (.receive _ _ _) | .serve (.pop _) | .serve (.consume _) | .serve (.timerExpired _ _ _) =>
    .isTrue trivial
  | .check _ => inferInstanceAs (Decidable (s.CheckTraced _))
  | .clean _ => inferInstanceAs (Decidable (s.CleanTraced _ _))

end Decidability

end Supervised

end ResourceTuner
