import ResourceTuner.Server.Priorities

/-!
# The blocks of a message

A message is carried by a `MsgForwardInfo` and a buffer, and becomes a `Request` with its list of
resources, or a `Signal` with its vector of arguments.  All of them are blocks of memory pools of a
fixed size, taken by the listener, the front ends and `deserialize`, and given back by whoever is last
to hold them.  The functions here are those of the source, cut down to the blocks: what is taken, what
is freed, and what a queued request goes on to own.

* **`ListenForClientRequests`**, **`forwardMessage`**, **`submitResProvisionReqMsg`**,
  **`submitSignalRequest`** — the way of a message;
* **`settle`** — what a worker does with the request, whatever the other threads do between its calls;
* **`Outcome.Conserved`** — what was taken was returned once, or is owned by a queued request;
* **`KeepsBlocks`** — the condition under which it is;
* **`blocks_conserved_iff`** — and that it is exact.
-/

namespace ResourceTuner

open ByteReader

/-- The type that a byte stands for. -/
def RequestType.ofByte (byte : Byte) : Option RequestType :=
  match byte.toNat with
  | 0 => some .REQ_RESOURCE_TUNING
  | 1 => some .REQ_RESOURCE_RETUNING
  | 2 => some .REQ_RESOURCE_UNTUNING
  | 3 => some .REQ_PROP_GET
  | 4 => some .REQ_SIGNAL_TUNING
  | 5 => some .REQ_SIGNAL_UNTUNING
  | 6 => some .REQ_SIGNAL_RELAY
  | _ => none

/-- The blocks that a request owns besides its own. -/
def RawRequest.blocks (r : RawRequest) : List Block :=
  match r.mResourceList with
  | none => []
  | some (list, nodes) => nodes.flatMap (fun n => [n.resource, n.node]) ++ [list]

/-- `Request::cleanUpRequest`: the resources and the nodes, then the list with the destructor, then the
request itself. -/
def Pool.cleanUpRequest (pool : Pool) (request : Block) (raw : RawRequest) : Pool :=
  (raw.blocks.foldl freeBlock pool).freeBlock request

/-- `Signal::cleanUpSignal`.  A vector that was never assigned is whatever the recycled block holds
there, `stale`. -/
def Pool.cleanUpSignal (pool : Pool) (signal : Block) (raw : RawSignal) (stale : Option Block) : Pool :=
  match raw.mListArgs, stale with
  | some (listArgs, _), _ => (pool.freeBlock listArgs).freeBlock signal
  | none, some block => (pool.freeBlock block).freeBlock signal
  | none, none => pool.freeBlock signal

/-- The pools when the processing of a message has ended, and the blocks of its queued request. -/
structure Outcome where
  pool : Pool
  owned : List Block

/-- Every block that was taken was returned once, or is owned by the queued request; and nothing else
was returned. -/
def Outcome.Conserved (o : Outcome) : Prop := o.pool.taken.Perm (o.pool.returned ++ o.owned)

instance (o : Outcome) : Decidable o.Conserved :=
  inferInstanceAs (Decidable (List.Perm _ _))

/-- The processing ended, with all blocks conserved.  It does not end where the server reads past the end
of memory or through a null pointer. -/
def Conserved (outcome : Option Outcome) : Prop := ∃ o ∈ outcome, o.Conserved

instance (outcome : Option Outcome) : Decidable (Conserved outcome) :=
  inferInstanceAs (Decidable (∃ o ∈ outcome, o.Conserved))

/-- What the world answers to the processing of a message: `recv`, `generateUniqueHandle`, the thread
pool, the old contents of a `Signal` block, and at each call of its worker the stores as the other
threads have left them. -/
structure Surroundings where
  bytesRead : Int
  handle : Int
  threadPool : Bool
  enqueued : Bool
  stale : Option Block
  found : Nat → Server × Answer

namespace Server

/-! ## The worker of a request -/

/-- One call of `processIncomingRequest`, in the stores it finds. -/
def workOn (env : Env) (req : ReqPtr) (isValidated : Bool) (found : Server × Answer)
    (own : Stage × Request) : Stage × Request :=
  let s := { found.1 with
    stage := Function.update found.1.stage req own.1
    heap := Function.update found.1.heap req own.2
    isValidated := Function.update found.1.isValidated req isValidated }
  let s := s.work env req found.2
  (s.stage req, s.heap req)

/-- A number of calls. -/
def settle (env : Env) (req : ReqPtr) (isValidated : Bool) :
    Nat → (Nat → Server × Answer) → Stage × Request → Stage × Request
  | 0, _, own => own
  | calls + 1, found, own =>
    settle env req isValidated calls (fun n => found (n + 1))
      (workOn env req isValidated (found 0) own)

/-- The stage a worker starts at. -/
def firstStage (type : RequestType) : Stage :=
  if type = .REQ_RESOURCE_TUNING then .globalRateLimit else .clientCheck

end Server

open Server

/-- `submitResProvisionRequest`: the request is freed, queued, or refused by the queue and forgotten.
Eight calls are the longest way. -/
def submitResProvisionRequest (env : Env) (req : ReqPtr) (found : Nat → Server × Answer)
    (block : Block) (raw : RawRequest) (request : Request) (isValidated : Bool) (pool : Pool) :
    Outcome :=
  match (settle env req isValidated 8 found (firstStage request.mReqType, request)).1 with
  | .freed => ⟨pool.cleanUpRequest block raw, []⟩
  | .queued => ⟨pool, block :: raw.blocks⟩
  | _ => ⟨pool, []⟩

/-- The end of both front ends. -/
def Outcome.finish (o : Outcome) (info buffer : Block) : Outcome :=
  { o with pool := (o.pool.freeBlock buffer).freeBlock info }

/-- `submitResProvisionReqMsg`. -/
def submitResProvisionReqMsg (env : Env) (req : ReqPtr) (world : Surroundings) (memory : List Byte)
    (type : RequestType) (info buffer : Block) (pool : Pool) : Option Outcome :=
  match pool.getBlock .Request with
  | (none, pool) => some (Outcome.finish ⟨pool, []⟩ info buffer)
  | (some block, pool) =>
    match Request.deserialize ⟨memory, ⟨.new, pool⟩⟩ with
    | .ok _ s =>
      let raw := s.store.object
      let request := raw.toRequest type req
      some ((submitResProvisionRequest env req world.found block raw
        (if type = .REQ_RESOURCE_TUNING then { request with mHandle := world.handle } else request)
        false s.store.pool).finish info buffer)
    | .error (.failed _) s =>
      some (Outcome.finish ⟨s.store.pool.cleanUpRequest block s.store.object, []⟩ info buffer)
    | .error .fault _ => none

/-! ## Signals -/

/-- `processIncomingRequest` of the signal path up to the translation: `none` where the signal is
cleaned up, because it is turned away or because it was relayed. -/
def processIncomingSignal (env : Env) (registry : SignalRegistry) (found : Nat → Server × Answer)
    (signal : Signal) : Except Fault (Option Signal) :=
  let known := (found 1).1.tracker.clients.clientExists signal.mClientPID signal.mClientTID
  let created := ((found 2).1.tracker.clients.createNewClient signal.mClientPID signal.mClientTID
    (found 2).2.creation).1
  if !isGlobalRateLimitHonored env (found 0).1.tracker.manager then .ok none
  else if !(known || (signal.mReqType != .REQ_SIGNAL_UNTUNING && created)) then .ok none
  else if !(found 3).2.rateLimitHonored then .ok none
  else
    match signal.mReqType with
    | .REQ_SIGNAL_TUNING =>
      SignalHandler.VerifyIncomingRequest registry (found 4).1.tracker.clients signal
    | .REQ_SIGNAL_UNTUNING => .ok (some signal)
    | _ => .ok none

/-- The loop of `createResourceTuningRequest`.  What fails here is not freed by anyone. -/
def copyResources (signal : Signal) : List (Option Resource) → Nat → Deserializer RawRequest Unit
  | [], _ => pure ()
  | none :: locks, listIndex => copyResources signal locks listIndex
  | some lock :: locks, listIndex => do
    let resource ← getBlock .Resource
    match fillPlaceholders signal (List.range lock.getValuesCount.toNat) lock listIndex with
    | .error _ => throw .fault
    | .ok none => fail .RC_REQUEST_DESERIALIZATION_FAILURE
    | .ok (some (mData, listIndex)) => do
      let node ← getBlock .ResIterable
      addResource ⟨node, resource, mData⟩
      copyResources signal locks listIndex

/-- The translation of an accepted signal and the submission of its request, if there is one. -/
def submitTranslated (env : Env) (registry : SignalRegistry) (req : ReqPtr)
    (found : Nat → Server × Answer) (signal : Signal) (pool : Pool) : Option Outcome :=
  if signal.mReqType = .REQ_SIGNAL_TUNING ∧
      registry.getSignalConfigById signal.mSignalCode signal.mSignalType = none then some ⟨pool, []⟩
  else
    match pool.getBlock .Request with
    | (none, pool) => some ⟨pool, []⟩
    | (some block, pool) =>
      if signal.mReqType = .REQ_SIGNAL_TUNING then
        match (registry.getSignalConfigById signal.mSignalCode signal.mSignalType).bind
            (·.mSignalResources) with
        | none => none
        | some locks =>
          match copyResources signal locks 0 ⟨[], ⟨.new, pool⟩⟩ with
          | .ok _ s =>
            some (submitResProvisionRequest env req found block s.store.object
              { s.store.object.toRequest .REQ_RESOURCE_TUNING req with
                toMessage := { signal.toMessage with mReqType := .REQ_RESOURCE_TUNING } }
              false s.store.pool)
          | .error (.failed _) s => some ⟨s.store.pool, []⟩
          | .error .fault _ => none
      else
        some (submitResProvisionRequest env req found block .new (untuneRequest signal.toMessage) true
          pool)

/-- `processIncomingRequest` of the signal path.  An accepted signal is freed by `FreeBlock<Signal>`,
which leaves its vector alone. -/
def processSignal (env : Env) (registry : SignalRegistry) (req : ReqPtr) (world : Surroundings)
    (type : RequestType) (block : Block) (raw : RawSignal) (pool : Pool) : Option Outcome :=
  match processIncomingSignal env registry world.found
      (raw.toSignal type (if type = .REQ_SIGNAL_TUNING then world.handle else raw.mHandle)) with
  | .ok none => some ⟨pool.cleanUpSignal block raw world.stale, []⟩
  | .ok (some signal) =>
    submitTranslated env registry req (fun n => world.found (n + 5)) signal (pool.freeBlock block)
  | .error _ => none

/-- `submitSignalRequest`. -/
def submitSignalRequest (env : Env) (registry : SignalRegistry) (req : ReqPtr) (world : Surroundings)
    (memory : List Byte) (type : RequestType) (info buffer : Block) (pool : Pool) :
    Option Outcome :=
  match pool.getBlock .Signal with
  | (none, pool) => some (Outcome.finish ⟨pool, []⟩ info buffer)
  | (some block, pool) =>
    match Signal.deserialize ⟨memory, ⟨.new, pool⟩⟩ with
    | .ok _ s =>
      (processSignal env registry req world type block s.store.object s.store.pool).map
        (·.finish info buffer)
    | .error (.failed _) s =>
      some (Outcome.finish ⟨s.store.pool.cleanUpSignal block s.store.object world.stale, []⟩ info
        buffer)
    | .error .fault _ => none

/-! ## The receiver -/

/-- The type byte of a message. -/
def typeByte (memory : List Byte) : Byte := decode 1 ((memory.drop 1).take 1)

/-- `RequestReceiver::forwardMessage`. -/
def forwardMessage (env : Env) (registry : SignalRegistry) (req : ReqPtr) (world : Surroundings)
    (memory : List Byte) (info buffer : Block) (pool : Pool) : Option Outcome :=
  if world.handle < 0 then some ⟨pool, []⟩
  else if !world.threadPool then some ⟨pool, []⟩
  else if !world.enqueued then some ⟨pool, []⟩
  else
    match RequestType.ofByte (typeByte memory) with
    | none => some ⟨pool, []⟩
    | some type =>
      match type with
      | .REQ_RESOURCE_TUNING | .REQ_RESOURCE_RETUNING | .REQ_RESOURCE_UNTUNING =>
        submitResProvisionReqMsg env req world memory type info buffer pool
      | .REQ_SIGNAL_TUNING | .REQ_SIGNAL_UNTUNING | .REQ_SIGNAL_RELAY =>
        submitSignalRequest env registry req world memory type info buffer pool
      | .REQ_PROP_GET => some ⟨pool, []⟩

/-- The body of the accept loop of `ListenForClientRequests`.  A `FreeBlock` of a null pointer does
nothing. -/
def ListenForClientRequests (env : Env) (registry : SignalRegistry) (req : ReqPtr)
    (world : Surroundings) (memory : List Byte) (pool : Pool) : Option Outcome :=
  match pool.getBlock .MsgForwardInfo with
  | (none, pool) => some ⟨pool, []⟩
  | (some info, pool) =>
    match pool.getBlock .Buffer with
    | (none, pool) => some ⟨pool.freeBlock info, []⟩
    | (some buffer, pool) =>
      if world.bytesRead > 0 then forwardMessage env registry req world memory info buffer pool
      else some ⟨pool, []⟩

/-! ## Where a worker leaves its request -/

namespace Server

variable {env : Env} {req : ReqPtr} {isValidated : Bool} {found : Nat → Server × Answer}
  {own : Stage × Request} {calls : Nat}

/-- A request that is done with is left alone. -/
theorem settle_of_done (h : own.1.working = false) :
    settle env req isValidated calls found own = own := by
  induction calls generalizing found with
  | zero => rfl
  | succ calls ih =>
    have hwork : workOn env req isValidated (found 0) own = own := by
      obtain ⟨stage, request⟩ := own
      unfold workOn work
      cases stage with
      | unused | queued | held | live | freed | lost => simp
      | globalRateLimit | clientCheck | createClient | disable | rateLimit | verifyHandle | verify
        | shouldBeAdded | add | enqueue => cases h
    rw [settle, hwork]
    exact ih

/-- The calls that a tune request still has before it. -/
def callsLeft : Stage → Nat
  | .globalRateLimit => 8
  | .clientCheck => 7
  | .createClient => 6
  | .rateLimit => 5
  | .verify => 4
  | .shouldBeAdded => 3
  | .add => 2
  | .enqueue => 1
  | _ => 0

/-- A tune request on its way to the queue. -/
structure TuneOnWay (stage : Stage) (request : Request) : Prop where
  type : request.mReqType = .REQ_RESOURCE_TUNING
  above : stage.ranked → SERVER_CLEANUP_TRIGGER_PRIORITY < request.getPriority
  way : 0 < callsLeft stage ∨ stage = .queued ∨ stage = .freed

/-- A tune message on its way to the queue stays one, or is freed with all it has. -/
theorem tuneOnWay_workOn {stage : Stage} {request : Request} (env : Env) (req : ReqPtr)
    (found : Server × Answer) (h : TuneOnWay stage request) :
    TuneOnWay (workOn env req false found (stage, request)).1
        (workOn env req false found (stage, request)).2 ∧
      callsLeft (workOn env req false found (stage, request)).1 ≤ callsLeft stage - 1 := by
  obtain ⟨htype, habove, hway⟩ := h
  have hfreed : TuneOnWay .freed request := ⟨htype, fun h => (by cases h), Or.inr (Or.inr rfl)⟩
  unfold workOn
  cases stage with
  | unused | disable | verifyHandle | held | live | lost => simp [callsLeft] at hway
  | queued | freed =>
    simp only [work, Function.update_self]
    exact ⟨⟨htype, habove, hway⟩, Nat.le_refl _⟩
  | globalRateLimit | createClient | shouldBeAdded | add =>
    simp only [work, Function.update_self, proceed_stage_self, proceed_heap]
    split
    · refine ⟨⟨htype, ?_, Or.inl (by decide)⟩, by decide⟩
      first
        | exact fun _ => habove rfl
        | exact fun h => (by cases h)
    · exact ⟨hfreed, by decide⟩
  | clientCheck =>
    simp only [work, Function.update_self, htype, goto_stage_self, goto_heap]
    split
    · exact ⟨⟨htype, fun h => (by cases h), Or.inl (by decide)⟩, by decide⟩
    · exact ⟨⟨htype, fun h => (by cases h), Or.inl (by decide)⟩, by decide⟩
  | rateLimit =>
    simp only [work, Function.update_self, htype, if_true, proceed_stage_self, proceed_heap]
    split
    · exact ⟨⟨htype, fun h => (by cases h), Or.inl (by decide)⟩, by decide⟩
    · exact ⟨hfreed, by decide⟩
  | verify =>
    simp only [work, Function.update_self, Bool.false_eq_true, if_false]
    split
    · simp only [cleanUpRequest_stage_self, cleanUpRequest_heap, Function.update_self]
      exact ⟨hfreed, by decide⟩
    · rename_i hverify
      simp only [goto_stage_self, goto_heap, Function.update_self]
      exact ⟨⟨(sameMessage_of_verify hverify).type.trans htype,
        fun _ => getPriority_of_verify hverify, Or.inl (by decide)⟩, by decide⟩
  | enqueue =>
    have hhigh := habove rfl
    have hnot : ¬ request.getPriority < SERVER_CLEANUP_TRIGGER_PRIORITY := by omega
    simp only [work, addAndWakeup, Function.update_self, if_neg hnot, goto_stage_self, goto_heap]
    exact ⟨⟨htype, fun _ => hhigh, Or.inr (Or.inl rfl)⟩, by decide⟩

/-- A tune request is freed or queued, whatever happens between the calls of its worker. -/
theorem settle_of_tune {stage : Stage} {request : Request} (h : TuneOnWay stage request)
    (hcalls : callsLeft stage ≤ calls) :
    (settle env req false calls found (stage, request)).1 = .freed ∨
      (settle env req false calls found (stage, request)).1 = .queued := by
  induction calls generalizing found stage request with
  | zero =>
    rcases h.way with hleft | hqueued | hfreed
    · omega
    · exact Or.inr hqueued
    · exact Or.inl hfreed
  | succ calls ih =>
    obtain ⟨hnext, hless⟩ := tuneOnWay_workOn env req (found 0) h
    exact ih hnext (le_trans hless (by omega))

/-- A retune or untune message gets as far as the queue: its client is known, it is not rate limited,
and its handle is active when it is cancelled, if it is, and when it is verified. -/
def ReachesQueue (found : Nat → Server × Answer) (request : Request) : Prop :=
  let calls := if request.mReqType = .REQ_RESOURCE_UNTUNING then 2 else 1
  (found 0).1.tracker.clients.clientExists request.mClientPID request.mClientTID ∧
    (request.mReqType = .REQ_RESOURCE_UNTUNING → request.mHandle ∈ (found 1).1.active) ∧
    (found calls).2.rateLimitHonored ∧ request.mHandle ∈ (found (calls + 1)).1.active

instance (found : Nat → Server × Answer) (request : Request) :
    Decidable (ReachesQueue found request) :=
  inferInstanceAs (Decidable (_ ∧ (_ → _) ∧ _ ∧ _))

section Message

variable {request : Request} (found₀ : Server × Answer)

/-- The calls on a message, one by one: one of an unknown client is freed. -/
theorem workOn_clientCheck (htype : request.mReqType ≠ .REQ_RESOURCE_TUNING) :
    workOn env req isValidated found₀ (.clientCheck, request) =
      (if found₀.1.tracker.clients.clientExists request.mClientPID request.mClientTID then
        if request.mReqType = .REQ_RESOURCE_UNTUNING then .disable else .rateLimit
      else .freed, request) := by
  simp only [workOn, work, Function.update_self]
  split
  · rename_i h
    exact absurd h htype
  · rename_i h
    simp [h]
  · rename_i h
    rw [if_neg (show request.mReqType ≠ .REQ_RESOURCE_UNTUNING from h)]
    simp

/-- An untune message goes on if there is a request to cancel. -/
theorem workOn_disable :
    workOn env req isValidated found₀ (.disable, request) =
      (if request.mHandle ∈ found₀.1.active then .rateLimit else .freed, request) := by
  simp only [workOn, work, Function.update_self, proceed_stage_self, proceed_heap,
    RequestManager.disableRequestProcessing, active]
  split
  · rename_i h
    simp [h]
  · rename_i h
    simp [h]

/-- A client that is too fast loses its message. -/
theorem workOn_rateLimit (htype : request.mReqType ≠ .REQ_RESOURCE_TUNING) :
    workOn env req false found₀ (.rateLimit, request) =
      (if found₀.2.rateLimitHonored then .verifyHandle else .freed, request) := by
  simp [workOn, work, htype]

/-- A message about a handle nobody has is freed. -/
theorem workOn_verifyHandle :
    workOn env req isValidated found₀ (.verifyHandle, request) =
      (if request.mHandle ∈ found₀.1.active then .enqueue else .freed, request) := by
  by_cases h : request.mHandle ∈ found₀.1.active
  · have hverify : found₀.1.tracker.manager.verifyHandle request.mHandle = true := decide_eq_true h
    simp [workOn, work, hverify, h]
  · have hverify : found₀.1.tracker.manager.verifyHandle request.mHandle = false :=
      decide_eq_false h
    simp [workOn, work, hverify, h]

/-- The queue refuses a message of a reserved priority, and nobody has it any more. -/
theorem workOn_enqueue :
    workOn env req isValidated found₀ (.enqueue, request) =
      (if request.getPriority < SERVER_CLEANUP_TRIGGER_PRIORITY then .lost else .queued,
        request) := by
  simp only [workOn, work, addAndWakeup, Function.update_self]
  split <;> simp

/-- From the rate limit on both messages go the same way. -/
theorem settle_rateLimit {calls : Nat} (htype : request.mReqType ≠ .REQ_RESOURCE_TUNING) :
    (settle env req false (calls + 3) found (.rateLimit, request)).1 =
      if (found 0).2.rateLimitHonored ∧ request.mHandle ∈ (found 1).1.active then
        if request.getPriority < SERVER_CLEANUP_TRIGGER_PRIORITY then .lost else .queued
      else .freed := by
  have hdone : ∀ {stage : Stage} {calls found}, stage.working = false →
      (settle env req false calls found (stage, request)).1 = stage := fun h => by
    rw [settle_of_done h]
  rw [settle, workOn_rateLimit _ htype]
  by_cases hrate : (found 0).2.rateLimitHonored
  · rw [if_pos hrate, settle, workOn_verifyHandle]
    by_cases hactive : request.mHandle ∈ (found 1).1.active
    · rw [if_pos hactive, settle, workOn_enqueue, if_pos (And.intro hrate hactive)]
      split
      · exact hdone rfl
      · exact hdone rfl
    · rw [if_neg hactive, hdone rfl, if_neg fun h => hactive h.2]
  · rw [if_neg hrate, hdone rfl, if_neg fun h => hrate h.1]

/-- Where a retune or untune message ends. -/
theorem settle_of_message (htype : request.mReqType ≠ .REQ_RESOURCE_TUNING) :
    (settle env req false 8 found (.clientCheck, request)).1 =
      if ReachesQueue found request then
        if request.getPriority < SERVER_CLEANUP_TRIGGER_PRIORITY then .lost else .queued
      else .freed := by
  rw [settle, workOn_clientCheck _ htype]
  unfold ReachesQueue
  by_cases hknown : (found 0).1.tracker.clients.clientExists request.mClientPID request.mClientTID
  · by_cases huntune : request.mReqType = .REQ_RESOURCE_UNTUNING
    · rw [if_pos hknown, if_pos huntune, settle, workOn_disable]
      by_cases hactive : request.mHandle ∈ (found 1).1.active
      · rw [if_pos hactive, settle_rateLimit htype]
        simp [hknown, huntune, hactive]
      · rw [if_neg hactive, settle_of_done rfl]
        simp [huntune, hactive]
    · rw [if_pos hknown, if_neg huntune, settle_rateLimit htype]
      simp [hknown, huntune]
  · rw [if_neg hknown, settle_of_done rfl]
    simp [hknown]

end Message

end Server

/-! ## The blocks of a request that is read -/

section Read

variable {grants : Nat → Bool} {base : List Block} {asked : Nat}

/-- The allocations for a number of resources, from the next one on: until a node is refused, which
ends the reading, its resource, the array of its values and the list are granted, and its bytes are
there.  `listed` says whether the list exists. -/
def Supplied (grants : Nat → Bool) : Nat → Bool → Nat → List Byte → Prop
  | 0, _, _, _ => True
  | n + 1, listed, asked, bytes =>
    grants asked = false ∨
      grants (asked + 1) ∧ 16 + 4 * claimedValues bytes ≤ bytes.length ∧
        let asked := asked + 2
        (2 < claimedValues bytes → grants asked) ∧
          let asked := if 2 < claimedValues bytes then asked + 1 else asked
          (listed = false → grants asked) ∧
            Supplied grants n true (if listed then asked else asked + 1)
              (bytes.drop (16 + 4 * claimedValues bytes))

/-- What was taken is in the object, was returned, or is in other hands. -/
def Accounted (base : List Block) (s : Input (Workspace RawRequest)) : Prop :=
  s.store.pool.taken.Perm (s.store.object.blocks ++ (s.store.pool.returned ++ base))

/-- A block is missing. -/
def Short (base : List Block) (s : Input (Workspace RawRequest)) : Prop :=
  s.store.object.blocks.length + (s.store.pool.returned ++ base).length < s.store.pool.taken.length

/-- Where blocks are missing the account is not even. -/
theorem Short.not_accounted {s : Input (Workspace RawRequest)} (h : Short base s) :
    ¬ Accounted base s := by
  intro hperm
  have hlength := hperm.length_eq
  rw [List.length_append] at hlength
  unfold Short at h
  omega

/-- A block comes from the pool, or the reader fails. -/
theorem ends_getBlock {τ : Type} {kind : BlockKind} {s : Input (Workspace τ)}
    {ok : Block → Input (Workspace τ) → Prop} {failed : Input (Workspace τ) → Prop} :
    Ends (getBlock kind : Deserializer τ Block) s ok failed ↔
      if s.store.pool.grants s.store.pool.asked then
        ok ⟨kind, s.store.pool.asked⟩ { s with store := { s.store with
          pool := s.store.pool.ask.take ⟨kind, s.store.pool.asked⟩ } }
      else failed { s with store := { s.store with pool := s.store.pool.ask } } := by
  by_cases hgrant : s.store.pool.grants s.store.pool.asked = true
  · simp [Ends, getBlock, Pool.getBlock, Pool.answer, hgrant]
  · simp [Ends, getBlock, Pool.getBlock, Pool.answer, hgrant]

/-- The answer of an allocation is looked at by who has asked. -/
theorem ends_allocate {τ : Type} {s : Input (Workspace τ)} {ok : Bool → Input (Workspace τ) → Prop}
    {failed : Input (Workspace τ) → Prop} :
    Ends (allocate : Deserializer τ Bool) s ok failed ↔
      ok s.store.pool.answer { s with store := { s.store with pool := s.store.pool.ask } } := Iff.rfl

/-- The resource with the values that the bytes hold, from the `j`-th on. -/
def valuesRead : Nat → Nat → Resource → List Byte → Resource
  | 0, _, resource, _ => resource
  | left + 1, j, resource, bytes =>
    valuesRead left (j + 1) (resource.setValueAt j (decode 4 (bytes.take 4)).toInt) (bytes.drop 4)

/-- The values are there, or the reader faults. -/
theorem ends_readValues {left j : Nat} {resource : Resource} {s : Input (Workspace RawRequest)}
    {ok : Resource → Input (Workspace RawRequest) → Prop}
    {failed : Input (Workspace RawRequest) → Prop} :
    Ends (readValues true left j resource) s ok failed ↔
      4 * left ≤ s.rest.length ∧
        ok (valuesRead left j resource s.rest) { s with rest := s.rest.drop (4 * left) } := by
  induction left generalizing j resource s with
  | zero =>
    obtain ⟨rest, store⟩ := s
    simp [readValues, ends_pure, valuesRead]
  | succ left ih =>
    simp only [readValues, ends_bind, ends_read, if_true, ih, List.length_drop, List.drop_drop,
      valuesRead]
    rw [show 4 + 4 * left = 4 * (left + 1) by omega, ← and_assoc]
    refine and_congr_left fun _ => ?_
    omega

/-- The first resource of the bytes. -/
def resourceAt (bytes : List Byte) : Resource :=
  let numValues := (decode 4 ((bytes.drop 12).take 4)).toInt
  valuesRead numValues.toNat 0
    ((Resource.ofValues (decode 4 (bytes.take 4)) (decode 4 ((bytes.drop 4).take 4))
      (decode 4 ((bytes.drop 8).take 4)).toInt []).setNumValues numValues) (bytes.drop 16)

/-- The node of a resource that is read next. -/
def nextNode (pool : Pool) (bytes : List Byte) : RawNode where
  node := ⟨.ResIterable, pool.asked⟩
  resource := ⟨.Resource, pool.asked + 1⟩
  mData := resourceAt bytes

/-- The pool when both blocks of that node are taken. -/
def poolWithNode (pool : Pool) : Pool :=
  (pool.ask.take ⟨.ResIterable, pool.asked⟩).ask.take ⟨.Resource, pool.asked + 1⟩

/-- The first resource needs a block for the list; without one the node is lost without an error. -/
theorem ends_addResource {node : RawNode} {bytes : List Byte} {object : RawRequest} {pool : Pool}
    {ok failed : Input (Workspace RawRequest) → Prop} :
    Ends (addResource node) ⟨bytes, ⟨object, pool⟩⟩ (fun _ => ok) failed ↔
      match object.mResourceList with
      | some (list, nodes) =>
        ok ⟨bytes, ⟨{ object with mResourceList := some (list, nodes ++ [node]) }, pool⟩⟩
      | none =>
        if pool.grants pool.asked then
          ok ⟨bytes, ⟨{ object with mResourceList := some (⟨.DLManager, pool.asked⟩, [node]) },
            pool.ask.take ⟨.DLManager, pool.asked⟩⟩⟩
        else ok ⟨bytes, ⟨object, pool.ask⟩⟩ := by
  cases hlist : object.mResourceList with
  | some entry =>
    simp only [Ends, addResource, hlist]
    rfl
  | none =>
    by_cases hgrant : pool.grants pool.asked = true
    · simp [Ends, addResource, hlist, Pool.getBlock, Pool.answer, hgrant]
    · simp [Ends, addResource, hlist, Pool.getBlock, Pool.answer, hgrant]

/-- A resource is read exactly if its two blocks, its bytes and its array are granted. -/
theorem ends_readResource {bytes : List Byte} {object : RawRequest} {pool : Pool}
    {ok failed : Input (Workspace RawRequest) → Prop} :
    Ends readResource ⟨bytes, ⟨object, pool⟩⟩ (fun _ => ok) failed ↔
      if pool.grants pool.asked then
        if pool.grants (pool.asked + 1) then
          16 ≤ bytes.length ∧
            if 2 < claimedValues bytes then
              if pool.grants (pool.asked + 2) then
                4 * claimedValues bytes ≤ bytes.length - 16 ∧
                  Ends (addResource (nextNode pool bytes))
                    ⟨bytes.drop (16 + 4 * claimedValues bytes), ⟨object, (poolWithNode pool).ask⟩⟩
                    (fun _ => ok) failed
              else 4 ≤ bytes.length - 16 ∧
                failed ⟨bytes.drop 20, ⟨object, (poolWithNode pool).ask⟩⟩
            else
              4 * claimedValues bytes ≤ bytes.length - 16 ∧
                Ends (addResource (nextNode pool bytes))
                  ⟨bytes.drop (16 + 4 * claimedValues bytes), ⟨object, poolWithNode pool⟩⟩
                  (fun _ => ok) failed
        else failed ⟨bytes, ⟨object, (pool.ask.take ⟨.ResIterable, pool.asked⟩).ask⟩⟩
      else failed ⟨bytes, ⟨object, pool.ask⟩⟩ := by
  simp only [readResource, ends_bind, ends_getBlock, ends_read, List.drop_drop, List.length_drop]
  have hvalues : (decode 4 (List.take 4 (List.drop (4 + (4 + 4)) bytes))).toInt.toNat =
      claimedValues bytes := rfl
  split
  · split
    · rename_i hnode hresource
      have hresource' : pool.grants (pool.asked + 1) = true := hresource
      have hwords : ∀ rest : Prop, (4 ≤ bytes.length ∧ 4 ≤ bytes.length - 4 ∧
          4 ≤ bytes.length - 4 - 4 ∧ 4 ≤ bytes.length - 4 - 4 - 4 ∧ rest) ↔
          16 ≤ bytes.length ∧ rest := by
        intro rest
        constructor
        · rintro ⟨-, -, -, h, hrest⟩
          exact ⟨by omega, hrest⟩
        · rintro ⟨h, hrest⟩
          exact ⟨by omega, by omega, by omega, by omega, hrest⟩
      rw [if_pos hresource', hwords]
      refine and_congr_right fun h16 => ?_
      unfold allocateValues
      by_cases hmany : (decode 4 (List.take 4 (List.drop (4 + (4 + 4)) bytes))).toInt > 2
      · rw [if_pos hmany, if_pos (show 2 < claimedValues bytes by omega), ends_allocate]
        cases hgrant : pool.grants (pool.asked + 2) with
        | true =>
          have hanswer : Pool.answer ((pool.ask.take ⟨.ResIterable, pool.asked⟩).ask.take ⟨.Resource,
              (pool.ask.take ⟨.ResIterable, pool.asked⟩).asked⟩) = true := hgrant
          rw [hanswer, ends_readValues, List.length_drop, List.drop_drop, hvalues, if_pos rfl]
          rfl
        | false =>
          have hanswer : Pool.answer ((pool.ask.take ⟨.ResIterable, pool.asked⟩).ask.take ⟨.Resource,
              (pool.ask.take ⟨.ResIterable, pool.asked⟩).asked⟩) = false := hgrant
          obtain ⟨left, hleft⟩ : ∃ left,
              (decode 4 (List.take 4 (List.drop (4 + (4 + 4)) bytes))).toInt.toNat = left + 1 :=
            ⟨_, (Nat.succ_pred_eq_of_pos (by omega)).symm⟩
          rw [hanswer, hleft, readValues, ends_bind, ends_read, List.length_drop, List.drop_drop,
            if_neg (by decide)]
          rfl
      · rw [if_neg hmany, if_neg (show ¬ 2 < claimedValues bytes by omega), ends_pure,
          ends_readValues, List.length_drop, List.drop_drop, hvalues]
        rfl
    · rename_i hnode hresource
      have hresource' : ¬ pool.grants (pool.asked + 1) = true := hresource
      rw [if_neg hresource']
  · rfl

/-- A request owns the blocks of one node more. -/
theorem blocks_append {object : RawRequest} {list : Block} {nodes : List RawNode} (node : RawNode)
    (h : object.mResourceList = some (list, nodes)) :
    RawRequest.blocks { object with mResourceList := some (list, nodes ++ [node]) } |>.Perm
      (node.resource :: node.node :: object.blocks) := by
  simp only [RawRequest.blocks, h, List.flatMap_append, List.flatMap_cons, List.flatMap_nil,
    List.append_nil, List.append_assoc]
  exact List.perm_append_comm_assoc _ [node.resource, node.node] [list]

/-- In terms of the state: more blocks were taken than the object, the pool and the caller have. -/
theorem short_iff {bytes : List Byte} {object : RawRequest} {pool : Pool} :
    Short base ⟨bytes, ⟨object, pool⟩⟩ ↔
      object.blocks.length + (pool.returned ++ base).length < pool.taken.length := Iff.rfl

/-- What two blocks do to a pool. -/
@[simp] theorem poolWithNode_taken (pool : Pool) : (poolWithNode pool).taken =
    ⟨.Resource, pool.asked + 1⟩ :: ⟨.ResIterable, pool.asked⟩ :: pool.taken := rfl
@[simp] theorem poolWithNode_grants (pool : Pool) : (poolWithNode pool).grants = pool.grants := rfl
@[simp] theorem poolWithNode_returned (pool : Pool) :
    (poolWithNode pool).returned = pool.returned := rfl
@[simp] theorem poolWithNode_asked (pool : Pool) :
    (poolWithNode pool).asked = pool.asked + 2 := rfl

/-- A missing block stays missing. -/
theorem Short.not_ends {n : Nat} {s : Input (Workspace RawRequest)} (h : Short base s) :
    ¬ Ends (readResources n) s (fun _ => Accounted base) (Accounted base) := by
  induction n generalizing s with
  | zero => exact h.not_accounted
  | succ n ih =>
    obtain ⟨bytes, object, pool⟩ := s
    rw [short_iff] at h
    -- the two blocks of the node go to the request, or are missing too
    have hadded : ∀ {rest : List Byte} (pool' : Pool), pool'.returned = pool.returned →
        pool'.taken.length = pool.taken.length + 2 →
        ¬ Ends (addResource (nextNode pool bytes)) ⟨rest, ⟨object, pool'⟩⟩
          (fun _ s' => Ends (readResources n) s' (fun _ => Accounted base) (Accounted base))
          (Accounted base) := by
      intro rest pool' hreturned htaken
      rw [ends_addResource]
      cases hlist : object.mResourceList with
      | some entry =>
        obtain ⟨list, nodes⟩ := entry
        refine ih ?_
        have hlength := (blocks_append (nextNode pool bytes) hlist).length_eq
        simp only [List.length_cons] at hlength
        rw [short_iff, hreturned]
        omega
      | none =>
        have hnone : object.blocks.length = 0 := by simp [RawRequest.blocks, hlist]
        simp only
        split
        · refine ih ?_
          simp only [short_iff, RawRequest.blocks, List.flatMap_cons, List.flatMap_nil,
            List.append_nil, List.length_append, List.length_cons, List.length_nil,
            Pool.take_taken, Pool.ask_taken, Pool.take_returned, Pool.ask_returned, hreturned] at h ⊢
          omega
        · refine ih ?_
          simp only [short_iff, Pool.ask_taken, Pool.ask_returned, hreturned]
          omega
    rw [readResources, ends_bind, ends_readResource]
    by_cases hnode : pool.grants pool.asked = true
    · by_cases hresource : pool.grants (pool.asked + 1) = true
      · rw [if_pos hnode, if_pos hresource]
        rintro ⟨-, hends⟩
        split at hends
        · split at hends
          · exact hadded (poolWithNode pool).ask rfl rfl hends.2
          · refine Short.not_accounted ?_ hends.2
            simp only [short_iff, Pool.ask_taken, Pool.ask_returned, poolWithNode_taken,
              poolWithNode_returned, List.length_cons]
            omega
        · exact hadded (poolWithNode pool) rfl rfl hends.2
      · rw [if_pos hnode, if_neg hresource]
        refine Short.not_accounted ?_
        simp only [short_iff, Pool.ask_taken, Pool.take_taken, Pool.ask_returned, Pool.take_returned,
          List.length_cons]
        omega
    · rw [if_neg hnode]
      exact Short.not_accounted (short_iff.mpr h)

/-- In terms of the state: the blocks taken are those of the object, those given back and those of
before. -/
theorem accounted_iff {bytes : List Byte} {object : RawRequest} {pool : Pool} :
    Accounted base ⟨bytes, ⟨object, pool⟩⟩ ↔
      pool.taken.Perm (object.blocks ++ (pool.returned ++ base)) := Iff.rfl

/-- **All blocks are accounted for** exactly when the allocations of the resources are supplied. -/
theorem ends_readResources_iff {n : Nat} {bytes : List Byte} {object : RawRequest} {pool : Pool}
    (haccounted : Accounted base ⟨bytes, ⟨object, pool⟩⟩) :
    Ends (readResources n) ⟨bytes, ⟨object, pool⟩⟩ (fun _ => Accounted base) (Accounted base) ↔
      Supplied pool.grants n object.mResourceList.isSome pool.asked bytes := by
  induction n generalizing bytes object pool with
  | zero => exact iff_of_true haccounted trivial
  | succ n ih =>
    rw [accounted_iff] at haccounted
    have hlength := haccounted.length_eq
    rw [List.length_append] at hlength
    have hadded : ∀ (pool' : Pool) {rest : List Byte}, pool'.grants = pool.grants →
        pool'.returned = pool.returned →
        pool'.taken = (nextNode pool bytes).resource :: (nextNode pool bytes).node :: pool.taken →
        (Ends (addResource (nextNode pool bytes)) ⟨rest, ⟨object, pool'⟩⟩
          (fun _ s' => Ends (readResources n) s' (fun _ => Accounted base) (Accounted base))
          (Accounted base) ↔
        (object.mResourceList.isSome = false → pool.grants pool'.asked = true) ∧
          Supplied pool.grants n true
            (if object.mResourceList.isSome then pool'.asked else pool'.asked + 1) rest) := by
      intro pool' rest hgrants hreturned htaken
      rw [ends_addResource, hgrants]
      cases hlist : object.mResourceList with
      | some entry =>
        obtain ⟨list, nodes⟩ := entry
        have hnext : Accounted base ⟨rest, ⟨{ object with
            mResourceList := some (list, nodes ++ [nextNode pool bytes]) }, pool'⟩⟩ := by
          rw [accounted_iff, htaken, hreturned]
          exact ((haccounted.cons _).cons _).trans ((blocks_append _ hlist).append_right _).symm
        simpa [hgrants] using ih hnext
      | none =>
        have hnone : object.blocks = [] := by simp [RawRequest.blocks, hlist]
        rw [hnone, List.nil_append] at haccounted
        by_cases hgrant : pool.grants pool'.asked = true
        · have hnext : Accounted base ⟨rest, ⟨{ object with
              mResourceList := some (⟨.DLManager, pool'.asked⟩, [nextNode pool bytes]) },
              pool'.ask.take ⟨.DLManager, pool'.asked⟩⟩⟩ := by
            rw [accounted_iff, Pool.take_taken, Pool.ask_taken, Pool.take_returned,
              Pool.ask_returned, htaken, hreturned]
            refine (((haccounted.cons _).cons _).cons _).trans ?_
            exact List.perm_append_comm_assoc [_] [_, _] _
          simpa [hgrant, hgrants] using ih hnext
        · -- the node is dropped
          have hshort : Short base ⟨rest, ⟨object, pool'.ask⟩⟩ := by
            simp only [short_iff, Pool.ask_taken, Pool.ask_returned, htaken, hreturned,
              List.length_cons]
            omega
          simpa [hgrant] using hshort.not_ends
    rw [readResources, ends_bind, ends_readResource, Supplied]
    by_cases hnode : pool.grants pool.asked = true
    · by_cases hresource : pool.grants (pool.asked + 1) = true
      · have hbytes : ∀ rest : Prop, (16 ≤ bytes.length ∧
            4 * claimedValues bytes ≤ bytes.length - 16 ∧ rest) ↔
            (16 + 4 * claimedValues bytes ≤ bytes.length ∧ rest) := by
          intro rest
          rw [← and_assoc]
          exact and_congr_left fun _ => by omega
        rw [if_pos hnode, if_pos hresource]
        by_cases hmany : 2 < claimedValues bytes
        · by_cases hgrant : pool.grants (pool.asked + 2) = true
          · rw [if_pos hmany, if_pos hgrant, hbytes, hadded (poolWithNode pool).ask rfl rfl rfl]
            simp [hnode, hresource, hmany, hgrant]
          · -- there is no array for the values
            have hshort : Short base ⟨bytes.drop 20, ⟨object, (poolWithNode pool).ask⟩⟩ := by
              simp only [short_iff, Pool.ask_taken, Pool.ask_returned, poolWithNode_taken,
                poolWithNode_returned, List.length_cons]
              omega
            rw [if_pos hmany, if_neg hgrant]
            simp [hnode, hmany, hgrant, hshort.not_accounted]
        · rw [if_neg hmany, hbytes, hadded (poolWithNode pool) rfl rfl rfl]
          simp [hnode, hresource, hmany]
      · have hshort : Short base
            ⟨bytes, ⟨object, (pool.ask.take ⟨.ResIterable, pool.asked⟩).ask⟩⟩ := by
          simp only [short_iff, Pool.ask_taken, Pool.take_taken, Pool.ask_returned,
            Pool.take_returned, List.length_cons]
          omega
        rw [if_pos hnode, if_neg hresource]
        simp [hnode, hresource, hshort.not_accounted]
    · rw [if_neg hnode]
      exact iff_of_true haccounted (Or.inl (by simpa using hnode))

end Read

/-- The request after its header was read. -/
def headerOf (memory : List Byte) : RawRequest where
  mReqType := typeByte memory
  mHandle := (decode 8 ((memory.drop 2).take 8)).toInt
  mDuration := (decode 8 ((memory.drop 10).take 8)).toInt
  mProperties := decode 4 ((memory.drop 22).take 4)
  mClientPID := (decode 4 ((memory.drop 26).take 4)).toInt
  mClientTID := (decode 4 ((memory.drop 30).take 4)).toInt
  mResourceList := none

/-- The number of resources in the header. -/
def resourceCount (memory : List Byte) : Nat := (decode 4 ((memory.drop 18).take 4)).toInt.toNat

/-- An assignment ends well. -/
theorem ends_assign {τ : Type} {change : τ → τ} {s : Input (Workspace τ)}
    {ok : Unit → Input (Workspace τ) → Prop} {failed : Input (Workspace τ) → Prop} :
    Ends (assign change) s ok failed ↔
      ok () { s with store := { s.store with object := change s.store.object } } := Iff.rfl

/-- A request is read exactly if its header is there and, for a tune message, its resources are. -/
theorem ends_request {memory : List Byte} {pool : Pool}
    {ok failed : Input (Workspace RawRequest) → Prop} :
    Ends Request.deserialize ⟨memory, ⟨.new, pool⟩⟩ (fun _ => ok) failed ↔
      34 ≤ memory.length ∧
        if typeByte memory = RequestType.REQ_RESOURCE_TUNING.toByte then
          Ends (readResources (resourceCount memory)) ⟨memory.drop 34, ⟨headerOf memory, pool⟩⟩
            (fun _ => ok) failed
        else ok ⟨memory.drop 34, ⟨headerOf memory, pool⟩⟩ := by
  simp only [Request.deserialize, ends_bind, ends_read, ends_assign, List.drop_drop,
    List.length_drop]
  have htype : decode 1 ((memory.drop 1).take 1) = typeByte memory := rfl
  constructor
  · rintro ⟨-, -, -, -, -, -, -, hlast, hends⟩
    rw [htype] at hends
    refine ⟨by omega, ?_⟩
    split at hends
    · rename_i htune
      rw [if_pos htune]
      exact hends
    · rename_i htune
      rw [if_neg htune]
      exact hends
  · rintro ⟨hheader, hends⟩
    refine ⟨by omega, by omega, by omega, by omega, by omega, by omega, by omega, by omega, ?_⟩
    rw [htype]
    split
    · rename_i htune
      rw [if_pos htune] at hends
      exact hends
    · rename_i htune
      rw [if_neg htune] at hends
      exact hends

/-! ## Resource messages -/

section Conservation

variable {env : Env} {registry : SignalRegistry} {req : ReqPtr} {world : Surroundings}
  {memory : List Byte} {type : RequestType} {info buffer block : Block} {pool : Pool}

/-- Blocks that are freed one after the other are all given back. -/
theorem foldl_freeBlock (blocks : List Block) (pool : Pool) :
    (blocks.foldl Pool.freeBlock pool).taken = pool.taken ∧
      (blocks.foldl Pool.freeBlock pool).returned = blocks.reverse ++ pool.returned := by
  induction blocks generalizing pool with
  | nil => exact ⟨rfl, rfl⟩
  | cons block blocks ih =>
    obtain ⟨htaken, hreturned⟩ := ih (pool.freeBlock block)
    refine ⟨htaken, ?_⟩
    rw [List.foldl_cons, hreturned, List.reverse_cons, List.append_assoc]
    rfl

/-- A request that is cleaned up returns its blocks. -/
theorem conserved_cleanUpRequest {raw : RawRequest} {rest : List Byte} :
    (Outcome.finish ⟨pool.cleanUpRequest block raw, []⟩ info buffer).Conserved ↔
      Accounted [block, buffer, info] ⟨rest, ⟨raw, pool⟩⟩ := by
  obtain ⟨htaken, hreturned⟩ := foldl_freeBlock raw.blocks pool
  have hall : (info :: buffer :: block :: (raw.blocks.reverse ++ pool.returned)).Perm
      (raw.blocks ++ (pool.returned ++ [block, buffer, info])) := by
    rw [List.perm_iff_count]
    intro b
    simp only [List.count_cons, List.count_append, List.count_reverse, List.count_nil]
    omega
  rw [accounted_iff]
  simp only [Outcome.Conserved, Outcome.finish, Pool.cleanUpRequest, Pool.freeBlock, htaken,
    hreturned, List.append_nil]
  exact ⟨fun h => h.trans hall, fun h => h.trans hall.symm⟩

/-- A request that is queued goes on to own its blocks. -/
theorem conserved_queued {raw : RawRequest} {rest : List Byte} :
    (Outcome.finish ⟨pool, block :: raw.blocks⟩ info buffer).Conserved ↔
      Accounted [block, buffer, info] ⟨rest, ⟨raw, pool⟩⟩ := by
  have hall : (info :: buffer :: pool.returned ++ block :: raw.blocks).Perm
      (raw.blocks ++ (pool.returned ++ [block, buffer, info])) := by
    rw [List.perm_iff_count]
    intro b
    simp only [List.count_cons, List.count_append, List.count_nil]
    omega
  rw [accounted_iff]
  exact ⟨fun h => h.trans hall, fun h => h.trans hall.symm⟩

/-- A tune message whose blocks are all accounted for is queued with them, or freed with them. -/
theorem conserved_tune {found : Nat → Server × Answer} {raw : RawRequest} {request : Request}
    {rest : List Byte} (htype : request.mReqType = .REQ_RESOURCE_TUNING) :
    ((submitResProvisionRequest env req found block raw request false pool).finish info
        buffer).Conserved ↔ Accounted [block, buffer, info] ⟨rest, ⟨raw, pool⟩⟩ := by
  have hway : TuneOnWay .globalRateLimit request :=
    ⟨htype, fun h => (by cases h), Or.inl (by decide)⟩
  unfold submitResProvisionRequest
  rw [firstStage, if_pos htype]
  have hends : (settle env req false 8 found (.globalRateLimit, request)).1 = .freed ∨
      (settle env req false 8 found (.globalRateLimit, request)).1 = .queued :=
    settle_of_tune hway (by decide)
  rcases hends with h | h
  · rw [h]
    exact conserved_cleanUpRequest
  · rw [h]
    exact conserved_queued

/-- The queue refuses a retune or untune message, and nobody frees it. -/
def RefusedByQueue (found : Nat → Server × Answer) (request : Request) : Prop :=
  ReachesQueue found request ∧ request.getPriority < SERVER_CLEANUP_TRIGGER_PRIORITY

instance (found : Nat → Server × Answer) (request : Request) :
    Decidable (RefusedByQueue found request) :=
  inferInstanceAs (Decidable (_ ∧ _))

/-- So is any other message, unless the queue refuses it. -/
theorem conserved_message {found : Nat → Server × Answer} {raw : RawRequest} {request : Request}
    {rest : List Byte} (htype : request.mReqType ≠ .REQ_RESOURCE_TUNING)
    (haccounted : Accounted [block, buffer, info] ⟨rest, ⟨raw, pool⟩⟩) :
    ((submitResProvisionRequest env req found block raw request false pool).finish info
        buffer).Conserved ↔ ¬ RefusedByQueue found request := by
  unfold submitResProvisionRequest RefusedByQueue
  rw [firstStage, if_neg htype, settle_of_message htype]
  by_cases hreaches : ReachesQueue found request
  · by_cases hlow : request.getPriority < SERVER_CLEANUP_TRIGGER_PRIORITY
    · -- the request is in nobody's hands
      rw [if_pos hreaches, if_pos hlow]
      refine iff_of_false ?_ (not_not.mpr ⟨hreaches, hlow⟩)
      intro hperm
      have hmore := haccounted.length_eq
      have hless := hperm.length_eq
      simp only [Outcome.finish, Pool.freeBlock, List.append_nil, List.length_append,
        List.length_cons, List.length_nil] at hmore hless
      omega
    · rw [if_pos hreaches, if_neg hlow]
      exact iff_of_true (conserved_queued.mpr haccounted) fun h => hlow h.2
  · rw [if_neg hreaches]
    exact iff_of_true (conserved_cleanUpRequest.mpr haccounted) fun h => hreaches h.1

/-- When a resource message keeps its blocks: there is none for its request, or its header is inside
memory; the allocations of a tune message are supplied; and a retune or untune message is not
refused by the queue. -/
def ResourceKeeps (grants : Nat → Bool) (req : ReqPtr) (world : Surroundings) (memory : List Byte)
    (type : RequestType) : Prop :=
  grants 2 = false ∨ 34 ≤ memory.length ∧
    if type = .REQ_RESOURCE_TUNING then
      Supplied grants (resourceCount memory) false 3 (memory.drop 34)
    else ¬ RefusedByQueue world.found ((headerOf memory).toRequest type req)

/-- The pool when the two blocks of a message are taken. -/
structure Forwarded (pool : Pool) (info buffer : Block) : Prop where
  infoKind : info.kind = .MsgForwardInfo
  bufferKind : buffer.kind = .Buffer
  asked : pool.asked = 2
  taken : pool.taken = [buffer, info]
  returned : pool.returned = []

/-- An outcome that is there is judged by its blocks. -/
theorem conserved_some {o : Outcome} : Conserved (some o) ↔ o.Conserved := by
  simp [Conserved]

/-- Where the server has crashed nothing is conserved. -/
theorem not_conserved_none : ¬ Conserved none := by
  simp [Conserved]

/-- A message of which nothing was made leaves its two blocks, which are freed. -/
theorem conserved_nothing (hpool : Forwarded pool info buffer) :
    (Outcome.finish ⟨pool.ask, []⟩ info buffer).Conserved := by
  simp only [Outcome.Conserved, Outcome.finish, Pool.freeBlock, Pool.ask_taken, Pool.ask_returned,
    hpool.taken, hpool.returned, List.append_nil]
  exact List.Perm.swap _ _ _

/-- Where the pool gives the block of a `Request`, its reading decides. -/
theorem conserved_resource_granted (hgrant : pool.grants pool.asked = true) :
    Conserved (submitResProvisionReqMsg env req world memory type info buffer pool) ↔
      Ends Request.deserialize
        ⟨memory, ⟨.new, pool.ask.take ⟨.Request, pool.asked⟩⟩⟩
        (fun _ s => ((submitResProvisionRequest env req world.found ⟨.Request, pool.asked⟩
          s.store.object
          (if type = .REQ_RESOURCE_TUNING then
            { s.store.object.toRequest type req with mHandle := world.handle }
          else s.store.object.toRequest type req)
          false s.store.pool).finish info buffer).Conserved)
        (fun s => (Outcome.finish ⟨s.store.pool.cleanUpRequest ⟨.Request, pool.asked⟩
          s.store.object, []⟩ info buffer).Conserved) := by
  have hblock : pool.getBlock .Request =
      (some ⟨.Request, pool.asked⟩, pool.ask.take ⟨.Request, pool.asked⟩) := by
    simp [Pool.getBlock, Pool.answer, hgrant]
  unfold submitResProvisionReqMsg Ends
  rw [hblock]
  dsimp only
  generalize Request.deserialize _ = result
  cases result with
  | ok _ s => exact conserved_some
  | error stop s =>
    cases stop with
    | failed code => exact conserved_some
    | fault => exact iff_of_false not_conserved_none not_false

/-- The type byte is the one of tune messages exactly if the message is one. -/
theorem typeByte_eq_tuning_iff (htype : RequestType.ofByte (typeByte memory) = some type) :
    typeByte memory = RequestType.REQ_RESOURCE_TUNING.toByte ↔ type = .REQ_RESOURCE_TUNING := by
  constructor
  · intro hbyte
    rw [hbyte] at htype
    exact (Option.some.inj htype).symm
  · intro htune
    subst htune
    unfold RequestType.ofByte at htype
    split at htype
    · rename_i hbyte
      exact BitVec.eq_of_toNat_eq hbyte
    all_goals cases htype

/-- **A resource message keeps its blocks** exactly under its condition. -/
theorem conserved_resource_iff (hpool : Forwarded pool info buffer)
    (htype : RequestType.ofByte (typeByte memory) = some type) :
    Conserved (submitResProvisionReqMsg env req world memory type info buffer pool) ↔
      ResourceKeeps pool.grants req world memory type := by
  unfold ResourceKeeps
  by_cases hgrant : pool.grants pool.asked = true
  · have hnot : ¬ pool.grants 2 = false := by
      rw [← hpool.asked, hgrant]
      exact Bool.true_eq_false.mp
    have hheader : Accounted [⟨.Request, pool.asked⟩, buffer, info] ⟨memory.drop 34,
        ⟨headerOf memory, pool.ask.take ⟨.Request, pool.asked⟩⟩⟩ := by
      rw [accounted_iff, Pool.take_taken, Pool.ask_taken, Pool.take_returned, Pool.ask_returned,
        hpool.taken, hpool.returned]
      exact List.Perm.refl _
    have hbyte := typeByte_eq_tuning_iff htype
    rw [conserved_resource_granted hgrant, ends_request, or_iff_right hnot]
    refine and_congr_right fun _ => ?_
    by_cases htune : type = .REQ_RESOURCE_TUNING
    · rw [if_pos htune, if_pos (hbyte.mpr htune)]
      simp only [if_pos htune]
      rw [show 3 = (pool.ask.take ⟨.Request, pool.asked⟩).asked by simp [hpool.asked]]
      refine Iff.trans ?_ (ends_readResources_iff hheader)
      refine ends_congr (fun _ s => ?_) fun s => conserved_cleanUpRequest
      exact conserved_tune htune
    · rw [if_neg htune, if_neg (mt hbyte.mp htune)]
      simp only [if_neg htune]
      exact conserved_message htune hheader
  · have hfalse : pool.grants 2 = false := by
      rw [← hpool.asked]
      exact eq_false_of_ne_true hgrant
    refine iff_of_true ?_ (Or.inl hfalse)
    have hblock : pool.getBlock .Request = (none, pool.ask) := by
      rw [Pool.getBlock, Pool.answer, if_neg hgrant]
    unfold submitResProvisionReqMsg
    rw [hblock]
    exact conserved_some.mpr (conserved_nothing hpool)

end Conservation

/-! ## The blocks of a signal that is read -/

section ReadSignal

/-- An allocation that throws ends the reader. -/
theorem ends_allocateOrThrow {τ : Type} {s : Input (Workspace τ)}
    {ok : Unit → Input (Workspace τ) → Prop} {failed : Input (Workspace τ) → Prop} :
    Ends (allocateOrThrow : Deserializer τ Unit) s ok failed ↔
      if s.store.pool.answer then
        ok () { s with store := { s.store with pool := s.store.pool.ask } }
      else failed { s with store := { s.store with pool := s.store.pool.ask } } := by
  rw [allocateOrThrow, ends_bind, ends_allocate]
  split
  · exact ends_pure _
  · exact ends_fail _

/-- The words that the bytes hold. -/
def wordsRead : Nat → List Byte → List (BitVec 32)
  | 0, _ => []
  | n + 1, bytes => decode 4 (bytes.take 4) :: wordsRead n (bytes.drop 4)

/-- The arguments are read if their words are there. -/
theorem ends_readArgs {n : Nat} {s : Input (Workspace RawSignal)}
    {ok : List (BitVec 32) → Input (Workspace RawSignal) → Prop}
    {failed : Input (Workspace RawSignal) → Prop} :
    Ends (readArgs n) s ok failed ↔
      4 * n ≤ s.rest.length ∧ ok (wordsRead n s.rest) { s with rest := s.rest.drop (4 * n) } := by
  induction n generalizing ok s with
  | zero =>
    obtain ⟨rest, store⟩ := s
    simp [readArgs, ends_pure, wordsRead]
  | succ n ih =>
    simp only [readArgs, ends_bind, ends_read, ends_pure, ih, List.length_drop, List.drop_drop,
      wordsRead]
    rw [show 4 + 4 * n = 4 * (n + 1) by omega, ← and_assoc]
    refine and_congr_left fun _ => ?_
    omega

/-- The signal that a message holds: its header, the two strings, the words behind them and the
arguments. -/
def signalOf (memory appName scenario words : List Byte) (listArgs : Block) : RawSignal where
  mReqType := typeByte memory
  mSignalCode := decode 4 ((memory.drop 2).take 4)
  mSignalType := decode 4 ((memory.drop 6).take 4)
  mHandle := (decode 8 ((memory.drop 10).take 8)).toInt
  mDuration := (decode 8 ((memory.drop 18).take 8)).toInt
  mAppName := appName
  mScenario := scenario
  mNumArgs := (decode 4 (words.take 4)).toInt
  mProperties := decode 4 ((words.drop 4).take 4)
  mClientPID := (decode 4 ((words.drop 8).take 4)).toInt
  mClientTID := (decode 4 ((words.drop 12).take 4)).toInt
  mListArgs := some (listArgs, wordsRead (decode 4 (words.take 4)).toInt.toNat (words.drop 16))

/-- A test decides which reader goes on. -/
theorem ends_ite {τ α : Type} {c : Prop} [Decidable c] {d d' : Deserializer τ α}
    {s : Input (Workspace τ)} {ok : α → Input (Workspace τ) → Prop}
    {failed : Input (Workspace τ) → Prop} :
    Ends (if c then d else d') s ok failed ↔ if c then Ends d s ok failed else Ends d' s ok failed := by
  split <;> rfl

/-- The ways in which the reading of a signal ends. -/
theorem ends_signal {memory : List Byte} {pool : Pool} {ok : RawSignal → Pool → Prop}
    {failed : Option (Block × List (BitVec 32)) → Pool → Prop} :
    Ends Signal.deserialize ⟨memory, ⟨.new, pool⟩⟩ (fun _ s => ok s.store.object s.store.pool)
        (fun s => failed s.store.object.mListArgs s.store.pool) ↔
      26 ≤ memory.length ∧
      ∃ appName rest, splitString (memory.drop 26) = some (appName, rest) ∧
      if pool.answer then
        ∃ scenario words, splitString rest = some (scenario, words) ∧
        if pool.ask.answer then
          16 ≤ words.length ∧
          if pool.ask.ask.answer then
            let listArgs : Block := ⟨.ArgVector, pool.ask.ask.asked⟩
            let pool' := pool.ask.ask.ask.take listArgs
            let numArgs := (decode 4 (words.take 4)).toInt
            if numArgs < 0 then failed (some (listArgs, [])) pool'
            else if pool'.answer then
              4 * numArgs.toNat ≤ words.length - 16 ∧
                ok (signalOf memory appName scenario words listArgs) pool'.ask
            else failed (some (listArgs, [])) pool'.ask
          else failed none pool.ask.ask.ask
        else failed none pool.ask.ask
      else failed none pool.ask := by
  simp only [Signal.deserialize, ends_bind, ends_read, ends_assign, ends_readString,
    ends_allocateOrThrow, ends_getBlock, ends_ite, ends_fail, ends_readArgs, List.drop_drop,
    List.length_drop]
  have hheader : ∀ (l : Nat) (p : Prop), (1 ≤ l ∧ 1 ≤ l - 1 ∧ 4 ≤ l - 1 - 1 ∧ 4 ≤ l - 1 - 1 - 4 ∧
      8 ≤ l - 1 - 1 - 4 - 4 ∧ 8 ≤ l - 1 - 1 - 4 - 4 - 8 ∧ p) ↔ 26 ≤ l ∧ p := by
    intro l p
    simp only [← and_assoc]
    exact and_congr_left fun _ => by omega
  have hwords : ∀ (l : Nat) (p : Prop), (4 ≤ l ∧ 4 ≤ l - 4 ∧ 4 ≤ l - 4 - 4 ∧ 4 ≤ l - 4 - 4 - 4 ∧ p) ↔
      16 ≤ l ∧ p := by
    intro l p
    simp only [← and_assoc]
    exact and_congr_left fun _ => by omega
  rw [hheader]
  simp only [hwords]
  simp only [Nat.sub_sub]
  rfl

end ReadSignal

/-! ## The vector of an accepted signal -/

section Leak

/-- The vector of arguments was taken, was not returned, and the request does not own it. -/
structure Leaks (w : Workspace RawRequest) : Prop where
  taken : ∃ b ∈ w.pool.taken, b.kind = .ArgVector
  returned : ∀ b ∈ w.pool.returned, b.kind ≠ .ArgVector
  blocks : ∀ b ∈ w.object.blocks, b.kind ≠ .ArgVector

/-- A vector that is lost stays lost, whatever is taken after it. -/
theorem Leaks.of_pool {object : RawRequest} {pool pool' : Pool} (h : Leaks ⟨object, pool⟩)
    (htaken : ∀ b ∈ pool.taken, b ∈ pool'.taken) (hreturned : pool'.returned = pool.returned) :
    Leaks ⟨object, pool'⟩ := by
  obtain ⟨⟨b, hb, hkind⟩, hback, hblocks⟩ := h
  refine ⟨⟨b, htaken b hb, hkind⟩, ?_, hblocks⟩
  show ∀ b ∈ pool'.returned, b.kind ≠ .ArgVector
  rw [hreturned]
  exact hback

/-- To take another kind of block does not bring it back. -/
theorem preserves_getBlock_bind {α : Type} {kind : BlockKind} {f : Block → Deserializer RawRequest α}
    (hf : ∀ block, block.kind = kind → Preserves Leaks (f block)) :
    Preserves Leaks (getBlock kind >>= f) := by
  intro s h
  have hasked : Leaks ⟨s.store.object, s.store.pool.ask⟩ := h.of_pool (fun _ hb => hb) rfl
  by_cases hgrant : s.store.pool.answer = true
  · have hblock : (getBlock kind : Deserializer RawRequest Block) s =
        .ok ⟨kind, s.store.pool.asked⟩ { s with store := { s.store with
          pool := s.store.pool.ask.take ⟨kind, s.store.pool.asked⟩ } } := by
      simp [getBlock, Pool.getBlock, hgrant]
    rw [bind_ok hblock]
    exact hf _ rfl _ (hasked.of_pool (fun _ => List.mem_cons_of_mem _) rfl)
  · have hblock : (getBlock kind : Deserializer RawRequest Block) s =
        .error (.failed .RC_MEMORY_POOL_BLOCK_RETRIEVAL_FAILURE)
          { s with store := { s.store with pool := s.store.pool.ask } } := by
      simp [getBlock, Pool.getBlock, hgrant]
    rw [bind_error hblock]
    exact hasked

/-- Nor does a resource that is added. -/
theorem preserves_addResource {node : RawNode} (hnode : node.node.kind ≠ .ArgVector)
    (hresource : node.resource.kind ≠ .ArgVector) : Preserves Leaks (addResource node) := by
  rintro ⟨rest, object, pool⟩ h
  have hadded : ∀ {object' : RawRequest} {list : Block} {nodes : List RawNode},
      object'.mResourceList = some (list, nodes ++ [node]) → list.kind ≠ .ArgVector →
      (∀ b ∈ nodes.flatMap (fun n => [n.resource, n.node]), b.kind ≠ .ArgVector) →
      ∀ b ∈ object'.blocks, b.kind ≠ .ArgVector := by
    intro object' list nodes hlist hkind hnodes b hb
    simp only [RawRequest.blocks, hlist, List.flatMap_append, List.flatMap_cons, List.flatMap_nil,
      List.append_nil, List.mem_append, List.mem_cons, List.not_mem_nil, or_false] at hb
    rcases hb with (hb | rfl | rfl) | rfl
    · exact hnodes b hb
    · exact hresource
    · exact hnode
    · exact hkind
  unfold addResource
  cases hlist : object.mResourceList with
  | some entry =>
    obtain ⟨list, nodes⟩ := entry
    have hblocks : object.blocks = nodes.flatMap (fun n => [n.resource, n.node]) ++ [list] := by
      simp [RawRequest.blocks, hlist]
    have hkinds := h.blocks
    simp only [hblocks, List.mem_append, List.mem_singleton] at hkinds
    exact ⟨h.taken, h.returned,
      hadded rfl (hkinds list (Or.inr rfl)) fun b hb => hkinds b (Or.inl hb)⟩
  | none =>
    have hasked : Leaks ⟨object, pool.ask⟩ := h.of_pool (fun _ hb => hb) rfl
    by_cases hgrant : pool.answer = true
    · have hblock : pool.getBlock .DLManager =
          (some ⟨.DLManager, pool.asked⟩, pool.ask.take ⟨.DLManager, pool.asked⟩) := by
        simp [Pool.getBlock, hgrant]
      have htaken : Leaks ⟨object, pool.ask.take ⟨.DLManager, pool.asked⟩⟩ :=
        hasked.of_pool (fun _ => List.mem_cons_of_mem _) rfl
      simp only [hblock]
      refine ⟨htaken.taken, htaken.returned, @hadded _ _ [] rfl ?_ ?_⟩
      · exact BlockKind.noConfusion
      · intro b hb
        cases hb
    · have hblock : pool.getBlock .DLManager = (none, pool.ask) := by
        simp [Pool.getBlock, hgrant]
      simp only [hblock]
      exact hasked

/-- Nor do all those of the signal. -/
theorem preserves_copyResources (signal : Signal) (locks : List (Option Resource))
    (listIndex : Nat) : Preserves Leaks (copyResources signal locks listIndex) := by
  induction locks generalizing listIndex with
  | nil => exact Preserves.pure ()
  | cons entry locks ih =>
    cases entry with
    | none => exact ih listIndex
    | some lock =>
      refine preserves_getBlock_bind fun resource hresource => ?_
      cases fillPlaceholders signal (List.range lock.getValuesCount.toNat) lock listIndex with
      | error fault => exact Preserves.throw _
      | ok filled =>
        cases filled with
        | none => exact Preserves.throw _
        | some filled =>
          refine preserves_getBlock_bind fun node hnode => ?_
          refine Preserves.bind (preserves_addResource ?_ ?_) fun _ => ih _
          · exact fun h => BlockKind.noConfusion (hnode.symm.trans h)
          · exact fun h => BlockKind.noConfusion (hresource.symm.trans h)

variable {env : Env} {registry : SignalRegistry} {req : ReqPtr} {found : Nat → Server × Answer}
  {info buffer block : Block} {pool : Pool}

/-- A vector that was taken and that nobody gives back or has is a leak. -/
theorem not_conserved_of_leak {o : Outcome} (htaken : ∃ b ∈ o.pool.taken, b.kind = .ArgVector)
    (hreturned : ∀ b ∈ o.pool.returned, b.kind ≠ .ArgVector)
    (howned : ∀ b ∈ o.owned, b.kind ≠ .ArgVector) : ¬ o.Conserved := by
  intro hconserved
  obtain ⟨b, hb, hkind⟩ := htaken
  rcases List.mem_append.mp (hconserved.mem_iff.mp hb) with hback | hown
  · exact hreturned b hback hkind
  · exact howned b hown hkind

/-- Freeing the buffer and the info does not bring the vector back. -/
theorem not_conserved_finish {o : Outcome} (hinfo : info.kind = .MsgForwardInfo)
    (hbuffer : buffer.kind = .Buffer) (htaken : ∃ b ∈ o.pool.taken, b.kind = .ArgVector)
    (hreturned : ∀ b ∈ o.pool.returned, b.kind ≠ .ArgVector)
    (howned : ∀ b ∈ o.owned, b.kind ≠ .ArgVector) : ¬ (o.finish info buffer).Conserved := by
  refine not_conserved_of_leak htaken ?_ howned
  intro b hb
  simp only [Outcome.finish, Pool.freeBlock, List.mem_cons] at hb
  rcases hb with rfl | rfl | hb
  · rw [hinfo]
    exact BlockKind.noConfusion
  · rw [hbuffer]
    exact BlockKind.noConfusion
  · exact hreturned b hb

/-- The request that is made of the signal goes its way, and the vector of the signal is not part of
it. -/
theorem not_conserved_submitted {raw : RawRequest} {request : Request} {isValidated : Bool}
    (hinfo : info.kind = .MsgForwardInfo) (hbuffer : buffer.kind = .Buffer)
    (hblock : block.kind = .Request) (h : Leaks ⟨raw, pool⟩) :
    ¬ ((submitResProvisionRequest env req found block raw request isValidated pool).finish info
        buffer).Conserved := by
  have hnone : ∀ b ∈ ([] : List Block), b.kind ≠ .ArgVector := fun b hb => (by cases hb)
  have hkind : block.kind ≠ .ArgVector := fun h => BlockKind.noConfusion (hblock.symm.trans h)
  obtain ⟨htaken, hreturned, hblocks⟩ := h
  unfold submitResProvisionRequest
  split
  · -- freed
    obtain ⟨hsame, hback⟩ := foldl_freeBlock raw.blocks pool
    refine not_conserved_finish hinfo hbuffer ?_ ?_ hnone
    · obtain ⟨b, hb, hvector⟩ := htaken
      exact ⟨b, (congrArg (b ∈ ·) hsame).mpr hb, hvector⟩
    · intro b hb
      simp only [Pool.cleanUpRequest, Pool.freeBlock] at hb hback
      rw [hback, List.mem_cons, List.mem_append, List.mem_reverse] at hb
      rcases hb with rfl | hb | hb
      · exact hkind
      · exact hblocks b hb
      · exact hreturned b hb
  · -- queued
    refine not_conserved_finish hinfo hbuffer htaken hreturned ?_
    intro b hb
    rcases List.mem_cons.mp hb with rfl | hb
    · exact hkind
    · exact hblocks b hb
  · exact not_conserved_finish hinfo hbuffer htaken hreturned hnone

/-- An accepted signal loses its vector, whatever becomes of its request. -/
theorem not_conserved_translated {signal : Signal} (hinfo : info.kind = .MsgForwardInfo)
    (hbuffer : buffer.kind = .Buffer) (h : Leaks ⟨.new, pool⟩) :
    ¬ Conserved ((submitTranslated env registry req found signal pool).map (·.finish info buffer)) := by
  have hnone : ∀ b ∈ ([] : List Block), b.kind ≠ .ArgVector := fun b hb => (by cases hb)
  have hdropped : ∀ {w : Workspace RawRequest}, Leaks w →
      ¬ Conserved ((some (⟨w.pool, []⟩ : Outcome)).map (·.finish info buffer)) := fun h hc =>
    not_conserved_finish hinfo hbuffer h.taken h.returned hnone (conserved_some.mp hc)
  have hasked : Leaks ⟨.new, pool.ask⟩ := h.of_pool (fun _ hb => hb) rfl
  unfold submitTranslated
  split
  · exact hdropped h
  · by_cases hgrant : pool.answer = true
    · have hblock : pool.getBlock .Request =
          (some ⟨.Request, pool.asked⟩, pool.ask.take ⟨.Request, pool.asked⟩) := by
        simp [Pool.getBlock, hgrant]
      have htaken : Leaks ⟨.new, pool.ask.take ⟨.Request, pool.asked⟩⟩ :=
        hasked.of_pool (fun _ => List.mem_cons_of_mem _) rfl
      simp only [hblock]
      split
      · split
        · exact not_conserved_none
        · rename_i locks _
          have hcopied := preserves_copyResources signal locks 0
            ⟨[], ⟨.new, pool.ask.take ⟨.Request, pool.asked⟩⟩⟩ htaken
          split
          · rename_i s hresult
            rw [hresult] at hcopied
            exact fun hc => not_conserved_submitted hinfo hbuffer rfl hcopied (conserved_some.mp hc)
          · rename_i s hresult
            rw [hresult] at hcopied
            exact hdropped hcopied
          · exact not_conserved_none
      · exact fun hc => not_conserved_submitted hinfo hbuffer rfl htaken (conserved_some.mp hc)
    · have hblock : pool.getBlock .Request = (none, pool.ask) := by
        simp [Pool.getBlock, hgrant]
      simp only [hblock]
      exact hdropped hasked

end Leak

/-! ## Signal messages -/

/-- A signal that does not get as far as its translation: it is turned away by a rate limit, for its
client or by the verification, or it is relayed. -/
def TurnedAway (env : Env) (registry : SignalRegistry) (found : Nat → Server × Answer)
    (signal : Signal) : Prop :=
  isGlobalRateLimitHonored env (found 0).1.tracker.manager = false ∨
    ((found 1).1.tracker.clients.clientExists signal.mClientPID signal.mClientTID ||
      (signal.mReqType != .REQ_SIGNAL_UNTUNING &&
        ((found 2).1.tracker.clients.createNewClient signal.mClientPID signal.mClientTID
          (found 2).2.creation).1)) = false ∨
    (found 3).2.rateLimitHonored = false ∨
    (signal.mReqType = .REQ_SIGNAL_TUNING ∧
      SignalHandler.VerifyIncomingRequest registry (found 4).1.tracker.clients signal = .ok none) ∨
    (signal.mReqType ≠ .REQ_SIGNAL_TUNING ∧ signal.mReqType ≠ .REQ_SIGNAL_UNTUNING)

/-- A signal is turned away without a crash exactly under the conditions of `TurnedAway`. -/
theorem processIncomingSignal_eq_none_iff {env : Env} {registry : SignalRegistry}
    {found : Nat → Server × Answer} {signal : Signal} :
    processIncomingSignal env registry found signal = .ok none ↔
      TurnedAway env registry found signal := by
  unfold processIncomingSignal TurnedAway
  dsimp only
  generalize isGlobalRateLimitHonored env (found 0).1.tracker.manager = global
  generalize ((found 1).1.tracker.clients.clientExists signal.mClientPID signal.mClientTID ||
    _ : Bool) = client
  generalize (found 3).2.rateLimitHonored = rate
  cases global with
  | false => simp
  | true =>
    cases client with
    | false => simp
    | true =>
      cases rate with
      | false => simp
      | true => cases signal.mReqType <;> simp

/-- When a signal message keeps its blocks.  Its vector is freed with the signal, so the signal has to
be refused or turned away; and if it is refused before its vector is assigned, the recycled block must
hold no old pointer. -/
def SignalKeeps (env : Env) (registry : SignalRegistry) (grants : Nat → Bool) (world : Surroundings)
    (memory : List Byte) (type : RequestType) : Prop :=
  grants 2 = false ∨ 26 ≤ memory.length ∧
    ∃ appName rest, splitString (memory.drop 26) = some (appName, rest) ∧
    if grants 3 then
      ∃ scenario words, splitString rest = some (scenario, words) ∧
      if grants 4 then
        16 ≤ words.length ∧
        if grants 5 then
          let numArgs := (decode 4 (words.take 4)).toInt
          numArgs < 0 ∨ grants 6 = false ∨
            4 * numArgs.toNat ≤ words.length - 16 ∧
            let raw := signalOf memory appName scenario words ⟨.ArgVector, 5⟩
            TurnedAway env registry world.found (raw.toSignal type
              (if type = .REQ_SIGNAL_TUNING then world.handle else raw.mHandle))
        else world.stale = none
      else world.stale = none
    else world.stale = none

section SignalConservation

variable {env : Env} {registry : SignalRegistry} {req : ReqPtr} {world : Surroundings}
  {memory : List Byte} {type : RequestType} {info buffer block : Block} {pool : Pool}

/-- A signal with its vector returns both. -/
theorem conserved_cleanUpSignal {raw : RawSignal} {listArgs : Block} {args : List (BitVec 32)}
    {stale : Option Block} (hargs : raw.mListArgs = some (listArgs, args))
    (htaken : pool.taken = [listArgs, block, buffer, info]) (hreturned : pool.returned = []) :
    (Outcome.finish ⟨pool.cleanUpSignal block raw stale, []⟩ info buffer).Conserved := by
  simp only [Outcome.Conserved, Outcome.finish, Pool.cleanUpSignal, hargs, Pool.freeBlock, htaken,
    hreturned, List.append_nil]
  exact (List.reverse_perm [info, buffer, block, listArgs])

/-- A signal without its vector returns what is left in the recycled block, if anything is. -/
theorem conserved_cleanUpSignal_iff {raw : RawSignal} {stale : Option Block}
    (hargs : raw.mListArgs = none) (htaken : pool.taken = [block, buffer, info])
    (hreturned : pool.returned = []) :
    (Outcome.finish ⟨pool.cleanUpSignal block raw stale, []⟩ info buffer).Conserved ↔
      stale = none := by
  cases stale with
  | none =>
    refine iff_of_true ?_ rfl
    simp only [Outcome.Conserved, Outcome.finish, Pool.cleanUpSignal, hargs, Pool.freeBlock, htaken,
      hreturned, List.append_nil]
    exact (List.reverse_perm [info, buffer, block])
  | some other =>
    refine iff_of_false (fun hconserved => ?_) (Option.some_ne_none other)
    have hlength := hconserved.length_eq
    simp [Outcome.finish, Pool.cleanUpSignal, hargs, Pool.freeBlock, htaken, hreturned] at hlength

/-- Where the pool gives the block of a `Signal`, its reading decides. -/
theorem conserved_signal_granted (hgrant : pool.grants pool.asked = true) :
    Conserved (submitSignalRequest env registry req world memory type info buffer pool) ↔
      Ends Signal.deserialize ⟨memory, ⟨.new, pool.ask.take ⟨.Signal, pool.asked⟩⟩⟩
        (fun _ s => Conserved ((processSignal env registry req world type ⟨.Signal, pool.asked⟩
          s.store.object s.store.pool).map (·.finish info buffer)))
        (fun s => (Outcome.finish ⟨s.store.pool.cleanUpSignal ⟨.Signal, pool.asked⟩
          { RawSignal.new with mListArgs := s.store.object.mListArgs } world.stale, []⟩
          info buffer).Conserved) := by
  have hblock : pool.getBlock .Signal =
      (some ⟨.Signal, pool.asked⟩, pool.ask.take ⟨.Signal, pool.asked⟩) := by
    simp [Pool.getBlock, Pool.answer, hgrant]
  unfold submitSignalRequest Ends
  rw [hblock]
  dsimp only
  generalize Signal.deserialize _ = result
  cases result with
  | ok _ s => exact Iff.rfl
  | error stop s =>
    cases stop with
    | failed code => exact conserved_some
    | fault => exact iff_of_false not_conserved_none not_false

/-- A signal that was read keeps its blocks if it is turned away. -/
theorem conserved_processSignal_iff {raw : RawSignal} {listArgs : Block} {args : List (BitVec 32)}
    (hinfo : info.kind = .MsgForwardInfo) (hbuffer : buffer.kind = .Buffer)
    (hblock : block.kind = .Signal) (hvector : listArgs.kind = .ArgVector)
    (hargs : raw.mListArgs = some (listArgs, args))
    (htaken : pool.taken = [listArgs, block, buffer, info]) (hreturned : pool.returned = []) :
    Conserved ((processSignal env registry req world type block raw pool).map
        (·.finish info buffer)) ↔
      TurnedAway env registry world.found (raw.toSignal type
        (if type = .REQ_SIGNAL_TUNING then world.handle else raw.mHandle)) := by
  rw [← processIncomingSignal_eq_none_iff]
  unfold processSignal
  split
  · rename_i hnone
    exact iff_of_true (conserved_some.mpr (conserved_cleanUpSignal hargs htaken hreturned)) hnone
  · rename_i signal hsome
    refine iff_of_false (not_conserved_translated hinfo hbuffer ⟨?_, ?_, ?_⟩) ?_
    · refine ⟨listArgs, ?_, hvector⟩
      show listArgs ∈ pool.taken
      rw [htaken]
      exact List.mem_cons_self
    · show ∀ b ∈ block :: pool.returned, b.kind ≠ .ArgVector
      rw [hreturned]
      intro b hb
      rw [List.mem_singleton.mp hb, hblock]
      exact BlockKind.noConfusion
    · intro b hb
      cases hb
    · rw [hsome]
      exact fun h => by cases h
  · rename_i fault herror
    refine iff_of_false not_conserved_none ?_
    rw [herror]
    exact fun h => by cases h

/-- **A signal message keeps its blocks** exactly under its condition. -/
theorem conserved_signal_iff (hpool : Forwarded pool info buffer) :
    Conserved (submitSignalRequest env registry req world memory type info buffer pool) ↔
      SignalKeeps env registry pool.grants world memory type := by
  unfold SignalKeeps
  by_cases hgrant : pool.grants pool.asked = true
  · have hasked := hpool.asked
    have hnot : ¬ pool.grants 2 = false := by
      rw [← hasked, hgrant]
      exact Bool.true_eq_false.mp
    rw [conserved_signal_granted hgrant, or_iff_right hnot]
    refine Iff.trans (@ends_signal memory (pool.ask.take ⟨.Signal, pool.asked⟩)
      (fun raw pool' => Conserved ((processSignal env registry req world type
        ⟨.Signal, pool.asked⟩ raw pool').map (·.finish info buffer)))
      (fun mListArgs pool' => (Outcome.finish ⟨pool'.cleanUpSignal ⟨.Signal, pool.asked⟩
        { RawSignal.new with mListArgs := mListArgs } world.stale, []⟩ info buffer).Conserved)) ?_
    have htaken : ∀ block : Block, block :: pool.taken = [block, buffer, info] := fun block => by
      rw [hpool.taken]
    have hvector : ∀ first block : Block,
        first :: block :: pool.taken = [first, block, buffer, info] := fun first block => by
      rw [hpool.taken]
    refine and_congr_right fun _ => exists_congr fun appName => exists_congr fun rest =>
      and_congr_right fun _ => ?_
    simp only [Pool.answer, Pool.ask_asked, Pool.take_asked, Pool.ask_grants, Pool.take_grants,
      hasked, Nat.reduceAdd]
    by_cases happName : pool.grants 3 = true
    · rw [if_pos happName, if_pos happName]
      refine exists_congr fun scenario => exists_congr fun words => and_congr_right fun _ => ?_
      by_cases hscenario : pool.grants 4 = true
      · rw [if_pos hscenario, if_pos hscenario]
        refine and_congr_right fun _ => ?_
        by_cases hlist : pool.grants 5 = true
        · rw [if_pos hlist, if_pos hlist]
          by_cases hcount : (decode 4 (words.take 4)).toInt < 0
          · rw [if_pos hcount]
            exact iff_of_true (conserved_cleanUpSignal rfl (hvector _ _) hpool.returned)
              (Or.inl hcount)
          · rw [if_neg hcount, or_iff_right hcount]
            by_cases hresize : pool.grants 6 = true
            · rw [if_pos hresize, or_iff_right (by simp [hresize])]
              exact and_congr_right fun _ => conserved_processSignal_iff hpool.infoKind
                hpool.bufferKind rfl rfl rfl (hvector _ _) hpool.returned
            · rw [if_neg hresize]
              exact iff_of_true (conserved_cleanUpSignal rfl (hvector _ _) hpool.returned)
                (Or.inl (eq_false_of_ne_true hresize))
        · rw [if_neg hlist, if_neg hlist]
          exact conserved_cleanUpSignal_iff rfl (htaken _) hpool.returned
      · rw [if_neg hscenario, if_neg hscenario]
        exact conserved_cleanUpSignal_iff rfl (htaken _) hpool.returned
    · rw [if_neg happName, if_neg happName]
      exact conserved_cleanUpSignal_iff rfl (htaken _) hpool.returned
  · have hfalse : pool.grants 2 = false := by
      rw [← hpool.asked]
      exact eq_false_of_ne_true hgrant
    refine iff_of_true ?_ (Or.inl hfalse)
    have hblock : pool.getBlock .Signal = (none, pool.ask) := by
      rw [Pool.getBlock, Pool.answer, if_neg hgrant]
    unfold submitSignalRequest
    rw [hblock]
    exact conserved_some.mpr (conserved_nothing hpool)

end SignalConservation

/-! ## Every message -/

/-- When a message keeps its blocks: the server cannot take the two blocks to receive it, or it gets
as far as a front end, which keeps them.  Nothing on the way there frees what the listener took. -/
def KeepsBlocks (env : Env) (registry : SignalRegistry) (req : ReqPtr) (grants : Nat → Bool)
    (world : Surroundings) (memory : List Byte) : Prop :=
  grants 0 = false ∨ grants 1 = false ∨
    (0 < world.bytesRead ∧ 0 ≤ world.handle ∧ world.threadPool ∧ world.enqueued ∧
      match RequestType.ofByte (typeByte memory) with
      | some .REQ_RESOURCE_TUNING => ResourceKeeps grants req world memory .REQ_RESOURCE_TUNING
      | some .REQ_RESOURCE_RETUNING => ResourceKeeps grants req world memory .REQ_RESOURCE_RETUNING
      | some .REQ_RESOURCE_UNTUNING => ResourceKeeps grants req world memory .REQ_RESOURCE_UNTUNING
      | some .REQ_SIGNAL_TUNING => SignalKeeps env registry grants world memory .REQ_SIGNAL_TUNING
      | some .REQ_SIGNAL_UNTUNING =>
        SignalKeeps env registry grants world memory .REQ_SIGNAL_UNTUNING
      | some .REQ_SIGNAL_RELAY => SignalKeeps env registry grants world memory .REQ_SIGNAL_RELAY
      | some .REQ_PROP_GET | none => False)

section Message

variable {env : Env} {registry : SignalRegistry} {req : ReqPtr} {world : Surroundings}
  {memory : List Byte} {info buffer : Block} {pool : Pool} {grants : Nat → Bool}

/-- A message that the receiver drops takes its two blocks with it. -/
theorem not_conserved_dropped (hpool : Forwarded pool info buffer) :
    ¬ Conserved (some ⟨pool, []⟩) := by
  rw [conserved_some]
  intro hconserved
  have hlength := hconserved.length_eq
  simp [hpool.taken, hpool.returned] at hlength

/-- **A forwarded message** keeps its blocks exactly if it gets a handle, a worker takes it, and the
path of its type keeps them. -/
theorem conserved_forwardMessage_iff (hpool : Forwarded pool info buffer) :
    Conserved (forwardMessage env registry req world memory info buffer pool) ↔
      0 ≤ world.handle ∧ world.threadPool ∧ world.enqueued ∧
        match RequestType.ofByte (typeByte memory) with
        | some .REQ_RESOURCE_TUNING =>
          ResourceKeeps pool.grants req world memory .REQ_RESOURCE_TUNING
        | some .REQ_RESOURCE_RETUNING =>
          ResourceKeeps pool.grants req world memory .REQ_RESOURCE_RETUNING
        | some .REQ_RESOURCE_UNTUNING =>
          ResourceKeeps pool.grants req world memory .REQ_RESOURCE_UNTUNING
        | some .REQ_SIGNAL_TUNING =>
          SignalKeeps env registry pool.grants world memory .REQ_SIGNAL_TUNING
        | some .REQ_SIGNAL_UNTUNING =>
          SignalKeeps env registry pool.grants world memory .REQ_SIGNAL_UNTUNING
        | some .REQ_SIGNAL_RELAY =>
          SignalKeeps env registry pool.grants world memory .REQ_SIGNAL_RELAY
        | some .REQ_PROP_GET | none => False := by
  have hdropped := not_conserved_dropped hpool
  unfold forwardMessage
  by_cases hhandle : world.handle < 0
  · rw [if_pos hhandle]
    exact iff_of_false hdropped fun h => by omega
  · rw [if_neg hhandle]
    have hnonneg : 0 ≤ world.handle := by omega
    cases hpresent : world.threadPool with
    | false => simpa using hdropped
    | true =>
      cases henqueued : world.enqueued with
      | false => simpa using hdropped
      | true =>
        simp only [Bool.not_true, Bool.false_eq_true, if_false, hnonneg, true_and]
        cases htype : RequestType.ofByte (typeByte memory) with
        | none => simpa using hdropped
        | some type =>
          cases type with
          | REQ_RESOURCE_TUNING | REQ_RESOURCE_RETUNING | REQ_RESOURCE_UNTUNING =>
            exact conserved_resource_iff hpool htype
          | REQ_SIGNAL_TUNING | REQ_SIGNAL_UNTUNING | REQ_SIGNAL_RELAY =>
            exact conserved_signal_iff hpool
          | REQ_PROP_GET => simpa using hdropped

end Message

/-- **Blocks are conserved.**  What the listener, the front ends and the worker take for a message is
returned once or owned by its queued request, exactly under `KeepsBlocks`. -/
theorem blocks_conserved_iff (env : Env) (registry : SignalRegistry) (req : ReqPtr)
    (world : Surroundings) (memory : List Byte) (grants : Nat → Bool) :
    Conserved (ListenForClientRequests env registry req world memory (.fresh grants)) ↔
      KeepsBlocks env registry req grants world memory := by
  unfold ListenForClientRequests KeepsBlocks
  by_cases hinfo : grants 0 = true
  · have hinfoBlock : (Pool.fresh grants).getBlock .MsgForwardInfo =
        (some ⟨.MsgForwardInfo, 0⟩, (Pool.fresh grants).ask.take ⟨.MsgForwardInfo, 0⟩) := by
      simp [Pool.getBlock, Pool.answer, Pool.fresh, hinfo]
    rw [hinfoBlock, or_iff_right (by simp [hinfo])]
    dsimp only
    by_cases hbuffer : grants 1 = true
    · have hbufferBlock : ((Pool.fresh grants).ask.take ⟨.MsgForwardInfo, 0⟩).getBlock .Buffer =
          (some ⟨.Buffer, 1⟩,
            ((Pool.fresh grants).ask.take ⟨.MsgForwardInfo, 0⟩).ask.take ⟨.Buffer, 1⟩) := by
        simp [Pool.getBlock, Pool.answer, Pool.fresh, hbuffer]
      have hpool : Forwarded
          (((Pool.fresh grants).ask.take ⟨.MsgForwardInfo, 0⟩).ask.take ⟨.Buffer, 1⟩)
          ⟨.MsgForwardInfo, 0⟩ ⟨.Buffer, 1⟩ := ⟨rfl, rfl, rfl, rfl, rfl⟩
      rw [hbufferBlock, or_iff_right (by simp [hbuffer])]
      dsimp only
      by_cases hread : world.bytesRead > 0
      · rw [if_pos hread, conserved_forwardMessage_iff hpool]
        exact (and_iff_right hread).symm
      · rw [if_neg hread]
        exact iff_of_false (not_conserved_dropped hpool) fun h => hread h.1
    · have hbufferBlock : ((Pool.fresh grants).ask.take ⟨.MsgForwardInfo, 0⟩).getBlock .Buffer =
          (none, ((Pool.fresh grants).ask.take ⟨.MsgForwardInfo, 0⟩).ask) := by
        simp [Pool.getBlock, Pool.answer, Pool.fresh, hbuffer]
      rw [hbufferBlock]
      exact iff_of_true (conserved_some.mpr (List.Perm.refl _))
        (Or.inl (eq_false_of_ne_true hbuffer))
  · have hinfoBlock : (Pool.fresh grants).getBlock .MsgForwardInfo =
        (none, (Pool.fresh grants).ask) := by
      simp [Pool.getBlock, Pool.answer, Pool.fresh, hinfo]
    rw [hinfoBlock]
    exact iff_of_true (conserved_some.mpr (List.Perm.refl _)) (Or.inl (eq_false_of_ne_true hinfo))

/-! ## A leak -/

namespace Sample

/-- The server as every call finds it: the first client is known. -/
def knownClient : Surroundings where
  bytesRead := 580
  handle := 2
  threadPool := true
  enqueued := true
  stale := none
  found := fun _ => ((machine env).exec server known, answer)

/-- A message of that client: a signal without strings and arguments, as it lies in the buffer. -/
def signalMessage (type : RequestType) : List Byte :=
  [1, type.toByte] ++ List.replicate 8 0 ++ encode 8 1 ++ List.replicate 8 0 ++ [0, 0] ++
    List.replicate 8 0 ++ encode 4 1 ++ encode 4 1 ++ List.replicate 536 0

end Sample

set_option maxRecDepth 4000 in
/-- A signal untune of a known client is accepted and its request is queued; the vector of its arguments
stays behind. -/
theorem acceptedSignal_leaks_vector :
    ¬ Conserved (ListenForClientRequests Sample.env Sample.signalRegistry 2 Sample.knownClient
      (Sample.signalMessage .REQ_SIGNAL_UNTUNING) (.fresh fun _ => true)) := by
  decide +kernel

end ResourceTuner
