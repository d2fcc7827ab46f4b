import ResourceTuner.Core.RequestHandler
import ResourceTuner.Signals.SignalRegistry

/-!
# From signals to requests

`SignalHandler.cpp`.  A signal is verified against the signal registry, turned into a resource
request by copying the resources of its configuration, and submitted to the resource path, whose
own verifier then sees the request as if a client had sent it.

* **`SignalHandler.VerifyIncomingRequest`** — the signal path's verifier;
* **`createResourceTuningRequest`** — the translation, with its placeholders;
* **`signal_admission_iff`** — when the second verifier agrees with the first.

The priority is mapped from the client's scale to the internal scale by both verifiers.  For a
system client the two scales coincide and the second mapping is the identity; for a third-party
client the internal priority is not one a client may ask for.
-/

namespace ResourceTuner

/-- `class Signal`, without the application name and the scenario. -/
structure Signal extends Message where
  mSignalCode : BitVec 32
  mSignalType : BitVec 32
  mNumArgs : Int
  mListArgs : Option (List (BitVec 32))
  deriving DecidableEq, Repr

def Signal.getPriority (s : Signal) : Int := s.toMessage.getPriority

/-- What the source does not guard against: a list pointer that is null, an index past the end
of a vector. -/
inductive Fault where
  | nullDereference
  | outOfBounds
  deriving DecidableEq, Repr

namespace SignalHandler

/-- `getRequestPriority` of `SignalHandler.cpp`, word for word the one of `RequestHandler.cpp`. -/
def getRequestPriority : Permissions → Int → Int := ResourceTuner.getRequestPriority

/-- `VerifyIncomingRequest` of the signal path, `none` for a rejected signal. -/
def VerifyIncomingRequest (registry : SignalRegistry) (clients : ClientDataManager)
    (signal : Signal) : Except Fault (Option Signal) :=
  match registry.getSignalConfigById signal.mSignalCode signal.mSignalType with
  | none => .ok none
  | some signalInfo =>
    match clients.getClientLevelByClientID signal.mClientPID with
    | none => .ok none
    | some clientPermissions =>
      let reqSpecifiedPriority := signal.getPriority
      if reqSpecifiedPriority > REQ_PRIORITY_LOW ∨ reqSpecifiedPriority < REQ_PRIORITY_HIGH then
        .ok none
      else
        let allowedPriority := getRequestPriority clientPermissions reqSpecifiedPriority
        if allowedPriority = -1 then .ok none
        else
          let message := signal.toMessage.setPriority allowedPriority
          match signalInfo.mPermissions with
          | none => .error .nullDereference
          | some permissions =>
            if clientPermissions ∉ permissions then .ok none
            else
              -- a signal without a duration gets the configured one
              let duration := if message.mDuration = 0 then signalInfo.mTimeout else message.mDuration
              .ok (some { signal with toMessage := { message with mDuration := duration } })

end SignalHandler

/-- The answers of the memory pool to `createResourceTuningRequest`: the block of the request,
and for each configured resource the blocks of its copy, of its node and of the list. -/
structure TranslationBlocks where
  request : Bool
  resource : Nat → Bool
  node : Nat → Bool
  list : Nat → Bool

/-- The inner loop of `createResourceTuningRequest` over the value positions `js`: every `-1` is
a placeholder and takes the next argument.  `none` when the arguments run out. -/
def fillPlaceholders (signal : Signal) :
    List Nat → Resource → Nat → Except Fault (Option (Resource × Nat))
  | [], resource, listIndex => .ok (some (resource, listIndex))
  | j :: js, resource, listIndex =>
    if resource.getValueAt j = -1 then
      match signal.mListArgs with
      | none => .ok none
      | some listArgs =>
        if listIndex < signal.mNumArgs then
          match listArgs[listIndex]? with
          | none => .error .outOfBounds
          | some arg =>
            fillPlaceholders signal js (resource.setValueAt j arg.toInt) (listIndex + 1)
        else .ok none
    else fillPlaceholders signal js resource listIndex

/-- The outer loop, from the `i`-th configured resource on.  A failed allocation throws and is
caught: the translation answers null. -/
def addSignalResources (signal : Signal) (blocks : TranslationBlocks) (ptr : Nat) :
    List (Option Resource) → Nat → Nat → Request → Except Fault (Option Request)
  | [], _, _, request => .ok (some request)
  | none :: locks, i, listIndex, request =>
    addSignalResources signal blocks ptr locks (i + 1) listIndex request
  | some lock :: locks, i, listIndex, request =>
    if !blocks.resource i then .ok none
    else
      match fillPlaceholders signal (List.range lock.getValuesCount.toNat) lock listIndex with
      | .error fault => .error fault
      | .ok none => .ok none
      | .ok (some (resource, listIndex)) =>
        if !blocks.node i then .ok none
        else
          addSignalResources signal blocks ptr locks (i + 1) listIndex
            (request.addResource (blocks.list i) ⟨(ptr, i), some resource⟩)

/-- `createResourceTuningRequest`; `ptr` is the address of the new request. -/
def createResourceTuningRequest (registry : SignalRegistry) (signal : Signal)
    (blocks : TranslationBlocks) (ptr : Nat) : Except Fault (Option Request) :=
  match registry.getSignalConfigById signal.mSignalCode signal.mSignalType with
  | none => .ok none
  | some signalInfo =>
    if !blocks.request then .ok none
    else
      match signalInfo.mSignalResources with
      | none => .error .nullDereference
      | some signalLocks =>
        addSignalResources signal blocks ptr signalLocks 0 0
          { toMessage := { signal.toMessage with mReqType := .REQ_RESOURCE_TUNING }
            mTimer := none
            mResourceList := none }

/-! ## The translated request -/

@[simp] theorem Request.toMessage_addResource (r : Request) (block : Bool) (node : ResIterable) :
    (r.addResource block node).toMessage = r.toMessage := by
  unfold Request.addResource
  split
  · split <;> rfl
  · rfl

theorem Request.isSome_addResource (r : Request) (block : Bool) (node : ResIterable) :
    (r.addResource block node).mResourceList.isSome ↔ r.mResourceList.isSome ∨ block := by
  cases hlist : r.mResourceList with
  | none => cases block <;> simp [Request.addResource, hlist]
  | some nodes => simp [Request.addResource, hlist]

/-- The outer loop adds resources and leaves the message alone; the request has a list afterwards
if it had one or some resource brought one. -/
theorem of_addSignalResources {signal : Signal} {blocks : TranslationBlocks} {ptr : Nat}
    {locks : List (Option Resource)} {i listIndex : Nat} {request request' : Request}
    (h : addSignalResources signal blocks ptr locks i listIndex request = .ok (some request')) :
    request'.toMessage = request.toMessage ∧
      (request'.mResourceList.isSome ↔ request.mResourceList.isSome ∨
        ∃ j lock, locks[j]? = some (some lock) ∧ blocks.list (i + j)) := by
  induction locks generalizing i listIndex request with
  | nil =>
    obtain rfl : request = request' := by simpa [addSignalResources] using h
    simp
  | cons head locks ih =>
    -- the `j`-th of the rest is the `j + 1`-th of all
    have hshift : (∃ j lock, (head :: locks)[j]? = some (some lock) ∧ blocks.list (i + j)) ↔
        (∃ lock, head = some lock ∧ blocks.list i) ∨
          ∃ j lock, locks[j]? = some (some lock) ∧ blocks.list (i + 1 + j) := by
      constructor
      · rintro ⟨j, lock, hj, hblock⟩
        cases j with
        | zero => exact Or.inl ⟨lock, by simpa using hj, hblock⟩
        | succ j => exact Or.inr ⟨j, lock, hj, by rwa [show i + 1 + j = i + (j + 1) by omega]⟩
      · rintro (⟨lock, rfl, hblock⟩ | ⟨j, lock, hj, hblock⟩)
        · exact ⟨0, lock, rfl, hblock⟩
        · exact ⟨j + 1, lock, hj, by rwa [show i + (j + 1) = i + 1 + j by omega]⟩
    rw [hshift]
    cases head with
    | none =>
      rw [addSignalResources] at h
      simpa using ih h
    | some lock =>
      rw [addSignalResources] at h
      split at h
      · cases h
      split at h
      · cases h
      · cases h
      · split at h
        · cases h
        obtain ⟨hmessage, hlist⟩ := ih h
        rw [Request.toMessage_addResource] at hmessage
        rw [Request.isSome_addResource] at hlist
        refine ⟨hmessage, hlist.trans ?_⟩
        simp [or_assoc]

/-- The configuration of the signal has a resource for which the list could be allocated. -/
def HasResource (registry : SignalRegistry) (signal : Signal) (blocks : TranslationBlocks) : Prop :=
  ∃ signalInfo signalLocks i lock,
    registry.getSignalConfigById signal.mSignalCode signal.mSignalType = some signalInfo ∧
      signalInfo.mSignalResources = some signalLocks ∧ signalLocks[i]? = some (some lock) ∧
      blocks.list i

/-- The translated request carries the signal's message, and a resource list when the
configuration has a resource. -/
theorem of_createResourceTuningRequest {registry : SignalRegistry} {signal : Signal}
    {blocks : TranslationBlocks} {ptr : Nat} {request : Request}
    (h : createResourceTuningRequest registry signal blocks ptr = .ok (some request)) :
    request.toMessage = { signal.toMessage with mReqType := .REQ_RESOURCE_TUNING } ∧
      (request.mResourceList.isSome ↔ HasResource registry signal blocks) := by
  unfold createResourceTuningRequest at h
  cases hinfo : registry.getSignalConfigById signal.mSignalCode signal.mSignalType with
  | none => simp [hinfo] at h
  | some signalInfo =>
    simp only [hinfo] at h
    split at h
    · cases h
    cases hlocks : signalInfo.mSignalResources with
    | none => simp [hlocks] at h
    | some signalLocks =>
      simp only [hlocks] at h
      obtain ⟨hmessage, hlist⟩ := of_addSignalResources h
      refine ⟨hmessage, hlist.trans ?_⟩
      simp [HasResource, hinfo, hlocks]

/-! ## The second verifier after the first -/

/-- A resource that passes every check of the resource path's verifier for a client: registered,
permitted, in range and mappable. -/
def ResourceAcceptable (env : Env) (permissions : Permissions) (resource : Resource) : Prop :=
  ∃ conf, env.getResConf resource.mResCode = some conf ∧
    ¬ (conf.mPermissions = .PERMISSION_SYSTEM ∧ permissions = .PERMISSION_THIRD_PARTY) ∧
    valueInRange conf resource ∧ (translateToPhysicalIDs env conf resource).isSome

theorem isSome_verifyResource {env : Env} {permissions : Permissions} {resource : Resource}
    (h : ResourceAcceptable env permissions resource) :
    (verifyResource env permissions resource).isSome := by
  obtain ⟨conf, hconf, hperm, hrange, htrans⟩ := h
  simp only [verifyResource, hconf, hrange, not_true_eq_false, if_false, hperm]
  exact htrans

/-- The loop accepts a list of acceptable resources. -/
theorem isSome_verifyNodes {env : Env} {permissions : Permissions} {nodes : List ResIterable}
    (h : ∀ node ∈ nodes, ∃ resource, node.mData = some resource ∧
      ResourceAcceptable env permissions resource) :
    (verifyNodes env permissions nodes).isSome := by
  induction nodes with
  | nil => rfl
  | cons node rest ih =>
    obtain ⟨resource, hdata, hok⟩ := h node List.mem_cons_self
    obtain ⟨resource', hresource⟩ := Option.isSome_iff_exists.mp (isSome_verifyResource hok)
    have ih := ih fun node hnode => h node (List.mem_cons_of_mem _ hnode)
    simp only [verifyNodes, hdata, hresource, Option.isSome_map]
    exact ih

/-- What the signal path's verifier leaves: the same signal, with an internal priority of the
client's class. -/
theorem of_signal_verify {registry : SignalRegistry} {clients : ClientDataManager}
    {signal signal' : Signal}
    (h : SignalHandler.VerifyIncomingRequest registry clients signal = .ok (some signal')) :
    signal'.mClientPID = signal.mClientPID ∧ signal'.mSignalCode = signal.mSignalCode ∧
      signal'.mSignalType = signal.mSignalType ∧
      ∃ permissions, clients.getClientLevelByClientID signal.mClientPID = some permissions ∧
        PriorityAdmitted permissions signal.getPriority signal'.getPriority := by
  unfold SignalHandler.VerifyIncomingRequest at h
  split at h
  · cases h
  split at h
  · cases h
  rename_i permissions hclient
  simp only at h
  split at h
  · cases h
  rename_i hrange
  split at h
  · cases h
  split at h
  · cases h
  split at h
  · cases h
  obtain rfl := Option.some.inj (Except.ok.inj h)
  refine ⟨rfl, rfl, rfl, permissions, hclient, ?_⟩
  obtain ⟨hlow, hhigh⟩ := not_or.mp hrange
  exact priorityAdmitted_of_setters (not_lt.mp hlow) (not_lt.mp hhigh)

/-- The resource path's verifier, past the checks of duration, mode and client. -/
theorem verifyIncomingRequest_eq {env : Env} {clients : ClientDataManager} {request : Request}
    {permissions : Permissions} (hduration : request.mDuration = -1 ∨ 0 < request.mDuration)
    (hmode : env.targetConfigs.currMode = MODE_RESUME)
    (hclient : clients.getClientLevelByClientID request.mClientPID = some permissions)
    (hlow : request.getPriority ≤ REQ_PRIORITY_LOW)
    (hhigh : REQ_PRIORITY_HIGH ≤ request.getPriority) :
    VerifyIncomingRequest env clients request =
      request.mResourceList.bind fun nodes => (verifyNodes env permissions nodes).map fun nodes' =>
        { toMessage := (request.toMessage.addProcessingMode MODE_RESUME).setPriority
            (getRequestPriority permissions request.getPriority)
          mTimer := request.mTimer
          mResourceList := some nodes' } := by
  have hsame : (request.toMessage.addProcessingMode MODE_RESUME).getPriority =
      request.getPriority := getPriority_addProcessingMode _ _
  have hallowed : getRequestPriority permissions request.getPriority ≠ -1 := by
    have hp : request.getPriority = 0 ∨ request.getPriority = 1 := by
      simp only [REQ_PRIORITY_LOW, REQ_PRIORITY_HIGH] at hlow hhigh
      omega
    rcases hp with hp | hp <;> rw [hp] <;> cases permissions <;> decide
  unfold VerifyIncomingRequest
  rw [if_neg (by omega)]
  simp only [hmode, ne_eq, not_true_eq_false, if_false, hclient, hsame]
  rw [if_neg (by omega), if_neg hallowed]
  cases request.mResourceList <;> rfl

/-- A client priority that is not one is refused. -/
theorem verifyIncomingRequest_of_priority {env : Env} {clients : ClientDataManager}
    {request : Request} (hpriority : REQ_PRIORITY_LOW < request.getPriority) :
    VerifyIncomingRequest env clients request = none := by
  have hsame : (request.toMessage.addProcessingMode MODE_RESUME).getPriority =
      request.getPriority := getPriority_addProcessingMode _ _
  unfold VerifyIncomingRequest
  split
  · rfl
  simp only [hsame]
  split
  · rfl
  split
  · rfl
  rw [if_pos (Or.inl hpriority)]

/-- The two scales coincide for a system client. -/
theorem PriorityAdmitted.eq_of_system {p p' : Int}
    (h : PriorityAdmitted .PERMISSION_SYSTEM p p') : p' = p := by
  have hsystem := h.system.mp rfl
  have hlevel := h.level
  simp only [SYSTEM_HIGH, SYSTEM_LOW, THIRD_PARTY_HIGH, THIRD_PARTY_LOW, REQ_PRIORITY_HIGH,
    REQ_PRIORITY_LOW] at hsystem hlevel
  omega

/-- For a third-party client they do not even overlap. -/
theorem PriorityAdmitted.lt_of_thirdParty {p p' : Int}
    (h : PriorityAdmitted .PERMISSION_THIRD_PARTY p p') : REQ_PRIORITY_LOW < p' := by
  have hthird := h.thirdParty.mp rfl
  simp only [THIRD_PARTY_HIGH, THIRD_PARTY_LOW, REQ_PRIORITY_LOW] at hthird ⊢
  omega

/-- **When the two paths agree.**  An accepted signal whose translated request is in order is
accepted by the resource path with the same priority exactly when the client is a system client
and the configuration has a resource to tune. -/
theorem signal_admission_iff {env : Env} {clients : ClientDataManager} {registry : SignalRegistry}
    {signal signal' : Signal} {blocks : TranslationBlocks} {ptr : Nat} {request : Request}
    {permissions : Permissions}
    (hclient : clients.getClientLevelByClientID signal.mClientPID = some permissions)
    (hmode : env.targetConfigs.currMode = MODE_RESUME)
    (hsignal : SignalHandler.VerifyIncomingRequest registry clients signal = .ok (some signal'))
    (hcreate : createResourceTuningRequest registry signal' blocks ptr = .ok (some request))
    (hduration : request.mDuration = -1 ∨ 0 < request.mDuration)
    (hresources : ∀ node ∈ request.nodes, ∃ resource, node.mData = some resource ∧
      ResourceAcceptable env permissions resource) :
    (∃ request', VerifyIncomingRequest env clients request = some request' ∧
        request'.getPriority = signal'.getPriority) ↔
      permissions = .PERMISSION_SYSTEM ∧ HasResource registry signal blocks := by
  obtain ⟨hpid, hcode, htype, permissions', hclient', hpriority⟩ := of_signal_verify hsignal
  obtain rfl : permissions' = permissions := Option.some.inj (hclient'.symm.trans hclient)
  obtain ⟨hmessage, hlist⟩ := of_createResourceTuningRequest hcreate
  have hsame : request.getPriority = signal'.getPriority := by
    rw [Request.getPriority, hmessage]
    rfl
  have hhas : request.mResourceList.isSome ↔ HasResource registry signal blocks := by
    rw [hlist, HasResource, HasResource, hcode, htype]
  cases permissions' with
  | PERMISSION_THIRD_PARTY =>
    -- the first verifier has already raised the priority beyond what a client may ask for
    constructor
    · rintro ⟨request', haccept, -⟩
      rw [verifyIncomingRequest_of_priority (hsame ▸ hpriority.lt_of_thirdParty)] at haccept
      cases haccept
    · rintro ⟨h, -⟩
      cases h
  | PERMISSION_SYSTEM =>
    have hrange : request.getPriority ≤ REQ_PRIORITY_LOW ∧
        REQ_PRIORITY_HIGH ≤ request.getPriority := by
      have h := hpriority.system.mp rfl
      simp only [SYSTEM_HIGH, SYSTEM_LOW, REQ_PRIORITY_LOW, REQ_PRIORITY_HIGH] at h ⊢
      omega
    have hpid' : clients.getClientLevelByClientID request.mClientPID = some .PERMISSION_SYSTEM := by
      rw [show request.mClientPID = signal'.mClientPID by rw [hmessage], hpid]
      exact hclient
    rw [verifyIncomingRequest_eq hduration hmode hpid' hrange.1 hrange.2, ← hhas]
    cases hnodes : request.mResourceList with
    | none => simp
    | some nodes =>
      simp only [Option.isSome_some, and_true, iff_true, Option.bind_some]
      have hok : (verifyNodes env .PERMISSION_SYSTEM nodes).isSome :=
        isSome_verifyNodes fun node hnode =>
          hresources node (by rwa [Request.nodes, hnodes])
      obtain ⟨nodes', hnodes'⟩ := Option.isSome_iff_exists.mp hok
      refine ⟨_, by rw [hnodes']; rfl, ?_⟩
      -- the second mapping is the identity on the system scale
      have hmode' : (request.toMessage.addProcessingMode MODE_RESUME).getPriority =
          request.getPriority := getPriority_addProcessingMode _ _
      have hagain : PriorityAdmitted .PERMISSION_SYSTEM _ _ :=
        priorityAdmitted_of_setters (hmode'.trans_le hrange.1) (hrange.2.trans_eq hmode'.symm)
      rw [hmode'] at hagain
      exact hagain.eq_of_system.trans hsame

namespace Sample

/-- A signal that raises the global resource, and may be sent by anyone. -/
def signalInfo : SignalInfo where
  mSignalCategory := 1
  mSignalID := 0
  mSigType := 0
  mTimeout := 500
  mPermissions := some [.PERMISSION_SYSTEM, .PERMISSION_THIRD_PARTY]
  mSignalResources := some [some (.ofValues (code 1) 0 0 [-1])]

def signalRegistry : SignalRegistry := SignalRegistry.empty.registerSignal signalInfo false

/-- A signal of client `1` that asks for high priority and leaves the duration to the
configuration. -/
def signal : Signal where
  mReqType := .REQ_SIGNAL_TUNING
  mHandle := 9
  mDuration := 0
  mProperties := 0
  mClientPID := 1
  mClientTID := 1
  mSignalCode := 0x10000
  mSignalType := 0
  mNumArgs := 1
  mListArgs := some [42]

def blocks : TranslationBlocks := ⟨true, fun _ => true, fun _ => true, fun _ => true⟩

/-- The signal as the signal path's verifier leaves it. -/
def verifiedSignal (properties : BitVec 32) : Signal :=
  { signal with mDuration := 500, mProperties := properties }

/-- The request it becomes. -/
def signalRequest (properties : BitVec 32) : Request where
  mReqType := .REQ_RESOURCE_TUNING
  mHandle := 9
  mDuration := 500
  mProperties := properties
  mClientPID := 1
  mClientTID := 1
  mTimer := none
  mResourceList := some [⟨(3, 0), some (.ofValues (code 1) 0 0 [42])⟩]

theorem signalRequest_acceptable (permissions : Permissions) (properties : BitVec 32) :
    ∀ node ∈ (signalRequest properties).nodes, ∃ resource, node.mData = some resource ∧
      ResourceAcceptable env permissions resource := by
  intro node hnode
  obtain rfl := List.mem_singleton.mp hnode
  refine ⟨_, rfl, globalConf.setLifeCycleCallbacks, rfl, ?_, by decide, by decide⟩
  cases permissions <;> decide

end Sample

/-- A system client's signal gets through with its priority. -/
theorem signal_admission_system :
    ∃ request', VerifyIncomingRequest Sample.env (Sample.clients .PERMISSION_SYSTEM)
        (Sample.signalRequest 0) = some request' ∧
      request'.getPriority = (Sample.verifiedSignal 0).getPriority := by
  have hsignal : SignalHandler.VerifyIncomingRequest Sample.signalRegistry
      (Sample.clients .PERMISSION_SYSTEM) Sample.signal =
        .ok (some (Sample.verifiedSignal 0)) := by decide
  have hcreate : createResourceTuningRequest Sample.signalRegistry (Sample.verifiedSignal 0)
      Sample.blocks 3 = .ok (some (Sample.signalRequest 0)) := by decide
  exact (signal_admission_iff rfl rfl hsignal hcreate (by decide)
    (Sample.signalRequest_acceptable _ _)).mpr
    ⟨rfl, Sample.signalInfo, _, 0, _, rfl, rfl, rfl, rfl⟩

/-- **A third-party signal never gets through.**  The signal path admits it with priority
`THIRD_PARTY_HIGH`, its translation is in order in every respect, and the resource path refuses
it. -/
theorem signal_admission_thirdParty :
    SignalHandler.VerifyIncomingRequest Sample.signalRegistry
        (Sample.clients .PERMISSION_THIRD_PARTY) Sample.signal =
          .ok (some (Sample.verifiedSignal 2)) ∧
      createResourceTuningRequest Sample.signalRegistry (Sample.verifiedSignal 2) Sample.blocks 3 =
        .ok (some (Sample.signalRequest 2)) ∧
      Sample.env.targetConfigs.currMode = MODE_RESUME ∧
      0 < (Sample.signalRequest 2).mDuration ∧
      (∀ node ∈ (Sample.signalRequest 2).nodes, ∃ resource, node.mData = some resource ∧
        ResourceAcceptable Sample.env .PERMISSION_THIRD_PARTY resource) ∧
      VerifyIncomingRequest Sample.env (Sample.clients .PERMISSION_THIRD_PARTY)
        (Sample.signalRequest 2) = none :=
  ⟨by decide, by decide, rfl, by decide, Sample.signalRequest_acceptable _ _, by decide⟩

end ResourceTuner
