import ResourceTuner.Common.Request
import ResourceTuner.Core.ClientDataManager
import ResourceTuner.Core.ResourceRegistry

/-!
# Admission of resource requests

The verifier of `RequestHandler.cpp`.  It walks the resource list once and rewrites it on the
way: logical core and cluster ids become physical ones, and the priority the client asked for
becomes an internal priority of the client's permission class.  A rejected request is freed by
the caller, so rejection is `none` and the half-rewritten request is not kept.

* **`translateToPhysicalIDs`**, **`verifyResource`** — one resource;
* **`VerifyIncomingRequest`** — the request;
* **`Admitted`** — what acceptance guarantees;
* **`admitted_of_verify`** — and that it does.
-/

namespace ResourceTuner

/-- `getRequestPriority`, `-1` for a priority a client cannot ask for. -/
def getRequestPriority (clientPermissions : Permissions) (reqSpecifiedPriority : Int) : Int :=
  match clientPermissions with
  | .PERMISSION_SYSTEM =>
    if reqSpecifiedPriority = REQ_PRIORITY_HIGH then SYSTEM_HIGH
    else if reqSpecifiedPriority = REQ_PRIORITY_LOW then SYSTEM_LOW
    else -1
  | .PERMISSION_THIRD_PARTY =>
    if reqSpecifiedPriority = REQ_PRIORITY_HIGH then THIRD_PARTY_HIGH
    else if reqSpecifiedPriority = REQ_PRIORITY_LOW then THIRD_PARTY_LOW
    else -1

/-- `performPhysicalMapping`: the physical core and cluster, `none` when either is unknown.
Core `0` stands for all cores of the cluster and is kept. -/
def performPhysicalMapping (env : Env) (coreValue clusterValue : Int) : Option (Int × Int) :=
  let physicalClusterValue := env.targetRegistry.getPhysicalClusterId clusterValue
  let physicalCoreValue :=
    if coreValue ≠ 0 then env.targetRegistry.getPhysicalCoreId clusterValue coreValue else 0
  if physicalCoreValue ≠ -1 ∧ physicalClusterValue ≠ -1 then
    some (physicalCoreValue, physicalClusterValue)
  else none

/-- `translateToPhysicalIDs`, `none` for `RC_INVALID_VALUE`. -/
def translateToPhysicalIDs (env : Env) (rConf : ResConfInfo) (resource : Resource) :
    Option Resource :=
  match rConf.mApplyType with
  | .APPLY_CORE =>
    if resource.getCoreValue < 0 ∨ resource.getClusterValue < 0 then none
    else
      match performPhysicalMapping env resource.getCoreValue resource.getClusterValue with
      | none => none
      | some (coreValue, clusterValue) =>
        some ((resource.setCoreValue coreValue).setClusterValue clusterValue)
  | .APPLY_CLUSTER =>
    if resource.getClusterValue < 0 then none
    else
      let physicalClusterID := env.targetRegistry.getPhysicalClusterId resource.getClusterValue
      if physicalClusterID = -1 then none else some (resource.setClusterValue physicalClusterID)
  | .APPLY_GLOBAL => some resource
  | .APPLY_CGROUP => some resource

/-- A single value lies in the configured range; `-1` at either end means no range. -/
def valueInRange (resourceConfig : ResConfInfo) (resource : Resource) : Bool :=
  if resource.getValuesCount = 1 then
    !((resourceConfig.mLowThreshold ≠ -1 ∧ resourceConfig.mHighThreshold ≠ -1) ∧
      (resource.getValueAt 0 < resourceConfig.mLowThreshold ∨
        resource.getValueAt 0 > resourceConfig.mHighThreshold))
  else true

/-- The body of the verifier's loop on a resource. -/
def verifyResource (env : Env) (clientPermissions : Permissions) (resource : Resource) :
    Option Resource :=
  match env.getResConf resource.mResCode with
  | none => none
  | some resourceConfig =>
    if ¬ valueInRange resourceConfig resource then none
    else if resourceConfig.mPermissions = .PERMISSION_SYSTEM ∧
        clientPermissions = .PERMISSION_THIRD_PARTY then none
    else translateToPhysicalIDs env resourceConfig resource

/-- The loop of the verifier. -/
def verifyNodes (env : Env) (clientPermissions : Permissions) :
    List ResIterable → Option (List ResIterable)
  | [] => some []
  | resIter :: rest =>
    match resIter.mData with
    | none => none
    | some resource =>
      match verifyResource env clientPermissions resource with
      | none => none
      | some resource' =>
        (verifyNodes env clientPermissions rest).map ({ resIter with mData := some resource' } :: ·)

/-- `VerifyIncomingRequest` of the resource path. -/
def VerifyIncomingRequest (env : Env) (clients : ClientDataManager) (req : Request) :
    Option Request :=
  if req.mDuration < -1 ∨ req.mDuration = 0 then none
  else
    let message := req.toMessage.addProcessingMode MODE_RESUME
    if env.targetConfigs.currMode ≠ MODE_RESUME then none
    else
      match clients.getClientLevelByClientID req.mClientPID with
      | none => none
      | some clientPermissions =>
        let reqSpecifiedPriority := message.getPriority
        if reqSpecifiedPriority > REQ_PRIORITY_LOW ∨ reqSpecifiedPriority < REQ_PRIORITY_HIGH then
          none
        else
          let allowedPriority := getRequestPriority clientPermissions reqSpecifiedPriority
          if allowedPriority = -1 then none
          else
            match req.mResourceList with
            | none => none
            | some nodes =>
              (verifyNodes env clientPermissions nodes).map fun nodes' =>
                { toMessage := message.setPriority allowedPriority
                  mTimer := req.mTimer
                  mResourceList := some nodes' }

/-! ## What acceptance guarantees -/

/-- All physical ids fit the byte they are stored in. -/
structure ByteIds (reg : TargetRegistry) : Prop where
  cluster : ∀ l p, reg.mLogicalToPhysicalClusterMapping.lookup l = some p → 0 ≤ p ∧ p < 256
  core : ∀ p info, reg.mPhysicalClusters.lookup p = some info → ∀ c, 1 ≤ c → c ≤ info.mNumCpus →
    0 ≤ info.mStartCpu + c - 1 ∧ info.mStartCpu + c - 1 < 256

/-- The ids of `r'` are the physical ids for the logical ids of `r`. -/
def Translated (env : Env) (applyType : ResourceApplyType) (r r' : Resource) : Prop :=
  match applyType with
  | .APPLY_CORE =>
    env.targetRegistry.mLogicalToPhysicalClusterMapping.lookup r.getClusterValue =
        some r'.getClusterValue ∧
      (r.getCoreValue = 0 ∧ r'.getCoreValue = 0 ∨
        ∃ info, env.targetRegistry.mPhysicalClusters.lookup r'.getClusterValue = some info ∧
          1 ≤ r.getCoreValue ∧ r.getCoreValue ≤ info.mNumCpus ∧
          r'.getCoreValue = info.mStartCpu + r.getCoreValue - 1)
  | .APPLY_CLUSTER =>
    env.targetRegistry.mLogicalToPhysicalClusterMapping.lookup r.getClusterValue =
        some r'.getClusterValue ∧
      r'.getCoreValue = r.getCoreValue
  | .APPLY_GLOBAL => r'.mResInfo = r.mResInfo
  | .APPLY_CGROUP => r'.mResInfo = r.mResInfo

/-- One resource before and after verification. -/
structure ResourceAdmitted (env : Env) (permissions : Permissions) (r r' : Resource) : Prop where
  code : r'.mResCode = r.mResCode
  optionalInfo : r'.mOptionalInfo = r.mOptionalInfo
  numValues : r'.mNumValues = r.mNumValues
  values : r'.mResValue = r.mResValue
  upperHalf : r'.mResInfo >>> 16 = r.mResInfo >>> 16
  registered : ∃ conf, env.getResConf r.mResCode = some conf ∧
    ¬ (conf.mPermissions = .PERMISSION_SYSTEM ∧ permissions = .PERMISSION_THIRD_PARTY) ∧
    Translated env conf.mApplyType r r'

/-- One node before and after verification: the same node with an admitted resource. -/
def NodeAdmitted (env : Env) (permissions : Permissions) (node node' : ResIterable) : Prop :=
  node'.addr = node.addr ∧ ∃ r r', node.mData = some r ∧ node'.mData = some r' ∧
    ResourceAdmitted env permissions r r'

/-- The internal priority `p'` of a client that asked for `p`. -/
structure PriorityAdmitted (permissions : Permissions) (p p' : Int) : Prop where
  system : permissions = .PERMISSION_SYSTEM ↔ p' = SYSTEM_HIGH ∨ p' = SYSTEM_LOW
  thirdParty : permissions = .PERMISSION_THIRD_PARTY ↔ p' = THIRD_PARTY_HIGH ∨ p' = THIRD_PARTY_LOW
  level : p = REQ_PRIORITY_HIGH ∧ (p' = SYSTEM_HIGH ∨ p' = THIRD_PARTY_HIGH) ∨
    p = REQ_PRIORITY_LOW ∧ (p' = SYSTEM_LOW ∨ p' = THIRD_PARTY_LOW)

/-- **What the verifier promises** of the request it was given and the request it leaves. -/
structure Admitted (env : Env) (clients : ClientDataManager) (req req' : Request) : Prop where
  duration : req'.mDuration = req.mDuration ∧ (req.mDuration = -1 ∨ 0 < req.mDuration)
  mode : env.targetConfigs.currMode = MODE_RESUME
  client : ∃ permissions, clients.getClientLevelByClientID req.mClientPID = some permissions ∧
    PriorityAdmitted permissions req.getPriority req'.getPriority ∧
    List.Forall₂ (NodeAdmitted env permissions) req.nodes req'.nodes

/-! ## The verifier keeps its promise -/

section Admission

variable {env : Env} {permissions : Permissions}

theorem setCoreValue_setClusterValue_admits {r : Resource} {core cluster : Int}
    (hcore : 0 ≤ core ∧ core < 256) (hcluster : 0 ≤ cluster ∧ cluster < 256) :
    ((r.setCoreValue core).setClusterValue cluster).getCoreValue = core ∧
      ((r.setCoreValue core).setClusterValue cluster).getClusterValue = cluster ∧
      ((r.setCoreValue core).setClusterValue cluster).mResInfo >>> 16 = r.mResInfo >>> 16 := by
  refine ⟨?_, ?_, ?_⟩
  · rw [Resource.getCoreValue_setClusterValue _ hcluster.1 hcluster.2,
      Resource.getCoreValue_setCoreValue _ hcore.1 hcore.2]
  · rw [Resource.getClusterValue_setClusterValue _ hcluster.1 hcluster.2]
  · rw [Resource.upperHalf_setClusterValue _ hcluster.1 hcluster.2,
      Resource.upperHalf_setCoreValue _ hcore.1 hcore.2]

/-- A physical cluster id that is not `-1` is a mapped one. -/
theorem lookup_of_getPhysicalClusterId {reg : TargetRegistry} {l : Int}
    (h : reg.getPhysicalClusterId l ≠ -1) :
    reg.mLogicalToPhysicalClusterMapping.lookup l = some (reg.getPhysicalClusterId l) := by
  unfold TargetRegistry.getPhysicalClusterId at h ⊢
  cases hl : reg.mLogicalToPhysicalClusterMapping.lookup l with
  | none => simp [hl] at h
  | some p => rfl

/-- A physical core id that is not `-1` is the `c`-th core of the mapped cluster.  The registry
cannot be empty here, since a mapped cluster has an entry. -/
theorem core_of_getPhysicalCoreId {reg : TargetRegistry} {l p c : Int}
    (hl : reg.mLogicalToPhysicalClusterMapping.lookup l = some p)
    (h : reg.getPhysicalCoreId l c ≠ -1) :
    ∃ info, reg.mPhysicalClusters.lookup p = some info ∧ 1 ≤ c ∧ c ≤ info.mNumCpus ∧
      reg.getPhysicalCoreId l c = info.mStartCpu + c - 1 := by
  have hmem := reg.mapped l p hl
  have hsize : UnorderedMap.size reg.mPhysicalClusters ≠ 0 := by
    intro h0
    have hnil : reg.mPhysicalClusters.keys = [] := List.length_eq_zero_iff.mp h0
    have hkey := AList.mem_keys.mp hmem
    rw [hnil] at hkey
    cases hkey
  obtain ⟨info, hinfo⟩ := Option.isSome_iff_exists.mp (AList.lookup_isSome.mpr hmem)
  unfold TargetRegistry.getPhysicalCoreId at h ⊢
  simp only [if_neg hsize, hl, hinfo] at h ⊢
  by_cases hc : c ≤ 0 ∨ c > info.mNumCpus
  · simp [hc] at h
  · exact ⟨info, rfl, by omega, by omega, if_neg hc⟩

/-- A successful mapping: the mapped cluster, and either all its cores or its `c`-th one. -/
theorem of_performPhysicalMapping {c l core cluster : Int}
    (h : performPhysicalMapping env c l = some (core, cluster)) :
    env.targetRegistry.mLogicalToPhysicalClusterMapping.lookup l = some cluster ∧
      (c = 0 ∧ core = 0 ∨
        ∃ info, env.targetRegistry.mPhysicalClusters.lookup cluster = some info ∧ 1 ≤ c ∧
          c ≤ info.mNumCpus ∧ core = info.mStartCpu + c - 1) := by
  have hids : (if c ≠ 0 then env.targetRegistry.getPhysicalCoreId l c else 0) ≠ -1 ∧
      env.targetRegistry.getPhysicalClusterId l ≠ -1 := by
    by_contra hno
    simp only [performPhysicalMapping, if_neg hno] at h
    cases h
  simp only [performPhysicalMapping, if_pos hids] at h
  obtain ⟨hcore, rfl⟩ := Prod.mk.inj (Option.some.inj h)
  have hlookup := lookup_of_getPhysicalClusterId hids.2
  refine ⟨hlookup, ?_⟩
  by_cases hzero : c = 0
  · exact Or.inl ⟨hzero, by simpa [hzero] using hcore.symm⟩
  · rw [if_pos hzero] at hcore hids
    obtain ⟨info, hinfo, h1, hn, heq⟩ := core_of_getPhysicalCoreId hlookup hids.1
    exact Or.inr ⟨info, hinfo, h1, hn, by rw [← hcore, heq]⟩

theorem translated_of_translateToPhysicalIDs (hids : ByteIds env.targetRegistry)
    {conf : ResConfInfo} {r r' : Resource} (h : translateToPhysicalIDs env conf r = some r') :
    Translated env conf.mApplyType r r' ∧ r'.mResInfo >>> 16 = r.mResInfo >>> 16 ∧
      r'.mResCode = r.mResCode ∧ r'.mOptionalInfo = r.mOptionalInfo ∧
      r'.mNumValues = r.mNumValues ∧ r'.mResValue = r.mResValue := by
  unfold translateToPhysicalIDs at h
  cases htype : conf.mApplyType with
  | APPLY_GLOBAL | APPLY_CGROUP =>
    simp only [htype, Option.some.injEq] at h
    subst h
    exact ⟨rfl, rfl, rfl, rfl, rfl, rfl⟩
  | APPLY_CLUSTER =>
    simp only [htype] at h
    split at h
    · cases h
    · split at h
      · cases h
      · rename_i hne
        obtain rfl := Option.some.inj h
        have hlookup := lookup_of_getPhysicalClusterId hne
        obtain ⟨h0, h256⟩ := hids.cluster _ _ hlookup
        refine ⟨⟨?_, ?_⟩, r.upperHalf_setClusterValue h0 h256, rfl, rfl, rfl, rfl⟩
        · rw [r.getClusterValue_setClusterValue h0 h256]
          exact hlookup
        · exact r.getCoreValue_setClusterValue h0 h256
  | APPLY_CORE =>
    simp only [htype] at h
    split at h
    · cases h
    · cases hmap : performPhysicalMapping env r.getCoreValue r.getClusterValue with
      | none => simp [hmap] at h
      | some ids =>
        obtain ⟨core, cluster⟩ := ids
        simp only [hmap, Option.some.injEq] at h
        subst h
        obtain ⟨hlookup, hcore⟩ := of_performPhysicalMapping hmap
        have hbyte : 0 ≤ core ∧ core < 256 := by
          rcases hcore with ⟨-, rfl⟩ | ⟨info, hinfo, h1, hn, rfl⟩
          · omega
          · exact hids.core cluster info hinfo r.getCoreValue h1 hn
        obtain ⟨hc, hcl, hup⟩ :=
          setCoreValue_setClusterValue_admits (r := r) hbyte (hids.cluster _ _ hlookup)
        refine ⟨⟨by rw [hcl]; exact hlookup, ?_⟩, hup, rfl, rfl, rfl, rfl⟩
        rw [hc, hcl]
        exact hcore

theorem admitted_of_verifyResource (hids : ByteIds env.targetRegistry) {r r' : Resource}
    (h : verifyResource env permissions r = some r') : ResourceAdmitted env permissions r r' := by
  unfold verifyResource at h
  cases hconf : env.getResConf r.mResCode with
  | none => simp [hconf] at h
  | some conf =>
    simp only [hconf] at h
    split at h
    · cases h
    · split at h
      · cases h
      · rename_i hperm
        obtain ⟨htrans, hup, hcode, hopt, hnum, hval⟩ :=
          translated_of_translateToPhysicalIDs hids h
        exact ⟨hcode, hopt, hnum, hval, hup, conf, hconf, hperm, htrans⟩

/-- The loop: node by node, in order. -/
theorem admitted_of_verifyNodes (hids : ByteIds env.targetRegistry) {nodes nodes' : List ResIterable}
    (h : verifyNodes env permissions nodes = some nodes') :
    List.Forall₂ (NodeAdmitted env permissions) nodes nodes' := by
  induction nodes generalizing nodes' with
  | nil =>
    obtain rfl := Option.some.inj h
    exact .nil
  | cons node rest ih =>
    unfold verifyNodes at h
    cases hdata : node.mData with
    | none => simp [hdata] at h
    | some r =>
      cases hr : verifyResource env permissions r with
      | none => simp [hdata, hr] at h
      | some r' =>
        simp only [hdata, hr] at h
        obtain ⟨rest', hrest, rfl⟩ := Option.map_eq_some_iff.mp h
        refine .cons ⟨rfl, r, r', hdata, rfl, admitted_of_verifyResource hids hr⟩ (ih hrest)

/-- The priority byte after both setters.  The byte a client may send is `0` or `1`, and OR-ing
the internal priority of its class into it gives that internal priority. -/
theorem priorityAdmitted_of_setters {m : Message} (hlow : m.getPriority ≤ REQ_PRIORITY_LOW)
    (hhigh : REQ_PRIORITY_HIGH ≤ m.getPriority) :
    PriorityAdmitted permissions m.getPriority
      (m.setPriority (getRequestPriority permissions m.getPriority)).getPriority := by
  have hp : m.getPriority = 0 ∨ m.getPriority = 1 := by
    simp only [REQ_PRIORITY_LOW, REQ_PRIORITY_HIGH] at hlow hhigh
    omega
  have hbyte : m.mProperties.setWidth 8 = BitVec.ofInt 8 m.getPriority := by
    rw [m.getPriority_eq, BitVec.ofInt_toInt]
  rw [Message.getPriority_eq (m.setPriority _), m.setWidth_setPriority, hbyte]
  rcases hp with hp | hp <;> rw [hp] <;> cases permissions <;>
    exact ⟨by decide, by decide, by decide⟩

/-- Adding a display mode first changes nothing for the priority. -/
theorem getPriority_addProcessingMode (m : Message) (mode : BitVec 8) :
    (m.addProcessingMode mode).getPriority = m.getPriority := by
  rw [Message.getPriority_eq, Message.setWidth_addProcessingMode, ← Message.getPriority_eq]

end Admission

/-- **Admission is sound**: everything the verifier accepts has a valid duration, an internal
priority of the client's own class, registered resources the client may use, and physical ids in
place of logical ones, with all else unchanged. -/
theorem admitted_of_verify {env : Env} {clients : ClientDataManager} {req req' : Request}
    (hids : ByteIds env.targetRegistry) (h : VerifyIncomingRequest env clients req = some req') :
    Admitted env clients req req' := by
  unfold VerifyIncomingRequest at h
  split at h
  · cases h
  rename_i hduration
  simp only at h
  split at h
  · cases h
  rename_i hmode
  cases hclient : clients.getClientLevelByClientID req.mClientPID with
  | none => simp [hclient] at h
  | some permissions =>
    simp only [hclient] at h
    split at h
    · cases h
    rename_i hrange
    split at h
    · cases h
    cases hlist : req.mResourceList with
    | none => simp [hlist] at h
    | some nodes =>
      simp only [hlist] at h
      obtain ⟨nodes', hnodes, rfl⟩ := Option.map_eq_some_iff.mp h
      refine ⟨⟨rfl, by omega⟩, by simpa using hmode, permissions, hclient, ?_, ?_⟩
      · have hsame : (req.toMessage.addProcessingMode MODE_RESUME).getPriority = req.getPriority :=
          getPriority_addProcessingMode _ _
        rw [← hsame]
        exact priorityAdmitted_of_setters (by omega) (by omega)
      · simpa [Request.nodes, hlist] using admitted_of_verifyNodes hids hnodes

namespace Sample

/-- The client tables after one client with PID and TID `1` was created. -/
def clients (permissions : Permissions) : ClientDataManager :=
  (ClientDataManager.empty.createNewClient 1 1 ⟨true, true, some permissions⟩).2

theorem byteIds : ByteIds env.targetRegistry where
  cluster := by
    have hall : ∀ e ∈ env.targetRegistry.mLogicalToPhysicalClusterMapping.entries,
        0 ≤ e.2 ∧ e.2 < 256 := by decide
    exact fun l p h => hall ⟨l, p⟩ (AList.mem_lookup_iff.mp h)
  core := by
    have hall : ∀ e ∈ env.targetRegistry.mPhysicalClusters.entries,
        0 ≤ e.2.mStartCpu ∧ e.2.mStartCpu + e.2.mNumCpus ≤ 256 := by decide
    intro p info h c h1 hn
    have := hall ⟨p, info⟩ (AList.mem_lookup_iff.mp h)
    simp only at this
    omega

end Sample

/-- A third-party request for the second core of logical cluster 1 and for all its cores. -/
theorem admitted_sample :
    ∃ req', VerifyIncomingRequest Sample.env (Sample.clients .PERMISSION_THIRD_PARTY)
        (Sample.request 1 1 [.ofValues (Sample.code 2) 0x102 0 [5],
          .ofValues (Sample.code 2) 0x100 0 [6]]) = some req' ∧
      Admitted Sample.env (Sample.clients .PERMISSION_THIRD_PARTY)
        (Sample.request 1 1 [.ofValues (Sample.code 2) 0x102 0 [5],
          .ofValues (Sample.code 2) 0x100 0 [6]]) req' := by
  obtain ⟨req', h⟩ := Option.isSome_iff_exists.mp (show (VerifyIncomingRequest Sample.env
    (Sample.clients .PERMISSION_THIRD_PARTY) (Sample.request 1 1
      [.ofValues (Sample.code 2) 0x102 0 [5], .ofValues (Sample.code 2) 0x100 0 [6]])).isSome
    from by decide)
  exact ⟨req', h, admitted_of_verify Sample.byteIds h⟩

end ResourceTuner
