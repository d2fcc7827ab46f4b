import ResourceTuner.Core.RequestHandler
import ResourceTuner.Core.ResourceHooks

/-!
# The cores a core resource reaches

The translator of `RequestHandler.cpp` and the core callbacks of `ResourceHooks.cpp` meet in one
byte: the translator writes a physical core number into it, and the callbacks read it, where zero
means every core of the cluster.  Logical core numbers start at one, physical ones at zero.

* **`TargetsExactly`** — a resource is refused, or written to and reset at the cpus it stands for;
* **`defaultCoreLevelApplierCb_iff`** — the applier reaches the addressed cores unless it traps;
* **`targetsExactly_iff`** — the resources that are targeted exactly.
-/

namespace ResourceTuner

/-- Clusters occupy disjoint ranges of cpu numbers below 256. -/
structure ClusterLayout (reg : TargetRegistry) : Prop where
  range : ∀ p info, reg.mPhysicalClusters.lookup p = some info →
    0 ≤ info.mStartCpu ∧ 0 ≤ info.mNumCpus ∧ info.mStartCpu + info.mNumCpus ≤ 256
  disjoint : ∀ p q info info', p ≠ q → reg.mPhysicalClusters.lookup p = some info →
    reg.mPhysicalClusters.lookup q = some info' → ∀ cpu,
      ¬ ((info.mStartCpu ≤ cpu ∧ cpu < info.mStartCpu + info.mNumCpus) ∧
        (info'.mStartCpu ≤ cpu ∧ cpu < info'.mStartCpu + info'.mNumCpus))

/-- The cpus of a cluster, in order. -/
def ClusterInfo.cpus (info : ClusterInfo) : List Int :=
  (List.range info.mNumCpus.toNat).map fun i => info.mStartCpu + i

/-- The cpus of the cluster with a physical id, none when there is no such cluster. -/
def TargetRegistry.cpus (reg : TargetRegistry) (physicalClusterID : Int) : List Int :=
  match reg.getClusterInfo physicalClusterID with
  | none => []
  | some info => info.cpus

/-- The cpus that a logical core number of a cluster stands for. -/
def ClusterInfo.wanted (info : ClusterInfo) (core : Int) : List Int :=
  if core = 0 then info.cpus else [info.mStartCpu + core - 1]

/-- A resource that asks for a core beyond the cluster is refused; any other addresses exactly the
cpus it stands for, the applier writes one value to the node of each of them and to no other, and the
tear resets these nodes and no other. -/
def TargetsExactly (env : Env) (conf : ResConfInfo) (resource : Resource) (info : ClusterInfo) :
    Prop :=
  if info.mNumCpus < resource.getCoreValue then translateToPhysicalIDs env conf resource = none
  else
    ∃ physical, translateToPhysicalIDs env conf resource = some physical ∧
      addressedCores env physical = info.wanted resource.getCoreValue ∧
      (∃ value : String, defaultCoreLevelApplierCb env physical =
        (info.wanted resource.getCoreValue).map fun coreID =>
          (getCoreTypeResourceNodePath env physical coreID, value)) ∧
      defaultCoreLevelTearCb env physical =
        (info.wanted resource.getCoreValue).map (defaultCoreLevelTearHelper env physical)

/-- The applier comes to multiply minus one by the unit of the resource: it has a core to write to, and
minus one is the value. -/
def Traps (resource : Resource) (info : ClusterInfo) : Prop :=
  resource.getValueAt 0 = -1 ∧ info.wanted resource.getCoreValue ≠ []

instance (resource : Resource) (info : ClusterInfo) : Decidable (Traps resource info) :=
  inferInstanceAs (Decidable (_ ∧ _))

/-- The applier of a registered resource writes one value to the node of each core it addresses, unless
there is one and the multiplication traps. -/
theorem defaultCoreLevelApplierCb_iff {env : Env} {conf : ResConfInfo} {resource : Resource}
    (hconf : env.getResConf resource.mResCode = some conf) :
    (∃ value : String, defaultCoreLevelApplierCb env resource =
        (addressedCores env resource).map fun coreID =>
          (getCoreTypeResourceNodePath env resource coreID, value)) ↔
      ¬ (resource.getValueAt 0 = -1 ∧ addressedCores env resource ≠ []) := by
  have hvalue : unitValue env resource (resource.getValueAt 0) =
      translatedValue (resource.getValueAt 0) conf.mUnit := by
    simp only [unitValue, hconf]
  cases htranslated : translatedValue (resource.getValueAt 0) conf.mUnit with
  | none =>
    -- nothing is written, which is right only if there is no core
    have hwrites : defaultCoreLevelApplierCb env resource = [] := by
      simp [defaultCoreLevelApplierCb, defaultCoreLevelApplierHelper, unitWrite, hvalue, htranslated]
    rw [hwrites, translatedValue_eq_none_iff.mp htranslated]
    constructor
    · rintro ⟨value, hnone⟩ ⟨-, hne⟩
      exact hne (List.map_eq_nil_iff.mp hnone.symm)
    · intro h
      have hnil : addressedCores env resource = [] := by simpa using h
      exact ⟨"", by rw [hnil, List.map_nil]⟩
  | some value =>
    have hne : resource.getValueAt 0 ≠ -1 := by
      intro hminus
      rw [translatedValue_eq_none_iff.mpr hminus] at htranslated
      cases htranslated
    refine iff_of_true ⟨toString value, ?_⟩ fun h => hne h.1
    rw [defaultCoreLevelApplierCb, ← List.flatMap_singleton' ((addressedCores env resource).map _),
      List.flatMap_map]
    refine List.flatMap_congr fun coreID _ => ?_
    simp only [defaultCoreLevelApplierHelper, unitWrite, hvalue, htranslated]

section Targeting

variable {env : Env} {conf : ResConfInfo} {resource : Resource} {P : Int} {info : ClusterInfo}

/-- The cores addressed after both setters, for a cluster id of any size. -/
theorem addressedCores_setters (env : Env) (resource : Resource) (P : Int) {core : Int}
    (hcore : 0 ≤ core ∧ core < 256) :
    addressedCores env ((resource.setCoreValue core).setClusterValue P) =
      if core = 0 then env.targetRegistry.cpus (P % 256) else [core] := by
  rw [addressedCores, Resource.getCoreValue_setClusterValue_any,
    Resource.getCoreValue_setCoreValue _ hcore.1 hcore.2,
    Resource.getClusterValue_setClusterValue_emod]
  rfl

theorem getPhysicalClusterId_of_mapped {reg : TargetRegistry} {l : Int}
    (hmapped : reg.mLogicalToPhysicalClusterMapping.lookup l = some P) :
    reg.getPhysicalClusterId l = P := by
  rw [TargetRegistry.getPhysicalClusterId, hmapped]

theorem getPhysicalCoreId_of_mapped {reg : TargetRegistry} {l c : Int}
    (hmapped : reg.mLogicalToPhysicalClusterMapping.lookup l = some P)
    (hinfo : reg.mPhysicalClusters.lookup P = some info) :
    reg.getPhysicalCoreId l c =
      if c ≤ 0 ∨ c > info.mNumCpus then -1 else info.mStartCpu + c - 1 := by
  -- a mapped cluster has an entry, so the system is not taken for a homogeneous one
  have hsize : UnorderedMap.size reg.mPhysicalClusters ≠ 0 := by
    intro hzero
    have hnil : reg.mPhysicalClusters.keys = [] := List.length_eq_zero_iff.mp hzero
    have hkey := AList.mem_keys.mp (reg.mapped l P hmapped)
    rw [hnil] at hkey
    cases hkey
  rw [TargetRegistry.getPhysicalCoreId, if_neg hsize, hmapped]
  simp only [hinfo]

/-- What the translator answers for a mapped cluster. -/
theorem translateToPhysicalIDs_of_mapped (htype : conf.mApplyType = .APPLY_CORE)
    (hmapped : env.targetRegistry.mLogicalToPhysicalClusterMapping.lookup
      resource.getClusterValue = some P)
    (hinfo : env.targetRegistry.mPhysicalClusters.lookup P = some info)
    (hstart : 0 ≤ info.mStartCpu) :
    translateToPhysicalIDs env conf resource =
      if P = -1 ∨ resource.getCoreValue ≠ 0 ∧ info.mNumCpus < resource.getCoreValue then none
      else some ((resource.setCoreValue (if resource.getCoreValue = 0 then 0
        else info.mStartCpu + resource.getCoreValue - 1)).setClusterValue P) := by
  have hcore : 0 ≤ resource.getCoreValue := Int.natCast_nonneg _
  have hcluster : 0 ≤ resource.getClusterValue := Int.natCast_nonneg _
  simp only [translateToPhysicalIDs, htype, performPhysicalMapping,
    getPhysicalClusterId_of_mapped hmapped, getPhysicalCoreId_of_mapped hmapped hinfo]
  rw [if_neg (by omega)]
  by_cases hzero : resource.getCoreValue = 0
  · by_cases hP : P = -1
    · simp [hP]
    · simp [hzero, hP]
  · by_cases hout : info.mNumCpus < resource.getCoreValue
    · simp [hzero, hout]
    · have hle : ¬ resource.getCoreValue ≤ 0 := by omega
      have hne : info.mStartCpu + resource.getCoreValue - 1 ≠ -1 := by omega
      by_cases hP : P = -1
      · simp [hP]
      · simp [hzero, hout, hP, hle, hne]

/-- A core beyond the cluster is refused. -/
theorem targetsExactly_of_lt (layout : ClusterLayout env.targetRegistry)
    (htype : conf.mApplyType = .APPLY_CORE)
    (hmapped : env.targetRegistry.mLogicalToPhysicalClusterMapping.lookup
      resource.getClusterValue = some P)
    (hinfo : env.targetRegistry.mPhysicalClusters.lookup P = some info)
    (hout : info.mNumCpus < resource.getCoreValue) : TargetsExactly env conf resource info := by
  obtain ⟨hstart, hcount, -⟩ := layout.range P info hinfo
  rw [TargetsExactly, if_pos hout, translateToPhysicalIDs_of_mapped htype hmapped hinfo hstart,
    if_pos (.inr ⟨by omega, hout⟩)]

/-- Within the cluster the answer is right if the physical core number is not zero, or the cluster
that the callback then looks up has the wanted cpus, and the applier does not trap. -/
theorem targetsExactly_of_le (layout : ClusterLayout env.targetRegistry)
    (hconf : env.getResConf resource.mResCode = some conf) (htype : conf.mApplyType = .APPLY_CORE)
    (hmapped : env.targetRegistry.mLogicalToPhysicalClusterMapping.lookup
      resource.getClusterValue = some P)
    (hinfo : env.targetRegistry.mPhysicalClusters.lookup P = some info)
    (hin : resource.getCoreValue ≤ info.mNumCpus) (hP : P ≠ -1) :
    TargetsExactly env conf resource info ↔
      (1 ≤ resource.getCoreValue ∧ info.mStartCpu + resource.getCoreValue - 1 ≠ 0 ∨
        env.targetRegistry.cpus (P % 256) = info.wanted resource.getCoreValue) ∧
        ¬ Traps resource info := by
  obtain ⟨hstart, hcount, hend⟩ := layout.range P info hinfo
  have hcore : 0 ≤ resource.getCoreValue := Int.natCast_nonneg _
  have hout : ¬ info.mNumCpus < resource.getCoreValue := by omega
  rw [TargetsExactly, translateToPhysicalIDs_of_mapped htype hmapped hinfo hstart, if_neg hout,
    if_neg (by omega)]
  -- the physical core number as the translator writes it
  generalize hphysical : (if resource.getCoreValue = 0 then 0
    else info.mStartCpu + resource.getCoreValue - 1) = core
  have hbyte : 0 ≤ core ∧ core < 256 := by
    split at hphysical <;> omega
  have haddressed := addressedCores_setters env resource P hbyte
  have hiff : addressedCores env ((resource.setCoreValue core).setClusterValue P) =
      info.wanted resource.getCoreValue ↔
      1 ≤ resource.getCoreValue ∧ info.mStartCpu + resource.getCoreValue - 1 ≠ 0 ∨
        env.targetRegistry.cpus (P % 256) = info.wanted resource.getCoreValue := by
    rw [haddressed]
    by_cases hzero : core = 0
    · rw [if_pos hzero]
      constructor
      · exact .inr
      · rintro (⟨hone, hne⟩ | hcpus)
        · rw [if_neg (by omega)] at hphysical
          omega
        · exact hcpus
    · have hone : resource.getCoreValue ≠ 0 := by
        intro h
        rw [if_pos h] at hphysical
        exact hzero hphysical.symm
      rw [if_neg hone] at hphysical
      rw [if_neg hzero]
      constructor
      · exact fun _ => .inl ⟨by omega, by omega⟩
      · intro _
        rw [ClusterInfo.wanted, if_neg hone, hphysical]
  -- the translator changes neither the code nor the values
  have happlier := @defaultCoreLevelApplierCb_iff env conf
    ((resource.setCoreValue core).setClusterValue P) hconf
  have hvalue : ((resource.setCoreValue core).setClusterValue P).getValueAt 0 =
      resource.getValueAt 0 := rfl
  rw [hvalue] at happlier
  constructor
  · rintro ⟨physical, hsome, hcpus, hwrites, -⟩
    cases hsome
    rw [← hcpus] at hwrites
    refine ⟨hiff.mp hcpus, fun htraps => happlier.mp hwrites ⟨htraps.1, ?_⟩⟩
    rw [hcpus]
    exact htraps.2
  · rintro ⟨h, htraps⟩
    have hcpus := hiff.mpr h
    rw [hcpus] at happlier
    refine ⟨_, rfl, hcpus, happlier.mpr htraps, ?_⟩
    rw [defaultCoreLevelTearCb, hcpus]

/-- **Core targeting is exact** for a resource that is refused, and for any other unless the physical
core number is zero and the cluster that the callback then looks up has other cpus than the wanted ones,
or the applier traps. -/
theorem targetsExactly_iff (layout : ClusterLayout env.targetRegistry)
    (hconf : env.getResConf resource.mResCode = some conf) (htype : conf.mApplyType = .APPLY_CORE)
    (hmapped : env.targetRegistry.mLogicalToPhysicalClusterMapping.lookup
      resource.getClusterValue = some P)
    (hinfo : env.targetRegistry.mPhysicalClusters.lookup P = some info) :
    TargetsExactly env conf resource info ↔
      info.mNumCpus < resource.getCoreValue ∨
        P ≠ -1 ∧ (1 ≤ resource.getCoreValue ∧ info.mStartCpu + resource.getCoreValue - 1 ≠ 0 ∨
          env.targetRegistry.cpus (P % 256) = info.wanted resource.getCoreValue) ∧
          ¬ Traps resource info := by
  obtain ⟨hstart, -, -⟩ := layout.range P info hinfo
  by_cases hout : info.mNumCpus < resource.getCoreValue
  · exact iff_of_true (targetsExactly_of_lt layout htype hmapped hinfo hout) (.inl hout)
  rw [or_iff_right hout]
  by_cases hP : P = -1
  · -- a physical id of -1 reads as no cluster
    constructor
    · intro h
      rw [TargetsExactly, if_neg hout,
        translateToPhysicalIDs_of_mapped htype hmapped hinfo hstart, if_pos (.inl hP)] at h
      obtain ⟨_, hnone, -⟩ := h
      cases hnone
    · exact fun h => absurd hP h.1
  · rw [targetsExactly_of_le layout hconf htype hmapped hinfo (by omega) hP, and_iff_right hP]

/-- For a cluster id that fits its byte, and a value the applier can multiply, the only way to miss is
the first core of the cluster that starts at cpu zero: its physical number reads as all cores. -/
theorem targetsExactly_iff_of_byte (layout : ClusterLayout env.targetRegistry)
    (hconf : env.getResConf resource.mResCode = some conf) (htype : conf.mApplyType = .APPLY_CORE)
    (hmapped : env.targetRegistry.mLogicalToPhysicalClusterMapping.lookup
      resource.getClusterValue = some P)
    (hinfo : env.targetRegistry.mPhysicalClusters.lookup P = some info)
    (hP : 0 ≤ P ∧ P < 256) (hvalue : resource.getValueAt 0 ≠ -1) :
    TargetsExactly env conf resource info ↔
      ¬ (resource.getCoreValue = 1 ∧ info.mStartCpu = 0 ∧ 1 < info.mNumCpus) := by
  obtain ⟨hstart, hcount, -⟩ := layout.range P info hinfo
  have hcore : 0 ≤ resource.getCoreValue := Int.natCast_nonneg _
  by_cases hout : info.mNumCpus < resource.getCoreValue
  · exact iff_of_true (targetsExactly_of_lt layout htype hmapped hinfo hout) (by omega)
  have hcpus : env.targetRegistry.cpus (P % 256) = info.cpus := by
    rw [show P % 256 = P by omega, TargetRegistry.cpus, TargetRegistry.getClusterInfo, hinfo]
  have hlength : info.cpus.length = info.mNumCpus.toNat := by simp [ClusterInfo.cpus]
  rw [targetsExactly_of_le layout hconf htype hmapped hinfo (by omega) (by omega), hcpus,
    and_iff_left fun htraps => hvalue htraps.1]
  constructor
  · rintro (⟨-, hne⟩ | heq) ⟨hone, hzero, hmany⟩
    · omega
    · -- several cpus where one was wanted
      rw [ClusterInfo.wanted, if_neg (by omega)] at heq
      rw [heq, List.length_singleton] at hlength
      omega
  · intro hfirst
    by_cases hall : resource.getCoreValue = 0
    · rw [ClusterInfo.wanted, if_pos hall]
      exact .inr rfl
    · by_cases hne : info.mStartCpu + resource.getCoreValue - 1 ≠ 0
      · exact .inl ⟨by omega, hne⟩
      · -- the only cpu of its cluster
        right
        rw [ClusterInfo.wanted, if_neg hall, ClusterInfo.cpus, show info.mNumCpus = 1 by omega,
          show info.mStartCpu = 0 by omega, show resource.getCoreValue = 1 by omega]
        rfl

end Targeting

namespace Sample

/-- The sample's two clusters are cpus 0 to 3 and cpus 4 to 7. -/
theorem clusterLayout : ClusterLayout targetRegistry := by
  have hclusters : ∀ p info, targetRegistry.mPhysicalClusters.lookup p = some info →
      p = 0 ∧ info = ⟨0, 0, 4⟩ ∨ p = 4 ∧ info = ⟨4, 4, 4⟩ := by
    intro p info h
    have hmem := AList.mem_lookup_iff.mp h
    have hentries : targetRegistry.mPhysicalClusters.entries =
        [⟨4, ⟨4, 4, 4⟩⟩, ⟨0, ⟨0, 0, 4⟩⟩] := by decide
    rw [hentries] at hmem
    simpa [or_comm] using hmem
  constructor
  case range =>
    intro p info h
    rcases hclusters p info h with ⟨-, rfl⟩ | ⟨-, rfl⟩ <;> decide
  case disjoint =>
    intro p q info info' hne h h' cpu
    rcases hclusters p info h with ⟨rfl, rfl⟩ | ⟨rfl, rfl⟩ <;>
      rcases hclusters q info' h' with ⟨rfl, rfl⟩ | ⟨rfl, rfl⟩ <;> simp at hne ⊢ <;> omega

end Sample

/-- The third core of the cluster that starts at cpu four. -/
theorem targetsExactly_iff_sample :
    TargetsExactly Sample.env Sample.coreConf.setLifeCycleCallbacks
        (.ofValues (Sample.code 2) 0x103 0 [5]) ⟨4, 4, 4⟩ ↔
      (4 : Int) < 3 ∨ (4 : Int) ≠ -1 ∧ ((1 : Int) ≤ 3 ∧ (4 : Int) + 3 - 1 ≠ 0 ∨
        Sample.targetRegistry.cpus (4 % 256) = ClusterInfo.wanted ⟨4, 4, 4⟩ 3) ∧
        ¬ Traps (.ofValues (Sample.code 2) 0x103 0 [5]) ⟨4, 4, 4⟩ :=
  targetsExactly_iff Sample.clusterLayout (by decide) rfl (by decide) (by decide)

/-- Core one of the cluster of four cpus that starts at cpu zero reaches all four, and the value minus
one for core two reaches none. -/
theorem first_core_targets_cluster :
    ClusterLayout Sample.targetRegistry ∧
      ¬ TargetsExactly Sample.env Sample.coreConf.setLifeCycleCallbacks
        (.ofValues (Sample.code 2) 1 0 [5]) ⟨0, 0, 4⟩ ∧
      ¬ TargetsExactly Sample.env Sample.coreConf.setLifeCycleCallbacks
        (.ofValues (Sample.code 2) 2 0 [-1]) ⟨0, 0, 4⟩ := by
  refine ⟨Sample.clusterLayout, fun h => ?_, fun h => ?_⟩
  · have hfirst := (targetsExactly_iff_of_byte (P := 0) Sample.clusterLayout (by decide) rfl
      (by decide) (by decide) (by decide) (by decide)).mp h
    exact hfirst (by decide)
  · have htraps := ((targetsExactly_of_le (P := 0) Sample.clusterLayout (by decide) rfl (by decide)
      (by decide) (by decide) (by decide)).mp h).2
    exact htraps (by decide)

end ResourceTuner
