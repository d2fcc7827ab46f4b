import ResourceTuner.Core.CocoTableSlots
import ResourceTuner.Lib.Numbering

/-!
# Slots of their own

`CocoTable::getCocoTableSecondaryIndex` against the rows that the constructor allocates.  Clusters
and cgroups are numbered in the order in which the target registry lists them; cores are their own
numbers.  The counts that size the rows are kept elsewhere.

* **`ExactSlots`** — different names and priorities lie at different indices, all of them in the row;
* **`exactSlots_iff`** — for an index of the form `4 * slot + priority`, a fact about the slots;
* **`slotIndices_iff`** — what this says of the target description.
-/

namespace ResourceTuner

open CocoTable
open Numbering (Dense seenBefore)

/-! ## The lists of ids -/

/-- The ids of the registered cgroups. -/
def TargetRegistry.cGroupIDs (reg : TargetRegistry) : List Int :=
  reg.getCGroupConfigs.map (·.mCgroupID)

/-- The cpus of all clusters. -/
def TargetRegistry.physicalCores (reg : TargetRegistry) : List Int :=
  reg.mPhysicalClusters.entries.flatMap fun entry =>
    (List.range entry.2.mNumCpus.toNat).map fun i => entry.2.mStartCpu + i

/-- Every cgroup is registered once, under its own id. -/
theorem cGroupIDs_eq_keys (reg : TargetRegistry) : reg.cGroupIDs = reg.mCGroupMapping.keys := by
  rw [TargetRegistry.cGroupIDs, TargetRegistry.getCGroupConfigs, List.map_map]
  apply List.map_congr_left
  intro entry hentry
  have hlookup : reg.mCGroupMapping.lookup entry.1 = some entry.2 :=
    AList.mem_lookup_iff.mpr hentry
  exact (reg.keyed _ _ hlookup).1

theorem nodup_cGroupIDs (reg : TargetRegistry) : reg.cGroupIDs.Nodup := by
  rw [cGroupIDs_eq_keys]
  exact reg.mCGroupMapping.nodupKeys

theorem length_cGroupIDs (reg : TargetRegistry) :
    reg.cGroupIDs.length = reg.getCreatedCGroupsCount := by
  rw [cGroupIDs_eq_keys]
  rfl

theorem ne_neg_one_of_mem_cGroupIDs {reg : TargetRegistry} {id : Int} (h : id ∈ reg.cGroupIDs) :
    id ≠ -1 := by
  rw [cGroupIDs_eq_keys] at h
  obtain ⟨info, hlookup⟩ := Option.isSome_iff_exists.mp (AList.lookup_isSome.mpr h)
  exact (reg.keyed id info hlookup).2

theorem mFlatCGroupMap_eq (env : Env) :
    mFlatCGroupMap env = Numbering.number env.targetRegistry.cGroupIDs := rfl

theorem mFlatClusterMap_eq (env : Env) :
    mFlatClusterMap env = Numbering.number env.targetRegistry.getClusterIDs := rfl

/-! ## Indices of a resource -/

/-- The number of lists the constructor allocates for a resource. -/
def listCount (env : Env) (code : BitVec 32) : Nat :=
  rowSize env (getCocoTablePrimaryIndex env code).toNat

/-- An index that names a list of the resource. -/
def ValidIndex (env : Env) (resource : Resource) (priority : Int) : Prop :=
  0 ≤ getCocoTableSecondaryIndex env resource priority ∧
    getCocoTableSecondaryIndex env resource priority < listCount env resource.mResCode

instance (env : Env) (resource : Resource) (priority : Int) :
    Decidable (ValidIndex env resource priority) := inferInstanceAs (Decidable (_ ∧ _))

/-- Different pairs of a name in `named` and a priority have different indices, all valid. -/
def ExactSlots (env : Env) (code : BitVec 32) (name : Resource → Int) (named : List Int) : Prop :=
  ∀ r r' : Resource, r.mResCode = code → r'.mResCode = code → name r ∈ named → name r' ∈ named →
    ∀ p p' : Int, 0 ≤ p → p < TOTAL_PRIORITIES → 0 ≤ p' → p' < TOTAL_PRIORITIES →
      ValidIndex env r p ∧
        (getCocoTableSecondaryIndex env r p = getCocoTableSecondaryIndex env r' p' →
          name r = name r' ∧ p = p')

/-- The slots of every registered resource, by its apply type.  An unknown cgroup must not get an
index. -/
def SlotIndices (env : Env) : Prop :=
  ∀ code conf, env.getResConf code = some conf →
    match conf.mApplyType with
    | .APPLY_CORE =>
      ExactSlots env code Resource.getCoreValue env.targetRegistry.physicalCores
    | .APPLY_CLUSTER =>
      ExactSlots env code Resource.getClusterValue env.targetRegistry.getClusterIDs
    | .APPLY_CGROUP =>
      ExactSlots env code (·.getValueAt 0) env.targetRegistry.cGroupIDs ∧
        ∀ r : Resource, r.mResCode = code → r.getValueAt 0 ∉ env.targetRegistry.cGroupIDs →
          ∀ p : Int, 0 ≤ p → p < TOTAL_PRIORITIES → ¬ ValidIndex env r p
    | .APPLY_GLOBAL => True

/-! ## Slots and indices -/

theorem listCount_eq {env : Env} {code : BitVec 32} {conf : ResConfInfo}
    (h : env.getResConf code = some conf) : listCount env code = 4 * slotCount env conf := by
  obtain ⟨i, -, hrow, hindex⟩ := ResourceRegistry.getResConf_eq_some h
  rw [listCount, getCocoTablePrimaryIndex, h]
  simp only [hindex, Int.toNat_natCast]
  rw [rowSize, hrow, TOTAL_PRIORITIES]

/-- A name some resource of the code can carry. -/
def Nameable (code : BitVec 32) (name : Resource → Int) (v : Int) : Prop :=
  ∃ r : Resource, r.mResCode = code ∧ name r = v

/-- Where the index is `4 * slot + priority`, exact slots are distinct slots within the count. -/
theorem exactSlots_iff {env : Env} {code : BitVec 32} {conf : ResConfInfo}
    {name : Resource → Int} {named : List Int} {slot : Int → Nat}
    (hconf : env.getResConf code = some conf)
    (hindex : ∀ r p, r.mResCode = code → name r ∈ named →
      getCocoTableSecondaryIndex env r p = slot (name r) * 4 + p) :
    ExactSlots env code name named ↔
      ∀ v ∈ named, Nameable code name v → slot v < slotCount env conf ∧
        ∀ v' ∈ named, Nameable code name v' → slot v = slot v' → v = v' := by
  have hcount := listCount_eq hconf
  constructor
  · rintro h v hv ⟨r, hr, rfl⟩
    obtain ⟨⟨hge, hlt⟩, -⟩ := h r r hr hr hv hv 0 0 (by decide) (by decide) (by decide) (by decide)
    rw [hr, hcount, hindex r 0 hr hv] at hlt
    refine ⟨by omega, ?_⟩
    rintro v' hv' ⟨r', hr', rfl⟩ hsame
    obtain ⟨-, hinj⟩ := h r r' hr hr' hv hv' 0 0 (by decide) (by decide) (by decide) (by decide)
    rw [hindex r 0 hr hv, hindex r' 0 hr' hv', hsame] at hinj
    exact (hinj rfl).1
  · intro h r r' hr hr' hv hv' p p' hp0 hp hp0' hp'
    obtain ⟨hlt, hinj⟩ := h _ hv ⟨r, hr, rfl⟩
    rw [TOTAL_PRIORITIES] at hp hp'
    rw [ValidIndex, hr, hcount, hindex r p hr hv, hindex r' p' hr' hv']
    refine ⟨⟨by omega, by omega⟩, fun hsame => ?_⟩
    -- quotient and remainder by four
    exact ⟨hinj _ hv' ⟨r', hr', rfl⟩ (by omega), by omega⟩

section Types

variable {env : Env} {code : BitVec 32} {conf : ResConfInfo}

theorem nameable_core_iff {v : Int} : Nameable code Resource.getCoreValue v ↔ 0 ≤ v ∧ v < 256 := by
  constructor
  · rintro ⟨r, -, rfl⟩
    rw [Resource.getCoreValue, Resource.toNat_lowByte]
    omega
  · rintro ⟨h0, h256⟩
    exact ⟨(Resource.ofValues code 0 0 []).setCoreValue v, rfl,
      Resource.getCoreValue_setCoreValue _ h0 h256⟩

theorem nameable_cluster_iff {v : Int} :
    Nameable code Resource.getClusterValue v ↔ 0 ≤ v ∧ v < 256 := by
  constructor
  · rintro ⟨r, -, rfl⟩
    rw [Resource.getClusterValue, Resource.toNat_lowByte]
    omega
  · rintro ⟨h0, h256⟩
    exact ⟨(Resource.ofValues code 0 0 []).setClusterValue v, rfl,
      Resource.getClusterValue_setClusterValue _ h0 h256⟩

/-- Cores are their own slots. -/
theorem exactSlots_core (hconf : env.getResConf code = some conf)
    (htype : conf.mApplyType = .APPLY_CORE) :
    ExactSlots env code Resource.getCoreValue env.targetRegistry.physicalCores ↔
      ∀ cpu ∈ env.targetRegistry.physicalCores, 0 ≤ cpu → cpu < 256 →
        cpu < env.targetConfigs.mTotalCoreCount := by
  have hindex : ∀ (r : Resource) (p : Int), r.mResCode = code →
      r.getCoreValue ∈ env.targetRegistry.physicalCores →
      getCocoTableSecondaryIndex env r p = (r.getCoreValue.toNat : Int) * 4 + p := by
    intro r p hr _
    have hnonneg : 0 ≤ r.getCoreValue := Int.natCast_nonneg _
    simp only [getCocoTableSecondaryIndex, hr, hconf, htype, TOTAL_PRIORITIES]
    omega
  have hcount : slotCount env conf = env.targetConfigs.mTotalCoreCount := by
    simp only [slotCount, htype]
  rw [exactSlots_iff hconf hindex, hcount]
  constructor
  · intro h cpu hcpu h0 h256
    have hlt := (h cpu hcpu (nameable_core_iff.mpr ⟨h0, h256⟩)).1
    omega
  · intro h v hv hname
    obtain ⟨h0, h256⟩ := nameable_core_iff.mp hname
    have hlt := h v hv h0 h256
    refine ⟨by omega, fun v' hv' hname' hsame => ?_⟩
    have h0' := (nameable_core_iff.mp hname').1
    omega

/-- Clusters are numbered by the constructor. -/
theorem exactSlots_cluster (hconf : env.getResConf code = some conf)
    (htype : conf.mApplyType = .APPLY_CLUSTER) :
    ExactSlots env code Resource.getClusterValue env.targetRegistry.getClusterIDs ↔
      Dense env.targetRegistry.getClusterIDs (fun p => 0 ≤ p ∧ p < 256)
        env.targetConfigs.mTotalClusterCount := by
  have hindex : ∀ (r : Resource) (p : Int), r.mResCode = code →
      r.getClusterValue ∈ env.targetRegistry.getClusterIDs →
      getCocoTableSecondaryIndex env r p =
        (seenBefore env.targetRegistry.getClusterIDs r.getClusterValue : Int) * 4 + p := by
    intro r p hr hmem
    have hnonneg : 0 ≤ r.getClusterValue := Int.natCast_nonneg _
    have hne : r.getClusterValue ≠ -1 := by omega
    simp only [getCocoTableSecondaryIndex, hr, hconf, htype, TOTAL_PRIORITIES, if_neg hne,
      mFlatClusterMap_eq, Numbering.lookup_number hmem, Option.getD_some]
    rfl
  have hcount : slotCount env conf = env.targetConfigs.mTotalClusterCount := by
    simp only [slotCount, htype]
  rw [exactSlots_iff hconf hindex, hcount]
  simp only [nameable_cluster_iff]
  rfl

/-- Cgroups are numbered without a gap, and each is registered once. -/
theorem exactSlots_cgroup (hconf : env.getResConf code = some conf)
    (htype : conf.mApplyType = .APPLY_CGROUP) :
    ExactSlots env code (·.getValueAt 0) env.targetRegistry.cGroupIDs := by
  have hindex : ∀ (r : Resource) (p : Int), r.mResCode = code →
      r.getValueAt 0 ∈ env.targetRegistry.cGroupIDs →
      getCocoTableSecondaryIndex env r p =
        (seenBefore env.targetRegistry.cGroupIDs (r.getValueAt 0) : Int) * 4 + p := by
    intro r p hr hmem
    have hne := ne_neg_one_of_mem_cGroupIDs hmem
    simp only [getCocoTableSecondaryIndex, hr, hconf, htype, TOTAL_PRIORITIES, if_neg hne,
      mFlatCGroupMap_eq, Numbering.lookup_number hmem, Option.getD_some]
    rfl
  have hcount : slotCount env conf = env.targetRegistry.cGroupIDs.length := by
    simp only [slotCount, htype, length_cGroupIDs]
  rw [exactSlots_iff hconf hindex, hcount]
  have hdense := Numbering.dense_of_nodup (nodup_cGroupIDs env.targetRegistry) fun _ => True
  intro v hv _
  obtain ⟨hlt, hinj⟩ := hdense v hv trivial
  exact ⟨hlt, fun v' hv' _ => hinj v' hv' trivial⟩

/-- `operator[]` reads an unknown cgroup as the one numbered zero. -/
theorem unknown_cgroup_index (hconf : env.getResConf code = some conf)
    (htype : conf.mApplyType = .APPLY_CGROUP) {r : Resource} (hr : r.mResCode = code)
    (hneg : r.getValueAt 0 ≠ -1) (hunknown : r.getValueAt 0 ∉ env.targetRegistry.cGroupIDs)
    (p : Int) : getCocoTableSecondaryIndex env r p = p := by
  simp only [getCocoTableSecondaryIndex, hr, hconf, htype, if_neg hneg, mFlatCGroupMap_eq,
    Numbering.lookup_number_of_notMem hunknown, Option.getD_none]
  omega

/-- So an unknown cgroup has no index only if no cgroup is registered. -/
theorem unknown_cgroup_iff (hconf : env.getResConf code = some conf)
    (htype : conf.mApplyType = .APPLY_CGROUP) :
    (∀ r : Resource, r.mResCode = code → r.getValueAt 0 ∉ env.targetRegistry.cGroupIDs →
      ∀ p : Int, 0 ≤ p → p < TOTAL_PRIORITIES → ¬ ValidIndex env r p) ↔
      env.targetRegistry.cGroupIDs = [] := by
  have hcount : listCount env code = 4 * env.targetRegistry.cGroupIDs.length := by
    rw [listCount_eq hconf, length_cGroupIDs]
    simp only [slotCount, htype]
  constructor
  · intro h
    by_contra hne
    have hpos : 0 < env.targetRegistry.cGroupIDs.length := List.length_pos_iff.mpr hne
    -- some id is neither registered nor -1
    obtain ⟨id, hid⟩ :=
      Infinite.exists_notMem_finset (insert (-1) env.targetRegistry.cGroupIDs.toFinset)
    have hunknown : id ∉ env.targetRegistry.cGroupIDs := fun hmem => hid (by simp [hmem])
    have hneg : id ≠ -1 := fun heq => hid (by simp [heq])
    have hzero := unknown_cgroup_index hconf htype (r := .ofValues code 0 0 [id]) rfl hneg hunknown 0
    apply h (.ofValues code 0 0 [id]) rfl hunknown 0 (by decide) (by decide)
    rw [ValidIndex, hzero, show (Resource.ofValues code 0 0 [id]).mResCode = code from rfl, hcount]
    omega
  · rintro hnil r hr - p - - ⟨hge, hlt⟩
    rw [hr, hcount, hnil, List.length_nil] at hlt
    omega

end Types

/-! ## The target description -/

/-- Some resource of an apply type is registered. -/
def Registers (env : Env) (applyType : ResourceApplyType) : Prop :=
  ∃ code conf, env.getResConf code = some conf ∧ conf.mApplyType = applyType

/-- Every index is exact if and only if: the numbers of the mapped clusters are distinct and within
the cluster count, the cores of the clusters are within the core count, and no cgroup is registered
that an unknown one could be taken for; each only if there is a resource to ask for it. -/
theorem slotIndices_iff (env : Env) :
    SlotIndices env ↔
      (Registers env .APPLY_CLUSTER → Dense env.targetRegistry.getClusterIDs
        (fun p => 0 ≤ p ∧ p < 256) env.targetConfigs.mTotalClusterCount) ∧
      (Registers env .APPLY_CORE → ∀ cpu ∈ env.targetRegistry.physicalCores, 0 ≤ cpu → cpu < 256 →
        cpu < env.targetConfigs.mTotalCoreCount) ∧
      (Registers env .APPLY_CGROUP → env.targetRegistry.cGroupIDs = []) := by
  constructor
  · intro h
    refine ⟨?_, ?_, ?_⟩
    · rintro ⟨code, conf, hconf, htype⟩
      have hslots := h code conf hconf
      rw [htype] at hslots
      exact (exactSlots_cluster hconf htype).mp hslots
    · rintro ⟨code, conf, hconf, htype⟩
      have hslots := h code conf hconf
      rw [htype] at hslots
      exact (exactSlots_core hconf htype).mp hslots
    · rintro ⟨code, conf, hconf, htype⟩
      have hslots := h code conf hconf
      rw [htype] at hslots
      exact (unknown_cgroup_iff hconf htype).mp hslots.2
  · rintro ⟨hcluster, hcore, hcgroup⟩ code conf hconf
    cases htype : conf.mApplyType with
    | APPLY_CORE => exact (exactSlots_core hconf htype).mpr (hcore ⟨code, conf, hconf, htype⟩)
    | APPLY_CLUSTER =>
      exact (exactSlots_cluster hconf htype).mpr (hcluster ⟨code, conf, hconf, htype⟩)
    | APPLY_CGROUP =>
      exact ⟨exactSlots_cgroup hconf htype,
        (unknown_cgroup_iff hconf htype).mpr (hcgroup ⟨code, conf, hconf, htype⟩)⟩
    | APPLY_GLOBAL => trivial

/-- Cgroup 99 is not registered, and its resources share the lists of the cgroup that is. -/
theorem unknown_cgroup_gets_index : ¬ SlotIndices Sample.env := by
  intro h
  have hcgroup := (h (Sample.code 4) Sample.cGroupConf.setLifeCycleCallbacks (by decide)).2
  exact hcgroup (.ofValues (Sample.code 4) 0 0 [99, 1]) rfl (by decide) 0 (by decide) (by decide)
    (by decide)

/-- When every mapped cluster fits the byte that names it and is counted once, the numbers are right
exactly if no two logical clusters share a physical one. -/
theorem dense_clusters_iff_nodup {env : Env}
    (hbyte : ∀ p ∈ env.targetRegistry.getClusterIDs, 0 ≤ p ∧ p < 256)
    (hcount : env.targetConfigs.mTotalClusterCount =
      env.targetRegistry.getClusterIDs.toFinset.card) :
    Dense env.targetRegistry.getClusterIDs (fun p => 0 ≤ p ∧ p < 256)
      env.targetConfigs.mTotalClusterCount ↔ env.targetRegistry.getClusterIDs.Nodup := by
  rw [hcount]
  constructor
  · intro h
    apply Numbering.nodup_of_dense
    intro p hp _
    obtain ⟨hlt, hinj⟩ := h p hp (hbyte p hp)
    exact ⟨hlt, fun p' hp' _ => hinj p' hp' (hbyte p' hp')⟩
  · intro h
    rw [List.toFinset_card_of_nodup h]
    exact Numbering.dense_of_nodup h _

end ResourceTuner
