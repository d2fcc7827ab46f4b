import ResourceTuner.Common.Utils
import ResourceTuner.Lib.UnorderedMap

/-!
# Target description

`TargetRegistry.cpp` (the lookups and the config-driven builders) and the two settings records
of `UrmSettings.h`.  A `TargetRegistry` carries the facts all its builders establish: a logical
cluster is only ever mapped to a physical cluster that has a `ClusterInfo`, and a cgroup is
registered under its own id, which is not `-1`.
-/

namespace ResourceTuner

/-- `struct ClusterInfo`, without the capacity no modelled function reads. -/
structure ClusterInfo where
  mPhysicalID : Int
  mStartCpu : Int
  mNumCpus : Int
  deriving DecidableEq, Repr

/-- `struct CGroupConfigInfo`, without the two flags only cgroup creation reads. -/
structure CGroupConfigInfo where
  mCgroupName : String
  mCgroupID : Int
  deriving DecidableEq, Repr

/-- `UrmSettings::targetConfigs`. -/
structure TargetConfigs where
  mTotalCoreCount : Nat
  mTotalClusterCount : Nat
  currMode : BitVec 8
  deriving DecidableEq, Repr

/-- `UrmSettings::metaConfigs`. -/
structure MetaConfigs where
  mMaxConcurrentRequests : Nat
  deriving DecidableEq, Repr

/-- `class TargetRegistry`. -/
structure TargetRegistry where
  mLogicalToPhysicalClusterMapping : UnorderedMap Int Int
  mPhysicalClusters : UnorderedMap Int ClusterInfo
  mCGroupMapping : UnorderedMap Int CGroupConfigInfo
  /-- Every mapped physical cluster has an entry. -/
  mapped : ∀ l p, mLogicalToPhysicalClusterMapping.lookup l = some p → p ∈ mPhysicalClusters
  keyed : ∀ id info, mCGroupMapping.lookup id = some info → info.mCgroupID = id ∧ id ≠ -1

namespace TargetRegistry

def empty : TargetRegistry where
  mLogicalToPhysicalClusterMapping := ∅
  mPhysicalClusters := ∅
  mCGroupMapping := ∅
  mapped := by
    intro l p h
    simp at h
  keyed := by
    intro id info h
    simp at h

/-! ## Builders -/

/-- `addClusterMapping` after both strings were read as numbers: a physical cluster seen for the
first time gets an entry with no cores that starts at its own id. -/
def addClusterMapping (reg : TargetRegistry) (logicalID physicalID : Int) : TargetRegistry where
  mPhysicalClusters :=
    if physicalID ∈ reg.mPhysicalClusters then reg.mPhysicalClusters
    else reg.mPhysicalClusters.insert physicalID ⟨physicalID, physicalID, 0⟩
  mLogicalToPhysicalClusterMapping :=
    reg.mLogicalToPhysicalClusterMapping.insert logicalID physicalID
  mCGroupMapping := reg.mCGroupMapping
  keyed := reg.keyed
  mapped := by
    intro l p h
    by_cases hl : l = logicalID
    · subst hl
      rw [AList.lookup_insert] at h
      obtain rfl := Option.some.inj h
      split
      · assumption
      · simp
    · rw [AList.lookup_insert_ne hl] at h
      have hp := reg.mapped l p h
      split
      · exact hp
      · simp [hp]

/-- `addClusterSpreadInfo`: set the number of cores of a known physical cluster. -/
def addClusterSpreadInfo (reg : TargetRegistry) (physicalID numCores : Int) : TargetRegistry where
  mPhysicalClusters :=
    match reg.mPhysicalClusters.lookup physicalID with
    | none => reg.mPhysicalClusters
    | some info => reg.mPhysicalClusters.insert physicalID { info with mNumCpus := numCores }
  mLogicalToPhysicalClusterMapping := reg.mLogicalToPhysicalClusterMapping
  mCGroupMapping := reg.mCGroupMapping
  keyed := reg.keyed
  mapped := by
    intro l p h
    have hp := reg.mapped l p h
    split
    · exact hp
    · simp [hp]

/-- `addCGroupMapping` for a cgroup whose creation succeeded; one without an id or a name is
dropped. -/
def addCGroupMapping (reg : TargetRegistry) (info : CGroupConfigInfo) : TargetRegistry :=
  if h : info.mCgroupID = -1 ∨ info.mCgroupName.length = 0 then reg
  else
    { reg with
      mCGroupMapping := reg.mCGroupMapping.insert info.mCgroupID info
      keyed := by
        intro id info' hlookup
        by_cases hid : id = info.mCgroupID
        · subst hid
          rw [AList.lookup_insert] at hlookup
          obtain rfl := Option.some.inj hlookup
          exact ⟨rfl, fun hneg => h (.inl hneg)⟩
        · rw [AList.lookup_insert_ne hid] at hlookup
          exact reg.keyed id info' hlookup }

/-! ## Lookups -/

/-- `getClusterIDs`: the physical ids in the iteration order of the logical map. -/
def getClusterIDs (reg : TargetRegistry) : List Int :=
  reg.mLogicalToPhysicalClusterMapping.entries.map (·.2)

def getPhysicalClusterId (reg : TargetRegistry) (logicalClusterId : Int) : Int :=
  match reg.mLogicalToPhysicalClusterMapping.lookup logicalClusterId with
  | none => -1
  | some physicalClusterId => physicalClusterId

/-- `getPhysicalCoreId`: the `n`-th core of a logical cluster. -/
def getPhysicalCoreId (reg : TargetRegistry) (logicalClusterId logicalCoreCount : Int) : Int :=
  if UnorderedMap.size reg.mPhysicalClusters = 0 then logicalCoreCount
  else
    match reg.mLogicalToPhysicalClusterMapping.lookup logicalClusterId with
    | none => -1
    | some physicalClusterId =>
      match reg.mPhysicalClusters.lookup physicalClusterId with
      | none => -1
      | some clusterInfo =>
        if logicalCoreCount ≤ 0 ∨ logicalCoreCount > clusterInfo.mNumCpus then -1
        else clusterInfo.mStartCpu + logicalCoreCount - 1

/-- `getClusterInfo` reads with `operator[]`.  The null it inserts under a missing id is a missing id to
every later read of one id, but `size()` counts it and a walk over the map meets it; only the answer is
modelled. -/
def getClusterInfo (reg : TargetRegistry) (physicalClusterID : Int) : Option ClusterInfo :=
  reg.mPhysicalClusters.lookup physicalClusterID

/-- `getCGroupConfig`, with the same remark: `getCreatedCGroupsCount` counts the null, and `getCGroupNames`
and `getCGroupConfigs` meet it. -/
def getCGroupConfig (reg : TargetRegistry) (cGroupID : Int) : Option CGroupConfigInfo :=
  reg.mCGroupMapping.lookup cGroupID

def getCGroupNames (reg : TargetRegistry) : List String :=
  reg.mCGroupMapping.entries.map (·.2.mCgroupName)

def getCGroupConfigs (reg : TargetRegistry) : List CGroupConfigInfo :=
  reg.mCGroupMapping.entries.map (·.2)

def getCreatedCGroupsCount (reg : TargetRegistry) : Nat := UnorderedMap.size reg.mCGroupMapping

end TargetRegistry

end ResourceTuner
