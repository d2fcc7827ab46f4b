import ResourceTuner.Core.CocoTableLinks
import ResourceTuner.Core.Extensions
import ResourceTuner.Core.Restoration
import ResourceTuner.Lib.Numerals

/-!
# The end of the server

`ResourceRegistry::restoreResourcesToDefaultValues`, which `tear` of `RestuneInit.cpp` calls once the
consumer thread has ended.  The tear callbacks of single requests can leave files behind; this loop
writes back whatever was read when the resources were registered, so what counts is whether a file that
a callback wrote is among those that were read.

* `restoreResourcesToDefaultValues`, `Device.afterTear` — the loop, and the device after it;
* `Prepared` — how the registry and the target were set up;
* `mem_defaultPaths_of_writes` — a default callback stays among the files that were read;
* `CocoTable.Only` — the table does nothing with other nodes than it was given;
* `contents_of_targeted` — after the loop the device is as it was.

What an extension's callback writes is a parameter.
-/

namespace ResourceTuner

open LastWrite (last?)
open Numerals (firstLine)

/-- `restoreResourcesToDefaultValues`: the writes, in the order the store is iterated. -/
def ResourceRegistry.restoreResourcesToDefaultValues (reg : ResourceRegistry) :
    List (String × String) :=
  reg.mDefaultValueStore.entries.flatMap fun defaultConfig =>
    writeToFile defaultConfig.1 defaultConfig.2

/-- What a callback of an extension writes, by its number, for a resource. -/
abbrev ExtensionWrites : Type := Nat → Resource → List (String × String)

/-- The writes of a lifecycle callback, those of an extension too. -/
def ResourceLifecycleCallback.writesWith (ext : ExtensionWrites) (env : Env) (resource : Resource)
    (callback : ResourceLifecycleCallback) : List (String × String) :=
  match callback with
  | .extension id => ext id resource
  | callback => callback.writes env resource

/-- The callback of the configuration. -/
def Callback.of (cb : Callback) (conf : ResConfInfo) : Option ResourceLifecycleCallback :=
  match cb with
  | .applier _ => conf.mResourceApplierCallback
  | .tear _ => conf.mResourceTearCallback

/-- The writes of a callback the table has run. -/
def Callback.writesWith (ext : ExtensionWrites) (env : Env) (cb : Callback) : List (String × String) :=
  match cb.node.mData with
  | none => []
  | some resource =>
    match env.getResConf resource.mResCode with
    | none => []
    | some conf =>
      match cb.of conf with
      | none => []
      | some callback => callback.writesWith ext env resource

/-- The callback is one of an extension. -/
def Callback.IsExtension (env : Env) (cb : Callback) : Prop :=
  ∃ resource conf id, cb.node.mData = some resource ∧ env.getResConf resource.mResCode = some conf ∧
    cb.of conf = some (.extension id)

/-- The device after some callbacks. -/
def Device.afterCallbacks (device : Device) (ext : ExtensionWrites) (env : Env)
    (callbacks : List Callback) : String → String :=
  (callbacks.flatMap (Callback.writesWith ext env)).foldl device.write device.contents

/-- The device after some callbacks and the end of the server. -/
def Device.afterTear (device : Device) (ext : ExtensionWrites) (env : Env)
    (callbacks : List Callback) : String → String :=
  env.resourceRegistry.restoreResourcesToDefaultValues.foldl device.write
    (device.afterCallbacks ext env callbacks)

/-! ## The store -/

/-- What an entry of a configuration file adds to the store. -/
def ResourceRegistration.defaults (entry : ResourceRegistration) : List (String × String) :=
  match entry.resourceConfigInfo with
  | none => []
  | some conf =>
    if conf.mResourceResType = 0 then []
    else (ResourceRegistry.defaultPaths entry.target entry.totalCoreCount conf).map fun filePath =>
      (filePath, entry.readFromFile filePath)

namespace ResourceRegistry

theorem storeDefaults_eq_insertAll (reg : ResourceRegistry) (readFromFile : String → String)
    (filePaths : List String) :
    (reg.storeDefaults readFromFile filePaths).mDefaultValueStore =
      LastWrite.insertAll reg.mDefaultValueStore
        (filePaths.map fun filePath => (filePath, readFromFile filePath)) := by
  rw [LastWrite.insertAll, List.foldl_map]
  rfl

theorem addToTable_mDefaultValueStore (reg : ResourceRegistry) (conf : ResConfInfo)
    (isBuSpecified : Bool) :
    (reg.addToTable conf isBuSpecified).mDefaultValueStore = reg.mDefaultValueStore := by
  unfold addToTable
  split <;> split <;> rfl

theorem register_mDefaultValueStore (reg : ResourceRegistry) (entry : ResourceRegistration) :
    (reg.register entry).mDefaultValueStore =
      LastWrite.insertAll reg.mDefaultValueStore entry.defaults := by
  unfold register ResourceRegistration.defaults
  cases entry.resourceConfigInfo with
  | none => rfl
  | some conf =>
    by_cases hmalformed : conf.mResourceResType = 0
    · simp only [registerResource, if_pos hmalformed]
      rfl
    · simp only [registerResource, if_neg hmalformed, fetchAndStoreDefaults]
      rw [storeDefaults_eq_insertAll, addToTable_mDefaultValueStore]

/-- The store holds for every file what the last entry that names it has read. -/
theorem lookup_ofEntries (entries : List ResourceRegistration) (path : String) :
    (ofEntries entries).mDefaultValueStore.lookup path =
      last? path (entries.flatMap ResourceRegistration.defaults) := by
  induction entries using List.reverseRecOn with
  | nil => rfl
  | append_singleton entries entry ih =>
    rw [ofEntries, List.foldl_append, List.foldl_cons, List.foldl_nil, register_mDefaultValueStore,
      LastWrite.lookup_insertAll, List.flatMap_append, LastWrite.last?_append, List.flatMap_singleton,
      ← ofEntries, ih]

/-- A loop that leaves the store alone step by step. -/
theorem foldl_mDefaultValueStore
    {plug : ResourceRegistry → BitVec 32 × ResourceLifecycleCallback → ResourceRegistry}
    (hplug : ∀ reg resource, (plug reg resource).mDefaultValueStore = reg.mDefaultValueStore)
    (reg : ResourceRegistry) (resources : List (BitVec 32 × ResourceLifecycleCallback)) :
    (resources.foldl plug reg).mDefaultValueStore = reg.mDefaultValueStore := by
  induction resources generalizing reg with
  | nil => rfl
  | cons resource resources ih => exact (ih _).trans (hplug reg resource)

/-- Callbacks do not touch the store. -/
theorem pluginModifications_mDefaultValueStore (reg : ResourceRegistry) (extensions : Extensions) :
    (reg.pluginModifications extensions).mDefaultValueStore = reg.mDefaultValueStore := by
  have happlier : ∀ (reg : ResourceRegistry) resource,
      (reg.plugApplier resource).mDefaultValueStore = reg.mDefaultValueStore := by
    intro reg resource
    unfold plugApplier
    split <;> rfl
  have htear : ∀ (reg : ResourceRegistry) resource,
      (reg.plugTear resource).mDefaultValueStore = reg.mDefaultValueStore := by
    intro reg resource
    unfold plugTear
    split <;> rfl
  exact (foldl_mDefaultValueStore htear _ _).trans (foldl_mDefaultValueStore happlier _ _)

/-- Under a key is the row that was registered or what was there. -/
theorem of_registered {m : BitVec 32 → Option ResConfInfo} {key customKey code : BitVec 32}
    {row conf : ResConfInfo} {custom : Bool}
    (h : IndexedTable.registered m key customKey row custom code = some conf) :
    conf = row ∨ m code = some conf := by
  have hupdate : ∀ (m : BitVec 32 → Option ResConfInfo) (key : BitVec 32) (row : Option ResConfInfo),
      Function.update m key row code = some conf → row = some conf ∨ m code = some conf := by
    intro m key row h
    by_cases hcode : code = key
    · rw [hcode, Function.update_self] at h
      exact .inl h
    · rw [Function.update_of_ne hcode] at h
      exact .inr h
  unfold IndexedTable.registered at h
  split at h
  · rcases hupdate _ _ _ h with h | h
    · exact .inl (Option.some.inj h).symm
    · rcases hupdate _ _ _ h with h | h
      · cases h
      · exact .inr h
  · exact (hupdate _ _ _ h).imp (fun h => (Option.some.inj h).symm) id

/-- A configuration in the map is one that an entry gave, completed. -/
theorem exists_entry_of_mapOf {entries : List ResourceRegistration} {code : BitVec 32}
    {conf : ResConfInfo} (h : mapOf entries code = some conf) :
    ∃ entry ∈ entries, ∃ given, entry.resourceConfigInfo = some given ∧
      given.mResourceResType ≠ 0 ∧ conf = given.setLifeCycleCallbacks := by
  induction entries using List.reverseRecOn with
  | nil => cases h
  | append_singleton entries entry ih =>
    rw [mapOf_concat, updateMap] at h
    have hold : mapOf entries code = some conf → ∃ entry' ∈ entries ++ [entry], ∃ given,
        entry'.resourceConfigInfo = some given ∧ given.mResourceResType ≠ 0 ∧
          conf = given.setLifeCycleCallbacks := by
      intro hmap
      obtain ⟨entry', hmem, hgiven⟩ := ih hmap
      exact ⟨entry', List.mem_append_left _ hmem, hgiven⟩
    cases hgiven : entry.resourceConfigInfo with
    | none =>
      rw [hgiven] at h
      exact hold h
    | some given =>
      simp only [hgiven] at h
      by_cases htype : given.mResourceResType = 0
      · rw [if_pos htype] at h
        exact hold h
      · rw [if_neg htype] at h
        rcases of_registered h with h | h
        · exact ⟨entry, by simp, given, hgiven, htype, h⟩
        · exact hold h

theorem defaultPaths_setLifeCycleCallbacks (target : TargetRegistry) (totalCoreCount : Nat)
    (conf : ResConfInfo) :
    defaultPaths target totalCoreCount conf.setLifeCycleCallbacks =
      defaultPaths target totalCoreCount conf := by
  unfold defaultPaths ResConfInfo.setLifeCycleCallbacks
  cases conf.mApplyType <;> rfl

end ResourceRegistry

/-! ## The server as it is set up -/

/-- `AuxRoutines::readFromFile` on a file of the device: its first line. -/
def Device.readFromFile (device : Device) (fileName : String) : String :=
  String.ofList (firstLine (device.contents fileName))

/-- The registry was filled from configuration files on the target and the device on which it is used,
before anything was written; extensions register callbacks of their own; and every id fits its byte.
Besides, the code relies on two things it does not check: the files of the device are single lines, so
that what is read is all there is, and every cpu of a cluster was on line when the cpus were counted. -/
structure Prepared (env : Env) (device : Device) (entries : List ResourceRegistration)
    (registrations : List CallbackRegistration) : Prop where
  registry : env.resourceRegistry = (ResourceRegistry.ofEntries entries).pluginModifications
    (.ofRegistrations registrations)
  target : ∀ entry ∈ entries, entry.target = env.targetRegistry
  cores : ∀ entry ∈ entries, entry.totalCoreCount = env.targetConfigs.mTotalCoreCount
  read : ∀ entry ∈ entries, entry.readFromFile = device.readFromFile
  oneLine : ∀ path, device.readFromFile path = device.contents path
  extensions : ∀ registration ∈ registrations, ∃ id, registration.callback = .extension id
  ids : ByteIds env.targetRegistry
  counted : ∀ p info, env.targetRegistry.mPhysicalClusters.lookup p = some info →
    0 ≤ info.mStartCpu ∧ info.mStartCpu + info.mNumCpus ≤ env.targetConfigs.mTotalCoreCount
  named : device.openable "" = false

/-- The files that are read when the configuration is registered. -/
def Env.defaultPaths (env : Env) (conf : ResConfInfo) : List String :=
  ResourceRegistry.defaultPaths env.targetRegistry env.targetConfigs.mTotalCoreCount conf

/-- The cores a resource stands for are those of a cluster that is mapped, or the one it names. -/
def Targeted (env : Env) (node : ResIterable) : Prop :=
  ∀ resource conf, node.mData = some resource → env.getResConf resource.mResCode = some conf →
    ∃ given, Translated env conf.mApplyType given resource

section Prepared

variable {env : Env} {device : Device} {entries : List ResourceRegistration}
  {registrations : List CallbackRegistration} {resource : Resource} {conf : ResConfInfo}

/-- A configuration of the registry is one of the files' with some callbacks replaced. -/
theorem Prepared.exists_entry (h : Prepared env device entries registrations) {code : BitVec 32}
    (hconf : env.getResConf code = some conf) :
    ∃ entry ∈ entries, ∃ given, entry.resourceConfigInfo = some given ∧
      given.mResourceResType ≠ 0 ∧
      conf = (Extensions.ofRegistrations registrations).modify code given.setLifeCycleCallbacks := by
  rw [Env.getResConf, h.registry, ResourceRegistry.getResConf_modified,
    ResourceRegistry.getResConf_ofEntries] at hconf
  obtain ⟨completed, hmap, rfl⟩ := Option.map_eq_some_iff.mp hconf
  obtain ⟨entry, hmem, given, hgiven, htype, rfl⟩ := ResourceRegistry.exists_entry_of_mapOf hmap
  exact ⟨entry, hmem, given, hgiven, htype, rfl⟩

/-- Every value in the store is what the device held. -/
theorem Prepared.lookup_eq (h : Prepared env device entries registrations) {path value : String}
    (hvalue : env.resourceRegistry.mDefaultValueStore.lookup path = some value) :
    value = device.contents path := by
  rw [h.registry, ResourceRegistry.pluginModifications_mDefaultValueStore,
    ResourceRegistry.lookup_ofEntries] at hvalue
  obtain ⟨entry, hmem, hdefault⟩ := List.mem_flatMap.mp (LastWrite.mem_of_last? hvalue)
  unfold ResourceRegistration.defaults at hdefault
  cases hgiven : entry.resourceConfigInfo with
  | none => simp [hgiven] at hdefault
  | some given =>
    simp only [hgiven] at hdefault
    split at hdefault
    · cases hdefault
    · obtain ⟨filePath, -, heq⟩ := List.mem_map.mp hdefault
      obtain ⟨rfl, rfl⟩ := Prod.mk.inj heq
      rw [h.read entry hmem, h.oneLine]

/-- The files of a registered configuration are in the store. -/
theorem Prepared.lookup_of_mem (h : Prepared env device entries registrations) {code : BitVec 32}
    (hconf : env.getResConf code = some conf) {path : String} (hpath : path ∈ env.defaultPaths conf) :
    env.resourceRegistry.mDefaultValueStore.lookup path = some (device.contents path) := by
  obtain ⟨entry, hmem, given, hgiven, htype, rfl⟩ := h.exists_entry hconf
  have hpaths : path ∈ ResourceRegistry.defaultPaths entry.target entry.totalCoreCount given := by
    rw [h.target entry hmem, h.cores entry hmem, ← ResourceRegistry.defaultPaths_setLifeCycleCallbacks]
    exact hpath
  have hstored : path ∈ (entries.flatMap ResourceRegistration.defaults).map Prod.fst := by
    refine List.mem_map.mpr ⟨(path, entry.readFromFile path), List.mem_flatMap.mpr ⟨entry, hmem, ?_⟩,
      rfl⟩
    simp only [ResourceRegistration.defaults, hgiven, if_neg htype]
    exact List.mem_map_of_mem hpaths
  cases hlookup : env.resourceRegistry.mDefaultValueStore.lookup path with
  | some value => rw [h.lookup_eq hlookup]
  | none =>
    rw [h.registry, ResourceRegistry.pluginModifications_mDefaultValueStore,
      ResourceRegistry.lookup_ofEntries] at hlookup
    exact absurd hstored (LastWrite.last?_eq_none_iff.mp hlookup)

/-- A callback is an extension's, or the default one of the apply type. -/
theorem Prepared.of_conf (h : Prepared env device entries registrations) {code : BitVec 32}
    (hconf : env.getResConf code = some conf) (cb : Callback) :
    (∃ id, cb.of conf = some (.extension id)) ∨ cb.of conf = cb.of conf.setLifeCycleCallbacks := by
  obtain ⟨entry, -, given, -, -, rfl⟩ := h.exists_entry hconf
  have hregistered : ∀ callbackType callback,
      last? code (Extensions.pairsOf callbackType registrations) = some callback →
      ∃ id, callback = .extension id := by
    intro callbackType callback hlast
    obtain ⟨registration, hmem, heq⟩ := List.mem_map.mp (LastWrite.mem_of_last? hlast)
    obtain ⟨-, rfl⟩ := Prod.mk.inj heq
    exact h.extensions registration (List.mem_filter.mp hmem).1
  obtain ⟨happlier, htear⟩ := Extensions.lookup_ofRegistrations registrations code
  -- completing a configuration reads its apply type only
  have hcompleted : ((Extensions.ofRegistrations registrations).modify code
      given.setLifeCycleCallbacks).setLifeCycleCallbacks.mResourceApplierCallback =
        given.setLifeCycleCallbacks.mResourceApplierCallback ∧
      ((Extensions.ofRegistrations registrations).modify code
        given.setLifeCycleCallbacks).setLifeCycleCallbacks.mResourceTearCallback =
          given.setLifeCycleCallbacks.mResourceTearCallback := by
    unfold ResConfInfo.setLifeCycleCallbacks
    cases htype : given.mApplyType <;> simp [Extensions.modify]
  cases cb with
  | applier node =>
    simp only [Callback.of, hcompleted.1]
    simp only [Extensions.modify, happlier]
    cases hlast : last? code (Extensions.pairsOf 0 registrations) with
    | none => exact .inr rfl
    | some callback =>
      obtain ⟨id, rfl⟩ := hregistered 0 callback hlast
      exact .inl ⟨id, rfl⟩
  | tear node =>
    simp only [Callback.of, hcompleted.2]
    simp only [Extensions.modify, htear]
    cases hlast : last? code (Extensions.pairsOf 1 registrations) with
    | none => exact .inr rfl
    | some callback =>
      obtain ⟨id, rfl⟩ := hregistered 1 callback hlast
      exact .inl ⟨id, rfl⟩

/-! ## What the default callbacks write -/

/-- The path of a counted core. -/
theorem coreNode_mem (hconf : env.getResConf resource.mResCode = some conf)
    (htype : conf.mApplyType = .APPLY_CORE) {coreID : Int} (hcore : 0 ≤ coreID)
    (hcounted : coreID < env.targetConfigs.mTotalCoreCount) :
    getCoreTypeResourceNodePath env resource coreID ∈ env.defaultPaths conf := by
  obtain ⟨n, rfl⟩ := Int.eq_ofNat_of_zero_le hcore
  simp only [Env.defaultPaths, ResourceRegistry.defaultPaths, htype]
  rw [getCoreTypeResourceNodePath, resourceNodePath, hconf]
  exact List.mem_map.mpr ⟨n, List.mem_range.mpr (by omega), rfl⟩

/-- A resource addresses counted cores only. -/
theorem Prepared.addressedCores_counted (h : Prepared env device entries registrations)
    (htranslated : ∃ given, Translated env .APPLY_CORE given resource) {coreID : Int}
    (hcore : coreID ∈ addressedCores env resource) :
    0 ≤ coreID ∧ coreID < env.targetConfigs.mTotalCoreCount := by
  obtain ⟨given, hcluster, hgiven⟩ := htranslated
  unfold addressedCores at hcore
  by_cases hzero : resource.getCoreValue = 0
  · -- all cores of the cluster
    rw [if_pos hzero] at hcore
    cases hinfo : env.targetRegistry.getClusterInfo resource.getClusterValue with
    | none => simp [hinfo] at hcore
    | some cinfo =>
      simp only [hinfo] at hcore
      obtain ⟨i, hi, rfl⟩ := List.mem_map.mp hcore
      obtain ⟨hstart, hend⟩ := h.counted _ cinfo hinfo
      simp only [List.pure_def, List.bind_eq_flatMap, List.mem_flatMap, List.mem_singleton] at hi
      obtain ⟨n, hn, rfl⟩ := hi
      have hlt := List.mem_range.mp hn
      omega
  · rw [if_neg hzero] at hcore
    rw [List.mem_singleton.mp hcore]
    rcases hgiven with ⟨-, hgiven⟩ | ⟨info, hinfo, hpos, hle, heq⟩
    · exact absurd hgiven hzero
    · obtain ⟨hstart, hend⟩ := h.counted _ info hinfo
      omega

theorem clusterNode_mem (hconf : env.getResConf resource.mResCode = some conf)
    (htype : conf.mApplyType = .APPLY_CLUSTER) {logical : Int}
    (hmapped : env.targetRegistry.mLogicalToPhysicalClusterMapping.lookup logical =
      some resource.getClusterValue) :
    getClusterTypeResourceNodePath env resource resource.getClusterValue ∈ env.defaultPaths conf := by
  simp only [Env.defaultPaths, ResourceRegistry.defaultPaths, htype]
  rw [getClusterTypeResourceNodePath, resourceNodePath, hconf]
  refine List.mem_map_of_mem (f := fun id : Int => snprintf conf.mResourcePath 'd' (toString id)) ?_
  exact List.mem_map.mpr ⟨⟨logical, resource.getClusterValue⟩, AList.mem_lookup_iff.mp hmapped, rfl⟩

theorem cGroupNode_mem (hconf : env.getResConf resource.mResCode = some conf)
    (htype : conf.mApplyType = .APPLY_CGROUP) {path : String}
    (hpath : controllerFilePath env resource = some path) : path ∈ env.defaultPaths conf := by
  unfold controllerFilePath at hpath
  cases hconfig : env.targetRegistry.getCGroupConfig (resource.getValueAt 0) with
  | none => simp [hconfig] at hpath
  | some cGroupConfig =>
    simp only [hconfig] at hpath
    split at hpath
    · obtain rfl := Option.some.inj hpath
      simp only [Env.defaultPaths, ResourceRegistry.defaultPaths, htype]
      rw [getCGroupTypeResourceNodePath, resourceNodePath, hconf]
      refine List.mem_map_of_mem (f := fun name => snprintf conf.mResourcePath 's' name) ?_
      exact List.mem_map.mpr ⟨⟨resource.getValueAt 0, cGroupConfig⟩,
        AList.mem_lookup_iff.mp hconfig, rfl⟩
    · cases hpath

/-- A default callback writes files that were read when its resource was registered. -/
theorem Prepared.mem_defaultPaths_of_writes (h : Prepared env device entries registrations)
    (ext : ExtensionWrites) (cb : Callback) (hdata : cb.node.mData = some resource)
    (hconf : env.getResConf resource.mResCode = some conf)
    (htranslated : ∃ given, Translated env conf.mApplyType given resource)
    (hdefault : cb.of conf = cb.of conf.setLifeCycleCallbacks) {w : String × String}
    (hw : w ∈ cb.writesWith ext env) : w.1 ∈ env.defaultPaths conf := by
  have hcore : ∀ coreID ∈ addressedCores env resource, conf.mApplyType = .APPLY_CORE →
      getCoreTypeResourceNodePath env resource coreID ∈ env.defaultPaths conf := by
    intro coreID hmem htype
    obtain ⟨hzero, hcounted⟩ := h.addressedCores_counted (htype ▸ htranslated) hmem
    exact coreNode_mem hconf htype hzero hcounted
  simp only [Callback.writesWith, hdata, hconf, hdefault] at hw
  unfold ResConfInfo.setLifeCycleCallbacks at hw
  cases htype : conf.mApplyType with
  | APPLY_CLUSTER =>
    obtain ⟨given, hmapped, -⟩ := htype ▸ htranslated
    have hpath := clusterNode_mem hconf htype hmapped
    cases cb with
    | applier node =>
      simp only [htype, Callback.of, ResourceLifecycleCallback.writesWith,
        ResourceLifecycleCallback.writes, defaultClusterLevelApplierCb] at hw
      rw [eq_of_mem_unitWrite (List.mem_map_of_mem hw)]
      exact hpath
    | tear node =>
      simp only [htype, Callback.of, ResourceLifecycleCallback.writesWith,
        ResourceLifecycleCallback.writes, defaultClusterLevelTearCb, List.mem_singleton] at hw
      rw [hw]
      exact hpath
  | APPLY_CORE =>
    cases cb with
    | applier node =>
      simp only [htype, Callback.of, ResourceLifecycleCallback.writesWith,
        ResourceLifecycleCallback.writes, defaultCoreLevelApplierCb, List.mem_flatMap] at hw
      obtain ⟨coreID, hmem, hwrite⟩ := hw
      rw [eq_of_mem_unitWrite (List.mem_map_of_mem hwrite)]
      exact hcore coreID hmem htype
    | tear node =>
      simp only [htype, Callback.of, ResourceLifecycleCallback.writesWith,
        ResourceLifecycleCallback.writes, defaultCoreLevelTearCb, List.mem_map] at hw
      obtain ⟨coreID, hmem, rfl⟩ := hw
      exact hcore coreID hmem htype
  | APPLY_CGROUP =>
    cases cb with
    | applier node =>
      simp only [htype, Callback.of, ResourceLifecycleCallback.writesWith,
        ResourceLifecycleCallback.writes, defaultCGroupLevelApplierCb] at hw
      split at hw
      · cases hw
      · obtain ⟨path, hpath, hwrite⟩ := List.mem_flatMap.mp hw
        rw [eq_of_mem_unitWrite (List.mem_map_of_mem hwrite)]
        exact cGroupNode_mem hconf htype (Option.mem_toList.mp hpath)
    | tear node =>
      simp only [htype, Callback.of, ResourceLifecycleCallback.writesWith,
        ResourceLifecycleCallback.writes, defaultCGroupLevelTearCb] at hw
      obtain ⟨path, hpath, rfl⟩ := List.mem_map.mp hw
      exact cGroupNode_mem hconf htype (Option.mem_toList.mp hpath)
  | APPLY_GLOBAL =>
    have hglobal : env.defaultPaths conf = [conf.mResourcePath] := by
      simp only [Env.defaultPaths, ResourceRegistry.defaultPaths, htype]
    cases cb with
    | applier node | tear node =>
      simp only [htype, Callback.of, ResourceLifecycleCallback.writesWith,
        ResourceLifecycleCallback.writes, defaultGlobalLevelApplierCb, defaultGlobalLevelTearCb,
        hconf, writeToFile] at hw
      split at hw
      · cases hw
      · rw [List.mem_singleton.mp hw, hglobal]
        exact List.mem_singleton_self _

end Prepared

/-! ## The nodes of the table -/

theorem exists_admitted_of_mem {env : Env} {permissions : Permissions} {nodes nodes' : List ResIterable}
    (h : List.Forall₂ (NodeAdmitted env permissions) nodes nodes') {node' : ResIterable}
    (hmem : node' ∈ nodes') : ∃ node, NodeAdmitted env permissions node node' := by
  induction h with
  | nil => cases hmem
  | cons hnode _ ih =>
    rcases List.mem_cons.mp hmem with rfl | hmem
    · exact ⟨_, hnode⟩
    · exact ih hmem

/-- What the verifier leaves names cores and clusters of the target. -/
theorem targeted_of_verifyNodes {env : Env} (hids : ByteIds env.targetRegistry)
    {permissions : Permissions} {nodes nodes' : List ResIterable}
    (h : verifyNodes env permissions nodes = some nodes') {node : ResIterable} (hmem : node ∈ nodes') :
    Targeted env node := by
  intro resource conf hdata hconf
  obtain ⟨node', -, r, r', -, hdata', hadmitted⟩ :=
    exists_admitted_of_mem (admitted_of_verifyNodes hids h) hmem
  obtain rfl := Option.some.inj (hdata.symm.trans hdata')
  obtain ⟨conf', hconf', -, htranslated⟩ := hadmitted.registered
  rw [← hadmitted.code] at hconf'
  obtain rfl := Option.some.inj (hconf.symm.trans hconf')
  exact ⟨r, htranslated⟩

namespace CocoTable

/-- The table has linked, and has called back on, nodes of this kind only. -/
structure Only (kind : ResIterable → Prop) (t : CocoTable) : Prop where
  linked : ∀ i k, ∀ node ∈ t.mCocoTable i k, kind node
  called : ∀ cb ∈ t.mCallbacks, kind cb.node

section Only

variable {env : Env} {kind : ResIterable → Prop} {t : CocoTable}

theorem only_new : (new : CocoTable).Only kind :=
  ⟨(fun _ _ _ h => by cases h), fun _ h => by cases h⟩

/-- A step adds no callback, or one on its own node or on a node that is linked. -/
theorem Only.step (h : t.Only kind) {op : NodeOp} (hop : op.InRange) (hnode : kind op.node) :
    (t.step env op).Only kind := by
  cases op with
  | insert p node =>
    refine ⟨fun i k m hm => ?_, fun cb hcb => ?_⟩
    · rcases mem_insertInCocoTable.mp hm with hm | ⟨rfl, -⟩
      · exact h.linked i k m hm
      · exact hnode
    · rcases insert_mCallbacks hop with hlog | ⟨-, hlog⟩
      · rw [hlog] at hcb
        exact h.called cb hcb
      · rw [hlog, List.mem_append, List.mem_singleton] at hcb
        rcases hcb with hcb | rfl
        · exact h.called cb hcb
        · exact hnode
  | remove p node =>
    have hlinked : ∀ i k, ∀ m ∈ (t.step env (.remove p node)).mCocoTable i k, kind m :=
      fun i k m hm => h.linked i k m (mem_removeNode.mp hm).1
    refine ⟨hlinked, fun cb hcb => ?_⟩
    rcases remove_mCallbacks hop with hlog | ⟨m, i, k, hm, hlog⟩ | ⟨-, hlog⟩
    · rw [hlog] at hcb
      exact h.called cb hcb
    · rw [hlog, List.mem_append, List.mem_singleton] at hcb
      rcases hcb with hcb | rfl
      · exact h.called cb hcb
      · exact hlinked i k m hm
    · rw [hlog, List.mem_append, List.mem_singleton] at hcb
      rcases hcb with hcb | rfl
      · exact h.called cb hcb
      · exact hnode

theorem Only.foldl (h : t.Only kind) {ops : List NodeOp}
    (hops : ∀ op ∈ ops, op.InRange ∧ kind op.node) : (ops.foldl (CocoTable.step env) t).Only kind := by
  induction ops generalizing t with
  | nil => exact h
  | cons op ops ih =>
    obtain ⟨hop, hnode⟩ := hops op List.mem_cons_self
    exact ih (h.step hop hnode) fun op hmem => hops op (List.mem_cons_of_mem _ hmem)

/-- The two calls with a request of the kind, whether or not its timer starts. -/
theorem Only.insertRequest (h : t.Only kind) {request : Request} {timerBlock : Option Nat}
    {enqueued : Bool} (hverified : Verified env request) (hnodes : ∀ node ∈ request.nodes, kind node) :
    (t.insertRequest env request timerBlock enqueued).2.1.Only kind := by
  rcases @insertRequest_table env t request timerBlock enqueued with ⟨ht, -⟩ | ht
  · rwa [ht]
  · rw [ht, insertNodes_eq]
    refine h.foldl fun op hop => ?_
    obtain ⟨node, hnode, rfl⟩ := List.mem_map.mp hop
    exact ⟨⟨hverified.priority_nonneg, hverified.priority_lt⟩, hnodes node hnode⟩

theorem Only.removeRequest (h : t.Only kind) {request : Request} (hverified : Verified env request)
    (hnodes : ∀ node ∈ request.nodes, kind node) : (t.removeRequest env request).Only kind := by
  rw [removeRequest_eq]
  refine h.foldl fun op hop => ?_
  obtain ⟨node, hnode, rfl⟩ := List.mem_map.mp hop
  exact ⟨⟨hverified.priority_nonneg, hverified.priority_lt⟩, hnodes node hnode⟩

end Only

end CocoTable

/-! ## The loop at the end -/

section Tear

variable {env : Env} {device : Device} {entries : List ResourceRegistration}
  {registrations : List CallbackRegistration}

theorem mem_restore_iff {reg : ResourceRegistry} {path value : String} :
    (path, value) ∈ reg.restoreResourcesToDefaultValues ↔
      path ≠ "" ∧ reg.mDefaultValueStore.lookup path = some value := by
  rw [ResourceRegistry.restoreResourcesToDefaultValues, List.mem_flatMap]
  constructor
  · rintro ⟨entry, hentry, hmem⟩
    rw [writeToFile] at hmem
    split at hmem
    · cases hmem
    · rename_i hlength
      cases List.mem_singleton.mp hmem
      exact ⟨fun hempty => hlength (by rw [hempty]; rfl), AList.mem_lookup_iff.mpr hentry⟩
  · rintro ⟨hne, hlookup⟩
    refine ⟨⟨path, value⟩, AList.mem_lookup_iff.mp hlookup, ?_⟩
    have hlength : ¬ path.length = 0 := fun hzero => hne (String.length_eq_zero_iff.mp hzero)
    rw [writeToFile, if_neg hlength]
    exact List.mem_singleton_self _

/-- The loop leaves a stored file with its value. -/
theorem foldl_restore {reg : ResourceRegistry} {path value : String} (files : String → String)
    (hopen : device.openable path = true) (hne : path ≠ "")
    (hlookup : reg.mDefaultValueStore.lookup path = some value) :
    reg.restoreResourcesToDefaultValues.foldl device.write files path = value := by
  refine Device.foldl_write_of_mem _ _ hopen ?_ ?_
  · exact List.mem_map.mpr ⟨(path, value), mem_restore_iff.mpr ⟨hne, hlookup⟩, rfl⟩
  · rintro ⟨path', value'⟩ hw rfl
    obtain ⟨-, hlookup'⟩ := mem_restore_iff.mp hw
    exact Option.some.inj (hlookup'.symm.trans hlookup)

/-- What a callback on an accepted node writes is stored, if it is not an extension's. -/
theorem Prepared.stored_of_writes (h : Prepared env device entries registrations)
    (ext : ExtensionWrites) {cb : Callback} (htargeted : Targeted env cb.node) {w : String × String}
    (hw : w ∈ cb.writesWith ext env) :
    cb.IsExtension env ∨ (env.resourceRegistry.mDefaultValueStore.lookup w.1).isSome := by
  cases hdata : cb.node.mData with
  | none => simp [Callback.writesWith, hdata] at hw
  | some resource =>
    cases hconf : env.getResConf resource.mResCode with
    | none => simp [Callback.writesWith, hdata, hconf] at hw
    | some conf =>
      rcases h.of_conf hconf cb with ⟨id, hid⟩ | hdefault
      · exact .inl ⟨resource, conf, id, hdata, hconf, hid⟩
      · right
        have hpath := h.mem_defaultPaths_of_writes ext cb hdata hconf
          (htargeted resource conf hdata hconf) hdefault hw
        rw [h.lookup_of_mem hconf hpath]
        rfl

/-- After the loop every file holds what it held when the resources were registered, except one that a
callback of an extension wrote and no resource has read. -/
theorem contents_of_targeted (ext : ExtensionWrites) (h : Prepared env device entries registrations)
    {callbacks : List Callback} (htargeted : ∀ cb ∈ callbacks, Targeted env cb.node) (path : String)
    (hext : ∀ cb ∈ callbacks, cb.IsExtension env → path ∈ (cb.writesWith ext env).map Prod.fst →
      (env.resourceRegistry.mDefaultValueStore.lookup path).isSome) :
    device.afterTear ext env callbacks path = device.contents path := by
  cases hopen : device.openable path with
  | false =>
    have hnot : ¬ device.openable path = true := by simp [hopen]
    rw [Device.afterTear, Device.foldl_write_of_notMem _ _ fun ho => absurd ho hnot,
      Device.afterCallbacks, Device.foldl_write_of_notMem _ _ fun ho => absurd ho hnot]
  | true =>
    have hne : path ≠ "" := by
      rintro rfl
      rw [h.named] at hopen
      cases hopen
    cases hlookup : env.resourceRegistry.mDefaultValueStore.lookup path with
    | some value =>
      rw [Device.afterTear, foldl_restore _ hopen hne hlookup, h.lookup_eq hlookup]
    | none =>
      -- nobody has written the file, neither the loop nor a callback before it
      have hrestore : path ∉ env.resourceRegistry.restoreResourcesToDefaultValues.map Prod.fst := by
        intro hmem
        obtain ⟨⟨path', value⟩, hw, rfl⟩ := List.mem_map.mp hmem
        rw [(mem_restore_iff.mp hw).2] at hlookup
        cases hlookup
      have hcallbacks : path ∉ (callbacks.flatMap (Callback.writesWith ext env)).map Prod.fst := by
        intro hmem
        obtain ⟨w, hw, rfl⟩ := List.mem_map.mp hmem
        obtain ⟨cb, hcb, hw⟩ := List.mem_flatMap.mp hw
        rcases h.stored_of_writes ext (htargeted cb hcb) hw with hextension | hstored
        · have hstored := hext cb hcb hextension (List.mem_map_of_mem hw)
          rw [hlookup] at hstored
          cases hstored
        · rw [hlookup] at hstored
          cases hstored
      rw [Device.afterTear, Device.foldl_write_of_notMem _ _ fun _ => hrestore,
        Device.afterCallbacks, Device.foldl_write_of_notMem _ _ fun _ => hcallbacks]

end Tear

namespace Sample

/-- Every file opens that has a name. -/
def namedDevice : Device := ⟨fun path => path ≠ "", fun _ => "0"⟩

/-- The entries behind the sample registry. -/
def entries : List ResourceRegistration :=
  [globalConf, coreConf, clusterConf, cGroupConf].map fun conf =>
    ⟨some conf, false, targetRegistry, 8, fun _ => "0"⟩

theorem prepared : Prepared env namedDevice entries [] where
  registry := rfl
  target entry hentry := by
    obtain ⟨conf, -, rfl⟩ := List.mem_map.mp hentry
    rfl
  cores entry hentry := by
    obtain ⟨conf, -, rfl⟩ := List.mem_map.mp hentry
    rfl
  read entry hentry := by
    obtain ⟨conf, -, rfl⟩ := List.mem_map.mp hentry
    funext path
    show "0" = String.ofList (firstLine "0")
    decide
  oneLine path := by
    show String.ofList (firstLine "0") = "0"
    decide
  extensions := by simp
  ids := byteIds
  counted := by
    have hall : ∀ e ∈ env.targetRegistry.mPhysicalClusters.entries,
        0 ≤ e.2.mStartCpu ∧ e.2.mStartCpu + e.2.mNumCpus ≤ env.targetConfigs.mTotalCoreCount := by
      decide
    exact fun p info hinfo => hall ⟨p, info⟩ (AList.mem_lookup_iff.mp hinfo)
  named := rfl

end Sample

end ResourceTuner
