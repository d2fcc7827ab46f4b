import ResourceTuner.Common.SafeOps
import ResourceTuner.Core.CocoTable

/-!
# Default lifecycle callbacks

`ResourceHooks.cpp` on top of the `Multiply` of `SafeOps.h`.  A callback is given a resource
and writes files; it is modelled by the list of its writes, in order, each a path and a text (the
newline some of them end with is not part of the text).  Whether a file opens is up to the
device: `openable` says which do, and a write to any other file is dropped.  Where a callback traps the
process ends, and nothing is written.

* **`default…ApplierCb` / `default…TearCb`** — the eight default callbacks;
* **`Callback.writes`** — the writes of a callback the table has run;
* **`sysfsAfter`** — the contents of the device's files after a sequence of callbacks.
-/

namespace ResourceTuner

/-! ## Values -/

/-- `static_cast<int64_t>`.  What is cast is a 32-bit value or a unit, and stays as it is. -/
def int64 (n : Int) : SignedInt 64 := .clamp 64 n

/-- The value in its unit, `none` where `Multiply` traps.  Overflow and underflow both become the
largest value. -/
def translatedValue (valueToBeWritten : Int) (unit : TranslationUnit) : Option Int :=
  (SafeOps.Multiply (int64 valueToBeWritten) (int64 unit.toInt)).map fun result =>
    if result.2 ≠ .SUCCESS then (SignedInt.highest 64).toInt else result.1.toInt

theorem unit_pos (unit : TranslationUnit) : 0 < unit.toInt := by
  cases unit <;> decide

theorem int64_unit (unit : TranslationUnit) : (int64 unit.toInt).toInt = unit.toInt := by
  cases unit <;> decide

/-- Only minus one is cast to minus one. -/
theorem int64_eq_neg_one_iff {n : Int} : (int64 n).toInt = -1 ↔ n = -1 := by
  have hlimit : SignedInt.limit 64 = 2 ^ 63 := rfl
  unfold int64
  by_cases hlow : n < -SignedInt.limit 64
  · rw [SignedInt.clamp_of_lt hlow, SignedInt.toInt_lowest]
    omega
  by_cases hhigh : SignedInt.limit 64 ≤ n
  · rw [SignedInt.clamp_of_ge hhigh, SignedInt.toInt_highest]
    omega
  · rw [SignedInt.toInt_clamp (not_lt.mp hlow) (not_le.mp hhigh)]

/-- **The multiplication traps** for minus one, in every unit, and for no other value. -/
theorem translatedValue_eq_none_iff {value : Int} {unit : TranslationUnit} :
    translatedValue value unit = none ↔ value = -1 := by
  have hunit : 0 < (int64 unit.toInt).toInt := by
    rw [int64_unit]
    exact unit_pos unit
  rw [translatedValue, Option.map_eq_none_iff, SafeOps.multiply_eq]
  simp [hunit, int64_eq_neg_one_iff]

/-- No 32-bit value in any unit comes near the limits. -/
theorem translatedValue_eq {value : Int} (unit : TranslationUnit)
    (hvalue : -2 ^ 31 ≤ value ∧ value < 2 ^ 31) :
    translatedValue value unit = if value = -1 then none else some (value * unit.toInt) := by
  by_cases hminus : value = -1
  · rw [if_pos hminus, translatedValue_eq_none_iff]
    exact hminus
  have hlimit : SignedInt.limit 64 = 2 ^ 63 := rfl
  have hcast : (int64 value).toInt = value := SignedInt.toInt_clamp (by omega) (by omega)
  have hfits : -SignedInt.limit 64 ≤ value * unit.toInt ∧
      value * unit.toInt < SignedInt.limit 64 := by
    cases unit <;> simp only [TranslationUnit.toInt] <;> omega
  have hstatus : SafeOps.statusOf 64 (value * unit.toInt) = .SUCCESS := by
    rw [SafeOps.statusOf, SignedInt.toInt_highest, SignedInt.toInt_lowest, if_neg (by omega),
      if_neg (by omega)]
  rw [if_neg hminus, translatedValue, SafeOps.multiply_eq, hcast, int64_unit,
    if_neg fun h => hminus h.1, Option.map_some, SafeOps.saturated, hstatus,
    if_neg (not_not.mpr rfl), SignedInt.toInt_clamp hfits.1 hfits.2]

/-! ## Paths -/

section Paths

variable (env : Env) (resource : Resource)

/-- The configured path with its one conversion replaced, empty without a configuration. -/
def resourceNodePath (conversion : Char) (arg : String) : String :=
  match env.getResConf resource.mResCode with
  | none => ""
  | some resourceConfig => snprintf resourceConfig.mResourcePath conversion arg

def getClusterTypeResourceNodePath (clusterID : Int) : String :=
  resourceNodePath env resource 'd' (toString clusterID)

def getCoreTypeResourceNodePath (coreID : Int) : String :=
  resourceNodePath env resource 'd' (toString coreID)

def getCGroupTypeResourceNodePath (cGroupName : String) : String :=
  resourceNodePath env resource 's' cGroupName

end Paths

/-! ## The callbacks -/

section Callbacks

variable (env : Env) (resource : Resource)

/-- The value in the unit of the resource's configuration, `none` where the process ends.  The source
reads the unit through the configuration pointer without a null test. -/
def unitValue (valueToBeWritten : Int) : Option Int :=
  match env.getResConf resource.mResCode with
  | none => none
  | some rConf => translatedValue valueToBeWritten rConf.mUnit

/-- A write of the value in its unit; nothing is written where the process ends before. -/
def unitWrite (path : String) (valueToBeWritten : Int) : List (String × String) :=
  match unitValue env resource valueToBeWritten with
  | none => []
  | some translatedValue => [(path, toString translatedValue)]

/-- A write of the value that was stored for the path. -/
def resetWrite (path : String) : String × String :=
  (path, env.resourceRegistry.getDefaultValue path)

def defaultClusterLevelApplierCb : List (String × String) :=
  unitWrite env resource (getClusterTypeResourceNodePath env resource resource.getClusterValue)
    (resource.getValueAt 0)

def defaultClusterLevelTearCb : List (String × String) :=
  [resetWrite env (getClusterTypeResourceNodePath env resource resource.getClusterValue)]

/-- The cores a core resource addresses: every core of its cluster when its core is `0`. -/
def addressedCores : List Int :=
  if resource.getCoreValue = 0 then
    match env.targetRegistry.getClusterInfo resource.getClusterValue with
    | none => []
    | some cinfo => (List.range cinfo.mNumCpus.toNat).map fun i => cinfo.mStartCpu + i
  else [resource.getCoreValue]

def defaultCoreLevelApplierHelper (coreID : Int) : List (String × String) :=
  unitWrite env resource (getCoreTypeResourceNodePath env resource coreID) (resource.getValueAt 0)

/-- The value is the same for every core, so the process ends at the first one or at none. -/
def defaultCoreLevelApplierCb : List (String × String) :=
  (addressedCores env resource).flatMap (defaultCoreLevelApplierHelper env resource)

/-- The tear helper asks for the path of a cluster; the two path functions agree. -/
def defaultCoreLevelTearHelper (coreID : Int) : String × String :=
  resetWrite env (getClusterTypeResourceNodePath env resource coreID)

def defaultCoreLevelTearCb : List (String × String) :=
  (addressedCores env resource).map (defaultCoreLevelTearHelper env resource)

/-- The file of the cgroup a resource names in its first value, if that cgroup is configured. -/
def controllerFilePath : Option String :=
  match env.targetRegistry.getCGroupConfig (resource.getValueAt 0) with
  | none => none
  | some cGroupConfig =>
    if cGroupConfig.mCgroupName.length > 0 then
      some (getCGroupTypeResourceNodePath env resource cGroupConfig.mCgroupName)
    else none

/-- The applier wants exactly the cgroup and one value. -/
def defaultCGroupLevelApplierCb : List (String × String) :=
  if resource.getValuesCount ≠ 2 then []
  else (controllerFilePath env resource).toList.flatMap fun path =>
    unitWrite env resource path (resource.getValueAt 1)

def defaultCGroupLevelTearCb : List (String × String) :=
  (controllerFilePath env resource).toList.map (resetWrite env)

/-- `AuxRoutines::writeToFile`. -/
def writeToFile (fileName value : String) : List (String × String) :=
  if fileName.length = 0 then [] else [(fileName, value)]

/-- The global applier writes the value as it is, without its unit. -/
def defaultGlobalLevelApplierCb : List (String × String) :=
  match env.getResConf resource.mResCode with
  | none => []
  | some resourceConfig =>
    writeToFile resourceConfig.mResourcePath (toString (resource.getValueAt 0))

def defaultGlobalLevelTearCb : List (String × String) :=
  match env.getResConf resource.mResCode with
  | none => []
  | some resourceConfig =>
    writeToFile resourceConfig.mResourcePath
      (env.resourceRegistry.getDefaultValue resourceConfig.mResourcePath)

/-- The writes of a lifecycle callback.  What an extension writes is not known here. -/
def ResourceLifecycleCallback.writes : ResourceLifecycleCallback → List (String × String)
  | .defaultClusterLevelApplierCb => ResourceTuner.defaultClusterLevelApplierCb env resource
  | .defaultClusterLevelTearCb => ResourceTuner.defaultClusterLevelTearCb env resource
  | .defaultCoreLevelApplierCb => ResourceTuner.defaultCoreLevelApplierCb env resource
  | .defaultCoreLevelTearCb => ResourceTuner.defaultCoreLevelTearCb env resource
  | .defaultCGroupLevelApplierCb => ResourceTuner.defaultCGroupLevelApplierCb env resource
  | .defaultCGroupLevelTearCb => ResourceTuner.defaultCGroupLevelTearCb env resource
  | .defaultGlobalLevelApplierCb => ResourceTuner.defaultGlobalLevelApplierCb env resource
  | .defaultGlobalLevelTearCb => ResourceTuner.defaultGlobalLevelTearCb env resource
  | .extension _ => []

end Callbacks

/-- The writes of a callback the table has run: the applier or the tear of the configuration of
the node's resource. -/
def Callback.writes (env : Env) (cb : Callback) : List (String × String) :=
  match cb.node.mData with
  | none => []
  | some resource =>
    match env.getResConf resource.mResCode with
    | none => []
    | some conf =>
      let callback := match cb with
        | .applier _ => conf.mResourceApplierCallback
        | .tear _ => conf.mResourceTearCallback
      match callback with
      | none => []
      | some callback => callback.writes env resource

/-! ## The device -/

/-- The device's files: which of them open for writing, and what they hold before the server
starts. -/
structure Device where
  openable : String → Bool
  contents : String → String

/-- The contents after a write. -/
def Device.write (device : Device) (files : String → String) (w : String × String) :
    String → String :=
  if device.openable w.1 then Function.update files w.1 w.2 else files

/-- The contents after the callbacks, oldest first. -/
def Device.sysfsAfter (device : Device) (env : Env) (callbacks : List Callback) :
    String → String :=
  (callbacks.flatMap (Callback.writes env)).foldl device.write device.contents

/-- Some applier has written to the file. -/
def Device.Tuned (device : Device) (env : Env) (callbacks : List Callback) (path : String) :
    Prop :=
  device.openable path ∧ ∃ node, .applier node ∈ callbacks ∧
    path ∈ ((Callback.applier node).writes env).map Prod.fst

/-- The file holds the value that was stored for it when its resource was registered. -/
def Device.Restored (device : Device) (env : Env) (callbacks : List Callback) (path : String) :
    Prop :=
  env.resourceRegistry.mDefaultValueStore.lookup path = some (device.sysfsAfter env callbacks path)

/-! ## What a callback leaves behind -/

section Effects

variable {env : Env} {device : Device}

/-- A file none of the writes names keeps its contents. -/
theorem Device.foldl_write_of_notMem {path : String} (writes : List (String × String))
    (files : String → String) (h : device.openable path → path ∉ writes.map Prod.fst) :
    writes.foldl device.write files path = files path := by
  induction writes generalizing files with
  | nil => rfl
  | cons w rest ih =>
    have hrest : device.openable path → path ∉ rest.map Prod.fst :=
      fun ho hmem => h ho (List.mem_cons_of_mem _ hmem)
    rw [List.foldl_cons, ih _ hrest]
    unfold Device.write
    split
    · rename_i hopen
      apply Function.update_of_ne
      rintro rfl
      exact h hopen List.mem_cons_self
    · rfl

/-- A file that opens and is named holds the value of the writes, when they all agree on it. -/
theorem Device.foldl_write_of_mem {path value : String} (writes : List (String × String))
    (files : String → String) (hopen : device.openable path) (hmem : path ∈ writes.map Prod.fst)
    (hvalue : ∀ w ∈ writes, w.1 = path → w.2 = value) :
    writes.foldl device.write files path = value := by
  induction writes generalizing files with
  | nil => cases hmem
  | cons w rest ih =>
    rw [List.foldl_cons]
    by_cases hrest : path ∈ rest.map Prod.fst
    · exact ih _ hrest fun w hw => hvalue w (List.mem_cons_of_mem _ hw)
    · -- the last write to the file is this one
      rw [foldl_write_of_notMem rest _ fun _ => hrest]
      have hw : path = w.1 := by
        rcases List.mem_cons.mp hmem with h | h
        · exact h
        · exact absurd h hrest
      subst hw
      rw [Device.write, if_pos hopen, Function.update_self]
      exact hvalue w List.mem_cons_self rfl

theorem Device.sysfsAfter_append (device : Device) (env : Env) (cbs : List Callback)
    (cb : Callback) :
    device.sysfsAfter env (cbs ++ [cb]) =
      (cb.writes env).foldl device.write (device.sysfsAfter env cbs) := by
  simp [Device.sysfsAfter]

/-- A value is written to its own file. -/
theorem eq_of_mem_unitWrite {resource : Resource} {path file : String} {value : Int}
    (h : file ∈ (unitWrite env resource path value).map Prod.fst) : file = path := by
  unfold unitWrite at h
  split at h
  · cases h
  · exact List.mem_singleton.mp h

/-- The configuration uses the default callbacks of its apply type. -/
def ResConfInfo.UsesDefaults (conf : ResConfInfo) : Prop := conf.setLifeCycleCallbacks = conf

/-- The resource of a node uses the default callbacks. -/
def UsesDefaults (env : Env) (node : ResIterable) : Prop :=
  ∀ resource conf, node.mData = some resource → env.getResConf resource.mResCode = some conf →
    conf.UsesDefaults

instance (env : Env) (node : ResIterable) : Decidable (UsesDefaults env node) :=
  decidable_of_iff
    (∀ conf ∈ node.mData.bind fun resource => env.getResConf resource.mResCode,
      conf.setLifeCycleCallbacks = conf)
    (by
      simp only [Option.mem_def, Option.bind_eq_some_iff]
      exact ⟨fun h resource conf hdata hconf => h conf ⟨resource, hdata, hconf⟩,
        fun h conf ⟨resource, hdata, hconf⟩ => h resource conf hdata hconf⟩)

/-- The files the tear callback of a node would reset. -/
def tearPaths (env : Env) (node : ResIterable) : List String :=
  ((Callback.tear node).writes env).map Prod.fst

/-- The writes of a tear of a registered resource with default callbacks. -/
theorem tear_writes_of_usesDefaults {node : ResIterable} {resource : Resource} {conf : ResConfInfo}
    (hdata : node.mData = some resource) (hconf : env.getResConf resource.mResCode = some conf)
    (hdefault : conf.UsesDefaults) :
    (Callback.tear node).writes env =
      match conf.mApplyType with
      | .APPLY_CLUSTER => defaultClusterLevelTearCb env resource
      | .APPLY_CORE => defaultCoreLevelTearCb env resource
      | .APPLY_CGROUP => defaultCGroupLevelTearCb env resource
      | .APPLY_GLOBAL => defaultGlobalLevelTearCb env resource := by
  have htear : conf.mResourceTearCallback = conf.setLifeCycleCallbacks.mResourceTearCallback := by
    rw [hdefault]
  simp only [Callback.writes, Callback.node, hdata, hconf, htear]
  unfold ResConfInfo.setLifeCycleCallbacks
  cases conf.mApplyType <;> rfl

theorem applier_writes_of_usesDefaults {node : ResIterable} {resource : Resource}
    {conf : ResConfInfo} (hdata : node.mData = some resource)
    (hconf : env.getResConf resource.mResCode = some conf) (hdefault : conf.UsesDefaults) :
    (Callback.applier node).writes env =
      match conf.mApplyType with
      | .APPLY_CLUSTER => defaultClusterLevelApplierCb env resource
      | .APPLY_CORE => defaultCoreLevelApplierCb env resource
      | .APPLY_CGROUP => defaultCGroupLevelApplierCb env resource
      | .APPLY_GLOBAL => defaultGlobalLevelApplierCb env resource := by
  have happlier : conf.mResourceApplierCallback =
      conf.setLifeCycleCallbacks.mResourceApplierCallback := by
    rw [hdefault]
  simp only [Callback.writes, Callback.node, hdata, hconf, happlier]
  unfold ResConfInfo.setLifeCycleCallbacks
  cases conf.mApplyType <;> rfl

/-- A callback that writes anything was run on a registered resource. -/
theorem registered_of_mem_writes {cb : Callback} {w : String × String} (hw : w ∈ cb.writes env) :
    ∃ resource conf, cb.node.mData = some resource ∧
      env.getResConf resource.mResCode = some conf := by
  cases hdata : cb.node.mData with
  | none => simp [Callback.writes, hdata] at hw
  | some resource =>
    cases hconf : env.getResConf resource.mResCode with
    | none => simp [Callback.writes, hdata, hconf] at hw
    | some conf => exact ⟨resource, conf, rfl, hconf⟩

/-- Every write of a default tear is a reset. -/
theorem eq_resetWrite_of_tear {node : ResIterable} (hdefault : UsesDefaults env node)
    {w : String × String} (hw : w ∈ (Callback.tear node).writes env) : w = resetWrite env w.1 := by
  obtain ⟨resource, conf, hdata, hconf⟩ := registered_of_mem_writes hw
  simp only [Callback.node] at hdata
  rw [tear_writes_of_usesDefaults hdata hconf (hdefault resource conf hdata hconf)] at hw
  cases htype : conf.mApplyType with
  | APPLY_CLUSTER =>
    simp only [htype, defaultClusterLevelTearCb, List.mem_singleton] at hw
    rw [hw]
    rfl
  | APPLY_CORE =>
    simp only [htype, defaultCoreLevelTearCb, List.mem_map] at hw
    obtain ⟨core, -, rfl⟩ := hw
    rfl
  | APPLY_CGROUP =>
    simp only [htype, defaultCGroupLevelTearCb, List.mem_map] at hw
    obtain ⟨path, -, rfl⟩ := hw
    rfl
  | APPLY_GLOBAL =>
    simp only [htype, defaultGlobalLevelTearCb, hconf, writeToFile] at hw
    split at hw
    · cases hw
    · rw [List.mem_singleton.mp hw]
      rfl

/-- **Appliers stay within what their tear resets.** -/
theorem mem_tearPaths_of_applier {node : ResIterable} (hdefault : UsesDefaults env node)
    {path : String} (hpath : path ∈ ((Callback.applier node).writes env).map Prod.fst) :
    path ∈ tearPaths env node := by
  obtain ⟨w, hw, -⟩ := List.mem_map.mp hpath
  obtain ⟨resource, conf, hdata, hconf⟩ := registered_of_mem_writes hw
  simp only [Callback.node] at hdata
  have hconfDefault := hdefault resource conf hdata hconf
  rw [applier_writes_of_usesDefaults hdata hconf hconfDefault] at hpath
  rw [tearPaths, tear_writes_of_usesDefaults hdata hconf hconfDefault]
  cases htype : conf.mApplyType with
  | APPLY_CLUSTER =>
    rw [htype] at hpath
    rw [eq_of_mem_unitWrite hpath]
    exact List.mem_singleton_self _
  | APPLY_CORE =>
    -- both helpers name the file of a core by the same text
    simp only [htype, defaultCoreLevelApplierCb, List.map_flatMap, List.mem_flatMap] at hpath
    obtain ⟨core, hcore, hpath⟩ := hpath
    rw [eq_of_mem_unitWrite hpath]
    exact List.mem_map_of_mem (List.mem_map_of_mem hcore)
  | APPLY_CGROUP =>
    -- the applier has one more test than the tear
    simp only [htype, defaultCGroupLevelApplierCb] at hpath
    split at hpath
    · cases hpath
    · rw [List.map_flatMap, List.mem_flatMap] at hpath
      obtain ⟨file, hfile, hpath⟩ := hpath
      rw [eq_of_mem_unitWrite hpath]
      exact List.mem_map_of_mem (List.mem_map_of_mem hfile)
  | APPLY_GLOBAL =>
    simp only [htype, defaultGlobalLevelApplierCb, defaultGlobalLevelTearCb, hconf,
      writeToFile] at hpath ⊢
    split at hpath
    · cases hpath
    · rename_i hname
      rw [if_neg hname]
      exact hpath

/-- After a default tear every file it names and can open holds its stored value. -/
theorem Device.sysfsAfter_tear {node : ResIterable} (hdefault : UsesDefaults env node)
    (cbs : List Callback) {path : String} (hopen : device.openable path)
    (hpath : path ∈ tearPaths env node) :
    device.sysfsAfter env (cbs ++ [.tear node]) path =
      env.resourceRegistry.getDefaultValue path := by
  rw [device.sysfsAfter_append]
  apply foldl_write_of_mem _ _ hopen hpath
  intro w hw hpath
  rw [eq_resetWrite_of_tear hdefault hw, hpath]
  rfl

/-- A callback leaves the files it does not name, or cannot open, alone. -/
theorem Device.sysfsAfter_of_notMem (cbs : List Callback) (cb : Callback) {path : String}
    (h : device.openable path → path ∉ (cb.writes env).map Prod.fst) :
    device.sysfsAfter env (cbs ++ [cb]) path = device.sysfsAfter env cbs path := by
  rw [device.sysfsAfter_append]
  exact foldl_write_of_notMem _ _ h

end Effects

end ResourceTuner
