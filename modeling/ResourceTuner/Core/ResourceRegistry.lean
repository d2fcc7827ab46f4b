import ResourceTuner.Common.Request
import ResourceTuner.Core.TargetRegistry
import ResourceTuner.Lib.IndexedTable

/-!
# Resource registry

`ResourceRegistry.cpp`: the table of resource configurations and the map from 32-bit resource
codes to rows of the table.  The registry is a structure whose proof fields say what
`registerResource` maintains: every code points into the table, no two codes share a row, and
every row has both lifecycle callbacks.
-/

namespace ResourceTuner

/-- `ResourceLifecycleCallback`: the eight default callbacks, and callbacks of an extension,
which are outside the repository and only known by a number. -/
inductive ResourceLifecycleCallback where
  | defaultClusterLevelApplierCb
  | defaultClusterLevelTearCb
  | defaultCoreLevelApplierCb
  | defaultCoreLevelTearCb
  | defaultCGroupLevelApplierCb
  | defaultCGroupLevelTearCb
  | defaultGlobalLevelApplierCb
  | defaultGlobalLevelTearCb
  | extension (id : Nat)
  deriving DecidableEq, Repr

/-- `struct ResConfInfo`, without the display name. -/
structure ResConfInfo where
  mResourcePath : String
  mResourceResType : BitVec 8
  mResourceResID : BitVec 16
  mHighThreshold : Int
  mLowThreshold : Int
  mPermissions : Permissions
  mModes : BitVec 8
  mApplyType : ResourceApplyType
  mPolicy : Policy
  mResourceApplierCallback : Option ResourceLifecycleCallback
  mUnit : TranslationUnit
  mResourceTearCallback : Option ResourceLifecycleCallback
  deriving DecidableEq, Repr

/-- `setLifeCycleCallbacks`: the default applier and tear of the configuration's apply type. -/
def ResConfInfo.setLifeCycleCallbacks (conf : ResConfInfo) : ResConfInfo :=
  match conf.mApplyType with
  | .APPLY_CLUSTER =>
    { conf with
      mResourceApplierCallback := some .defaultClusterLevelApplierCb
      mResourceTearCallback := some .defaultClusterLevelTearCb }
  | .APPLY_CORE =>
    { conf with
      mResourceApplierCallback := some .defaultCoreLevelApplierCb
      mResourceTearCallback := some .defaultCoreLevelTearCb }
  | .APPLY_CGROUP =>
    { conf with
      mResourceApplierCallback := some .defaultCGroupLevelApplierCb
      mResourceTearCallback := some .defaultCGroupLevelTearCb }
  | .APPLY_GLOBAL =>
    { conf with
      mResourceApplierCallback := some .defaultGlobalLevelApplierCb
      mResourceTearCallback := some .defaultGlobalLevelTearCb }

/-- Both callbacks are set. -/
def ResConfInfo.HasCallbacks (conf : ResConfInfo) : Prop :=
  conf.mResourceApplierCallback.isSome ∧ conf.mResourceTearCallback.isSome

theorem ResConfInfo.hasCallbacks_setLifeCycleCallbacks (conf : ResConfInfo) :
    conf.setLifeCycleCallbacks.HasCallbacks := by
  unfold setLifeCycleCallbacks HasCallbacks
  cases conf.mApplyType <;> exact ⟨rfl, rfl⟩

/-! ## Node paths

`std::snprintf` into a 128-byte buffer with one argument: the conversion is replaced by the
argument, `%%` by one percent sign, and the result is cut to the 127 characters that fit beside
the terminator. -/

def expandFormat (conversion : Char) (arg : List Char) : List Char → List Char
  | [] => []
  | [c] => [c]
  | c :: d :: rest =>
    if c = '%' then
      if d = conversion then arg ++ expandFormat conversion arg rest
      else if d = '%' then '%' :: expandFormat conversion arg rest
      else c :: d :: expandFormat conversion arg rest
    else c :: expandFormat conversion arg (d :: rest)

def snprintf (format : String) (conversion : Char) (arg : String) : String :=
  String.ofList ((expandFormat conversion arg.toList format.toList).take 127)

/-! ## The registry -/

open IndexedTable (Indexed)

/-- `class ResourceRegistry`. -/
structure ResourceRegistry where
  mTotalResources : Nat
  mResourceConfigs : List ResConfInfo
  mSystemIndependentLayerMappings : UnorderedMap (BitVec 32) Nat
  mDefaultValueStore : UnorderedMap String String
  /-- Every registered code has a row of its own. -/
  indexed : Indexed mSystemIndependentLayerMappings mResourceConfigs mTotalResources
  /-- Every row has its callbacks. -/
  callbacks : ∀ conf ∈ mResourceConfigs, conf.HasCallbacks

namespace ResourceRegistry

def empty : ResourceRegistry where
  mTotalResources := 0
  mResourceConfigs := []
  mSystemIndependentLayerMappings := ∅
  mDefaultValueStore := ∅
  indexed := .empty
  callbacks := by simp

/-- Every registered code points into the table. -/
theorem index_lt (reg : ResourceRegistry) (code : BitVec 32) (i : Nat)
    (h : reg.mSystemIndependentLayerMappings.lookup code = some i) :
    i < reg.mResourceConfigs.length := reg.indexed.lt code i h

/-- No two codes share a row. -/
theorem index_inj (reg : ResourceRegistry) (code code' : BitVec 32) (i : Nat)
    (h : reg.mSystemIndependentLayerMappings.lookup code = some i)
    (h' : reg.mSystemIndependentLayerMappings.lookup code' = some i) : code = code' :=
  reg.indexed.inj code code' i h h'

def getTotalResourcesCount (reg : ResourceRegistry) : Nat := reg.mTotalResources

/-- The counter is incremented with every row that is added. -/
theorem getTotalResourcesCount_eq (reg : ResourceRegistry) :
    reg.getTotalResourcesCount = reg.mResourceConfigs.length := reg.indexed.total_eq

/-- `getResConf`, `none` for the null pointer. -/
def getResConf (reg : ResourceRegistry) (resourceId : BitVec 32) : Option ResConfInfo :=
  (reg.mSystemIndependentLayerMappings.lookup resourceId).bind fun i => reg.mResourceConfigs[i]?

def getResourceTableIndex (reg : ResourceRegistry) (resourceId : BitVec 32) : Int :=
  match reg.mSystemIndependentLayerMappings.lookup resourceId with
  | none => -1
  | some i => i

/-- `getDefaultValue` reads with `operator[]`: the empty string under a path that was never
stored, before and after the entry it inserts. -/
def getDefaultValue (reg : ResourceRegistry) (filePath : String) : String :=
  (reg.mDefaultValueStore.lookup filePath).getD ""

/-- A registered code has a row, and the row's index is its table index. -/
theorem getResConf_eq_some {reg : ResourceRegistry} {code : BitVec 32} {conf : ResConfInfo}
    (h : reg.getResConf code = some conf) :
    ∃ i, reg.mSystemIndependentLayerMappings.lookup code = some i ∧
      reg.mResourceConfigs[i]? = some conf ∧ reg.getResourceTableIndex code = i := by
  unfold getResConf at h
  obtain ⟨i, hi, hconf⟩ := Option.bind_eq_some_iff.mp h
  exact ⟨i, hi, hconf, by simp [getResourceTableIndex, hi]⟩

theorem hasCallbacks_of_getResConf {reg : ResourceRegistry} {code : BitVec 32}
    {conf : ResConfInfo} (h : reg.getResConf code = some conf) : conf.HasCallbacks := by
  obtain ⟨i, -, hconf, -⟩ := getResConf_eq_some h
  exact reg.callbacks conf (List.mem_of_getElem? hconf)

/-! ## Registration -/

/-- The lookup key of a configuration, before the MSB that marks a custom one. -/
def resourceBitmap (conf : ResConfInfo) : BitVec 32 :=
  conf.mResourceResID.setWidth 32 ||| (conf.mResourceResType.setWidth 32 <<< 16)

/-- The MSB. -/
def customBit : BitVec 32 := 1 <<< 31

/-- Overwrite row `i`, keeping the mappings. -/
def overwrite (reg : ResourceRegistry) (i : Nat) (conf : ResConfInfo) : ResourceRegistry :=
  { reg with
    mResourceConfigs := reg.mResourceConfigs.set i conf.setLifeCycleCallbacks
    indexed := reg.indexed.set i _
    callbacks := by
      intro c hc
      rcases List.mem_or_eq_of_mem_set hc with h | h
      · exact reg.callbacks c h
      · exact h ▸ conf.hasCallbacks_setLifeCycleCallbacks }

/-- Move the row of `code` to the key `code'`. -/
def rekey (reg : ResourceRegistry) (code code' : BitVec 32) (i : Nat)
    (hi : reg.mSystemIndependentLayerMappings.lookup code = some i) : ResourceRegistry :=
  { reg with
    mSystemIndependentLayerMappings :=
      (reg.mSystemIndependentLayerMappings.erase code).insert code' i
    indexed := reg.indexed.rekey hi code' }

/-- Append a row under `code`. -/
def append (reg : ResourceRegistry) (code : BitVec 32) (conf : ResConfInfo) : ResourceRegistry :=
  { reg with
    mTotalResources := reg.mTotalResources + 1
    mResourceConfigs := reg.mResourceConfigs ++ [conf.setLifeCycleCallbacks]
    mSystemIndependentLayerMappings :=
      reg.mSystemIndependentLayerMappings.insert code reg.mTotalResources
    indexed := reg.indexed.append code _
    callbacks := by
      intro c hc
      rcases List.mem_append.mp hc with h | h
      · exact reg.callbacks c h
      · exact (List.mem_singleton.mp h) ▸ conf.hasCallbacks_setLifeCycleCallbacks }

/-- `addDefaultValue` for each path: remember what the node holds now. -/
def storeDefaults (reg : ResourceRegistry) (readFromFile : String → String)
    (filePaths : List String) : ResourceRegistry :=
  { reg with
    mDefaultValueStore := filePaths.foldl (fun store filePath =>
      store.insert filePath (readFromFile filePath)) reg.mDefaultValueStore }

/-- The nodes whose values `fetchAndStoreDefaults` reads for a configuration. -/
def defaultPaths (target : TargetRegistry) (totalCoreCount : Nat) (conf : ResConfInfo) :
    List String :=
  match conf.mApplyType with
  | .APPLY_CLUSTER => target.getClusterIDs.map fun id => snprintf conf.mResourcePath 'd' (toString id)
  | .APPLY_CGROUP => target.getCGroupNames.map fun name => snprintf conf.mResourcePath 's' name
  | .APPLY_CORE =>
    (List.range totalCoreCount).map fun id => snprintf conf.mResourcePath 'd' (toString id)
  | .APPLY_GLOBAL => [conf.mResourcePath]

/-- `fetchAndStoreDefaults`. -/
def fetchAndStoreDefaults (reg : ResourceRegistry) (target : TargetRegistry)
    (totalCoreCount : Nat) (readFromFile : String → String) (conf : ResConfInfo) :
    ResourceRegistry :=
  reg.storeDefaults readFromFile (defaultPaths target totalCoreCount conf)

/-- The table part of `registerResource`: a code that is already there is overwritten (and moved
under its custom key when the new configuration is custom), any other gets a new row. -/
def addToTable (reg : ResourceRegistry) (conf : ResConfInfo) (isBuSpecified : Bool) :
    ResourceRegistry :=
  match h : reg.mSystemIndependentLayerMappings.lookup (resourceBitmap conf) with
  | some i =>
    if isBuSpecified then
      (reg.overwrite i conf).rekey (resourceBitmap conf) (resourceBitmap conf ||| customBit) i h
    else reg.overwrite i conf
  | none =>
    if isBuSpecified then reg.append (resourceBitmap conf ||| customBit) conf
    else reg.append (resourceBitmap conf) conf

/-- `registerResource`.  A configuration without a resource type is malformed and dropped. -/
def registerResource (reg : ResourceRegistry) (target : TargetRegistry) (totalCoreCount : Nat)
    (readFromFile : String → String) (conf : ResConfInfo) (isBuSpecified : Bool) :
    ResourceRegistry :=
  if conf.mResourceResType = 0 then reg
  else (reg.addToTable conf isBuSpecified).fetchAndStoreDefaults target totalCoreCount
    readFromFile conf

end ResourceRegistry

/-- What the server reads but never changes once it runs. -/
structure Env where
  resourceRegistry : ResourceRegistry
  targetRegistry : TargetRegistry
  targetConfigs : TargetConfigs
  metaConfigs : MetaConfigs

/-- `getResConf` of the environment's registry. -/
def Env.getResConf (env : Env) (resourceId : BitVec 32) : Option ResConfInfo :=
  env.resourceRegistry.getResConf resourceId

/-! ## A small device

Two clusters of four cores, one cgroup, and one resource of each apply type: the environment in
which concrete runs are evaluated. -/

namespace Sample

def targetRegistry : TargetRegistry :=
  TargetRegistry.empty.addClusterMapping 0 0
    |>.addClusterSpreadInfo 0 4
    |>.addClusterMapping 1 4
    |>.addClusterSpreadInfo 4 4
    |>.addCGroupMapping ⟨"audio", 7⟩

def conf (resType : BitVec 8) (path : String) (applyType : ResourceApplyType) (policy : Policy) :
    ResConfInfo where
  mResourcePath := path
  mResourceResType := resType
  mResourceResID := 0
  mHighThreshold := -1
  mLowThreshold := -1
  mPermissions := .PERMISSION_THIRD_PARTY
  mModes := MODE_RESUME
  mApplyType := applyType
  mPolicy := policy
  mResourceApplierCallback := none
  mUnit := .U_NA
  mResourceTearCallback := none

def globalConf : ResConfInfo := conf 1 "/sys/global" .APPLY_GLOBAL .HIGHER_BETTER
def coreConf : ResConfInfo := conf 2 "/sys/cpu%d" .APPLY_CORE .LAZY_APPLY
def clusterConf : ResConfInfo := conf 3 "/sys/cluster%d" .APPLY_CLUSTER .INSTANT_APPLY
def cGroupConf : ResConfInfo := conf 4 "/cgroup/%s" .APPLY_CGROUP .LOWER_BETTER

/-- Every node held `"0"` when the resources were registered. -/
def resourceRegistry : ResourceRegistry :=
  [globalConf, coreConf, clusterConf, cGroupConf].foldl
    (fun reg c => reg.registerResource targetRegistry 8 (fun _ => "0") c false) .empty

def env : Env := ⟨resourceRegistry, targetRegistry, ⟨8, 2, MODE_RESUME⟩, ⟨60⟩⟩

/-- The code of the resource of a type. -/
def code (resType : BitVec 8) : BitVec 32 := resType.setWidth 32 <<< 16

/-- An infinite request of client `1` whose properties word is the given priority. -/
def request (ptr : Nat) (priority : BitVec 32) (resources : List Resource) : Request where
  mReqType := .REQ_RESOURCE_TUNING
  mHandle := ptr
  mDuration := -1
  mProperties := priority
  mClientPID := 1
  mClientTID := 1
  mTimer := none
  mResourceList := some (resources.mapIdx fun i r => ⟨(ptr, i), some r⟩)

end Sample

end ResourceTuner
