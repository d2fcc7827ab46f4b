import ResourceTuner.Lib.LastWrite
import ResourceTuner.Signals.RegistryMaps

/-!
# Callbacks of extensions

`Extensions.cpp` and `ResourceRegistry::pluginModifications`.  A library registers callbacks under
resource codes while it is loaded; once all configuration files have been read, the registry puts them
in the place of the default callbacks.

* `Extensions`, `Extensions.ofRegistrations` — what the macros of `Extensions.h` leave behind;
* `ResourceRegistry.pluginModifications` — the two loops;
* `getResConf_pluginModifications` — the registry as a map, afterwards;
* `custom_uses_defaults` — a custom resource is out of their reach.
-/

namespace ResourceTuner

/-- The callbacks of `class Extensions`, by resource code. -/
structure Extensions where
  mResourceApplierCallbacks : UnorderedMap (BitVec 32) ResourceLifecycleCallback
  mResourceTearCallbacks : UnorderedMap (BitVec 32) ResourceLifecycleCallback

/-- A use of `URM_REGISTER_RES_APPLIER_CB`, whose type is `0`, or `URM_REGISTER_RES_TEAR_CB`, whose
type is `1`. -/
structure CallbackRegistration where
  resCode : BitVec 32
  callbackType : Int
  callback : ResourceLifecycleCallback
  deriving DecidableEq, Repr

namespace Extensions

def empty : Extensions := ⟨∅, ∅⟩

/-- The constructor. -/
def register (extensions : Extensions) (registration : CallbackRegistration) : Extensions :=
  if registration.callbackType = 0 then
    { extensions with mResourceApplierCallbacks :=
        extensions.mResourceApplierCallbacks.insert registration.resCode registration.callback }
  else if registration.callbackType = 1 then
    { extensions with mResourceTearCallbacks :=
        extensions.mResourceTearCallbacks.insert registration.resCode registration.callback }
  else extensions

/-- What a program's registrations leave behind, in the order its globals are constructed. -/
def ofRegistrations (registrations : List CallbackRegistration) : Extensions :=
  registrations.foldl register empty

/-- `getResourceApplierCallbacks`, in the order the map is iterated. -/
def getResourceApplierCallbacks (extensions : Extensions) :
    List (BitVec 32 × ResourceLifecycleCallback) :=
  extensions.mResourceApplierCallbacks.entries.map fun entry => (entry.1, entry.2)

def getResourceTearCallbacks (extensions : Extensions) :
    List (BitVec 32 × ResourceLifecycleCallback) :=
  extensions.mResourceTearCallbacks.entries.map fun entry => (entry.1, entry.2)

/-- The registrations of a type, as pairs. -/
def pairsOf (callbackType : Int) (registrations : List CallbackRegistration) :
    List (BitVec 32 × ResourceLifecycleCallback) :=
  (registrations.filter fun registration => registration.callbackType = callbackType).map
    fun registration => (registration.resCode, registration.callback)

end Extensions

/-! ## The registry -/

/-- The configuration with another applier. -/
def ResConfInfo.withApplier (conf : ResConfInfo) (callback : ResourceLifecycleCallback) :
    ResConfInfo :=
  { conf with mResourceApplierCallback := some callback }

/-- The configuration with another tear. -/
def ResConfInfo.withTear (conf : ResConfInfo) (callback : ResourceLifecycleCallback) : ResConfInfo :=
  { conf with mResourceTearCallback := some callback }

theorem ResConfInfo.HasCallbacks.withApplier {conf : ResConfInfo} (h : conf.HasCallbacks)
    (callback : ResourceLifecycleCallback) : (conf.withApplier callback).HasCallbacks := ⟨rfl, h.2⟩

theorem ResConfInfo.HasCallbacks.withTear {conf : ResConfInfo} (h : conf.HasCallbacks)
    (callback : ResourceLifecycleCallback) : (conf.withTear callback).HasCallbacks := ⟨h.1, rfl⟩

namespace ResourceRegistry

/-- Change the row `i` in place. -/
def modifyRow (reg : ResourceRegistry) (i : Nat) (f : ResConfInfo → ResConfInfo)
    (hf : ∀ conf : ResConfInfo, conf.HasCallbacks → (f conf).HasCallbacks) : ResourceRegistry :=
  { reg with
    mResourceConfigs := reg.mResourceConfigs.modify i f
    indexed := reg.indexed.modify i f
    callbacks := by
      intro conf hconf
      obtain ⟨j, hj, rfl⟩ := List.mem_iff_getElem.mp hconf
      rw [List.length_modify] at hj
      rw [List.getElem_modify]
      split
      · exact hf _ (reg.callbacks _ (List.getElem_mem hj))
      · exact reg.callbacks _ (List.getElem_mem hj) }

/-- The body of the first loop of `pluginModifications`. -/
def plugApplier (reg : ResourceRegistry) (resource : BitVec 32 × ResourceLifecycleCallback) :
    ResourceRegistry :=
  if reg.getResourceTableIndex resource.1 ≠ -1 then
    reg.modifyRow (reg.getResourceTableIndex resource.1).toNat (·.withApplier resource.2)
      fun _ h => h.withApplier resource.2
  else reg

/-- The body of the second loop. -/
def plugTear (reg : ResourceRegistry) (resource : BitVec 32 × ResourceLifecycleCallback) :
    ResourceRegistry :=
  if reg.getResourceTableIndex resource.1 ≠ -1 then
    reg.modifyRow (reg.getResourceTableIndex resource.1).toNat (·.withTear resource.2)
      fun _ h => h.withTear resource.2
  else reg

/-- `pluginModifications`. -/
def pluginModifications (reg : ResourceRegistry) (extensions : Extensions) : ResourceRegistry :=
  extensions.getResourceTearCallbacks.foldl plugTear
    (extensions.getResourceApplierCallbacks.foldl plugApplier reg)

end ResourceRegistry

/-! ## The registry afterwards -/

namespace Extensions

/-- The configuration under a code with the callbacks registered for that code. -/
def modify (extensions : Extensions) (code : BitVec 32) (conf : ResConfInfo) : ResConfInfo :=
  { conf with
    mResourceApplierCallback :=
      (extensions.mResourceApplierCallbacks.lookup code).or conf.mResourceApplierCallback
    mResourceTearCallback :=
      (extensions.mResourceTearCallbacks.lookup code).or conf.mResourceTearCallback }

theorem foldl_register (extensions : Extensions) (registrations : List CallbackRegistration) :
    registrations.foldl register extensions =
      ⟨LastWrite.insertAll extensions.mResourceApplierCallbacks (pairsOf 0 registrations),
        LastWrite.insertAll extensions.mResourceTearCallbacks (pairsOf 1 registrations)⟩ := by
  induction registrations generalizing extensions with
  | nil => rfl
  | cons registration registrations ih =>
    rw [List.foldl_cons, ih]
    by_cases hzero : registration.callbackType = 0
    · simp [register, pairsOf, hzero, LastWrite.insertAll]
    · by_cases hone : registration.callbackType = 1
      · simp [register, pairsOf, hone, LastWrite.insertAll]
      · simp [register, pairsOf, hzero, hone]

/-- For each code the last registration of a type counts. -/
theorem lookup_ofRegistrations (registrations : List CallbackRegistration) (code : BitVec 32) :
    (ofRegistrations registrations).mResourceApplierCallbacks.lookup code =
        LastWrite.last? code (pairsOf 0 registrations) ∧
      (ofRegistrations registrations).mResourceTearCallbacks.lookup code =
        LastWrite.last? code (pairsOf 1 registrations) := by
  rw [ofRegistrations, foldl_register]
  simp [LastWrite.lookup_insertAll, empty]

end Extensions

namespace ResourceRegistry

variable {reg : ResourceRegistry} {code : BitVec 32}

/-- A code that is not registered has the index `-1`, and no row to change. -/
theorem getResConf_modifyRow {f : ResConfInfo → ResConfInfo}
    (hf : ∀ conf : ResConfInfo, conf.HasCallbacks → (f conf).HasCallbacks) (key : BitVec 32) :
    (if reg.getResourceTableIndex key ≠ -1 then
        reg.modifyRow (reg.getResourceTableIndex key).toNat f hf else reg).getResConf code =
      (reg.getResConf code).map fun conf => if key = code then f conf else conf := by
  unfold getResourceTableIndex
  cases hkey : reg.mSystemIndependentLayerMappings.lookup key with
  | none =>
    rw [if_neg (by simp)]
    by_cases hcode : key = code
    · have hnone : reg.getResConf code = none := by
        rw [getResConf, ← hcode, hkey]
        rfl
      rw [hnone]
      rfl
    · simp [hcode]
  | some i =>
    rw [if_pos (by show (i : Int) ≠ -1; omega)]
    exact IndexedTable.find_modify reg.indexed hkey f code

theorem getResConf_plugApplier (resource : BitVec 32 × ResourceLifecycleCallback) :
    (reg.plugApplier resource).getResConf code =
      (reg.getResConf code).map fun conf =>
        if resource.1 = code then conf.withApplier resource.2 else conf :=
  getResConf_modifyRow _ _

theorem getResConf_plugTear (resource : BitVec 32 × ResourceLifecycleCallback) :
    (reg.plugTear resource).getResConf code =
      (reg.getResConf code).map fun conf =>
        if resource.1 = code then conf.withTear resource.2 else conf :=
  getResConf_modifyRow _ _

/-- A loop of such steps: the last callback of the code is the one that stays. -/
theorem getResConf_foldl {plug : ResourceRegistry → BitVec 32 × ResourceLifecycleCallback →
    ResourceRegistry} {put : ResConfInfo → ResourceLifecycleCallback → ResConfInfo}
    (hplug : ∀ reg resource code, (plug reg resource).getResConf code =
      (reg.getResConf code).map fun conf => if resource.1 = code then put conf resource.2 else conf)
    (hput : ∀ conf first last, put (put conf first) last = put conf last)
    (resources : List (BitVec 32 × ResourceLifecycleCallback)) :
    (resources.foldl plug reg).getResConf code =
      (reg.getResConf code).map fun conf =>
        ((LastWrite.last? code resources).map (put conf)).getD conf := by
  induction resources generalizing reg with
  | nil => simp
  | cons resource resources ih =>
    rw [List.foldl_cons, ih, hplug, Option.map_map]
    congr 1
    funext conf
    rw [Function.comp_apply, LastWrite.last?_cons]
    cases LastWrite.last? code resources with
    | some last =>
      by_cases hcode : resource.1 = code
      · simp [hcode, hput]
      · simp [hcode]
    | none =>
      by_cases hcode : resource.1 = code
      · simp [hcode]
      · simp [hcode]

/-- Every resource is found where it was, with the callbacks that were registered under its own code,
and only with those. -/
theorem getResConf_modified (reg : ResourceRegistry) (extensions : Extensions) (code : BitVec 32) :
    (reg.pluginModifications extensions).getResConf code =
      (reg.getResConf code).map (extensions.modify code) := by
  rw [pluginModifications, getResConf_foldl (fun _ _ _ => getResConf_plugTear _) (fun _ _ _ => rfl),
    getResConf_foldl (fun _ _ _ => getResConf_plugApplier _) (fun _ _ _ => rfl), Option.map_map,
    Extensions.getResourceApplierCallbacks, Extensions.getResourceTearCallbacks,
    LastWrite.last?_entries, LastWrite.last?_entries]
  congr 1
  funext conf
  rw [Function.comp_apply, Extensions.modify]
  cases extensions.mResourceApplierCallbacks.lookup code <;>
    cases extensions.mResourceTearCallbacks.lookup code <;> rfl

/-- **Plugging in extensions.**  After any configuration files and any registrations, a code has the
configuration that the last entry for it gave, with the callbacks last registered for it in the place
of the default ones. -/
theorem getResConf_pluginModifications (entries : List ResourceRegistration)
    (registrations : List CallbackRegistration) (code : BitVec 32) :
    ((ofEntries entries).pluginModifications (.ofRegistrations registrations)).getResConf code =
      (mapOf entries code).map fun conf =>
        { conf with
          mResourceApplierCallback :=
            (LastWrite.last? code (Extensions.pairsOf 0 registrations)).or
              conf.mResourceApplierCallback
          mResourceTearCallback :=
            (LastWrite.last? code (Extensions.pairsOf 1 registrations)).or
              conf.mResourceTearCallback } := by
  obtain ⟨happlier, htear⟩ := Extensions.lookup_ofRegistrations registrations code
  rw [getResConf_modified, getResConf_ofEntries, ← happlier, ← htear]
  rfl

/-! ## Custom resources -/

/-- The key of a configuration leaves the MSB free. -/
theorem getLsbD_resourceBitmap (conf : ResConfInfo) : (resourceBitmap conf).getLsbD 31 = false := by
  simp [resourceBitmap]

theorem getLsbD_customKey (conf : ResConfInfo) :
    (resourceBitmap conf ||| customBit).getLsbD 31 = true := by
  rw [BitVec.getLsbD_or, getLsbD_resourceBitmap, Bool.false_or]
  decide

/-- **Custom resources lose their callbacks.**  A configuration from a custom file takes the place of
the resource it overrides under a key with the MSB set.  Callbacks registered under plain codes, as all
those of the server itself are, do not follow it there: it keeps the default ones. -/
theorem custom_uses_defaults (reg : ResourceRegistry) (target : TargetRegistry) (totalCoreCount : Nat)
    (readFromFile : String → String) (conf : ResConfInfo) (htype : conf.mResourceResType ≠ 0)
    (registrations : List CallbackRegistration)
    (hplain : ∀ registration ∈ registrations, registration.resCode.getLsbD 31 = false) :
    ((reg.registerResource target totalCoreCount readFromFile conf true).pluginModifications
        (.ofRegistrations registrations)).getResConf (resourceBitmap conf) = none ∧
      ((reg.registerResource target totalCoreCount readFromFile conf true).pluginModifications
        (.ofRegistrations registrations)).getResConf (resourceBitmap conf ||| customBit) =
          some conf.setLifeCycleCallbacks := by
  have hne : resourceBitmap conf ≠ resourceBitmap conf ||| customBit := fun heq => by
    have hbit := getLsbD_customKey conf
    rw [← heq, getLsbD_resourceBitmap] at hbit
    cases hbit
  have hmap : (reg.registerResource target totalCoreCount readFromFile conf true).getResConf =
      IndexedTable.registered reg.getResConf (resourceBitmap conf) (resourceBitmap conf ||| customBit)
        conf.setLifeCycleCallbacks true := by
    rw [registerResource, if_neg htype]
    exact reg.getResConf_addToTable conf true
  -- nothing was registered under the key with the MSB
  have hnone : ∀ callbackType, LastWrite.last? (resourceBitmap conf ||| customBit)
      (Extensions.pairsOf callbackType registrations) = none := by
    intro callbackType
    refine LastWrite.last?_eq_none_iff.mpr fun hmem => ?_
    obtain ⟨pair, hpair, hkey⟩ := List.mem_map.mp hmem
    obtain ⟨registration, hregistration, rfl⟩ := List.mem_map.mp hpair
    have hbit := hplain registration (List.mem_filter.mp hregistration).1
    rw [show registration.resCode = _ from hkey, getLsbD_customKey] at hbit
    cases hbit
  rw [getResConf_modified, getResConf_modified, hmap]
  obtain ⟨happlier, htear⟩ :=
    Extensions.lookup_ofRegistrations registrations (resourceBitmap conf ||| customBit)
  constructor
  · simp [IndexedTable.registered, Function.update_of_ne hne]
  · simp only [IndexedTable.registered, if_true, Function.update_self, Option.map_some,
      Extensions.modify, happlier, htear, hnone, Option.none_or]

end ResourceRegistry

/-! ## The callbacks of the server itself -/

/-- The callbacks that `ResourceHooks.cpp` registers, numbered in the order of the file. -/
inductive ResourceHook where
  | setPmQos
  | moveProcessToCGroup
  | moveThreadToCGroup
  | setRunOnCores
  | setRunOnCoresExclusively
  | limitCpuTime
  | resetPmQos
  | removeProcessFromCGroup
  | removeThreadFromCGroup
  | resetRunOnCoresExclusively
  deriving DecidableEq, Repr

def ResourceHook.callback : ResourceHook → ResourceLifecycleCallback
  | .setPmQos => .extension 0
  | .moveProcessToCGroup => .extension 1
  | .moveThreadToCGroup => .extension 2
  | .setRunOnCores => .extension 3
  | .setRunOnCoresExclusively => .extension 4
  | .limitCpuTime => .extension 5
  | .resetPmQos => .extension 6
  | .removeProcessFromCGroup => .extension 7
  | .removeThreadFromCGroup => .extension 8
  | .resetRunOnCoresExclusively => .extension 9

/-- The macros at the end of `ResourceHooks.cpp`. -/
def ResourceHook.registrations : List CallbackRegistration :=
  [⟨0x00010001, 0, ResourceHook.setPmQos.callback⟩,
    ⟨0x00090000, 0, ResourceHook.moveProcessToCGroup.callback⟩,
    ⟨0x00090001, 0, ResourceHook.moveThreadToCGroup.callback⟩,
    ⟨0x00090002, 0, ResourceHook.setRunOnCores.callback⟩,
    ⟨0x00090003, 0, ResourceHook.setRunOnCoresExclusively.callback⟩,
    ⟨0x00090005, 0, ResourceHook.limitCpuTime.callback⟩,
    ⟨0x00010001, 1, ResourceHook.resetPmQos.callback⟩,
    ⟨0x00090000, 1, ResourceHook.removeProcessFromCGroup.callback⟩,
    ⟨0x00090001, 1, ResourceHook.removeThreadFromCGroup.callback⟩,
    ⟨0x00090003, 1, ResourceHook.resetRunOnCoresExclusively.callback⟩]

/-- The resource that moves processes, taken over by a custom file: its cgroup file is written by the
default callback, not by the one that remembers where the processes were. -/
theorem custom_uses_defaults_movePid :
    ((Sample.resourceRegistry.registerResource Sample.targetRegistry 8 (fun _ => "0")
      (Sample.conf 9 "/cgroup/%s/cgroup.procs" .APPLY_CGROUP .PASS_THROUGH) true).pluginModifications
        (.ofRegistrations ResourceHook.registrations)).getResConf 0x80090000 =
      some (Sample.conf 9 "/cgroup/%s/cgroup.procs" .APPLY_CGROUP .PASS_THROUGH).setLifeCycleCallbacks :=
  (ResourceRegistry.custom_uses_defaults Sample.resourceRegistry Sample.targetRegistry 8 (fun _ => "0")
    (Sample.conf 9 "/cgroup/%s/cgroup.procs" .APPLY_CGROUP .PASS_THROUGH) (by decide)
    ResourceHook.registrations (by decide)).2

end ResourceTuner
