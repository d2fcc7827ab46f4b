import ResourceTuner.Core.ResourceRegistry
import ResourceTuner.Signals.SignalRegistry

/-!
# The registries as finite maps

Both registries start empty and are filled by the configuration parsers, one entry at a time.  What
they answer afterwards is what a finite map would, on which an entry is one update.

* **`ResourceRegistration`** / **`SignalRegistration`** — an entry, and the call it makes;
* **`IndexedTable.registered`** — its update;
* **`registries_refine_maps`** — the registries after any sequence of entries.
-/

namespace ResourceTuner

open IndexedTable

/-! ## Resources -/

/-- A call of `registerResource`, with the device and the files as it finds them.  There is no
configuration where the builder could not allocate one. -/
structure ResourceRegistration where
  resourceConfigInfo : Option ResConfInfo
  isBuSpecified : Bool
  target : TargetRegistry
  totalCoreCount : Nat
  readFromFile : String → String

namespace ResourceRegistry

/-- The call of an entry. -/
def register (reg : ResourceRegistry) (entry : ResourceRegistration) : ResourceRegistry :=
  match entry.resourceConfigInfo with
  | none => reg
  | some conf =>
    reg.registerResource entry.target entry.totalCoreCount entry.readFromFile conf
      entry.isBuSpecified

/-- The registry after a sequence of entries. -/
def ofEntries (entries : List ResourceRegistration) : ResourceRegistry :=
  entries.foldl register empty

/-- The update of an entry; a malformed one is none.  The map holds the configurations as the registry
completes them. -/
def updateMap (m : BitVec 32 → Option ResConfInfo) (entry : ResourceRegistration) :
    BitVec 32 → Option ResConfInfo :=
  match entry.resourceConfigInfo with
  | none => m
  | some conf =>
    if conf.mResourceResType = 0 then m
    else
      registered m (resourceBitmap conf) (resourceBitmap conf ||| customBit)
        conf.setLifeCycleCallbacks entry.isBuSpecified

/-- The map after a sequence of entries. -/
def mapOf (entries : List ResourceRegistration) : BitVec 32 → Option ResConfInfo :=
  entries.foldl updateMap fun _ => none

theorem mapOf_concat (entries : List ResourceRegistration) (entry : ResourceRegistration) :
    mapOf (entries ++ [entry]) = updateMap (mapOf entries) entry := by
  simp [mapOf]

theorem getResConf_eq_find (reg : ResourceRegistry) :
    reg.getResConf = find reg.mSystemIndependentLayerMappings reg.mResourceConfigs := rfl

theorem getResConf_addToTable (reg : ResourceRegistry) (conf : ResConfInfo) (isBuSpecified : Bool) :
    (reg.addToTable conf isBuSpecified).getResConf =
      registered reg.getResConf (resourceBitmap conf) (resourceBitmap conf ||| customBit)
        conf.setLifeCycleCallbacks isBuSpecified := by
  rw [getResConf_eq_find reg]
  unfold addToTable
  split
  · rename_i i hlookup
    rw [← registered_of_some reg.indexed hlookup]
    cases isBuSpecified <;> rfl
  · rename_i hlookup
    rw [← registered_of_none reg.indexed hlookup]
    cases isBuSpecified <;> rfl

theorem getResConf_register (reg : ResourceRegistry) (entry : ResourceRegistration) :
    (reg.register entry).getResConf = updateMap reg.getResConf entry := by
  unfold register updateMap
  cases entry.resourceConfigInfo with
  | none => rfl
  | some conf =>
    by_cases hmalformed : conf.mResourceResType = 0
    · simp only [registerResource, if_pos hmalformed]
    · simp only [registerResource, if_neg hmalformed]
      -- the stored defaults are not part of the table
      exact reg.getResConf_addToTable conf entry.isBuSpecified

theorem getResConf_ofEntries (entries : List ResourceRegistration) :
    (ofEntries entries).getResConf = mapOf entries := by
  induction entries using List.reverseRecOn with
  | nil =>
    funext code
    simp [ofEntries, mapOf, getResConf, empty]
  | append_singleton entries entry ih =>
    rw [mapOf_concat, ← ih, ← getResConf_register, ofEntries, List.foldl_append]
    rfl

/-- The key tells the type and the id of a resource. -/
theorem resourceBitmap_inj {conf conf' : ResConfInfo} (h : resourceBitmap conf = resourceBitmap conf') :
    conf.mResourceResType = conf'.mResourceResType ∧ conf.mResourceResID = conf'.mResourceResID := by
  have hbit : ∀ i, (resourceBitmap conf).getLsbD i = (resourceBitmap conf').getLsbD i := fun i => by
    rw [h]
  constructor
  · apply BitVec.eq_of_getLsbD_eq
    intro i hi
    have hi' := hbit (i + 16)
    simpa [resourceBitmap, hi, show i + 16 < 32 by omega, show ¬ i + 16 < 16 by omega] using hi'
  · apply BitVec.eq_of_getLsbD_eq
    intro i hi
    have hi' := hbit i
    simpa [resourceBitmap, hi, show i < 32 by omega, show i < 16 by omega] using hi'

end ResourceRegistry

/-! ## Signals -/

/-- A call of `registerSignal`. -/
structure SignalRegistration where
  signalInfo : Option SignalInfo
  isBuSpecified : Bool

/-- The code of a signal: its category above its id. -/
def SignalInfo.code (signalInfo : SignalInfo) : BitVec 32 :=
  signalInfo.mSignalID.setWidth 32 ||| (signalInfo.mSignalCategory.setWidth 32 <<< 16)

namespace SignalRegistry

/-- The key of a configuration. -/
def keyOf (signalInfo : SignalInfo) : BitVec 64 := signalBitmap signalInfo.code signalInfo.mSigType

/-- The call of an entry. -/
def register (reg : SignalRegistry) (entry : SignalRegistration) : SignalRegistry :=
  match entry.signalInfo with
  | none => reg
  | some info => reg.registerSignal info entry.isBuSpecified

/-- The registry after a sequence of entries. -/
def ofEntries (entries : List SignalRegistration) : SignalRegistry := entries.foldl register empty

/-- The update of an entry; a malformed one is none. -/
def updateMap (m : BitVec 64 → Option SignalInfo) (entry : SignalRegistration) :
    BitVec 64 → Option SignalInfo :=
  match entry.signalInfo with
  | none => m
  | some info =>
    if info.mSignalCategory = 0 then m
    else registered m (keyOf info) (keyOf info ||| customBit) info entry.isBuSpecified

/-- The map after a sequence of entries. -/
def mapOf (entries : List SignalRegistration) : BitVec 64 → Option SignalInfo :=
  entries.foldl updateMap fun _ => none

theorem mapOf_concat (entries : List SignalRegistration) (entry : SignalRegistration) :
    mapOf (entries ++ [entry]) = updateMap (mapOf entries) entry := by
  simp [mapOf]

theorem getSignalConfigByKey_eq_find (reg : SignalRegistry) :
    reg.getSignalConfigByKey = find reg.mSILMappings reg.mSignalsConfigs := rfl

theorem getSignalConfigByKey_register (reg : SignalRegistry) (entry : SignalRegistration) :
    (reg.register entry).getSignalConfigByKey = updateMap reg.getSignalConfigByKey entry := by
  unfold register updateMap
  cases entry.signalInfo with
  | none => rfl
  | some info =>
    by_cases hmalformed : info.mSignalCategory = 0
    · simp only [registerSignal, if_pos hmalformed]
    · simp only [registerSignal, if_neg hmalformed]
      rw [getSignalConfigByKey_eq_find reg]
      split
      · rename_i i hlookup
        exact registered_of_some reg.indexed hlookup
      · rename_i hlookup
        exact registered_of_none reg.indexed hlookup

theorem getSignalConfigByKey_ofEntries (entries : List SignalRegistration) :
    (ofEntries entries).getSignalConfigByKey = mapOf entries := by
  induction entries using List.reverseRecOn with
  | nil =>
    funext key
    simp [ofEntries, mapOf, getSignalConfigByKey, empty]
  | append_singleton entries entry ih =>
    rw [mapOf_concat, ← ih, ← getSignalConfigByKey_register, ofEntries, List.foldl_append]
    rfl

/-- A signal that is registered alone is found under its code and type. -/
theorem getSignalConfigById_single {info : SignalInfo} (hcategory : info.mSignalCategory ≠ 0) :
    (ofEntries [⟨some info, false⟩]).getSignalConfigById info.code info.mSigType = some info := by
  show (ofEntries [⟨some info, false⟩]).getSignalConfigByKey (keyOf info) = some info
  rw [getSignalConfigByKey_ofEntries, mapOf, List.foldl_cons, List.foldl_nil, updateMap]
  simp only [if_neg hcategory]
  rw [registered, if_neg Bool.false_ne_true, Function.update_self]

/-- The key tells the code and the type of a signal. -/
theorem signalBitmap_inj {sigCode sigCode' sigType sigType' : BitVec 32}
    (h : signalBitmap sigCode sigType = signalBitmap sigCode' sigType') :
    sigCode = sigCode' ∧ sigType = sigType' := by
  have hbit : ∀ i, (signalBitmap sigCode sigType).getLsbD i =
      (signalBitmap sigCode' sigType').getLsbD i := fun i => by
    rw [h]
  constructor
  · apply BitVec.eq_of_getLsbD_eq
    intro i hi
    have hi' := hbit (i + 32)
    simpa [signalBitmap, hi, show i + 32 < 64 by omega, show ¬ i + 32 < 32 by omega] using hi'
  · apply BitVec.eq_of_getLsbD_eq
    intro i hi
    have hi' := hbit i
    simpa [signalBitmap, hi, show i < 64 by omega] using hi'

/-- And with it the category and the id. -/
theorem keyOf_inj {info info' : SignalInfo} (h : keyOf info = keyOf info') :
    info.mSignalCategory = info'.mSignalCategory ∧ info.mSignalID = info'.mSignalID ∧
      info.mSigType = info'.mSigType := by
  obtain ⟨hcode, htype⟩ := signalBitmap_inj h
  have hbit : ∀ i, info.code.getLsbD i = info'.code.getLsbD i := fun i => by
    rw [hcode]
  refine ⟨?_, ?_, htype⟩
  · apply BitVec.eq_of_getLsbD_eq
    intro i hi
    have hi' := hbit (i + 16)
    simpa [SignalInfo.code, hi, show i + 16 < 32 by omega, show ¬ i + 16 < 16 by omega] using hi'
  · apply BitVec.eq_of_getLsbD_eq
    intro i hi
    have hi' := hbit i
    simpa [SignalInfo.code, hi, show i < 32 by omega, show i < 16 by omega] using hi'

/-- Where all signals have a category each one is registered. -/
theorem getSignalConfigByKey_registerAll (isBuSpecified : Bool) {infos : List SignalInfo}
    (hcategory : ∀ info ∈ infos, info.mSignalCategory ≠ 0) :
    (infos.foldl (fun reg info => reg.registerSignal info isBuSpecified) empty).getSignalConfigByKey =
      infos.foldl (fun m info => registered m (keyOf info) (keyOf info ||| customBit) info isBuSpecified)
        fun _ => none := by
  induction infos using List.reverseRecOn with
  | nil =>
    funext key
    simp [getSignalConfigByKey, empty]
  | append_singleton infos info ih =>
    have hinfo : info.mSignalCategory ≠ 0 := hcategory info (List.mem_append_right _ List.mem_cons_self)
    have hregister := getSignalConfigByKey_register
      (infos.foldl (fun reg info => reg.registerSignal info isBuSpecified) empty)
      ⟨some info, isBuSpecified⟩
    rw [ih fun other hother => hcategory other (List.mem_append_left _ hother), updateMap] at hregister
    simp only [if_neg hinfo] at hregister
    rw [List.foldl_append, List.foldl_append]
    exact hregister

/-- The code under which a signal is registered; custom ones have the top bit set. -/
def registeredCode (isBuSpecified : Bool) (info : SignalInfo) : BitVec 32 :=
  if isBuSpecified then info.code ||| 0x80000000 else info.code

theorem signalBitmap_custom (sigCode sigType : BitVec 32) :
    signalBitmap (sigCode ||| 0x80000000) sigType = signalBitmap sigCode sigType ||| customBit := by
  have htop : (0x80000000 : BitVec 32).setWidth 64 <<< 32 = customBit := by decide
  rw [signalBitmap, signalBitmap, BitVec.setWidth_or, BitVec.shiftLeft_or_distrib, htop,
    BitVec.or_assoc, BitVec.or_comm customBit, ← BitVec.or_assoc]

/-- No code has the top bit by itself. -/
theorem keyOf_or_customBit_ne (info info' : SignalInfo) : keyOf info ||| customBit ≠ keyOf info' := by
  intro heq
  have hbit : (keyOf info ||| customBit).getLsbD 63 = (keyOf info').getLsbD 63 := by rw [heq]
  simp [keyOf, signalBitmap, SignalInfo.code, customBit] at hbit

/-- After any signals, all from one kind of file, a code and a type have the last signal with them. -/
theorem getSignalConfigById_registerAll (isBuSpecified : Bool) {infos : List SignalInfo}
    (hcategory : ∀ info ∈ infos, info.mSignalCategory ≠ 0) (sigCode sigType : BitVec 32) :
    (infos.foldl (fun reg info => reg.registerSignal info isBuSpecified) empty).getSignalConfigById
        sigCode sigType =
      infos.reverse.find? fun info =>
        registeredCode isBuSpecified info = sigCode ∧ info.mSigType = sigType := by
  have hkey : ∀ info : SignalInfo,
      (if isBuSpecified then keyOf info ||| customBit else keyOf info) =
        signalBitmap (registeredCode isBuSpecified info) info.mSigType := by
    intro info
    unfold registeredCode
    split
    · exact (signalBitmap_custom ..).symm
    · rfl
  have hfind := congrFun (getSignalConfigByKey_registerAll isBuSpecified hcategory)
    (signalBitmap sigCode sigType)
  rw [foldl_registered keyOf (keyOf · ||| customBit) keyOf_or_customBit_ne] at hfind
  refine hfind.trans (congrArg (List.find? · infos.reverse) (funext fun info => ?_))
  refine decide_eq_decide.mpr ?_
  rw [hkey]
  exact ⟨signalBitmap_inj, fun h => by rw [h.1, h.2]⟩

end SignalRegistry

/-- **The registries are finite maps.**  After any entries, each answers every code and every key as
its map does, every code has a row of its own inside the table, the counter is the size of the table,
and no two resources or signals have their keys in common. -/
theorem registries_refine_maps (resources : List ResourceRegistration)
    (signals : List SignalRegistration) :
    let reg := ResourceRegistry.ofEntries resources
    let sigReg := SignalRegistry.ofEntries signals
    ((∀ code, reg.getResConf code = ResourceRegistry.mapOf resources code) ∧
      Indexed reg.mSystemIndependentLayerMappings reg.mResourceConfigs reg.mTotalResources ∧
      ∀ conf conf' : ResConfInfo,
        ResourceRegistry.resourceBitmap conf = ResourceRegistry.resourceBitmap conf' →
        conf.mResourceResType = conf'.mResourceResType ∧
          conf.mResourceResID = conf'.mResourceResID) ∧
    (∀ sigID, sigReg.getSignalConfigByKey sigID = SignalRegistry.mapOf signals sigID) ∧
      (∀ sigCode sigType, sigReg.getSignalConfigById sigCode sigType =
        SignalRegistry.mapOf signals (SignalRegistry.signalBitmap sigCode sigType)) ∧
      Indexed sigReg.mSILMappings sigReg.mSignalsConfigs sigReg.mTotalSignals ∧
      ∀ info info' : SignalInfo, SignalRegistry.keyOf info = SignalRegistry.keyOf info' →
        info.mSignalCategory = info'.mSignalCategory ∧ info.mSignalID = info'.mSignalID ∧
          info.mSigType = info'.mSigType := by
  intro reg sigReg
  have hres : reg.getResConf = ResourceRegistry.mapOf resources :=
    ResourceRegistry.getResConf_ofEntries resources
  have hsig : sigReg.getSignalConfigByKey = SignalRegistry.mapOf signals :=
    SignalRegistry.getSignalConfigByKey_ofEntries signals
  refine ⟨⟨congrFun hres, reg.indexed, fun _ _ => ResourceRegistry.resourceBitmap_inj⟩,
    congrFun hsig, ?_, sigReg.indexed, fun _ _ => SignalRegistry.keyOf_inj⟩
  -- the two overloads differ only in who packs the key
  intro sigCode sigType
  exact congrFun hsig (SignalRegistry.signalBitmap sigCode sigType)

end ResourceTuner
