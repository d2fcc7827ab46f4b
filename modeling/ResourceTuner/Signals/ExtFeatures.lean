import ResourceTuner.Signals.RegistryMaps
import ResourceTuner.Signals.SignalHandler

/-!
# Relaying signals to features

`ExtFeaturesRegistry.cpp` and `ExtFeatureMapper.cpp`.  A feature is a library that subscribes to signal
codes; the mapper keeps, for each code, the features to which a `REQ_SIGNAL_RELAY` is handed on.  The
mapper accepts a subscription only for a signal that is registered, and asks the registry for it by
the 64-bit key, with the 32-bit code in its place.

* **`registerExtFeature`**, **`addFeature`**, **`getFeatures`** — the functions;
* **`mapOf_code`** — no signal is registered under a key that is only a code;
* **`relays_iff`** — a code is relayed to its subscribers only if it has none.
-/

namespace ResourceTuner

/-- `ExtFeatureInfo`, without the name.  The list is a pointer, null until the first code is added. -/
structure ExtFeatureInfo where
  mFeatureId : BitVec 32
  mFeatureLib : String
  mSignalsSubscribedTo : Option (List (BitVec 32))
  deriving DecidableEq, Repr

/-- `class SignalExtFeatureMapper`. -/
structure SignalExtFeatureMapper where
  mSignalTofeaturesMap : UnorderedMap (BitVec 32) (List (BitVec 32))

namespace SignalExtFeatureMapper

/-- `addFeature`. -/
def addFeature (mapper : SignalExtFeatureMapper) (registry : SignalRegistry) (signalCode : BitVec 64)
    (feature : BitVec 32) : Bool × SignalExtFeatureMapper :=
  match registry.getSignalConfigByKey signalCode with
  | none => (false, mapper)
  | some _ =>
    let entry := UnorderedMap.subscript mapper.mSignalTofeaturesMap (signalCode.setWidth 32) []
    (true, ⟨entry.2.insert (signalCode.setWidth 32) (entry.1 ++ [feature])⟩)

/-- `getFeatures`; the caller's vector is left alone when there are none. -/
def getFeatures (mapper : SignalExtFeatureMapper) (signalCode : BitVec 64)
    (features : List (BitVec 32)) : Bool × List (BitVec 32) :=
  match mapper.mSignalTofeaturesMap.lookup (signalCode.setWidth 32) with
  | none => (false, features)
  | some subscribed => (true, subscribed)

end SignalExtFeatureMapper

/-- `class ExtFeaturesRegistry`, and the mapper it fills. -/
structure ExtFeaturesRegistry where
  mTotalExtFeatures : Nat
  mExtFeaturesConfigs : List ExtFeatureInfo
  mSystemIndependentLayerMappings : UnorderedMap (BitVec 32) Nat
  mapper : SignalExtFeatureMapper

namespace ExtFeaturesRegistry

def empty : ExtFeaturesRegistry := ⟨0, [], ∅, ⟨∅⟩⟩

/-- The loop over the codes of a feature. -/
def subscribe (registry : SignalRegistry) (mapper : SignalExtFeatureMapper) (featureId : BitVec 32)
    (codes : List (BitVec 32)) : SignalExtFeatureMapper :=
  codes.foldl (fun mapper code => (mapper.addFeature registry (code.setWidth 64) featureId).2) mapper

/-- `registerExtFeature`.  A feature without a library is dropped; the list of the others is read
without a null test. -/
def registerExtFeature (registry : SignalRegistry) (reg : ExtFeaturesRegistry)
    (featureInfo : ExtFeatureInfo) : Except Fault ExtFeaturesRegistry :=
  if featureInfo.mFeatureLib.length = 0 then .ok reg
  else
    match featureInfo.mSignalsSubscribedTo with
    | none => .error .nullDereference
    | some codes =>
      .ok
        { mTotalExtFeatures := reg.mTotalExtFeatures + 1
          mExtFeaturesConfigs := reg.mExtFeaturesConfigs ++ [featureInfo]
          mSystemIndependentLayerMappings :=
            reg.mSystemIndependentLayerMappings.insert featureInfo.mFeatureId reg.mTotalExtFeatures
          mapper := subscribe registry reg.mapper featureInfo.mFeatureId codes }

/-- The registry after a sequence of features. -/
def registerAll (registry : SignalRegistry) : List ExtFeatureInfo → ExtFeaturesRegistry →
    Except Fault ExtFeaturesRegistry
  | [], reg => .ok reg
  | feature :: features, reg => do
    let reg ← registerExtFeature registry reg feature
    registerAll registry features reg

end ExtFeaturesRegistry

/-- The vector that `processIncomingRequest` passes on for a relayed signal, and whether it relays. -/
def relayTargets (reg : ExtFeaturesRegistry) (sigCode : BitVec 32) : Bool × List (BitVec 32) :=
  reg.mapper.getFeatures (sigCode.setWidth 64) []

/-! ## What should be relayed -/

/-- A feature that is not dropped. -/
def ExtFeatureInfo.loaded (feature : ExtFeatureInfo) : Bool := feature.mFeatureLib.length ≠ 0

/-- The features that subscribed to a code, in the order of their registration. -/
def subscribers (features : List ExtFeatureInfo) (sigCode : BitVec 32) : List (BitVec 32) :=
  (features.filter fun feature =>
    feature.loaded && decide (sigCode ∈ feature.mSignalsSubscribedTo.getD [])).map (·.mFeatureId)

/-- The features were registered, and a relayed signal of the code reaches its subscribers. -/
def Relays (registry : SignalRegistry) (features : List ExtFeatureInfo) (sigCode : BitVec 32) : Prop :=
  ∃ reg, ExtFeaturesRegistry.registerAll registry features .empty = .ok reg ∧
    (relayTargets reg sigCode).2 = subscribers features sigCode ∧
    ((relayTargets reg sigCode).1 = false ↔ subscribers features sigCode = [])

/-! ## Codes and keys -/

namespace SignalRegistry

/-- The key of a well-formed signal is more than a code. -/
theorem keyOf_ne_code {info : SignalInfo} (hcategory : info.mSignalCategory ≠ 0) (code : BitVec 32) :
    keyOf info ≠ code.setWidth 64 := by
  intro heq
  refine hcategory ?_
  apply BitVec.eq_of_getLsbD_eq
  intro i hi
  -- the category is in bits 48 to 55 of the key
  have hbit : (keyOf info).getLsbD (i + 48) = (code.setWidth 64).getLsbD (i + 48) := by rw [heq]
  have hkey : (keyOf info).getLsbD (i + 48) = info.mSignalCategory.getLsbD i := by
    simp [keyOf, signalBitmap, SignalInfo.code, show i + 48 < 64 by omega,
      show ¬ i + 48 < 32 by omega, show i + 16 < 32 by omega, show ¬ i + 16 < 16 by omega]
  rw [← hkey, hbit]
  simp

/-- And the custom bit makes a key more than a code. -/
theorem customKey_ne_code (key : BitVec 64) (code : BitVec 32) :
    key ||| customBit ≠ code.setWidth 64 := by
  intro heq
  have hbit : (key ||| customBit).getLsbD 63 = (code.setWidth 64).getLsbD 63 := by rw [heq]
  simp [customBit] at hbit

/-- **No signal is registered under a key that is only a code.** -/
theorem mapOf_code (entries : List SignalRegistration) (code : BitVec 32) :
    mapOf entries (code.setWidth 64) = none := by
  induction entries using List.reverseRecOn with
  | nil => rfl
  | append_singleton entries entry ih =>
    rw [mapOf_concat, updateMap]
    cases entry.signalInfo with
    | none => exact ih
    | some info =>
      dsimp only
      split
      · exact ih
      · rename_i hcategory
        have hkey : (code.setWidth 64 : BitVec 64) ≠ keyOf info := (keyOf_ne_code hcategory code).symm
        have hcustom : (code.setWidth 64 : BitVec 64) ≠ keyOf info ||| customBit :=
          (customKey_ne_code _ code).symm
        unfold IndexedTable.registered
        split
        · rw [Function.update_of_ne hcustom, Function.update_of_ne hkey]
          exact ih
        · rw [Function.update_of_ne hkey]
          exact ih

end SignalRegistry

/-! ## What is relayed -/

section Relay

variable {registry : SignalRegistry}

/-- Every subscription is refused. -/
theorem subscribe_eq (hregistry : ∀ code : BitVec 32, registry.getSignalConfigByKey (code.setWidth 64) = none)
    (mapper : SignalExtFeatureMapper) (featureId : BitVec 32) (codes : List (BitVec 32)) :
    ExtFeaturesRegistry.subscribe registry mapper featureId codes = mapper := by
  unfold ExtFeaturesRegistry.subscribe
  induction codes with
  | nil => rfl
  | cons code codes ih =>
    rw [List.foldl_cons, SignalExtFeatureMapper.addFeature, hregistry code]
    exact ih

/-- The mapper stays as it is. -/
theorem mapper_of_registerAll
    (hregistry : ∀ code : BitVec 32, registry.getSignalConfigByKey (code.setWidth 64) = none)
    {features : List ExtFeatureInfo} {reg reg' : ExtFeaturesRegistry}
    (h : ExtFeaturesRegistry.registerAll registry features reg = .ok reg') :
    reg'.mapper = reg.mapper := by
  induction features generalizing reg with
  | nil =>
    cases h
    rfl
  | cons feature features ih =>
    rw [ExtFeaturesRegistry.registerAll, ExtFeaturesRegistry.registerExtFeature] at h
    split at h
    · exact ih h
    · split at h
      · cases h
      · rw [ih h]
        exact subscribe_eq hregistry _ _ _

/-- The features can be registered if those with a library have a list. -/
theorem registerAll_eq_ok_iff (features : List ExtFeatureInfo) (reg : ExtFeaturesRegistry) :
    (∃ reg', ExtFeaturesRegistry.registerAll registry features reg = .ok reg') ↔
      ∀ feature ∈ features, feature.loaded → feature.mSignalsSubscribedTo.isSome := by
  induction features generalizing reg with
  | nil => simp [ExtFeaturesRegistry.registerAll]
  | cons feature features ih =>
    rw [ExtFeaturesRegistry.registerAll, ExtFeaturesRegistry.registerExtFeature, List.forall_mem_cons]
    by_cases hlib : feature.mFeatureLib.length = 0
    · rw [if_pos hlib, and_iff_right (by simp [ExtFeatureInfo.loaded, hlib])]
      exact ih reg
    · have hloaded : feature.loaded = true := by simp [ExtFeatureInfo.loaded, hlib]
      rw [if_neg hlib]
      cases hlist : feature.mSignalsSubscribedTo with
      | none =>
        refine iff_of_false ?_ fun h => by simpa using h.1 hloaded
        rintro ⟨reg', hreg'⟩
        cases hreg'
      | some codes =>
        rw [and_iff_right (by simp)]
        exact ih _

/-- **A code is relayed to its subscribers** exactly when it has none, and every feature has a list.
Nothing is ever relayed. -/
theorem relays_iff (signals : List SignalRegistration) (features : List ExtFeatureInfo)
    (sigCode : BitVec 32) :
    Relays (SignalRegistry.ofEntries signals) features sigCode ↔
      (∀ feature ∈ features, feature.loaded → feature.mSignalsSubscribedTo.isSome) ∧
        subscribers features sigCode = [] := by
  have hregistry : ∀ code : BitVec 32,
      (SignalRegistry.ofEntries signals).getSignalConfigByKey (code.setWidth 64) = none := fun code => by
    rw [SignalRegistry.getSignalConfigByKey_ofEntries]
    exact SignalRegistry.mapOf_code signals code
  have hnothing : ∀ {reg : ExtFeaturesRegistry}, ExtFeaturesRegistry.registerAll
      (SignalRegistry.ofEntries signals) features .empty = .ok reg →
      relayTargets reg sigCode = (false, []) := by
    intro reg hreg
    rw [relayTargets, mapper_of_registerAll hregistry hreg]
    rfl
  rw [← registerAll_eq_ok_iff features .empty]
  constructor
  · rintro ⟨reg, hreg, -, hfound⟩
    rw [hnothing hreg] at hfound
    exact ⟨⟨reg, hreg⟩, hfound.mp rfl⟩
  · rintro ⟨⟨reg, hreg⟩, hnone⟩
    refine ⟨reg, hreg, ?_, ?_⟩
    · rw [hnothing hreg, hnone]
    · rw [hnothing hreg]
      exact iff_of_true rfl hnone

end Relay

/-! ## A subscription -/

namespace Sample

/-- The sample signal, and a feature that subscribes to its code. -/
def relayedSignal : SignalRegistration := ⟨some signalInfo, false⟩

def feature : ExtFeatureInfo := ⟨7, "libfeature.so", some [signalInfo.code]⟩

end Sample

/-- The feature is registered after the signal, and a relayed signal does not reach it. -/
theorem feature_not_relayed :
    ((SignalRegistry.ofEntries [Sample.relayedSignal]).getSignalConfigById Sample.signalInfo.code
        Sample.signalInfo.mSigType).isSome ∧
      ¬ Relays (SignalRegistry.ofEntries [Sample.relayedSignal]) [Sample.feature]
        Sample.signalInfo.code := by
  refine ⟨by decide, ?_⟩
  rintro ⟨reg, hreg, -, hfound⟩
  obtain rfl := Except.ok.inj hreg
  exact absurd (hfound.mp (by decide)) (by decide)

end ResourceTuner
