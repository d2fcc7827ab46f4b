import ResourceTuner.Common.Resource
import ResourceTuner.Lib.IndexedTable

/-!
# Signal registry

`SignalRegistry.cpp`: the table of signal configurations and the map from 64-bit keys (the signal
code in the upper half, the signal type in the lower) to rows of the table.
-/

namespace ResourceTuner

open IndexedTable (Indexed)

/-- `SignalInfo`.  The lists are pointers in the source, null until the first element is added; a
resource in its list may itself be null. -/
structure SignalInfo where
  mSignalCategory : BitVec 8
  mSignalID : BitVec 16
  mSigType : BitVec 32
  mTimeout : Int
  mPermissions : Option (List Permissions)
  mSignalResources : Option (List (Option Resource))
  mSignalName : String := ""
  mDerivatives : Option (List String) := none
  deriving DecidableEq, Repr

/-- `class SignalRegistry`; every key has a row of its own. -/
structure SignalRegistry where
  mTotalSignals : Nat
  mSignalsConfigs : List SignalInfo
  mSILMappings : UnorderedMap (BitVec 64) Nat
  indexed : Indexed mSILMappings mSignalsConfigs mTotalSignals

namespace SignalRegistry

def empty : SignalRegistry where
  mTotalSignals := 0
  mSignalsConfigs := []
  mSILMappings := ∅
  indexed := .empty

/-- The 64-bit key of a signal code and type. -/
def signalBitmap (sigCode sigType : BitVec 32) : BitVec 64 :=
  (sigCode.setWidth 64 <<< 32) ||| sigType.setWidth 64

def customBit : BitVec 64 := 1 <<< 63

/-- `getSignalConfigById` of a key, `none` for the null pointer. -/
def getSignalConfigByKey (reg : SignalRegistry) (sigID : BitVec 64) : Option SignalInfo :=
  (reg.mSILMappings.lookup sigID).bind fun i => reg.mSignalsConfigs[i]?

/-- `getSignalConfigById` of a code and a type. -/
def getSignalConfigById (reg : SignalRegistry) (sigCode sigType : BitVec 32) : Option SignalInfo :=
  (reg.mSILMappings.lookup (signalBitmap sigCode sigType)).bind fun i => reg.mSignalsConfigs[i]?

/-- `registerSignal`.  A configuration without a category is malformed and dropped; a key that is
already there is overwritten, and moved under its custom key when the new configuration is
custom. -/
def registerSignal (reg : SignalRegistry) (signalInfo : SignalInfo) (isBuSpecified : Bool) :
    SignalRegistry :=
  let key := signalBitmap
    (signalInfo.mSignalID.setWidth 32 ||| (signalInfo.mSignalCategory.setWidth 32 <<< 16))
    signalInfo.mSigType
  if signalInfo.mSignalCategory = 0 then reg
  else
    match h : reg.mSILMappings.lookup key with
    | some i =>
      { reg with
        mSignalsConfigs := reg.mSignalsConfigs.set i signalInfo
        mSILMappings :=
          if isBuSpecified then (reg.mSILMappings.erase key).insert (key ||| customBit) i
          else reg.mSILMappings
        indexed := by
          split
          · exact (reg.indexed.set i signalInfo).rekey h _
          · exact reg.indexed.set i signalInfo }
    | none =>
      { mTotalSignals := reg.mTotalSignals + 1
        mSignalsConfigs := reg.mSignalsConfigs ++ [signalInfo]
        mSILMappings := reg.mSILMappings.insert (if isBuSpecified then key ||| customBit else key)
          reg.mTotalSignals
        indexed := reg.indexed.append _ _ }

end SignalRegistry

end ResourceTuner
