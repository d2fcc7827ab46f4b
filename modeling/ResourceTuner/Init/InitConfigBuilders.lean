import ResourceTuner.Core.TargetRegistry
import ResourceTuner.Signals.SignalBuilder

/-!
# The builders of initial configurations

`CGroupConfigInfoBuilder`, `MpamGroupConfigInfoBuilder` and `CacheInfoBuilder` of `TargetRegistry.cpp`,
and what the registry checks before it takes what they built.
-/

namespace ResourceTuner

open Numerals
open RestuneParser (ErrCode Grants)

/-- A call on the object of a builder, which fails when there is none. -/
def onObject {α : Type} (object : Option α) (call : α → ErrCode × α) : ErrCode × Option α :=
  match object with
  | none => (.RC_MEMORY_ALLOCATION_FAILURE, none)
  | some a => ((call a).1, some (call a).2)

/-- A number is set if there is one, otherwise what is left is `other`. -/
def setIfNumber {α : Type} (numberString : String) (set : Int → α) (other : α) : ErrCode × α :=
  match stoi 10 numberString with
  | none => (.RC_INVALID_VALUE, other)
  | some n => (.RC_SUCCESS, set n)

/-! ## Cgroups -/

/-- `struct CGroupConfigInfo` with its flags. -/
structure CGroupConfig where
  info : CGroupConfigInfo
  mCreationNeeded : Bool
  mIsThreaded : Bool
  deriving DecidableEq, Repr

/-- `class CGroupConfigInfoBuilder`. -/
structure CGroupConfigInfoBuilder where
  mCGroupConfigInfo : Option CGroupConfig
  deriving DecidableEq, Repr

namespace CGroupConfigInfoBuilder

def new (grants : Grants) : CGroupConfigInfoBuilder where
  mCGroupConfigInfo := if grants.content then some ⟨⟨"", -1⟩, false, false⟩ else none

def withConfig (b : CGroupConfigInfoBuilder) (call : CGroupConfig → ErrCode × CGroupConfig) :
    ErrCode × CGroupConfigInfoBuilder :=
  ((onObject b.mCGroupConfigInfo call).1, ⟨(onObject b.mCGroupConfigInfo call).2⟩)

def setCGroupName (b : CGroupConfigInfoBuilder) (name : String) :
    ErrCode × CGroupConfigInfoBuilder :=
  b.withConfig fun config => (.RC_SUCCESS, { config with info.mCgroupName := name })

/-- The id is cleared first. -/
def setCGroupID (b : CGroupConfigInfoBuilder) (cGroupIDString : String) :
    ErrCode × CGroupConfigInfoBuilder :=
  b.withConfig fun config =>
    setIfNumber cGroupIDString (fun n => { config with info.mCgroupID := n })
      { config with info.mCgroupID := -1 }

def setCreationNeeded (b : CGroupConfigInfoBuilder) (creationNeededString : String) :
    ErrCode × CGroupConfigInfoBuilder :=
  b.withConfig fun config =>
    (.RC_SUCCESS, { config with mCreationNeeded := creationNeededString = "true" })

def setThreaded (b : CGroupConfigInfoBuilder) (isThreadedString : String) :
    ErrCode × CGroupConfigInfoBuilder :=
  b.withConfig fun config => (.RC_SUCCESS, { config with mIsThreaded := isThreadedString = "true" })

def build (b : CGroupConfigInfoBuilder) : Option CGroupConfig := b.mCGroupConfigInfo

end CGroupConfigInfoBuilder

/-! ## Mpam groups -/

/-- `struct MpamGroupConfigInfo`. -/
structure MpamGroupConfigInfo where
  mMpamGroupName : String
  mMpamGroupInfoID : Int
  mPriority : Int
  deriving DecidableEq, Repr

/-- `class MpamGroupConfigInfoBuilder`. -/
structure MpamGroupConfigInfoBuilder where
  mMpamGroupInfo : Option MpamGroupConfigInfo
  deriving DecidableEq, Repr

namespace MpamGroupConfigInfoBuilder

def new (grants : Grants) : MpamGroupConfigInfoBuilder where
  mMpamGroupInfo := if grants.content then some ⟨"", -1, 0⟩ else none

def withInfo (b : MpamGroupConfigInfoBuilder)
    (call : MpamGroupConfigInfo → ErrCode × MpamGroupConfigInfo) :
    ErrCode × MpamGroupConfigInfoBuilder :=
  ((onObject b.mMpamGroupInfo call).1, ⟨(onObject b.mMpamGroupInfo call).2⟩)

def setName (b : MpamGroupConfigInfoBuilder) (name : String) :
    ErrCode × MpamGroupConfigInfoBuilder :=
  b.withInfo fun info => (.RC_SUCCESS, { info with mMpamGroupName := name })

def setLgcID (b : MpamGroupConfigInfoBuilder) (logicalIDString : String) :
    ErrCode × MpamGroupConfigInfoBuilder :=
  b.withInfo fun info =>
    setIfNumber logicalIDString (fun n => { info with mMpamGroupInfoID := n }) info

def setPriority (b : MpamGroupConfigInfoBuilder) (priorityString : String) :
    ErrCode × MpamGroupConfigInfoBuilder :=
  b.withInfo fun info => setIfNumber priorityString (fun n => { info with mPriority := n }) info

def build (b : MpamGroupConfigInfoBuilder) : Option MpamGroupConfigInfo := b.mMpamGroupInfo

end MpamGroupConfigInfoBuilder

/-! ## Caches -/

/-- `struct CacheInfo`. -/
structure CacheInfo where
  mCacheType : String
  mNumCacheBlocks : Int
  mPriorityAware : Bool
  deriving DecidableEq, Repr

/-- `class CacheInfoBuilder`. -/
structure CacheInfoBuilder where
  mCacheInfo : Option CacheInfo
  deriving DecidableEq, Repr

namespace CacheInfoBuilder

def new (grants : Grants) : CacheInfoBuilder where
  mCacheInfo := if grants.content then some ⟨"", -1, false⟩ else none

def withInfo (b : CacheInfoBuilder) (call : CacheInfo → ErrCode × CacheInfo) :
    ErrCode × CacheInfoBuilder :=
  ((onObject b.mCacheInfo call).1, ⟨(onObject b.mCacheInfo call).2⟩)

def setType (b : CacheInfoBuilder) (type : String) : ErrCode × CacheInfoBuilder :=
  b.withInfo fun info => (.RC_SUCCESS, { info with mCacheType := type })

def setNumBlocks (b : CacheInfoBuilder) (numBlocksString : String) : ErrCode × CacheInfoBuilder :=
  b.withInfo fun info =>
    setIfNumber numBlocksString (fun n => { info with mNumCacheBlocks := n }) info

def setPriorityAware (b : CacheInfoBuilder) (isPriorityAwareString : String) :
    ErrCode × CacheInfoBuilder :=
  b.withInfo fun info =>
    (.RC_SUCCESS, { info with mPriorityAware := isPriorityAwareString = "true" })

def build (b : CacheInfoBuilder) : Option CacheInfo := b.mCacheInfo

end CacheInfoBuilder

/-! ## Registration -/

/-- A call of `addCGroupMapping`, `addMpamGroupMapping` or `addCacheInfoMapping`. -/
inductive InitRegistration where
  | cGroup (config : Option CGroupConfig)
  | mpamGroup (info : Option MpamGroupConfigInfo)
  | cache (info : Option CacheInfo)
  deriving DecidableEq, Repr

/-- The registry takes it: there is an object, with a name and an id, or a type and a number of
blocks. -/
def InitRegistration.taken : InitRegistration → Bool
  | .cGroup (some config) => config.info.mCgroupID ≠ -1 && config.info.mCgroupName.length ≠ 0
  | .mpamGroup (some info) => info.mMpamGroupInfoID ≠ -1 && info.mMpamGroupName.length ≠ 0
  | .cache (some info) => info.mCacheType.length ≠ 0 && info.mNumCacheBlocks ≠ -1
  | _ => false

end ResourceTuner
