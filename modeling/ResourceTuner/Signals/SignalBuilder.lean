import ResourceTuner.Signals.SignalRegistry
import ResourceTuner.Lib.Numerals

/-!
# Builders of signal configurations

`SignalInfoBuilder` and `ResourceBuilder` of `SignalRegistry.cpp`.  The parser hands them the texts of
a configuration file one by one; a call answers with an error code, and a call that fails may have
changed the object before.

* **`SignalInfoBuilder`**, **`ResourceBuilder`** — the objects and their calls.

The array of a resource with more than two values is taken to be there, as in `Resource`.
-/

namespace ResourceTuner

open Numerals

namespace RestuneParser

/-- The error codes of the builders and the parser. -/
inductive ErrCode where
  | RC_SUCCESS
  | RC_YAML_PARSING_ERROR
  | RC_YAML_INVALID_SYNTAX
  | RC_MEMORY_ALLOCATION_FAILURE
  | RC_INVALID_VALUE
  | RC_RESOURCE_NOT_SUPPORTED
  deriving DecidableEq, Repr

/-- What the requests for memory of one event are answered: for a builder, for what its constructor
allocates, for a vector and for room for one more element. -/
structure Grants where
  builder : Bool
  content : Bool
  vector : Bool
  element : Bool
  deriving DecidableEq, Repr

end RestuneParser

open RestuneParser (ErrCode Grants)

/-- `new(std::nothrow) std::vector` under a null test. -/
def allocateVector {α : Type} (vector : Option (List α)) (grants : Grants) : Option (List α) :=
  match vector with
  | none => if grants.vector then some [] else none
  | some elements => some elements

/-- `push_back` under a null test; what it throws is caught. -/
def pushBack {α : Type} (vector : Option (List α)) (grants : Grants) (element : α)
    (onNull : ErrCode) : ErrCode × Option (List α) :=
  match vector with
  | none => (onNull, none)
  | some elements =>
    if grants.element then (.RC_SUCCESS, some (elements ++ [element]))
    else (.RC_INVALID_VALUE, some elements)

/-! ## Signals -/

/-- `class SignalInfoBuilder`. -/
structure SignalInfoBuilder where
  mSignalInfo : Option SignalInfo
  mTargetRefCount : Int
  deriving DecidableEq, Repr

def unsupportedResoure : Int := -2

namespace SignalInfoBuilder

/-- The constructor. -/
def new (grants : Grants) : SignalInfoBuilder where
  mTargetRefCount := 0
  mSignalInfo :=
    if grants.content then
      some {
        mSignalID := 0
        mSignalCategory := 0
        mSigType := 0
        mSignalName := ""
        mTimeout := 1
        mDerivatives := none
        mPermissions := none
        mSignalResources := none }
    else none

/-- A call on the object, which fails when there is none. -/
def withInfo (b : SignalInfoBuilder) (call : SignalInfo → ErrCode × SignalInfo) :
    ErrCode × SignalInfoBuilder :=
  match b.mSignalInfo with
  | none => (.RC_MEMORY_ALLOCATION_FAILURE, b)
  | some info => ((call info).1, { b with mSignalInfo := some (call info).2 })

/-- A field that is cleared first and then set to a number, if there is one. -/
def setNumber (b : SignalInfoBuilder) (number : Option Int) (set : Int → SignalInfo → SignalInfo) :
    ErrCode × SignalInfoBuilder :=
  b.withInfo fun info =>
    match number with
    | none => (.RC_INVALID_VALUE, set 0 info)
    | some n => (.RC_SUCCESS, set n info)

def setSignalID (b : SignalInfoBuilder) (signalIdString : String) : ErrCode × SignalInfoBuilder :=
  b.setNumber (stoi 0 signalIdString) fun n info => { info with mSignalID := BitVec.ofInt 16 n }

def setSignalCategory (b : SignalInfoBuilder) (categoryString : String) :
    ErrCode × SignalInfoBuilder :=
  b.setNumber (stoi 0 categoryString) fun n info =>
    { info with mSignalCategory := BitVec.ofInt 8 n }

def setSignalType (b : SignalInfoBuilder) (typeString : String) : ErrCode × SignalInfoBuilder :=
  b.setNumber (stol 0 typeString) fun n info => { info with mSigType := BitVec.ofInt 32 n }

def setName (b : SignalInfoBuilder) (signalName : String) : ErrCode × SignalInfoBuilder :=
  b.withInfo fun info => (.RC_SUCCESS, { info with mSignalName := signalName })

/-- Unlike the other numbers the timeout keeps its value when there is no new one, and is decimal. -/
def setTimeout (b : SignalInfoBuilder) (timeoutString : String) : ErrCode × SignalInfoBuilder :=
  b.withInfo fun info =>
    match stoi 10 timeoutString with
    | none => (.RC_INVALID_VALUE, info)
    | some n => (.RC_SUCCESS, { info with mTimeout := n })

def setIsEnabled (b : SignalInfoBuilder) (isEnabledString : String) :
    ErrCode × SignalInfoBuilder :=
  if b.mSignalInfo = none then (.RC_MEMORY_ALLOCATION_FAILURE, b)
  else if isEnabledString ≠ "true" then
    (.RC_SUCCESS, { b with mTargetRefCount := unsupportedResoure })
  else (.RC_SUCCESS, b)

/-- The permission of a text, `none` for one that is neither known nor empty. -/
def permissionOf (permissionString : String) : Option Permissions :=
  if permissionString = "system" then some .PERMISSION_SYSTEM
  else if permissionString = "third_party" then some .PERMISSION_THIRD_PARTY
  else if permissionString.length ≠ 0 then none
  else some .PERMISSION_THIRD_PARTY

/-- The vector is allocated before the text is looked at. -/
def addPermission (b : SignalInfoBuilder) (grants : Grants) (permissionString : String) :
    ErrCode × SignalInfoBuilder :=
  b.withInfo fun info =>
    let permissions := allocateVector info.mPermissions grants
    match permissionOf permissionString with
    | none => (.RC_INVALID_VALUE, { info with mPermissions := permissions })
    | some permission =>
      let pushed := pushBack permissions grants permission .RC_INVALID_VALUE
      (pushed.1, { info with mPermissions := pushed.2 })

/-- `addTargetEnabled` and `addTargetDisabled`, which differ in the counts they leave. -/
def addTarget (b : SignalInfoBuilder) (targetName target : String) (first found : Int) :
    ErrCode × SignalInfoBuilder :=
  if b.mSignalInfo = none then (.RC_MEMORY_ALLOCATION_FAILURE, b)
  else if b.mTargetRefCount = unsupportedResoure then (.RC_RESOURCE_NOT_SUPPORTED, b)
  else
    let count := if b.mTargetRefCount = 0 then first else b.mTargetRefCount
    (.RC_SUCCESS, { b with mTargetRefCount := if target = targetName then found else count })

def addTargetEnabled (b : SignalInfoBuilder) (targetName target : String) :
    ErrCode × SignalInfoBuilder := b.addTarget targetName target (-1) 1

def addTargetDisabled (b : SignalInfoBuilder) (targetName target : String) :
    ErrCode × SignalInfoBuilder := b.addTarget targetName target 1 (-1)

def addDerivative (b : SignalInfoBuilder) (grants : Grants) (derivative : String) :
    ErrCode × SignalInfoBuilder :=
  b.withInfo fun info =>
    let pushed := pushBack (allocateVector info.mDerivatives grants) grants derivative
      .RC_INVALID_VALUE
    (pushed.1, { info with mDerivatives := pushed.2 })

def addResource (b : SignalInfoBuilder) (grants : Grants) (resource : Option Resource) :
    ErrCode × SignalInfoBuilder :=
  if resource = none then (.RC_MEMORY_ALLOCATION_FAILURE, b)
  else
    b.withInfo fun info =>
      let pushed := pushBack (allocateVector info.mSignalResources grants) grants resource
        .RC_MEMORY_ALLOCATION_FAILURE
      (pushed.1, { info with mSignalResources := pushed.2 })

def build (b : SignalInfoBuilder) : Option SignalInfo := b.mSignalInfo

end SignalInfoBuilder

/-! ## Resources -/

/-- `resCodeMapping`. -/
def resCodeMapping : List (String × BitVec 32) :=
  [("RES_SCALE_MIN_FREQ", 0x00040000), ("RES_SCALE_MAX_FREQ", 0x00040001),
    ("RES_RATE_LIMIT_US", 0x00040002), ("RES_SCHED_UTIL_CLAMP_MIN", 0x00030000),
    ("RES_SCHED_UTIL_CLAMP_MAX", 0x00030001), ("RES_SCHED_ENERGY_AWARE", 0x00030002),
    ("RES_CPU_DMA_LATENCY", 0x00010000), ("RES_PM_QOS_LATENCY", 0x00010001),
    ("RES_DEVFREQ_GPU_MAX", 0x00050000), ("RES_DEVFREQ_GPU_MIN", 0x00050001),
    ("RES_DEVFREQ_GPU_POLL_INTV", 0x00050002), ("RES_DEVFREQ_UFS_MAX", 0x000a0000),
    ("RES_DEVFREQ_UFS_MIN", 0x000a0001), ("RES_DEVFREQ_UFS_POLL_INTV", 0x000a0002),
    ("RES_CGRP_MOVE_PID", 0x00090000), ("RES_CGRP_MOVE_TID", 0x00090001),
    ("RES_CGRP_RUN_CORES", 0x00090002), ("RES_CGRP_RUN_CORES_EXCL", 0x00090003),
    ("RES_CGRP_FREEZE", 0x00090004), ("RES_CGRP_LIMIT_CPU_TIME", 0x00090005),
    ("RES_CGRP_RUN_WHEN_CPU_IDLE", 0x00090006), ("RES_CGRP_UCLAMP_MIN", 0x00090007),
    ("RES_CGRP_UCLAMP_MAX", 0x00090008), ("RES_CGRP_REL_CPU_WEIGHT", 0x00090009),
    ("RES_CGRP_HIGH_MEM", 0x0009000a), ("RES_CGRP_MAX_MEM", 0x0009000b),
    ("RES_CGRP_LOW_MEM", 0x0009000c), ("RES_CGRP_MIN_MEM", 0x0009000d),
    ("RES_CGRP_SWAP_MAX_MEMORY", 0x0009000e), ("RES_CGRP_IO_WEIGHT", 0x0009000f),
    ("RES_CGRP_BFQ_IO_WEIGHT", 0x00090010), ("RES_CGRP_CPU_LATENCY", 0x00090011),
    ("FOCUSED_CGROUP_IDENTIFIER", 0x00000004), ("CLUSTER_LITTLE_ALL_CORES", 0x00000000),
    ("CLUSTER_LITTLE_CORE_0", 0x00000001), ("CLUSTER_LITTLE_CORE_1", 0x00000002),
    ("CLUSTER_LITTLE_CORE_2", 0x00000003), ("CLUSTER_LITTLE_CORE_3", 0x00000004),
    ("CLUSTER_BIG_ALL_CORES", 0x00000100), ("CLUSTER_BIG_CORE_0", 0x00000101),
    ("CLUSTER_BIG_CORE_1", 0x00000102), ("CLUSTER_BIG_CORE_2", 0x00000103),
    ("CLUSTER_BIG_CORE_3", 0x00000104), ("CLUSTER_PLUS_ALL_CORES", 0x00000200),
    ("CLUSTER_PLUS_CORE_0", 0x00000201), ("CLUSTER_PLUS_CORE_1", 0x00000202),
    ("CLUSTER_PLUS_CORE_2", 0x00000203), ("CLUSTER_PLUS_CORE_3", 0x00000204),
    ("DEFAULT_SIGNAL_TYPE", 0x00000000)]

/-- `getResCodeFromString`, `none` when the text is not found. -/
def getResCodeFromString (strCode : String) : Option (BitVec 32) := resCodeMapping.lookup strCode

/-- `class ResourceBuilder`. -/
structure ResourceBuilder where
  mResource : Option Resource
  deriving DecidableEq, Repr

namespace ResourceBuilder

/-- The constructor. -/
def new (grants : Grants) : ResourceBuilder :=
  ⟨if grants.content then some (.ofValues 0 0 0 []) else none⟩

/-- A call on the resource, which fails when there is none. -/
def withResource (b : ResourceBuilder) (call : Resource → ErrCode × Resource) :
    ErrCode × ResourceBuilder :=
  match b.mResource with
  | none => (.RC_MEMORY_ALLOCATION_FAILURE, b)
  | some resource => ((call resource).1, ⟨some (call resource).2⟩)

/-- The code of a text: a number or one of the names. -/
def resCodeOf (resCodeString : String) : Option (BitVec 32) :=
  match stol 0 resCodeString with
  | some n => some (BitVec.ofInt 32 n)
  | none => getResCodeFromString resCodeString

def setResCode (b : ResourceBuilder) (resCodeString : String) : ErrCode × ResourceBuilder :=
  b.withResource fun resource =>
    match resCodeOf resCodeString with
    | none => (.RC_INVALID_VALUE, resource)
    | some resCode => (.RC_SUCCESS, { resource with mResCode := resCode })

/-- The info word of a text, the same with a smaller range. -/
def resInfoOf (resInfoString : String) : Option (BitVec 32) :=
  match stoi 0 resInfoString with
  | some n => some (BitVec.ofInt 32 n)
  | none => getResCodeFromString resInfoString

def setResInfo (b : ResourceBuilder) (resInfoString : String) : ErrCode × ResourceBuilder :=
  b.withResource fun resource =>
    match resInfoOf resInfoString with
    | none => (.RC_INVALID_VALUE, resource)
    | some resInfo => (.RC_SUCCESS, { resource with mResInfo := resInfo })

/-- The array of more than two values is taken to be there.  Where it cannot be allocated the source goes
on with a null one, and the call succeeds all the same. -/
def setNumValues (b : ResourceBuilder) (valuesCount : Int) : ErrCode × ResourceBuilder :=
  b.withResource fun resource => (.RC_SUCCESS, resource.setNumValues valuesCount)

/-- What a text of a value is stored as; `%d` is a placeholder for an argument of the signal. -/
def valueOf (valueString : String) : Option Int :=
  if valueString ≠ "%d" then stoi 10 valueString else some (-1)

/-- The answer of `setValueAt` is not looked at: neither a bad index nor a null array makes the call
fail.  The array is taken to be there. -/
def addValue (b : ResourceBuilder) (index : Int) (valueString : String) :
    ErrCode × ResourceBuilder :=
  b.withResource fun resource =>
    match valueOf valueString with
    | none => (.RC_INVALID_VALUE, resource)
    | some value => (.RC_SUCCESS, resource.setValueAt index value)

def build (b : ResourceBuilder) : Option Resource := b.mResource

end ResourceBuilder

end ResourceTuner
