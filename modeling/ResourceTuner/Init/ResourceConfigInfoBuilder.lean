import ResourceTuner.Core.ResourceRegistry
import ResourceTuner.Signals.SignalBuilder

/-!
# The builder of resource configurations

`ResourceConfigInfoBuilder` of `ResourceRegistry.cpp`.  As the builders of signals it is handed the
texts of a file one by one.  Whether the resource is meant for this device is kept in one number.

* **`ResourceConfig`** — a configuration with its display name;
* **`ResourceConfigInfoBuilder`** — the object and its calls.
-/

namespace ResourceTuner

open Numerals
open RestuneParser (ErrCode Grants)

/-- `struct ResConfInfo` with its display name. -/
structure ResourceConfig where
  mResourceName : String
  conf : ResConfInfo
  deriving DecidableEq, Repr

/-- What a builder reads of its surroundings: the name of the target, and the file system with the entries of the
directories that can be opened. -/
structure Host where
  targetName : String
  directory : String → Option (List String)
  fileExists : String → Bool

/-- `class ResourceConfigInfoBuilder`. -/
structure ResourceConfigInfoBuilder where
  mResourceConfigInfo : Option ResourceConfig
  mTargetRefCount : Int
  deriving DecidableEq, Repr

namespace ResourceConfigInfoBuilder

/-- The constructor. -/
def new (grants : Grants) : ResourceConfigInfoBuilder where
  mTargetRefCount := 0
  mResourceConfigInfo :=
    if grants.content then
      some {
        mResourceName := ""
        conf := {
          mResourcePath := ""
          mResourceResType := 0
          mResourceResID := 0
          mHighThreshold := -1
          mLowThreshold := -1
          mPermissions := .PERMISSION_THIRD_PARTY
          mModes := 0
          mApplyType := .APPLY_GLOBAL
          mPolicy := .LAZY_APPLY
          mResourceApplierCallback := none
          mUnit := .U_NA
          mResourceTearCallback := none } }
    else none

/-- A call on the object, which fails when there is none. -/
def withConfig (b : ResourceConfigInfoBuilder) (call : ResourceConfig → ErrCode × ResourceConfig) :
    ErrCode × ResourceConfigInfoBuilder :=
  match b.mResourceConfigInfo with
  | none => (.RC_INVALID_VALUE, b)
  | some config => ((call config).1, { b with mResourceConfigInfo := some (call config).2 })

def setName (b : ResourceConfigInfoBuilder) (name : String) : ErrCode × ResourceConfigInfoBuilder :=
  b.withConfig fun config => (.RC_SUCCESS, { config with mResourceName := name })

/-! ### Paths -/

/-- The part of a token in front of the first slash, and what is behind it. -/
def splitPattern (token : List Char) : List Char × List Char :=
  (token.takeWhile (· ≠ '/'), (token.dropWhile (· ≠ '/')).drop 1)

/-- The file in a directory for an entry whose name ends with the pattern. -/
def matchingFile (host : Host) (directory : String) (keyMatch remFilePath : List Char)
    (dirName : String) : Option String :=
  if keyMatch.length < dirName.toList.length ∧ keyMatch <:+ dirName.toList then
    let filePath := directory ++ "/" ++ dirName ++ "/" ++ String.ofList remFilePath
    if host.fileExists filePath then some filePath else none
  else none

/-- The path that is kept: with a `*` in it the first file that matches, if there is one. -/
def resolvePath (host : Host) (path : String) : String :=
  match getlines '*' path.toList with
  | directory :: token :: _ =>
    match host.directory (String.ofList directory) with
    | none => path
    | some entries =>
      (entries.findSome? (matchingFile host (String.ofList directory) (splitPattern token).1
        (splitPattern token).2)).getD path
  | _ => path

def setPath (b : ResourceConfigInfoBuilder) (host : Host) (path : String) :
    ErrCode × ResourceConfigInfoBuilder :=
  b.withConfig fun config =>
    (.RC_SUCCESS, { config with conf.mResourcePath := resolvePath host path })

/-! ### Numbers -/

/-- A field that is cleared first and then set to a number, if there is one. -/
def setNumber (b : ResourceConfigInfoBuilder) (cleared : Int) (numberString : String)
    (set : Int → ResConfInfo → ResConfInfo) : ErrCode × ResourceConfigInfoBuilder :=
  b.withConfig fun config =>
    match stoi 0 numberString with
    | none => (.RC_INVALID_VALUE, { config with conf := set cleared config.conf })
    | some n => (.RC_SUCCESS, { config with conf := set n config.conf })

def setResType (b : ResourceConfigInfoBuilder) (resTypeString : String) :
    ErrCode × ResourceConfigInfoBuilder :=
  b.setNumber (-1) resTypeString fun n conf => { conf with mResourceResType := BitVec.ofInt 8 n }

def setResID (b : ResourceConfigInfoBuilder) (resIDString : String) :
    ErrCode × ResourceConfigInfoBuilder :=
  b.setNumber 0 resIDString fun n conf => { conf with mResourceResID := BitVec.ofInt 16 n }

def setHighThreshold (b : ResourceConfigInfoBuilder) (highThresholdString : String) :
    ErrCode × ResourceConfigInfoBuilder :=
  b.setNumber 0 highThresholdString fun n conf => { conf with mHighThreshold := n }

def setLowThreshold (b : ResourceConfigInfoBuilder) (lowThresholdString : String) :
    ErrCode × ResourceConfigInfoBuilder :=
  b.setNumber 0 lowThresholdString fun n conf => { conf with mLowThreshold := n }

/-! ### Enumerations -/

/-- A field that is set to the value of a text.  The empty text has the default, any other that is
not known is an error. -/
def setChoice {α : Type} (b : ResourceConfigInfoBuilder) (choices : List (String × α)) (default : α)
    (text : String) (set : α → ResConfInfo → ResConfInfo) : ErrCode × ResourceConfigInfoBuilder :=
  b.withConfig fun config =>
    match choices.lookup text with
    | some choice => (.RC_SUCCESS, { config with conf := set choice config.conf })
    | none =>
      if text.length ≠ 0 then (.RC_INVALID_VALUE, config)
      else (.RC_SUCCESS, { config with conf := set default config.conf })

def setPermissions (b : ResourceConfigInfoBuilder) (permissionString : String) :
    ErrCode × ResourceConfigInfoBuilder :=
  b.setChoice [("system", .PERMISSION_SYSTEM), ("third_party", .PERMISSION_THIRD_PARTY)]
    .PERMISSION_THIRD_PARTY permissionString fun permissions conf =>
      { conf with mPermissions := permissions }

/-- The modes add up; the empty text adds none. -/
def setModes (b : ResourceConfigInfoBuilder) (modeString : String) :
    ErrCode × ResourceConfigInfoBuilder :=
  b.setChoice [("display_on", MODE_RESUME), ("display_off", MODE_SUSPEND), ("doze", MODE_DOZE)] 0
    modeString fun mode conf => { conf with mModes := conf.mModes ||| mode }

def setPolicy (b : ResourceConfigInfoBuilder) (policyString : String) :
    ErrCode × ResourceConfigInfoBuilder :=
  b.setChoice [("higher_is_better", .HIGHER_BETTER), ("lower_is_better", .LOWER_BETTER),
    ("lazy_apply", .LAZY_APPLY), ("instant_apply", .INSTANT_APPLY), ("pass_through", .PASS_THROUGH)]
    .LAZY_APPLY policyString fun policy conf => { conf with mPolicy := policy }

def setTranslationUnit (b : ResourceConfigInfoBuilder) (unitString : String) :
    ErrCode × ResourceConfigInfoBuilder :=
  b.setChoice [("KB", .U_KB), ("kb", .U_KB), ("MB", .U_MB), ("mb", .U_MB), ("GB", .U_GB),
    ("gb", .U_GB), ("KHz", .U_KHz), ("khz", .U_KHz), ("MHz", .U_MHz), ("mhz", .U_MHz),
    ("GHz", .U_GHz), ("ghz", .U_GHz), ("Hz", .U_Hz), ("hz", .U_Hz), ("byte", .U_BYTE), ("NA", .U_NA),
    ("na", .U_NA)]
    .U_NA unitString fun unit conf => { conf with mUnit := unit }

def setApplyType (b : ResourceConfigInfoBuilder) (applyTypeString : String) :
    ErrCode × ResourceConfigInfoBuilder :=
  b.setChoice [("global", .APPLY_GLOBAL), ("core", .APPLY_CORE), ("cluster", .APPLY_CLUSTER),
    ("cgroup", .APPLY_CGROUP)]
    .APPLY_GLOBAL applyTypeString fun applyType conf => { conf with mApplyType := applyType }

/-! ### Targets -/

def setSupported (b : ResourceConfigInfoBuilder) (supportedString : String) :
    ErrCode × ResourceConfigInfoBuilder :=
  if b.mResourceConfigInfo = none then (.RC_INVALID_VALUE, b)
  else if supportedString ≠ "true" then
    (.RC_SUCCESS, { b with mTargetRefCount := unsupportedResoure })
  else (.RC_SUCCESS, b)

/-- `addTargetEnabled` and `addTargetDisabled`, which differ in the counts they leave. -/
def addTarget (b : ResourceConfigInfoBuilder) (targetName target : String) (first found : Int) :
    ErrCode × ResourceConfigInfoBuilder :=
  if b.mResourceConfigInfo = none then (.RC_MEMORY_ALLOCATION_FAILURE, b)
  else if b.mTargetRefCount = unsupportedResoure then (.RC_RESOURCE_NOT_SUPPORTED, b)
  else
    let count := if b.mTargetRefCount = 0 then first else b.mTargetRefCount
    (.RC_SUCCESS, { b with mTargetRefCount := if target = targetName then found else count })

def addTargetEnabled (b : ResourceConfigInfoBuilder) (targetName target : String) :
    ErrCode × ResourceConfigInfoBuilder := b.addTarget targetName target (-1) 1

def addTargetDisabled (b : ResourceConfigInfoBuilder) (targetName target : String) :
    ErrCode × ResourceConfigInfoBuilder := b.addTarget targetName target 1 (-1)

def build (b : ResourceConfigInfoBuilder) : Option ResourceConfig := b.mResourceConfigInfo

end ResourceConfigInfoBuilder

end ResourceTuner
