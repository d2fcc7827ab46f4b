import ResourceTuner.Lib.EventLoop
import ResourceTuner.Lib.YamlStream
import ResourceTuner.Signals.RestuneParser

/-!
# The parser of configurations of apps

`AppConfigBuilder` of `AppConfigs.cpp` and `parsePerAppConfigYamlNode` of `RestuneParser.cpp`.  The
items of a list are collected and handed to the builder when the list ends: those of `Threads` in pairs,
a thread and its group, those of `Configurations` one by one.  The first call that fails ends the parser.

* **`AppConfig`**, **`AppConfigBuilder`** — an app and its calls;
* **`step`**, **`parsePerAppConfigYamlNode`** — the loop.

A list is taken to have fewer items than a signed number can count.
-/

namespace ResourceTuner.PerAppParser

open Numerals
open RestuneParser (ErrCode Grants isKey addToBuilder)

/-! ## Apps -/

/-- `AppConfig`.  The arrays are pointers in the source, null until there is a number of elements; what
has not been written in an array of numbers is `none`. -/
structure AppConfig where
  mAppName : String
  mNumThreads : Int
  mThreadNameList : Option (List String)
  mCGroupIds : Option (List (Option Int))
  mNumSignals : Int
  mSignalCodes : Option (List (Option (BitVec 32)))
  deriving DecidableEq, Repr

/-- `class AppConfigBuilder`. -/
structure AppConfigBuilder where
  mAppConfig : Option AppConfig
  deriving DecidableEq, Repr

namespace AppConfigBuilder

/-- The constructor. -/
def new (grants : Grants) : AppConfigBuilder where
  mAppConfig :=
    if grants.content then
      some {
        mAppName := ""
        mNumThreads := 0
        mThreadNameList := none
        mCGroupIds := none
        mNumSignals := 0
        mSignalCodes := none }
    else none

/-- A call on the app, which fails when there is none. -/
def withConfig (b : AppConfigBuilder) (call : AppConfig → ErrCode × AppConfig) :
    ErrCode × AppConfigBuilder :=
  match b.mAppConfig with
  | none => (.RC_MEMORY_ALLOCATION_FAILURE, b)
  | some config => ((call config).1, ⟨some (call config).2⟩)

def setAppName (b : AppConfigBuilder) (name : String) : ErrCode × AppConfigBuilder :=
  b.withConfig fun config => (.RC_SUCCESS, { config with mAppName := name })

/-- The two arrays are allocated one after the other; what `new` throws is caught. -/
def setNumThreads (b : AppConfigBuilder) (grants : Grants) (threadCnt : Nat) :
    ErrCode × AppConfigBuilder :=
  b.withConfig fun config =>
    if !grants.vector then (.RC_INVALID_VALUE, { config with mNumThreads := threadCnt })
    else if !grants.element then
      (.RC_INVALID_VALUE,
        { config with
          mNumThreads := threadCnt
          mThreadNameList := some (List.replicate threadCnt "") })
    else
      (.RC_SUCCESS,
        { config with
          mNumThreads := threadCnt
          mThreadNameList := some (List.replicate threadCnt "")
          mCGroupIds := some (List.replicate threadCnt none) })

/-- The group of a text: a number or one of the names. -/
def cGroupID (cGroup : String) : Int :=
  match stoi 10 cGroup with
  | some n => n
  | none =>
    match getResCodeFromString cGroup with
    | some resCode => resCode.toInt
    | none => -1

def addThreadMapping (b : AppConfigBuilder) (index : Nat) (threadName cGroup : String) :
    ErrCode × AppConfigBuilder :=
  b.withConfig fun config =>
    match config.mThreadNameList with
    | none => (.RC_MEMORY_ALLOCATION_FAILURE, config)
    | some names =>
      if cGroupID cGroup ≠ -1 then
        (.RC_SUCCESS,
          { config with
            mThreadNameList := some (names.set index threadName)
            mCGroupIds := config.mCGroupIds.map (·.set index (some (cGroupID cGroup))) })
      else (.RC_INVALID_VALUE, config)

def setNumSigCodes (b : AppConfigBuilder) (grants : Grants) (count : Nat) :
    ErrCode × AppConfigBuilder :=
  b.withConfig fun config =>
    if !grants.vector then (.RC_INVALID_VALUE, { config with mNumSignals := count })
    else
      (.RC_SUCCESS,
        { config with
          mNumSignals := count
          mSignalCodes := some (List.replicate count none) })

def addSigCode (b : AppConfigBuilder) (index : Nat) (sigCodeStr : String) :
    ErrCode × AppConfigBuilder :=
  b.withConfig fun config =>
    match config.mSignalCodes with
    | none => (.RC_MEMORY_ALLOCATION_FAILURE, config)
    | some codes =>
      match stol 0 sigCodeStr with
      | none => (.RC_INVALID_VALUE, config)
      | some n =>
        (.RC_SUCCESS,
          { config with mSignalCodes := some (codes.set index (some (BitVec.ofInt 32 n))) })

def build (b : AppConfigBuilder) : Option AppConfig := b.mAppConfig

end AppConfigBuilder

/-! ## The loop -/

/-- What the loop carries, and the calls of `registerAppConfig`, one after the other. -/
structure State where
  rc : ErrCode
  docMarker : Bool
  inThreadList : Bool
  inConfigList : Bool
  itemArray : List String
  keyTracker : List String
  appConfigBuider : Option AppConfigBuilder
  registered : List (Option AppConfig)
  deriving DecidableEq, Repr

abbrev Outcome := EventLoop.Outcome State (ErrCode × List (Option AppConfig))

/-- Where a list leaves the builder: with all its items, with an error, or at an item that is not there. -/
inductive Added where
  | added (rc : ErrCode) (builder : AppConfigBuilder)
  | failed
  | outOfRange
  deriving DecidableEq, Repr

/-- The loop over the items of `Threads`, two at a time. -/
def addThreads (rc : ErrCode) (builder : AppConfigBuilder) (listIndex : Nat) : List String → Added
  | [] => .added rc builder
  | [_] => if rc = .RC_SUCCESS then .outOfRange else .added rc builder
  | threadName :: cGroup :: items =>
    if rc = .RC_SUCCESS then
      let made := builder.addThreadMapping listIndex threadName cGroup
      if made.1 = .RC_SUCCESS then addThreads made.1 made.2 (listIndex + 1) items else .failed
    else addThreads rc builder listIndex items

/-- The loop over the items of `Configurations`. -/
def addSigCodes (rc : ErrCode) (builder : AppConfigBuilder) (i : Nat) : List String → Added
  | [] => .added rc builder
  | sigCodeStr :: items =>
    if rc = .RC_SUCCESS then
      let made := builder.addSigCode i sigCodeStr
      if made.1 = .RC_SUCCESS then addSigCodes made.1 made.2 (i + 1) items else .failed
    else addSigCodes rc builder (i + 1) items

/-- The number of items is told before the items. -/
def addItems (setNumItems : AppConfigBuilder → ErrCode × AppConfigBuilder)
    (add : ErrCode → AppConfigBuilder → List String → Added) (rc : ErrCode)
    (builder : AppConfigBuilder) (items : List String) : Added :=
  let made := addToBuilder setNumItems (rc, builder)
  if rc = .RC_SUCCESS ∧ made.1 ≠ .RC_SUCCESS then .failed else add made.1 made.2 items

/-- The end of a list of items; after an error nothing is called. -/
def finishList (s : State) (add : AppConfigBuilder → Added) (left : State → State) : Outcome :=
  match s.appConfigBuider with
  | none => if s.rc = .RC_SUCCESS then .fault else .running (left s)
  | some builder =>
    match add builder with
    | .added rc builder => .running (left { s with rc := rc, appConfigBuider := some builder })
    | .failed => .returned (.RC_YAML_INVALID_SYNTAX, s.registered)
    | .outOfRange => .fault

/-- A scalar under a key. -/
def addScalar (s : State) (topKey value : String) : Outcome :=
  if topKey = "App" then
    if s.rc = .RC_SUCCESS then
      match s.appConfigBuider with
      | none => .fault
      | some builder =>
        let made := builder.setAppName value
        if made.1 = .RC_SUCCESS then .running { s with rc := made.1, appConfigBuider := some made.2 }
        else .returned (.RC_YAML_INVALID_SYNTAX, s.registered)
    else .running s
  else if topKey = "Threads" ∨ topKey = "Configurations" then
    .running { s with itemArray := s.itemArray ++ [value] }
  else .running s

/-- One event, with the answers to the requests for memory it leads to.  The top of an empty stack, a
builder that is null, an item that is not there and an exception that nothing catches are faults. -/
def step (s : State) : Yaml.Event × Grants → Outcome
  | (.streamEnd, _) => .returned (s.rc, s.registered)
  | (.mappingStart, grants) =>
    if !s.docMarker then .running { s with docMarker := true }
    else
      match s.keyTracker with
      | [] => .fault
      | topKey :: _ =>
        if topKey = "PerAppConfigs" ∧ s.appConfigBuider = none then
          -- unlike in the other parsers `new` throws
          if grants.builder then .running { s with appConfigBuider := some (.new grants) } else .fault
        else .running s
  | (.mappingEnd, _) =>
    match s.keyTracker with
    | [] => .running s
    | topKey :: _ =>
      if topKey = "PerAppConfigs" then
        match s.appConfigBuider with
        | none => .fault
        | some builder =>
          .running
            { s with
              appConfigBuider := none
              registered := s.registered ++ [builder.build] }
      else .running s
  | (.sequenceStart, _) =>
    match s.keyTracker with
    | [] => .returned (.RC_YAML_INVALID_SYNTAX, s.registered)
    | topKey :: _ =>
      if topKey = "Threads" then .running { s with inThreadList := true }
      else if topKey = "Configurations" then .running { s with inConfigList := true }
      else .running s
  | (.sequenceEnd, grants) =>
    match s.keyTracker with
    | [] => .returned (.RC_YAML_INVALID_SYNTAX, s.registered)
    | _ :: keyTracker =>
      if s.inThreadList then
        finishList s
          (addItems (·.setNumThreads grants (s.itemArray.length / 2))
            (fun rc builder => addThreads rc builder 0) s.rc · s.itemArray)
          fun s => { s with keyTracker := keyTracker, itemArray := [], inThreadList := false }
      else if s.inConfigList then
        finishList s
          (addItems (·.setNumSigCodes grants s.itemArray.length)
            (fun rc builder => addSigCodes rc builder 0) s.rc · s.itemArray)
          fun s => { s with keyTracker := keyTracker, itemArray := [], inConfigList := false }
      else .running { s with keyTracker := keyTracker }
  | (.scalar value, _) =>
    if isKey value then .running { s with keyTracker := value :: s.keyTracker }
    else
      match s.keyTracker with
      | [] => .returned (.RC_YAML_INVALID_SYNTAX, s.registered)
      | topKey :: keyTracker =>
        addScalar (if !s.inConfigList && !s.inThreadList then { s with keyTracker := keyTracker } else s)
          topKey value
  | _ => .running s

/-- The state before the first event. -/
def State.initial : State where
  rc := .RC_SUCCESS
  docMarker := false
  inThreadList := false
  inConfigList := false
  itemArray := []
  keyTracker := []
  appConfigBuider := none
  registered := []

/-- `parsePerAppConfigYamlNode` on the events of a file.  Where there are no more, libyaml has found an
error. -/
def parsePerAppConfigYamlNode (events : List (Yaml.Event × Grants)) : Outcome :=
  EventLoop.run step (fun s => (.RC_YAML_PARSING_ERROR, s.registered)) .initial events

end ResourceTuner.PerAppParser
