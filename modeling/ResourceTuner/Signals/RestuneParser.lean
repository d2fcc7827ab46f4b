import ResourceTuner.Signals.RegistryMaps
import ResourceTuner.Signals.SignalBuilder

/-!
# The parser of signal configurations

`parseSignalConfigYamlNode` of `RestuneParser.cpp`, from the first event of libyaml on.  It reads the
events one by one, with a stack of the keys it is under, a sticky error code, and the builders of the
signal and of the resource it is in.

* **`State`** — what the loop carries;
* **`step`** — one event;
* **`parseSignalConfigYamlNode`** — the loop.
-/

namespace ResourceTuner.RestuneParser

/-- The events, with the answers to the requests for memory they lead to. -/
inductive Event where
  | streamStart
  | streamEnd
  | documentStart
  | documentEnd
  | alias
  | mappingStart (grants : Grants)
  | mappingEnd (grants : Grants)
  | sequenceStart
  | sequenceEnd
  | scalar (value : String) (grants : Grants)
  deriving DecidableEq, Repr

/-! ## Keys -/

def SIGNAL_CONFIGS_ROOT : String := "SignalConfigs"

/-- The keys `isKey` knows.  The type of a signal is not among them. -/
def keys : List String :=
  ["TargetConfig", "TargetName", "ClusterInfo", "LgcId", "PhyId", "ClusterSpread", "NumCores",
    "ResourceConfigs", "ResType", "ResID", "Name", "Path", "Supported", "HighThreshold",
    "LowThreshold", "Permissions", "Modes", "Policy", "Unit", "ApplyType", "TargetsEnabled",
    "TargetsDisabled", "InitConfigs", "CgroupsInfo", "Name", "ID", "Create", "IsThreaded",
    "ClusterMap", "Id", "Type", "MPAMgroupsInfo", "Name", "ID", "Priority", "CacheInfo", "Type",
    "NumCacheBlocks", "PriorityAware", "SignalConfigs", "SigId", "Category", "Name", "Enable",
    "Timeout", "TargetsEnabled", "Permissions", "TargetsDisabled", "Resources", "Derivatives",
    "ResCode", "ResInfo", "Values", "FeatureConfigs", "FeatId", "LibPath", "Name", "Description",
    "Signals", "PerAppConfigs", "App", "Threads", "Configurations"]

def isKey (keyName : String) : Bool := keys.contains keyName

/-- The keys that stay on the stack until their sequence ends. -/
def isKeyTypeList (keyName : String) : Bool :=
  ["TargetName", "ClusterInfo", "ClusterSpread", "ClusterMap", "CgroupsInfo", "MPAMgroupsInfo",
    "CacheInfo", "Modes", "TargetsEnabled", "TargetsDisabled", "Permissions", "Derivatives",
    "Resources", "Values", "Signals"].contains keyName

/-! ## The loop -/

/-- What the loop carries, and the signal registry. -/
structure State where
  rc : ErrCode
  docMarker : Bool
  parsingSignal : Bool
  inResourcesMap : Bool
  keyTracker : List String
  resValues : List String
  signalInfoBuilder : Option SignalInfoBuilder
  resourceBuilder : Option ResourceBuilder
  registry : SignalRegistry

/-- Where an event leaves the parser: in the loop, returned, or with a builder that is null. -/
inductive Outcome where
  | running (s : State)
  | returned (rc : ErrCode) (registry : SignalRegistry)
  | fault

/-- A call on a builder, which is left out once there is an error. -/
def addToBuilder {β : Type} (call : β → ErrCode × β) (made : ErrCode × β) : ErrCode × β :=
  if made.1 = .RC_SUCCESS then call made.2 else made

/-- The method of the signal builder under a key. -/
def signalMethod (targetName topKey value : String) (grants : Grants) :
    Option (SignalInfoBuilder → ErrCode × SignalInfoBuilder) :=
  if topKey = "TargetsEnabled" then some (·.addTargetEnabled targetName value)
  else if topKey = "TargetsDisabled" then some (·.addTargetDisabled targetName value)
  else if topKey = "Permissions" then some (·.addPermission grants value)
  else if topKey = "Derivatives" then some (·.addDerivative grants value)
  else if topKey = "SigId" then some (·.setSignalID value)
  else if topKey = "Category" then some (·.setSignalCategory value)
  else if topKey = "SigType" then some (·.setSignalType value)
  else if topKey = "Name" then some (·.setName value)
  else if topKey = "Timeout" then some (·.setTimeout value)
  else if topKey = "Enable" then some (·.setIsEnabled value)
  else none

/-- The method of the resource builder under a key. -/
def resourceMethod (topKey value : String) : Option (ResourceBuilder → ErrCode × ResourceBuilder) :=
  if topKey = "ResCode" then some (·.setResCode value)
  else if topKey = "ResInfo" then some (·.setResInfo value)
  else none

/-- A scalar under a key. -/
def addScalar (targetName : String) (s : State) (topKey value : String) (grants : Grants) : State :=
  match signalMethod targetName topKey value grants, s.signalInfoBuilder with
  | some method, some builder =>
    let made := addToBuilder method (s.rc, builder)
    { s with rc := made.1, signalInfoBuilder := some made.2 }
  | _, _ =>
    match resourceMethod topKey value, s.resourceBuilder with
    | some method, some builder =>
      let made := addToBuilder method (s.rc, builder)
      { s with rc := made.1, resourceBuilder := some made.2 }
    | _, _ =>
      if topKey = "Values" then { s with resValues := s.resValues ++ [value] } else s

/-- The calls for the values of a resource. -/
def valueCalls (resValues : List String) : List (ResourceBuilder → ErrCode × ResourceBuilder) :=
  (·.setNumValues resValues.length) :: resValues.mapIdx fun idx value => (·.addValue idx value)

/-- Calls on a builder one after the other. -/
def runCalls {β : Type} (calls : List (β → ErrCode × β)) (made : ErrCode × β) : ErrCode × β :=
  calls.foldl (fun made call => addToBuilder call made) made

/-- One event. -/
def step (isBuSpecified : Bool) (targetName : String) (s : State) : Event → Outcome
  | .streamEnd => .returned s.rc s.registry
  | .mappingStart grants =>
    if !s.docMarker then .running { s with docMarker := true }
    else
      match s.keyTracker with
      | [] => .returned .RC_YAML_INVALID_SYNTAX s.registry
      | topKey :: _ =>
        if topKey = "Resources" then
          if grants.builder then
            .running { s with inResourcesMap := true, resourceBuilder := some (.new grants) }
          else .returned .RC_YAML_PARSING_ERROR s.registry
        else
          if grants.builder then
            .running { s with parsingSignal := true, signalInfoBuilder := some (.new grants) }
          else .returned .RC_YAML_PARSING_ERROR s.registry
  | .mappingEnd grants =>
    if s.inResourcesMap then
      if s.rc = .RC_SUCCESS then
        match s.signalInfoBuilder, s.resourceBuilder with
        | some builder, some resourceBuilder =>
          let made := builder.addResource grants resourceBuilder.build
          .running
            { s with
              inResourcesMap := false
              rc := made.1
              signalInfoBuilder := some made.2
              resourceBuilder := none }
        | _, _ => .fault
      else .running { s with inResourcesMap := false }
    else if s.parsingSignal then
      match s.signalInfoBuilder with
      | none => .fault
      | some builder =>
        -- an entry with an error gets no category, and the registry drops it
        let made := if s.rc = .RC_SUCCESS then (s.rc, builder) else builder.setSignalCategory "0"
        .running
          { s with
            parsingSignal := false
            rc := made.1
            signalInfoBuilder := none
            registry := s.registry.register ⟨made.2.build, isBuSpecified⟩ }
    else .running s
  | .sequenceEnd =>
    match s.keyTracker with
    | [] => .returned .RC_YAML_INVALID_SYNTAX s.registry
    | topKey :: keyTracker =>
      if topKey = "Values" then
        match s.resourceBuilder with
        | none =>
          if s.rc = .RC_SUCCESS then .fault
          else .running { s with keyTracker := keyTracker, resValues := [] }
        | some builder =>
          let made := runCalls (valueCalls s.resValues) (s.rc, builder)
          .running
            { s with
              keyTracker := keyTracker
              rc := made.1
              resourceBuilder := some made.2
              resValues := [] }
      else .running { s with keyTracker := keyTracker }
  | .scalar value grants =>
    if isKey value then .running { s with keyTracker := value :: s.keyTracker }
    else
      match s.keyTracker with
      | [] => .returned .RC_YAML_INVALID_SYNTAX s.registry
      | topKey :: keyTracker =>
        let s := if isKeyTypeList topKey then s else { s with keyTracker := keyTracker }
        .running (addScalar targetName s topKey value grants)
  | _ => .running s

/-- The events from a state on.  Where there are no more, libyaml has found an error. -/
def parseEvents (isBuSpecified : Bool) (targetName : String) : State → List Event → Outcome
  | s, [] => .returned .RC_YAML_PARSING_ERROR s.registry
  | s, event :: events =>
    match step isBuSpecified targetName s event with
    | .running s => parseEvents isBuSpecified targetName s events
    | outcome => outcome

/-- `parseSignalConfigYamlNode` on the events of a file; `targetName` is the target of the settings. -/
def parseSignalConfigYamlNode (isBuSpecified : Bool) (targetName : String)
    (registry : SignalRegistry) (events : List Event) : Outcome :=
  parseEvents isBuSpecified targetName
    { rc := .RC_SUCCESS
      docMarker := false
      parsingSignal := false
      inResourcesMap := false
      keyTracker := []
      resValues := []
      signalInfoBuilder := none
      resourceBuilder := none
      registry := registry } events

end ResourceTuner.RestuneParser
