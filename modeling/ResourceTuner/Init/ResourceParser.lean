import ResourceTuner.Init.KeyTracker
import ResourceTuner.Init.ResourceConfigInfoBuilder
import ResourceTuner.Lib.EventLoop

/-!
# The parser of resource configurations

`parseResourceConfigYamlNode` of `RestuneParser.cpp`, from the first event of libyaml on, and the
documents it is written for.  The error code is that of the whole file: nothing takes it back when an
entry ends.

* **`step`**, **`parseResourceConfigYamlNode`** — the loop;
* **`Entry`**, **`document`** — the documents;
* **`reaches_entry`** — the events of an entry are builder calls.
-/

namespace ResourceTuner.ResourceParser

open RestuneParser (Event ErrCode Grants isKey isKeyTypeList addToBuilder runCalls hear hearItems)
open EventLoop (Reaches)

/-! ## The loop -/

/-- What the loop carries, and the calls of `registerResource`, one after the other. -/
structure State where
  rc : ErrCode
  docMarker : Bool
  parsingResource : Bool
  keyTracker : List String
  resourceConfigInfoBuilder : Option ResourceConfigInfoBuilder
  registered : List (Option ResourceConfig)
  deriving DecidableEq, Repr

abbrev Outcome := EventLoop.Outcome State (ErrCode × List (Option ResourceConfig))

/-- The method of the builder under a key. -/
def resourceMethod (host : Host) (topKey value : String) :
    Option (ResourceConfigInfoBuilder → ErrCode × ResourceConfigInfoBuilder) :=
  if topKey = "ResType" then some (·.setResType value)
  else if topKey = "ResID" then some (·.setResID value)
  else if topKey = "Name" then some (·.setName value)
  else if topKey = "Path" then some (·.setPath host value)
  else if topKey = "Supported" then some (·.setSupported value)
  else if topKey = "HighThreshold" then some (·.setHighThreshold value)
  else if topKey = "LowThreshold" then some (·.setLowThreshold value)
  else if topKey = "Permissions" then some (·.setPermissions value)
  else if topKey = "Policy" then some (·.setPolicy value)
  else if topKey = "Unit" then some (·.setTranslationUnit value)
  else if topKey = "ApplyType" then some (·.setApplyType value)
  else if topKey = "Modes" then some (·.setModes value)
  else if topKey = "TargetsEnabled" then some (·.addTargetEnabled host.targetName value)
  else if topKey = "TargetsDisabled" then some (·.addTargetDisabled host.targetName value)
  else none

/-- A scalar under a key. -/
def addScalar (host : Host) (s : State) (topKey value : String) : State :=
  match resourceMethod host topKey value, s.resourceConfigInfoBuilder with
  | some method, some builder =>
    let made := addToBuilder method (s.rc, builder)
    { s with rc := made.1, resourceConfigInfoBuilder := some made.2 }
  | _, _ => s

/-- What is registered for an entry: one that is not in order, or not for this device, gets no type. -/
def finish (made : ErrCode × ResourceConfigInfoBuilder) : Option ResourceConfig :=
  if made.1 ≠ .RC_SUCCESS ∨ made.2.mTargetRefCount < 0 then (made.2.setResType "0").2.build
  else made.2.build

/-- One event. -/
def step (host : Host) (s : State) : Event → Outcome
  | .streamEnd => .returned (s.rc, s.registered)
  | .mappingStart grants =>
    if !s.docMarker then .running { s with docMarker := true }
    else if grants.builder then
      .running { s with resourceConfigInfoBuilder := some (.new grants), parsingResource := true }
    else .returned (.RC_YAML_PARSING_ERROR, s.registered)
  | .mappingEnd _ =>
    if s.parsingResource then
      match s.resourceConfigInfoBuilder with
      | none => .fault
      | some builder =>
        .running
          { s with
            parsingResource := false
            resourceConfigInfoBuilder := none
            registered := s.registered ++ [finish (s.rc, builder)] }
    else .running s
  | .sequenceEnd =>
    match s.keyTracker with
    | [] => .returned (.RC_YAML_INVALID_SYNTAX, s.registered)
    | _ :: keyTracker => .running { s with keyTracker := keyTracker }
  | .scalar value _ =>
    match hear s.keyTracker value with
    | .key keyTracker => .running { s with keyTracker := keyTracker }
    | .unexpected => .returned (.RC_YAML_INVALID_SYNTAX, s.registered)
    | .data topKey keyTracker =>
      .running (addScalar host { s with keyTracker := keyTracker } topKey value)
  | _ => .running s

/-- The state before the first event. -/
def State.initial : State where
  rc := .RC_SUCCESS
  docMarker := false
  parsingResource := false
  keyTracker := []
  resourceConfigInfoBuilder := none
  registered := []

/-- `parseResourceConfigYamlNode` on the events of a file.  Where there are no more, libyaml has found
an error. -/
def parseResourceConfigYamlNode (host : Host) (events : List Event) : Outcome :=
  EventLoop.run (step host) (fun s => (.RC_YAML_PARSING_ERROR, s.registered)) .initial events

/-! ## Documents -/

/-- The keys of a resource. -/
inductive Key where
  | ResType | ResID | Name | Path | Supported | HighThreshold | LowThreshold | Permissions | Policy
  | Unit | ApplyType | Modes | TargetsEnabled | TargetsDisabled
  deriving DecidableEq, Repr

def Key.text : Key → String
  | .ResType => "ResType"
  | .ResID => "ResID"
  | .Name => "Name"
  | .Path => "Path"
  | .Supported => "Supported"
  | .HighThreshold => "HighThreshold"
  | .LowThreshold => "LowThreshold"
  | .Permissions => "Permissions"
  | .Policy => "Policy"
  | .Unit => "Unit"
  | .ApplyType => "ApplyType"
  | .Modes => "Modes"
  | .TargetsEnabled => "TargetsEnabled"
  | .TargetsDisabled => "TargetsDisabled"

/-- The keys that may have a list. -/
inductive ListKey where
  | Permissions | Modes | TargetsEnabled | TargetsDisabled
  deriving DecidableEq, Repr

def ListKey.key : ListKey → Key
  | .Permissions => .Permissions
  | .Modes => .Modes
  | .TargetsEnabled => .TargetsEnabled
  | .TargetsDisabled => .TargetsDisabled

/-- A key with its value. -/
inductive Field where
  | scalar (key : Key) (value : String)
  | list (key : ListKey) (items : List String)
  deriving DecidableEq, Repr

/-- A resource of a document, with the answers to the requests for memory at its start. -/
structure Entry where
  opened : Grants
  fields : List Field
  deriving DecidableEq, Repr

def item (text : String) : Event := .scalar text .all

def Field.events : Field → List Event
  | .scalar key value => [item key.text, item value]
  | .list key items =>
    item key.key.text :: .sequenceStart :: (items.map item ++ [.sequenceEnd])

/-- The events of an entry up to the end of its mapping. -/
def Entry.content (entry : Entry) : List Event :=
  .mappingStart entry.opened :: entry.fields.flatMap Field.events

def Entry.events (entry : Entry) : List Event := entry.content ++ [.mappingEnd .all]

def RESOURCE_CONFIGS_ROOT : String := "ResourceConfigs"

/-- The events in front of the first entry, and those behind the last one. -/
def opening : List Event :=
  [.streamStart, .documentStart, .mappingStart .all, item RESOURCE_CONFIGS_ROOT, .sequenceStart]

def closing : List Event := [.sequenceEnd, .mappingEnd .all, .documentEnd, .streamEnd]

/-- The events of a whole document. -/
def document (entries : List Entry) : List Event :=
  opening ++ (entries.flatMap Entry.events ++ closing)

/-! ## Entries as builder calls -/

/-- The data of a field, each with the key the parser takes it for. -/
def Field.heard : Field → List (String × String)
  | .scalar key value => if isKey value then [] else [(key.text, value)]
  | .list key items => (hearItems [key.key.text] items).1

def Entry.heard (entry : Entry) : List (String × String) := entry.fields.flatMap Field.heard

/-- The calls for some data. -/
def calls (host : Host) (heard : List (String × String)) :
    List (ResourceConfigInfoBuilder → ErrCode × ResourceConfigInfoBuilder) :=
  heard.filterMap fun datum => resourceMethod host datum.1 datum.2

/-- The calls of an entry, under an error code. -/
def Entry.run (host : Host) (rc : ErrCode) (entry : Entry) : ErrCode × ResourceConfigInfoBuilder :=
  runCalls (calls host entry.heard) (rc, .new entry.opened)

/-- The loop in an entry. -/
def inEntry (registered : List (Option ResourceConfig)) (keyTracker : List String)
    (made : ErrCode × ResourceConfigInfoBuilder) : State where
  rc := made.1
  docMarker := true
  parsingResource := true
  keyTracker := keyTracker
  resourceConfigInfoBuilder := some made.2
  registered := registered

/-- The loop between two entries. -/
def betweenEntries (registered : List (Option ResourceConfig)) (keyTracker : List String)
    (rc : ErrCode) : State where
  rc := rc
  docMarker := true
  parsingResource := false
  keyTracker := keyTracker
  resourceConfigInfoBuilder := none
  registered := registered

section Runs

variable {host : Host} {registered : List (Option ResourceConfig)} {keyTracker : List String}
  {made : ErrCode × ResourceConfigInfoBuilder}

theorem isKey_key (key : Key) : isKey key.text = true := by cases key <;> decide

theorem isKeyTypeList_listKey (key : ListKey) : isKeyTypeList key.key.text = true := by
  cases key <;> decide

theorem calls_append (heard heard' : List (String × String)) :
    calls host (heard ++ heard') = calls host heard ++ calls host heard' := List.filterMap_append

/-- A datum is its call, if there is one. -/
theorem addScalar_inEntry (topKey value : String) :
    addScalar host (inEntry registered keyTracker made) topKey value =
      inEntry registered keyTracker (runCalls (calls host [(topKey, value)]) made) := by
  rw [addScalar, calls, List.filterMap_cons]
  cases resourceMethod host topKey value with
  | none => rfl
  | some method => rfl

theorem step_item (host : Host) (registered : List (Option ResourceConfig)) (keyTracker : List String)
    (made : ErrCode × ResourceConfigInfoBuilder) (value : String) : step host (inEntry registered keyTracker made) (item value) =
    match hear keyTracker value with
    | .key keyTracker => .running (inEntry registered keyTracker made)
    | .unexpected => .returned (.RC_YAML_INVALID_SYNTAX, registered)
    | .data topKey keyTracker =>
      .running (inEntry registered keyTracker (runCalls (calls host [(topKey, value)]) made)) := by
  simp only [← addScalar_inEntry]
  rfl

/-- The elements of a list are the calls of what is heard of them. -/
theorem reaches_items (host : Host) (registered : List (Option ResourceConfig))
    (made : ErrCode × ResourceConfigInfoBuilder) (key : ListKey) (above base items : List String) :
    Reaches (step host) (inEntry registered (above ++ key.key.text :: base) made) (items.map item)
      (inEntry registered (hearItems (above ++ key.key.text :: base) items).2
        (runCalls (calls host (hearItems (above ++ key.key.text :: base) items).1) made)) := by
  induction items generalizing above made with
  | nil => exact .nil _
  | cons value items ih =>
    have hstep := step_item host registered (above ++ key.key.text :: base) made value
    simp only [hearItems]
    rcases RestuneParser.hear_above (isKeyTypeList_listKey key) above value with
      ⟨above', h, -⟩ | ⟨topKey, above', h, -⟩
    · rw [h] at hstep ⊢
      exact .cons hstep (ih made above')
    · rw [h] at hstep ⊢
      refine .cons hstep ?_
      have hsplit : calls host ((topKey, value) ::
          (hearItems (above' ++ key.key.text :: base) items).1) =
          calls host [(topKey, value)] ++
            calls host (hearItems (above' ++ key.key.text :: base) items).1 :=
        calls_append [(topKey, value)] _
      simp only [hsplit, RestuneParser.runCalls_append]
      exact ih _ above'

/-- A field is its calls.  It may leave keys on the stack, and takes none off that was there. -/
theorem reaches_field (host : Host) (registered : List (Option ResourceConfig))
    (made : ErrCode × ResourceConfigInfoBuilder) (base : List String) (field : Field) :
    ∃ above, Reaches (step host) (inEntry registered base made) field.events
      (inEntry registered (above ++ base) (runCalls (calls host field.heard) made)) := by
  cases field with
  | scalar key value =>
    have hkey := step_item host registered base made key.text
    rw [RestuneParser.hear_key (isKey_key key)] at hkey
    have hvalue := step_item host registered (key.text :: base) made value
    rw [Field.heard]
    cases hplain : isKey value with
    | true =>
      rw [RestuneParser.hear_key hplain] at hvalue
      exact ⟨[value, key.text], .cons hkey (.single hvalue)⟩
    | false =>
      cases hlist : isKeyTypeList key.text with
      | true =>
        rw [RestuneParser.hear_list hplain hlist] at hvalue
        exact ⟨[key.text], .cons hkey (.single hvalue)⟩
      | false =>
        rw [RestuneParser.hear_value hplain hlist] at hvalue
        exact ⟨[], .cons hkey (.single hvalue)⟩
  | list key items =>
    have hkey := step_item host registered base made key.key.text
    rw [RestuneParser.hear_key (isKey_key key.key)] at hkey
    have hitems := reaches_items host registered made key [] base items
    obtain ⟨above, hleft, hheard⟩ :=
      RestuneParser.hearItems_above (isKeyTypeList_listKey key) items [] base
    rw [hheard, hleft] at hitems
    cases above with
    | nil => exact ⟨[], .cons hkey (.cons rfl (hitems.append (.single rfl)))⟩
    | cons top above =>
      refine ⟨above ++ [key.key.text], .cons hkey (.cons rfl (hitems.append (.single ?_)))⟩
      rw [List.append_assoc, List.singleton_append]
      rfl

theorem reaches_fields (host : Host) (registered : List (Option ResourceConfig))
    (made : ErrCode × ResourceConfigInfoBuilder) (base : List String) (fields : List Field) :
    ∃ above, Reaches (step host) (inEntry registered base made) (fields.flatMap Field.events)
      (inEntry registered (above ++ base)
        (runCalls (calls host (fields.flatMap Field.heard)) made)) := by
  induction fields generalizing made base with
  | nil => exact ⟨[], .nil _⟩
  | cons field fields ih =>
    obtain ⟨above, hfield⟩ := reaches_field host registered made base field
    obtain ⟨above', hfields⟩ := ih (runCalls (calls host field.heard) made) (above ++ base)
    refine ⟨above' ++ above, ?_⟩
    rw [List.flatMap_cons, List.flatMap_cons, calls_append, RestuneParser.runCalls_append,
      List.append_assoc]
    exact hfield.append hfields

/-- **An entry is its calls**, under the error code that is there when it begins. -/
theorem reaches_content (host : Host) (registered : List (Option ResourceConfig)) (rc : ErrCode)
    (base : List String) {entry : Entry} (hbuilder : entry.opened.builder = true) :
    ∃ above, Reaches (step host) (betweenEntries registered base rc) entry.content
      (inEntry registered (above ++ base) (entry.run host rc)) := by
  obtain ⟨above, hfields⟩ := reaches_fields host registered (rc, .new entry.opened) base entry.fields
  refine ⟨above, .cons ?_ hfields⟩
  simp only [step, betweenEntries, hbuilder]
  rfl

theorem reaches_entry (host : Host) (registered : List (Option ResourceConfig)) (rc : ErrCode)
    (base : List String) {entry : Entry} (hbuilder : entry.opened.builder = true) :
    ∃ above, Reaches (step host) (betweenEntries registered base rc) entry.events
      (betweenEntries (registered ++ [finish (entry.run host rc)]) (above ++ base)
        (entry.run host rc).1) := by
  obtain ⟨above, hcontent⟩ := reaches_content host registered rc base hbuilder
  exact ⟨above, hcontent.append (.single rfl)⟩

theorem step_mappingStart_unallocated (host : Host) (registered : List (Option ResourceConfig))
    (rc : ErrCode) (base : List String) {grants : Grants} (hbuilder : grants.builder = false) :
    step host (betweenEntries registered base rc) (.mappingStart grants) =
      .returned (.RC_YAML_PARSING_ERROR, registered) := by
  simp only [step, betweenEntries, hbuilder]
  rfl

end Runs

end ResourceTuner.ResourceParser
