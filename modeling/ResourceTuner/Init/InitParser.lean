import ResourceTuner.Init.InitConfigBuilders
import ResourceTuner.Init.KeyTracker
import ResourceTuner.Lib.EventLoop

/-!
# The parser of initial configurations

`parseInitConfigYamlNode` of `RestuneParser.cpp`, from the first event of libyaml on, and the documents
it is written for.  It has a builder for each of its three lists, and tells by the key on top of its
stack which of them an entry belongs to.

* **`step`**, **`parseInitConfigYamlNode`** — the loop;
* **`Entry`**, **`document`** — the documents;
* **`reaches_entry`** — the events of an entry are builder calls.
-/

namespace ResourceTuner.InitParser

open RestuneParser (Event ErrCode Grants isKey isKeyTypeList addToBuilder hear)
open EventLoop (Reaches)

/-! ## The loop -/

/-- What the loop carries, and the calls of the registry, one after the other. -/
structure State where
  rc : ErrCode
  docMarker : Bool
  keyTracker : List String
  cGroupConfigBuilder : Option CGroupConfigInfoBuilder
  mpamGroupConfigBuilder : Option MpamGroupConfigInfoBuilder
  cacheInfoBuilder : Option CacheInfoBuilder
  registered : List InitRegistration
  deriving DecidableEq, Repr

abbrev Outcome := EventLoop.Outcome State (ErrCode × List InitRegistration)

def cGroupMethod (topKey value : String) :
    Option (CGroupConfigInfoBuilder → ErrCode × CGroupConfigInfoBuilder) :=
  if topKey = "Name" then some (·.setCGroupName value)
  else if topKey = "ID" then some (·.setCGroupID value)
  else if topKey = "Create" then some (·.setCreationNeeded value)
  else if topKey = "IsThreaded" then some (·.setThreaded value)
  else none

def mpamGroupMethod (topKey value : String) :
    Option (MpamGroupConfigInfoBuilder → ErrCode × MpamGroupConfigInfoBuilder) :=
  if topKey = "Name" then some (·.setName value)
  else if topKey = "ID" then some (·.setLgcID value)
  else if topKey = "Priority" then some (·.setPriority value)
  else none

def cacheMethod (topKey value : String) : Option (CacheInfoBuilder → ErrCode × CacheInfoBuilder) :=
  if topKey = "Type" then some (·.setType value)
  else if topKey = "NumCacheBlocks" then some (·.setNumBlocks value)
  else if topKey = "PriorityAware" then some (·.setPriorityAware value)
  else none

/-- A scalar under a key: the first builder that is there and has a method for it. -/
def addScalar (s : State) (topKey value : String) : State :=
  match cGroupMethod topKey value, s.cGroupConfigBuilder with
  | some method, some builder =>
    let made := addToBuilder method (s.rc, builder)
    { s with rc := made.1, cGroupConfigBuilder := some made.2 }
  | _, _ =>
    match mpamGroupMethod topKey value, s.mpamGroupConfigBuilder with
    | some method, some builder =>
      let made := addToBuilder method (s.rc, builder)
      { s with rc := made.1, mpamGroupConfigBuilder := some made.2 }
    | _, _ =>
      match cacheMethod topKey value, s.cacheInfoBuilder with
      | some method, some builder =>
        let made := addToBuilder method (s.rc, builder)
        { s with rc := made.1, cacheInfoBuilder := some made.2 }
      | _, _ => s

/-- What is registered for an entry of each list: one that is not in order gets no id. -/
def finishCGroup (rc : ErrCode) (builder : CGroupConfigInfoBuilder) : InitRegistration :=
  .cGroup (if rc = .RC_SUCCESS then builder else (builder.setCGroupID "-1").2).build

def finishMpamGroup (rc : ErrCode) (builder : MpamGroupConfigInfoBuilder) : InitRegistration :=
  .mpamGroup (if rc = .RC_SUCCESS then builder else (builder.setLgcID "-1").2).build

def finishCache (rc : ErrCode) (builder : CacheInfoBuilder) : InitRegistration :=
  .cache (if rc = .RC_SUCCESS then builder else ((builder.setType "").2.setNumBlocks "-1").2).build

/-- One event. -/
def step (s : State) : Event → Outcome
  | .streamEnd => .returned (s.rc, s.registered)
  | .mappingStart grants =>
    if !s.docMarker then .running { s with docMarker := true }
    else
      match s.keyTracker with
      | [] => .returned (.RC_YAML_INVALID_SYNTAX, s.registered)
      | topKey :: _ =>
        if topKey = "CgroupsInfo" then
          if grants.builder then .running { s with cGroupConfigBuilder := some (.new grants) }
          else .returned (.RC_MEMORY_ALLOCATION_FAILURE, s.registered)
        else if topKey = "MPAMgroupsInfo" then
          if grants.builder then .running { s with mpamGroupConfigBuilder := some (.new grants) }
          else .returned (.RC_MEMORY_ALLOCATION_FAILURE, s.registered)
        else if topKey = "CacheInfo" then
          if grants.builder then .running { s with cacheInfoBuilder := some (.new grants) }
          else .returned (.RC_MEMORY_ALLOCATION_FAILURE, s.registered)
        else .running s
  | .mappingEnd _ =>
    match s.keyTracker with
    | [] => .running s
    | topKey :: _ =>
      if topKey = "CgroupsInfo" then
        match s.cGroupConfigBuilder with
        | none => .fault
        | some builder =>
          .running
            { s with
              cGroupConfigBuilder := none
              registered := s.registered ++ [finishCGroup s.rc builder] }
      else if topKey = "MPAMgroupsInfo" then
        match s.mpamGroupConfigBuilder with
        | none => .fault
        | some builder =>
          .running
            { s with
              mpamGroupConfigBuilder := none
              registered := s.registered ++ [finishMpamGroup s.rc builder] }
      else if topKey = "CacheInfo" then
        match s.cacheInfoBuilder with
        | none => .fault
        | some builder =>
          .running
            { s with
              cacheInfoBuilder := none
              registered := s.registered ++ [finishCache s.rc builder] }
      else .running s
  | .sequenceEnd =>
    match s.keyTracker with
    | [] => .returned (.RC_YAML_INVALID_SYNTAX, s.registered)
    | _ :: keyTracker => .running { s with keyTracker := keyTracker }
  | .scalar value _ =>
    match hear s.keyTracker value with
    | .key keyTracker => .running { s with keyTracker := keyTracker }
    | .unexpected => .returned (.RC_YAML_INVALID_SYNTAX, s.registered)
    | .data topKey keyTracker => .running (addScalar { s with keyTracker := keyTracker } topKey value)
  | _ => .running s

/-- The state before the first event. -/
def State.initial : State where
  rc := .RC_SUCCESS
  docMarker := false
  keyTracker := []
  cGroupConfigBuilder := none
  mpamGroupConfigBuilder := none
  cacheInfoBuilder := none
  registered := []

/-- `parseInitConfigYamlNode` on the events of a file.  Where there are no more, libyaml has found an
error. -/
def parseInitConfigYamlNode (events : List Event) : Outcome :=
  EventLoop.run step (fun s => (.RC_YAML_PARSING_ERROR, s.registered)) .initial events

/-! ## Documents -/

/-- The lists of initial configurations. -/
inductive Section where
  | CgroupsInfo | MPAMgroupsInfo | CacheInfo
  deriving DecidableEq, Repr

def Section.text : Section → String
  | .CgroupsInfo => "CgroupsInfo"
  | .MPAMgroupsInfo => "MPAMgroupsInfo"
  | .CacheInfo => "CacheInfo"

/-- The keys of their entries. -/
inductive Key where
  | Name | ID | Create | IsThreaded | Priority | Type | NumCacheBlocks | PriorityAware
  deriving DecidableEq, Repr

def Key.text : Key → String
  | .Name => "Name"
  | .ID => "ID"
  | .Create => "Create"
  | .IsThreaded => "IsThreaded"
  | .Priority => "Priority"
  | .Type => "Type"
  | .NumCacheBlocks => "NumCacheBlocks"
  | .PriorityAware => "PriorityAware"

/-- An entry of a list, with the answers to the requests for memory at its start. -/
structure Entry where
  opened : Grants
  fields : List (Key × String)
  deriving DecidableEq, Repr

/-- A sequence of mappings of lists. -/
abbrev Document := List (List (Section × List Entry))

def item (text : String) : Event := .scalar text .all

def Entry.content (entry : Entry) : List Event :=
  entry.fields.flatMap fun field => [item field.1.text, item field.2]

def Entry.events (entry : Entry) : List Event :=
  .mappingStart entry.opened :: (entry.content ++ [.mappingEnd .all])

def listEvents (list : Section × List Entry) : List Event :=
  item list.1.text :: .sequenceStart :: (list.2.flatMap Entry.events ++ [.sequenceEnd])

def mappingEvents (lists : List (Section × List Entry)) : List Event :=
  .mappingStart .all :: (lists.flatMap listEvents ++ [.mappingEnd .all])

def INIT_CONFIGS_ROOT : String := "InitConfigs"

/-- The events of a whole document. -/
def document (doc : Document) : List Event :=
  [.streamStart, .documentStart, .mappingStart .all, item INIT_CONFIGS_ROOT, .sequenceStart] ++
    (doc.flatMap mappingEvents ++ [.sequenceEnd, .mappingEnd .all, .documentEnd, .streamEnd])

/-- The entries of a document in order, each with its list. -/
def entriesOf (doc : Document) : List (Section × Entry) :=
  doc.flatMap fun lists => lists.flatMap fun list => list.2.map fun entry => (list.1, entry)

/-! ## Entries as builder calls -/

/-- The builder of an entry. -/
inductive Builder where
  | cGroup (builder : CGroupConfigInfoBuilder)
  | mpamGroup (builder : MpamGroupConfigInfoBuilder)
  | cache (builder : CacheInfoBuilder)
  deriving DecidableEq, Repr

def Builder.new (grants : Grants) : Section → Builder
  | .CgroupsInfo => .cGroup (.new grants)
  | .MPAMgroupsInfo => .mpamGroup (.new grants)
  | .CacheInfo => .cache (.new grants)

/-- The call for a value, if the builder has one. -/
def Builder.call (made : ErrCode × Builder) (field : Key × String) : ErrCode × Builder :=
  match made.2 with
  | .cGroup builder =>
    match cGroupMethod field.1.text field.2 with
    | none => made
    | some method =>
      ((addToBuilder method (made.1, builder)).1, .cGroup (addToBuilder method (made.1, builder)).2)
  | .mpamGroup builder =>
    match mpamGroupMethod field.1.text field.2 with
    | none => made
    | some method =>
      ((addToBuilder method (made.1, builder)).1, .mpamGroup (addToBuilder method (made.1, builder)).2)
  | .cache builder =>
    match cacheMethod field.1.text field.2 with
    | none => made
    | some method =>
      ((addToBuilder method (made.1, builder)).1, .cache (addToBuilder method (made.1, builder)).2)

def Builder.finish (made : ErrCode × Builder) : InitRegistration :=
  match made.2 with
  | .cGroup builder => finishCGroup made.1 builder
  | .mpamGroup builder => finishMpamGroup made.1 builder
  | .cache builder => finishCache made.1 builder

/-- The list that a builder is for. -/
def Builder.list : Builder → Section
  | .cGroup _ => .CgroupsInfo
  | .mpamGroup _ => .MPAMgroupsInfo
  | .cache _ => .CacheInfo

/-- The calls of an entry, under an error code. -/
def Entry.run (list : Section) (rc : ErrCode) (entry : Entry) : ErrCode × Builder :=
  entry.fields.foldl Builder.call (rc, .new entry.opened list)

/-- No value is the name of a key. -/
def Entry.Plain (entry : Entry) : Prop := ∀ field ∈ entry.fields, isKey field.2 = false

/-- The loop in an entry. -/
def inEntry (registered : List InitRegistration) (keyTracker : List String)
    (made : ErrCode × Builder) : State where
  rc := made.1
  docMarker := true
  keyTracker := keyTracker
  cGroupConfigBuilder := match made.2 with | .cGroup builder => some builder | _ => none
  mpamGroupConfigBuilder := match made.2 with | .mpamGroup builder => some builder | _ => none
  cacheInfoBuilder := match made.2 with | .cache builder => some builder | _ => none
  registered := registered

/-- The loop between two entries. -/
def betweenEntries (registered : List InitRegistration) (keyTracker : List String) (rc : ErrCode) :
    State where
  rc := rc
  docMarker := true
  keyTracker := keyTracker
  cGroupConfigBuilder := none
  mpamGroupConfigBuilder := none
  cacheInfoBuilder := none
  registered := registered

section Runs

theorem isKey_key (key : Key) : isKey key.text = true := by cases key <;> decide

theorem isKeyTypeList_key (key : Key) : isKeyTypeList key.text = false := by cases key <;> decide

theorem isKey_section (list : Section) : isKey list.text = true := by cases list <;> decide

theorem addScalar_inEntry (registered : List InitRegistration) (keyTracker : List String)
    (made : ErrCode × Builder) (field : Key × String) :
    addScalar (inEntry registered keyTracker made) field.1.text field.2 =
      inEntry registered keyTracker (Builder.call made field) := by
  unfold addScalar Builder.call
  generalize cGroupMethod field.1.text field.2 = cGroup
  generalize mpamGroupMethod field.1.text field.2 = mpamGroup
  generalize cacheMethod field.1.text field.2 = cache
  obtain ⟨rc, builder⟩ := made
  cases builder <;> cases cGroup <;> cases mpamGroup <;> cases cache <;> rfl

/-- A key and a value that is none are one call. -/
theorem reaches_field (registered : List InitRegistration) (keyTracker : List String)
    (made : ErrCode × Builder) {field : Key × String} (hplain : isKey field.2 = false) :
    Reaches step (inEntry registered keyTracker made) [item field.1.text, item field.2]
      (inEntry registered keyTracker (Builder.call made field)) := by
  have hkey : step (inEntry registered keyTracker made) (item field.1.text) =
      .running (inEntry registered (field.1.text :: keyTracker) made) := by
    have hhear : hear keyTracker field.1.text = .key (field.1.text :: keyTracker) :=
      RestuneParser.hear_key (isKey_key field.1)
    simp only [step, item, inEntry, hhear]
  have hvalue : step (inEntry registered (field.1.text :: keyTracker) made) (item field.2) =
      .running (addScalar (inEntry registered keyTracker made) field.1.text field.2) := by
    have hhear : hear (field.1.text :: keyTracker) field.2 = .data field.1.text keyTracker :=
      RestuneParser.hear_value hplain (isKeyTypeList_key field.1)
    simp only [step, item, inEntry, hhear]
  rw [addScalar_inEntry] at hvalue
  exact .cons hkey (.single hvalue)

theorem reaches_content (registered : List InitRegistration) (keyTracker : List String)
    (made : ErrCode × Builder) {fields : List (Key × String)}
    (hplain : ∀ field ∈ fields, isKey field.2 = false) :
    Reaches step (inEntry registered keyTracker made)
      (fields.flatMap fun field => [item field.1.text, item field.2])
      (inEntry registered keyTracker (fields.foldl Builder.call made)) := by
  induction fields generalizing made with
  | nil => exact .nil _
  | cons field fields ih =>
    rw [List.forall_mem_cons] at hplain
    exact (reaches_field registered keyTracker made hplain.1).append (ih _ hplain.2)

theorem list_call (made : ErrCode × Builder) (field : Key × String) :
    (Builder.call made field).2.list = made.2.list := by
  obtain ⟨rc, builder⟩ := made
  unfold Builder.call
  cases builder with
  | cGroup builder => cases cGroupMethod field.1.text field.2 <;> rfl
  | mpamGroup builder => cases mpamGroupMethod field.1.text field.2 <;> rfl
  | cache builder => cases cacheMethod field.1.text field.2 <;> rfl

theorem list_run (list : Section) (rc : ErrCode) (entry : Entry) :
    (entry.run list rc).2.list = list := by
  have hfold : ∀ (fields : List (Key × String)) (made : ErrCode × Builder),
      (fields.foldl Builder.call made).2.list = made.2.list := by
    intro fields
    induction fields with
    | nil => exact fun _ => rfl
    | cons field fields ih => exact fun made => (ih _).trans (list_call made field)
  rw [Entry.run, hfold]
  cases list <;> rfl

/-- The end of an entry registers what its builder made. -/
theorem step_mappingEnd (registered : List InitRegistration) (base : List String)
    {made : ErrCode × Builder} {list : Section} (hlist : made.2.list = list) :
    step (inEntry registered (list.text :: base) made) (.mappingEnd .all) =
      .running (betweenEntries (registered ++ [Builder.finish made]) (list.text :: base) made.1) := by
  subst hlist
  obtain ⟨rc, builder⟩ := made
  cases builder <;> rfl

theorem step_mappingStart (registered : List InitRegistration) (base : List String) (rc : ErrCode)
    (list : Section) (grants : Grants) :
    step (betweenEntries registered (list.text :: base) rc) (.mappingStart grants) =
      if grants.builder then
        .running (inEntry registered (list.text :: base) (rc, .new grants list))
      else .returned (.RC_MEMORY_ALLOCATION_FAILURE, registered) := by
  cases list <;> rfl

/-- **An entry is its calls**, under the error code that is there when it begins. -/
theorem reaches_entry (registered : List InitRegistration) (base : List String) (rc : ErrCode)
    (list : Section) {entry : Entry} (hbuilder : entry.opened.builder = true) (hplain : entry.Plain) :
    Reaches step (betweenEntries registered (list.text :: base) rc) entry.events
      (betweenEntries (registered ++ [Builder.finish (entry.run list rc)]) (list.text :: base)
        (entry.run list rc).1) := by
  have hstart := step_mappingStart registered base rc list entry.opened
  rw [if_pos hbuilder] at hstart
  exact .cons hstart ((reaches_content registered (list.text :: base) _ hplain).append
    (.single (step_mappingEnd registered base (list_run list rc entry))))

end Runs

end ResourceTuner.InitParser
