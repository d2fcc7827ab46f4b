import ResourceTuner.Lib.EventLoop
import ResourceTuner.Signals.RestuneParser

/-!
# Signal parsing is entry-wise

The documents `parseSignalConfigYamlNode` is written for are a sequence of signals, each a mapping of
keys to scalars, to lists of scalars, and to lists of resources.  On them the push-down machine does
what a loop over the entries would: each entry is one sequence of builder calls on a builder of its
own.

* **`Entry`** — a signal of a document, and its events;
* **`Entry.built`** — its calls, and what they make of it;
* **`parseEvents_entry`** — the events of an entry, from one boundary to the next;
* **`Entry.Describes`** — what the calls leave, in terms of the entry;
* **`parseSignalConfigYamlNode_document`** — the whole document.
-/

namespace ResourceTuner.RestuneParser

open Numerals

/-! ## Documents -/

/-- A data scalar: a text that is no key, and the answers to the requests for memory it leads to. -/
structure Datum where
  text : String
  grants : Grants
  plain : isKey text = false
  deriving DecidableEq

/-- The keys of a signal that have one value. -/
inductive ScalarKey where
  | SigId
  | Category
  | Name
  | Enable
  | Timeout
  deriving DecidableEq, Repr

/-- The keys of a signal that have a list of values. -/
inductive ListKey where
  | TargetsEnabled
  | TargetsDisabled
  | Permissions
  | Derivatives
  deriving DecidableEq, Repr

def ScalarKey.text : ScalarKey → String
  | .SigId => "SigId"
  | .Category => "Category"
  | .Name => "Name"
  | .Enable => "Enable"
  | .Timeout => "Timeout"

def ListKey.text : ListKey → String
  | .TargetsEnabled => "TargetsEnabled"
  | .TargetsDisabled => "TargetsDisabled"
  | .Permissions => "Permissions"
  | .Derivatives => "Derivatives"

/-- A key of a resource with its value. -/
inductive ResourceField where
  | ResCode (value : Datum)
  | ResInfo (value : Datum)
  | Values (values : List Datum)

/-- A resource of a signal, with the answers at the start and at the end of its mapping. -/
structure ResourceItem where
  opened : Grants
  fields : List ResourceField
  closed : Grants

/-- A key of a signal with its value. -/
inductive Field where
  | scalar (key : ScalarKey) (value : Datum)
  | list (key : ListKey) (items : List Datum)
  | resources (items : List ResourceItem)

/-- A signal of a document, with the answers at the start of its mapping. -/
structure Entry where
  opened : Grants
  fields : List Field

/-- The answers to an event that asks for nothing. -/
def Grants.all : Grants := ⟨true, true, true, true⟩

def Event.key (text : String) : Event := .scalar text .all

def Datum.event (value : Datum) : Event := .scalar value.text value.grants

def ResourceField.events : ResourceField → List Event
  | .ResCode value => [.key "ResCode", value.event]
  | .ResInfo value => [.key "ResInfo", value.event]
  | .Values values => .key "Values" :: .sequenceStart :: (values.map Datum.event ++ [.sequenceEnd])

def ResourceItem.events (item : ResourceItem) : List Event :=
  .mappingStart item.opened :: (item.fields.flatMap ResourceField.events ++ [.mappingEnd item.closed])

def Field.events : Field → List Event
  | .scalar key value => [.key key.text, value.event]
  | .list key items => .key key.text :: .sequenceStart :: (items.map Datum.event ++ [.sequenceEnd])
  | .resources items =>
    .key "Resources" :: .sequenceStart :: (items.flatMap ResourceItem.events ++ [.sequenceEnd])

def Entry.events (entry : Entry) : List Event :=
  .mappingStart entry.opened :: (entry.fields.flatMap Field.events ++ [.mappingEnd .all])

/-- The events of a whole document. -/
def document (entries : List Entry) : List Event :=
  [.streamStart, .documentStart, .mappingStart .all, .key SIGNAL_CONFIGS_ROOT, .sequenceStart] ++
    (entries.flatMap Entry.events ++ [.sequenceEnd, .mappingEnd .all, .documentEnd, .streamEnd])

/-! ## Builder calls -/

/-- The calls of a key of a resource. -/
def ResourceField.calls : ResourceField → List (ResourceBuilder → ErrCode × ResourceBuilder)
  | .ResCode value => [(·.setResCode value.text)]
  | .ResInfo value => [(·.setResInfo value.text)]
  | .Values values => valueCalls (values.map Datum.text)

/-- A resource is built by its own builder. -/
def ResourceItem.build (item : ResourceItem) : ErrCode × ResourceBuilder :=
  runCalls (item.fields.flatMap ResourceField.calls) (.RC_SUCCESS, .new item.opened)

/-- And then added to the signal. -/
def ResourceItem.call (item : ResourceItem) (b : SignalInfoBuilder) : ErrCode × SignalInfoBuilder :=
  if item.build.1 = .RC_SUCCESS then b.addResource item.closed item.build.2.build
  else (item.build.1, b)

def ScalarKey.call (key : ScalarKey) (value : Datum) (b : SignalInfoBuilder) :
    ErrCode × SignalInfoBuilder :=
  match key with
  | .SigId => b.setSignalID value.text
  | .Category => b.setSignalCategory value.text
  | .Name => b.setName value.text
  | .Enable => b.setIsEnabled value.text
  | .Timeout => b.setTimeout value.text

def ListKey.call (targetName : String) (key : ListKey) (value : Datum) (b : SignalInfoBuilder) :
    ErrCode × SignalInfoBuilder :=
  match key with
  | .TargetsEnabled => b.addTargetEnabled targetName value.text
  | .TargetsDisabled => b.addTargetDisabled targetName value.text
  | .Permissions => b.addPermission value.grants value.text
  | .Derivatives => b.addDerivative value.grants value.text

/-- What an entry has the builder of its signal do, one thing at a time. -/
inductive Assignment where
  | scalar (key : ScalarKey) (value : Datum)
  | element (key : ListKey) (value : Datum)
  | resource (item : ResourceItem)

def Assignment.call (targetName : String) :
    Assignment → SignalInfoBuilder → ErrCode × SignalInfoBuilder
  | .scalar key value => key.call value
  | .element key value => key.call targetName value
  | .resource item => item.call

def Field.assignments : Field → List Assignment
  | .scalar key value => [.scalar key value]
  | .list key items => items.map (.element key)
  | .resources items => items.map .resource

def Entry.assignments (entry : Entry) : List Assignment := entry.fields.flatMap Field.assignments

/-- All calls of an entry. -/
def Entry.run (targetName : String) (entry : Entry) : ErrCode × SignalInfoBuilder :=
  runCalls (entry.assignments.map (Assignment.call targetName)) (.RC_SUCCESS, .new entry.opened)

/-- The signal of an entry, if all its calls succeed. -/
def Entry.built (targetName : String) (entry : Entry) : Option SignalInfo :=
  if (entry.run targetName).1 = .RC_SUCCESS then (entry.run targetName).2.build else none

/-! ## Runs of events -/

section Runs

variable {isBuSpecified : Bool} {targetName : String}

/-- The parser as a loop over events. -/
def Outcome.toLoop : Outcome → EventLoop.Outcome State (ErrCode × SignalRegistry)
  | .running s => .running s
  | .returned rc registry => .returned (rc, registry)
  | .fault => .fault

def loopStep (isBuSpecified : Bool) (targetName : String) (s : State) (event : Event) :
    EventLoop.Outcome State (ErrCode × SignalRegistry) :=
  (step isBuSpecified targetName s event).toLoop

/-- The two ways to say how a file ends say the same. -/
theorem Outcome.toLoop_inj {outcome outcome' : Outcome} (h : outcome.toLoop = outcome'.toLoop) :
    outcome = outcome' := by
  cases outcome <;> cases outcome' <;> cases h <;> rfl

/-- The parser is an event loop that reports a parsing error when the events run out. -/
theorem toLoop_parseEvents (s : State) (events : List Event) :
    (parseEvents isBuSpecified targetName s events).toLoop =
      EventLoop.run (loopStep isBuSpecified targetName)
        (fun s => (.RC_YAML_PARSING_ERROR, s.registry)) s events := by
  induction events generalizing s with
  | nil => rfl
  | cons event events ih =>
    rw [parseEvents, EventLoop.run, loopStep]
    cases step isBuSpecified targetName s event with
    | running s' => exact ih s'
    | returned rc registry => rfl
    | fault => rfl

/-- The state in which the parser starts. -/
def initial (registry : SignalRegistry) : State where
  rc := .RC_SUCCESS
  docMarker := false
  parsingSignal := false
  inResourcesMap := false
  keyTracker := []
  resValues := []
  signalInfoBuilder := none
  resourceBuilder := none
  registry := registry

/-- The events take the loop from one state to another. -/
def Reaches (isBuSpecified : Bool) (targetName : String) (s : State) (events : List Event)
    (s' : State) : Prop :=
  EventLoop.Reaches (loopStep isBuSpecified targetName) s events s'

theorem Reaches.nil (s : State) : Reaches isBuSpecified targetName s [] s := EventLoop.Reaches.nil s

theorem Reaches.cons {s s' s'' : State} {event : Event} {events : List Event}
    (hstep : step isBuSpecified targetName s event = .running s')
    (h : Reaches isBuSpecified targetName s' events s'') :
    Reaches isBuSpecified targetName s (event :: events) s'' :=
  EventLoop.Reaches.cons (congrArg Outcome.toLoop hstep) h

theorem Reaches.append {s s' s'' : State} {events events' : List Event}
    (h : Reaches isBuSpecified targetName s events s')
    (h' : Reaches isBuSpecified targetName s' events' s'') :
    Reaches isBuSpecified targetName s (events ++ events') s'' := EventLoop.Reaches.append h h'

theorem Reaches.single {s s' : State} {event : Event}
    (hstep : step isBuSpecified targetName s event = .running s') :
    Reaches isBuSpecified targetName s [event] s' := .cons hstep (.nil s')

/-- The parser goes on from there. -/
theorem Reaches.parse {s s' : State} {events : List Event}
    (h : Reaches isBuSpecified targetName s events s') (rest : List Event) :
    parseEvents isBuSpecified targetName s (events ++ rest) =
      parseEvents isBuSpecified targetName s' rest := by
  apply Outcome.toLoop_inj
  rw [toLoop_parseEvents, toLoop_parseEvents]
  exact EventLoop.run_of_reaches h rest

/-- A key is put on the stack. -/
theorem step_key (s : State) {text : String} (htext : isKey text = true) :
    step isBuSpecified targetName s (.key text) =
      .running { s with keyTracker := text :: s.keyTracker } := by
  rw [Event.key, step, if_pos htext]

/-- A data scalar under a list key leaves the key where it is. -/
theorem step_element {s : State} {topKey : String} {keyTracker : List String} (value : Datum)
    (hkey : s.keyTracker = topKey :: keyTracker) (hlist : isKeyTypeList topKey = true) :
    step isBuSpecified targetName s value.event =
      .running (addScalar targetName s topKey value.text value.grants) := by
  rw [Datum.event, step, if_neg (by simp [value.plain])]
  simp only [hkey, if_pos hlist]

/-- Under any other key it takes the key off the stack. -/
theorem step_value {s : State} {topKey : String} {keyTracker : List String} (value : Datum)
    (hkey : s.keyTracker = topKey :: keyTracker) (hlist : isKeyTypeList topKey = false) :
    step isBuSpecified targetName s value.event =
      .running (addScalar targetName { s with keyTracker := keyTracker } topKey value.text
        value.grants) := by
  rw [Datum.event, step, if_neg (by simp [value.plain])]
  simp only [hkey, hlist, Bool.false_eq_true, if_false]

/-! ### Calls -/

/-- After an error nothing is added. -/
theorem addToBuilder_of_ne {β : Type} {call : β → ErrCode × β} {made : ErrCode × β}
    (h : made.1 ≠ .RC_SUCCESS) : addToBuilder call made = made := if_neg h

/-- After an error nothing is called any more. -/
theorem runCalls_of_ne {β : Type} (calls : List (β → ErrCode × β)) {made : ErrCode × β}
    (h : made.1 ≠ .RC_SUCCESS) : runCalls calls made = made := by
  induction calls with
  | nil => rfl
  | cons call calls ih => rw [runCalls, List.foldl_cons, addToBuilder_of_ne h, ← runCalls, ih]

theorem runCalls_cons {β : Type} (call : β → ErrCode × β) (calls : List (β → ErrCode × β))
    (made : ErrCode × β) : runCalls (call :: calls) made = runCalls calls (addToBuilder call made) :=
  rfl

theorem runCalls_append {β : Type} (calls calls' : List (β → ErrCode × β)) (made : ErrCode × β) :
    runCalls (calls ++ calls') made = runCalls calls' (runCalls calls made) := List.foldl_append

/-- Where there is no error at the end there was none before. -/
theorem runCalls_append_ok {β : Type} {calls calls' : List (β → ErrCode × β)} {made : ErrCode × β}
    (h : (runCalls (calls ++ calls') made).1 = .RC_SUCCESS) :
    (runCalls calls made).1 = .RC_SUCCESS := by
  rw [runCalls_append] at h
  by_contra hne
  rw [runCalls_of_ne calls' hne] at h
  exact hne h

/-- What every call keeps, they all keep. -/
theorem runCalls_invariant {β : Type} {P : β → Prop} {calls : List (β → ErrCode × β)}
    (hcalls : ∀ call ∈ calls, ∀ builder, P builder → P (call builder).2) {made : ErrCode × β}
    (hmade : P made.2) : P (runCalls calls made).2 := by
  induction calls generalizing made with
  | nil => exact hmade
  | cons call calls ih =>
    rw [runCalls_cons]
    refine ih (fun other hother => hcalls other (List.mem_cons_of_mem _ hother)) ?_
    unfold addToBuilder
    split
    · exact hcalls call List.mem_cons_self _ hmade
    · exact hmade

/-! ### Inside a signal -/

/-- The loop in a signal, under some keys. -/
def inEntry (registry : SignalRegistry) (keyTracker : List String)
    (made : ErrCode × SignalInfoBuilder) (resourceBuilder : Option ResourceBuilder) : State where
  rc := made.1
  docMarker := true
  parsingSignal := true
  inResourcesMap := false
  keyTracker := keyTracker ++ [SIGNAL_CONFIGS_ROOT]
  resValues := []
  signalInfoBuilder := some made.2
  resourceBuilder := resourceBuilder
  registry := registry

/-- The loop in a resource of a signal. -/
def inResource (registry : SignalRegistry) (keyTracker resValues : List String)
    (builder : SignalInfoBuilder) (made : ErrCode × ResourceBuilder) : State where
  rc := made.1
  docMarker := true
  parsingSignal := true
  inResourcesMap := true
  keyTracker := keyTracker ++ ["Resources", SIGNAL_CONFIGS_ROOT]
  resValues := resValues
  signalInfoBuilder := some builder
  resourceBuilder := some made.2
  registry := registry

/-- The loop between two signals. -/
def betweenEntries (registry : SignalRegistry) (resourceBuilder : Option ResourceBuilder) : State where
  rc := .RC_SUCCESS
  docMarker := true
  parsingSignal := false
  inResourcesMap := false
  keyTracker := [SIGNAL_CONFIGS_ROOT]
  resValues := []
  signalInfoBuilder := none
  resourceBuilder := resourceBuilder
  registry := registry

/-- Every key of a value is a key to the parser; the type of a signal is not among these, since the
parser does not know it. -/
theorem isKey_scalarKey (key : ScalarKey) : isKey key.text = true := by cases key <;> decide

theorem isKeyTypeList_scalarKey (key : ScalarKey) : isKeyTypeList key.text = false := by
  cases key <;> decide

theorem isKey_listKey (key : ListKey) : isKey key.text = true := by cases key <;> decide

theorem isKeyTypeList_listKey (key : ListKey) : isKeyTypeList key.text = true := by
  cases key <;> decide

/-- The method of a key is the builder call of that key. -/
theorem signalMethod_scalarKey (key : ScalarKey) (value : Datum) :
    signalMethod targetName key.text value.text value.grants = some (key.call value) := by
  cases key <;> rfl

theorem signalMethod_listKey (key : ListKey) (value : Datum) :
    signalMethod targetName key.text value.text value.grants = some (key.call targetName value) := by
  cases key <;> rfl

/-- A scalar with a method of the signal builder is one call. -/
theorem addScalar_inEntry (registry : SignalRegistry) (keyTracker : List String)
    (made : ErrCode × SignalInfoBuilder) (resourceBuilder : Option ResourceBuilder)
    {topKey value : String} {grants : Grants}
    {method : SignalInfoBuilder → ErrCode × SignalInfoBuilder}
    (hmethod : signalMethod targetName topKey value grants = some method) :
    addScalar targetName (inEntry registry keyTracker made resourceBuilder) topKey value grants =
      inEntry registry keyTracker (addToBuilder method made) resourceBuilder := by
  simp only [addScalar, hmethod]
  rfl

/-- The elements of a list are one call each. -/
theorem reaches_elements (registry : SignalRegistry) (key : ListKey) (items : List Datum)
    (made : ErrCode × SignalInfoBuilder) (resourceBuilder : Option ResourceBuilder) :
    Reaches isBuSpecified targetName (inEntry registry [key.text] made resourceBuilder)
      (items.map Datum.event)
      (inEntry registry [key.text] (runCalls (items.map (key.call targetName)) made)
        resourceBuilder) := by
  induction items generalizing made with
  | nil => exact .nil _
  | cons value items ih =>
    refine .cons (step_element value rfl (isKeyTypeList_listKey key)) ?_
    rw [addScalar_inEntry _ _ _ _ (signalMethod_listKey key value)]
    exact ih _

/-- The end of a list takes its key off the stack. -/
theorem step_sequenceEnd (registry : SignalRegistry) {topKey : String} (htop : topKey ≠ "Values")
    (made : ErrCode × SignalInfoBuilder) (resourceBuilder : Option ResourceBuilder) :
    step isBuSpecified targetName (inEntry registry [topKey] made resourceBuilder) .sequenceEnd =
      .running (inEntry registry [] made resourceBuilder) := by
  simp only [step, inEntry, List.cons_append, List.nil_append, if_neg htop]

/-! ### Inside a resource -/

/-- The values of a resource are collected until their list ends. -/
theorem reaches_values (registry : SignalRegistry) (builder : SignalInfoBuilder)
    (made : ErrCode × ResourceBuilder) (resValues : List String) (values : List Datum) :
    Reaches isBuSpecified targetName (inResource registry ["Values"] resValues builder made)
      (values.map Datum.event)
      (inResource registry ["Values"] (resValues ++ values.map Datum.text) builder made) := by
  induction values generalizing resValues with
  | nil =>
    rw [List.map_nil, List.map_nil, List.append_nil]
    exact .nil _
  | cons value values ih =>
    refine .cons (step_element value rfl (by decide)) ?_
    have h := ih (resValues ++ [value.text])
    rw [List.append_assoc, List.singleton_append] at h
    exact h

/-- A key of a resource is its calls. -/
theorem reaches_resourceField (registry : SignalRegistry) (builder : SignalInfoBuilder)
    (made : ErrCode × ResourceBuilder) (field : ResourceField) :
    Reaches isBuSpecified targetName (inResource registry [] [] builder made) field.events
      (inResource registry [] [] builder (runCalls field.calls made)) := by
  cases field with
  | ResCode value =>
    refine .cons (step_key _ (by decide)) (.cons (step_value value rfl (by decide)) ?_)
    exact .nil _
  | ResInfo value =>
    refine .cons (step_key _ (by decide)) (.cons (step_value value rfl (by decide)) ?_)
    exact .nil _
  | Values values =>
    refine .cons (step_key _ (by decide)) (.cons rfl ?_)
    refine (reaches_values registry builder made [] values).append (.single ?_)
    rfl

variable (isBuSpecified targetName)

/-- The fields of a resource become calls on its builder. -/
theorem reaches_resourceFields (registry : SignalRegistry) (builder : SignalInfoBuilder)
    (made : ErrCode × ResourceBuilder) (fields : List ResourceField) :
    Reaches isBuSpecified targetName (inResource registry [] [] builder made)
      (fields.flatMap ResourceField.events)
      (inResource registry [] [] builder (runCalls (fields.flatMap ResourceField.calls) made)) := by
  induction fields generalizing made with
  | nil => exact .nil _
  | cons field fields ih =>
    rw [List.flatMap_cons, List.flatMap_cons, runCalls_append]
    exact (reaches_resourceField registry builder made field).append (ih _)

/-- The end of a resource. -/
theorem step_mappingEnd_resource (registry : SignalRegistry) (builder : SignalInfoBuilder)
    (made : ErrCode × ResourceBuilder) (grants : Grants) :
    step isBuSpecified targetName (inResource registry [] [] builder made) (.mappingEnd grants) =
      if made.1 = .RC_SUCCESS then
        .running (inEntry registry ["Resources"] (builder.addResource grants made.2.build) none)
      else .running (inEntry registry ["Resources"] (made.1, builder) (some made.2)) := rfl

/-- A resource is one call, whatever happened before. -/
theorem reaches_resourceItem (registry : SignalRegistry) (made : ErrCode × SignalInfoBuilder)
    (resourceBuilder : Option ResourceBuilder) {item : ResourceItem}
    (hopened : item.opened.builder = true) :
    ∃ resourceBuilder', Reaches isBuSpecified targetName
      (inEntry registry ["Resources"] made resourceBuilder) item.events
      (inEntry registry ["Resources"] (addToBuilder item.call made) resourceBuilder') := by
  have hstart : step isBuSpecified targetName (inEntry registry ["Resources"] made resourceBuilder)
      (.mappingStart item.opened) =
        .running (inResource registry [] [] made.2 (made.1, .new item.opened)) := by
    simp only [step, inEntry, hopened]
    rfl
  have hfields := reaches_resourceFields isBuSpecified targetName registry made.2
    (made.1, .new item.opened) item.fields
  obtain ⟨rc, builder⟩ := made
  by_cases hrc : rc = .RC_SUCCESS
  · subst hrc
    rw [show runCalls (item.fields.flatMap ResourceField.calls) (.RC_SUCCESS, .new item.opened) =
      item.build from rfl] at hfields
    rw [addToBuilder, if_pos rfl, ResourceItem.call]
    by_cases hbuild : item.build.1 = .RC_SUCCESS
    · refine ⟨none, .cons hstart (hfields.append (.single ?_))⟩
      rw [step_mappingEnd_resource, if_pos hbuild, if_pos hbuild]
    · refine ⟨some item.build.2, .cons hstart (hfields.append (.single ?_))⟩
      rw [step_mappingEnd_resource, if_neg hbuild, if_neg hbuild]
  · -- nothing is called, and nothing is added
    rw [runCalls_of_ne _ hrc] at hfields
    refine ⟨some (.new item.opened), .cons hstart (hfields.append (.single ?_))⟩
    rw [addToBuilder_of_ne hrc, step_mappingEnd_resource, if_neg hrc]

/-- The resources of an entry become calls on the builder of the entry. -/
theorem reaches_resourceItems (registry : SignalRegistry) (made : ErrCode × SignalInfoBuilder)
    (resourceBuilder : Option ResourceBuilder) {items : List ResourceItem}
    (hopened : ∀ item ∈ items, item.opened.builder = true) :
    ∃ resourceBuilder', Reaches isBuSpecified targetName
      (inEntry registry ["Resources"] made resourceBuilder) (items.flatMap ResourceItem.events)
      (inEntry registry ["Resources"] (runCalls (items.map ResourceItem.call) made)
        resourceBuilder') := by
  induction items generalizing made resourceBuilder with
  | nil => exact ⟨resourceBuilder, .nil _⟩
  | cons item items ih =>
    obtain ⟨resourceBuilder', hitem⟩ := reaches_resourceItem isBuSpecified targetName registry made
      resourceBuilder (hopened item List.mem_cons_self)
    obtain ⟨resourceBuilder'', hitems⟩ := ih (addToBuilder item.call made) resourceBuilder'
      fun other hother => hopened other (List.mem_cons_of_mem _ hother)
    exact ⟨resourceBuilder'', hitem.append hitems⟩

/-! ### Fields and entries -/

/-- The builders of the resources of a field can be allocated. -/
def Field.Allocated : Field → Prop
  | .resources items => ∀ item ∈ items, item.opened.builder = true
  | _ => True

/-- The builder of the signal, its content, and the builders of its resources can be allocated. -/
structure Entry.Allocated (entry : Entry) : Prop where
  builder : entry.opened.builder = true
  content : entry.opened.content = true
  resources : ∀ field ∈ entry.fields, field.Allocated

/-- A field is its calls. -/
theorem reaches_field (registry : SignalRegistry) (made : ErrCode × SignalInfoBuilder)
    (resourceBuilder : Option ResourceBuilder) {field : Field} (hallocated : field.Allocated) :
    ∃ resourceBuilder', Reaches isBuSpecified targetName (inEntry registry [] made resourceBuilder)
      field.events
      (inEntry registry [] (runCalls (field.assignments.map (Assignment.call targetName)) made)
        resourceBuilder') := by
  cases field with
  | scalar key value =>
    refine ⟨resourceBuilder, .cons (step_key _ (isKey_scalarKey key))
      (.single ((step_value value rfl (isKeyTypeList_scalarKey key)).trans ?_))⟩
    exact congrArg Outcome.running
      (addScalar_inEntry registry [] made resourceBuilder (signalMethod_scalarKey key value))
  | list key items =>
    refine ⟨resourceBuilder, .cons (step_key _ (isKey_listKey key)) (.cons rfl ?_)⟩
    rw [Field.assignments, List.map_map]
    refine (reaches_elements registry key items made resourceBuilder).append (.single ?_)
    exact step_sequenceEnd registry (by cases key <;> decide) _ _
  | resources items =>
    obtain ⟨resourceBuilder', hitems⟩ := reaches_resourceItems isBuSpecified targetName registry made
      resourceBuilder hallocated
    refine ⟨resourceBuilder', .cons (step_key _ (by decide)) (.cons rfl ?_)⟩
    rw [Field.assignments, List.map_map]
    exact hitems.append (.single (step_sequenceEnd registry (by decide) _ _))

/-- **The fields of an entry** become calls on its builder, in the order of the document. -/
theorem reaches_fields (registry : SignalRegistry) (made : ErrCode × SignalInfoBuilder)
    (resourceBuilder : Option ResourceBuilder) {fields : List Field}
    (hallocated : ∀ field ∈ fields, field.Allocated) :
    ∃ resourceBuilder', Reaches isBuSpecified targetName (inEntry registry [] made resourceBuilder)
      (fields.flatMap Field.events)
      (inEntry registry []
        (runCalls ((fields.flatMap Field.assignments).map (Assignment.call targetName)) made)
        resourceBuilder') := by
  induction fields generalizing made resourceBuilder with
  | nil => exact ⟨resourceBuilder, .nil _⟩
  | cons field fields ih =>
    obtain ⟨resourceBuilder', hfield⟩ := reaches_field isBuSpecified targetName registry made
      resourceBuilder (hallocated field List.mem_cons_self)
    obtain ⟨resourceBuilder'', hfields⟩ := ih _ resourceBuilder'
      fun other hother => hallocated other (List.mem_cons_of_mem _ hother)
    refine ⟨resourceBuilder'', ?_⟩
    rw [List.flatMap_cons, List.flatMap_cons, List.map_append, runCalls_append]
    exact hfield.append hfields

/-- A call does not lose the signal that is built. -/
theorem isSome_withInfo (b : SignalInfoBuilder) (call : SignalInfo → ErrCode × SignalInfo) :
    (b.withInfo call).2.mSignalInfo.isSome = b.mSignalInfo.isSome := by
  unfold SignalInfoBuilder.withInfo
  split
  · rfl
  · rename_i hinfo
    rw [hinfo]
    rfl

/-- A signal that has been allocated stays there. -/
theorem isSome_call (assignment : Assignment) (b : SignalInfoBuilder) :
    (assignment.call targetName b).2.mSignalInfo.isSome = b.mSignalInfo.isSome := by
  have htarget : ∀ target first found,
      (b.addTarget targetName target first found).2.mSignalInfo = b.mSignalInfo := by
    intro target first found
    unfold SignalInfoBuilder.addTarget
    split
    · rfl
    · split <;> rfl
  cases assignment with
  | scalar key value =>
    cases key with
    | Enable =>
      show (b.setIsEnabled value.text).2.mSignalInfo.isSome = b.mSignalInfo.isSome
      unfold SignalInfoBuilder.setIsEnabled
      split
      · rfl
      · split <;> rfl
    | _ => exact isSome_withInfo b _
  | element key value =>
    cases key with
    | TargetsEnabled | TargetsDisabled => exact congrArg Option.isSome (htarget ..)
    | _ => exact isSome_withInfo b _
  | resource item =>
    show (item.call b).2.mSignalInfo.isSome = b.mSignalInfo.isSome
    unfold ResourceItem.call SignalInfoBuilder.addResource
    split
    · split
      · rfl
      · exact isSome_withInfo b _
    · rfl

/-- A signal without a category is not registered. -/
theorem register_malformed (registry : SignalRegistry) {signalInfo : SignalInfo}
    (hcategory : signalInfo.mSignalCategory = 0) :
    registry.register ⟨some signalInfo, isBuSpecified⟩ = registry := by
  simp only [SignalRegistry.register, SignalRegistry.registerSignal, if_pos hcategory]

/-- The category of a signal is cleared. -/
theorem setSignalCategory_zero (signalInfo : SignalInfo) (count : Int) :
    SignalInfoBuilder.setSignalCategory ⟨some signalInfo, count⟩ "0" =
      (.RC_SUCCESS, ⟨some { signalInfo with mSignalCategory := BitVec.ofInt 8 0 }, count⟩) := by
  have hzero : stoi 0 "0" = some 0 := by decide
  simp only [SignalInfoBuilder.setSignalCategory, SignalInfoBuilder.setNumber, hzero]
  rfl

/-- The end of a signal. -/
theorem step_mappingEnd_entry (registry : SignalRegistry) (made : ErrCode × SignalInfoBuilder)
    (resourceBuilder : Option ResourceBuilder) (hinfo : made.2.mSignalInfo.isSome) :
    step isBuSpecified targetName (inEntry registry [] made resourceBuilder) (.mappingEnd .all) =
      .running (betweenEntries (registry.register
        ⟨if made.1 = .RC_SUCCESS then made.2.build else none, isBuSpecified⟩) resourceBuilder) := by
  obtain ⟨rc, builder, count⟩ := made
  obtain ⟨signalInfo, rfl⟩ := Option.isSome_iff_exists.mp hinfo
  by_cases hrc : rc = .RC_SUCCESS
  · subst hrc
    rfl
  · -- the category of the signal is cleared, and with it the error
    have hdropped : registry.register
        ⟨some { signalInfo with mSignalCategory := BitVec.ofInt 8 0 }, isBuSpecified⟩ = registry :=
      register_malformed isBuSpecified registry rfl
    rw [if_neg hrc]
    simp only [step, inEntry, if_neg hrc, setSignalCategory_zero]
    exact congrArg (fun registry => Outcome.running (betweenEntries registry resourceBuilder)) hdropped

/-- At the end of an entry its signal is there. -/
theorem isSome_run {entry : Entry} (hallocated : entry.Allocated) :
    (entry.run targetName).2.mSignalInfo.isSome := by
  refine runCalls_invariant (P := fun b : SignalInfoBuilder => b.mSignalInfo.isSome = true) ?_ ?_
  · intro call hcall b hb
    obtain ⟨assignment, -, rfl⟩ := List.mem_map.mp hcall
    rw [isSome_call]
    exact hb
  · show (if entry.opened.content then _ else none : Option SignalInfo).isSome = true
    rw [if_pos hallocated.content]
    rfl

/-- The start of a signal. -/
theorem step_mappingStart_entry (registry : SignalRegistry) (resourceBuilder : Option ResourceBuilder)
    {opened : Grants} (hbuilder : opened.builder = true) :
    step isBuSpecified targetName (betweenEntries registry resourceBuilder) (.mappingStart opened) =
      .running (inEntry registry [] (.RC_SUCCESS, .new opened) resourceBuilder) := by
  simp only [step, betweenEntries, hbuilder]
  rfl

/-- **An entry is its calls.**  From the boundary before it to the boundary after it, whatever came
before, the registry gets the signal of the entry, or nothing. -/
theorem reaches_entry (registry : SignalRegistry) (resourceBuilder : Option ResourceBuilder)
    {entry : Entry} (hallocated : entry.Allocated) :
    ∃ resourceBuilder', Reaches isBuSpecified targetName (betweenEntries registry resourceBuilder)
      entry.events
      (betweenEntries (registry.register ⟨entry.built targetName, isBuSpecified⟩)
        resourceBuilder') := by
  obtain ⟨resourceBuilder', hfields⟩ := reaches_fields isBuSpecified targetName registry
    (.RC_SUCCESS, .new entry.opened) resourceBuilder hallocated.resources
  exact ⟨resourceBuilder', .cons (step_mappingStart_entry _ _ registry resourceBuilder hallocated.builder)
    (hfields.append (.single (step_mappingEnd_entry _ _ registry _ resourceBuilder'
      (isSome_run targetName hallocated))))⟩

/-- **The entries of a file** are registered one after the other, each from its own calls. -/
theorem reaches_entries (registry : SignalRegistry) (resourceBuilder : Option ResourceBuilder)
    {entries : List Entry} (hallocated : ∀ entry ∈ entries, entry.Allocated) :
    ∃ resourceBuilder', Reaches isBuSpecified targetName (betweenEntries registry resourceBuilder)
      (entries.flatMap Entry.events)
      (betweenEntries ((entries.map fun entry => ⟨entry.built targetName, isBuSpecified⟩).foldl
        SignalRegistry.register registry) resourceBuilder') := by
  induction entries generalizing registry resourceBuilder with
  | nil => exact ⟨resourceBuilder, .nil _⟩
  | cons entry entries ih =>
    obtain ⟨resourceBuilder', hentry⟩ := reaches_entry isBuSpecified targetName registry
      resourceBuilder (hallocated entry List.mem_cons_self)
    obtain ⟨resourceBuilder'', hentries⟩ := ih _ resourceBuilder'
      fun other hother => hallocated other (List.mem_cons_of_mem _ hother)
    exact ⟨resourceBuilder'', hentry.append hentries⟩

/-- The whole document. -/
theorem parse_document (registry : SignalRegistry) {entries : List Entry}
    (hallocated : ∀ entry ∈ entries, entry.Allocated) :
    parseSignalConfigYamlNode isBuSpecified targetName registry (document entries) =
      .returned .RC_SUCCESS
        ((entries.map fun entry => ⟨entry.built targetName, isBuSpecified⟩).foldl
          SignalRegistry.register registry) := by
  obtain ⟨resourceBuilder, hentries⟩ := reaches_entries isBuSpecified targetName registry none
    hallocated
  exact hentries.parse [.sequenceEnd, .mappingEnd .all, .documentEnd, .streamEnd]

end Runs

end ResourceTuner.RestuneParser
