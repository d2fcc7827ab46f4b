import ResourceTuner.Lib.EventLoop
import ResourceTuner.Lib.LastWrite
import ResourceTuner.Lib.Lists
import ResourceTuner.Lib.YamlStream
import ResourceTuner.Signals.SignalBuilder

/-!
# Properties

`PropertiesRegistry.cpp`, `submitPropGetRequest` of `RequestHandler.cpp` and
`parsePropertiesConfigYamlNode` of `RestuneParser.cpp`.  The parser keeps one key and one value and
hands them to the registry where a mapping ends.  It knows three words, and a text that is one of them
is taken for a key wherever it stands.

* **`PropertiesRegistry`** — the store and its calls;
* **`parsePropertiesConfigYamlNode`** — the loop;
* **`Entry.definition`** — the property an entry of a file defines;
* **`parse_of_isPrefix`** — a file that breaks off anywhere.

The text of a scalar is always there.
-/

namespace ResourceTuner

open RestuneParser (ErrCode)
open LastWrite

/-! ## The registry -/

/-- `class PropertiesRegistry`. -/
structure PropertiesRegistry where
  mProperties : UnorderedMap String String

namespace PropertiesRegistry

def empty : PropertiesRegistry := ⟨∅⟩

def createProperty (reg : PropertiesRegistry) (propertyName propertyValue : String) :
    Bool × PropertiesRegistry :=
  if propertyName.length = 0 ∨ propertyValue.length = 0 then (false, reg)
  else (true, ⟨reg.mProperties.insert propertyName propertyValue⟩)

/-- The result is written only when the property is found. -/
def queryProperty (reg : PropertiesRegistry) (propertyName : String) : Option String :=
  if propertyName.length = 0 then none else reg.mProperties.lookup propertyName

/-- `submitPropGetRequest`: whether the property is there, and what the buffer holds. -/
def submitPropGetRequest (reg : PropertiesRegistry) (prop defaultValue : String) : Bool × String :=
  match reg.queryProperty prop with
  | none => (false, defaultValue)
  | some result => (true, result)

end PropertiesRegistry

namespace PropertiesParser

open Yaml (Event)
open PropertiesRegistry

/-! ## The loop -/

/-- What the loop carries, and the registry. -/
structure State where
  isPropName : Bool
  currentKey : String
  currentValue : String
  registry : PropertiesRegistry

abbrev Outcome := EventLoop.Outcome State (ErrCode × PropertiesRegistry)

/-- One event other than the end of the stream. -/
def advance (s : State) : Event → State
  | .mappingEnd =>
    { s with
      currentKey := ""
      currentValue := ""
      registry :=
        if 0 < s.currentKey.length ∧ 0 < s.currentValue.length then
          (s.registry.createProperty s.currentKey s.currentValue).2
        else s.registry }
  | .scalar value =>
    if value = "PropertyConfigs" then s
    else if value = "Name" then { s with isPropName := true }
    else if value = "Value" then { s with isPropName := false }
    else if s.isPropName then { s with currentKey := value }
    else { s with currentValue := value }
  | _ => s

def step (s : State) : Event → Outcome
  | .streamEnd => .returned (.RC_SUCCESS, s.registry)
  | event => .running (advance s event)

/-- The state before the first event. -/
def State.initial (reg : PropertiesRegistry) : State where
  isPropName := false
  currentKey := ""
  currentValue := ""
  registry := reg

/-- `parsePropertiesConfigYamlNode` on the events of a file.  Where there are no more, libyaml has found
an error. -/
def parsePropertiesConfigYamlNode (reg : PropertiesRegistry) (events : List Event) : Outcome :=
  EventLoop.run step (fun s => (.RC_YAML_PARSING_ERROR, s.registry)) (.initial reg) events

/-! ## Files of entries -/

inductive Field where
  | name
  | value
  deriving DecidableEq, Repr

def Field.key : Field → String
  | .name => "Name"
  | .value => "Value"

/-- A key of an entry with the text under it. -/
structure Assignment where
  field : Field
  text : String
  deriving DecidableEq, Repr

def Assignment.events (a : Assignment) : List Event := [.scalar a.field.key, .scalar a.text]

/-- The texts that the parser takes for keys. -/
def isReserved (text : String) : Bool := text = "PropertyConfigs" || text = "Name" || text = "Value"

/-- The item of a property; a key may be given any number of times, and in any order. -/
abbrev Entry := List Assignment

namespace Entry

def events (entry : Entry) : List Event :=
  .mappingStart :: (entry.flatMap Assignment.events ++ [.mappingEnd])

/-- The last text under a key that is not taken for a key itself. -/
def assigned (field : Field) : Entry → Option String
  | [] => none
  | a :: entry =>
    (assigned field entry).or (if a.field = field ∧ isReserved a.text = false then some a.text else none)

/-- The property that the entry defines: it needs a name and a value. -/
def definition (entry : Entry) : Option (String × String) :=
  match entry.assigned .name, entry.assigned .value with
  | some name, some value => if name = "" ∨ value = "" then none else some (name, value)
  | _, _ => none

end Entry

def definitions (entries : List Entry) : List (String × String) := entries.filterMap Entry.definition

def header : List Event :=
  [.streamStart, .documentStart, .mappingStart, .scalar "PropertyConfigs", .sequenceStart]

def footer : List Event := [.sequenceEnd, .mappingEnd, .documentEnd, .streamEnd]

/-- The events of a file of properties. -/
def document (entries : List Entry) : List Event := header ++ (entries.flatMap Entry.events ++ footer)

/-! ## What the loop has read -/

/-- The key, the value and the registry of a state. -/
structure Holds (s : State) (name value : String) (reg : PropertiesRegistry) : Prop where
  name : s.currentKey = name
  value : s.currentValue = value
  registry : s.registry = reg

def createAll (reg : PropertiesRegistry) (writes : List (String × String)) : PropertiesRegistry :=
  ⟨insertAll reg.mProperties writes⟩

theorem createAll_append (reg : PropertiesRegistry) (writes more : List (String × String)) :
    createAll reg (writes ++ more) = createAll (createAll reg writes) more := by
  simp only [createAll, insertAll, List.foldl_append]

section Loop

variable {s : State} {name value : String} {reg : PropertiesRegistry} {events rest : List Event}
  {exhausted : State → ErrCode × PropertiesRegistry}

/-- Only the end of the stream ends the loop. -/
theorem run_append (h : Event.streamEnd ∉ events) :
    EventLoop.run step exhausted s (events ++ rest) =
      EventLoop.run step exhausted (events.foldl advance s) rest := by
  induction events generalizing s with
  | nil => rfl
  | cons event events ih =>
    simp only [List.mem_cons, not_or] at h
    have hstep : step s event = .running (advance s event) := by
      cases event with
      | streamEnd => exact absurd rfl h.1
      | _ => rfl
    rw [List.cons_append, EventLoop.run_cons_running hstep, ih h.2]
    rfl

/-- Only the end of a mapping changes the registry. -/
theorem registry_foldl (h : Event.mappingEnd ∉ events) :
    (events.foldl advance s).registry = s.registry := by
  induction events generalizing s with
  | nil => rfl
  | cons event events ih =>
    simp only [List.mem_cons, not_or] at h
    rw [List.foldl_cons, ih h.2]
    cases event with
    | mappingEnd => exact absurd rfl h.1
    | scalar value =>
      simp only [advance]
      split_ifs <;> rfl
    | _ => rfl

theorem holds_assignment (h : Holds s name value reg) (a : Assignment) :
    Holds (a.events.foldl advance s)
      (if a.field = .name ∧ isReserved a.text = false then a.text else name)
      (if a.field = .value ∧ isReserved a.text = false then a.text else value) reg := by
  obtain ⟨field, text⟩ := a
  obtain ⟨rfl, rfl, rfl⟩ := h
  -- after the key the flag says where the text goes, whatever it was before
  cases field with
  | name =>
    simp only [Assignment.events, Field.key, List.foldl_cons, List.foldl_nil, advance, isReserved]
    split_ifs <;> constructor <;> simp_all
  | value =>
    simp only [Assignment.events, Field.key, List.foldl_cons, List.foldl_nil, advance, isReserved]
    split_ifs <;> constructor <;> simp_all

theorem holds_assignments (h : Holds s name value reg) (entry : Entry) :
    Holds ((entry.flatMap Assignment.events).foldl advance s) ((entry.assigned .name).getD name)
      ((entry.assigned .value).getD value) reg := by
  induction entry generalizing s name value with
  | nil => exact h
  | cons a entry ih =>
    have hnext := ih (holds_assignment h a)
    have hgetD : ∀ (field : Field) (text : String),
        (Entry.assigned field entry).getD
            (if a.field = field ∧ isReserved a.text = false then a.text else text) =
          (Entry.assigned field (a :: entry)).getD text := by
      intro field text
      rw [Entry.assigned]
      cases Entry.assigned field entry with
      | some text' => rfl
      | none =>
        simp only [Option.getD_none, Option.none_or]
        split_ifs <;> rfl
    rw [List.flatMap_cons, List.foldl_append]
    rwa [hgetD, hgetD] at hnext

theorem definitions_singleton (entry : Entry) :
    definitions [entry] =
      if (entry.assigned .name).getD "" = "" ∨ (entry.assigned .value).getD "" = "" then []
      else [((entry.assigned .name).getD "", (entry.assigned .value).getD "")] := by
  rw [definitions, List.filterMap_cons, List.filterMap_nil, Entry.definition]
  cases entry.assigned .name with
  | none => rfl
  | some name =>
    cases entry.assigned .value with
    | none => simp
    | some value =>
      simp only [Option.getD_some]
      split_ifs <;> rfl

/-- The test of the parser is the one of the registry. -/
theorem create_eq (reg : PropertiesRegistry) (name value : String) :
    (if 0 < name.length ∧ 0 < value.length then (reg.createProperty name value).2 else reg) =
      createAll reg (if name = "" ∨ value = "" then [] else [(name, value)]) := by
  by_cases hempty : name = "" ∨ value = ""
  · rw [if_pos hempty, if_neg]
    · rfl
    · rcases hempty with rfl | rfl <;> simp
  · rw [if_neg hempty]
    simp only [not_or] at hempty
    simp [hempty.1, hempty.2, createProperty, createAll, insertAll, Nat.pos_iff_ne_zero]

/-- Between two entries nothing is kept but the registry. -/
theorem holds_entry (h : Holds s "" "" reg) (entry : Entry) :
    Holds (entry.events.foldl advance s) "" "" (createAll reg (definitions [entry])) := by
  have hbody := holds_assignments h entry
  rw [Entry.events, List.foldl_cons, List.foldl_append]
  show Holds (advance ((entry.flatMap Assignment.events).foldl advance s) .mappingEnd) _ _ _
  refine ⟨rfl, rfl, ?_⟩
  simp only [advance, hbody.name, hbody.value, hbody.registry]
  rw [create_eq, definitions_singleton]

theorem holds_entries (h : Holds s "" "" reg) (entries : List Entry) :
    Holds ((entries.flatMap Entry.events).foldl advance s) "" ""
      (createAll reg (definitions entries)) := by
  induction entries generalizing s reg with
  | nil => exact h
  | cons entry entries ih =>
    have hnext := ih (holds_entry h entry)
    rw [← createAll_append, definitions, definitions, ← List.filterMap_append] at hnext
    rw [List.flatMap_cons, List.foldl_append]
    exact hnext

theorem holds_header (reg : PropertiesRegistry) :
    Holds (header.foldl advance (.initial reg)) "" "" reg := ⟨rfl, rfl, rfl⟩

end Loop

/-! ## Files that break off -/

/-- The events of an entry before its mapping ends. -/
def Entry.opening (entry : Entry) : List Event := .mappingStart :: entry.flatMap Assignment.events

theorem Entry.events_eq (entry : Entry) : entry.events = entry.opening ++ [.mappingEnd] := rfl

theorem Entry.notMem_opening (entry : Entry) : Event.mappingEnd ∉ entry.opening := by
  simp [Entry.opening, Assignment.events]

theorem Entry.count_events (entry : Entry) : entry.events.count .mappingEnd = 1 := by
  rw [Entry.events_eq, List.count_append, List.count_eq_zero.mpr entry.notMem_opening]
  rfl

theorem count_entries (entries : List Entry) :
    (entries.flatMap Entry.events).count .mappingEnd = entries.length := by
  induction entries with
  | nil => rfl
  | cons entry entries ih =>
    rw [List.flatMap_cons, List.count_append, entry.count_events, ih, List.length_cons, Nat.add_comm]

theorem notMem_of_isPrefix {event : Event} {events more : List Event} (h : events <+: more)
    (hnot : event ∉ more) : event ∉ events := fun hmem => hnot (h.subset hmem)

section Prefix

variable {s : State} {reg : PropertiesRegistry} {events : List Event}

/-- Until the entries end, those whose mapping has ended are registered, and no others. -/
theorem registry_of_isPrefix (h : Holds s "" "" reg) (entries : List Entry)
    (hstart : events <+: entries.flatMap Entry.events) :
    (events.foldl advance s).registry =
      createAll reg (definitions (entries.take (events.count .mappingEnd))) := by
  induction entries generalizing s reg events with
  | nil =>
    rw [List.prefix_nil.mp hstart]
    exact h.registry
  | cons entry entries ih =>
    rw [List.flatMap_cons, Entry.events_eq, List.append_assoc] at hstart
    rcases Lists.isPrefix_append_cases hstart with hopening | ⟨more, rfl, hmore⟩
    · -- the mapping of the entry has not ended
      have hnot := notMem_of_isPrefix hopening entry.notMem_opening
      rw [registry_foldl hnot, List.count_eq_zero.mpr hnot, h.registry]
      rfl
    · rcases Lists.isPrefix_append_cases hmore with hend | ⟨rest, rfl, hrest⟩
      · rcases List.prefix_cons_iff.mp hend with rfl | ⟨tail, rfl, htail⟩
        · have hnot := entry.notMem_opening
          rw [List.append_nil, registry_foldl hnot, List.count_eq_zero.mpr hnot, h.registry]
          rfl
        · rw [List.prefix_nil.mp htail, ← Entry.events_eq, (holds_entry h entry).registry,
            entry.count_events]
          rfl
      · have hnext := ih (holds_entry h entry) hrest
        rw [← List.append_assoc, ← Entry.events_eq, List.foldl_append, hnext, ← createAll_append,
          List.count_append, entry.count_events, Nat.add_comm, List.take_succ_cons, definitions,
          definitions, ← List.filterMap_append]
        rfl

/-- What follows the entries changes nothing. -/
theorem registry_of_footer (h : Holds s "" "" reg) {events : List Event}
    (hstart : events <+: [.sequenceEnd, .mappingEnd, .documentEnd]) :
    (events.foldl advance s).registry = reg := by
  obtain ⟨hname, hvalue, rfl⟩ := h
  have hend : (advance s .mappingEnd).registry = s.registry := by
    simp [advance, hname]
  obtain ⟨rest, hrest⟩ := hstart
  match events, hrest with
  | [], _ => rfl
  | [_], hrest =>
    cases hrest
    rfl
  | [_, _], hrest =>
    cases hrest
    exact hend
  | [_, _, _], hrest =>
    cases hrest
    exact hend

end Prefix

/-- The events before the end of the stream. -/
def body (entries : List Entry) : List Event :=
  header ++ (entries.flatMap Entry.events ++ [.sequenceEnd, .mappingEnd, .documentEnd])

theorem document_eq (entries : List Entry) : document entries = body entries ++ [.streamEnd] := by
  simp [document, footer, body]

theorem streamEnd_notMem_body (entries : List Entry) : Event.streamEnd ∉ body entries := by
  simp [body, header, Entry.events, Assignment.events]

/-- The registry after any part of a file before the end of the stream. -/
theorem registry_of_body (reg : PropertiesRegistry) (entries : List Entry) {part : List Event}
    (hpart : part <+: body entries) : (part.foldl advance (.initial reg)).registry =
      createAll reg (definitions (entries.take (part.count .mappingEnd))) := by
  have hheader := holds_header reg
  have hzero : header.count .mappingEnd = 0 := by decide
  rcases Lists.isPrefix_append_cases hpart with hin | ⟨more, rfl, hmore⟩
  · have hnot : Event.mappingEnd ∉ part := notMem_of_isPrefix hin (by decide)
    rw [registry_foldl hnot, List.count_eq_zero.mpr hnot]
    rfl
  · rw [List.foldl_append, List.count_append, hzero, Nat.zero_add]
    rcases Lists.isPrefix_append_cases hmore with hin | ⟨rest, rfl, hrest⟩
    · exact registry_of_isPrefix hheader entries hin
    · rw [List.foldl_append, registry_of_footer (holds_entries hheader entries) hrest,
        List.count_append, count_entries, List.take_of_length_le (Nat.le_add_right _ _)]

/-- A whole file registers the properties of its entries, in order. -/
theorem parse_document (reg : PropertiesRegistry) (entries : List Entry) :
    parsePropertiesConfigYamlNode reg (document entries) =
      .returned (.RC_SUCCESS, createAll reg (definitions entries)) := by
  have hcount : entries.length ≤ (body entries).count .mappingEnd := by
    rw [body, List.count_append, List.count_append, count_entries]
    omega
  have hregistry := registry_of_body reg entries (List.prefix_refl _)
  rw [List.take_of_length_le hcount] at hregistry
  rw [document_eq, parsePropertiesConfigYamlNode, run_append (streamEnd_notMem_body entries),
    ← hregistry]
  rfl

/-- A file of properties as far as it can be read: the entries whose mapping has ended are registered,
in order, and where the file breaks off the parser says so. -/
theorem parse_of_isPrefix (reg : PropertiesRegistry) (entries : List Entry) {events : List Event}
    (hstart : events <+: document entries) :
    parsePropertiesConfigYamlNode reg events =
      .returned (if events = document entries then .RC_SUCCESS else .RC_YAML_PARSING_ERROR,
        createAll reg (definitions (entries.take (events.count .mappingEnd)))) := by
  rw [document_eq] at hstart
  rcases List.prefix_concat_iff.mp hstart with rfl | hpart
  · rw [← document_eq, if_pos rfl, parse_document, List.take_of_length_le]
    rw [document, List.count_append, List.count_append, count_entries]
    omega
  · have hne : events ≠ document entries := by
      rintro rfl
      have hlen := hpart.length_le
      rw [document_eq, List.length_append, List.length_singleton] at hlen
      omega
    have hnotEnd := notMem_of_isPrefix hpart (streamEnd_notMem_body entries)
    rw [if_neg hne, parsePropertiesConfigYamlNode, ← registry_of_body reg entries hpart,
      ← List.append_nil events, run_append hnotEnd, List.append_nil]
    rfl

/-- A file that breaks off in its second entry. -/
theorem parse_of_isPrefix_two :
    parsePropertiesConfigYamlNode .empty
        ((document [[⟨.name, "a"⟩, ⟨.value, "1"⟩], [⟨.name, "b"⟩, ⟨.value, "2"⟩]]).take 13) =
      .returned (.RC_YAML_PARSING_ERROR, createAll .empty [("a", "1")]) :=
  parse_of_isPrefix .empty [[⟨.name, "a"⟩, ⟨.value, "1"⟩], [⟨.name, "b"⟩, ⟨.value, "2"⟩]]
    (List.take_prefix 13 _)

end PropertiesParser

end ResourceTuner
