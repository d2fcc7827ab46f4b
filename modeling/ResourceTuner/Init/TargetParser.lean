import ResourceTuner.Core.TargetRegistry
import ResourceTuner.Init.KeyTracker
import ResourceTuner.Lib.EventLoop
import ResourceTuner.Lib.LastWrite
import ResourceTuner.Lib.Numerals
import ResourceTuner.Lib.YamlStream

/-!
# The parser of target configurations

`parseTargetConfigYamlNode` of `RestuneParser.cpp`, and the two calls of `TargetRegistry.cpp` it makes.
A file has an entry for each kind of device, with the names it is for, its clusters and their sizes.  The
parser keeps three texts and hands two of them to the registry where a mapping ends, as long as the
entry it is in is the one for this target.

* **`step`**, **`parseTargetConfigYamlNode`** — the loop;
* **`Entry`**, **`document`** — the files it is written for;
* **`reaches_entry`** — an entry is its calls, or nothing;
* **`target_of_document`** — the first entry for the target decides.

The text of a scalar is always there.
-/

namespace ResourceTuner

open RestuneParser (ErrCode isKey isKeyTypeList hear)
open EventLoop (Reaches)
open LastWrite (last?)
open Numerals (stoi)

/-- The registry, with the setting that its calls keep. -/
structure Target where
  registry : TargetRegistry
  mTotalClusterCount : Nat

namespace Target

/-- `addClusterMapping`.  An exception of either conversion is caught, and nothing has changed. -/
def addClusterMapping (t : Target) (logicalIDString physicalIDString : String) : Target :=
  match stoi 10 logicalIDString, stoi 10 physicalIDString with
  | some logicalID, some physicalID =>
    { registry := t.registry.addClusterMapping logicalID physicalID
      mTotalClusterCount :=
        UnorderedMap.size (t.registry.addClusterMapping logicalID physicalID).mPhysicalClusters }
  | _, _ => t

/-- `addClusterSpreadInfo`. -/
def addClusterSpreadInfo (t : Target) (physicalIDString numCoresString : String) : Target :=
  match stoi 10 physicalIDString, stoi 10 numCoresString with
  | some physicalID, some numCores =>
    { t with registry := t.registry.addClusterSpreadInfo physicalID numCores }
  | _, _ => t

end Target

namespace TargetParser

open Yaml (Event)

/-! ## The loop -/

/-- The texts of an item. -/
structure Texts where
  lgcClusterID : String
  phyClusterID : String
  numCoresString : String
  deriving DecidableEq, Repr

/-- What the loop carries, and the registry. -/
structure State where
  docMarker : Bool
  parsingItem : Bool
  isConfigForCurrentTarget : Bool
  deviceParsingDone : Bool
  keyTracker : List String
  texts : Texts
  target : Target

abbrev Outcome := EventLoop.Outcome State (ErrCode × Target)

/-- A text under the key on top of the stack. -/
def Texts.set (texts : Texts) (topKey value : String) : Texts :=
  if topKey = "LgcId" then { texts with lgcClusterID := value }
  else if topKey = "PhyId" then { texts with phyClusterID := value }
  else if topKey = "NumCores" then { texts with numCoresString := value }
  else texts

def addScalar (targetName : String) (s : State) (topKey value : String) : State :=
  if topKey = "TargetName" then
    if (value = "*" ∨ value = targetName) ∧ s.deviceParsingDone = false then
      { s with isConfigForCurrentTarget := true, deviceParsingDone := true }
    else s
  else { s with texts := s.texts.set topKey value }

/-- The end of a mapping under a key. -/
def closeItem (s : State) (topKey : String) : State :=
  if topKey = "ClusterInfo" then
    if s.isConfigForCurrentTarget then
      { s with
        parsingItem := false
        texts := { s.texts with lgcClusterID := "", phyClusterID := "" }
        target := s.target.addClusterMapping s.texts.lgcClusterID s.texts.phyClusterID }
    else { s with parsingItem := false }
  else if s.isConfigForCurrentTarget then
    { s with
      parsingItem := false
      texts := { s.texts with phyClusterID := "", numCoresString := "" }
      target := s.target.addClusterSpreadInfo s.texts.phyClusterID s.texts.numCoresString }
  else { s with parsingItem := false }

/-- One event. -/
def step (targetName : String) (s : State) : Event → Outcome
  | .streamEnd => .returned (.RC_SUCCESS, s.target)
  | .sequenceEnd =>
    match s.keyTracker with
    | [] => .returned (.RC_YAML_INVALID_SYNTAX, s.target)
    | _ :: keyTracker => .running { s with keyTracker := keyTracker }
  | .mappingStart =>
    .running (if s.docMarker then { s with parsingItem := true } else { s with docMarker := true })
  | .mappingEnd =>
    match s.keyTracker with
    | [] => .running s
    | topKey :: _ => .running (if s.parsingItem then closeItem s topKey else s)
  | .scalar value =>
    match hear s.keyTracker value with
    | .key keyTracker =>
      .running
        { s with
          isConfigForCurrentTarget := s.isConfigForCurrentTarget && value ≠ "TargetName"
          keyTracker := keyTracker }
    | .data topKey keyTracker =>
      .running (addScalar targetName { s with keyTracker := keyTracker } topKey value)
    | .unexpected => .returned (.RC_YAML_INVALID_SYNTAX, s.target)
  | _ => .running s

/-- The state before the first event. -/
def State.initial (t : Target) : State where
  docMarker := false
  parsingItem := false
  isConfigForCurrentTarget := false
  deviceParsingDone := false
  keyTracker := []
  texts := ⟨"", "", ""⟩
  target := t

/-- `parseTargetConfigYamlNode` on the events of a file.  Where there are no more, libyaml has found an
error. -/
def parseTargetConfigYamlNode (targetName : String) (t : Target) (events : List Event) : Outcome :=
  EventLoop.run (step targetName) (fun s => (.RC_YAML_PARSING_ERROR, s.target)) (.initial t) events

/-! ## Files of entries -/

/-- The lists of an entry. -/
inductive Section where
  | ClusterInfo | ClusterSpread
  deriving DecidableEq, Repr

def Section.text : Section → String
  | .ClusterInfo => "ClusterInfo"
  | .ClusterSpread => "ClusterSpread"

/-- The keys of their items. -/
inductive Key where
  | LgcId | PhyId | NumCores
  deriving DecidableEq, Repr

def Key.text : Key → String
  | .LgcId => "LgcId"
  | .PhyId => "PhyId"
  | .NumCores => "NumCores"

/-- An item; a key may be given any number of times, and in any order. -/
abbrev Item := List (Key × String)

def Item.content (item : Item) : List Event :=
  item.flatMap fun field => [.scalar field.1.text, .scalar field.2]

def Item.events (item : Item) : List Event := .mappingStart :: (item.content ++ [.mappingEnd])

/-- The entry for some targets: their names, then the lists in any order. -/
structure Entry where
  names : List String
  lists : List (Section × List Item)
  deriving DecidableEq, Repr

def listEvents (list : Section × List Item) : List Event :=
  .scalar list.1.text :: .sequenceStart :: (list.2.flatMap Item.events ++ [.sequenceEnd])

def nameEvents (names : List String) : List Event :=
  .scalar "TargetName" :: .sequenceStart :: (names.map Event.scalar ++ [.sequenceEnd])

def Entry.events (entry : Entry) : List Event :=
  .mappingStart :: (nameEvents entry.names ++ (entry.lists.flatMap listEvents ++ [.mappingEnd]))

/-- The events of a file. -/
def document (entries : List Entry) : List Event :=
  [.streamStart, .documentStart, .mappingStart, .scalar "TargetConfig", .sequenceStart] ++
    (entries.flatMap Entry.events ++ [.sequenceEnd, .mappingEnd, .documentEnd, .streamEnd])

/-! ## Entries as calls -/

/-- A call of the registry. -/
inductive ClusterCall where
  | mapping (logicalIDString physicalIDString : String)
  | spread (physicalIDString numCoresString : String)
  deriving DecidableEq, Repr

def Section.call (texts : Texts) : Section → ClusterCall
  | .ClusterInfo => .mapping texts.lgcClusterID texts.phyClusterID
  | .ClusterSpread => .spread texts.phyClusterID texts.numCoresString

/-- The texts of an item by itself. -/
def Item.texts (item : Item) : Texts where
  lgcClusterID := (last? .LgcId item).getD ""
  phyClusterID := (last? .PhyId item).getD ""
  numCoresString := (last? .NumCores item).getD ""

/-- The keys that an item of a list has to have. -/
def Section.required : Section → List Key
  | .ClusterInfo => [.LgcId, .PhyId]
  | .ClusterSpread => [.PhyId, .NumCores]

/-- No text is the name of a key, every item has its keys, and there is one: where an entry without items
ends the parser takes it for an item, with the texts of an earlier one. -/
structure Entry.WellFormed (entry : Entry) : Prop where
  names : ∀ name ∈ entry.names, isKey name = false
  texts : ∀ list ∈ entry.lists, ∀ item ∈ list.2, ∀ field ∈ item, isKey field.2 = false
  complete : ∀ list ∈ entry.lists, ∀ item ∈ list.2, ∀ key ∈ list.1.required, (last? key item).isSome
  nonempty : ∃ list ∈ entry.lists, list.2 ≠ []

def Entry.calls (entry : Entry) : List ClusterCall :=
  entry.lists.flatMap fun list => list.2.map fun item => list.1.call item.texts

/-- The entry names the target, or all. -/
def Entry.isFor (targetName : String) (entry : Entry) : Bool :=
  entry.names.any fun name => name = "*" || name = targetName

end TargetParser

def Target.call (t : Target) : TargetParser.ClusterCall → Target
  | .mapping logicalIDString physicalIDString => t.addClusterMapping logicalIDString physicalIDString
  | .spread physicalIDString numCoresString => t.addClusterSpreadInfo physicalIDString numCoresString

def Target.callAll (t : Target) (calls : List TargetParser.ClusterCall) : Target :=
  calls.foldl Target.call t

namespace TargetParser

open Yaml (Event)

section Runs

variable {targetName : String} {texts : Texts} {t : Target} {base : List String}
  {parsing current done : Bool}

/-- The keys of an item are keys of no list, and not the name of a target. -/
theorem isKey_key (key : Key) : isKey key.text = true := by cases key <;> decide

theorem isKeyTypeList_key (key : Key) : isKeyTypeList key.text = false := by cases key <;> decide

theorem key_ne_targetName (key : Key) : key.text ≠ "TargetName" := by cases key <;> decide

theorem isKey_section (list : Section) : isKey list.text = true := by cases list <;> decide

theorem section_ne_targetName (list : Section) : list.text ≠ "TargetName" := by cases list <;> decide

/-- The loop inside the document. -/
def listening (parsing current done : Bool) (keyTracker : List String) (texts : Texts) (t : Target) :
    State where
  docMarker := true
  parsingItem := parsing
  isConfigForCurrentTarget := current
  deviceParsingDone := done
  keyTracker := keyTracker
  texts := texts
  target := t

/-- A key goes on the stack. -/
theorem reaches_scalar_key {key : String} (hkey : isKey key = true) (hname : key ≠ "TargetName") :
    Reaches (step targetName) (listening parsing current done base texts t) [.scalar key]
      (listening parsing current done (key :: base) texts t) := by
  refine .single ?_
  have hhear : hear base key = .key (key :: base) := RestuneParser.hear_key hkey
  simp [step, listening, hhear, hname]

/-- A key and a text that is none. -/
theorem reaches_field (key : Key) {text : String} (hplain : isKey text = false) :
    Reaches (step targetName) (listening parsing current done base texts t)
      [.scalar key.text, .scalar text]
      (listening parsing current done base (texts.set key.text text) t) := by
  refine (reaches_scalar_key (isKey_key key) (key_ne_targetName key)).append (.single ?_)
  have hhear : hear (key.text :: base) text = .data key.text base :=
    RestuneParser.hear_value hplain (isKeyTypeList_key key)
  simp only [step, listening, hhear, addScalar, if_neg (key_ne_targetName key)]

def Texts.setAll (texts : Texts) (item : Item) : Texts :=
  item.foldl (fun texts field => texts.set field.1.text field.2) texts

/-- The fields of an item are read into their texts, the last one of a key winning. -/
theorem reaches_content {item : Item} (hplain : ∀ field ∈ item, isKey field.2 = false) :
    Reaches (step targetName) (listening parsing current done base texts t) item.content
      (listening parsing current done base (texts.setAll item) t) := by
  induction item generalizing texts with
  | nil => exact .nil _
  | cons field item ih =>
    rw [List.forall_mem_cons] at hplain
    exact (reaches_field field.1 hplain.1).append (ih hplain.2)

/-- What an item gives takes the place of what was there. -/
theorem setAll_eq (texts : Texts) (item : Item) : texts.setAll item =
    { lgcClusterID := (last? .LgcId item).getD texts.lgcClusterID
      phyClusterID := (last? .PhyId item).getD texts.phyClusterID
      numCoresString := (last? .NumCores item).getD texts.numCoresString } := by
  induction item generalizing texts with
  | nil => rfl
  | cons field item ih =>
    obtain ⟨key, text⟩ := field
    have hset : texts.setAll ((key, text) :: item) = (texts.set key.text text).setAll item := rfl
    rw [hset, ih]
    simp only [LastWrite.last?_cons]
    cases key <;> cases last? Key.LgcId item <;> cases last? Key.PhyId item <;>
      cases last? Key.NumCores item <;> rfl

/-- A complete item says all that its list needs, whatever was there. -/
theorem call_setAll (list : Section) (texts : Texts) {item : Item}
    (hcomplete : ∀ key ∈ list.required, (last? key item).isSome) :
    list.call (texts.setAll item) = list.call item.texts := by
  rw [setAll_eq]
  cases list with
  | ClusterInfo =>
    obtain ⟨lgc, hlgc⟩ := Option.isSome_iff_exists.mp (hcomplete .LgcId (by decide))
    obtain ⟨phy, hphy⟩ := Option.isSome_iff_exists.mp (hcomplete .PhyId (by decide))
    simp [Section.call, Item.texts, hlgc, hphy]
  | ClusterSpread =>
    obtain ⟨phy, hphy⟩ := Option.isSome_iff_exists.mp (hcomplete .PhyId (by decide))
    obtain ⟨num, hnum⟩ := Option.isSome_iff_exists.mp (hcomplete .NumCores (by decide))
    simp [Section.call, Item.texts, hphy, hnum]

/-- The end of an item is its call, if the entry is the one for the target. -/
theorem step_mappingEnd (list : Section) :
    ∃ texts', step targetName (listening true current done (list.text :: base) texts t) .mappingEnd =
      .running (listening false current done (list.text :: base) texts'
        (if current then t.call (list.call texts) else t)) := by
  cases list <;> cases current <;> exact ⟨_, rfl⟩

/-- At the end of an item its call is made. -/
theorem reaches_item (list : Section) {item : Item} (hplain : ∀ field ∈ item, isKey field.2 = false)
    (hcomplete : ∀ key ∈ list.required, (last? key item).isSome) :
    ∃ texts', Reaches (step targetName) (listening parsing current done (list.text :: base) texts t)
      item.events (listening false current done (list.text :: base) texts'
        (if current then t.call (list.call item.texts) else t)) := by
  have hstart : step targetName (listening parsing current done (list.text :: base) texts t)
      .mappingStart = .running (listening true current done (list.text :: base) texts t) := rfl
  have hcontent : Reaches (step targetName)
      (listening true current done (list.text :: base) texts t) item.content
      (listening true current done (list.text :: base) (texts.setAll item) t) := reaches_content hplain
  obtain ⟨texts', hend⟩ := @step_mappingEnd targetName (texts.setAll item) t base current done list
  rw [call_setAll list texts hcomplete] at hend
  exact ⟨texts', .cons hstart (hcontent.append (.single hend))⟩

/-- The items of a list, one after the other. -/
theorem reaches_items (list : Section) {items : List Item}
    (hplain : ∀ item ∈ items, ∀ field ∈ item, isKey field.2 = false)
    (hcomplete : ∀ item ∈ items, ∀ key ∈ list.required, (last? key item).isSome) :
    ∃ texts', Reaches (step targetName) (listening parsing current done (list.text :: base) texts t)
      (items.flatMap Item.events)
      (listening (parsing && items.isEmpty) current done (list.text :: base) texts'
        (if current then t.callAll (items.map fun item => list.call item.texts) else t)) := by
  induction items generalizing parsing texts t with
  | nil =>
    refine ⟨texts, ?_⟩
    have hsame : (if current then t.callAll [] else t) = t := by cases current <;> rfl
    rw [List.flatMap_nil, List.map_nil, hsame, List.isEmpty_nil, Bool.and_true]
    exact .nil _
  | cons item items ih =>
    rw [List.forall_mem_cons] at hplain hcomplete
    obtain ⟨texts₁, hitem⟩ := @reaches_item targetName texts t base parsing current done list item
      hplain.1 hcomplete.1
    obtain ⟨texts₂, hitems⟩ := @ih texts₁ (if current then t.call (list.call item.texts) else t) false
      hplain.2 hcomplete.2
    refine ⟨texts₂, ?_⟩
    have hreach := hitem.append hitems
    cases current <;> simpa [Target.callAll] using hreach

/-- A list, its key and its brackets. -/
theorem reaches_list {list : Section × List Item}
    (hplain : ∀ item ∈ list.2, ∀ field ∈ item, isKey field.2 = false)
    (hcomplete : ∀ item ∈ list.2, ∀ key ∈ list.1.required, (last? key item).isSome) :
    ∃ texts', Reaches (step targetName) (listening parsing current done base texts t)
      (listEvents list) (listening (parsing && list.2.isEmpty) current done base texts'
        (if current then t.callAll (list.2.map fun item => list.1.call item.texts) else t)) := by
  have hkey : Reaches (step targetName) (listening parsing current done base texts t)
      [.scalar list.1.text] (listening parsing current done (list.1.text :: base) texts t) :=
    reaches_scalar_key (isKey_section list.1) (section_ne_targetName list.1)
  have hopen : Reaches (step targetName)
      (listening parsing current done (list.1.text :: base) texts t) [.sequenceStart]
      (listening parsing current done (list.1.text :: base) texts t) := .single rfl
  obtain ⟨texts', hitems⟩ := @reaches_items targetName texts t base parsing current done list.1 list.2
    hplain hcomplete
  exact ⟨texts', hkey.append (hopen.append (hitems.append (.single rfl)))⟩

/-- **The lists of an entry** become calls, in the order of the document. -/
theorem reaches_lists {lists : List (Section × List Item)}
    (hplain : ∀ list ∈ lists, ∀ item ∈ list.2, ∀ field ∈ item, isKey field.2 = false)
    (hcomplete : ∀ list ∈ lists, ∀ item ∈ list.2, ∀ key ∈ list.1.required, (last? key item).isSome) :
    ∃ texts', Reaches (step targetName) (listening parsing current done base texts t)
      (lists.flatMap listEvents)
      (listening (parsing && lists.all fun list => list.2.isEmpty) current done base texts'
        (if current then t.callAll (lists.flatMap fun list =>
          list.2.map fun item => list.1.call item.texts) else t)) := by
  induction lists generalizing parsing texts t with
  | nil =>
    refine ⟨texts, ?_⟩
    have hsame : (if current then t.callAll [] else t) = t := by cases current <;> rfl
    rw [List.flatMap_nil, List.flatMap_nil, hsame, List.all_nil, Bool.and_true]
    exact .nil _
  | cons list lists ih =>
    rw [List.forall_mem_cons] at hplain hcomplete
    obtain ⟨texts₁, hlist⟩ := @reaches_list targetName texts t base parsing current done list
      hplain.1 hcomplete.1
    obtain ⟨texts₂, hlists⟩ := @ih texts₁
      (if current then t.callAll (list.2.map fun item => list.1.call item.texts) else t)
      (parsing && list.2.isEmpty) hplain.2 hcomplete.2
    refine ⟨texts₂, ?_⟩
    have hreach := hlist.append hlists
    cases current <;>
      simpa [Target.callAll, List.foldl_append, Bool.and_assoc] using hreach

/-- The names of an entry: the first entry that names the target is the one, and no later one. -/
theorem reaches_names {names : List String} (hplain : ∀ name ∈ names, isKey name = false) :
    Reaches (step targetName) (listening parsing current done ("TargetName" :: base) texts t)
      (names.map Event.scalar)
      (listening parsing
        (current || (!done && names.any fun name => name = "*" || name = targetName))
        (done || names.any fun name => name = "*" || name = targetName)
        ("TargetName" :: base) texts t) := by
  induction names generalizing current done with
  | nil =>
    rw [List.any_nil, Bool.and_false, Bool.or_false, Bool.or_false]
    exact .nil _
  | cons name names ih =>
    rw [List.forall_mem_cons] at hplain
    have hhear : hear ("TargetName" :: base) name = .data "TargetName" ("TargetName" :: base) :=
      RestuneParser.hear_list hplain.1 (by decide)
    have hname : step targetName (listening parsing current done ("TargetName" :: base) texts t)
        (.scalar name) = .running (listening parsing
          (current || (!done && (name = "*" || name = targetName)))
          (done || (name = "*" || name = targetName)) ("TargetName" :: base) texts t) := by
      simp only [step, listening, hhear, addScalar, if_true]
      cases done <;> by_cases hmatch : name = "*" ∨ name = targetName <;> simp_all
    have hrest := @ih (current || (!done && (name = "*" || name = targetName)))
      (done || (name = "*" || name = targetName)) hplain.2
    refine .cons hname ?_
    rw [List.any_cons]
    generalize (names.any fun name => name = "*" || name = targetName) = later at hrest ⊢
    generalize (decide (name = "*") || decide (name = targetName)) = here at hrest ⊢
    cases current <;> cases done <;> cases here <;> cases later <;> exact hrest

/-- **An entry is its calls**, or nothing: it counts when it names the target and none has before. -/
theorem reaches_entry {entry : Entry} (hwell : entry.WellFormed) :
    ∃ texts', Reaches (step targetName)
      (listening parsing current done ["TargetConfig"] texts t) entry.events
      (listening false (!done && entry.isFor targetName) (done || entry.isFor targetName)
        ["TargetConfig"] texts'
        (if !done && entry.isFor targetName then t.callAll entry.calls else t)) := by
  have hopen : Reaches (step targetName)
      (listening parsing current done ["TargetConfig"] texts t) [.mappingStart]
      (listening true current done ["TargetConfig"] texts t) := .single rfl
  have hkey : Reaches (step targetName) (listening true current done ["TargetConfig"] texts t)
      [.scalar "TargetName", .sequenceStart]
      (listening true false done ["TargetName", "TargetConfig"] texts t) := by
    refine .cons ?_ (.single rfl)
    have hhear : hear ["TargetConfig"] "TargetName" = .key ["TargetName", "TargetConfig"] := by decide
    simp [step, listening, hhear]
  have hnames : Reaches (step targetName)
      (listening true false done ["TargetName", "TargetConfig"] texts t)
      (entry.names.map Event.scalar ++ [.sequenceEnd])
      (listening true (!done && entry.isFor targetName) (done || entry.isFor targetName)
        ["TargetConfig"] texts t) := by
    have hclose : ∀ current done, Reaches (step targetName)
        (listening true current done ["TargetName", "TargetConfig"] texts t) [.sequenceEnd]
        (listening true current done ["TargetConfig"] texts t) := fun _ _ => .single rfl
    have hreach := (@reaches_names targetName texts t ["TargetConfig"] true false done entry.names
      hwell.names).append (hclose _ _)
    rwa [Bool.false_or] at hreach
  obtain ⟨texts', hlists⟩ := @reaches_lists targetName texts t ["TargetConfig"] true
    (!done && entry.isFor targetName) (done || entry.isFor targetName) entry.lists hwell.texts
    hwell.complete
  -- the lists have an item, so the end of the entry itself is not taken for one
  have hsome : (true && entry.lists.all fun list => list.2.isEmpty) = false := by
    obtain ⟨list, hlist, hne⟩ := hwell.nonempty
    rw [Bool.true_and, List.all_eq_false]
    exact ⟨list, hlist, by simpa using hne⟩
  rw [hsome] at hlists
  have hclose : ∀ current done texts t, Reaches (step targetName)
      (listening false current done ["TargetConfig"] texts t) [.mappingEnd]
      (listening false current done ["TargetConfig"] texts t) := fun _ _ _ _ => .single rfl
  refine ⟨texts', ?_⟩
  have hreach := hopen.append (hkey.append (hnames.append (hlists.append (hclose _ _ _ _))))
  simpa [Entry.events, nameEvents, Entry.calls] using hreach

/-- Of the entries the first that names the target counts, if none has before. -/
theorem reaches_entries {entries : List Entry} (hwell : ∀ entry ∈ entries, entry.WellFormed) :
    ∃ current' done' texts', Reaches (step targetName)
      (listening false current done ["TargetConfig"] texts t) (entries.flatMap Entry.events)
      (listening false current' done' ["TargetConfig"] texts'
        (if done then t
          else ((entries.find? (Entry.isFor targetName)).map (t.callAll ·.calls)).getD t)) := by
  induction entries generalizing current done texts t with
  | nil =>
    refine ⟨current, done, texts, ?_⟩
    rw [List.find?_nil, Option.map_none, Option.getD_none, ite_self]
    exact .nil _
  | cons entry entries ih =>
    rw [List.forall_mem_cons] at hwell
    obtain ⟨texts₁, hentry⟩ := @reaches_entry targetName texts t false current done entry hwell.1
    obtain ⟨current₂, done₂, texts₂, hentries⟩ := @ih texts₁
      (if !done && entry.isFor targetName then t.callAll entry.calls else t)
      (!done && entry.isFor targetName) (done || entry.isFor targetName) hwell.2
    refine ⟨current₂, done₂, texts₂, ?_⟩
    have hreach := hentry.append hentries
    cases done with
    | true => simpa using hreach
    | false =>
      cases hfor : entry.isFor targetName with
      | true => simpa [hfor] using hreach
      | false => simpa [hfor] using hreach

end Runs

/-! ## What the lookups answer -/

/-- The logical and the physical cluster of a call that maps one to the other. -/
def ClusterCall.mapped : ClusterCall → Option (Int × Int)
  | .mapping logicalIDString physicalIDString =>
    match stoi 10 logicalIDString, stoi 10 physicalIDString with
    | some logicalID, some physicalID => some (logicalID, physicalID)
    | _, _ => none
  | .spread _ _ => none

/-- The physical cluster and its number of cores, of a call that sets it. -/
def ClusterCall.sized : ClusterCall → Option (Int × Int)
  | .mapping _ _ => none
  | .spread physicalIDString numCoresString =>
    match stoi 10 physicalIDString, stoi 10 numCoresString with
    | some physicalID, some numCores => some (physicalID, numCores)
    | _, _ => none

/-- No cluster is mapped after one has been sized. -/
def InOrder : List ClusterCall → Prop
  | [] => True
  | .mapping _ _ :: calls => InOrder calls
  | .spread _ _ :: calls => ∀ call ∈ calls, call.mapped = none

/-- The clusters of a target, in terms of those it had and of some calls. -/
structure Described (t t' : Target) (calls : List ClusterCall) : Prop where
  mapping : ∀ l, t'.registry.mLogicalToPhysicalClusterMapping.lookup l =
    (last? l (calls.filterMap ClusterCall.mapped)).or
      (t.registry.mLogicalToPhysicalClusterMapping.lookup l)
  known : ∀ p, p ∈ t'.registry.mPhysicalClusters ↔ p ∈ t.registry.mPhysicalClusters ∨
    p ∈ (calls.filterMap ClusterCall.mapped).map Prod.snd
  sizes : InOrder calls → ∀ p info, t'.registry.mPhysicalClusters.lookup p = some info →
    info.mNumCpus = (last? p (calls.filterMap ClusterCall.sized)).getD
      (((t.registry.mPhysicalClusters.lookup p).map (·.mNumCpus)).getD 0)
  starts : ∀ p info, t'.registry.mPhysicalClusters.lookup p = some info →
    info.mStartCpu = ((t.registry.mPhysicalClusters.lookup p).map (·.mStartCpu)).getD p
  cGroups : t'.registry.mCGroupMapping = t.registry.mCGroupMapping

section Calls

variable {t : Target}

/-- A call with two numbers maps one to the other. -/
theorem call_of_mapped {call : ClusterCall} {l p : Int} (h : call.mapped = some (l, p)) :
    (t.call call).registry = t.registry.addClusterMapping l p ∧ call.sized = none := by
  cases call with
  | spread => cases h
  | mapping logicalIDString physicalIDString =>
    simp only [ClusterCall.mapped] at h
    split at h
    · rename_i l' p' hl hp
      cases h
      simp only [Target.call, Target.addClusterMapping, hl, hp, ClusterCall.sized, and_self]
    · cases h

theorem call_of_sized {call : ClusterCall} {p n : Int} (h : call.sized = some (p, n)) :
    (t.call call).registry = t.registry.addClusterSpreadInfo p n ∧ call.mapped = none := by
  cases call with
  | mapping => cases h
  | spread physicalIDString numCoresString =>
    simp only [ClusterCall.sized] at h
    split at h
    · rename_i p' n' hp hn
      cases h
      simp only [Target.call, Target.addClusterSpreadInfo, hp, hn, ClusterCall.mapped, and_self]
    · cases h

/-- A call with a text that is no number has no effect. -/
theorem call_of_none {call : ClusterCall} (hmapped : call.mapped = none) (hsized : call.sized = none) :
    t.call call = t := by
  cases call with
  | mapping logicalIDString physicalIDString =>
    simp only [ClusterCall.mapped] at hmapped
    simp only [Target.call, Target.addClusterMapping]
    split at hmapped
    · cases hmapped
    · rfl
  | spread physicalIDString numCoresString =>
    simp only [ClusterCall.sized] at hsized
    simp only [Target.call, Target.addClusterSpreadInfo]
    split at hsized
    · cases hsized
    · rfl

/-- A cluster that is mapped for the first time has no cores and starts at its own id. -/
theorem lookup_addClusterMapping (reg : TargetRegistry) (l p q : Int) :
    (reg.addClusterMapping l p).mPhysicalClusters.lookup q =
      (reg.mPhysicalClusters.lookup q).or (if q = p then some ⟨p, p, 0⟩ else none) := by
  simp only [TargetRegistry.addClusterMapping]
  by_cases hknown : p ∈ reg.mPhysicalClusters
  · rw [if_pos hknown]
    by_cases heq : q = p
    · obtain ⟨info, hinfo⟩ := Option.isSome_iff_exists.mp (AList.lookup_isSome.mpr hknown)
      rw [heq, hinfo, Option.some_or]
    · rw [if_neg heq, Option.or_none]
  · rw [if_neg hknown]
    by_cases heq : q = p
    · rw [heq, AList.lookup_insert, AList.lookup_eq_none.mpr hknown, Option.none_or, if_pos rfl]
    · rw [AList.lookup_insert_ne heq, if_neg heq, Option.or_none]

/-- Only a known cluster is sized. -/
theorem lookup_addClusterSpreadInfo (reg : TargetRegistry) (p n q : Int) :
    (reg.addClusterSpreadInfo p n).mPhysicalClusters.lookup q =
      (reg.mPhysicalClusters.lookup q).map fun info =>
        if q = p then { info with mNumCpus := n } else info := by
  simp only [TargetRegistry.addClusterSpreadInfo]
  cases hknown : reg.mPhysicalClusters.lookup p with
  | none =>
    by_cases heq : q = p
    · rw [heq, hknown, Option.map_none]
    · simp [heq]
  | some info =>
    by_cases heq : q = p
    · rw [heq, AList.lookup_insert, hknown, Option.map_some, if_pos rfl]
    · simp [AList.lookup_insert_ne heq, heq]

/-- Without mappings there is no order to keep. -/
theorem inOrder_of_unmapped {calls : List ClusterCall} (h : ∀ call ∈ calls, call.mapped = none) :
    InOrder calls := by
  induction calls with
  | nil => trivial
  | cons call calls ih =>
    rw [List.forall_mem_cons] at h
    cases call with
    | mapping => exact ih h.2
    | spread => exact h.2

theorem InOrder.tail {call : ClusterCall} {calls : List ClusterCall} (h : InOrder (call :: calls)) :
    InOrder calls := by
  cases call with
  | mapping => exact h
  | spread => exact inOrder_of_unmapped h

theorem described_refl (t : Target) : Described t t [] where
  mapping l := by rw [List.filterMap_nil, LastWrite.last?_nil, Option.none_or]
  known p := by simp
  sizes _ p info hinfo := by rw [hinfo]; rfl
  starts p info hinfo := by rw [hinfo]; rfl
  cGroups := rfl

/-- A call that maps a cluster, in front of the others. -/
theorem Described.mapped {t' : Target} {call : ClusterCall} {calls : List ClusterCall} {l p : Int}
    (h : Described (t.call call) t' calls) (hmapped : call.mapped = some (l, p)) :
    Described t t' (call :: calls) := by
  obtain ⟨hregistry, hsized⟩ := @call_of_mapped t call l p hmapped
  have hmaps : (call :: calls).filterMap ClusterCall.mapped =
      (l, p) :: calls.filterMap ClusterCall.mapped := List.filterMap_cons_some hmapped
  have hsizes : (call :: calls).filterMap ClusterCall.sized = calls.filterMap ClusterCall.sized :=
    List.filterMap_cons_none hsized
  have hlookup : ∀ q, (t.call call).registry.mPhysicalClusters.lookup q =
      (t.registry.mPhysicalClusters.lookup q).or (if q = p then some ⟨p, p, 0⟩ else none) := by
    intro q
    rw [hregistry, lookup_addClusterMapping]
  refine ⟨fun l' => ?_, fun q => ?_, fun hin q info hinfo => ?_, fun q info hinfo => ?_, ?_⟩
  · rw [h.mapping, hmaps, LastWrite.last?_cons, hregistry, TargetRegistry.addClusterMapping, Option.or_assoc]
    congr 1
    by_cases heq : l = l'
    · rw [heq, AList.lookup_insert, if_pos rfl, Option.some_or]
    · rw [AList.lookup_insert_ne (Ne.symm heq), if_neg heq, Option.none_or]
  · rw [h.known, hmaps, List.map_cons, List.mem_cons, ← AList.lookup_isSome, hlookup,
      Option.isSome_or, ← AList.lookup_isSome, Bool.or_eq_true, or_assoc]
    refine or_congr Iff.rfl (or_congr ?_ Iff.rfl)
    by_cases heq : q = p <;> simp [heq]
  · rw [h.sizes hin.tail q info hinfo, hsizes, hlookup]
    cases t.registry.mPhysicalClusters.lookup q with
    | some info => rfl
    | none => by_cases heq : q = p <;> simp [heq]
  · rw [h.starts q info hinfo, hlookup]
    cases t.registry.mPhysicalClusters.lookup q with
    | some info => rfl
    | none => by_cases heq : q = p <;> simp [heq]
  · rw [h.cGroups, hregistry]
    rfl

/-- A call that sizes a cluster, in front of the others. -/
theorem Described.sized {t' : Target} {call : ClusterCall} {calls : List ClusterCall} {p n : Int}
    (h : Described (t.call call) t' calls) (hsized : call.sized = some (p, n)) :
    Described t t' (call :: calls) := by
  obtain ⟨hregistry, hmapped⟩ := @call_of_sized t call p n hsized
  have hmaps : (call :: calls).filterMap ClusterCall.mapped = calls.filterMap ClusterCall.mapped :=
    List.filterMap_cons_none hmapped
  have hsizes : (call :: calls).filterMap ClusterCall.sized =
      (p, n) :: calls.filterMap ClusterCall.sized := List.filterMap_cons_some hsized
  have hlookup : ∀ q, (t.call call).registry.mPhysicalClusters.lookup q =
      (t.registry.mPhysicalClusters.lookup q).map fun info =>
        if q = p then { info with mNumCpus := n } else info := by
    intro q
    rw [hregistry, lookup_addClusterSpreadInfo]
  refine ⟨fun l => ?_, fun q => ?_, fun hin q info hinfo => ?_, fun q info hinfo => ?_, ?_⟩
  · rw [h.mapping, hmaps, hregistry]
    rfl
  · rw [h.known, hmaps, ← AList.lookup_isSome, hlookup, Option.isSome_map, AList.lookup_isSome]
  · -- no cluster is mapped any more, so this one was known before
    have hrest : calls.filterMap ClusterCall.mapped = [] := by
      cases call with
      | mapping => cases hsized
      | spread => exact List.filterMap_eq_nil_iff.mpr hin
    have hknown : q ∈ (t.call call).registry.mPhysicalClusters := by
      have hmem := (h.known q).mp (AList.lookup_isSome.mp (by rw [hinfo]; rfl))
      simpa [hrest] using hmem
    rw [h.sizes hin.tail q info hinfo, hsizes, LastWrite.last?_cons, hlookup]
    rw [← AList.lookup_isSome, hlookup, Option.isSome_map] at hknown
    obtain ⟨old, hold⟩ := Option.isSome_iff_exists.mp hknown
    rw [hold]
    cases last? q (calls.filterMap ClusterCall.sized) with
    | some n' => rfl
    | none =>
      by_cases heq : p = q
      · simp [heq]
      · simp [heq, Ne.symm heq]
  · rw [h.starts q info hinfo, hlookup]
    cases t.registry.mPhysicalClusters.lookup q with
    | none => rfl
    | some old => by_cases heq : q = p <;> simp [heq]
  · rw [h.cGroups, hregistry]
    rfl

/-- **What a sequence of calls describes** is in the registry after it. -/
theorem described_callAll (t : Target) (calls : List ClusterCall) :
    Described t (t.callAll calls) calls := by
  induction calls generalizing t with
  | nil => exact described_refl t
  | cons call calls ih =>
    have hrest : Described (t.call call) (t.callAll (call :: calls)) calls := ih (t.call call)
    cases hmapped : call.mapped with
    | some clusters => exact hrest.mapped hmapped
    | none =>
      cases hsized : call.sized with
      | some size => exact hrest.sized hsized
      | none =>
        rw [call_of_none hmapped hsized] at hrest
        have hmaps : (call :: calls).filterMap ClusterCall.mapped =
            calls.filterMap ClusterCall.mapped := List.filterMap_cons_none hmapped
        have hsizes : (call :: calls).filterMap ClusterCall.sized =
            calls.filterMap ClusterCall.sized := List.filterMap_cons_none hsized
        exact
          { mapping := by rw [hmaps]; exact hrest.mapping
            known := by rw [hmaps]; exact hrest.known
            sizes := fun hin => by rw [hsizes]; exact hrest.sizes hin.tail
            starts := hrest.starts
            cGroups := hrest.cGroups }

end Calls

/-- A whole file is read to its end, and the registry gets the calls of the first entry that names the
target. -/
theorem parse_document (targetName : String) (t : Target) {entries : List Entry}
    (hwell : ∀ entry ∈ entries, entry.WellFormed) :
    parseTargetConfigYamlNode targetName t (document entries) = .returned (.RC_SUCCESS,
      ((entries.find? (Entry.isFor targetName)).map (t.callAll ·.calls)).getD t) := by
  have hheader : Reaches (step targetName) (.initial t)
      [.streamStart, .documentStart, .mappingStart, .scalar "TargetConfig", .sequenceStart]
      (listening false false false ["TargetConfig"] ⟨"", "", ""⟩ t) :=
    .cons rfl (.cons rfl (.cons rfl (.cons rfl (.single rfl))))
  obtain ⟨current, done, texts, hentries⟩ := @reaches_entries targetName ⟨"", "", ""⟩ t false false
    entries hwell
  rw [parseTargetConfigYamlNode, document, EventLoop.run_of_reaches hheader,
    EventLoop.run_of_reaches hentries]
  rfl

/-- **The target of a file.**  A file is read to its end.  The first entry that names the target decides,
and no other has any effect: its mappings and sizes, the last one for each cluster, are what the lookups
answer, a cluster that is not sized keeps the cores it had, and a text that is no number is passed over. -/
theorem target_of_document (targetName : String) (t : Target) {entries : List Entry}
    (hwell : ∀ entry ∈ entries, entry.WellFormed) :
    ∃ t', parseTargetConfigYamlNode targetName t (document entries) = .returned (.RC_SUCCESS, t') ∧
      match entries.find? (Entry.isFor targetName) with
      | none => t' = t
      | some entry => Described t t' entry.calls := by
  refine ⟨_, parse_document targetName t hwell, ?_⟩
  cases entries.find? (Entry.isFor targetName) with
  | none => rfl
  | some entry => exact described_callAll t entry.calls

namespace Sample

/-- One cluster, mapped to a physical one of two cores. -/
def otherTarget : Entry where
  names := ["other"]
  lists := [(.ClusterInfo, [[(.LgcId, "0"), (.PhyId, "9")]])]

def thisTarget : Entry where
  names := ["soc", "socLite"]
  lists :=
    [(.ClusterInfo, [[(.LgcId, "0"), (.PhyId, "4")], [(.PhyId, "0"), (.LgcId, "1")]]),
     (.ClusterSpread, [[(.PhyId, "4"), (.NumCores, "3")]])]

theorem wellFormed : ∀ entry ∈ [otherTarget, thisTarget], entry.WellFormed := by
  intro entry hentry
  rcases List.mem_cons.mp hentry with rfl | hentry
  · exact ⟨by decide, by decide, by decide, by decide⟩
  · obtain rfl := List.mem_singleton.mp hentry
    exact ⟨by decide, by decide, by decide, by decide⟩

end Sample

theorem target_of_sampleDocument : ∃ t',
    parseTargetConfigYamlNode "soc" ⟨.empty, 0⟩ (document [Sample.otherTarget, Sample.thisTarget]) =
      .returned (.RC_SUCCESS, t') ∧
    Described ⟨.empty, 0⟩ t' [.mapping "0" "4", .mapping "1" "0", .spread "4" "3"] := by
  have hfind : [Sample.otherTarget, Sample.thisTarget].find? (Entry.isFor "soc") =
      some Sample.thisTarget := by decide
  have hcalls : Sample.thisTarget.calls = [.mapping "0" "4", .mapping "1" "0", .spread "4" "3"] := by
    decide
  have htarget := target_of_document "soc" ⟨.empty, 0⟩ Sample.wellFormed
  rw [hfind] at htarget
  rw [← hcalls]
  exact htarget

end TargetParser

end ResourceTuner
