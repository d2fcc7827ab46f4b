import ResourceTuner.Signals.EntryContents

/-!
# Signals that are disabled, meant for another target, or typed

An entry says whether its signal is enabled, which targets it is meant for, and which type it has.  The
builder of the signal keeps the first two in one number, which nothing reads at the end of the entry;
only a target that comes after an `Enable` other than `true` fails, and then the entry is dropped with
its error.  The key of the type is one that the builder has a method for and `isKey` does not know: its
text is taken for a value of the key of the document, and the value after it ends the parser.

* **`TypedEntry`** — an entry that may have the key of the type;
* **`TypedEntry.Eligible`** — what the keys say, in whatever order;
* **`Registers`** — the signal the parser hands to the registry at the end of an entry;
* **`gated_iff`** — when the parser registers the entries that are eligible, and no others.
-/

namespace ResourceTuner.RestuneParser

open Numerals

/-! ## Entries with a type -/

/-- A key of a signal with its value, the key of the type among them. -/
inductive TypedField where
  | plain (field : Field)
  | SigType (value : Datum)

def TypedField.field? : TypedField → Option Field
  | .plain field => some field
  | .SigType _ => none

def TypedField.type? : TypedField → Option String
  | .plain _ => none
  | .SigType value => some value.text

def TypedField.events : TypedField → List Event
  | .plain field => field.events
  | .SigType value => [.key "SigType", value.event]

/-- A signal of a document, with the answers at the start of its mapping. -/
structure TypedEntry where
  opened : Grants
  fields : List TypedField

namespace TypedEntry

/-- The entry without its types. -/
def base (entry : TypedEntry) : Entry := ⟨entry.opened, entry.fields.filterMap TypedField.field?⟩

def types (entry : TypedEntry) : List String := entry.fields.filterMap TypedField.type?

/-- The events up to the end of the mapping. -/
def content (entry : TypedEntry) : List Event :=
  .mappingStart entry.opened :: entry.fields.flatMap TypedField.events

def events (entry : TypedEntry) : List Event := entry.content ++ [.mappingEnd .all]

end TypedEntry

/-- The events in front of the first entry. -/
def opening : List Event :=
  [.streamStart, .documentStart, .mappingStart .all, .key SIGNAL_CONFIGS_ROOT, .sequenceStart]

/-- The events after the last one. -/
def closing : List Event := [.sequenceEnd, .mappingEnd .all, .documentEnd, .streamEnd]

/-- The events of a whole document. -/
def typedDocument (entries : List TypedEntry) : List Event :=
  opening ++ (entries.flatMap TypedEntry.events ++ closing)

/-! ## What an entry says -/

/-- The call for an assignment succeeds on a new builder. -/
def Assignment.Valid (assignment : Assignment) : Prop :=
  ∀ targetName, (assignment.call targetName (.new .all)).1 = .RC_SUCCESS

/-- The assignment marks the signal as one that is not enabled. -/
def Assignment.Disables : Assignment → Prop
  | .scalar .Enable value => value.text ≠ "true"
  | _ => False

/-- The assignment is an element of one of the lists of targets. -/
def Assignment.ListsTarget : Assignment → Prop
  | .element .TargetsEnabled _ => True
  | .element .TargetsDisabled _ => True
  | _ => False

instance (assignment : Assignment) : Decidable assignment.Disables :=
  match assignment with
  | .scalar .Enable value => inferInstanceAs (Decidable (value.text ≠ "true"))
  | .scalar .SigId _ | .scalar .Category _ | .scalar .Name _ | .scalar .Timeout _ => .isFalse id
  | .element _ _ | .resource _ => .isFalse id

instance (assignment : Assignment) : Decidable assignment.ListsTarget :=
  match assignment with
  | .element .TargetsEnabled _ | .element .TargetsDisabled _ => .isTrue trivial
  | .element .Permissions _ | .element .Derivatives _ => .isFalse id
  | .scalar _ _ | .resource _ => .isFalse id

namespace TypedEntry

/-- The values of a key with one value, in order. -/
def values (entry : TypedEntry) (key : ScalarKey) : List String :=
  entry.base.assignments.filterMap (Assignment.scalar? key)

/-- The elements of a list, in order. -/
def elements (entry : TypedEntry) (key : ListKey) : List String :=
  entry.base.assignments.filterMap (Assignment.element? key)

/-- The entry is in order: its objects can be allocated, every key has a value that is read, and the
signal has a category. -/
structure WellFormed (entry : TypedEntry) : Prop where
  allocated : entry.base.Allocated
  valid : ∀ assignment ∈ entry.base.assignments, assignment.Valid
  category : ∀ category, Assigned (entry.values .Category)
    (fun text => (stoi 0 text).map (BitVec.ofInt 8)) 0 category → category ≠ 0
  types : ∀ text ∈ entry.types, (stol 0 text).isSome

/-- The signal is enabled, and meant for the target. -/
structure Eligible (targetName : String) (entry : TypedEntry) : Prop where
  given : entry.values .Enable ≠ []
  enabled : ∀ value ∈ entry.values .Enable, value = "true"
  listed : entry.elements .TargetsEnabled = [] ∨ targetName ∈ entry.elements .TargetsEnabled
  notDisabled : targetName ∉ entry.elements .TargetsDisabled

theorem eligible_iff {targetName : String} {entry : TypedEntry} : entry.Eligible targetName ↔
    entry.values .Enable ≠ [] ∧ (∀ value ∈ entry.values .Enable, value = "true") ∧
      (entry.elements .TargetsEnabled = [] ∨ targetName ∈ entry.elements .TargetsEnabled) ∧
      targetName ∉ entry.elements .TargetsDisabled :=
  ⟨fun h => ⟨h.given, h.enabled, h.listed, h.notDisabled⟩, fun h => ⟨h.1, h.2.1, h.2.2.1, h.2.2.2⟩⟩

instance (targetName : String) (entry : TypedEntry) : Decidable (entry.Eligible targetName) :=
  decidable_of_iff' _ eligible_iff

/-- A target comes after an `Enable` other than `true`. -/
def Refused (entry : TypedEntry) : Prop :=
  ¬ entry.base.assignments.Pairwise fun first second => first.Disables → ¬ second.ListsTarget

/-- The type: the last one given, or zero. -/
def type (entry : TypedEntry) : BitVec 32 :=
  match entry.types.getLast? with
  | none => 0
  | some text => BitVec.ofInt 32 ((stol 0 text).getD 0)

/-- The signal of an entry, if it has one: that of the other keys, with the type. -/
def signal (targetName : String) (entry : TypedEntry) : Option SignalInfo :=
  (entry.base.built targetName).map fun info => { info with mSigType := entry.type }

end TypedEntry

/-! ## What the parser does with it -/

/-- What the end of a mapping adds to the registry. -/
def State.handed (s : State) : Option SignalInfo :=
  if s.inResourcesMap || !s.parsingSignal then none
  else
    match s.signalInfoBuilder with
    | none => none
    | some builder =>
      let made := if s.rc = .RC_SUCCESS then (s.rc, builder) else builder.setSignalCategory "0"
      made.2.build.filter (·.mSignalCategory ≠ 0)

/-- At the end of an entry, after those before it, the registry gets the signal. -/
def Registers (isBuSpecified : Bool) (targetName : String) (before : List TypedEntry)
    (entry : TypedEntry) (info : SignalInfo) : Prop :=
  ∃ s, Reaches isBuSpecified targetName (initial .empty)
    (opening ++ (before.flatMap TypedEntry.events ++ entry.content)) s ∧ s.handed = some info

/-- The parser registers the entries that are enabled and meant for the target, with their types, and no
others; a code and a type have the last entry with them. -/
structure Gated (isBuSpecified : Bool) (targetName : String) (entries : List TypedEntry) : Prop where
  registered : ∀ before entry after, entries = before ++ entry :: after → ∀ info,
    Registers isBuSpecified targetName before entry info ↔
      entry.Eligible targetName ∧ entry.signal targetName = some info
  found : ∃ registry,
    (parseSignalConfigYamlNode isBuSpecified targetName .empty (typedDocument entries)).registry =
      some registry ∧
    ∀ sigCode sigType, registry.getSignalConfigById sigCode sigType =
      (entries.filterMap fun entry =>
          if entry.Eligible targetName then entry.signal targetName else none).reverse.find?
        fun info => SignalRegistry.registeredCode isBuSpecified info = sigCode ∧ info.mSigType = sigType

/-- Nothing that is eligible has a type or comes after one, and what comes before the first type is
eligible or refused. -/
structure Passes (targetName : String) (entries : List TypedEntry) : Prop where
  typed : ∀ before entry after, entries = before ++ entry :: after →
    (∃ other ∈ before ++ [entry], other.types ≠ []) → ¬ entry.Eligible targetName
  untyped : ∀ before entry after, entries = before ++ entry :: after →
    (∀ other ∈ before ++ [entry], other.types = []) → ¬ entry.Refused → entry.Eligible targetName

/-! ## Calls on a builder that is there -/

section Calls

variable {targetName : String} {assignment : Assignment} {b : SignalInfoBuilder}

/-- An element that a new list takes is taken by one that has grown. -/
theorem pushBack_ok {α : Type} {grants : Grants} {element : α} {onNull : ErrCode}
    (hnull : onNull ≠ .RC_SUCCESS)
    (hok : (pushBack (allocateVector none grants) grants element onNull).1 = .RC_SUCCESS)
    (vector : Option (List α)) :
    (pushBack (allocateVector vector grants) grants element onNull).1 = .RC_SUCCESS := by
  cases vector with
  | none => exact hok
  | some elements =>
    show (pushBack (some elements) grants element onNull).1 = .RC_SUCCESS
    rw [allocateVector] at hok
    split at hok
    · rw [pushBack] at hok ⊢
      split at hok
      · rename_i hgrant
        rw [if_pos hgrant]
      · cases hok
    · exact absurd hok hnull

/-- A number that is read for a new builder is read for any. -/
theorem setNumber_ok_of_new {number : Option Int} {set : Int → SignalInfo → SignalInfo}
    (hok : ((SignalInfoBuilder.new .all).setNumber number set).1 = .RC_SUCCESS)
    (hinfo : b.mSignalInfo.isSome) : (b.setNumber number set).1 = .RC_SUCCESS := by
  obtain ⟨n, rfl, -⟩ := setNumber_ok hok
  obtain ⟨signalInfo, count⟩ := b
  obtain ⟨info, rfl⟩ := Option.isSome_iff_exists.mp hinfo
  rfl

/-- A target is only refused by the count. -/
theorem addTarget_ok_iff (hinfo : b.mSignalInfo.isSome) (target : String) (first found : Int) :
    (b.addTarget targetName target first found).1 = .RC_SUCCESS ↔
      b.mTargetRefCount ≠ unsupportedResoure := by
  have hsome : b.mSignalInfo ≠ none := Option.isSome_iff_ne_none.mp hinfo
  rw [SignalInfoBuilder.addTarget, if_neg hsome]
  by_cases hcount : b.mTargetRefCount = unsupportedResoure
  · rw [if_pos hcount]
    exact iff_of_false ErrCode.noConfusion fun h => h hcount
  · rw [if_neg hcount]
    exact iff_of_true rfl hcount

/-- A target that is taken does not leave the count of a signal that is not enabled. -/
theorem addTarget_count (hinfo : b.mSignalInfo.isSome) (target : String) {first found : Int}
    (hfirst : first ≠ unsupportedResoure) (hfound : found ≠ unsupportedResoure)
    (hcount : b.mTargetRefCount ≠ unsupportedResoure) :
    (b.addTarget targetName target first found).2.mTargetRefCount ≠ unsupportedResoure := by
  have hsome : b.mSignalInfo ≠ none := Option.isSome_iff_ne_none.mp hinfo
  rw [SignalInfoBuilder.addTarget, if_neg hsome, if_neg hcount]
  show (if target = targetName then found
    else if b.mTargetRefCount = 0 then first else b.mTargetRefCount) ≠ unsupportedResoure
  split
  · exact hfound
  · split
    · exact hfirst
    · exact hcount

theorem mTargetRefCount_withInfo (call : SignalInfo → ErrCode × SignalInfo) :
    (b.withInfo call).2.mTargetRefCount = b.mTargetRefCount := by
  unfold SignalInfoBuilder.withInfo
  split <;> rfl

/-- A valid assignment only fails when it is a target and the signal is not enabled. -/
theorem Assignment.Valid.call_ok_iff (h : assignment.Valid) (hinfo : b.mSignalInfo.isSome) :
    (assignment.call targetName b).1 = .RC_SUCCESS ↔
      (assignment.ListsTarget → b.mTargetRefCount ≠ unsupportedResoure) := by
  have hok := h targetName
  have hplain : ∀ {p : Prop}, ¬ assignment.ListsTarget →
      (assignment.call targetName b).1 = .RC_SUCCESS →
      ((assignment.call targetName b).1 = .RC_SUCCESS ↔ (assignment.ListsTarget → p)) :=
    fun hlists hcall => iff_of_true hcall fun htarget => absurd htarget hlists
  cases assignment with
  | scalar key value =>
    refine hplain id ?_
    cases key with
    | SigId | Category => exact setNumber_ok_of_new hok hinfo
    | Name =>
      obtain ⟨info, hsome⟩ := Option.isSome_iff_exists.mp hinfo
      show (b.setName value.text).1 = .RC_SUCCESS
      simp only [SignalInfoBuilder.setName, SignalInfoBuilder.withInfo, hsome]
    | Enable =>
      show (b.setIsEnabled value.text).1 = .RC_SUCCESS
      rw [SignalInfoBuilder.setIsEnabled, if_neg (Option.isSome_iff_ne_none.mp hinfo)]
      split <;> rfl
    | Timeout =>
      obtain ⟨info, hsome⟩ := Option.isSome_iff_exists.mp hinfo
      change ((SignalInfoBuilder.new .all).setTimeout value.text).1 = .RC_SUCCESS at hok
      show (b.setTimeout value.text).1 = .RC_SUCCESS
      simp only [SignalInfoBuilder.setTimeout, SignalInfoBuilder.withInfo, hsome]
      cases hn : stoi 10 value.text with
      | none => simp [SignalInfoBuilder.setTimeout, SignalInfoBuilder.withInfo,
          SignalInfoBuilder.new, Grants.all, hn] at hok
      | some n => rfl
  | element key value =>
    cases key with
    | TargetsEnabled | TargetsDisabled =>
      exact (addTarget_ok_iff hinfo ..).trans ⟨fun hcount _ => hcount, fun hcount => hcount trivial⟩
    | Permissions =>
      refine hplain id ?_
      obtain ⟨info, hsome⟩ := Option.isSome_iff_exists.mp hinfo
      change ((SignalInfoBuilder.new .all).addPermission value.grants value.text).1 = .RC_SUCCESS
        at hok
      show (b.addPermission value.grants value.text).1 = .RC_SUCCESS
      simp only [SignalInfoBuilder.addPermission, SignalInfoBuilder.withInfo, hsome]
      cases hpermission : SignalInfoBuilder.permissionOf value.text with
      | none => simp [SignalInfoBuilder.addPermission, SignalInfoBuilder.withInfo,
          SignalInfoBuilder.new, Grants.all, hpermission] at hok
      | some permission =>
        simp only [SignalInfoBuilder.addPermission, SignalInfoBuilder.withInfo,
          SignalInfoBuilder.new, Grants.all, hpermission] at hok
        exact pushBack_ok (by decide) hok _
    | Derivatives =>
      refine hplain id ?_
      obtain ⟨info, hsome⟩ := Option.isSome_iff_exists.mp hinfo
      show (b.addDerivative value.grants value.text).1 = .RC_SUCCESS
      simp only [SignalInfoBuilder.addDerivative, SignalInfoBuilder.withInfo, hsome]
      exact pushBack_ok (by decide) hok _
  | resource item =>
    refine hplain id ?_
    obtain ⟨info, hsome⟩ := Option.isSome_iff_exists.mp hinfo
    change (item.call (.new .all)).1 = .RC_SUCCESS at hok
    show (item.call b).1 = .RC_SUCCESS
    rw [ResourceItem.call] at hok ⊢
    split at hok
    · rename_i hbuild
      rw [if_pos hbuild]
      rw [SignalInfoBuilder.addResource] at hok ⊢
      split at hok
      · cases hok
      · rename_i hresource
        rw [if_neg hresource]
        simp only [SignalInfoBuilder.withInfo, hsome]
        exact pushBack_ok (by decide) hok _
    · rename_i hbuild
      exact absurd hok hbuild

/-- The count says that the signal is not enabled once an assignment has said so. -/
theorem count_call_iff (hinfo : b.mSignalInfo.isSome)
    (hcount : assignment.ListsTarget → b.mTargetRefCount ≠ unsupportedResoure) :
    (assignment.call targetName b).2.mTargetRefCount = unsupportedResoure ↔
      assignment.Disables ∨ b.mTargetRefCount = unsupportedResoure := by
  have hkeep : ¬ assignment.Disables →
      (assignment.call targetName b).2.mTargetRefCount = b.mTargetRefCount →
      ((assignment.call targetName b).2.mTargetRefCount = unsupportedResoure ↔
        assignment.Disables ∨ b.mTargetRefCount = unsupportedResoure) := by
    intro hdisables hcall
    rw [hcall, or_iff_right hdisables]
  cases assignment with
  | scalar key value =>
    cases key with
    | Enable =>
      show (b.setIsEnabled value.text).2.mTargetRefCount = unsupportedResoure ↔
        value.text ≠ "true" ∨ b.mTargetRefCount = unsupportedResoure
      rw [SignalInfoBuilder.setIsEnabled, if_neg (Option.isSome_iff_ne_none.mp hinfo)]
      by_cases htext : value.text ≠ "true"
      · rw [if_pos htext]
        exact iff_of_true rfl (.inl htext)
      · rw [if_neg htext, or_iff_right htext]
    | SigId | Category | Name | Timeout => exact hkeep id (mTargetRefCount_withInfo _)
  | element key value =>
    cases key with
    | TargetsEnabled | TargetsDisabled =>
      have hbefore := hcount trivial
      exact iff_of_false (addTarget_count hinfo value.text (by decide) (by decide) hbefore)
        fun h => h.elim id hbefore
    | Permissions | Derivatives => exact hkeep id (mTargetRefCount_withInfo _)
  | resource item =>
    refine hkeep id ?_
    show (item.call b).2.mTargetRefCount = b.mTargetRefCount
    unfold ResourceItem.call SignalInfoBuilder.addResource
    split
    · split
      · rfl
      · exact mTargetRefCount_withInfo _
    · rfl

/-- All calls succeed when no target comes after a mark that the signal is not enabled. -/
theorem succeed_iff {assignments : List Assignment} (hvalid : ∀ a ∈ assignments, a.Valid)
    (hinfo : b.mSignalInfo.isSome) :
    Succeed (assignments.map (Assignment.call targetName)) b ↔
      (b.mTargetRefCount = unsupportedResoure → ∀ a ∈ assignments, ¬ a.ListsTarget) ∧
      assignments.Pairwise fun first second => first.Disables → ¬ second.ListsTarget := by
  induction assignments generalizing b with
  | nil => exact iff_of_true trivial ⟨fun _ _ ha => absurd ha List.not_mem_nil, .nil⟩
  | cons assignment assignments ih =>
    have hcall : (assignment.call targetName b).1 = .RC_SUCCESS ↔ _ :=
      (hvalid assignment List.mem_cons_self).call_ok_iff hinfo
    rw [List.map_cons, Succeed, hcall, List.pairwise_cons]
    have hrest : ∀ {b' : SignalInfoBuilder}, b'.mSignalInfo.isSome → _ := fun {b'} hinfo' =>
      ih (b := b') (fun a ha => hvalid a (List.mem_cons_of_mem _ ha)) hinfo'
    have hinfo' : (assignment.call targetName b).2.mSignalInfo.isSome := by
      rw [isSome_call]
      exact hinfo
    rw [hrest hinfo']
    constructor
    · rintro ⟨hcount, hlater, hpairs⟩
      rw [count_call_iff hinfo hcount] at hlater
      refine ⟨fun hbefore a ha => ?_, fun a ha hdisables => hlater (.inl hdisables) a ha, hpairs⟩
      rcases List.mem_cons.mp ha with rfl | ha
      · exact fun htarget => hcount htarget hbefore
      · exact hlater (.inr hbefore) a ha
    · rintro ⟨hbefore, hdisables, hpairs⟩
      have hcount : assignment.ListsTarget → b.mTargetRefCount ≠ unsupportedResoure :=
        fun htarget heq => hbefore heq assignment List.mem_cons_self htarget
      refine ⟨hcount, ?_, hpairs⟩
      rw [count_call_iff hinfo hcount]
      rintro (hdis | heq) a ha
      · exact hdisables a ha hdis
      · exact hbefore heq a (List.mem_cons_of_mem _ ha)

end Calls

/-! ## Eligible entries and their signals -/

namespace TypedEntry

variable {targetName : String} {entry : TypedEntry}

/-- The objects of an entry are there. -/
theorem new_opened (h : entry.WellFormed) : SignalInfoBuilder.new entry.opened = .new .all := by
  have hcontent : entry.opened.content = true := h.allocated.content
  rw [SignalInfoBuilder.new, if_pos hcontent]
  rfl

/-- **Only a target after the mark that the signal is not enabled drops an entry.** -/
theorem isSome_built_iff (h : entry.WellFormed) :
    (entry.base.built targetName).isSome ↔ ¬ entry.Refused := by
  have hinfo : (entry.base.run targetName).2.build.isSome := isSome_run targetName h.allocated
  have hrun : (entry.base.run targetName).1 = .RC_SUCCESS ↔ ¬ entry.Refused := by
    have hopened : SignalInfoBuilder.new entry.base.opened = .new .all := new_opened h
    rw [Entry.run, hopened, runCalls_ok_iff, succeed_iff h.valid rfl, Refused, not_not]
    refine and_iff_right fun hcount => absurd hcount ?_
    decide
  rw [← hrun, Entry.built]
  split
  · rename_i hok
    exact iff_of_true hinfo hok
  · rename_i hok
    exact iff_of_false Bool.false_ne_true hok

theorem isSome_signal_iff (h : entry.WellFormed) :
    (entry.signal targetName).isSome ↔ ¬ entry.Refused := by
  rw [signal, Option.isSome_map, isSome_built_iff h]

/-- An eligible entry is enabled, so no target is refused. -/
theorem Eligible.not_refused (h : entry.Eligible targetName) : ¬ entry.Refused := by
  rw [Refused, not_not]
  refine List.pairwise_of_forall_mem_list fun first hfirst second _ hdisables => ?_
  have hvalue : ∀ {value : Datum}, first = .scalar .Enable value → value.text = "true" := by
    rintro value rfl
    exact h.enabled value.text (List.mem_filterMap.mpr ⟨_, hfirst, rfl⟩)
  cases first with
  | scalar key value =>
    cases key with
    | Enable => exact absurd (hvalue rfl) hdisables
    | _ => exact hdisables.elim
  | _ => exact hdisables.elim

theorem Eligible.isSome_signal (h : entry.Eligible targetName) (hformed : entry.WellFormed) :
    (entry.signal targetName).isSome := (isSome_signal_iff hformed).mpr h.not_refused

/-- What is built has a category. -/
theorem category_of_built {info : SignalInfo} (h : entry.WellFormed)
    (hbuilt : entry.base.built targetName = some info) : info.mSignalCategory ≠ 0 :=
  h.category _ (describes_of_built hbuilt).scalars.category

/-- Without a type in the document the signal is the one that is built. -/
theorem signal_of_untyped (huntyped : entry.types = []) :
    entry.signal targetName = entry.base.built targetName := by
  have htype : entry.type = 0 := by
    rw [type, huntyped]
    rfl
  rw [signal, htype]
  cases hbuilt : entry.base.built targetName with
  | none => rfl
  | some info =>
    rw [Option.map_some, ← (describes_of_built hbuilt).scalars.type]

/-- And the events are those of the other keys. -/
theorem content_of_untyped (huntyped : entry.types = []) :
    entry.content = .mappingStart entry.opened :: entry.base.fields.flatMap Field.events := by
  have hfields : ∀ fields : List TypedField, fields.filterMap TypedField.type? = [] →
      fields.flatMap TypedField.events =
        (fields.filterMap TypedField.field?).flatMap Field.events := by
    intro fields htypes
    induction fields with
    | nil => rfl
    | cons field fields ih =>
      cases field with
      | plain field =>
        have hfront : (TypedField.plain field :: fields).filterMap TypedField.field? =
            field :: fields.filterMap TypedField.field? := rfl
        rw [hfront, List.flatMap_cons, List.flatMap_cons, ih htypes]
        rfl
      | SigType value => cases htypes
  exact congrArg (Event.mappingStart entry.opened :: ·) (hfields entry.fields huntyped)

theorem events_of_untyped (huntyped : entry.types = []) : entry.events = entry.base.events := by
  rw [events, content_of_untyped huntyped]
  rfl

end TypedEntry

/-! ## The parser on a document -/

section Parser

variable {isBuSpecified : Bool} {targetName : String}

/-- At the end of an entry that is its signal, if all calls have succeeded and it has a category. -/
theorem handed_inEntry (registry : SignalRegistry) (made : ErrCode × SignalInfoBuilder)
    (resourceBuilder : Option ResourceBuilder) (hinfo : made.2.mSignalInfo.isSome) :
    (inEntry registry [] made resourceBuilder).handed =
      (if made.1 = .RC_SUCCESS then made.2.build else none).filter (·.mSignalCategory ≠ 0) := by
  obtain ⟨rc, builder, count⟩ := made
  obtain ⟨signalInfo, rfl⟩ := Option.isSome_iff_exists.mp hinfo
  by_cases hrc : rc = .RC_SUCCESS
  · subst hrc
    rfl
  · rw [if_neg hrc]
    simp only [State.handed, inEntry, if_neg hrc, setSignalCategory_zero]
    rfl

theorem reaches_opening (registry : SignalRegistry) :
    Reaches isBuSpecified targetName (initial registry) opening (betweenEntries registry none) :=
  .cons rfl (.cons rfl (.cons rfl (.cons rfl (.cons rfl (.nil _)))))

variable (isBuSpecified targetName)

/-- Entries without a type are parsed one by one. -/
theorem reaches_untyped (registry : SignalRegistry) {entries : List TypedEntry}
    (hformed : ∀ entry ∈ entries, entry.WellFormed) (huntyped : ∀ entry ∈ entries, entry.types = []) :
    ∃ resourceBuilder, Reaches isBuSpecified targetName (betweenEntries registry none)
      (entries.flatMap TypedEntry.events)
      (betweenEntries ((entries.map fun entry =>
        ⟨entry.base.built targetName, isBuSpecified⟩).foldl SignalRegistry.register registry)
        resourceBuilder) := by
  have hallocated : ∀ entry ∈ entries.map TypedEntry.base, entry.Allocated := by
    intro entry hentry
    obtain ⟨typedEntry, htyped, rfl⟩ := List.mem_map.mp hentry
    exact (hformed typedEntry htyped).allocated
  have hevents : entries.flatMap TypedEntry.events =
      (entries.map TypedEntry.base).flatMap Entry.events := by
    rw [List.flatMap_map]
    exact List.flatMap_congr fun entry hentry => entry.events_of_untyped (huntyped entry hentry)
  have hreach := reaches_entries isBuSpecified targetName registry none hallocated
  rw [← hevents, List.map_map] at hreach
  exact hreach

/-- The content of an entry without a type is its calls. -/
theorem reaches_content (registry : SignalRegistry) (resourceBuilder : Option ResourceBuilder)
    {entry : TypedEntry} (hformed : entry.WellFormed) (huntyped : entry.types = []) :
    ∃ resourceBuilder', Reaches isBuSpecified targetName (betweenEntries registry resourceBuilder)
      entry.content (inEntry registry [] (entry.base.run targetName) resourceBuilder') := by
  have hstart := step_mappingStart_entry isBuSpecified targetName registry resourceBuilder
    hformed.allocated.builder
  obtain ⟨resourceBuilder', hfields⟩ := reaches_fields isBuSpecified targetName registry
    (.RC_SUCCESS, .new entry.opened) resourceBuilder hformed.allocated.resources
  rw [entry.content_of_untyped huntyped]
  exact ⟨resourceBuilder', .cons hstart hfields⟩

/-- A type takes the key of the document off the stack, and its value finds the stack empty. -/
theorem ends_fields (registry : SignalRegistry) (made : ErrCode × SignalInfoBuilder)
    (resourceBuilder : Option ResourceBuilder) {fields : List TypedField}
    (hallocated : ∀ field ∈ fields.filterMap TypedField.field?, field.Allocated)
    (htyped : fields.filterMap TypedField.type? ≠ []) :
    ∃ done event rest s, fields.flatMap TypedField.events = done ++ event :: rest ∧
      Reaches isBuSpecified targetName (inEntry registry [] made resourceBuilder) done s ∧
      step isBuSpecified targetName s event = .returned .RC_YAML_INVALID_SYNTAX registry := by
  induction fields generalizing made resourceBuilder with
  | nil => exact absurd rfl htyped
  | cons field fields ih =>
    cases field with
    | plain field =>
      obtain ⟨resourceBuilder', hfield⟩ := reaches_field isBuSpecified targetName registry made
        resourceBuilder (hallocated field List.mem_cons_self)
      obtain ⟨done, event, rest, s, hevents, hreach, hstep⟩ := ih _ resourceBuilder'
        (fun other hother => hallocated other (List.mem_cons_of_mem _ hother)) htyped
      refine ⟨field.events ++ done, event, rest, s, ?_, hfield.append hreach, hstep⟩
      rw [List.flatMap_cons, hevents, List.append_assoc]
      rfl
    | SigType value =>
      refine ⟨[.key "SigType"], value.event, fields.flatMap TypedField.events,
        { inEntry registry [] made resourceBuilder with keyTracker := [] }, rfl,
        .single rfl, ?_⟩
      rw [Datum.event, step, if_neg (by simp [value.plain])]
      rfl

/-- So an entry with a type ends the parser. -/
theorem ends_content (registry : SignalRegistry) (resourceBuilder : Option ResourceBuilder)
    {entry : TypedEntry} (hformed : entry.WellFormed) (htyped : entry.types ≠ []) :
    ∃ done event rest s, entry.content = done ++ event :: rest ∧
      Reaches isBuSpecified targetName (betweenEntries registry resourceBuilder) done s ∧
      step isBuSpecified targetName s event = .returned .RC_YAML_INVALID_SYNTAX registry := by
  have hstart := step_mappingStart_entry isBuSpecified targetName registry resourceBuilder
    hformed.allocated.builder
  obtain ⟨done, event, rest, s, hevents, hreach, hstep⟩ := ends_fields isBuSpecified targetName
    registry (.RC_SUCCESS, .new entry.opened) resourceBuilder hformed.allocated.resources htyped
  refine ⟨.mappingStart entry.opened :: done, event, rest, s, ?_, .cons hstart hreach, hstep⟩
  rw [TypedEntry.content, hevents]
  rfl

/-- What holds of all entries holds of an entry and those before it. -/
theorem forall_mem_upTo {entries before after : List TypedEntry} {entry : TypedEntry}
    {P : TypedEntry → Prop} (h : ∀ other ∈ entries, P other)
    (hsplit : entries = before ++ entry :: after) : ∀ other ∈ before ++ [entry], P other := by
  intro other hother
  refine h other ?_
  rw [hsplit, List.append_cons]
  exact List.mem_append_left _ hother

/-- Where there is a type there is a first one. -/
theorem exists_first_typed {entries : List TypedEntry} (h : ∃ entry ∈ entries, entry.types ≠ []) :
    ∃ front entry back, entries = front ++ entry :: back ∧ entry.types ≠ [] ∧
      ∀ other ∈ front, other.types = [] := by
  induction entries with
  | nil =>
    obtain ⟨entry, hentry, -⟩ := h
    cases hentry
  | cons first entries ih =>
    by_cases hfirst : first.types = []
    · obtain ⟨entry, hentry, htyped⟩ := h
      have hlater : entry ∈ entries := by
        rcases List.mem_cons.mp hentry with rfl | hlater
        · exact absurd hfirst htyped
        · exact hlater
      obtain ⟨front, entry, back, rfl, htyped, huntyped⟩ := ih ⟨entry, hlater, htyped⟩
      exact ⟨first :: front, entry, back, rfl, htyped, List.forall_mem_cons.mpr ⟨hfirst, huntyped⟩⟩
    · exact ⟨[], first, entries, rfl, hfirst, fun _ hother => absurd hother List.not_mem_nil⟩

/-- The parser is in the loop in front of the event that ends it, and that is in the content of the
first entry with a type. -/
theorem ends_typed {front : List TypedEntry} {entry : TypedEntry}
    (hfront : ∀ other ∈ front, other.WellFormed) (hformed : entry.WellFormed)
    (huntyped : ∀ other ∈ front, other.types = []) (htyped : entry.types ≠ []) :
    ∃ done event rest s,
      opening ++ (front.flatMap TypedEntry.events ++ entry.content) = done ++ event :: rest ∧
      Reaches isBuSpecified targetName (initial .empty) done s ∧
      step isBuSpecified targetName s event = .returned .RC_YAML_INVALID_SYNTAX
        ((front.map fun other => ⟨other.base.built targetName, isBuSpecified⟩).foldl
          SignalRegistry.register .empty) := by
  obtain ⟨resourceBuilder, hbefore⟩ := reaches_untyped isBuSpecified targetName .empty hfront huntyped
  obtain ⟨done, event, rest, s, hevents, hreach, hstep⟩ := ends_content isBuSpecified targetName
    ((front.map fun other => ⟨other.base.built targetName, isBuSpecified⟩).foldl
      SignalRegistry.register .empty) resourceBuilder hformed htyped
  refine ⟨opening ++ (front.flatMap TypedEntry.events ++ done), event, rest, s, ?_,
    (reaches_opening .empty).append (hbefore.append hreach), hstep⟩
  rw [hevents, List.append_assoc, List.append_assoc]

/-- Up to the first type an entry is registered when its calls succeed. -/
theorem registers_iff_built {before : List TypedEntry} {entry : TypedEntry} {info : SignalInfo}
    (hformed : ∀ other ∈ before ++ [entry], other.WellFormed)
    (huntyped : ∀ other ∈ before ++ [entry], other.types = []) :
    Registers isBuSpecified targetName before entry info ↔
      entry.base.built targetName = some info := by
  have hentry : entry ∈ before ++ [entry] := List.mem_append_right _ List.mem_cons_self
  have hbefore : ∀ {other}, other ∈ before → other ∈ before ++ [entry] := List.mem_append_left _
  obtain ⟨resourceBuilder, hreach⟩ := reaches_untyped isBuSpecified targetName .empty
    (fun other hother => hformed other (hbefore hother))
    fun other hother => huntyped other (hbefore hother)
  obtain ⟨resourceBuilder', hcontent⟩ := reaches_content isBuSpecified targetName
    ((before.map fun other => ⟨other.base.built targetName, isBuSpecified⟩).foldl
      SignalRegistry.register .empty) resourceBuilder (hformed entry hentry) (huntyped entry hentry)
  have hend := (reaches_opening .empty).append (hreach.append hcontent)
  have hhanded := handed_inEntry ((before.map fun other =>
      ⟨other.base.built targetName, isBuSpecified⟩).foldl SignalRegistry.register .empty)
    (entry.base.run targetName) resourceBuilder'
    (isSome_run targetName (hformed entry hentry).allocated)
  rw [← Entry.built] at hhanded
  have hfilter : (entry.base.built targetName).filter (·.mSignalCategory ≠ 0) =
      entry.base.built targetName := by
    cases hbuilt : entry.base.built targetName with
    | none => rfl
    | some built =>
      rw [Option.filter_some, if_pos]
      exact decide_eq_true (TypedEntry.category_of_built (hformed entry hentry) hbuilt)
  rw [hfilter] at hhanded
  constructor
  · rintro ⟨s, hs, hinfo⟩
    obtain rfl := hend.unique hs
    exact hhanded.symm.trans hinfo
  · intro hbuilt
    exact ⟨_, hend, hhanded.trans hbuilt⟩

/-- From the first type on nothing is. -/
theorem not_registers {before : List TypedEntry} {entry : TypedEntry} {info : SignalInfo}
    (hformed : ∀ other ∈ before ++ [entry], other.WellFormed)
    (htyped : ∃ other ∈ before ++ [entry], other.types ≠ []) :
    ¬ Registers isBuSpecified targetName before entry info := by
  rintro ⟨s, hs, -⟩
  obtain ⟨front, first, back, hsplit, hfirst, huntyped⟩ := exists_first_typed htyped
  have hmem : ∀ other ∈ front, other ∈ before ++ [entry] := fun other hother => by
    rw [hsplit]
    exact List.mem_append_left _ hother
  have hmemFirst : first ∈ before ++ [entry] := by
    rw [hsplit]
    exact List.mem_append_right _ List.mem_cons_self
  obtain ⟨done, event, rest, s', hevents, hreach, hstep⟩ := ends_typed isBuSpecified targetName
    (fun other hother => hformed other (hmem other hother)) (hformed first hmemFirst) huntyped hfirst
  -- the content of the first entry with a type is in front of the end of this one
  obtain ⟨more, hmore⟩ : ∃ more, opening ++ (before.flatMap TypedEntry.events ++ entry.content) =
      done ++ event :: (rest ++ more) := by
    rcases List.eq_nil_or_concat back with rfl | ⟨back, last, rfl⟩
    · obtain ⟨rfl, heq⟩ := List.append_inj' hsplit rfl
      obtain rfl := List.singleton_inj.mp heq
      exact ⟨[], by rw [hevents, List.append_nil]⟩
    · have hlonger : before ++ [entry] = (front ++ first :: back) ++ [last] := by
        rw [hsplit, List.append_assoc, List.cons_append, List.concat_eq_append]
      obtain ⟨rfl, heq⟩ := List.append_inj' hlonger rfl
      obtain rfl := List.singleton_inj.mp heq
      refine ⟨.mappingEnd .all :: (back.flatMap TypedEntry.events ++ entry.content), ?_⟩
      rw [List.flatMap_append, List.flatMap_cons, TypedEntry.events, ← List.cons_append,
        ← List.append_assoc done, ← hevents]
      simp only [List.append_assoc, List.cons_append, List.nil_append]
  rw [hmore] at hs
  obtain ⟨s'', hdone, hrest⟩ := hs.split
  obtain rfl := hreach.unique hdone
  cases hrest with
  | cons hrunning _ =>
    rw [loopStep, hstep] at hrunning
    cases hrunning

/-- The registry after a document is that of the entries in front of the first type. -/
theorem exists_front {entries : List TypedEntry} (hformed : ∀ entry ∈ entries, entry.WellFormed) :
    ∃ front back, entries = front ++ back ∧ (∀ entry ∈ front, entry.types = []) ∧
      (∀ before entry after, back = before ++ entry :: after →
        ∃ other ∈ before ++ [entry], other.types ≠ []) ∧
      (parseSignalConfigYamlNode isBuSpecified targetName .empty (typedDocument entries)).registry =
        some ((front.map fun entry => ⟨entry.base.built targetName, isBuSpecified⟩).foldl
          SignalRegistry.register .empty) := by
  by_cases htyped : ∃ entry ∈ entries, entry.types ≠ []
  · obtain ⟨front, first, back, rfl, hfirst, huntyped⟩ := exists_first_typed htyped
    refine ⟨front, first :: back, rfl, huntyped, ?_, ?_⟩
    · intro before entry after hsplit
      cases before with
      | nil =>
        obtain ⟨rfl, -⟩ := List.cons_eq_cons.mp hsplit
        exact ⟨first, List.mem_singleton_self _, hfirst⟩
      | cons head before =>
        obtain ⟨rfl, -⟩ := List.cons_eq_cons.mp hsplit
        exact ⟨first, List.mem_cons_self, hfirst⟩
    · obtain ⟨done, event, rest, s, hevents, hreach, hstep⟩ := ends_typed isBuSpecified targetName
        (fun other hother => hformed other (List.mem_append_left _ hother))
        (hformed first (List.mem_append_right _ List.mem_cons_self)) huntyped hfirst
      have hdocument : typedDocument (front ++ first :: back) = done ++ event ::
          (rest ++ (.mappingEnd .all :: (back.flatMap TypedEntry.events ++ closing))) := by
        rw [← List.cons_append, ← List.append_assoc done, ← hevents, typedDocument,
          List.flatMap_append, List.flatMap_cons, TypedEntry.events]
        simp only [List.append_assoc, List.cons_append, List.nil_append]
      rw [hdocument]
      refine (congrArg Outcome.registry (hreach.parse _)).trans ?_
      rw [parseEvents, hstep]
      rfl
  · have huntyped : ∀ entry ∈ entries, entry.types = [] := by
      intro entry hentry
      by_contra hne
      exact htyped ⟨entry, hentry, hne⟩
    obtain ⟨resourceBuilder, hreach⟩ := reaches_untyped isBuSpecified targetName .empty hformed huntyped
    refine ⟨entries, [], (List.append_nil _).symm, huntyped, ?_, ?_⟩
    · intro before entry after hsplit
      exact absurd hsplit.symm (List.append_ne_nil_of_right_ne_nil _ (List.cons_ne_nil _ _))
    · have hdocument : typedDocument entries =
          (opening ++ entries.flatMap TypedEntry.events) ++ closing := (List.append_assoc ..).symm
      rw [hdocument]
      exact congrArg Outcome.registry (((reaches_opening .empty).append hreach).parse closing)

variable {isBuSpecified targetName}

/-- Where the parser is right about every entry, the condition holds. -/
theorem Gated.passes {entries : List TypedEntry} (hformed : ∀ entry ∈ entries, entry.WellFormed)
    (h : Gated isBuSpecified targetName entries) : Passes targetName entries where
  typed before entry after hsplit htyped heligible := by
    have hmem := forall_mem_upTo hformed hsplit
    have hentry := hmem entry (List.mem_append_right _ List.mem_cons_self)
    obtain ⟨info, hinfo⟩ := Option.isSome_iff_exists.mp (heligible.isSome_signal hentry)
    exact not_registers isBuSpecified targetName hmem htyped
      ((h.registered before entry after hsplit info).mpr ⟨heligible, hinfo⟩)
  untyped before entry after hsplit huntyped hrefused := by
    have hmem := forall_mem_upTo hformed hsplit
    have hentry := hmem entry (List.mem_append_right _ List.mem_cons_self)
    have hbuilt : (entry.base.built targetName).isSome :=
      (TypedEntry.isSome_built_iff hentry).mpr hrefused
    obtain ⟨info, hinfo⟩ := Option.isSome_iff_exists.mp hbuilt
    exact ((h.registered before entry after hsplit info).mp
      ((registers_iff_built isBuSpecified targetName hmem huntyped).mpr hinfo)).1

/-- Under the condition the signal of an eligible entry is what is built of it, in front of the first
type, and nothing is eligible behind it. -/
theorem registered_of_passes {entries : List TypedEntry}
    (hformed : ∀ entry ∈ entries, entry.WellFormed) (h : Passes targetName entries)
    {before after : List TypedEntry} {entry : TypedEntry} (hsplit : entries = before ++ entry :: after)
    (info : SignalInfo) :
    Registers isBuSpecified targetName before entry info ↔
      entry.Eligible targetName ∧ entry.signal targetName = some info := by
  have hmem := forall_mem_upTo hformed hsplit
  have hentryMem : entry ∈ before ++ [entry] := List.mem_append_right _ List.mem_cons_self
  by_cases htyped : ∃ other ∈ before ++ [entry], other.types ≠ []
  · exact iff_of_false (not_registers isBuSpecified targetName hmem htyped)
      fun heligible => h.typed before entry after hsplit htyped heligible.1
  · have huntyped : ∀ other ∈ before ++ [entry], other.types = [] := by
      intro other hother
      by_contra hne
      exact htyped ⟨other, hother, hne⟩
    rw [registers_iff_built isBuSpecified targetName hmem huntyped,
      TypedEntry.signal_of_untyped (huntyped entry hentryMem)]
    refine ⟨fun hbuilt => ⟨h.untyped before entry after hsplit huntyped ?_, hbuilt⟩, And.right⟩
    exact (TypedEntry.isSome_built_iff (hmem entry hentryMem)).mp
      (Option.isSome_iff_exists.mpr ⟨info, hbuilt⟩)

/-- And so are the answers of the registry. -/
theorem found_of_passes {entries : List TypedEntry} (hformed : ∀ entry ∈ entries, entry.WellFormed)
    (h : Passes targetName entries) : ∃ registry,
    (parseSignalConfigYamlNode isBuSpecified targetName .empty (typedDocument entries)).registry =
      some registry ∧
    ∀ sigCode sigType, registry.getSignalConfigById sigCode sigType =
      (entries.filterMap fun entry =>
          if entry.Eligible targetName then entry.signal targetName else none).reverse.find?
        fun info => SignalRegistry.registeredCode isBuSpecified info = sigCode ∧
          info.mSigType = sigType := by
  obtain ⟨front, back, rfl, huntyped, htyped, hregistry⟩ :=
    exists_front isBuSpecified targetName hformed
  refine ⟨_, hregistry, fun sigCode sigType => ?_⟩
  -- behind the first type nothing is eligible
  have hback : back.filterMap (fun entry =>
      if entry.Eligible targetName then entry.signal targetName else none) = [] := by
    rw [List.filterMap_eq_nil_iff]
    intro entry hentry
    obtain ⟨before, after, rfl⟩ := List.append_of_mem hentry
    obtain ⟨other, hother, hne⟩ := htyped before entry after rfl
    refine if_neg (h.typed (front ++ before) entry after (List.append_assoc ..).symm ⟨other, ?_, hne⟩)
    rw [List.append_assoc]
    exact List.mem_append_right _ hother
  -- and in front of it what is built is eligible
  have hfront : front.filterMap (fun entry =>
      if entry.Eligible targetName then entry.signal targetName else none) =
        (front.map TypedEntry.base).filterMap (Entry.built targetName) := by
    rw [List.filterMap_map]
    refine List.filterMap_congr fun entry hentry => ?_
    have hentryFormed := hformed entry (List.mem_append_left _ hentry)
    rw [TypedEntry.signal_of_untyped (huntyped entry hentry)]
    split
    · rfl
    · rename_i heligible
      refine (Option.not_isSome_iff_eq_none.mp fun hbuilt => heligible ?_).symm
      obtain ⟨before, after, rfl⟩ := List.append_of_mem hentry
      exact h.untyped before entry (after ++ back) (by simp) (forall_mem_upTo huntyped rfl)
        ((TypedEntry.isSome_built_iff hentryFormed).mp hbuilt)
  have hcategory : ∀ info ∈ (front.map TypedEntry.base).filterMap (Entry.built targetName),
      info.mSignalCategory ≠ 0 := by
    intro info hinfo
    obtain ⟨base, hbase, hbuilt⟩ := List.mem_filterMap.mp hinfo
    obtain ⟨entry, hentry, rfl⟩ := List.mem_map.mp hbase
    exact TypedEntry.category_of_built (hformed entry (List.mem_append_left _ hentry)) hbuilt
  rw [List.filterMap_append, hback, List.append_nil, hfront,
    ← SignalRegistry.getSignalConfigById_registerAll isBuSpecified hcategory, ← foldl_register,
    List.map_map]
  rfl

/-- **Signals are gated exactly then.**  The parser registers the entries that are enabled and meant for
the target, with their types, and no others, if and only if nothing eligible has a type or comes after
one, and what comes before the first type is eligible or has a target after an `Enable` other than
`true`. -/
theorem gated_iff (isBuSpecified : Bool) (targetName : String) {entries : List TypedEntry}
    (hformed : ∀ entry ∈ entries, entry.WellFormed) :
    Gated isBuSpecified targetName entries ↔ Passes targetName entries := by
  refine ⟨Gated.passes hformed, fun h => ⟨?_, found_of_passes hformed h⟩⟩
  exact fun before entry after hsplit => registered_of_passes hformed h hsplit

end Parser

namespace Sample

/-- A signal with an id, a category and some more keys. -/
def signal (more : List TypedField) : TypedEntry where
  opened := .all
  fields :=
    .plain (.scalar .SigId (datum "0x0001" isKey_code)) ::
      .plain (.scalar .Category (datum "2" isKey_two)) :: more

/-- A signal that is enabled for a target. -/
def enabled : TypedEntry :=
  signal [.plain (.scalar .Enable (datum "true" (by decide))),
    .plain (.list .TargetsEnabled [datum "target" (by decide)])]

/-- A signal that is not enabled, in front of a target. -/
def refused : TypedEntry :=
  signal [.plain (.scalar .Enable (datum "false" (by decide))),
    .plain (.list .TargetsEnabled [datum "target" (by decide)])]

/-- A signal that is not enabled. -/
def disabled : TypedEntry := signal [.plain (.scalar .Enable (datum "false" (by decide)))]

/-- A signal with a type. -/
def typed : TypedEntry :=
  signal [.plain (.scalar .Enable (datum "true" (by decide))), .SigType (datum "3" isKey_three)]

theorem valid_scalar {key : ScalarKey} {value : Datum}
    (h : (key.call value (.new .all)).1 = .RC_SUCCESS) : (Assignment.scalar key value).Valid :=
  fun _ => h

theorem valid_target (value : Datum) : (Assignment.element .TargetsEnabled value).Valid :=
  fun _ => (addTarget_ok_iff rfl ..).mpr (by decide)

theorem wellFormed {more : List TypedField}
    (hallocated : ∀ field ∈ more.filterMap TypedField.field?, field.Allocated)
    (hvalid : ∀ a ∈ (more.filterMap TypedField.field?).flatMap Field.assignments, a.Valid)
    (hcategory : ((more.filterMap TypedField.field?).flatMap Field.assignments).filterMap
      (Assignment.scalar? .Category) = [])
    (htypes : ∀ text ∈ more.filterMap TypedField.type?, (stol 0 text).isSome) :
    (signal more).WellFormed where
  allocated := ⟨rfl, rfl, List.forall_mem_cons.mpr ⟨trivial, List.forall_mem_cons.mpr
    ⟨trivial, hallocated⟩⟩⟩
  valid := List.forall_mem_cons.mpr ⟨valid_scalar (by decide), List.forall_mem_cons.mpr
    ⟨valid_scalar (by decide), hvalid⟩⟩
  category := by
    intro category h
    have hvalues : (signal more).values .Category = ["2"] := congrArg ("2" :: ·) hcategory
    rw [hvalues] at h
    have htwo : (stoi 0 "2").map (BitVec.ofInt 8) = some 2 := by decide
    obtain rfl : category = 2 := Option.some.inj (h.symm.trans htwo)
    decide
  types := htypes

theorem enabled_wellFormed : enabled.WellFormed :=
  wellFormed (by simp [TypedField.field?, Field.Allocated])
    (List.forall_mem_cons.mpr ⟨valid_scalar (by decide), List.forall_mem_singleton.mpr
      (valid_target _)⟩) rfl (by decide)

theorem refused_wellFormed : refused.WellFormed :=
  wellFormed (by simp [TypedField.field?, Field.Allocated])
    (List.forall_mem_cons.mpr ⟨valid_scalar (by decide), List.forall_mem_singleton.mpr
      (valid_target _)⟩) rfl (by decide)

theorem disabled_wellFormed : disabled.WellFormed :=
  wellFormed (by simp [TypedField.field?, Field.Allocated])
    (List.forall_mem_singleton.mpr (valid_scalar (by decide))) rfl (by decide)

theorem typed_wellFormed : typed.WellFormed :=
  wellFormed (by simp [TypedField.field?, Field.Allocated])
    (List.forall_mem_singleton.mpr (valid_scalar (by decide))) rfl (by decide)

end Sample

/-- A signal that is enabled is registered, and one that is not is dropped for the target that comes
after. -/
theorem gated_sample : Gated false "target" [Sample.enabled, Sample.refused] := by
  refine (gated_iff false "target" (List.forall_mem_cons.mpr
    ⟨Sample.enabled_wellFormed, List.forall_mem_singleton.mpr Sample.refused_wellFormed⟩)).mpr ?_
  have huntyped : ∀ entry ∈ [Sample.enabled, Sample.refused], entry.types = [] := by decide
  constructor
  · rintro before entry after hsplit ⟨other, hother, hne⟩
    exact absurd (forall_mem_upTo huntyped hsplit other hother) hne
  · intro before entry after hsplit _ hrefused
    have hentry : entry ∈ [Sample.enabled, Sample.refused] := by
      rw [hsplit]
      exact List.mem_append_right _ List.mem_cons_self
    rcases List.mem_pair.mp hentry with rfl | rfl
    · decide
    · exact absurd (show Sample.refused.Refused by unfold TypedEntry.Refused; decide) hrefused

/-- **A signal that is not enabled is registered, and one with a type is not.** -/
theorem disabled_is_registered : (Sample.disabled.WellFormed ∧ ¬ Gated false "target" [Sample.disabled]) ∧
    Sample.typed.WellFormed ∧ ¬ Gated false "target" [Sample.typed] := by
  refine ⟨⟨Sample.disabled_wellFormed, fun h => ?_⟩, Sample.typed_wellFormed, fun h => ?_⟩
  · have hpasses := h.passes (List.forall_mem_singleton.mpr Sample.disabled_wellFormed)
    have heligible : Sample.disabled.Eligible "target" :=
      hpasses.untyped [] _ [] rfl (List.forall_mem_singleton.mpr rfl) fun hrefused =>
        hrefused (by decide)
    exact absurd heligible (by decide)
  · have hpasses := h.passes (List.forall_mem_singleton.mpr Sample.typed_wellFormed)
    exact hpasses.typed [] _ [] rfl ⟨Sample.typed, List.mem_singleton_self _, by decide⟩ (by decide)

end ResourceTuner.RestuneParser
