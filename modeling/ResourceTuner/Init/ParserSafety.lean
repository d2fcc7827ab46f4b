import ResourceTuner.Init.InitParser
import ResourceTuner.Init.PerAppParser
import ResourceTuner.Init.ResourceParser

/-!
# What the parsers do on any document

The four parsers keep a stack of keys and builders that may be null in step with the events.  Which
builder an event belongs to is told by the key on top of the stack, and whether it is there by the
mappings before, so a document that nests its keys in another way than the parser expects can have it
use a builder that is null.

* **`Dangerous`**, for each parser — the states and events in which that happens;
* **`step_fault_iff`**, for each parser — they are all;
* **`safe_iff`** — the documents on which all four parsers return.
-/

namespace ResourceTuner

open RestuneParser (Event ErrCode Grants)
open EventLoop (Meets)

/-! ## Resources -/

namespace ResourceParser

/-- The builder of a resource is there until its mapping ends. -/
def Inv (s : State) : Prop := s.parsingResource = true → s.resourceConfigInfoBuilder.isSome

/-- A scalar leaves the builder of an entry where it is. -/
theorem isSome_addScalar (host : Host) (s : State) (topKey value : String) :
    (addScalar host s topKey value).resourceConfigInfoBuilder.isSome =
      s.resourceConfigInfoBuilder.isSome ∧
    (addScalar host s topKey value).parsingResource = s.parsingResource := by
  unfold addScalar
  split
  · rename_i hbuilder
    rw [hbuilder]
    exact ⟨rfl, rfl⟩
  · exact ⟨rfl, rfl⟩

/-- Every event that does not end the parser keeps the invariant. -/
theorem Inv.step {host : Host} {s s' : State} {event : Event} (h : Inv s)
    (hstep : step host s event = .running s') : Inv s' := by
  cases event with
  | mappingStart grants =>
    rw [ResourceParser.step] at hstep
    split at hstep
    · cases hstep
      exact h
    · split at hstep
      · cases hstep
        exact fun _ => rfl
      · cases hstep
  | mappingEnd grants =>
    rw [ResourceParser.step] at hstep
    split at hstep
    · split at hstep
      · cases hstep
      · cases hstep
        exact fun hparsing => absurd hparsing Bool.false_ne_true
    · cases hstep
      exact h
  | sequenceEnd =>
    rw [ResourceParser.step] at hstep
    split at hstep
    · cases hstep
    · cases hstep
      exact h
  | scalar value grants =>
    rw [ResourceParser.step] at hstep
    split at hstep
    · cases hstep
      exact h
    · cases hstep
    · rename_i topKey keyTracker _
      cases hstep
      intro hparsing
      rw [(isSome_addScalar ..).2] at hparsing
      rw [(isSome_addScalar ..).1]
      exact h hparsing
  | streamEnd => cases hstep
  | _ =>
    cases hstep
    exact h

/-- No event is a fault. -/
theorem step_ne_fault {host : Host} {s : State} (event : Event) (h : Inv s) :
    step host s event ≠ .fault := by
  intro hfault
  cases event with
  | mappingStart grants =>
    rw [step] at hfault
    split at hfault
    · cases hfault
    · split at hfault <;> cases hfault
  | mappingEnd grants =>
    rw [step] at hfault
    split at hfault
    · rename_i hparsing
      split at hfault
      · rename_i hbuilder
        have hsome := h hparsing
        rw [hbuilder] at hsome
        cases hsome
      · cases hfault
    · cases hfault
  | sequenceEnd =>
    rw [step] at hfault
    split at hfault <;> cases hfault
  | scalar value grants =>
    rw [step] at hfault
    split at hfault <;> cases hfault
  | _ => cases hfault

/-- **The parser of resources returns, whatever the events are.** -/
theorem parse_returns (host : Host) (events : List Event) :
    ∃ result, parseResourceConfigYamlNode host events = .returned result := by
  refine (EventLoop.returned_iff_not_meets (I := Inv) (P := fun _ _ => False)
    (fun _ _ _ => Inv.step) ?_ ?_).mpr ?_
  · exact fun s event h => iff_of_false (step_ne_fault event h) id
  · exact fun hparsing => absurd hparsing Bool.false_ne_true
  · rintro ⟨_, _, _, _, _, _, hfalse⟩
    exact hfalse

end ResourceParser

/-! ## Initial configurations -/

namespace InitParser

/-- The mapping of a list ends, and the builder of the list is null. -/
def Dangerous (s : State) : Event → Prop
  | .mappingEnd _ =>
    (s.keyTracker.head? = some "CgroupsInfo" ∧ s.cGroupConfigBuilder = none) ∨
    (s.keyTracker.head? = some "MPAMgroupsInfo" ∧ s.mpamGroupConfigBuilder = none) ∨
    (s.keyTracker.head? = some "CacheInfo" ∧ s.cacheInfoBuilder = none)
  | _ => False

/-- An event follows a null pointer exactly where an item ends whose builder could not be made. -/
theorem step_fault_iff (s : State) (event : Event) : step s event = .fault ↔ Dangerous s event := by
  cases event with
  | mappingStart grants =>
    refine iff_of_false (fun hfault => ?_) id
    rw [step] at hfault
    repeat' split at hfault
    all_goals cases hfault
  | mappingEnd grants =>
    rw [step, Dangerous]
    cases hstack : s.keyTracker with
    | nil => simp
    | cons topKey keyTracker =>
      simp only [List.head?_cons, Option.some.injEq]
      by_cases hcgroup : topKey = "CgroupsInfo"
      · subst hcgroup
        cases s.cGroupConfigBuilder <;> simp
      · by_cases hmpam : topKey = "MPAMgroupsInfo"
        · subst hmpam
          cases s.mpamGroupConfigBuilder <;> simp
        · by_cases hcache : topKey = "CacheInfo"
          · subst hcache
            cases s.cacheInfoBuilder <;> simp
          · simp [hcgroup, hmpam, hcache]
  | sequenceEnd =>
    refine iff_of_false (fun hfault => ?_) id
    rw [step] at hfault
    split at hfault <;> cases hfault
  | scalar value grants =>
    refine iff_of_false (fun hfault => ?_) id
    rw [step] at hfault
    split at hfault <;> cases hfault
  | _ => exact iff_of_false (fun hfault => by cases hfault) id

/-- **The parser of initial configurations returns when no list ends without a builder.** -/
theorem parse_returns_iff (events : List Event) :
    (∃ result, parseInitConfigYamlNode events = .returned result) ↔
      ¬ Meets step .initial events Dangerous :=
  EventLoop.returned_iff_not_meets (I := fun _ => True) (fun _ _ _ _ _ => trivial)
    (fun s event _ => step_fault_iff s event) trivial

end InitParser

/-! ## Signals -/

namespace RestuneParser

/-- A resource ends outside a signal, or its values end outside a resource, and there is no error. -/
def Dangerous (s : State) : Event → Prop
  | .mappingEnd _ => s.inResourcesMap = true ∧ s.parsingSignal = false ∧ s.rc = .RC_SUCCESS
  | .sequenceEnd =>
    s.keyTracker.head? = some "Values" ∧ s.resourceBuilder = none ∧ s.rc = .RC_SUCCESS
  | _ => False

/-- The builder of a signal is there inside it and nowhere else, that of a resource inside it. -/
structure Inv (s : State) : Prop where
  signal : s.signalInfoBuilder.isSome = s.parsingSignal
  resource : s.inResourcesMap = true → s.resourceBuilder.isSome

/-- A scalar leaves the builders where they are. -/
theorem Inv.addScalar {s : State} (h : Inv s) (targetName topKey value : String) (grants : Grants) :
    Inv (addScalar targetName s topKey value grants) := by
  unfold RestuneParser.addScalar
  split
  · rename_i hbuilder
    refine ⟨?_, h.resource⟩
    rw [← h.signal, hbuilder]
    rfl
  · split
    · exact ⟨h.signal, fun _ => rfl⟩
    · split <;> exact ⟨h.signal, h.resource⟩

variable {isBuSpecified : Bool} {targetName : String} {s s' : State} {event : Event}

/-- A mapping that opens makes the builder of what it opens, or ends the parser. -/
theorem Inv.mappingStart {grants : Grants} (h : Inv s)
    (hstep : step isBuSpecified targetName s (.mappingStart grants) = .running s') : Inv s' := by
  rw [step] at hstep
  split at hstep
  · cases hstep
    exact ⟨h.signal, h.resource⟩
  · split at hstep
    · cases hstep
    · split at hstep
      · split at hstep
        · cases hstep
          exact ⟨h.signal, fun _ => rfl⟩
        · cases hstep
      · split at hstep
        · cases hstep
          exact ⟨rfl, h.resource⟩
        · cases hstep

/-- A mapping that ends takes its builder along. -/
theorem Inv.mappingEnd {grants : Grants} (h : Inv s)
    (hstep : step isBuSpecified targetName s (.mappingEnd grants) = .running s') : Inv s' := by
  rw [step] at hstep
  split at hstep
  · split at hstep
    · split at hstep
      · rename_i hsignal _
        cases hstep
        refine ⟨?_, fun hresource => absurd hresource Bool.false_ne_true⟩
        rw [← h.signal, hsignal]
        rfl
      · cases hstep
    · cases hstep
      exact ⟨h.signal, fun hresource => absurd hresource Bool.false_ne_true⟩
  · rename_i hresource
    split at hstep
    · split at hstep
      · cases hstep
      · cases hstep
        exact ⟨rfl, fun hmap => absurd hmap hresource⟩
    · cases hstep
      exact h

/-- The end of a sequence leaves the builders where they are. -/
theorem Inv.sequenceEnd (h : Inv s)
    (hstep : step isBuSpecified targetName s .sequenceEnd = .running s') : Inv s' := by
  rw [step] at hstep
  split at hstep
  · cases hstep
  · split at hstep
    · split at hstep
      · split at hstep
        · cases hstep
        · cases hstep
          exact ⟨h.signal, h.resource⟩
      · cases hstep
        exact ⟨h.signal, fun _ => rfl⟩
    · cases hstep
      exact ⟨h.signal, h.resource⟩

/-- So does a scalar, be it a key or a value. -/
theorem Inv.scalar {value : String} {grants : Grants} (h : Inv s)
    (hstep : step isBuSpecified targetName s (.scalar value grants) = .running s') : Inv s' := by
  rw [step] at hstep
  split at hstep
  · cases hstep
    exact ⟨h.signal, h.resource⟩
  · split at hstep
    · cases hstep
    · rename_i topKey keyTracker _
      cases hstep
      apply Inv.addScalar
      split <;> exact ⟨h.signal, h.resource⟩

/-- So every event that does not end the parser keeps the invariant. -/
theorem Inv.step (h : Inv s) (hstep : step isBuSpecified targetName s event = .running s') :
    Inv s' := by
  cases event with
  | mappingStart grants => exact h.mappingStart hstep
  | mappingEnd grants => exact h.mappingEnd hstep
  | sequenceEnd => exact h.sequenceEnd hstep
  | scalar value grants => exact h.scalar hstep
  | streamEnd => cases hstep
  | _ =>
    cases hstep
    exact h

/-- The end of a mapping is a fault for a resource outside any signal, whose builder would be handed
it. -/
theorem step_mappingEnd_fault_iff (h : Inv s) (grants : Grants) :
    step isBuSpecified targetName s (.mappingEnd grants) = .fault ↔
      Dangerous s (.mappingEnd grants) := by
  rw [step, Dangerous, ← h.signal]
  by_cases hmap : s.inResourcesMap = true
  · obtain ⟨resourceBuilder, hresource⟩ := Option.isSome_iff_exists.mp (h.resource hmap)
    rw [if_pos hmap, hresource]
    by_cases hrc : s.rc = .RC_SUCCESS
    · rw [if_pos hrc]
      cases s.signalInfoBuilder with
      | none => exact iff_of_true rfl ⟨hmap, rfl, hrc⟩
      | some builder => exact iff_of_false (fun hfault => by cases hfault) fun hd => by cases hd.2.1
    · rw [if_neg hrc]
      exact iff_of_false (fun hfault => by cases hfault) fun hd => hrc hd.2.2
  · -- the builder of a signal is there until its mapping ends
    refine iff_of_false (fun hfault => ?_) fun hd => hmap hd.1
    rw [if_neg hmap] at hfault
    split at hfault
    · rename_i hparsing
      split at hfault
      · rename_i hnone
        rw [hnone] at hparsing
        cases hparsing
      · cases hfault
    · cases hfault

/-- The end of a list of values is a fault without a resource to put them in. -/
theorem step_sequenceEnd_fault_iff :
    step isBuSpecified targetName s .sequenceEnd = .fault ↔ Dangerous s .sequenceEnd := by
  rw [step, Dangerous]
  cases s.keyTracker with
  | nil => exact iff_of_false (fun hfault => by cases hfault) fun hd => by cases hd.1
  | cons topKey keyTracker =>
    rw [List.head?_cons, Option.some.injEq]
    by_cases hkey : topKey = "Values"
    · simp only [if_pos hkey]
      cases s.resourceBuilder with
      | none =>
        by_cases hrc : s.rc = .RC_SUCCESS
        · simp only [if_pos hrc]
          exact iff_of_true trivial ⟨hkey, trivial, hrc⟩
        · simp only [if_neg hrc]
          exact iff_of_false (fun hfault => by cases hfault) fun hd => hrc hd.2.2
      | some builder =>
        exact iff_of_false (fun hfault => by cases hfault) fun hd => by cases hd.2.1
    · simp only [if_neg hkey]
      exact iff_of_false (fun hfault => by cases hfault) fun hd => hkey hd.1

/-- No other event is a fault. -/
theorem step_fault_iff (h : Inv s) (event : Event) :
    step isBuSpecified targetName s event = .fault ↔ Dangerous s event := by
  cases event with
  | mappingEnd grants => exact step_mappingEnd_fault_iff h grants
  | sequenceEnd => exact step_sequenceEnd_fault_iff
  | mappingStart grants =>
    refine iff_of_false (fun hfault => ?_) id
    rw [step] at hfault
    repeat' split at hfault
    all_goals cases hfault
  | scalar value grants =>
    refine iff_of_false (fun hfault => ?_) id
    rw [step] at hfault
    repeat' split at hfault
    all_goals cases hfault
  | _ => exact iff_of_false (fun hfault => by cases hfault) id

/-- The loop has no faults of its own. -/
theorem loopStep_eq_fault_iff : loopStep isBuSpecified targetName s event = .fault ↔
    step isBuSpecified targetName s event = .fault := by
  unfold loopStep
  cases step isBuSpecified targetName s event <;> simp [Outcome.toLoop]

/-- **The parser of signals returns when no resource ends outside a signal and no values end outside a
resource.** -/
theorem parse_returns_iff (isBuSpecified : Bool) (targetName : String) (registry : SignalRegistry)
    (events : List Event) :
    (∃ rc registry', parseSignalConfigYamlNode isBuSpecified targetName registry events =
      .returned rc registry') ↔
      ¬ Meets (loopStep isBuSpecified targetName) (initial registry) events Dangerous := by
  have hloop : (parseEvents isBuSpecified targetName (initial registry) events).toLoop = _ :=
    toLoop_parseEvents (initial registry) events
  have hreturned : (∃ result, EventLoop.run (loopStep isBuSpecified targetName)
      (fun s => (.RC_YAML_PARSING_ERROR, s.registry)) (initial registry) events =
        .returned result) ↔ _ :=
    EventLoop.returned_iff_not_meets (I := Inv)
      (fun s s' event h hstep => h.step (Outcome.toLoop_inj hstep))
      (fun s event h => loopStep_eq_fault_iff.trans (step_fault_iff h event))
      ⟨rfl, fun hmap => absurd hmap Bool.false_ne_true⟩
  rw [← hreturned, ← hloop]
  constructor
  · rintro ⟨rc, registry', hresult⟩
    exact ⟨(rc, registry'), congrArg Outcome.toLoop hresult⟩
  · rintro ⟨⟨rc, registry'⟩, hresult⟩
    exact ⟨rc, registry', Outcome.toLoop_inj hresult⟩

end RestuneParser

/-! ## Apps -/

namespace PerAppParser

/-- The items of a list two by two; the last one is left out when it has no partner. -/
def pairs : List String → List (String × String)
  | first :: second :: items => (first, second) :: pairs items
  | _ => []

/-- The last thread of a list has no group, and nothing before it ends the parser. -/
def LacksGroup (s : State) (grants : Grants) : Prop :=
  (∃ builder config, s.appConfigBuider = some builder ∧ builder.mAppConfig = some config) ∧
    grants.vector = true ∧ grants.element = true ∧ s.itemArray.length % 2 = 1 ∧
    ∀ thread ∈ pairs s.itemArray, AppConfigBuilder.cGroupID thread.2 ≠ -1

/-- The top of the stack is taken when it is empty, the builder is used when it is null, the group of a
thread is not there, or `new` throws. -/
def Dangerous (s : State) : Yaml.Event × Grants → Prop
  | (.mappingStart, grants) =>
    s.docMarker = true ∧ (s.keyTracker = [] ∨
      (s.keyTracker.head? = some "PerAppConfigs" ∧ s.appConfigBuider = none ∧ grants.builder = false))
  | (.mappingEnd, _) => s.keyTracker.head? = some "PerAppConfigs" ∧ s.appConfigBuider = none
  | (.sequenceEnd, grants) =>
    s.keyTracker ≠ [] ∧
      (((s.inThreadList = true ∨ s.inConfigList = true) ∧ s.appConfigBuider = none) ∨
        (s.inThreadList = true ∧ LacksGroup s grants))
  | (.scalar value, _) =>
    RestuneParser.isKey value = false ∧ s.keyTracker.head? = some "App" ∧ s.appConfigBuider = none
  | _ => False

/-- An error ends the parser, so there is none before. -/
def Inv (s : State) : Prop := s.rc = .RC_SUCCESS

/-- Where the loop over the threads comes to its end, it has met no error: the first one ends the
parser. -/
theorem addThreads_added {rc rc' : ErrCode} {builder builder' : AppConfigBuilder} {listIndex : Nat}
    {items : List String} (hrc : rc = .RC_SUCCESS)
    (h : addThreads rc builder listIndex items = .added rc' builder') : rc' = .RC_SUCCESS := by
  fun_induction addThreads rc builder listIndex items with
  | case1 rc builder listIndex =>
    cases h
    exact hrc
  | case2 builder listIndex item => cases h
  | case3 rc builder listIndex item hok => exact absurd hrc hok
  | case4 builder listIndex threadName cGroup items made hmade ih => exact ih hmade h
  | case5 builder listIndex threadName cGroup items made hmade => cases h
  | case6 rc builder listIndex threadName cGroup items hok ih => exact ih hrc h

/-- The same for the loop over the signal codes. -/
theorem addSigCodes_added {rc rc' : ErrCode} {builder builder' : AppConfigBuilder} {i : Nat}
    {items : List String} (hrc : rc = .RC_SUCCESS)
    (h : addSigCodes rc builder i items = .added rc' builder') : rc' = .RC_SUCCESS := by
  fun_induction addSigCodes rc builder i items with
  | case1 rc builder i =>
    cases h
    exact hrc
  | case2 builder i item items made hmade ih => exact ih hmade h
  | case3 builder i item items made hmade => cases h
  | case4 rc builder i item items hok ih => exact absurd hrc hok

/-- That loop takes one item at a time, and so none that is not there. -/
theorem addSigCodes_ne_outOfRange (rc : ErrCode) (builder : AppConfigBuilder) (i : Nat)
    (items : List String) : addSigCodes rc builder i items ≠ .outOfRange := by
  fun_induction addSigCodes rc builder i items with
  | case1 | case3 => exact nofun
  | case2 builder i item items made hmade ih => exact ih
  | case4 rc builder i item items hok ih => exact ih

/-- The loop over the threads takes an item that is not there when their number is odd, unless a group
before it is not known. -/
theorem addThreads_outOfRange_iff {builder : AppConfigBuilder} {config : AppConfig}
    {names : List String} (hconfig : builder.mAppConfig = some config)
    (hnames : config.mThreadNameList = some names) (listIndex : Nat) (items : List String) :
    addThreads .RC_SUCCESS builder listIndex items = .outOfRange ↔
      items.length % 2 = 1 ∧ ∀ thread ∈ pairs items, AppConfigBuilder.cGroupID thread.2 ≠ -1 := by
  induction items using pairs.induct generalizing builder config names listIndex with
  | case1 threadName cGroup items ih =>
    rw [addThreads, if_pos rfl, pairs, List.forall_mem_cons]
    have hlength : (threadName :: cGroup :: items).length % 2 = items.length % 2 := by
      rw [List.length_cons, List.length_cons]
      omega
    rw [hlength]
    by_cases hgroup : AppConfigBuilder.cGroupID cGroup = -1
    · have hfails : (builder.addThreadMapping listIndex threadName cGroup).1 ≠ .RC_SUCCESS := by
        simp [AppConfigBuilder.addThreadMapping, AppConfigBuilder.withConfig, hconfig, hnames, hgroup]
      simp only [if_neg hfails]
      exact iff_of_false (fun h => by cases h) fun h => h.2.1 hgroup
    · obtain ⟨config', hmade, hnames'⟩ : ∃ config',
          builder.addThreadMapping listIndex threadName cGroup = (.RC_SUCCESS, ⟨some config'⟩) ∧
          config'.mThreadNameList = some (names.set listIndex threadName) := by
        simp [AppConfigBuilder.addThreadMapping, AppConfigBuilder.withConfig, hconfig, hnames, hgroup]
      simp only [hmade]
      rw [if_pos trivial, ih rfl hnames' (listIndex + 1)]
      exact and_congr_right fun _ => (and_iff_right hgroup).symm
  | case2 items hne =>
    match items, hne with
    | [], _ => exact iff_of_false (fun h => by cases h) fun h => by cases h.1
    | [_], _ => exact iff_of_true rfl ⟨rfl, fun _ h => by cases h⟩
    | first :: second :: items, hne => exact absurd rfl (hne first second items)

/-- Neither telling the number of items nor adding them leaves an error behind. -/
theorem addItems_added {setNumItems : AppConfigBuilder → ErrCode × AppConfigBuilder}
    {add : ErrCode → AppConfigBuilder → List String → Added} {rc rc' : ErrCode}
    {builder builder' : AppConfigBuilder} {items : List String}
    (hadd : ∀ rc builder rc' builder', rc = .RC_SUCCESS →
      add rc builder items = .added rc' builder' → rc' = .RC_SUCCESS)
    (hrc : rc = .RC_SUCCESS) (h : addItems setNumItems add rc builder items = .added rc' builder') :
    rc' = .RC_SUCCESS := by
  subst hrc
  unfold addItems at h
  dsimp only at h
  split at h
  · cases h
  · rename_i hmade
    exact hadd _ _ _ _ (not_not.mp fun hne => hmade ⟨rfl, hne⟩) h

/-- A list that does not end the parser leaves no error. -/
theorem finishList_running {s s' : State} {add : AppConfigBuilder → Added} {left : State → State}
    (hadd : ∀ builder rc builder', add builder = .added rc builder' → rc = .RC_SUCCESS)
    (hleft : ∀ s, (left s).rc = s.rc) (hs : Inv s) (h : finishList s add left = .running s') :
    Inv s' := by
  unfold finishList at h
  split at h
  · split at h
    · cases h
    · cases h
      exact (hleft s).trans hs
  · split at h
    · rename_i rc builder' hadded
      cases h
      exact (hleft _).trans (hadd _ _ _ hadded)
    · cases h
    · cases h

/-- Its end is a fault without a builder, and where an item is taken that is not there. -/
theorem finishList_fault_iff {s : State} {add : AppConfigBuilder → Added} {left : State → State}
    (hs : Inv s) : finishList s add left = .fault ↔
      s.appConfigBuider = none ∨ ∃ builder, s.appConfigBuider = some builder ∧
        add builder = .outOfRange := by
  have hrc : s.rc = .RC_SUCCESS := hs
  unfold finishList
  cases s.appConfigBuider with
  | none => exact iff_of_true (if_pos hrc) (.inl rfl)
  | some builder =>
    simp only [reduceCtorEq, false_or, Option.some.injEq, exists_eq_left']
    cases add builder with
    | outOfRange => exact iff_of_true rfl rfl
    | added | failed => exact iff_of_false (fun h => by cases h) (fun h => by cases h)

/-- With an item too many the list of threads is a fault, unless its arrays cannot be allocated. -/
theorem addItems_threads_outOfRange_iff (builder : AppConfigBuilder) (grants : Grants)
    (items : List String) :
    addItems (·.setNumThreads grants (items.length / 2)) (fun rc builder => addThreads rc builder 0)
        .RC_SUCCESS builder items = .outOfRange ↔
      (∃ config, builder.mAppConfig = some config) ∧ grants.vector = true ∧ grants.element = true ∧
        items.length % 2 = 1 ∧ ∀ thread ∈ pairs items, AppConfigBuilder.cGroupID thread.2 ≠ -1 := by
  obtain ⟨mAppConfig⟩ := builder
  rw [addItems, RestuneParser.addToBuilder, if_pos rfl]
  cases mAppConfig with
  | none => exact iff_of_false (fun h => by cases h) fun h => by cases h.1.choose_spec
  | some config =>
    cases hvector : grants.vector with
    | false =>
      have hfails : (AppConfigBuilder.setNumThreads ⟨some config⟩ grants (items.length / 2)).1 =
          .RC_INVALID_VALUE := by
        simp [AppConfigBuilder.setNumThreads, AppConfigBuilder.withConfig, hvector]
      dsimp only
      rw [hfails, if_pos ⟨rfl, by decide⟩]
      exact iff_of_false (fun h => by cases h) fun h => absurd h.2.1 Bool.false_ne_true
    | true =>
      cases helement : grants.element with
      | false =>
        have hfails : (AppConfigBuilder.setNumThreads ⟨some config⟩ grants (items.length / 2)).1 =
            .RC_INVALID_VALUE := by
          simp [AppConfigBuilder.setNumThreads, AppConfigBuilder.withConfig, hvector, helement]
        dsimp only
        rw [hfails, if_pos ⟨rfl, by decide⟩]
        exact iff_of_false (fun h => by cases h) fun h => absurd h.2.2.1 Bool.false_ne_true
      | true =>
        obtain ⟨config', names, hmade, hnames⟩ : ∃ config' names,
            AppConfigBuilder.setNumThreads ⟨some config⟩ grants (items.length / 2) =
              (.RC_SUCCESS, ⟨some config'⟩) ∧ config'.mThreadNameList = some names := by
          simp [AppConfigBuilder.setNumThreads, AppConfigBuilder.withConfig, hvector, helement]
        simp only [hmade]
        rw [if_neg (by simp), addThreads_outOfRange_iff rfl hnames]
        exact ⟨fun h => ⟨⟨config, rfl⟩, trivial, trivial, h⟩, fun h => h.2.2.2⟩

/-- With the signal codes that never happens. -/
theorem addItems_sigCodes_ne_outOfRange (builder : AppConfigBuilder) (grants : Grants)
    (items : List String) :
    addItems (·.setNumSigCodes grants items.length) (fun rc builder => addSigCodes rc builder 0)
      .RC_SUCCESS builder items ≠ .outOfRange := by
  unfold addItems
  dsimp only
  split
  · exact nofun
  · exact addSigCodes_ne_outOfRange _ _ _ _

variable {s s' : State}

/-- The end of a list either ends the parser or leaves no error, whichever list it is. -/
theorem Inv.sequenceEnd {grants : Grants} (h : Inv s)
    (hstep : step s (.sequenceEnd, grants) = .running s') : Inv s' := by
  rw [step] at hstep
  split at hstep
  · cases hstep
  · split at hstep
    · refine finishList_running ?_ ?_ h hstep
      · exact fun _ _ _ => addItems_added (fun _ _ _ _ => addThreads_added) h
      · exact fun _ => rfl
    · split at hstep
      · refine finishList_running ?_ ?_ h hstep
        · exact fun _ _ _ => addItems_added (fun _ _ _ _ => addSigCodes_added) h
        · exact fun _ => rfl
      · cases hstep
        exact h

/-- A value under a key that ends the parser with its error, or leaves none. -/
theorem Inv.addScalar {topKey value : String} (h : Inv s)
    (hstep : addScalar s topKey value = .running s') : Inv s' := by
  unfold PerAppParser.addScalar at hstep
  split at hstep
  · split at hstep
    · split at hstep
      · cases hstep
      · dsimp only at hstep
        split at hstep
        · rename_i hmade
          cases hstep
          exact hmade
        · cases hstep
    · cases hstep
      exact h
  · split at hstep <;> cases hstep <;> exact h

/-- So does any scalar. -/
theorem Inv.scalar {value : String} {grants : Grants} (h : Inv s)
    (hstep : step s (.scalar value, grants) = .running s') : Inv s' := by
  rw [step] at hstep
  split at hstep
  · cases hstep
    exact h
  · split at hstep
    · cases hstep
    · refine Inv.addScalar ?_ hstep
      split <;> exact h

/-- Every event that does not end the parser leaves no error behind. -/
theorem Inv.step {event : Yaml.Event × Grants} (h : Inv s) (hstep : step s event = .running s') :
    Inv s' := by
  obtain ⟨event, grants⟩ := event
  cases event with
  | sequenceEnd => exact h.sequenceEnd hstep
  | scalar value => exact h.scalar hstep
  | streamEnd => cases hstep
  | mappingStart | mappingEnd | sequenceStart =>
    rw [PerAppParser.step] at hstep
    repeat' split at hstep
    all_goals cases hstep
    all_goals exact h
  | _ =>
    cases hstep
    exact h

/-- The opening of a mapping is a fault without a key above it, and where the builder of an entry
cannot be made. -/
theorem step_mappingStart_fault_iff (grants : Grants) :
    step s (.mappingStart, grants) = .fault ↔ Dangerous s (.mappingStart, grants) := by
  rw [step, Dangerous]
  cases s.docMarker with
  | false => exact iff_of_false (fun h => by cases h) fun h => absurd h.1 Bool.false_ne_true
  | true =>
    cases s.keyTracker with
    | nil => exact iff_of_true rfl ⟨rfl, .inl rfl⟩
    | cons topKey keyTracker =>
      by_cases hroot : topKey = "PerAppConfigs" ∧ s.appConfigBuider = none
      · cases grants.builder <;> simp [hroot]
      · simp only [Bool.not_true, Bool.false_eq_true, if_false, if_neg hroot]
        refine iff_of_false (fun h => by cases h) ?_
        rintro ⟨-, hnil | ⟨htop, hnone, -⟩⟩
        · cases hnil
        · exact hroot ⟨Option.some.inj htop, hnone⟩

/-- Its end is a fault where the entry has no builder. -/
theorem step_mappingEnd_fault_iff (grants : Grants) :
    step s (.mappingEnd, grants) = .fault ↔ Dangerous s (.mappingEnd, grants) := by
  rw [step, Dangerous]
  cases s.keyTracker with
  | nil => exact iff_of_false (fun h => by cases h) fun h => by cases h.1
  | cons topKey keyTracker =>
    by_cases hroot : topKey = "PerAppConfigs"
    · cases s.appConfigBuider <;> simp [hroot]
    · simp [hroot]

/-- The end of a list is a fault without a builder, and for a list of threads in which the last one
has no group. -/
theorem step_sequenceEnd_fault_iff (h : Inv s) (grants : Grants) :
    step s (.sequenceEnd, grants) = .fault ↔ Dangerous s (.sequenceEnd, grants) := by
  have hrc : s.rc = .RC_SUCCESS := h
  rw [step, Dangerous, LacksGroup]
  cases s.keyTracker with
  | nil => exact iff_of_false (fun hfault => by cases hfault) fun hd => hd.1 rfl
  | cons topKey keyTracker =>
    simp only [ne_eq, reduceCtorEq, not_false_eq_true, true_and]
    cases s.inThreadList with
    | true =>
      rw [if_pos rfl, finishList_fault_iff h, hrc]
      simp only [addItems_threads_outOfRange_iff, true_or, true_and, exists_and_left, ← and_assoc]
      simp only [exists_and_right]
    | false =>
      rw [if_neg Bool.false_ne_true]
      cases s.inConfigList with
      | true =>
        rw [if_pos rfl, finishList_fault_iff h, hrc]
        simp [addItems_sigCodes_ne_outOfRange]
      | false => simp

/-- Of the values only the name of an application is handed to the builder at once. -/
theorem addScalar_fault_iff (h : Inv s) (topKey value : String) :
    addScalar s topKey value = .fault ↔ topKey = "App" ∧ s.appConfigBuider = none := by
  have hrc : s.rc = .RC_SUCCESS := h
  unfold addScalar
  by_cases happ : topKey = "App"
  · rw [if_pos happ, if_pos hrc]
    cases s.appConfigBuider with
    | none => exact iff_of_true rfl ⟨happ, rfl⟩
    | some builder =>
      refine iff_of_false (fun hfault => ?_) fun hd => by cases hd.2
      dsimp only at hfault
      split at hfault <;> cases hfault
  · rw [if_neg happ]
    refine iff_of_false (fun hfault => ?_) fun hd => happ hd.1
    split at hfault <;> cases hfault

/-- A scalar is a fault exactly if it is such a name and there is no builder. -/
theorem step_scalar_fault_iff (h : Inv s) (value : String) (grants : Grants) :
    step s (.scalar value, grants) = .fault ↔ Dangerous s (.scalar value, grants) := by
  rw [step, Dangerous]
  cases RestuneParser.isKey value with
  | true => exact iff_of_false (fun hfault => by cases hfault) fun hd => by cases hd.1
  | false =>
    rw [if_neg Bool.false_ne_true]
    cases s.keyTracker with
    | nil => exact iff_of_false (fun hfault => by cases hfault) fun hd => by cases hd.2.1
    | cons topKey keyTracker =>
      rw [List.head?_cons, Option.some.injEq, eq_self, true_and]
      -- the stack is all that is left behind
      have hpopped : Inv (if !s.inConfigList && !s.inThreadList then
          { s with keyTracker := keyTracker } else s) := by
        split <;> exact h
      have hbuilder : (if !s.inConfigList && !s.inThreadList then
          { s with keyTracker := keyTracker } else s).appConfigBuider = s.appConfigBuider := by
        split <;> rfl
      exact (addScalar_fault_iff hpopped topKey value).trans (by rw [hbuilder])

/-- One event follows a null pointer, or takes an item that is not there, exactly where it is
dangerous. -/
theorem step_fault_iff (h : Inv s) (event : Yaml.Event × Grants) :
    step s event = .fault ↔ Dangerous s event := by
  obtain ⟨event, grants⟩ := event
  cases event with
  | mappingStart => exact step_mappingStart_fault_iff grants
  | mappingEnd => exact step_mappingEnd_fault_iff grants
  | sequenceEnd => exact step_sequenceEnd_fault_iff h grants
  | scalar value => exact step_scalar_fault_iff h value grants
  | sequenceStart =>
    refine iff_of_false (fun hfault => ?_) id
    rw [step] at hfault
    repeat' split at hfault
    all_goals cases hfault
  | _ => exact iff_of_false (fun hfault => by cases hfault) id

/-- **The parser of apps returns when it meets nothing dangerous.** -/
theorem parse_returns_iff (events : List (Yaml.Event × Grants)) :
    (∃ result, parsePerAppConfigYamlNode events = .returned result) ↔
      ¬ Meets step .initial events Dangerous :=
  EventLoop.returned_iff_not_meets (I := Inv) (fun _ _ _ => Inv.step)
    (fun _ event h => step_fault_iff h event) rfl

end PerAppParser

/-! ## All four -/

namespace ParserSafety

/-- The event of libyaml as three of the parsers read it, with the answers to the requests for memory. -/
def readEvent : Yaml.Event × Grants → Event
  | (.streamStart, _) => .streamStart
  | (.streamEnd, _) => .streamEnd
  | (.documentStart, _) => .documentStart
  | (.documentEnd, _) => .documentEnd
  | (.reference, _) => Event.alias
  | (.scalar value, grants) => .scalar value grants
  | (.sequenceStart, _) => .sequenceStart
  | (.sequenceEnd, _) => .sequenceEnd
  | (.mappingStart, grants) => .mappingStart grants
  | (.mappingEnd, grants) => .mappingEnd grants

/-- The events of a file, with the answers at each of them. -/
def answered (answers : Nat → Grants) (roots : List Yaml.Node) : List (Yaml.Event × Grants) :=
  (Yaml.stream roots).mapIdx fun i event => (event, answers i)

/-- And as three of the parsers read them. -/
def readEvents (answers : Nat → Grants) (roots : List Yaml.Node) : List Event :=
  (answered answers roots).map readEvent

/-- All four parsers return on the documents of a file. -/
structure Safe (host : Host) (isBuSpecified : Bool) (registry : SignalRegistry)
    (answers : Nat → Grants) (roots : List Yaml.Node) : Prop where
  resource : ∃ rc registered, ResourceParser.parseResourceConfigYamlNode host
    (readEvents answers roots) = .returned (rc, registered)
  init : ∃ rc registered, InitParser.parseInitConfigYamlNode (readEvents answers roots) =
    .returned (rc, registered)
  signal : ∃ rc registry', RestuneParser.parseSignalConfigYamlNode isBuSpecified host.targetName
    registry (readEvents answers roots) = .returned rc registry'
  perApp : ∃ rc registered, PerAppParser.parsePerAppConfigYamlNode (answered answers roots) =
    .returned (rc, registered)

/-- None of them meets anything dangerous. -/
structure Harmless (host : Host) (isBuSpecified : Bool) (registry : SignalRegistry)
    (answers : Nat → Grants) (roots : List Yaml.Node) : Prop where
  init : ¬ Meets InitParser.step .initial (readEvents answers roots) InitParser.Dangerous
  signal : ¬ Meets (RestuneParser.loopStep isBuSpecified host.targetName)
    (RestuneParser.initial registry) (readEvents answers roots) RestuneParser.Dangerous
  perApp : ¬ Meets PerAppParser.step .initial (answered answers roots) PerAppParser.Dangerous

/-- **The documents on which the parsers are safe.**  Whatever the nodes are and however the requests for
memory are answered, all four parsers return if and only if none of three of them meets anything
dangerous; the parser of resources always returns. -/
theorem safe_iff (host : Host) (isBuSpecified : Bool) (registry : SignalRegistry)
    (answers : Nat → Grants) (roots : List Yaml.Node) :
    Safe host isBuSpecified registry answers roots ↔
      Harmless host isBuSpecified registry answers roots := by
  have hinit := InitParser.parse_returns_iff (readEvents answers roots)
  have hsignal := RestuneParser.parse_returns_iff isBuSpecified host.targetName registry
    (readEvents answers roots)
  have hperApp := PerAppParser.parse_returns_iff (answered answers roots)
  rw [Prod.exists] at hinit hperApp
  constructor
  · intro h
    exact ⟨hinit.mp h.init, hsignal.mp h.signal, hperApp.mp h.perApp⟩
  · intro h
    refine ⟨?_, hinit.mpr h.init, hsignal.mpr h.signal, hperApp.mpr h.perApp⟩
    exact Prod.exists.mp (ResourceParser.parse_returns host (readEvents answers roots))

namespace Sample

def host : Host := ⟨"target", fun _ => none, fun _ => false⟩

/-- An app with a thread and a signal. -/
def app : Yaml.Node :=
  .mapping [(.scalar "PerAppConfigs", .sequence [.mapping [
    (.scalar "App", .scalar "gst-launch"),
    (.scalar "Threads", .sequence [.mapping [(.scalar "render", .scalar "4")]]),
    (.scalar "Configurations", .sequence [.scalar "0x00020001"])]])]

/-- A list of groups without a value. -/
def emptyList : Yaml.Node := .mapping [(.scalar "CgroupsInfo", .scalar "")]

/-- A resource outside a signal. -/
def resource : Yaml.Node := .mapping [(.scalar "Resources", .sequence [.mapping []])]

/-- A mapping as a key. -/
def complexKey : Yaml.Node := .mapping [(.mapping [], .scalar "")]

/-- A thread without a group. -/
def thread : Yaml.Node :=
  .mapping [(.scalar "PerAppConfigs", .sequence [.mapping [(.scalar "Threads", .sequence
    [.scalar "render"])]])]

end Sample

example : Safe Sample.host false .empty (fun _ => .all) [Sample.app] :=
  ⟨⟨_, _, rfl⟩, ⟨_, _, rfl⟩, ⟨_, _, rfl⟩, ⟨_, _, rfl⟩⟩

/-- **Documents of a few words that none of the three survives.** -/
theorem short_documents_are_not_safe :
    ¬ Safe Sample.host false .empty (fun _ => .all) [Sample.emptyList] ∧
    ¬ Safe Sample.host false .empty (fun _ => .all) [Sample.resource] ∧
    ¬ Safe Sample.host false .empty (fun _ => .all) [Sample.complexKey] ∧
    ¬ Safe Sample.host false .empty (fun _ => .all) [Sample.thread] := by
  refine ⟨fun h => ?_, fun h => ?_, fun h => ?_, fun h => ?_⟩
  · obtain ⟨rc, registered, hreturned⟩ := h.init
    have hfault : InitParser.parseInitConfigYamlNode
        (readEvents (fun _ => .all) [Sample.emptyList]) = .fault := by decide
    rw [hfault] at hreturned
    cases hreturned
  · obtain ⟨rc, registry, hreturned⟩ := h.signal
    have hfault : RestuneParser.parseSignalConfigYamlNode false "target" .empty
        (readEvents (fun _ => .all) [Sample.resource]) = .fault := rfl
    rw [show Sample.host.targetName = "target" from rfl, hfault] at hreturned
    cases hreturned
  · obtain ⟨rc, registered, hreturned⟩ := h.perApp
    have hfault : PerAppParser.parsePerAppConfigYamlNode
        (answered (fun _ => .all) [Sample.complexKey]) = .fault := by decide
    rw [hfault] at hreturned
    cases hreturned
  · obtain ⟨rc, registered, hreturned⟩ := h.perApp
    have hfault : PerAppParser.parsePerAppConfigYamlNode
        (answered (fun _ => .all) [Sample.thread]) = .fault := by decide
    rw [hfault] at hreturned
    cases hreturned

end ParserSafety

end ResourceTuner
