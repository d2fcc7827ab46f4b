import ResourceTuner.Core.Extensions
import ResourceTuner.Init.ConfigFiles
import ResourceTuner.Init.ResourceEntries
import ResourceTuner.Signals.EntryContents

/-!
# The registries the server starts with

`fetchResources` and `fetchSignals` of `RestuneInit.cpp`, and what the two registries answer afterwards in
terms of the entries of the files.

* **`fetchResources`**, **`fetchSignals`** — the files of each kind;
* **`layered`** — the custom entries over the common ones: they take a code away and add another;
* **`resConf_of_files`** — the configuration of a resource, with the callbacks of extensions;
* **`signalConfig_of_files`** — the configuration of a signal.
-/

namespace ResourceTuner.RestuneInit

open RestuneParser (Event)

/-- The last custom row with the custom key, or the last common one with the key; a custom row takes its
key from the common ones. -/
def layered {κ ν : Type} [DecidableEq κ] (keyOf customKeyOf : ν → κ) (common custom : List ν) (key : κ) :
    Option ν :=
  (custom.reverse.find? fun row => customKeyOf row = key).or
    (if ∃ row ∈ custom, keyOf row = key then none
      else common.reverse.find? fun row => keyOf row = key)

theorem foldl_registered_both {κ ν : Type} [DecidableEq κ] {keyOf customKeyOf : ν → κ}
    (hcustom : ∀ row row', customKeyOf row ≠ keyOf row') (common custom : List ν) (key : κ) :
    custom.foldl (fun m row => IndexedTable.registered m (keyOf row) (customKeyOf row) row true)
        (common.foldl (fun m row => IndexedTable.registered m (keyOf row) (customKeyOf row) row false)
          fun _ => none) key =
      layered keyOf customKeyOf common custom key := by
  have hplain := IndexedTable.foldl_registered keyOf customKeyOf hcustom false common key
  simp only [Bool.false_eq_true, if_false] at hplain
  rw [IndexedTable.foldl_registered_custom keyOf customKeyOf hcustom, hplain, layered]

/-- A change of the rows that leaves the keys alone. -/
theorem layered_map {κ ν : Type} [DecidableEq κ] {keyOf customKeyOf : ν → κ} {f : ν → ν}
    (hkey : ∀ row, keyOf (f row) = keyOf row) (hcustom : ∀ row, customKeyOf (f row) = customKeyOf row)
    (common custom : List ν) (key : κ) :
    layered keyOf customKeyOf (common.map f) (custom.map f) key =
      (layered keyOf customKeyOf common custom key).map f := by
  have hfind : ∀ {keyOf : ν → κ} (_ : ∀ row, keyOf (f row) = keyOf row) (rows : List ν),
      (rows.map f).reverse.find? (fun row => keyOf row = key) =
        (rows.reverse.find? fun row => keyOf row = key).map f := by
    intro keyOf hkey rows
    rw [← List.map_reverse, List.find?_map]
    simp only [Function.comp_def, hkey]
  have hmem : (∃ row ∈ custom.map f, keyOf row = key) ↔ ∃ row ∈ custom, keyOf row = key := by
    simp [hkey]
  rw [layered, layered, hfind hcustom, hfind hkey, Option.map_or]
  simp only [hmem]
  congr 1
  split <;> rfl

/-- Another spelling of the keys. -/
theorem layered_spelled {κ κ' ν : Type} [DecidableEq κ] [DecidableEq κ'] {keyOf customKeyOf : ν → κ}
    {spell : κ → κ'} (hspell : Function.Injective spell) (common custom : List ν) (key : κ) :
    layered (fun row => spell (keyOf row)) (fun row => spell (customKeyOf row)) common custom (spell key) =
      layered keyOf customKeyOf common custom key := by
  simp only [layered, hspell.eq_iff]

/-! ## Resources -/

section Resources

open ResourceParser (Entry registerAll accepted results parseResourceConfigYamlNode)
open ResourceRegistry (resourceBitmap customBit)

variable (host : Host) (target : TargetRegistry) (totalCoreCount : Nat) (readFromFile : String → String)

def mCommonResourceFilePath : String := "/etc/urm/common/ResourcesConfig.yaml"
def mCustomResourceFilePath : String := "/etc/urm/custom/ResourcesConfig.yaml"

/-- The parser of resources.  Like a parser that gives up, one with a fault leaves no server. -/
def resourcesParser (isCustom : Bool) (reg : ResourceRegistry) (events : List Event) :
    ErrCode × ResourceRegistry :=
  match parseResourceConfigYamlNode host events with
  | .returned (rc, configs) =>
    (.ofParser rc, registerAll reg target totalCoreCount readFromFile isCustom configs)
  | _ => (.RC_YAML_PARSING_ERROR, reg)

def fetchResources (files : Files Event) (extension : String) (reg : ResourceRegistry) :
    ErrCode × ResourceRegistry :=
  fetchFiles files (resourcesParser host target totalCoreCount readFromFile) mCommonResourceFilePath
    extension mCustomResourceFilePath reg

/-- The files of resources have these entries. -/
abbrev HaveResources (files : Files Event) (extension : String) (common custom : List Entry) : Prop :=
  HaveEntries ResourceParser.document files mCommonResourceFilePath extension mCustomResourceFilePath
    common custom

/-- The configurations of some entries. -/
def resConfs (entries : List Entry) : List ResConfInfo :=
  (entries.filterMap (Entry.config host)).map ResourceConfig.conf

variable {host target totalCoreCount readFromFile}

/-- The parser returns an error as soon as there is one. -/
theorem results_fst_ne {rc : RestuneParser.ErrCode} (h : rc ≠ .RC_SUCCESS) (entries : List Entry) :
    (results host rc entries).1 ≠ .RC_SUCCESS := by
  induction entries with
  | nil => exact h
  | cons entry entries ih =>
    have hrun : (entry.run host rc).1 = rc := by
      rw [Entry.run, RestuneParser.runCalls_of_ne _ h]
    rw [results]
    split
    · rw [hrun]
      exact ih
    · decide

theorem results_fst_iff (entries : List Entry) :
    (results host .RC_SUCCESS entries).1 = .RC_SUCCESS ↔ ∀ entry ∈ entries, ¬ entry.Fails host := by
  induction entries with
  | nil => simp [results]
  | cons entry entries ih =>
    rw [results, List.forall_mem_cons]
    cases hbuilder : entry.opened.builder with
    | false =>
      have hfails : entry.Fails host := .inl hbuilder
      exact iff_of_false (by simp) fun h => h.1 hfails
    | true =>
      by_cases hok : (entry.run host .RC_SUCCESS).1 = .RC_SUCCESS
      · have hfails : ¬ entry.Fails host := by
          rintro (hnone | hne)
          · rw [hbuilder] at hnone
            cases hnone
          · exact hne hok
        simp only [if_true, hok, ih]
        exact ⟨fun h => ⟨hfails, h⟩, fun h => h.2⟩
      · have hfails : entry.Fails host := .inr hok
        simp only [if_true]
        exact iff_of_false (results_fst_ne hok entries) fun h => h.1 hfails

/-- Where no entry fails all that are accepted are registered. -/
theorem filterMap_results_of_forall {entries : List Entry} (h : ∀ entry ∈ entries, ¬ entry.Fails host) :
    (results host .RC_SUCCESS entries).2.filterMap accepted = entries.filterMap (Entry.config host) := by
  have hkept := ResourceParser.registered_document host entries
  rw [ResourceParser.registered, ResourceParser.parse_document] at hkept
  rw [show (results host .RC_SUCCESS entries).2.filterMap accepted = _ from hkept,
    StickyError.kept_eq_filterMap_iff]
  exact List.pairwise_of_forall_mem_list fun entry hentry _ _ hfails => absurd hfails (h entry hentry)

theorem resourceBitmap_setLifeCycleCallbacks (conf : ResConfInfo) :
    resourceBitmap conf.setLifeCycleCallbacks = resourceBitmap conf := by
  unfold ResConfInfo.setLifeCycleCallbacks resourceBitmap
  cases conf.mApplyType <;> rfl

theorem customKey_ne (conf conf' : ResConfInfo) :
    resourceBitmap conf ||| customBit ≠ resourceBitmap conf' := by
  intro heq
  have hbit := ResourceRegistry.getLsbD_customKey conf
  rw [heq, ResourceRegistry.getLsbD_resourceBitmap] at hbit
  cases hbit

/-- The table after a file, as a map. -/
theorem getResConf_registerAll (reg : ResourceRegistry) (isBuSpecified : Bool)
    (configs : List (Option ResourceConfig)) :
    (registerAll reg target totalCoreCount readFromFile isBuSpecified configs).getResConf =
      ((configs.filterMap accepted).map fun config => config.conf.setLifeCycleCallbacks).foldl
        (fun m conf => IndexedTable.registered m (resourceBitmap conf) (resourceBitmap conf ||| customBit)
          conf isBuSpecified) reg.getResConf := by
  induction configs generalizing reg with
  | nil => rfl
  | cons config configs ih =>
    rw [registerAll, List.foldl_cons, ← registerAll, ih, ResourceRegistry.getResConf_register]
    cases config with
    | none => rfl
    | some config =>
      simp only [Option.map_some, ResourceRegistry.updateMap]
      by_cases htype : config.conf.mResourceResType = 0
      · have hdropped : accepted (some config) = none :=
          if_neg (by rw [decide_eq_true_eq]; exact not_not.mpr htype)
        rw [if_pos htype, List.filterMap_cons_none hdropped]
      · have hkept : accepted (some config) = some config := if_pos (decide_eq_true htype)
        rw [if_neg htype, List.filterMap_cons_some hkept, List.map_cons, List.foldl_cons,
          resourceBitmap_setLifeCycleCallbacks]

theorem resourcesParser_document (isCustom : Bool) (reg : ResourceRegistry) (entries : List Entry) :
    resourcesParser host target totalCoreCount readFromFile isCustom reg
        (ResourceParser.document entries) =
      (.ofParser (results host .RC_SUCCESS entries).1,
        registerAll reg target totalCoreCount readFromFile isCustom
          (results host .RC_SUCCESS entries).2) := by
  rw [resourcesParser, ResourceParser.parse_document]

/-- The configuration of a code in the entries of both files. -/
def resConfIn (host : Host) (common custom : List Entry) (code : BitVec 32) : Option ResConfInfo :=
  (layered resourceBitmap (resourceBitmap · ||| customBit) (resConfs host common) (resConfs host custom)
    code).map ResConfInfo.setLifeCycleCallbacks

/-- **The resources of the files.**  Reading them succeeds exactly if no entry of either file fails.  Then,
once extensions are plugged in, a code has the configuration of the last entry for it, a custom entry
under the code with the MSB set and nothing under the code that it takes away, with the callbacks last
registered for it in the place of the default ones. -/
theorem resConf_of_files {files : Files Event} {extension : String} {common custom : List Entry}
    (h : HaveResources files extension common custom) (registrations : List CallbackRegistration) :
    let fetched := fetchResources host target totalCoreCount readFromFile files extension .empty
    (fetched.1 = .RC_SUCCESS ↔ ∀ entry ∈ common ++ custom, ¬ entry.Fails host) ∧
      (fetched.1 = .RC_SUCCESS → ∀ code,
        (fetched.2.pluginModifications (.ofRegistrations registrations)).getResConf code =
          (resConfIn host common custom code).map fun conf =>
            { conf with
              mResourceApplierCallback :=
                (LastWrite.last? code (Extensions.pairsOf 0 registrations)).or
                  conf.mResourceApplierCallback
              mResourceTearCallback :=
                (LastWrite.last? code (Extensions.pairsOf 1 registrations)).or
                  conf.mResourceTearCallback }) := by
  intro fetched
  have hfetched := fetchFiles_of_haveEntries
    (@resourcesParser_document host target totalCoreCount readFromFile) (fun _ => rfl) (by decide)
    (by decide) h .empty
  have hcommon := @results_fst_iff host common
  have hcustom := @results_fst_iff host custom
  rw [List.forall_mem_append, ← hcommon, ← hcustom]
  by_cases hok : (results host .RC_SUCCESS common).1 = .RC_SUCCESS
  · rw [if_neg (by rw [ne_eq, not_not]; exact (ErrCode.ofParser_eq_success_iff _).mpr hok)] at hfetched
    have hstatus : fetched.1 = .ofParser (results host .RC_SUCCESS custom).1 := congrArg Prod.fst hfetched
    have hregistry : fetched.2 = registerAll (registerAll .empty target totalCoreCount readFromFile false
        (results host .RC_SUCCESS common).2) target totalCoreCount readFromFile true
          (results host .RC_SUCCESS custom).2 := congrArg Prod.snd hfetched
    rw [hstatus, ErrCode.ofParser_eq_success_iff]
    refine ⟨⟨fun h => ⟨hok, h⟩, fun h => h.2⟩, fun hsuccess code => ?_⟩
    obtain ⟨happlier, htear⟩ := Extensions.lookup_ofRegistrations registrations code
    have hmap : fetched.2.getResConf code = resConfIn host common custom code := by
      rw [hregistry, getResConf_registerAll, getResConf_registerAll,
        filterMap_results_of_forall (hcommon.mp hok), filterMap_results_of_forall (hcustom.mp hsuccess)]
      have hempty : ResourceRegistry.empty.getResConf = fun _ => none := by
        funext code
        rfl
      rw [hempty, foldl_registered_both customKey_ne, resConfIn, ← layered_map
        resourceBitmap_setLifeCycleCallbacks
        (fun conf => by rw [resourceBitmap_setLifeCycleCallbacks])]
      simp only [resConfs, List.map_map, Function.comp_def]
    rw [ResourceRegistry.getResConf_modified, hmap, ← happlier, ← htear]
    rfl
  · rw [if_pos ((ErrCode.ofParser_eq_success_iff _).not.mpr hok)] at hfetched
    have hstatus : fetched.1 ≠ .RC_SUCCESS := by
      rw [show fetched = _ from hfetched]
      exact (ErrCode.ofParser_eq_success_iff _).not.mpr hok
    exact ⟨iff_of_false hstatus fun h => hok h.1, fun h => absurd h hstatus⟩

end Resources

namespace Sample

open ResourceParser (Entry)

def host : Host := ⟨"current", fun _ => none, fun _ => false⟩

def resource (resID highThreshold : String) : Entry :=
  ⟨.all, [.scalar .ResType "1", .scalar .ResID resID, .scalar .HighThreshold highThreshold]⟩

def commonResources : List Entry := [resource "7" "100", resource "8" "100"]

/-- One of the resources again. -/
def customResources : List Entry := [resource "7" "200"]

/-- A device with both files and no extension. -/
def resourceFiles : Files Event where
  fileExists _ := true
  opened path :=
    if path = mCommonResourceFilePath then some (ResourceParser.document commonResources)
    else some (ResourceParser.document customResources)

theorem haveResources : HaveResources resourceFiles "" commonResources customResources where
  first := rfl
  second := by
    intro path hpath
    cases hpath
    rfl
  single := by
    intro hnone
    cases hnone

end Sample

/-- The plain code of the custom resource is gone, and with it the callback that was meant for it. -/
theorem resConf_of_sampleFiles :
    let fetched := fetchResources Sample.host .empty 8 (fun _ => "0") Sample.resourceFiles "" .empty
    let reg := fetched.2.pluginModifications (.ofRegistrations [⟨0x00010007, 0, .extension 3⟩])
    fetched.1 = .RC_SUCCESS ∧ reg.getResConf 0x00010007 = none ∧
      (reg.getResConf 0x80010007).map (fun conf => (conf.mHighThreshold, conf.mResourceApplierCallback)) =
        some (200, some .defaultGlobalLevelApplierCb) ∧
      (reg.getResConf 0x00010008).map (·.mHighThreshold) = some 100 := by
  intro fetched reg
  obtain ⟨hstatus, hconf⟩ := @resConf_of_files Sample.host .empty 8 (fun _ => "0") _ _ _ _
    Sample.haveResources [⟨0x00010007, 0, .extension 3⟩]
  have hsuccess : fetched.1 = .RC_SUCCESS := hstatus.mpr (by decide)
  refine ⟨hsuccess, ?_⟩
  simp only [reg, fetched, hconf hsuccess]
  decide


/-! ## Signals -/

section Signals

open RestuneParser (Entry parseSignalConfigYamlNode)
open SignalRegistry (keyOf signalBitmap)

variable (targetName : String)

def mCommonSignalFilePath : String := "/etc/urm/common/SignalsConfig.yaml"
def mCustomSignalFilePath : String := "/etc/urm/custom/SignalsConfig.yaml"

/-- The parser of signals.  Like a parser that gives up, one with a fault leaves no server. -/
def signalsParser (isCustom : Bool) (reg : SignalRegistry) (events : List Event) :
    ErrCode × SignalRegistry :=
  match parseSignalConfigYamlNode isCustom targetName reg events with
  | .returned rc reg => (.ofParser rc, reg)
  | _ => (.RC_YAML_PARSING_ERROR, reg)

def fetchSignals (files : Files Event) (extension : String) (reg : SignalRegistry) :
    ErrCode × SignalRegistry :=
  fetchFiles files (signalsParser targetName) mCommonSignalFilePath extension mCustomSignalFilePath reg

/-- An entry whose builders can be allocated. -/
abbrev AllocatedEntry : Type := { entry : Entry // entry.Allocated }

def signalDocument (entries : List AllocatedEntry) : List Event :=
  RestuneParser.document (entries.map Subtype.val)

/-- The files of signals have these entries. -/
abbrev HaveSignals (files : Files Event) (extension : String) (common custom : List AllocatedEntry) :
    Prop :=
  HaveEntries signalDocument files mCommonSignalFilePath extension mCustomSignalFilePath common custom

/-- The signals of the entries that are in order. -/
def signalInfos (entries : List AllocatedEntry) : List SignalInfo :=
  (entries.filterMap fun entry => entry.val.built targetName).filter fun info => info.mSignalCategory ≠ 0

/-- The configuration of a code and a type in the entries of both files. -/
def signalConfigIn (common custom : List AllocatedEntry) (sigCode sigType : BitVec 32) :
    Option SignalInfo :=
  layered (fun info : SignalInfo => (info.code, info.mSigType))
    (fun info => (info.code ||| 0x80000000, info.mSigType)) (signalInfos targetName common)
    (signalInfos targetName custom) (sigCode, sigType)

variable {targetName}

theorem signalsParser_document (isCustom : Bool) (reg : SignalRegistry) (entries : List AllocatedEntry) :
    signalsParser targetName isCustom reg (signalDocument entries) =
      (.RC_SUCCESS, (entries.map fun entry => ⟨entry.val.built targetName, isCustom⟩).foldl
        SignalRegistry.register reg) := by
  have hallocated : ∀ entry ∈ entries.map Subtype.val, entry.Allocated := by
    intro entry hentry
    obtain ⟨entry, -, rfl⟩ := List.mem_map.mp hentry
    exact entry.property
  rw [signalsParser, signalDocument, RestuneParser.parse_document isCustom targetName reg hallocated,
    List.map_map]
  rfl

/-- The table after a file, as a map. -/
theorem getSignalConfigByKey_foldl (reg : SignalRegistry) (isBuSpecified : Bool)
    (entries : List AllocatedEntry) :
    ((entries.map fun entry => ⟨entry.val.built targetName, isBuSpecified⟩).foldl
        SignalRegistry.register reg).getSignalConfigByKey =
      (signalInfos targetName entries).foldl (fun m info => IndexedTable.registered m (keyOf info)
        (keyOf info ||| SignalRegistry.customBit) info isBuSpecified) reg.getSignalConfigByKey := by
  induction entries generalizing reg with
  | nil => rfl
  | cons entry entries ih =>
    rw [List.map_cons, List.foldl_cons, ih, SignalRegistry.getSignalConfigByKey_register, signalInfos,
      signalInfos]
    cases hbuilt : entry.val.built targetName with
    | none => simp only [SignalRegistry.updateMap, List.filterMap_cons, hbuilt]
    | some info =>
      simp only [SignalRegistry.updateMap, List.filterMap_cons, hbuilt]
      by_cases hcategory : info.mSignalCategory = 0
      · rw [if_pos hcategory, List.filter_cons_of_neg (by simpa using hcategory)]
      · rw [if_neg hcategory, List.filter_cons_of_pos (by simpa using hcategory), List.foldl_cons]

/-- **The signals of the files.**  Reading them succeeds.  Then a code and a type have the last signal
for them among the entries that are in order, a custom one under the code with the MSB set, and nothing
under the code that a custom entry takes away. -/
theorem signalConfig_of_files {files : Files Event} {extension : String}
    {common custom : List AllocatedEntry} (h : HaveSignals files extension common custom) :
    (fetchSignals targetName files extension .empty).1 = .RC_SUCCESS ∧ ∀ sigCode sigType,
      (fetchSignals targetName files extension .empty).2.getSignalConfigById sigCode sigType =
        signalConfigIn targetName common custom sigCode sigType := by
  have hfetched := fetchFiles_of_haveEntries (@signalsParser_document targetName) (fun _ => rfl)
    (by decide) (by decide) h .empty
  rw [if_neg (by simp)] at hfetched
  rw [fetchSignals, hfetched]
  refine ⟨rfl, fun sigCode sigType => ?_⟩
  show SignalRegistry.getSignalConfigByKey _ (signalBitmap sigCode sigType) = _
  have hempty : SignalRegistry.empty.getSignalConfigByKey = fun _ => none := by
    funext key
    simp [SignalRegistry.getSignalConfigByKey, SignalRegistry.empty]
  have hspell : Function.Injective fun key : BitVec 32 × BitVec 32 => signalBitmap key.1 key.2 := by
    intro key key' heq
    obtain ⟨hcode, htype⟩ := SignalRegistry.signalBitmap_inj heq
    exact Prod.ext hcode htype
  rw [getSignalConfigByKey_foldl, getSignalConfigByKey_foldl, hempty,
    foldl_registered_both SignalRegistry.keyOf_or_customBit_ne, signalConfigIn, ← layered_spelled hspell]
  simp only [SignalRegistry.signalBitmap_custom]
  rfl

end Signals

namespace Sample

def allocatedEntry : AllocatedEntry :=
  ⟨RestuneParser.Sample.entry, RestuneParser.Sample.allocated _ (by simp)⟩

def brokenEntry : AllocatedEntry :=
  ⟨RestuneParser.Sample.broken, RestuneParser.Sample.allocated _ (by simp)⟩

/-- The custom file repeats a signal of the common one. -/
def signalFiles : Files Event where
  fileExists _ := true
  opened path :=
    if path = mCommonSignalFilePath then some (signalDocument [brokenEntry, allocatedEntry])
    else some (signalDocument [allocatedEntry])

theorem haveSignals : HaveSignals signalFiles "" [brokenEntry, allocatedEntry] [allocatedEntry] where
  first := rfl
  second := by
    intro path hpath
    cases hpath
    rfl
  single := by
    intro hnone
    cases hnone

end Sample

/-- A signal that is repeated is found under its custom code only. -/
theorem signalConfig_of_sampleFiles :
    let reg := (fetchSignals "target" Sample.signalFiles "" .empty).2
    (reg.getSignalConfigById 0x00020001 0).isSome = false ∧
      (reg.getSignalConfigById 0x80020001 0).isSome = true := by
  intro reg
  have hconfig := (@signalConfig_of_files "target" _ _ _ _ Sample.haveSignals).2
  simp only [reg, hconfig]
  decide

end ResourceTuner.RestuneInit
