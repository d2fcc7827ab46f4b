import ResourceTuner.Init.ConfigFiles
import ResourceTuner.Init.PropertiesParser

/-!
# The settings the server starts with

`fetchProperties` and `fetchMetaConfigs` of `RestuneInit.cpp`.  The settings are read from the
properties one after the other, and the first text that is no number ends the start-up.

* **`fetchPropertyFiles`** — the properties of the files;
* **`Setting`**, **`fetchMetaConfigs`** — the settings;
* **`property_of_files`** — the value of a property;
* **`fetchProperties_of_files`** — the settings in terms of the entries of the files.

What `std::stod` reads is a parameter, with the floating-point numbers.
-/

namespace ResourceTuner.RestuneInit

open Numerals
open LastWrite
open PropertiesRegistry
open PropertiesParser (Entry definitions document createAll parsePropertiesConfigYamlNode)

/-! ## Files -/

/-- The parser of properties, which always returns. -/
def propertiesParser (_ : Bool) (reg : PropertiesRegistry) (events : List Yaml.Event) :
    ErrCode × PropertiesRegistry :=
  match parsePropertiesConfigYamlNode reg events with
  | .returned (rc, reg) => (.ofParser rc, reg)
  | _ => (.RC_YAML_PARSING_ERROR, reg)

def mCommonPropertiesFilePath : String := "/etc/urm/common/PropertiesConfig.yaml"
def mCustomPropertiesFilePath : String := "/etc/urm/custom/PropertiesConfig.yaml"

/-- The first part of `fetchProperties`. -/
def fetchPropertyFiles (files : Files Yaml.Event) (extension : String) (reg : PropertiesRegistry) :
    ErrCode × PropertiesRegistry :=
  fetchFiles files propertiesParser mCommonPropertiesFilePath extension mCustomPropertiesFilePath reg

/-! ## Settings -/

/-- `UrmSettings::metaConfigs`, but for the port that is never set. -/
structure MetaConfigs (δ : Type) where
  mMaxConcurrentRequests : BitVec 32
  mMaxResourcesPerRequest : BitVec 32
  mPulseDuration : BitVec 32
  mClientGarbageCollectorDuration : BitVec 32
  mCleanupBatchSize : BitVec 32
  mDelta : BitVec 32
  mPenaltyFactor : δ
  mRewardFactor : δ
  deriving DecidableEq, Repr

/-- The settings in the order in which they are fetched. -/
inductive Setting where
  | maxConcurrentRequests
  | maxResourcesPerRequest
  | pulseDuration
  | garbageCollectorDuration
  | cleanupBatchSize
  | delta
  | penaltyFactor
  | rewardFactor
  deriving DecidableEq, Repr

namespace Setting

def all : List Setting :=
  [maxConcurrentRequests, maxResourcesPerRequest, pulseDuration, garbageCollectorDuration,
    cleanupBatchSize, delta, penaltyFactor, rewardFactor]

theorem mem_all (setting : Setting) : setting ∈ all := by cases setting <;> decide

def prop : Setting → String
  | maxConcurrentRequests => "resource_tuner.maximum.concurrent.requests"
  | maxResourcesPerRequest => "resource_tuner.maximum.resources.per.request"
  | pulseDuration => "resource_tuner.pulse.duration"
  | garbageCollectorDuration => "resource_tuner.garbage_collection.duration"
  | cleanupBatchSize => "resource_tuner.garbage_collection.batch_size"
  | delta => "resource_tuner.rate_limiter.delta"
  | penaltyFactor => "resource_tuner.penalty.factor"
  | rewardFactor => "resource_tuner.reward.factor"

def defaultValue : Setting → String
  | maxConcurrentRequests => "50"
  | maxResourcesPerRequest => "5"
  | pulseDuration => "60000"
  | garbageCollectorDuration => "83000"
  | cleanupBatchSize => "5"
  | delta => "5"
  | penaltyFactor => "2.0"
  | rewardFactor => "0.4"

end Setting

section Settings

variable {δ : Type} (stod : String → Option δ)

/-- What a setting holds: an unsigned number or a floating-point one. -/
abbrev Number (δ : Type) : Type := BitVec 32 ⊕ δ

/-- `(uint32_t)std::stol` or `std::stod`, `none` for either exception. -/
def readNumber (setting : Setting) (text : String) : Option (Number δ) :=
  match setting with
  | .penaltyFactor | .rewardFactor => (stod text).map Sum.inr
  | _ => (stol 10 text).map fun n => Sum.inl (BitVec.ofInt 32 n)

namespace MetaConfigs

def get (m : MetaConfigs δ) : Setting → Number δ
  | .maxConcurrentRequests => .inl m.mMaxConcurrentRequests
  | .maxResourcesPerRequest => .inl m.mMaxResourcesPerRequest
  | .pulseDuration => .inl m.mPulseDuration
  | .garbageCollectorDuration => .inl m.mClientGarbageCollectorDuration
  | .cleanupBatchSize => .inl m.mCleanupBatchSize
  | .delta => .inl m.mDelta
  | .penaltyFactor => .inr m.mPenaltyFactor
  | .rewardFactor => .inr m.mRewardFactor

/-- The assignment to a setting; the number is of its kind. -/
def set (m : MetaConfigs δ) : Setting → Number δ → MetaConfigs δ
  | .maxConcurrentRequests, .inl n => { m with mMaxConcurrentRequests := n }
  | .maxResourcesPerRequest, .inl n => { m with mMaxResourcesPerRequest := n }
  | .pulseDuration, .inl n => { m with mPulseDuration := n }
  | .garbageCollectorDuration, .inl n => { m with mClientGarbageCollectorDuration := n }
  | .cleanupBatchSize, .inl n => { m with mCleanupBatchSize := n }
  | .delta, .inl n => { m with mDelta := n }
  | .penaltyFactor, .inr x => { m with mPenaltyFactor := x }
  | .rewardFactor, .inr x => { m with mRewardFactor := x }
  | _, _ => m

end MetaConfigs

/-- The text of a setting. -/
def settingText (reg : PropertiesRegistry) (setting : Setting) : String :=
  (reg.submitPropGetRequest setting.prop setting.defaultValue).2

/-- One setting after the other; the first exception ends it. -/
def fetchSettings (reg : PropertiesRegistry) : List Setting → MetaConfigs δ → ErrCode × MetaConfigs δ
  | [], m => (.RC_SUCCESS, m)
  | setting :: settings, m =>
    match readNumber stod setting (settingText reg setting) with
    | none => (.RC_PROP_PARSING_ERROR, m)
    | some n => fetchSettings reg settings (m.set setting n)

/-- `fetchMetaConfigs`, without the name of the target and the logger. -/
def fetchMetaConfigs (reg : PropertiesRegistry) (m : MetaConfigs δ) : ErrCode × MetaConfigs δ :=
  fetchSettings stod reg Setting.all m

/-- `fetchProperties`. -/
def fetchProperties (files : Files Yaml.Event) (extension : String) (reg : PropertiesRegistry)
    (m : MetaConfigs δ) : ErrCode × PropertiesRegistry × MetaConfigs δ :=
  let made := fetchPropertyFiles files extension reg
  if made.1 ≠ .RC_SUCCESS then (made.1, made.2, m)
  else
    let fetched := fetchMetaConfigs stod made.2 m
    (fetched.1, made.2, fetched.2)

end Settings

/-! ## Properties of the files -/

/-- The files of properties have these entries. -/
abbrev HaveProperties (files : Files Yaml.Event) (extension : String) (common custom : List Entry) : Prop :=
  HaveEntries document files mCommonPropertiesFilePath extension mCustomPropertiesFilePath common custom

/-- The value of a property in some entries, or its default. -/
def valueIn (entries : List Entry) (prop defaultValue : String) : String :=
  (last? prop (definitions entries)).getD defaultValue

section

variable {files : Files Yaml.Event} {extension : String} {common custom : List Entry}
  {reg : PropertiesRegistry}

theorem propertiesParser_document (isCustom : Bool) (reg : PropertiesRegistry) (entries : List Entry) :
    propertiesParser isCustom reg (document entries) =
      (.RC_SUCCESS, createAll reg (definitions entries)) := by
  rw [propertiesParser, PropertiesParser.parse_document]
  rfl

/-- The properties are those of the two files, one after the other. -/
theorem fetchPropertyFiles_eq (h : HaveProperties files extension common custom) :
    fetchPropertyFiles files extension reg =
      (.RC_SUCCESS, createAll reg (definitions (common ++ custom))) := by
  have hboth : createAll reg (definitions (common ++ custom)) =
      createAll (createAll reg (definitions common)) (definitions custom) := by
    rw [← PropertiesParser.createAll_append, definitions, List.filterMap_append]
    rfl
  rw [fetchPropertyFiles, fetchFiles_of_haveEntries propertiesParser_document (fun _ => rfl) (by decide)
    (by decide) h, if_neg (by simp), hboth]

/-- No entry defines a property without a name. -/
theorem last?_empty (entries : List Entry) : last? "" (definitions entries) = none := by
  rw [last?_eq_none_iff, List.mem_map]
  rintro ⟨write, hwrite, hname⟩
  obtain ⟨entry, -, hentry⟩ := List.mem_filterMap.mp hwrite
  rw [Entry.definition] at hentry
  split at hentry
  · split at hentry
    · cases hentry
    · rename_i hne
      cases hentry
      exact hne (.inl hname)
  · cases hentry

theorem queryProperty_createAll (entries : List Entry) (name : String) :
    (createAll .empty (definitions entries)).queryProperty name = last? name (definitions entries) := by
  rw [queryProperty]
  split
  · rename_i hlength
    rw [String.length_eq_zero_iff.mp hlength, last?_empty]
  · rw [createAll, lookup_insertAll]
    exact Option.or_none

end

theorem submitPropGetRequest_createAll (entries : List Entry) (prop defaultValue : String) :
    (createAll .empty (definitions entries)).submitPropGetRequest prop defaultValue =
      ((last? prop (definitions entries)).isSome, valueIn entries prop defaultValue) := by
  rw [submitPropGetRequest, queryProperty_createAll, valueIn]
  cases last? prop (definitions entries) <;> rfl

/-- **The value of a property.**  Once the files are read a property has the value of the last entry
that defines it, in the common file followed by the custom one, and it is found exactly if there is
such an entry; otherwise the caller's default is returned. -/
theorem property_of_files {files : Files Yaml.Event} {extension : String} {common custom : List Entry}
    (h : HaveProperties files extension common custom) (prop defaultValue : String) :
    (fetchPropertyFiles files extension .empty).1 = .RC_SUCCESS ∧
      (fetchPropertyFiles files extension .empty).2.submitPropGetRequest prop defaultValue =
        ((last? prop (definitions (common ++ custom))).isSome,
          valueIn (common ++ custom) prop defaultValue) := by
  rw [fetchPropertyFiles_eq h]
  exact ⟨rfl, submitPropGetRequest_createAll _ _ _⟩

/-- An entry with a name and a value. -/
def sampleEntry (name value : String) : Entry := [⟨.name, name⟩, ⟨.value, value⟩]

def sampleCommon : List Entry :=
  [sampleEntry Setting.delta.prop "7", sampleEntry Setting.cleanupBatchSize.prop "4"]

/-- The last value is taken for the key it is spelled like. -/
def sampleCustom : List Entry :=
  [sampleEntry Setting.delta.prop "9", sampleEntry Setting.pulseDuration.prop "Value"]

/-- A device with both files and no extension. -/
def sampleFiles : Files Yaml.Event where
  fileExists _ := true
  opened path :=
    if path = mCommonPropertiesFilePath then some (document sampleCommon)
    else some (document sampleCustom)

theorem sampleFiles_haveProperties : HaveProperties sampleFiles "" sampleCommon sampleCustom where
  first := rfl
  second := by
    intro path hpath
    cases hpath
    rfl
  single := by
    intro hnone
    cases hnone

/-- The custom file has the last word. -/
theorem property_of_sampleFiles :
    (fetchPropertyFiles sampleFiles "" .empty).2.submitPropGetRequest Setting.delta.prop "5" =
        (true, "9") ∧
      (fetchPropertyFiles sampleFiles "" .empty).2.submitPropGetRequest Setting.pulseDuration.prop
        "60000" = (false, "60000") := by
  rw [(property_of_files sampleFiles_haveProperties _ _).2, (property_of_files sampleFiles_haveProperties _ _).2]
  decide

/-! ## Settings of the files -/

section

variable {δ : Type} {stod : String → Option δ} {reg : PropertiesRegistry}

theorem get_set {setting : Setting} {text : String} {n : Number δ}
    (h : readNumber stod setting text = some n) (m : MetaConfigs δ) (other : Setting) :
    (m.set setting n).get other = if other = setting then n else m.get other := by
  obtain ⟨x, rfl⟩ | ⟨x, rfl⟩ : (∃ x, n = .inl x) ∨ ∃ x, n = .inr x := by
    cases n with
    | inl x => exact .inl ⟨x, rfl⟩
    | inr x => exact .inr ⟨x, rfl⟩
  all_goals
    cases setting <;> simp [readNumber] at h <;> cases other <;> rfl

/-- The text of the setting is a number. -/
def Readable (stod : String → Option δ) (text : Setting → String) (setting : Setting) : Prop :=
  (readNumber stod setting (text setting)).isSome

instance (text : Setting → String) : DecidablePred (Readable stod text) := fun setting =>
  inferInstanceAs (Decidable ((readNumber stod setting (text setting)).isSome = true))

/-- The settings in front of a setting. -/
def before (settings : List Setting) (setting : Setting) : List Setting :=
  settings.takeWhile (· ≠ setting)

theorem fetchSettings_fst (settings : List Setting) (m : MetaConfigs δ) :
    (fetchSettings stod reg settings m).1 =
      if ∀ setting ∈ settings, Readable stod (settingText reg) setting then .RC_SUCCESS
      else .RC_PROP_PARSING_ERROR := by
  induction settings generalizing m with
  | nil => simp [fetchSettings]
  | cons setting settings ih =>
    rw [fetchSettings]
    cases hread : readNumber stod setting (settingText reg setting) with
    | none => simp [Readable, hread]
    | some n =>
      show (fetchSettings stod reg settings _).1 = _
      rw [ih]
      exact if_congr (by simp [Readable, hread]) rfl rfl

/-- A setting is assigned when it and the settings in front of it are numbers. -/
theorem fetchSettings_get {settings : List Setting} (hnodup : settings.Nodup) (m : MetaConfigs δ)
    {setting : Setting} (hmem : setting ∈ settings) :
    (fetchSettings stod reg settings m).2.get setting =
      if ∀ other ∈ before settings setting, Readable stod (settingText reg) other then
        (readNumber stod setting (settingText reg setting)).getD (m.get setting)
      else m.get setting := by
  induction settings generalizing m with
  | nil => cases hmem
  | cons first settings ih =>
    obtain ⟨hnot, hnodup⟩ := List.nodup_cons.mp hnodup
    rw [fetchSettings]
    by_cases heq : setting = first
    · subst heq
      have hbefore : before (setting :: settings) setting = [] := by simp [before]
      rw [hbefore, if_pos (by simp)]
      cases hread : readNumber stod setting (settingText reg setting) with
      | none => rfl
      | some n =>
        -- the settings behind it leave it alone
        have hkeep : ∀ (rest : List Setting) (m : MetaConfigs δ), setting ∉ rest →
            (fetchSettings stod reg rest m).2.get setting = m.get setting := by
          intro rest
          induction rest with
          | nil => exact fun _ _ => rfl
          | cons next rest ihrest =>
            intro m hnext
            simp only [List.mem_cons, not_or] at hnext
            rw [fetchSettings]
            cases hnextRead : readNumber stod next (settingText reg next) with
            | none => rfl
            | some n' =>
              show (fetchSettings stod reg rest (m.set next n')).2.get setting = _
              rw [ihrest _ hnext.2, get_set hnextRead, if_neg hnext.1]
        show (fetchSettings stod reg settings _).2.get setting = _
        rw [hkeep settings _ hnot, get_set hread, if_pos rfl]
        rfl
    · have hbefore : before (first :: settings) setting = first :: before settings setting := by
        rw [before, List.takeWhile_cons_of_pos (by simpa using Ne.symm heq)]
        rfl
      rw [hbefore]
      cases hread : readNumber stod first (settingText reg first) with
      | none =>
        have hfail : ¬ ∀ other ∈ first :: before settings setting,
            Readable stod (settingText reg) other := by
          intro hall
          have hfirst := hall first List.mem_cons_self
          rw [Readable, hread] at hfirst
          cases hfirst
        rw [if_neg hfail]
      | some n =>
        show (fetchSettings stod reg settings _).2.get setting = _
        rw [ih hnodup _ ((List.mem_cons.mp hmem).resolve_left heq), get_set hread, if_neg heq]
        have hfirst : Readable stod (settingText reg) first := by
          rw [Readable, hread]
          rfl
        simp [hfirst]

end

/-- **The settings the server starts with.**  Reading the properties succeeds exactly if the text of
every setting is a number, where the text is the value of its property in the entries of the two files.
Then every setting is its number; otherwise so are the settings in front of the first that fails, and
the other ones are as before. -/
theorem fetchProperties_of_files {δ : Type} (stod : String → Option δ) {files : Files Yaml.Event}
    {extension : String} {common custom : List Entry} (h : HaveProperties files extension common custom)
    (m : MetaConfigs δ) :
    let text := fun setting : Setting => valueIn (common ++ custom) setting.prop setting.defaultValue
    let result := fetchProperties stod files extension .empty m
    result.1 = (if ∀ setting ∈ Setting.all, Readable stod text setting then .RC_SUCCESS
        else .RC_PROP_PARSING_ERROR) ∧
      ∀ setting, result.2.2.get setting =
        if ∀ other ∈ before Setting.all setting, Readable stod text other then
          (readNumber stod setting (text setting)).getD (m.get setting)
        else m.get setting := by
  intro text result
  have htext : settingText (fetchPropertyFiles files extension .empty).2 = text := by
    funext setting
    rw [settingText, fetchPropertyFiles_eq h, submitPropGetRequest_createAll]
  have hresult : result = ((fetchMetaConfigs stod (fetchPropertyFiles files extension .empty).2 m).1,
      (fetchPropertyFiles files extension .empty).2,
      (fetchMetaConfigs stod (fetchPropertyFiles files extension .empty).2 m).2) := by
    show fetchProperties stod files extension .empty m = _
    rw [fetchProperties, if_neg (by rw [fetchPropertyFiles_eq h]; simp)]
  constructor
  · rw [hresult, fetchMetaConfigs, fetchSettings_fst, htext]
  · intro setting
    rw [hresult, fetchMetaConfigs, fetchSettings_get (by decide) m setting.mem_all, htext]

/-- The settings of the two files, with the texts that are read for the factors as numbers. -/
theorem fetchProperties_of_sampleFiles :
    (fetchProperties some sampleFiles "" .empty ⟨0, 0, 0, 0, 0, 0, "", ""⟩).2.2 =
      ⟨50, 5, 60000, 83000, 4, 9, "2.0", "0.4"⟩ := by
  have h := (fetchProperties_of_files some sampleFiles_haveProperties ⟨0, 0, 0, 0, 0, 0, "", ""⟩).2
  have hread : ∀ setting, Readable some
      (fun setting => valueIn (sampleCommon ++ sampleCustom) setting.prop setting.defaultValue)
      setting := by
    intro setting
    cases setting <;> decide
  simp only [hread, implies_true, if_true] at h
  have hget := fun setting => (h setting).trans rfl
  rw [MetaConfigs.mk.injEq]
  refine ⟨?_, ?_, ?_, ?_, ?_, ?_, ?_, ?_⟩
  · exact Sum.inl.inj (hget .maxConcurrentRequests)
  · exact Sum.inl.inj (hget .maxResourcesPerRequest)
  · exact Sum.inl.inj (hget .pulseDuration)
  · exact Sum.inl.inj (hget .garbageCollectorDuration)
  · exact Sum.inl.inj (hget .cleanupBatchSize)
  · exact Sum.inl.inj (hget .delta)
  · exact Sum.inr.inj (hget .penaltyFactor)
  · exact Sum.inr.inj (hget .rewardFactor)

end ResourceTuner.RestuneInit
