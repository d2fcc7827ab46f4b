import ResourceTuner.Signals.SignalEntries

/-!
# What an entry contributes

The calls of an entry, when they all succeed, leave a signal with the entry's own fields, permissions,
derivatives and resources, and nothing else.

* **`ResourceItem.Describes`**, **`Entry.Describes`** — a resource and a signal, in terms of the
  document;
* **`describes_of_build`**, **`describes_of_built`** — the builders make them;
* **`parseSignalConfigYamlNode_document`** — the registry after a document.
-/

namespace ResourceTuner.RestuneParser

open Numerals

/-- The value of the last text, the default where there is none. -/
def Assigned {τ α : Type} (texts : List τ) (read : τ → Option α) (default x : α) : Prop :=
  match texts.getLast? with
  | none => x = default
  | some text => read text = some x

theorem filterMap_concat_none {α τ : Type} {f : α → Option τ} {as : List α} {a : α}
    (ha : f a = none) : (as ++ [a]).filterMap f = as.filterMap f := by
  rw [List.filterMap_append, List.filterMap_cons_none ha, List.filterMap_nil, List.append_nil]

theorem filterMap_concat_some {α τ : Type} {f : α → Option τ} {as : List α} {a : α} {text : τ}
    (ha : f a = some text) : (as ++ [a]).filterMap f = as.filterMap f ++ [text] := by
  rw [List.filterMap_append, List.filterMap_cons_some ha, List.filterMap_nil]

section Assigned

variable {α τ ν : Type} {f : α → Option τ} {as : List α} {a : α} {read : τ → Option ν}
  {default x : ν}

/-- What is under another key does not matter. -/
theorem Assigned.keep (h : Assigned (as.filterMap f) read default x) (ha : f a = none) :
    Assigned ((as ++ [a]).filterMap f) read default x := by
  rw [filterMap_concat_none ha]
  exact h

/-- What is under the same key replaces what was there. -/
theorem Assigned.set {text : τ} (ha : f a = some text) (hread : read text = some x) :
    Assigned ((as ++ [a]).filterMap f) read default x := by
  rw [filterMap_concat_some ha, Assigned, List.getLast?_concat]
  exact hread

end Assigned

/-- A list that is there once it has an element. -/
def listed {α : Type} : List α → Option (List α)
  | [] => none
  | elements => some elements

theorem listed_concat {α : Type} (elements : List α) (element : α) :
    listed (elements ++ [element]) = some (elements ++ [element]) := by
  cases elements <;> rfl

/-! ## Calls that succeed -/

/-- Every call succeeds on what the calls before it have left. -/
def Succeed {β : Type} : List (β → ErrCode × β) → β → Prop
  | [], _ => True
  | call :: calls, builder => (call builder).1 = .RC_SUCCESS ∧ Succeed calls (call builder).2

theorem runCalls_ok_iff {β : Type} {calls : List (β → ErrCode × β)} {builder : β} :
    (runCalls calls (.RC_SUCCESS, builder)).1 = .RC_SUCCESS ↔ Succeed calls builder := by
  induction calls generalizing builder with
  | nil => exact iff_of_true rfl trivial
  | cons call calls ih =>
    rw [runCalls_cons, addToBuilder, if_pos rfl, Succeed]
    cases hcall : call builder with
    | mk rc next =>
      by_cases hrc : rc = .RC_SUCCESS
      · subst hrc
        rw [ih]
        exact (and_iff_right rfl).symm
      · rw [runCalls_of_ne calls hrc]
        exact iff_of_false hrc fun h => hrc h.1

/-- An invariant of successful calls, told from the parts they come from. -/
theorem runCalls_induction {α β : Type} {calls : α → List (β → ErrCode × β)} {P : List α → β → Prop}
    (hstep : ∀ done a builder, P done builder →
      (runCalls (calls a) (.RC_SUCCESS, builder)).1 = .RC_SUCCESS →
      P (done ++ [a]) (runCalls (calls a) (.RC_SUCCESS, builder)).2)
    {as : List α} {builder : β} (hnil : P [] builder)
    (hok : (runCalls (as.flatMap calls) (.RC_SUCCESS, builder)).1 = .RC_SUCCESS) :
    P as (runCalls (as.flatMap calls) (.RC_SUCCESS, builder)).2 := by
  induction as using List.reverseRecOn with
  | nil => exact hnil
  | append_singleton as a ih =>
    rw [List.flatMap_append, List.flatMap_singleton] at hok ⊢
    have hbefore := runCalls_append_ok hok
    have hdone := ih hbefore
    rw [runCalls_append] at hok ⊢
    cases hmade : runCalls (as.flatMap calls) (.RC_SUCCESS, builder) with
    | mk rc next =>
      rw [hmade] at hbefore hdone hok
      obtain rfl : rc = .RC_SUCCESS := hbefore
      exact hstep as a next hdone hok

/-! ## Resources -/

def ResourceField.code? : ResourceField → Option String
  | .ResCode value => some value.text
  | _ => none

def ResourceField.info? : ResourceField → Option String
  | .ResInfo value => some value.text
  | _ => none

def ResourceField.values? : ResourceField → Option (List String)
  | .Values values => some (values.map Datum.text)
  | _ => none

/-- The resource of the fields of an item. -/
structure DescribesResource (fields : List ResourceField) (resource : Resource) : Prop where
  code : Assigned (fields.filterMap ResourceField.code?) ResourceBuilder.resCodeOf 0 resource.mResCode
  info : Assigned (fields.filterMap ResourceField.info?) ResourceBuilder.resInfoOf 0 resource.mResInfo
  optionalInfo : resource.mOptionalInfo = 0
  count : resource.mNumValues = resource.mResValue.length
  values : Assigned (fields.filterMap ResourceField.values?) (List.mapM ResourceBuilder.valueOf) []
    resource.mResValue

/-- The resource of an item. -/
def ResourceItem.Describes (item : ResourceItem) (resource : Resource) : Prop :=
  DescribesResource item.fields resource

theorem setNumValues_eq (resource : Resource) (n : Nat) :
    resource.setNumValues n =
      .ofValues resource.mResCode resource.mResInfo resource.mOptionalInfo (List.replicate n 0) := by
  simp only [Resource.setNumValues, Resource.ofValues, Int.toNat_natCast, List.length_replicate]

/-- The loop over the values, between those that are set and those that are not. -/
theorem addValues_ok {code info : BitVec 32} {optionalInfo : Int} {texts : List String}
    {before : List Int}
    (hok : (runCalls (texts.mapIdx fun idx value (b : ResourceBuilder) =>
        b.addValue ((before.length + idx : Nat) : Int) value)
      (.RC_SUCCESS, ⟨some (.ofValues code info optionalInfo
        (before ++ List.replicate texts.length 0))⟩)).1 = .RC_SUCCESS) :
    ∃ values, texts.mapM ResourceBuilder.valueOf = some values ∧
      (runCalls (texts.mapIdx fun idx value (b : ResourceBuilder) =>
          b.addValue ((before.length + idx : Nat) : Int) value)
        (.RC_SUCCESS, ⟨some (.ofValues code info optionalInfo
          (before ++ List.replicate texts.length 0))⟩)).2 =
        ⟨some (.ofValues code info optionalInfo (before ++ values))⟩ := by
  induction texts generalizing before with
  | nil => exact ⟨[], rfl, rfl⟩
  | cons text texts ih =>
    rw [List.mapIdx_cons, runCalls_cons, addToBuilder, if_pos rfl] at hok ⊢
    rw [List.length_cons, List.replicate_succ] at hok ⊢
    cases hvalue : ResourceBuilder.valueOf text with
    | none =>
      have hfail : ∀ made : ErrCode × ResourceBuilder, made.1 = .RC_INVALID_VALUE →
          ∀ calls, (runCalls calls made).1 ≠ .RC_SUCCESS := by
        intro made hmade calls
        rw [runCalls_of_ne calls (by rw [hmade]; decide), hmade]
        decide
      refine absurd hok (hfail _ ?_ _)
      simp only [ResourceBuilder.addValue, ResourceBuilder.withResource, hvalue]
    | some value =>
      have hset : ResourceBuilder.addValue
          ⟨some (.ofValues code info optionalInfo (before ++ 0 :: List.replicate texts.length 0))⟩
          ((before.length + 0 : Nat) : Int) text =
            (.RC_SUCCESS, ⟨some (.ofValues code info optionalInfo
              ((before ++ [value]) ++ List.replicate texts.length 0))⟩) := by
        simp only [ResourceBuilder.addValue, ResourceBuilder.withResource, hvalue, Nat.add_zero,
          Resource.setValueAt_ofValues, List.append_assoc, List.singleton_append]
      have hindex : (fun (idx : Nat) (text : String) (b : ResourceBuilder) =>
          b.addValue ((before.length + (idx + 1) : Nat) : Int) text) =
            fun idx text b => b.addValue (((before ++ [value]).length + idx : Nat) : Int) text := by
        funext idx text b
        rw [List.length_append, List.length_singleton, Nat.add_assoc, Nat.add_comm 1]
      rw [hset, hindex] at hok ⊢
      obtain ⟨values, hvalues, hmade⟩ := ih hok
      refine ⟨value :: values, ?_, ?_⟩
      · rw [List.mapM_cons, hvalue, hvalues]
        rfl
      · rw [hmade, List.append_assoc, List.singleton_append]

/-- The calls for the values of a resource. -/
theorem valueCalls_ok {resource : Resource} {texts : List String}
    (hok : (runCalls (valueCalls texts) (.RC_SUCCESS, ⟨some resource⟩)).1 = .RC_SUCCESS) :
    ∃ values, texts.mapM ResourceBuilder.valueOf = some values ∧
      (runCalls (valueCalls texts) (.RC_SUCCESS, ⟨some resource⟩)).2 =
        ⟨some (.ofValues resource.mResCode resource.mResInfo resource.mOptionalInfo values)⟩ := by
  have hcalls : runCalls (valueCalls texts) (.RC_SUCCESS, ⟨some resource⟩) =
      runCalls (texts.mapIdx fun idx text (b : ResourceBuilder) =>
          b.addValue ((([] : List Int).length + idx : Nat) : Int) text)
        (.RC_SUCCESS, ⟨some (.ofValues resource.mResCode resource.mResInfo resource.mOptionalInfo
          ([] ++ List.replicate texts.length 0))⟩) := by
    rw [valueCalls, runCalls_cons, addToBuilder, if_pos rfl, List.nil_append, ← setNumValues_eq]
    simp only [List.length_nil, Nat.zero_add]
    rfl
  rw [hcalls] at hok ⊢
  exact addValues_ok hok

/-- One more key of a resource. -/
theorem describes_resourceField {fields : List ResourceField} {field : ResourceField}
    {resource : Resource} (h : DescribesResource fields resource)
    (hok : (runCalls field.calls (.RC_SUCCESS, ⟨some resource⟩)).1 = .RC_SUCCESS) :
    ∃ resource', (runCalls field.calls (.RC_SUCCESS, ⟨some resource⟩)).2 = ⟨some resource'⟩ ∧
      DescribesResource (fields ++ [field]) resource' := by
  cases field with
  | ResCode value =>
    have hcall : runCalls (ResourceField.ResCode value).calls (.RC_SUCCESS, ⟨some resource⟩) =
        ResourceBuilder.setResCode ⟨some resource⟩ value.text := rfl
    rw [hcall] at hok ⊢
    cases hcode : ResourceBuilder.resCodeOf value.text with
    | none => simp [ResourceBuilder.setResCode, ResourceBuilder.withResource, hcode] at hok
    | some code =>
      refine ⟨{ resource with mResCode := code }, ?_, ?_⟩
      · simp only [ResourceBuilder.setResCode, ResourceBuilder.withResource, hcode]
      · exact ⟨.set rfl hcode, h.info.keep rfl, h.optionalInfo, h.count, h.values.keep rfl⟩
  | ResInfo value =>
    have hcall : runCalls (ResourceField.ResInfo value).calls (.RC_SUCCESS, ⟨some resource⟩) =
        ResourceBuilder.setResInfo ⟨some resource⟩ value.text := rfl
    rw [hcall] at hok ⊢
    cases hinfo : ResourceBuilder.resInfoOf value.text with
    | none => simp [ResourceBuilder.setResInfo, ResourceBuilder.withResource, hinfo] at hok
    | some info =>
      refine ⟨{ resource with mResInfo := info }, ?_, ?_⟩
      · simp only [ResourceBuilder.setResInfo, ResourceBuilder.withResource, hinfo]
      · exact ⟨h.code.keep rfl, .set rfl hinfo, h.optionalInfo, h.count, h.values.keep rfl⟩
  | Values values =>
    obtain ⟨numbers, hnumbers, hmade⟩ := valueCalls_ok hok
    exact ⟨_, hmade, h.code.keep rfl, h.info.keep rfl, h.optionalInfo, rfl, .set rfl hnumbers⟩

/-- Without a resource every key fails. -/
theorem resourceField_fails (field : ResourceField) :
    (runCalls field.calls (.RC_SUCCESS, ⟨none⟩)).1 ≠ .RC_SUCCESS := by
  cases field with
  | ResCode value | ResInfo value => exact ErrCode.noConfusion
  | Values values =>
    have hfirst : addToBuilder (·.setNumValues (values.map Datum.text).length)
        (.RC_SUCCESS, (⟨none⟩ : ResourceBuilder)) = (.RC_MEMORY_ALLOCATION_FAILURE, ⟨none⟩) := rfl
    rw [ResourceField.calls, valueCalls, runCalls_cons, hfirst, runCalls_of_ne _ ErrCode.noConfusion]
    exact ErrCode.noConfusion

/-- A resource that is built without an error is the one of its item. -/
theorem describes_of_build {item : ResourceItem} {resource : Resource}
    (hok : item.build.1 = .RC_SUCCESS) (hresource : item.build.2.build = some resource) :
    item.Describes resource := by
  have hmade := runCalls_induction
    (P := fun fields (b : ResourceBuilder) => ∀ resource, b.mResource = some resource →
      DescribesResource fields resource) ?_ ?_ hok
  · exact hmade resource hresource
  · intro done field b hdone hfield made hmade
    cases b with
    | mk mResource =>
      cases mResource with
      | none => exact absurd hfield (resourceField_fails field)
      | some resource =>
        obtain ⟨resource', hresource', h⟩ := describes_resourceField (hdone resource rfl) hfield
        rw [hresource'] at hmade
        obtain rfl : resource' = made := Option.some.inj hmade
        exact h
  · intro resource hnew
    unfold ResourceBuilder.new at hnew
    split at hnew
    · obtain rfl := Option.some.inj hnew
      exact ⟨rfl, rfl, rfl, rfl, rfl⟩
    · cases hnew

/-! ## Signals -/

def Assignment.scalar? (key : ScalarKey) : Assignment → Option String
  | .scalar key' value => if key' = key then some value.text else none
  | _ => none

def Assignment.element? (key : ListKey) : Assignment → Option String
  | .element key' value => if key' = key then some value.text else none
  | _ => none

def Assignment.item? : Assignment → Option ResourceItem
  | .resource item => some item
  | _ => none

/-- Each scalar of the signal is the last one given, or the default. -/
structure DescribesScalars (as : List Assignment) (info : SignalInfo) : Prop where
  id : Assigned (as.filterMap (Assignment.scalar? .SigId))
    (fun text => (stoi 0 text).map (BitVec.ofInt 16)) 0 info.mSignalID
  category : Assigned (as.filterMap (Assignment.scalar? .Category))
    (fun text => (stoi 0 text).map (BitVec.ofInt 8)) 0 info.mSignalCategory
  type : info.mSigType = 0
  name : Assigned (as.filterMap (Assignment.scalar? .Name)) some "" info.mSignalName
  timeout : Assigned (as.filterMap (Assignment.scalar? .Timeout)) (stoi 10) 1 info.mTimeout

/-- Each list of the signal has all elements given, in order. -/
structure DescribesLists (as : List Assignment) (info : SignalInfo) : Prop where
  permissions : ∃ permissions,
    (as.filterMap (Assignment.element? .Permissions)).mapM SignalInfoBuilder.permissionOf =
      some permissions ∧ info.mPermissions = listed permissions
  derivatives : info.mDerivatives = listed (as.filterMap (Assignment.element? .Derivatives))
  resources : ∃ resources, List.Forall₂ ResourceItem.Describes (as.filterMap Assignment.item?)
    resources ∧ info.mSignalResources = listed (resources.map some)

/-- The signal of the assignments of an entry. -/
structure DescribesSignal (as : List Assignment) (info : SignalInfo) : Prop where
  scalars : DescribesScalars as info
  lists : DescribesLists as info

/-- The signal of an entry. -/
def Entry.Describes (entry : Entry) (info : SignalInfo) : Prop :=
  DescribesSignal entry.assignments info

/-- One more element of a list. -/
theorem pushBack_listed {α : Type} {elements : List α} {grants : Grants} {element : α}
    {onNull : ErrCode} (hnull : onNull ≠ .RC_SUCCESS)
    (hok : (pushBack (allocateVector (listed elements) grants) grants element onNull).1 = .RC_SUCCESS) :
    (pushBack (allocateVector (listed elements) grants) grants element onNull).2 =
      listed (elements ++ [element]) := by
  have hpush : ∀ {present : List α}, (pushBack (some present) grants element onNull).1 = .RC_SUCCESS →
      (pushBack (some present) grants element onNull).2 = some (present ++ [element]) := by
    intro present hpushed
    rw [pushBack] at hpushed ⊢
    split at hpushed
    · rename_i hgrant
      simp only [if_pos hgrant]
    · cases hpushed
  rw [listed_concat]
  cases elements with
  | nil =>
    rw [listed, allocateVector] at hok ⊢
    split at hok
    · rename_i hgrant
      rw [if_pos hgrant]
      exact hpush hok
    · exact absurd hok hnull
  | cons first rest => exact hpush hok

/-- A number that is set without an error. -/
theorem setNumber_ok {info : SignalInfo} {count : Int} {number : Option Int}
    {set : Int → SignalInfo → SignalInfo}
    (hok : (SignalInfoBuilder.setNumber ⟨some info, count⟩ number set).1 = .RC_SUCCESS) :
    ∃ n, number = some n ∧
      (SignalInfoBuilder.setNumber ⟨some info, count⟩ number set).2.mSignalInfo = some (set n info) := by
  cases number with
  | none => cases hok
  | some n => exact ⟨n, rfl, rfl⟩

theorem mapM_concat {elements : List String} {element : String} {α : Type} {f : String → Option α}
    {values : List α} {value : α} (h : elements.mapM f = some values) (hlast : f element = some value) :
    (elements ++ [element]).mapM f = some (values ++ [value]) := by
  rw [List.mapM_append, h, List.mapM_cons, hlast]
  rfl

/-- What is not a scalar leaves the scalars. -/
theorem DescribesScalars.keep {as : List Assignment} {a : Assignment} {info : SignalInfo}
    (h : DescribesScalars as info) (ha : ∀ key, a.scalar? key = none)
    (permissions : Option (List Permissions)) (derivatives : Option (List String))
    (resources : Option (List (Option Resource))) :
    DescribesScalars (as ++ [a])
      { info with
        mPermissions := permissions
        mDerivatives := derivatives
        mSignalResources := resources } :=
  ⟨h.id.keep (ha _), h.category.keep (ha _), h.type, h.name.keep (ha _), h.timeout.keep (ha _)⟩

/-- A scalar leaves the lists. -/
theorem DescribesLists.keep {as : List Assignment} {key : ScalarKey} {value : Datum}
    {info : SignalInfo} (h : DescribesLists as info) (id : BitVec 16) (category : BitVec 8)
    (name : String) (timeout : Int) :
    DescribesLists (as ++ [.scalar key value])
      { info with
        mSignalID := id
        mSignalCategory := category
        mSignalName := name
        mTimeout := timeout } := by
  refine ⟨?_, ?_, ?_⟩
  all_goals rw [filterMap_concat_none rfl]
  exacts [h.permissions, h.derivatives, h.resources]

/-- One more scalar of a signal. -/
theorem describes_scalar {as : List Assignment} {key : ScalarKey} {value : Datum} {info : SignalInfo}
    {count : Int} (h : DescribesSignal as info)
    (hok : (key.call value ⟨some info, count⟩).1 = .RC_SUCCESS) :
    ∃ info', (key.call value ⟨some info, count⟩).2.mSignalInfo = some info' ∧
      DescribesSignal (as ++ [.scalar key value]) info' := by
  obtain ⟨hid, hcategory, htype, hname, htimeout⟩ := h.scalars
  have hkeep : ∀ {other}, key ≠ other →
      Assignment.scalar? other (.scalar key value) = none := fun hne => if_neg hne
  cases key with
  | SigId =>
    obtain ⟨n, hn, hmade⟩ := setNumber_ok hok
    refine ⟨_, hmade, ⟨.set rfl ?_, hcategory.keep (hkeep nofun), htype, hname.keep (hkeep nofun),
      htimeout.keep (hkeep nofun)⟩, h.lists.keep ..⟩
    rw [hn, Option.map_some]
  | Category =>
    obtain ⟨n, hn, hmade⟩ := setNumber_ok hok
    refine ⟨_, hmade, ⟨hid.keep (hkeep nofun), .set rfl ?_, htype, hname.keep (hkeep nofun),
      htimeout.keep (hkeep nofun)⟩, h.lists.keep ..⟩
    rw [hn, Option.map_some]
  | Name =>
    exact ⟨_, rfl, ⟨hid.keep (hkeep nofun), hcategory.keep (hkeep nofun), htype, .set rfl rfl,
      htimeout.keep (hkeep nofun)⟩, h.lists.keep ..⟩
  | Enable =>
    refine ⟨info, ?_, ⟨hid.keep (hkeep nofun), hcategory.keep (hkeep nofun), htype,
      hname.keep (hkeep nofun), htimeout.keep (hkeep nofun)⟩, h.lists.keep ..⟩
    show (SignalInfoBuilder.setIsEnabled ⟨some info, count⟩ value.text).2.mSignalInfo = some info
    rw [SignalInfoBuilder.setIsEnabled, if_neg nofun]
    split <;> rfl
  | Timeout =>
    cases hn : stoi 10 value.text with
    | none =>
      simp [ScalarKey.call, SignalInfoBuilder.setTimeout, SignalInfoBuilder.withInfo, hn] at hok
    | some n =>
      refine ⟨{ info with mTimeout := n }, ?_, ⟨hid.keep (hkeep nofun),
        hcategory.keep (hkeep nofun), htype, hname.keep (hkeep nofun), .set rfl hn⟩, h.lists.keep ..⟩
      simp only [ScalarKey.call, SignalInfoBuilder.setTimeout, SignalInfoBuilder.withInfo, hn]

/-- One more element of a list of a signal. -/
theorem describes_element {targetName : String} {as : List Assignment} {key : ListKey}
    {value : Datum} {info : SignalInfo} {count : Int} (h : DescribesSignal as info)
    (hok : (key.call targetName value ⟨some info, count⟩).1 = .RC_SUCCESS) :
    ∃ info', (key.call targetName value ⟨some info, count⟩).2.mSignalInfo = some info' ∧
      DescribesSignal (as ++ [.element key value]) info' := by
  obtain ⟨hpermissions, hderivatives, hresources⟩ := h.lists
  have hitems : (as ++ [Assignment.element key value]).filterMap Assignment.item? =
      as.filterMap Assignment.item? := filterMap_concat_none rfl
  have hothers : ∀ other, key ≠ other →
      (as ++ [Assignment.element key value]).filterMap (Assignment.element? other) =
        as.filterMap (Assignment.element? other) := fun _ hne => filterMap_concat_none (if_neg hne)
  have hlast : (as ++ [Assignment.element key value]).filterMap (Assignment.element? key) =
      as.filterMap (Assignment.element? key) ++ [value.text] := filterMap_concat_some (if_pos rfl)
  -- the targets are only counted
  have htarget : ∀ first found, (SignalInfoBuilder.addTarget ⟨some info, count⟩ targetName value.text
      first found).2.mSignalInfo = some info := by
    intro first found
    rw [SignalInfoBuilder.addTarget, if_neg nofun]
    split <;> rfl
  cases key with
  | TargetsEnabled | TargetsDisabled =>
    refine ⟨info, htarget .., h.scalars.keep (fun _ => rfl) .., ?_, ?_, ?_⟩
    · rw [hothers .Permissions nofun]
      exact hpermissions
    · rw [hothers .Derivatives nofun]
      exact hderivatives
    · rw [hitems]
      exact hresources
  | Permissions =>
    obtain ⟨permissions, hread, hlisted⟩ := hpermissions
    have hcall : (ListKey.Permissions).call targetName value ⟨some info, count⟩ =
        SignalInfoBuilder.addPermission ⟨some info, count⟩ value.grants value.text := rfl
    rw [hcall] at hok ⊢
    simp only [SignalInfoBuilder.addPermission, SignalInfoBuilder.withInfo, hlisted] at hok ⊢
    cases hpermission : SignalInfoBuilder.permissionOf value.text with
    | none => simp [hpermission] at hok
    | some permission =>
      simp only [hpermission] at hok ⊢
      refine ⟨_, rfl, h.scalars.keep (fun _ => rfl) .., ?_, ?_, ?_⟩
      · rw [hlast]
        exact ⟨permissions ++ [permission], mapM_concat hread hpermission,
          pushBack_listed (by decide) hok⟩
      · rw [hothers .Derivatives nofun]
        exact hderivatives
      · rw [hitems]
        exact hresources
  | Derivatives =>
    have hcall : (ListKey.Derivatives).call targetName value ⟨some info, count⟩ =
        SignalInfoBuilder.addDerivative ⟨some info, count⟩ value.grants value.text := rfl
    rw [hcall] at hok ⊢
    simp only [SignalInfoBuilder.addDerivative, SignalInfoBuilder.withInfo, hderivatives] at hok ⊢
    refine ⟨_, rfl, h.scalars.keep (fun _ => rfl) .., ?_, ?_, ?_⟩
    · rw [hothers .Permissions nofun]
      exact hpermissions
    · rw [hlast]
      exact pushBack_listed (by decide) hok
    · rw [hitems]
      exact hresources

/-- One more resource of a signal. -/
theorem describes_resource {as : List Assignment} {item : ResourceItem} {info : SignalInfo}
    {count : Int} (h : DescribesSignal as info)
    (hok : (item.call ⟨some info, count⟩).1 = .RC_SUCCESS) :
    ∃ info', (item.call ⟨some info, count⟩).2.mSignalInfo = some info' ∧
      DescribesSignal (as ++ [.resource item]) info' := by
  obtain ⟨hpermissions, hderivatives, resources, hresources, hlisted⟩ := h.lists
  rw [ResourceItem.call] at hok ⊢
  split at hok
  · rename_i hbuild
    rw [if_pos hbuild]
    cases hresource : item.build.2.build with
    | none => simp [SignalInfoBuilder.addResource, hresource] at hok
    | some resource =>
      rw [hresource, SignalInfoBuilder.addResource, if_neg (Option.some_ne_none resource)] at hok
      rw [SignalInfoBuilder.addResource, if_neg (Option.some_ne_none resource)]
      simp only [SignalInfoBuilder.withInfo, hlisted] at hok ⊢
      refine ⟨_, rfl, h.scalars.keep (fun _ => rfl) .., ?_, ?_, resources ++ [resource], ?_, ?_⟩
      · rw [filterMap_concat_none rfl]
        exact hpermissions
      · rw [filterMap_concat_none rfl]
        exact hderivatives
      · rw [filterMap_concat_some (f := Assignment.item?) rfl]
        exact List.rel_append hresources (.cons (describes_of_build hbuild hresource) .nil)
      · rw [List.map_append, List.map_singleton]
        exact pushBack_listed (by decide) hok
  · rename_i hbuild
    exact absurd hok hbuild

/-- **A signal is its entry.**  When all calls of an entry succeed, the signal has the entry's scalars
and lists. -/
theorem describes_of_built {targetName : String} {entry : Entry} {info : SignalInfo}
    (hbuilt : entry.built targetName = some info) : entry.Describes info := by
  unfold Entry.built at hbuilt
  split at hbuilt
  · rename_i hok
    have hcalls : ∀ as : List Assignment, as.map (Assignment.call targetName) =
        as.flatMap fun a => [a.call targetName] := fun as => List.map_eq_flatMap
    have hmade := runCalls_induction
      (P := fun as (b : SignalInfoBuilder) => ∀ info, b.mSignalInfo = some info →
        DescribesSignal as info) ?_ ?_ (by rw [← hcalls]; exact hok)
    · rw [← hcalls] at hmade
      exact hmade info hbuilt
    · intro done a b hdone hcall made hmade
      have hsingle : runCalls [a.call targetName] (.RC_SUCCESS, b) = a.call targetName b := rfl
      rw [hsingle] at hcall hmade
      have hsome : (a.call targetName b).2.mSignalInfo.isSome := by
        rw [hmade]
        rfl
      rw [isSome_call] at hsome
      obtain ⟨signalInfo, count⟩ := b
      obtain ⟨info, rfl⟩ := Option.isSome_iff_exists.mp hsome
      have hbefore := hdone info rfl
      obtain ⟨info', hinfo', h⟩ : ∃ info', (a.call targetName ⟨some info, count⟩).2.mSignalInfo =
          some info' ∧ DescribesSignal (done ++ [a]) info' := by
        cases a with
        | scalar key value => exact describes_scalar hbefore hcall
        | element key value => exact describes_element hbefore hcall
        | resource item => exact describes_resource hbefore hcall
      obtain rfl : info' = made := Option.some.inj (hinfo'.symm.trans hmade)
      exact h
    · intro info hnew
      have hfresh : (SignalInfoBuilder.new entry.opened).mSignalInfo = some info := hnew
      rw [SignalInfoBuilder.new] at hfresh
      split at hfresh
      · obtain rfl := Option.some.inj hfresh
        exact ⟨⟨rfl, rfl, rfl, rfl, rfl⟩, ⟨[], rfl, rfl⟩, rfl, [], .nil, rfl⟩
      · cases hfresh
  · cases hbuilt

/-! ## Documents -/

/-- The registry where the parser is, `none` after a fault. -/
def Outcome.registry : Outcome → Option SignalRegistry
  | .running s => some s.registry
  | .returned _ registry => some registry
  | .fault => none

/-- The registry after a document is the one of its entries, each by itself: those whose calls all
succeed are registered, in order, and hold what the document says. -/
structure EntryWise (isBuSpecified : Bool) (targetName : String) (registry : SignalRegistry)
    (entries : List Entry) : Prop where
  registered :
    (parseSignalConfigYamlNode isBuSpecified targetName registry (document entries)).registry =
      some ((entries.filterMap (Entry.built targetName)).foldl
        (fun registry info => registry.registerSignal info isBuSpecified) registry)
  succeeds : ∀ entry ∈ entries, (entry.built targetName).isSome ↔
    Succeed (entry.assignments.map (Assignment.call targetName)) (.new entry.opened)
  describes : ∀ entry ∈ entries, ∀ info, entry.built targetName = some info → entry.Describes info

theorem foldl_register (isBuSpecified : Bool) (targetName : String) (registry : SignalRegistry)
    (entries : List Entry) :
    (entries.map fun entry => ⟨entry.built targetName, isBuSpecified⟩).foldl
        SignalRegistry.register registry =
      (entries.filterMap (Entry.built targetName)).foldl
        (fun registry info => registry.registerSignal info isBuSpecified) registry := by
  induction entries generalizing registry with
  | nil => rfl
  | cons entry entries ih =>
    rw [List.map_cons, List.foldl_cons, ih]
    cases hbuilt : entry.built targetName with
    | none => rw [List.filterMap_cons_none hbuilt]; rfl
    | some info => rw [List.filterMap_cons_some hbuilt]; rfl

/-- **Signal parsing is entry-wise.**  For every document whose builders can be allocated the registry
is the one of its entries. -/
theorem parseSignalConfigYamlNode_document (isBuSpecified : Bool) (targetName : String)
    (registry : SignalRegistry) {entries : List Entry}
    (hallocated : ∀ entry ∈ entries, entry.Allocated) :
    EntryWise isBuSpecified targetName registry entries where
  registered := by
    rw [parse_document isBuSpecified targetName registry hallocated, ← foldl_register]
    rfl
  succeeds := by
    intro entry hentry
    rw [← runCalls_ok_iff]
    have hinfo : (entry.run targetName).2.build.isSome := isSome_run targetName (hallocated entry hentry)
    rw [Entry.built]
    split
    · rename_i hok
      exact iff_of_true hinfo hok
    · rename_i hok
      exact iff_of_false Bool.false_ne_true hok
  describes := fun _ _ _ => describes_of_built

namespace Sample

def datum (text : String) (h : isKey text = false) : Datum := ⟨text, .all, h⟩

theorem isKey_code : isKey "0x0001" = false := by decide

theorem isKey_two : isKey "2" = false := by decide

theorem isKey_three : isKey "3" = false := by decide

/-- A signal with a placeholder and a number. -/
def entry : Entry where
  opened := .all
  fields :=
    [.scalar .SigId (datum "0x0001" isKey_code), .scalar .Category (datum "2" isKey_two),
      .list .Permissions [datum "system" (by decide), datum "third_party" (by decide)],
      .resources [⟨.all, [.ResCode (datum "RES_SCALE_MIN_FREQ" (by decide)),
        .Values [datum "%d" (by decide), datum "7" (by decide)]], .all⟩]]

/-- A signal with a resource that has a value which is no number. -/
def broken : Entry where
  opened := .all
  fields :=
    [.scalar .Category (datum "3" isKey_three),
      .resources [⟨.all, [.Values [datum "7" (by decide), datum "seven" (by decide)],
        .ResInfo (datum "0" (by decide))], .all⟩]]

/-- A signal whose builder cannot be allocated. -/
def unallocated : Entry := { entry with opened := ⟨false, false, false, false⟩ }

theorem allocated : ∀ e ∈ [broken, entry], e.Allocated := by
  intro e he
  rcases List.mem_cons.mp he with rfl | he
  · refine ⟨rfl, rfl, ?_⟩
    simp [broken, Field.Allocated, Grants.all]
  · obtain rfl := List.mem_singleton.mp he
    refine ⟨rfl, rfl, ?_⟩
    simp [entry, Field.Allocated, Grants.all]

end Sample

/-- A signal that fails inside a list leaves no trace in the one after it. -/
theorem parse_sample : EntryWise false "target" .empty [Sample.broken, Sample.entry] :=
  parseSignalConfigYamlNode_document false "target" .empty Sample.allocated

/-- **Without a builder the rest is lost.**  The parser returns, and a signal that is in order in every
respect is not registered. -/
theorem parse_unallocated : ¬ EntryWise false "target" .empty [Sample.unallocated, Sample.entry] := by
  intro h
  have hcount := congrArg (Option.map SignalRegistry.mTotalSignals) h.registered
  exact absurd hcount (by decide)

end ResourceTuner.RestuneParser
