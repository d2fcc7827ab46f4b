import ResourceTuner.Signals.EntryContents
import ResourceTuner.Signals.SignalHandler

/-!
# Lists that were never made

The permissions and the resources of a signal are vectors that the builder makes with their first
element.  The signal path reads both without a null test.

* **`SafelyTuned`** — what the signal path should do with a registered signal;
* **`verify_eq`** — the verifier, past its other checks;
* **`safelyTuned_iff`** — the entries that give at least one permission and one resource.
-/

namespace ResourceTuner.RestuneParser

/-- The elements an entry gives for a list. -/
def Entry.elements (entry : Entry) (key : ListKey) : List String :=
  entry.assignments.filterMap (Assignment.element? key)

/-- The resources it gives. -/
def Entry.items (entry : Entry) : List ResourceItem := entry.assignments.filterMap Assignment.item?

/-- Every message that names the signal of an entry is verified and, when it is accepted, translated
without a null pointer, and an entry without permissions admits the third-party clients. -/
structure SafelyTuned (entry : Entry) (info : SignalInfo) : Prop where
  verify : ∀ (registry : SignalRegistry) (clients : ClientDataManager) (signal : Signal),
    registry.getSignalConfigById signal.mSignalCode signal.mSignalType = some info →
    SignalHandler.VerifyIncomingRequest registry clients signal ≠ .error .nullDereference
  translate : ∀ (registry : SignalRegistry) (clients : ClientDataManager) (signal signal' : Signal)
    (blocks : TranslationBlocks) (ptr : Nat),
    registry.getSignalConfigById signal.mSignalCode signal.mSignalType = some info →
    SignalHandler.VerifyIncomingRequest registry clients signal = .ok (some signal') →
    createResourceTuningRequest registry signal' blocks ptr ≠ .error .nullDereference
  default : entry.elements .Permissions = [] →
    ∀ (registry : SignalRegistry) (clients : ClientDataManager) (signal : Signal)
      (clientPermissions : Permissions),
    registry.getSignalConfigById signal.mSignalCode signal.mSignalType = some info →
    clients.getClientLevelByClientID signal.mClientPID = some clientPermissions →
    REQ_PRIORITY_HIGH ≤ signal.getPriority → signal.getPriority ≤ REQ_PRIORITY_LOW →
    ((∃ signal', SignalHandler.VerifyIncomingRequest registry clients signal = .ok (some signal')) ↔
      clientPermissions = .PERMISSION_THIRD_PARTY)

/-! ## The lists of a registered signal -/

theorem listed_eq_none {α : Type} {elements : List α} : listed elements = none ↔ elements = [] := by
  cases elements with
  | nil => exact iff_of_true rfl rfl
  | cons element elements => exact iff_of_false nofun nofun

theorem ne_nil_of_listed {α : Type} {elements elements' : List α}
    (h : listed elements = some elements') : elements' ≠ [] := by
  cases elements with
  | nil => cases h
  | cons element elements =>
    obtain rfl := Option.some.inj h
    exact List.cons_ne_nil _ _

theorem length_mapM {τ α : Type} {f : τ → Option α} {texts : List τ} {values : List α}
    (h : texts.mapM f = some values) : values.length = texts.length := by
  induction texts generalizing values with
  | nil =>
    obtain rfl : [] = values := Option.some.inj h
    rfl
  | cons text texts ih =>
    rw [List.mapM_cons] at h
    obtain ⟨value, -, h⟩ := Option.bind_eq_some_iff.mp h
    obtain ⟨rest, hrest, h⟩ := Option.bind_eq_some_iff.mp h
    obtain rfl : value :: rest = values := Option.some.inj h
    rw [List.length_cons, List.length_cons, ih hrest]

/-- The permission list is null when the entry gives no permission. -/
theorem mPermissions_eq_none {entry : Entry} {info : SignalInfo} (h : entry.Describes info) :
    info.mPermissions = none ↔ entry.elements .Permissions = [] := by
  obtain ⟨permissions, hread, hlisted⟩ := h.lists.permissions
  have hlength := length_mapM hread
  rw [hlisted, listed_eq_none, ← List.length_eq_zero_iff, hlength, List.length_eq_zero_iff]
  rfl

/-- The resource list is null when the entry gives no resource. -/
theorem mSignalResources_eq_none {entry : Entry} {info : SignalInfo} (h : entry.Describes info) :
    info.mSignalResources = none ↔ entry.items = [] := by
  obtain ⟨resources, hdescribes, hlisted⟩ := h.lists.resources
  have hlength := hdescribes.length_eq
  rw [hlisted, listed_eq_none, List.map_eq_nil_iff, ← List.length_eq_zero_iff, ← hlength,
    List.length_eq_zero_iff]
  rfl

/-! ## The signal path -/

/-- The verifier of a signal of a known client with a priority a client may ask for. -/
theorem verify_eq {registry : SignalRegistry} {clients : ClientDataManager} {signal : Signal}
    {info : SignalInfo} {clientPermissions : Permissions}
    (hinfo : registry.getSignalConfigById signal.mSignalCode signal.mSignalType = some info)
    (hclient : clients.getClientLevelByClientID signal.mClientPID = some clientPermissions)
    (hhigh : REQ_PRIORITY_HIGH ≤ signal.getPriority) (hlow : signal.getPriority ≤ REQ_PRIORITY_LOW) :
    match info.mPermissions with
    | none => SignalHandler.VerifyIncomingRequest registry clients signal = .error .nullDereference
    | some permissions =>
      (∃ signal', SignalHandler.VerifyIncomingRequest registry clients signal = .ok (some signal')) ↔
        clientPermissions ∈ permissions := by
  have hallowed : SignalHandler.getRequestPriority clientPermissions signal.getPriority ≠ -1 := by
    have hp : signal.getPriority = 0 ∨ signal.getPriority = 1 := by
      simp only [REQ_PRIORITY_LOW, REQ_PRIORITY_HIGH] at hlow hhigh
      omega
    rcases hp with hp | hp <;> rw [hp] <;> cases clientPermissions <;> decide
  have hrange : ¬ (signal.getPriority > REQ_PRIORITY_LOW ∨ signal.getPriority < REQ_PRIORITY_HIGH) := by
    omega
  unfold SignalHandler.VerifyIncomingRequest
  simp only [hinfo, hclient, if_neg hrange]
  rw [if_neg hallowed]
  cases info.mPermissions with
  | none => rfl
  | some permissions =>
    by_cases hmem : clientPermissions ∈ permissions
    · simp [hmem]
    · simp [hmem]

/-- Only the permission list can be null there. -/
theorem mPermissions_of_verify {registry : SignalRegistry} {clients : ClientDataManager}
    {signal : Signal} {info : SignalInfo}
    (hinfo : registry.getSignalConfigById signal.mSignalCode signal.mSignalType = some info)
    (hfault : SignalHandler.VerifyIncomingRequest registry clients signal = .error .nullDereference) :
    info.mPermissions = none := by
  unfold SignalHandler.VerifyIncomingRequest at hfault
  simp only [hinfo] at hfault
  split at hfault
  · cases hfault
  split at hfault
  · cases hfault
  split at hfault
  · cases hfault
  split at hfault
  · assumption
  · split at hfault <;> cases hfault

theorem fillPlaceholders_ne_null (signal : Signal) (js : List Nat) (resource : Resource)
    (listIndex : Nat) : fillPlaceholders signal js resource listIndex ≠ .error .nullDereference := by
  induction js generalizing resource listIndex with
  | nil => exact nofun
  | cons j js ih =>
    rw [fillPlaceholders]
    split
    · split
      · exact nofun
      · split
        · split
          · exact nofun
          · exact ih _ _
        · exact nofun
    · exact ih _ _

theorem addSignalResources_ne_null (signal : Signal) (blocks : TranslationBlocks) (ptr : Nat)
    (locks : List (Option Resource)) (i listIndex : Nat) (request : Request) :
    addSignalResources signal blocks ptr locks i listIndex request ≠ .error .nullDereference := by
  induction locks generalizing i listIndex request with
  | nil =>
    intro h
    cases h
  | cons lock locks ih =>
    cases lock with
    | none => exact ih _ _ _
    | some lock =>
      rw [addSignalResources]
      split
      · intro h
        cases h
      cases hfill : fillPlaceholders signal (List.range lock.getValuesCount.toNat) lock listIndex with
      | error fault =>
        intro h
        obtain rfl : fault = .nullDereference := Except.error.inj h
        exact fillPlaceholders_ne_null _ _ _ _ hfill
      | ok filled =>
        cases filled with
        | none =>
          intro h
          cases h
        | some filled =>
          obtain ⟨resource, listIndex⟩ := filled
          show (if _ then _ else _) ≠ _
          split
          · intro h
            cases h
          · exact ih _ _ _

/-- Only the resource list can be null there. -/
theorem translate_eq_null_iff {registry : SignalRegistry} {signal : Signal} {info : SignalInfo}
    {blocks : TranslationBlocks} {ptr : Nat}
    (hinfo : registry.getSignalConfigById signal.mSignalCode signal.mSignalType = some info) :
    createResourceTuningRequest registry signal blocks ptr = .error .nullDereference ↔
      blocks.request ∧ info.mSignalResources = none := by
  unfold createResourceTuningRequest
  simp only [hinfo]
  cases hblock : blocks.request with
  | false => simp
  | true =>
    cases info.mSignalResources with
    | none => simp
    | some locks => simpa using addSignalResources_ne_null _ _ _ _ _ _ _

/-! ## The law -/

/-- The message of a client that asks for high priority. -/
def namingMessage : Message where
  mReqType := .REQ_SIGNAL_TUNING
  mHandle := 1
  mDuration := 1
  mProperties := 0
  mClientPID := 1
  mClientTID := 1

/-- The message, naming a signal. -/
def signalNaming (info : SignalInfo) : Signal where
  toMessage := namingMessage
  mSignalCode := info.code
  mSignalType := info.mSigType
  mNumArgs := 0
  mListArgs := none

/-- The registry that the parser leaves for a signal alone. -/
def registryWith (info : SignalInfo) : SignalRegistry := .ofEntries [⟨some info, false⟩]

/-- The verifier of the message there. -/
theorem verify_signalNaming {info : SignalInfo} (hcategory : info.mSignalCategory ≠ 0)
    (level : Permissions) :
    match info.mPermissions with
    | none => SignalHandler.VerifyIncomingRequest (registryWith info)
        (ResourceTuner.Sample.clients level) (signalNaming info) = .error .nullDereference
    | some permissions =>
      (∃ signal', SignalHandler.VerifyIncomingRequest (registryWith info)
        (ResourceTuner.Sample.clients level) (signalNaming info) = .ok (some signal')) ↔
          level ∈ permissions := by
  have hclient : (ResourceTuner.Sample.clients level).getClientLevelByClientID
      namingMessage.mClientPID = some level := by
    cases level <;> decide
  have hhigh : REQ_PRIORITY_HIGH ≤ namingMessage.getPriority := by decide
  have hlow : namingMessage.getPriority ≤ REQ_PRIORITY_LOW := by decide
  exact verify_eq (SignalRegistry.getSignalConfigById_single hcategory) hclient hhigh hlow

/-- **When a registered signal can be tuned safely.**  The signal path keeps off null pointers, and the
default of the permissions is what it is said to be, exactly for the entries that give at least one
permission and at least one resource. -/
theorem safelyTuned_iff {targetName : String} {entry : Entry} {info : SignalInfo}
    (hbuilt : entry.built targetName = some info) (hcategory : info.mSignalCategory ≠ 0) :
    SafelyTuned entry info ↔ entry.elements .Permissions ≠ [] ∧ entry.items ≠ [] := by
  have hdescribes := describes_of_built hbuilt
  constructor
  · intro h
    have hfound : (registryWith info).getSignalConfigById (signalNaming info).mSignalCode
        (signalNaming info).mSignalType = some info :=
      SignalRegistry.getSignalConfigById_single hcategory
    cases hpermissions : info.mPermissions with
    | none =>
      have hfault := verify_signalNaming hcategory .PERMISSION_SYSTEM
      rw [hpermissions] at hfault
      exact absurd hfault (h.verify _ _ _ hfound)
    | some permissions =>
      have hgiven : entry.elements .Permissions ≠ [] := by
        intro hnil
        rw [(mPermissions_eq_none hdescribes).mpr hnil] at hpermissions
        cases hpermissions
      refine ⟨hgiven, fun hnil => ?_⟩
      -- a client with one of the permissions is admitted, and the translation fails
      obtain ⟨permissions', -, hlisted⟩ := hdescribes.lists.permissions
      rw [hpermissions] at hlisted
      obtain ⟨level, hlevel⟩ := List.exists_mem_of_ne_nil _ (ne_nil_of_listed hlisted.symm)
      have hadmits := verify_signalNaming hcategory level
      rw [hpermissions] at hadmits
      obtain ⟨signal', hverify⟩ := hadmits.mpr hlevel
      obtain ⟨-, hcode, htype, -⟩ := of_signal_verify hverify
      refine h.translate _ _ _ _ ResourceTuner.Sample.blocks 0 hfound hverify ((translate_eq_null_iff ?_).mpr
        ⟨rfl, (mSignalResources_eq_none hdescribes).mpr hnil⟩)
      rw [hcode, htype]
      exact hfound
  · rintro ⟨hpermissions, hitems⟩
    refine ⟨?_, ?_, fun hnil => absurd hnil hpermissions⟩
    · intro registry clients signal hinfo hfault
      exact hpermissions ((mPermissions_eq_none hdescribes).mp (mPermissions_of_verify hinfo hfault))
    · intro registry clients signal signal' blocks ptr hinfo hverify hfault
      obtain ⟨-, hcode, htype, -⟩ := of_signal_verify hverify
      rw [← hcode, ← htype] at hinfo
      obtain ⟨-, hnone⟩ := (translate_eq_null_iff hinfo).mp hfault
      exact hitems ((mSignalResources_eq_none hdescribes).mp hnone)

namespace Sample

/-- The signal of the sample entry. -/
def entryInfo : SignalInfo where
  mSignalCategory := 2
  mSignalID := 1
  mSigType := 0
  mTimeout := 1
  mPermissions := some [.PERMISSION_SYSTEM, .PERMISSION_THIRD_PARTY]
  mSignalResources := some [some (.ofValues 0x40000 0 0 [-1, 7])]

/-- A signal that leaves the permissions to the default. -/
def openEntry : Entry where
  opened := .all
  fields := [.scalar .SigId (datum "1" (by decide)), .scalar .Category (datum "2" isKey_two)]

def openInfo : SignalInfo where
  mSignalCategory := 2
  mSignalID := 1
  mSigType := 0
  mTimeout := 1
  mPermissions := none
  mSignalResources := none

end Sample

/-- A signal with permissions and resources can be tuned safely. -/
theorem safelyTuned_sample : SafelyTuned Sample.entry Sample.entryInfo ↔
    Sample.entry.elements .Permissions ≠ [] ∧ Sample.entry.items ≠ [] :=
  @safelyTuned_iff "target" _ _ (by decide) (by decide)

/-- **A signal without permissions brings the server down.**  It is registered, and the first message
that names it makes the verifier read the list that was never made. -/
theorem openEntry_unsafe : Sample.openEntry.built "target" = some Sample.openInfo ∧
    Sample.openInfo.mSignalCategory ≠ 0 ∧ ¬ SafelyTuned Sample.openEntry Sample.openInfo := by
  have hcategory : Sample.openInfo.mSignalCategory ≠ 0 := by decide
  refine ⟨by decide, hcategory, fun h => ?_⟩
  have hfound : (registryWith Sample.openInfo).getSignalConfigById
      (signalNaming Sample.openInfo).mSignalCode (signalNaming Sample.openInfo).mSignalType =
        some Sample.openInfo := SignalRegistry.getSignalConfigById_single hcategory
  have hfault : SignalHandler.VerifyIncomingRequest (registryWith Sample.openInfo)
      (ResourceTuner.Sample.clients .PERMISSION_SYSTEM) (signalNaming Sample.openInfo) =
        .error .nullDereference := verify_signalNaming hcategory .PERMISSION_SYSTEM
  exact h.verify _ _ _ hfound hfault

end ResourceTuner.RestuneParser
