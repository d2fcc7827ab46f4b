import ResourceTuner.Init.ResourceParser
import ResourceTuner.Lib.StickyError

/-!
# The entries of a resource file

What the parser registers for a file, against what it would register for each of its entries by itself.
An entry that is not in order leaves its error code behind, and no entry after it is registered.

* **`registered`** — the configurations of a file;
* **`Entry.config`**, **`Entry.Fails`** — an entry by itself;
* **`entryWise_iff`** — when a file is its entries.
-/

namespace ResourceTuner.ResourceParser

open RestuneParser (Event ErrCode Grants runCalls)
open EventLoop (Reaches)

/-! ## Registration -/

/-- What the registry does not drop. -/
def accepted (config : Option ResourceConfig) : Option ResourceConfig :=
  config.filter fun config => config.conf.mResourceResType ≠ 0

/-- The registry after some calls of `registerResource`. -/
def registerAll (reg : ResourceRegistry) (target : TargetRegistry) (totalCoreCount : Nat)
    (readFromFile : String → String) (isBuSpecified : Bool) (configs : List (Option ResourceConfig)) :
    ResourceRegistry :=
  configs.foldl (fun reg config =>
    reg.register ⟨config.map ResourceConfig.conf, isBuSpecified, target, totalCoreCount, readFromFile⟩) reg

/-- Only the accepted ones count. -/
theorem registerAll_accepted (reg : ResourceRegistry) (target : TargetRegistry) (totalCoreCount : Nat)
    (readFromFile : String → String) (isBuSpecified : Bool) (configs : List (Option ResourceConfig)) :
    registerAll reg target totalCoreCount readFromFile isBuSpecified configs =
      registerAll reg target totalCoreCount readFromFile isBuSpecified
        ((configs.filterMap accepted).map some) := by
  induction configs generalizing reg with
  | nil => rfl
  | cons config configs ih =>
    rw [registerAll, List.foldl_cons, ← registerAll, ih]
    cases config with
    | none => rfl
    | some config =>
      by_cases htype : config.conf.mResourceResType = 0
      · have hdropped : accepted (some config) = none :=
          if_neg (by rw [decide_eq_true_eq]; exact not_not.mpr htype)
        rw [List.filterMap_cons_none hdropped]
        congr 1
        simp only [ResourceRegistry.register, Option.map_some, ResourceRegistry.registerResource,
          if_pos htype]
      · have hkept : accepted (some config) = some config := if_pos (decide_eq_true htype)
        rw [List.filterMap_cons_some hkept, List.map_cons]
        rfl

/-- The configurations that a file registers. -/
def registered (host : Host) (events : List Event) : List ResourceConfig :=
  match parseResourceConfigYamlNode host events with
  | .returned (_, configs) => configs.filterMap accepted
  | _ => []

/-- The file registers what its entries would by themselves. -/
def EntryWise (host : Host) (entries : List Entry) : Prop :=
  registered host (document entries) = entries.flatMap fun entry => registered host (document [entry])

/-! ## Entries by themselves -/

/-- An entry leaves an error, or the parser returns before it. -/
def Entry.Fails (host : Host) (entry : Entry) : Prop :=
  entry.opened.builder = false ∨ (entry.run host .RC_SUCCESS).1 ≠ .RC_SUCCESS

instance (host : Host) : DecidablePred (Entry.Fails host) := fun entry =>
  inferInstanceAs (Decidable (entry.opened.builder = false ∨ _ ≠ _))

/-- The configuration of an entry. -/
def Entry.config (host : Host) (entry : Entry) : Option ResourceConfig :=
  if entry.opened.builder then accepted (finish (entry.run host .RC_SUCCESS)) else none

/-- The calls of `registerResource` for some entries, with the error code after them. -/
def results (host : Host) : ErrCode → List Entry → ErrCode × List (Option ResourceConfig)
  | rc, [] => (rc, [])
  | rc, entry :: entries =>
    if entry.opened.builder then
      ((results host (entry.run host rc).1 entries).1,
        finish (entry.run host rc) :: (results host (entry.run host rc).1 entries).2)
    else (.RC_YAML_PARSING_ERROR, [])

section Files

variable (host : Host)

/-- The events behind the first entry boundary. -/
theorem run_entries (entries : List Entry) (configs : List (Option ResourceConfig)) (rc : ErrCode)
    {base : List String} (hbase : base ≠ []) :
    EventLoop.run (step host) (fun s => (.RC_YAML_PARSING_ERROR, s.registered))
        (betweenEntries configs base rc) (entries.flatMap Entry.events ++ closing) =
      .returned ((results host rc entries).1, configs ++ (results host rc entries).2) := by
  induction entries generalizing configs rc base with
  | nil =>
    obtain ⟨topKey, base, rfl⟩ := List.exists_cons_of_ne_nil hbase
    rw [results, List.append_nil]
    rfl
  | cons entry entries ih =>
    rw [List.flatMap_cons, List.append_assoc, results]
    cases hbuilder : entry.opened.builder with
    | true =>
      obtain ⟨above, hentry⟩ := reaches_entry host configs rc base hbuilder
      rw [EventLoop.run_of_reaches hentry, ih _ _ (by simp [hbase]), List.append_assoc]
      rfl
    | false =>
      have hstart := step_mappingStart_unallocated host configs rc base hbuilder
      rw [Entry.events, Entry.content, List.cons_append, List.cons_append,
        EventLoop.run_cons_returned hstart, if_neg nofun, List.append_nil]

theorem parse_document (entries : List Entry) :
    parseResourceConfigYamlNode host (document entries) =
      .returned (results host .RC_SUCCESS entries) := by
  have hopening : Reaches (step host) .initial opening
      (betweenEntries [] [RESOURCE_CONFIGS_ROOT] .RC_SUCCESS) :=
    .cons rfl (.cons rfl (.cons rfl (.cons rfl (.cons rfl (.nil _)))))
  rw [parseResourceConfigYamlNode, document, EventLoop.run_of_reaches hopening,
    run_entries host entries [] .RC_SUCCESS (List.cons_ne_nil _ _), List.nil_append]

/-! ## Files -/

/-- After an error nothing is registered any more. -/
theorem accepted_finish {made : ErrCode × ResourceConfigInfoBuilder} (h : made.1 ≠ .RC_SUCCESS) :
    accepted (finish made) = none := by
  have hzero : Numerals.stoi 0 "0" = some 0 := by decide
  obtain ⟨rc, config, count⟩ := made
  rw [finish, if_pos (.inl h)]
  cases config with
  | none => rfl
  | some config =>
    simp only [ResourceConfigInfoBuilder.setResType, ResourceConfigInfoBuilder.setNumber, hzero]
    rfl

theorem filterMap_results {rc : ErrCode} (h : rc ≠ .RC_SUCCESS) (entries : List Entry) :
    (results host rc entries).2.filterMap accepted = [] := by
  induction entries with
  | nil => rfl
  | cons entry entries ih =>
    have hrun : (entry.run host rc).1 = rc := by
      rw [Entry.run, RestuneParser.runCalls_of_ne _ h]
    rw [results]
    split
    · rw [hrun, List.filterMap_cons_none (accepted_finish (hrun.symm ▸ h))]
      exact ih
    · rfl

/-- A file registers its entries up to the first one that fails. -/
theorem registered_document (entries : List Entry) :
    registered host (document entries) =
      StickyError.kept (Entry.Fails host) (Entry.config host) entries := by
  rw [registered, parse_document]
  show (results host .RC_SUCCESS entries).2.filterMap accepted = _
  induction entries with
  | nil => rfl
  | cons entry entries ih =>
    rw [results, StickyError.kept, Entry.config]
    cases hbuilder : entry.opened.builder with
    | false =>
      have hfails : entry.Fails host := .inl hbuilder
      exact (if_pos hfails).symm
    | true =>
      have hcons : (finish (entry.run host .RC_SUCCESS) ::
          (results host (entry.run host .RC_SUCCESS).1 entries).2).filterMap accepted =
          (accepted (finish (entry.run host .RC_SUCCESS))).toList ++
            (results host (entry.run host .RC_SUCCESS).1 entries).2.filterMap accepted := by
        rw [List.filterMap_cons]
        cases accepted (finish (entry.run host .RC_SUCCESS)) <;> rfl
      simp only [if_true]
      rw [hcons]
      congr 1
      by_cases hok : (entry.run host .RC_SUCCESS).1 = .RC_SUCCESS
      · have hfails : ¬ entry.Fails host := by
          rintro (hnone | hne)
          · rw [hbuilder] at hnone
            cases hnone
          · exact hne hok
        rw [if_neg hfails, hok, ih]
      · have hfails : entry.Fails host := .inr hok
        rw [if_pos hfails, filterMap_results host hok]

theorem registered_single (entry : Entry) :
    registered host (document [entry]) = (entry.config host).toList := by
  rw [registered_document, StickyError.kept, StickyError.kept, ite_self, List.append_nil]

/-- **A file is its entries** exactly when no entry behind one that fails has a configuration. -/
theorem entryWise_iff (entries : List Entry) : EntryWise host entries ↔
    entries.Pairwise fun entry later => entry.Fails host → later.config host = none := by
  have hsingle : (entries.flatMap fun entry => registered host (document [entry])) =
      entries.filterMap (Entry.config host) := by
    rw [List.filterMap_eq_flatMap_toList]
    exact List.flatMap_congr fun entry _ => registered_single host entry
  rw [EntryWise, hsingle, registered_document, StickyError.kept_eq_filterMap_iff]

end Files

end ResourceTuner.ResourceParser
