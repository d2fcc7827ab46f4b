import ResourceTuner.Init.InitParser
import ResourceTuner.Init.ResourceEntries

/-!
# The entries of an init file

What the parser registers for a file of cgroups, mpam groups and caches, against what it would register
for each of its entries by itself.  It shares the error code of its sibling for resources: an entry that
is not in order leaves it behind, and no entry after it is registered.

* **`registered`** — what a file registers;
* **`Entry.registration`**, **`Entry.Fails`** — an entry by itself;
* **`entryWise_iff`** — when a file is its entries;
* **`files_entryWise_iff`** — both kinds of files.
-/

namespace ResourceTuner.InitParser

open RestuneParser (Event ErrCode Grants isKey addToBuilder)
open EventLoop (Reaches)

/-- What a file registers. -/
def registered (events : List Event) : List InitRegistration :=
  match parseInitConfigYamlNode events with
  | .returned (_, registrations) => registrations.filter InitRegistration.taken
  | _ => []

/-- The document of one entry. -/
def single (listed : Section × Entry) : Document := [[(listed.1, [listed.2])]]

/-- The file registers what its entries would by themselves. -/
def EntryWise (doc : Document) : Prop :=
  registered (document doc) = (entriesOf doc).flatMap fun listed => registered (document (single listed))

/-! ## Entries by themselves -/

/-- An entry leaves an error, or the parser returns before it. -/
def Fails (listed : Section × Entry) : Prop :=
  listed.2.opened.builder = false ∨ (listed.2.run listed.1 .RC_SUCCESS).1 ≠ .RC_SUCCESS

instance : DecidablePred Fails := fun listed =>
  inferInstanceAs (Decidable (listed.2.opened.builder = false ∨ _ ≠ _))

/-- What an entry registers. -/
def registration (listed : Section × Entry) : Option InitRegistration :=
  if listed.2.opened.builder then
    (some (Builder.finish (listed.2.run listed.1 .RC_SUCCESS))).filter InitRegistration.taken
  else none

/-- No value in the document is the name of a key. -/
def Plain (doc : Document) : Prop := ∀ listed ∈ entriesOf doc, listed.2.Plain

/-- How far some entries bring the loop: whether it goes on, the error code, and the calls of the
registry. -/
structure Progress where
  running : Bool
  rc : ErrCode
  registrations : List InitRegistration

def results : ErrCode → List (Section × Entry) → Progress
  | rc, [] => ⟨true, rc, []⟩
  | rc, listed :: rest =>
    if listed.2.opened.builder then
      let later := results (listed.2.run listed.1 rc).1 rest
      { later with
        registrations := Builder.finish (listed.2.run listed.1 rc) :: later.registrations }
    else ⟨false, .RC_MEMORY_ALLOCATION_FAILURE, []⟩

/-- The loop from there on. -/
def resume (registrations : List InitRegistration) (base : List String) (rest : List Event)
    (progress : Progress) : Outcome :=
  if progress.running then
    EventLoop.run step (fun s => (.RC_YAML_PARSING_ERROR, s.registered))
      (betweenEntries (registrations ++ progress.registrations) base progress.rc) rest
  else .returned (progress.rc, registrations ++ progress.registrations)

/-- Some events are the entries that they contain. -/
def Contains (base : List String) (events : List Event) (entries : List (Section × Entry)) : Prop :=
  ∀ registrations rc rest,
    EventLoop.run step (fun s => (.RC_YAML_PARSING_ERROR, s.registered))
        (betweenEntries registrations base rc) (events ++ rest) =
      resume registrations base rest (results rc entries)

section Files

variable {base : List String}

theorem contains_nil : Contains base [] [] := by
  intro registrations rc rest
  rw [results, resume, if_pos rfl, List.append_nil]
  rfl

theorem results_append (rc : ErrCode) (entries entries' : List (Section × Entry)) :
    results rc (entries ++ entries') =
      if (results rc entries).running then
        let later := results (results rc entries).rc entries'
        { later with registrations := (results rc entries).registrations ++ later.registrations }
      else results rc entries := by
  induction entries generalizing rc with
  | nil => rfl
  | cons listed entries ih =>
    rw [List.cons_append, results, results]
    cases listed.2.opened.builder with
    | false => rfl
    | true =>
      simp only [if_true, ih]
      generalize results (listed.2.run listed.1 rc).1 entries = progress
      obtain ⟨running, rc', registrations⟩ := progress
      cases running <;> rfl

theorem Contains.append {events events' : List Event} {entries entries' : List (Section × Entry)}
    (h : Contains base events entries) (h' : Contains base events' entries') :
    Contains base (events ++ events') (entries ++ entries') := by
  intro registrations rc rest
  rw [List.append_assoc, h, results_append]
  generalize results rc entries = progress
  obtain ⟨running, rc', registrations'⟩ := progress
  cases running with
  | false => rfl
  | true =>
    simp only [resume, if_true]
    rw [h', resume, List.append_assoc]

theorem Contains.flatMap {α : Type} {items : List α} {events : α → List Event}
    {entries : α → List (Section × Entry)} (h : ∀ item ∈ items, Contains base (events item) (entries item)) :
    Contains base (items.flatMap events) (items.flatMap entries) := by
  induction items with
  | nil => exact contains_nil
  | cons item items ih =>
    rw [List.forall_mem_cons] at h
    exact h.1.append (ih h.2)

theorem contains_entry (list : Section) {entry : Entry} (hplain : entry.Plain) :
    Contains (list.text :: base) entry.events [(list, entry)] := by
  intro registrations rc rest
  rw [results, results]
  cases hbuilder : entry.opened.builder with
  | true =>
    rw [EventLoop.run_of_reaches (reaches_entry registrations base rc list hbuilder hplain)]
    rfl
  | false =>
    have hstart := step_mappingStart registrations base rc list entry.opened
    rw [if_neg (by rw [hbuilder]; exact Bool.false_ne_true)] at hstart
    rw [Entry.events, List.cons_append, EventLoop.run_cons_returned hstart, resume]
    simp only [Bool.false_eq_true, if_false, List.append_nil]

/-- A list is its entries. -/
theorem contains_list {list : Section × List Entry} (hplain : ∀ entry ∈ list.2, entry.Plain) :
    Contains base (listEvents list) (list.2.map fun entry => (list.1, entry)) := by
  have hentries : Contains (list.1.text :: base) (list.2.flatMap Entry.events)
      (list.2.map fun entry => (list.1, entry)) := by
    rw [List.map_eq_flatMap]
    exact Contains.flatMap fun entry hentry => contains_entry list.1 (hplain entry hentry)
  intro registrations rc rest
  have hkey : step (betweenEntries registrations base rc) (item list.1.text) =
      .running (betweenEntries registrations (list.1.text :: base) rc) := by
    have hhear : RestuneParser.hear base list.1.text = .key (list.1.text :: base) :=
      RestuneParser.hear_key (isKey_section list.1)
    simp only [step, item, betweenEntries, hhear]
  have hstart : step (betweenEntries registrations (list.1.text :: base) rc) .sequenceStart =
      .running (betweenEntries registrations (list.1.text :: base) rc) := rfl
  rw [listEvents, List.cons_append, EventLoop.run_cons_running hkey, List.cons_append,
    EventLoop.run_cons_running hstart, List.append_assoc, hentries, resume, resume]
  split
  · rfl
  · rfl

/-- A mapping under the root is its lists. -/
theorem contains_mapping {lists : List (Section × List Entry)}
    (hplain : ∀ list ∈ lists, ∀ entry ∈ list.2, entry.Plain) :
    Contains [INIT_CONFIGS_ROOT] (mappingEvents lists)
      (lists.flatMap fun list => list.2.map fun entry => (list.1, entry)) := by
  have hlists : Contains [INIT_CONFIGS_ROOT] (lists.flatMap listEvents)
      (lists.flatMap fun list => list.2.map fun entry => (list.1, entry)) :=
    Contains.flatMap fun list hlist => contains_list (hplain list hlist)
  intro registrations rc rest
  have hstart : step (betweenEntries registrations [INIT_CONFIGS_ROOT] rc) (.mappingStart .all) =
      .running (betweenEntries registrations [INIT_CONFIGS_ROOT] rc) := rfl
  rw [mappingEvents, List.cons_append, EventLoop.run_cons_running hstart, List.append_assoc, hlists,
    resume, resume]
  split
  · rfl
  · rfl

theorem parse_document {doc : Document} (hplain : Plain doc) :
    parseInitConfigYamlNode (document doc) = .returned
      ((results .RC_SUCCESS (entriesOf doc)).rc, (results .RC_SUCCESS (entriesOf doc)).registrations) := by
  have hdoc : Contains [INIT_CONFIGS_ROOT] (doc.flatMap mappingEvents) (entriesOf doc) := by
    refine Contains.flatMap fun lists hlists => contains_mapping fun list hlist entry hentry => ?_
    exact hplain (list.1, entry) (List.mem_flatMap.mpr ⟨lists, hlists, List.mem_flatMap.mpr
      ⟨list, hlist, List.mem_map.mpr ⟨entry, hentry, rfl⟩⟩⟩)
  have hopening : Reaches step .initial
      [.streamStart, .documentStart, .mappingStart .all, item INIT_CONFIGS_ROOT, .sequenceStart]
      (betweenEntries [] [INIT_CONFIGS_ROOT] .RC_SUCCESS) :=
    .cons rfl (.cons rfl (.cons rfl (.cons rfl (.cons rfl (.nil _)))))
  rw [parseInitConfigYamlNode, document, EventLoop.run_of_reaches hopening, hdoc, resume,
    List.nil_append]
  split
  · rfl
  · rfl

/-! ## Files -/

/-- After an error nothing is taken any more. -/
theorem taken_finish {made : ErrCode × Builder} (h : made.1 ≠ .RC_SUCCESS) :
    (Builder.finish made).taken = false := by
  have hminus : Numerals.stoi 10 "-1" = some (-1) := by decide
  obtain ⟨rc, builder⟩ := made
  cases builder with
  | cGroup builder =>
    obtain ⟨config⟩ := builder
    show (finishCGroup rc ⟨config⟩).taken = false
    rw [finishCGroup, if_neg h]
    cases config with
    | none => rfl
    | some config =>
      simp only [CGroupConfigInfoBuilder.setCGroupID, CGroupConfigInfoBuilder.withConfig, onObject,
        setIfNumber, hminus]
      rfl
  | mpamGroup builder =>
    obtain ⟨info⟩ := builder
    show (finishMpamGroup rc ⟨info⟩).taken = false
    rw [finishMpamGroup, if_neg h]
    cases info with
    | none => rfl
    | some info =>
      simp only [MpamGroupConfigInfoBuilder.setLgcID, MpamGroupConfigInfoBuilder.withInfo, onObject,
        setIfNumber, hminus]
      rfl
  | cache builder =>
    obtain ⟨info⟩ := builder
    show (finishCache rc ⟨info⟩).taken = false
    rw [finishCache, if_neg h]
    cases info with
    | none => rfl
    | some info =>
      simp only [CacheInfoBuilder.setNumBlocks, CacheInfoBuilder.setType, CacheInfoBuilder.withInfo,
        onObject, setIfNumber, hminus]
      rfl

/-- An error stays. -/
theorem rc_run {rc : ErrCode} (h : rc ≠ .RC_SUCCESS) (list : Section) (entry : Entry) :
    (entry.run list rc).1 = rc := by
  have hcall : ∀ made field, made.1 = rc → (Builder.call made field).1 = rc := by
    rintro ⟨rc', builder⟩ field rfl
    have hkeep : ∀ {β : Type} (method : β → ErrCode × β) (builder : β),
        (addToBuilder method (rc', builder)).1 = rc' := by
      intro β method builder
      have hmade : ((rc', builder) : ErrCode × β).1 ≠ .RC_SUCCESS := h
      rw [RestuneParser.addToBuilder_of_ne hmade]
    unfold Builder.call
    cases builder with
    | cGroup builder =>
      cases cGroupMethod field.1.text field.2 with
      | none => rfl
      | some method => exact hkeep method builder
    | mpamGroup builder =>
      cases mpamGroupMethod field.1.text field.2 with
      | none => rfl
      | some method => exact hkeep method builder
    | cache builder =>
      cases cacheMethod field.1.text field.2 with
      | none => rfl
      | some method => exact hkeep method builder
  have hfold : ∀ (fields : List (Key × String)) (made : ErrCode × Builder), made.1 = rc →
      (fields.foldl Builder.call made).1 = rc := by
    intro fields
    induction fields with
    | nil => exact fun _ hmade => hmade
    | cons field fields ih => exact fun made hmade => ih _ (hcall made field hmade)
  exact hfold entry.fields _ rfl

theorem filter_results {rc : ErrCode} (h : rc ≠ .RC_SUCCESS) (entries : List (Section × Entry)) :
    (results rc entries).registrations.filter InitRegistration.taken = [] := by
  induction entries with
  | nil => rfl
  | cons listed entries ih =>
    have hrun := rc_run h listed.1 listed.2
    rw [results]
    split
    · rw [hrun]
      exact (List.filter_cons_of_neg (by rw [taken_finish (hrun.symm ▸ h)]; exact Bool.false_ne_true)).trans ih
    · rfl

/-- A file registers its entries up to the first one that fails. -/
theorem registered_document {doc : Document} (hplain : Plain doc) :
    registered (document doc) = StickyError.kept Fails registration (entriesOf doc) := by
  rw [registered, parse_document hplain]
  show (results .RC_SUCCESS (entriesOf doc)).registrations.filter InitRegistration.taken = _
  induction entriesOf doc with
  | nil => rfl
  | cons listed entries ih =>
    rw [results, StickyError.kept, registration]
    cases hbuilder : listed.2.opened.builder with
    | false =>
      have hfails : Fails listed := .inl hbuilder
      exact (if_pos hfails).symm
    | true =>
      have hcons : ∀ (made : InitRegistration) (later : List InitRegistration),
          (made :: later).filter InitRegistration.taken =
            ((some made).filter InitRegistration.taken).toList ++
              later.filter InitRegistration.taken := by
        intro made later
        rw [List.filter_cons, Option.filter_some]
        split <;> rfl
      simp only [if_true]
      rw [hcons]
      congr 1
      by_cases hok : (listed.2.run listed.1 .RC_SUCCESS).1 = .RC_SUCCESS
      · have hfails : ¬ Fails listed := by
          rintro (hnone | hne)
          · rw [hbuilder] at hnone
            cases hnone
          · exact hne hok
        rw [if_neg hfails, hok, ih]
      · have hfails : Fails listed := .inr hok
        rw [if_pos hfails, filter_results hok]

theorem registered_single {listed : Section × Entry} (hplain : listed.2.Plain) :
    registered (document (single listed)) = (registration listed).toList := by
  have hentries : entriesOf (single listed) = [listed] := rfl
  have hsingle : Plain (single listed) := by
    intro other hother
    rw [hentries, List.mem_singleton] at hother
    exact hother ▸ hplain
  rw [registered_document hsingle, hentries, StickyError.kept, StickyError.kept, ite_self,
    List.append_nil]

/-- **A file is its entries** exactly when no entry behind one that fails would be registered. -/
theorem entryWise_iff {doc : Document} (hplain : Plain doc) : EntryWise doc ↔
    (entriesOf doc).Pairwise fun listed later => Fails listed → registration later = none := by
  have hsingle : ((entriesOf doc).flatMap fun listed => registered (document (single listed))) =
      (entriesOf doc).filterMap registration := by
    rw [List.filterMap_eq_flatMap_toList]
    exact List.flatMap_congr fun listed hlisted => registered_single (hplain listed hlisted)
  rw [EntryWise, hsingle, registered_document hplain, StickyError.kept_eq_filterMap_iff]

end Files

/-- **Both kinds of files.**  A resource file, and an init file none of whose values is the name of a key,
are their entries exactly when no entry behind one that fails would be registered. -/
theorem files_entryWise_iff (host : Host) (entries : List ResourceParser.Entry) {doc : Document}
    (hplain : Plain doc) :
    (ResourceParser.EntryWise host entries ↔
      entries.Pairwise fun entry later => entry.Fails host → later.config host = none) ∧
    (EntryWise doc ↔
      (entriesOf doc).Pairwise fun listed later => Fails listed → registration later = none) :=
  ⟨ResourceParser.entryWise_iff host entries, entryWise_iff hplain⟩

namespace Sample

def host : Host := ⟨"current", fun _ => none, fun _ => false⟩

/-- A resource that is not supported, and one that is in order. -/
def resources : List ResourceParser.Entry :=
  [⟨.all, [.scalar .ResType "1", .scalar .Supported "false", .list .TargetsEnabled ["current"]]⟩,
    ⟨.all, [.scalar .ResType "2", .scalar .ResID "7"]⟩]

/-- A cgroup whose id is no number, and one that is in order. -/
def cGroups : Document :=
  [[(.CgroupsInfo, [⟨.all, [(.Name, "audio"), (.ID, "seven")]⟩,
    ⟨.all, [(.Name, "video"), (.ID, "8")]⟩])]]

theorem plain_cGroups : Plain cGroups := by
  intro listed hlisted
  simp only [entriesOf, cGroups, List.flatMap_cons, List.flatMap_nil, List.map_cons, List.map_nil,
    List.append_nil, List.mem_cons, List.not_mem_nil, or_false] at hlisted
  rcases hlisted with rfl | rfl
  · exact (by decide : ∀ field ∈ [(Key.Name, "audio"), (Key.ID, "seven")], isKey field.2 = false)
  · exact (by decide : ∀ field ∈ [(Key.Name, "video"), (Key.ID, "8")], isKey field.2 = false)

end Sample

/-- An entry that is marked as unsupported, and one with a malformed value, prevent the ones behind
them. -/
theorem later_entries_lost :
    ¬ ResourceParser.EntryWise Sample.host Sample.resources ∧ ¬ EntryWise Sample.cGroups := by
  constructor
  · rw [ResourceParser.entryWise_iff]
    decide
  · rw [entryWise_iff Sample.plain_cGroups]
    decide

theorem files_entryWise_iff_sample :
    (ResourceParser.EntryWise Sample.host Sample.resources ↔
      Sample.resources.Pairwise fun entry later =>
        entry.Fails Sample.host → later.config Sample.host = none) ∧
    (EntryWise Sample.cGroups ↔
      (entriesOf Sample.cGroups).Pairwise fun listed later =>
        Fails listed → registration later = none) :=
  files_entryWise_iff Sample.host Sample.resources Sample.plain_cGroups

end ResourceTuner.InitParser
