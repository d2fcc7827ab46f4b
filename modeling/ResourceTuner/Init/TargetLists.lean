import ResourceTuner.Init.ResourceParser

/-!
# The lists of targets of a resource

A resource is marked as supported or not, and has a list of targets it is meant for and one of targets
it is not meant for.  The builder folds all three into one number: the first target decides what holds
for the targets that are in neither list, and the current one what holds from there on.  So the verdict
depends on the order of the lists.

* **`Allowed`** — what the keys say, in whatever order;
* **`Entry.taken`** — what the builder takes of an entry;
* **`mTargetRefCount_run`** — the number it leaves;
* **`targets_iff`** — when that is the verdict of the keys.
-/

namespace ResourceTuner.ResourceParser

open RestuneParser (ErrCode Grants addToBuilder runCalls)
open EventLoop (Reaches)

/-! ## What an entry says -/

/-- The values of a key among some data. -/
def values (key : String) (data : List (String × String)) : List String :=
  data.filterMap fun datum => if datum.1 = key then some datum.2 else none

/-- The resource is meant for the target. -/
structure Allowed (targetName : String) (data : List (String × String)) : Prop where
  supported : ∀ value ∈ values "Supported" data, value = "true"
  enabled : values "TargetsEnabled" data = [] ∨ targetName ∈ values "TargetsEnabled" data
  disabled : targetName ∉ values "TargetsDisabled" data

/-- The data of a field with its own key. -/
def Field.said : Field → List (String × String)
  | .scalar key value => [(key.text, value)]
  | .list key items => items.map fun value => (key.key.text, value)

def Entry.said (entry : Entry) : List (String × String) := entry.fields.flatMap Field.said

/-- The targets that are listed, in order, with the list they are in. -/
def mentions (data : List (String × String)) : List (Bool × String) :=
  data.filterMap fun datum =>
    if datum.1 = "TargetsEnabled" then some (true, datum.2)
    else if datum.1 = "TargetsDisabled" then some (false, datum.2)
    else none

/-- A target in both lists is disabled last, and for one in neither list the first target is enabled, if
any is. -/
structure InOrder (targetName : String) (data : List (String × String)) : Prop where
  both : targetName ∈ values "TargetsEnabled" data → targetName ∈ values "TargetsDisabled" data →
    ((mentions data).filter (·.2 = targetName)).getLast? = some (false, targetName)
  neither : targetName ∉ values "TargetsEnabled" data → targetName ∉ values "TargetsDisabled" data →
    values "TargetsEnabled" data ≠ [] → ∃ target, (mentions data).head? = some (true, target)

/-! ## What the builder takes -/

/-- The call for a datum succeeds on a new builder. -/
def Valid (host : Host) (datum : String × String) : Bool :=
  match resourceMethod host datum.1 datum.2 with
  | none => true
  | some method => (method (.new .all)).1 = .RC_SUCCESS

/-- The data in front of the first value that is not valid; none after an error, and none without an
object for them. -/
def Entry.taken (host : Host) (rc : ErrCode) (entry : Entry) : List (String × String) :=
  if rc = .RC_SUCCESS ∧ entry.opened.content then entry.heard.takeWhile (Valid host) else []

/-! ## The number -/

/-- The number after a target. -/
def targetStep (targetName : String) (count : Int) (target : String) (first found : Int) : Int :=
  if count = unsupportedResoure then count
  else if target = targetName then found
  else if count = 0 then first
  else count

/-- The number after a datum. -/
def countStep (targetName : String) (count : Int) (datum : String × String) : Int :=
  if datum.1 = "Supported" then if datum.2 = "true" then count else unsupportedResoure
  else if datum.1 = "TargetsEnabled" then targetStep targetName count datum.2 (-1) 1
  else if datum.1 = "TargetsDisabled" then targetStep targetName count datum.2 1 (-1)
  else count

section Count

variable {host : Host} {topKey value : String} {targetName : String}
  {method : ResourceConfigInfoBuilder → ErrCode × ResourceConfigInfoBuilder}

/-- A call that only fails for its value. -/
def Plain (method : ResourceConfigInfoBuilder → ErrCode × ResourceConfigInfoBuilder) : Prop :=
  ∃ rc call, (∀ b, method b = b.withConfig call) ∧ ∀ config, (call config).1 = rc

/-- The answer of a setter depends on the text alone. -/
theorem plain_setNumber (cleared : Int) (text : String) (set : Int → ResConfInfo → ResConfInfo) :
    Plain (·.setNumber cleared text set) := by
  cases hn : Numerals.stoi 0 text with
  | none => exact ⟨.RC_INVALID_VALUE, _, fun _ => rfl, fun _ => by simp only [hn]⟩
  | some n => exact ⟨.RC_SUCCESS, _, fun _ => rfl, fun _ => by simp only [hn]⟩

theorem plain_setChoice {α : Type} (choices : List (String × α)) (default : α) (text : String)
    (set : α → ResConfInfo → ResConfInfo) : Plain (·.setChoice choices default text set) := by
  cases hchoice : choices.lookup text with
  | some choice => exact ⟨.RC_SUCCESS, _, fun _ => rfl, fun _ => by simp only [hchoice]⟩
  | none =>
    by_cases hlength : text.length ≠ 0
    · exact ⟨.RC_INVALID_VALUE, _, fun _ => rfl, fun _ => by simp only [hchoice, if_pos hlength]⟩
    · exact ⟨.RC_SUCCESS, _, fun _ => rfl, fun _ => by simp only [hchoice, if_neg hlength]⟩

/-- The call of one of the three keys that have to do with the target, or a plain one. -/
def Sorted (host : Host) (topKey value : String)
    (method : ResourceConfigInfoBuilder → ErrCode × ResourceConfigInfoBuilder) : Prop :=
  (topKey = "Supported" ∧ method = (·.setSupported value)) ∨
    (topKey = "TargetsEnabled" ∧ method = (·.addTargetEnabled host.targetName value)) ∨
    (topKey = "TargetsDisabled" ∧ method = (·.addTargetDisabled host.targetName value)) ∨
    (Plain method ∧ topKey ≠ "Supported" ∧ topKey ≠ "TargetsEnabled" ∧ topKey ≠ "TargetsDisabled")

/-- A step of the ladder over the keys. -/
theorem sorted_of_ite {key : String}
    {first : ResourceConfigInfoBuilder → ErrCode × ResourceConfigInfoBuilder}
    {rest : Option (ResourceConfigInfoBuilder → ErrCode × ResourceConfigInfoBuilder)}
    (hfirst : topKey = key → Sorted host topKey value first)
    (hrest : ∀ method, rest = some method → Sorted host topKey value method) (method)
    (h : (if topKey = key then some first else rest) = some method) :
    Sorted host topKey value method := by
  split at h
  · rename_i hkey
    exact Option.some.inj h ▸ hfirst hkey
  · exact hrest method h

/-- A plain call under another key than the three. -/
theorem sorted_of_plain {key : String} (hplain : Plain method)
    (hne : key ≠ "Supported" ∧ key ≠ "TargetsEnabled" ∧ key ≠ "TargetsDisabled") (hkey : topKey = key) :
    Sorted host topKey value method := by
  subst hkey
  exact .inr (.inr (.inr ⟨hplain, hne⟩))

/-- All keys but three have plain calls. -/
theorem resourceMethod_cases (h : resourceMethod host topKey value = some method) :
    Sorted host topKey value method := by
  have hsuccess : ∀ call : ResourceConfig → ResourceConfig,
      Plain (·.withConfig fun config => (.RC_SUCCESS, call config)) := fun _ =>
    ⟨.RC_SUCCESS, _, fun _ => rfl, fun _ => rfl⟩
  suffices hladder : ∀ method, resourceMethod host topKey value = some method →
      Sorted host topKey value method from hladder method h
  unfold resourceMethod
  -- the type and the number
  iterate 2 refine sorted_of_ite (sorted_of_plain (plain_setNumber ..) (by decide)) ?_
  -- the name and the path
  iterate 2 refine sorted_of_ite (sorted_of_plain (hsuccess _) (by decide)) ?_
  refine sorted_of_ite (fun hkey => .inl ⟨hkey, rfl⟩) ?_
  -- the thresholds
  iterate 2 refine sorted_of_ite (sorted_of_plain (plain_setNumber ..) (by decide)) ?_
  -- permissions, policy, unit, apply type and modes
  iterate 5 refine sorted_of_ite (sorted_of_plain (plain_setChoice ..) (by decide)) ?_
  refine sorted_of_ite (fun hkey => .inr (.inl ⟨hkey, rfl⟩)) ?_
  refine sorted_of_ite (fun hkey => .inr (.inr (.inl ⟨hkey, rfl⟩))) ?_
  exact fun _ hnone => nomatch hnone

/-- What a call on an object that is there does to the number, and when it succeeds. -/
structure Counts (host : Host) (topKey value : String)
    (method : ResourceConfigInfoBuilder → ErrCode × ResourceConfigInfoBuilder) : Prop where
  count : ∀ config count, (method ⟨some config, count⟩).2.mTargetRefCount =
    countStep host.targetName count (topKey, value)
  there : ∀ config count, (method ⟨some config, count⟩).2.mResourceConfigInfo.isSome
  ok : ∀ config count, count ≠ unsupportedResoure →
    ((method ⟨some config, count⟩).1 = .RC_SUCCESS ↔ Valid host (topKey, value))
  valid : ∀ config count, (method ⟨some config, count⟩).1 = .RC_SUCCESS → Valid host (topKey, value)
  invalid : Valid host (topKey, value) = false → ∀ count,
    countStep host.targetName count (topKey, value) = count

/-- Such a setter does not count targets. -/
theorem counts_of_plain (h : resourceMethod host topKey value = some method) (hplain : Plain method)
    (hne : topKey ≠ "Supported" ∧ topKey ≠ "TargetsEnabled" ∧ topKey ≠ "TargetsDisabled") :
    Counts host topKey value method := by
  obtain ⟨rc, call, hmethod, hrc⟩ := hplain
  have hanswer : ∀ config count, (method ⟨some config, count⟩).1 = rc := by
    intro config count
    rw [hmethod]
    exact hrc config
  have hvalid : Valid host (topKey, value) = decide (rc = .RC_SUCCESS) := by
    simp only [Valid, h]
    rw [hmethod]
    exact congrArg (fun rc => decide (rc = ErrCode.RC_SUCCESS)) (hrc _)
  have hok : ∀ config count,
      ((method ⟨some config, count⟩).1 = .RC_SUCCESS ↔ Valid host (topKey, value)) := by
    intro config count
    rw [hanswer, hvalid, decide_eq_true_iff]
  have hkeep : ∀ count, countStep host.targetName count (topKey, value) = count := by
    intro count
    rw [countStep, if_neg hne.1, if_neg hne.2.1, if_neg hne.2.2]
  constructor
  · intro config count
    rw [hmethod, hkeep]
    rfl
  · intro config count
    rw [hmethod]
    rfl
  · exact fun config count _ => hok config count
  · exact fun config count => (hok config count).mp
  · exact fun _ => hkeep

/-- The two lists of targets do, one up and one down. -/
theorem counts_of_target (first found : Int) {key : String}
    (h : resourceMethod host key value = some (·.addTarget host.targetName value first found))
    (hcount : ∀ count, countStep host.targetName count (key, value) =
      targetStep host.targetName count value first found) :
    Counts host key value (·.addTarget host.targetName value first found) := by
  have hvalid : Valid host (key, value) = true := by
    simp only [Valid, h]
    rfl
  constructor
  · intro config count
    rw [hcount, ResourceConfigInfoBuilder.addTarget, if_neg nofun, targetStep]
    split
    · rfl
    · rfl
  · intro config count
    rw [ResourceConfigInfoBuilder.addTarget, if_neg nofun]
    split <;> rfl
  · intro config count hne
    rw [ResourceConfigInfoBuilder.addTarget, if_neg nofun, if_neg hne, hvalid]
    exact iff_of_true rfl rfl
  · exact fun _ _ _ => hvalid
  · exact fun hfalse => absurd (hvalid.symm.trans hfalse) nofun

/-- **Every key counts** as `countStep` says. -/
theorem counts_of_method (h : resourceMethod host topKey value = some method) :
    Counts host topKey value method := by
  rcases resourceMethod_cases h with ⟨rfl, rfl⟩ | ⟨rfl, rfl⟩ | ⟨rfl, rfl⟩ | ⟨hplain, hne⟩
  · have hok : ∀ config count,
        (ResourceConfigInfoBuilder.setSupported ⟨some config, count⟩ value).1 = .RC_SUCCESS := by
      intro config count
      rw [ResourceConfigInfoBuilder.setSupported, if_neg nofun]
      split <;> rfl
    have hvalid : Valid host ("Supported", value) = true := by
      simp only [Valid, h]
      exact decide_eq_true (hok _ _)
    constructor
    · intro config count
      rw [ResourceConfigInfoBuilder.setSupported, if_neg nofun, countStep, if_pos rfl]
      by_cases htrue : value = "true"
      · rw [if_neg (not_not.mpr htrue), if_pos htrue]
      · rw [if_pos htrue, if_neg htrue]
    · intro config count
      rw [ResourceConfigInfoBuilder.setSupported, if_neg nofun]
      split <;> rfl
    · exact fun config count _ => iff_of_true (hok config count) hvalid
    · exact fun _ _ _ => hvalid
    · exact fun hfalse => absurd (hvalid.symm.trans hfalse) nofun
  · exact counts_of_target (-1) 1 h fun _ => rfl
  · exact counts_of_target 1 (-1) h fun _ => rfl
  · exact counts_of_plain h hplain hne

/-- A resource that is unsupported stays so. -/
theorem countStep_unsupported (datum : String × String) :
    countStep targetName unsupportedResoure datum = unsupportedResoure := by
  unfold countStep
  split
  · split <;> rfl
  · split
    · rfl
    · split <;> rfl

theorem foldl_countStep_unsupported (data : List (String × String)) :
    data.foldl (countStep targetName) unsupportedResoure = unsupportedResoure := by
  induction data with
  | nil => rfl
  | cons datum data ih => rw [List.foldl_cons, countStep_unsupported, ih]

/-- A datum that is no builder's leaves the number alone. -/
theorem countStep_of_none (h : resourceMethod host topKey value = none) (count : Int) :
    countStep targetName count (topKey, value) = count := by
  have hne : ∀ key, resourceMethod host key value ≠ none → topKey ≠ key := by
    rintro key hkey rfl
    exact hkey h
  have hsupported : topKey ≠ "Supported" := hne _ (Option.ne_none_iff_exists'.mpr ⟨_, rfl⟩)
  have henabled : topKey ≠ "TargetsEnabled" := hne _ (Option.ne_none_iff_exists'.mpr ⟨_, rfl⟩)
  have hdisabled : topKey ≠ "TargetsDisabled" := hne _ (Option.ne_none_iff_exists'.mpr ⟨_, rfl⟩)
  rw [countStep, if_neg hsupported, if_neg henabled, if_neg hdisabled]

/-- The calls leave the number of the data in front of the first value that is not valid.  Where a
target is refused although it is valid, the number does not change any more. -/
theorem count_runCalls (data : List (String × String)) (config : ResourceConfig) (count : Int) :
    (runCalls (calls host data) (.RC_SUCCESS, ⟨some config, count⟩)).2.mTargetRefCount =
      (data.takeWhile (Valid host)).foldl (countStep host.targetName) count := by
  induction data generalizing config count with
  | nil => rfl
  | cons datum data ih =>
    obtain ⟨topKey, value⟩ := datum
    rw [calls, List.filterMap_cons]
    cases hmethod : resourceMethod host topKey value with
    | none =>
      have hvalid : Valid host (topKey, value) = true := by
        simp only [Valid, hmethod]
      rw [List.takeWhile_cons_of_pos hvalid, List.foldl_cons, countStep_of_none hmethod]
      exact ih config count
    | some method =>
      have hcounts := counts_of_method hmethod
      have hcall : runCalls (method :: calls host data) (.RC_SUCCESS, ⟨some config, count⟩) =
          runCalls (calls host data) (method ⟨some config, count⟩) := rfl
      show (runCalls (method :: calls host data)
        (.RC_SUCCESS, ⟨some config, count⟩)).2.mTargetRefCount = _
      rw [hcall]
      have hcount := hcounts.count config count
      obtain ⟨config', hthere⟩ := Option.isSome_iff_exists.mp (hcounts.there config count)
      have hmade : method ⟨some config, count⟩ =
          ((method ⟨some config, count⟩).1,
            ⟨some config', countStep host.targetName count (topKey, value)⟩) := by
        rw [← hcount, ← hthere]
      by_cases hok : (method ⟨some config, count⟩).1 = .RC_SUCCESS
      · rw [List.takeWhile_cons_of_pos (hcounts.valid config count hok), List.foldl_cons, hmade, hok]
        exact ih config' _
      · rw [RestuneParser.runCalls_of_ne _ hok, hcount]
        cases hvalid : Valid host (topKey, value) with
        | false =>
          rw [List.takeWhile_cons_of_neg (by rw [hvalid]; exact Bool.false_ne_true),
            hcounts.invalid hvalid]
          rfl
        | true =>
          have hunsupported : count = unsupportedResoure := by
            by_contra hne
            exact hok ((hcounts.ok config count hne).mpr hvalid)
          rw [List.takeWhile_cons_of_pos hvalid, List.foldl_cons, hunsupported,
            countStep_unsupported, foldl_countStep_unsupported]

end Count

/-! ## The verdict -/

section Verdict

variable {targetName : String} {data : List (String × String)}

/-- The number of some targets: the last one that is the current target decides, or the first of all. -/
def tally (targetName : String) (targets : List (Bool × String)) : Int :=
  match (targets.filter (·.2 = targetName)).getLast? with
  | some target => if target.1 then 1 else -1
  | none =>
    match targets.head? with
    | none => 0
    | some target => if target.1 then -1 else 1

/-- The count of targets is never the number that stands for unsupported. -/
theorem tally_ne_unsupported (targets : List (Bool × String)) :
    tally targetName targets ≠ unsupportedResoure := by
  unfold tally
  split
  · split <;> decide
  · split
    · decide
    · split <;> decide

/-- One more target. -/
theorem tally_concat (targets : List (Bool × String)) (enabling : Bool) (target : String) :
    tally targetName (targets ++ [(enabling, target)]) =
      targetStep targetName (tally targetName targets) target (if enabling then -1 else 1)
        (if enabling then 1 else -1) := by
  rw [targetStep, if_neg (tally_ne_unsupported targets)]
  by_cases htarget : target = targetName
  · have hfilter : (targets ++ [(enabling, target)]).filter (·.2 = targetName) =
        targets.filter (·.2 = targetName) ++ [(enabling, target)] := by
      simp [List.filter_append, htarget]
    rw [if_pos htarget, tally, hfilter, List.getLast?_concat]
  · have hfilter : (targets ++ [(enabling, target)]).filter (·.2 = targetName) =
        targets.filter (·.2 = targetName) := by
      simp [List.filter_append, htarget]
    rw [if_neg htarget, tally, hfilter, tally]
    cases hlast : (targets.filter (·.2 = targetName)).getLast? with
    | some last =>
      have hne : (if last.1 then (1 : Int) else -1) ≠ 0 := by split <;> decide
      exact (if_neg hne).symm
    | none =>
      cases targets with
      | nil => rfl
      | cons first targets =>
        have hne : (if first.1 then (-1 : Int) else 1) ≠ 0 := by split <;> decide
        exact (if_neg hne).symm

/-- One more value, if it is under the key. -/
theorem values_concat (key : String) (datum : String × String) :
    values key (data ++ [datum]) = values key data ++ if datum.1 = key then [datum.2] else [] := by
  rw [values, List.filterMap_append]
  congr 1
  by_cases h : datum.1 = key
  · rw [if_pos h]
    exact List.filterMap_cons_some (if_pos h)
  · rw [if_neg h]
    exact List.filterMap_cons_none (if_neg h)

theorem mentions_concat (datum : String × String) :
    mentions (data ++ [datum]) = mentions data ++
      (if datum.1 = "TargetsEnabled" then some (true, datum.2)
        else if datum.1 = "TargetsDisabled" then some (false, datum.2) else none).toList := by
  rw [mentions, List.filterMap_append]
  congr 1

/-- The number of the builder is the tally of the targets, unless the resource is not supported. -/
theorem foldl_countStep (targetName : String) (data : List (String × String)) :
    data.foldl (countStep targetName) 0 =
      if ∀ value ∈ values "Supported" data, value = "true" then tally targetName (mentions data)
      else unsupportedResoure := by
  induction data using List.reverseRecOn with
  | nil => rfl
  | append_singleton data datum ih =>
    obtain ⟨key, value⟩ := datum
    rw [List.foldl_append, List.foldl_cons, List.foldl_nil, ih, values_concat, mentions_concat]
    simp only [countStep]
    by_cases hsupported : key = "Supported"
    · subst hsupported
      have henabled : ¬ "Supported" = "TargetsEnabled" := by decide
      have hdisabled : ¬ "Supported" = "TargetsDisabled" := by decide
      rw [if_pos rfl, if_pos rfl, if_neg henabled, if_neg hdisabled, Option.toList_none,
        List.append_nil]
      by_cases htrue : value = "true"
      · simp only [htrue, if_true, List.forall_mem_append, List.forall_mem_singleton, and_true]
      · simp only [htrue, if_false, List.forall_mem_append, List.forall_mem_singleton, and_false]
    · rw [if_neg hsupported, if_neg hsupported, List.append_nil]
      by_cases henabled : key = "TargetsEnabled"
      · rw [if_pos henabled, if_pos henabled, Option.toList_some, tally_concat]
        split <;> rfl
      · rw [if_neg henabled, if_neg henabled]
        by_cases hdisabled : key = "TargetsDisabled"
        · rw [if_pos hdisabled, if_pos hdisabled, Option.toList_some, tally_concat]
          split <;> rfl
        · rw [if_neg hdisabled, if_neg hdisabled, Option.toList_none, List.append_nil]

/-! ### Against the keys -/

theorem mem_values_iff {key value : String} : value ∈ values key data ↔ (key, value) ∈ data := by
  rw [values, List.mem_filterMap]
  constructor
  · rintro ⟨datum, hmem, hdatum⟩
    split at hdatum
    · rename_i hkey
      rw [← hkey, ← Option.some.inj hdatum]
      exact hmem
    · cases hdatum
  · intro hmem
    exact ⟨(key, value), hmem, if_pos rfl⟩

/-- The targets under one of the two keys. -/
theorem mem_mentions_iff {enabling : Bool} {target : String} : (enabling, target) ∈ mentions data ↔
    target ∈ values (if enabling then "TargetsEnabled" else "TargetsDisabled") data := by
  rw [mem_values_iff, mentions, List.mem_filterMap]
  constructor
  · rintro ⟨⟨key, value⟩, hmem, hdatum⟩
    simp only at hdatum
    split at hdatum
    · rename_i hkey
      cases hdatum
      exact hkey ▸ hmem
    · split at hdatum
      · rename_i hkey
        cases hdatum
        exact hkey ▸ hmem
      · cases hdatum
  · intro hmem
    cases enabling with
    | true => exact ⟨_, hmem, rfl⟩
    | false => exact ⟨_, hmem, rfl⟩

theorem enabling_mem_iff {target : String} :
    (true, target) ∈ mentions data ↔ target ∈ values "TargetsEnabled" data := mem_mentions_iff

theorem disabling_mem_iff {target : String} :
    (false, target) ∈ mentions data ↔ target ∈ values "TargetsDisabled" data := mem_mentions_iff

/-- The last mention of the current target. -/
theorem mem_of_getLast? {target : Bool × String}
    (h : ((mentions data).filter (·.2 = targetName)).getLast? = some target) :
    (target.1, targetName) ∈ mentions data := by
  have hmem := List.mem_filter.mp (List.mem_of_getLast? h)
  have hname : target.2 = targetName := of_decide_eq_true hmem.2
  rw [← hname]
  exact hmem.1

/-- Without a last mention the target is not mentioned. -/
theorem notMem_of_getLast? (h : ((mentions data).filter (·.2 = targetName)).getLast? = none)
    (enabling : Bool) : (enabling, targetName) ∉ mentions data := by
  intro hmem
  rw [List.getLast?_eq_none_iff, List.filter_eq_nil_iff] at h
  exact h _ hmem (decide_eq_true rfl)

/-- Without an unsupported mark the number is the verdict of the keys when the lists are in order. -/
theorem tally_iff_inOrder :
    (0 ≤ tally targetName (mentions data) ↔
        (values "TargetsEnabled" data = [] ∨ targetName ∈ values "TargetsEnabled" data) ∧
          targetName ∉ values "TargetsDisabled" data) ↔ InOrder targetName data := by
  cases hlast : ((mentions data).filter (·.2 = targetName)).getLast? with
  | some target =>
    have hmem := mem_of_getLast? hlast
    obtain ⟨enabling, name⟩ := target
    cases enabling with
    | true =>
      have henabled := enabling_mem_iff.mp hmem
      have htally : tally targetName (mentions data) = 1 := by
        rw [tally, hlast]
        rfl
      have hverdict : (0 ≤ tally targetName (mentions data) ↔
          (values "TargetsEnabled" data = [] ∨ targetName ∈ values "TargetsEnabled" data) ∧
            targetName ∉ values "TargetsDisabled" data) ↔
          targetName ∉ values "TargetsDisabled" data := by
        simp [htally, henabled]
      rw [hverdict]
      constructor
      · exact fun hnot => ⟨fun _ hdisabled => absurd hdisabled hnot, fun hnot' => absurd henabled hnot'⟩
      · intro horder hdisabled
        have hfalse := horder.both henabled hdisabled
        rw [hlast] at hfalse
        cases hfalse
    | false =>
      have hdisabled := disabling_mem_iff.mp hmem
      have hname : name = targetName :=
        of_decide_eq_true (List.mem_filter.mp (List.mem_of_getLast? hlast)).2
      have htally : tally targetName (mentions data) = -1 := by
        rw [tally, hlast]
        rfl
      refine iff_of_true (iff_of_false ?_ fun h => h.2 hdisabled)
        ⟨fun _ _ => hname ▸ hlast, fun _ hnot => absurd hdisabled hnot⟩
      rw [htally]
      decide
  | none =>
    have henabled : targetName ∉ values "TargetsEnabled" data := fun h =>
      notMem_of_getLast? hlast true (enabling_mem_iff.mpr h)
    have hdisabled : targetName ∉ values "TargetsDisabled" data := fun h =>
      notMem_of_getLast? hlast false (disabling_mem_iff.mpr h)
    have hverdict : (0 ≤ tally targetName (mentions data) ↔
        (values "TargetsEnabled" data = [] ∨ targetName ∈ values "TargetsEnabled" data) ∧
          targetName ∉ values "TargetsDisabled" data) ↔
        (0 ≤ tally targetName (mentions data) ↔ values "TargetsEnabled" data = []) := by
      simp [henabled, hdisabled]
    have horder : InOrder targetName data ↔
        (values "TargetsEnabled" data ≠ [] → ∃ target, (mentions data).head? = some (true, target)) :=
      ⟨fun h => h.neither henabled hdisabled,
        fun h => ⟨fun hin => absurd hin henabled, fun _ _ => h⟩⟩
    rw [hverdict, horder, tally, hlast]
    cases hhead : (mentions data).head? with
    | none =>
      -- no target at all
      have hempty : values "TargetsEnabled" data = [] := by
        rw [List.eq_nil_iff_forall_not_mem]
        intro target hmem
        rw [List.head?_eq_none_iff] at hhead
        exact List.not_mem_nil (hhead ▸ enabling_mem_iff.mpr hmem)
      simp [hempty]
    | some target =>
      obtain ⟨enabling, first⟩ := target
      cases enabling with
      | true =>
        have hmem := enabling_mem_iff.mp (List.mem_of_mem_head? hhead)
        have hne : values "TargetsEnabled" data ≠ [] := List.ne_nil_of_mem hmem
        simp [hne]
      | false => simp

/-- The lists are in order, or the resource is not supported at all. -/
def Orderly (targetName : String) (data : List (String × String)) : Prop :=
  (∀ value ∈ values "Supported" data, value = "true") → InOrder targetName data

/-- The number of the builder is the verdict of the data it takes when they are orderly. -/
theorem verdict_iff_orderly :
    (0 ≤ data.foldl (countStep targetName) 0 ↔ Allowed targetName data) ↔ Orderly targetName data := by
  rw [foldl_countStep]
  by_cases hsupported : ∀ value ∈ values "Supported" data, value = "true"
  · have hallowed : Allowed targetName data ↔
        (values "TargetsEnabled" data = [] ∨ targetName ∈ values "TargetsEnabled" data) ∧
          targetName ∉ values "TargetsDisabled" data :=
      ⟨fun h => ⟨h.enabled, h.disabled⟩, fun h => ⟨hsupported, h.1, h.2⟩⟩
    rw [if_pos hsupported, hallowed, tally_iff_inOrder]
    exact ⟨fun h _ => h, fun h => h hsupported⟩
  · rw [if_neg hsupported]
    exact iff_of_true (iff_of_false (by decide) fun h => hsupported h.supported)
      fun h => absurd h hsupported

end Verdict

/-! ## Entries -/

section Entries

variable {host : Host} {registered : List (Option ResourceConfig)} {rc : ErrCode} {base : List String}
  {entry : Entry} {s : State}

/-- Without an object every call is refused. -/
theorem call_of_none {topKey value : String} {count : Int}
    {method : ResourceConfigInfoBuilder → ErrCode × ResourceConfigInfoBuilder}
    (h : resourceMethod host topKey value = some method) : (method ⟨none, count⟩).2 = ⟨none, count⟩ := by
  rcases resourceMethod_cases h with ⟨-, rfl⟩ | ⟨-, rfl⟩ | ⟨-, rfl⟩ | ⟨⟨rc, call, hmethod, -⟩, -⟩
  · rfl
  · rfl
  · rfl
  · rw [hmethod]
    rfl

/-- The number that an entry leaves is that of the data the builder takes. -/
theorem mTargetRefCount_run (host : Host) (rc : ErrCode) (entry : Entry) :
    (entry.run host rc).2.mTargetRefCount =
      (entry.taken host rc).foldl (countStep host.targetName) 0 := by
  rw [Entry.run, Entry.taken]
  by_cases hrc : rc = .RC_SUCCESS
  · subst hrc
    cases hcontent : entry.opened.content with
    | true =>
      rw [if_pos ⟨rfl, rfl⟩, ResourceConfigInfoBuilder.new, hcontent, if_pos rfl]
      exact count_runCalls entry.heard _ 0
    | false =>
      have hnew : ResourceConfigInfoBuilder.new entry.opened = ⟨none, 0⟩ := by
        rw [ResourceConfigInfoBuilder.new, hcontent]
        rfl
      have hkept : (runCalls (calls host entry.heard) (ErrCode.RC_SUCCESS, ⟨none, 0⟩)).2 = ⟨none, 0⟩ := by
        refine RestuneParser.runCalls_invariant (P := fun b : ResourceConfigInfoBuilder => b = ⟨none, 0⟩) ?_ rfl
        rintro call hcall b rfl
        obtain ⟨datum, -, hmethod⟩ := List.mem_filterMap.mp hcall
        exact call_of_none hmethod
      rw [hnew, hkept, if_neg nofun]
      rfl
  · rw [RestuneParser.runCalls_of_ne _ hrc, if_neg fun h => hrc h.1]
    rfl

/-- An entry whose events are all read has a builder. -/
theorem builder_of_reaches (h : Reaches (step host) (betweenEntries registered base rc) entry.content s) :
    entry.opened.builder = true := by
  cases hbuilder : entry.opened.builder with
  | true => rfl
  | false =>
    cases h with
    | cons hstep _ =>
      rw [step_mappingStart_unallocated host registered rc base hbuilder] at hstep
      cases hstep

/-- **The targets of a resource.**  After an entry the number is the verdict of its keys exactly when
this holds: what the builder takes of the entry is orderly if and only if it says the same as the whole
entry. -/
theorem targets_iff
    (h : Reaches (step host) (betweenEntries registered base rc) entry.content s) :
    ∃ builder, s.resourceConfigInfoBuilder = some builder ∧
      ((0 ≤ builder.mTargetRefCount ↔ Allowed host.targetName entry.said) ↔
        (Orderly host.targetName (entry.taken host rc) ↔
          (Allowed host.targetName (entry.taken host rc) ↔ Allowed host.targetName entry.said))) := by
  obtain ⟨above, hcontent⟩ := reaches_content host registered rc base (builder_of_reaches h)
  obtain rfl := h.unique hcontent
  refine ⟨(entry.run host rc).2, rfl, ?_⟩
  rw [mTargetRefCount_run, ← verdict_iff_orderly]
  tauto

end Entries

namespace Sample

def host : Host := ⟨"current", fun _ => none, fun _ => false⟩

/-- Lists of other targets, the disabled ones first. -/
def disabledFirst : Entry := ⟨.all, [.list .TargetsDisabled ["other"], .list .TargetsEnabled ["third"]]⟩

/-- The same lists the other way round. -/
def enabledFirst : Entry := ⟨.all, [.list .TargetsEnabled ["third"], .list .TargetsDisabled ["other"]]⟩

end Sample

/-- The first target decides for one in neither list. -/
theorem disabled_first_is_enabled :
    (∃ s builder, Reaches (step Sample.host) (betweenEntries [] [RESOURCE_CONFIGS_ROOT] .RC_SUCCESS)
      Sample.disabledFirst.content s ∧ s.resourceConfigInfoBuilder = some builder ∧
      builder.mTargetRefCount = 1) ∧
    ¬ Allowed "current" Sample.disabledFirst.said := by
  constructor
  · obtain ⟨above, h⟩ := reaches_content Sample.host [] .RC_SUCCESS [RESOURCE_CONFIGS_ROOT]
      (show Sample.disabledFirst.opened.builder = true from rfl)
    exact ⟨_, _, h, rfl, by decide⟩
  · intro h
    exact absurd h.enabled (by decide)

/-- The other way round the number is right. -/
theorem targets_iff_enabledFirst :
    ∃ s, Reaches (step Sample.host) (betweenEntries [] [RESOURCE_CONFIGS_ROOT] .RC_SUCCESS)
        Sample.enabledFirst.content s ∧
      ∃ builder, s.resourceConfigInfoBuilder = some builder ∧
        ((0 ≤ builder.mTargetRefCount ↔ Allowed "current" Sample.enabledFirst.said) ↔
          (Orderly "current" (Sample.enabledFirst.taken Sample.host .RC_SUCCESS) ↔
            (Allowed "current" (Sample.enabledFirst.taken Sample.host .RC_SUCCESS) ↔
              Allowed "current" Sample.enabledFirst.said))) := by
  obtain ⟨above, h⟩ := reaches_content Sample.host [] .RC_SUCCESS [RESOURCE_CONFIGS_ROOT]
    (show Sample.enabledFirst.opened.builder = true from rfl)
  exact ⟨_, h, targets_iff h⟩

end ResourceTuner.ResourceParser
