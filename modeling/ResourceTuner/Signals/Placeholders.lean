import ResourceTuner.Signals.RegistryMaps
import ResourceTuner.Signals.SignalBuilder
import ResourceTuner.Signals.SignalHandler

/-!
# Placeholders

A value of a configured resource is a number or `%d`, which stands for an argument of the signal.
`addValue` stores the number, or `-1` for a placeholder, and `createResourceTuningRequest` takes every
`-1` for a placeholder, with one cursor into the arguments for all resources.

* **`ConfigValue`** — a value as the configuration has it;
* **`filled`** — what the two loops make of the stored values;
* **`addSignalResources_eq`** — the loops in closed form;
* **`substitutionLaw_iff`** — the placeholders are the values that are replaced, unless a number is
  `-1`.
-/

namespace ResourceTuner

open Numerals

/-! ## Configurations -/

/-- A value of a configured resource. -/
inductive ConfigValue where
  | placeholder
  | literal (value : BitVec 32)
  deriving DecidableEq, Repr

/-- What `addValue` stores. -/
def ConfigValue.stored : ConfigValue → Int
  | .placeholder => -1
  | .literal value => value.toInt

/-- The value of a text. -/
def ConfigValue.ofString (valueString : String) : Option ConfigValue :=
  if valueString ≠ "%d" then (stoi 10 valueString).map fun n => .literal (BitVec.ofInt 32 n)
  else some .placeholder

/-- `addValue` stores the values of the texts it accepts. -/
theorem valueOf_eq (valueString : String) :
    ResourceBuilder.valueOf valueString = (ConfigValue.ofString valueString).map (·.stored) := by
  unfold ResourceBuilder.valueOf ConfigValue.ofString
  split
  · cases hstoi : stoi 10 valueString with
    | none => rfl
    | some n =>
      have hrange : -2 ^ 31 ≤ n ∧ n < 2 ^ 31 := by
        obtain ⟨-, hrange⟩ := Option.filter_eq_some_iff.mp hstoi
        simpa using hrange
      simp only [Option.map_some, ConfigValue.stored, BitVec.toInt_ofInt]
      congr 1
      rw [Int.bmod_def]
      omega
  · rfl

/-- A resource of a signal configuration. -/
structure ConfigResource where
  mResCode : BitVec 32
  mResInfo : BitVec 32
  values : List ConfigValue
  deriving DecidableEq, Repr

namespace ConfigResource

/-- The stored values. -/
def stored (config : ConfigResource) : List Int := config.values.map ConfigValue.stored

/-- The resource that is built for it. -/
def resource (config : ConfigResource) : Resource :=
  .ofValues config.mResCode config.mResInfo 0 config.stored

end ConfigResource

/-- The placeholders of a configuration. -/
def placeholders (resources : List ConfigResource) : Nat :=
  (resources.flatMap ConfigResource.values).count .placeholder

/-- The placeholders before a value, in reading order. -/
def placeholdersBefore (resources : List ConfigResource) (i : Nat) (values : List ConfigValue)
    (j : Nat) : Nat :=
  placeholders (resources.take i) + (values.take j).count .placeholder

/-- The signal carries these arguments; without arguments the list may be null. -/
def Signal.HasArgs (signal : Signal) (args : List (BitVec 32)) : Prop :=
  signal.mNumArgs = args.length ∧
    (signal.mListArgs = some args ∨ signal.mListArgs = none ∧ args = [])

/-- The request has the configured resources in order, with their codes, infos, value counts and
literals, and the `k`-th argument in place of the `k`-th placeholder. -/
structure Substituted (resources : List ConfigResource) (args : List (BitVec 32))
    (request : Request) : Prop where
  count : request.nodes.length = resources.length
  copied : ∀ (i : Nat) (config : ConfigResource), resources[i]? = some config →
    ∃ node resource, request.nodes[i]? = some node ∧ node.mData = some resource ∧
      resource.mResCode = config.mResCode ∧ resource.mResInfo = config.mResInfo ∧
      resource.getValuesCount = config.values.length ∧
      ∀ (j : Nat) (value : ConfigValue), config.values[j]? = some value →
        resource.getValueAt j = match value with
          | .literal n => n.toInt
          | .placeholder =>
            (args.getD (placeholdersBefore resources i config.values j) 0).toInt

/-- The memory pool has a block for everything. -/
def TranslationBlocks.granted : TranslationBlocks := ⟨true, fun _ => true, fun _ => true, fun _ => true⟩

/-- Every signal of the configuration, with any arguments, is translated as it should be: there is no
request exactly when the arguments do not suffice. -/
def SubstitutionLaw (resources : List ConfigResource) : Prop :=
  ∀ (registry : SignalRegistry) (signal : Signal) (signalInfo : SignalInfo)
    (args : List (BitVec 32)) (ptr : Nat),
    registry.getSignalConfigById signal.mSignalCode signal.mSignalType = some signalInfo →
    signalInfo.mSignalResources = some (resources.map fun config => some config.resource) →
    signal.HasArgs args →
    (createResourceTuningRequest registry signal .granted ptr = .ok none ↔
      args.length < placeholders resources) ∧
    (args.length < placeholders resources ∨ ∃ request,
      createResourceTuningRequest registry signal .granted ptr = .ok (some request) ∧
        Substituted resources args request)

/-! ## The loops -/

/-- The stored values with an argument in place of every `-1`. -/
def filled : List Int → List (BitVec 32) → List Int
  | [], _ => []
  | value :: values, args =>
    if value = -1 then (args.headD 0).toInt :: filled values args.tail
    else value :: filled values args

@[simp] theorem length_filled (values : List Int) (args : List (BitVec 32)) :
    (filled values args).length = values.length := by
  induction values generalizing args with
  | nil => rfl
  | cons value values ih =>
    rw [filled]
    split <;> simp [ih]

/-- The `k`-th of the values `-1` has the `k`-th argument. -/
theorem getElem?_filled (values : List Int) (args : List (BitVec 32)) (j : Nat) :
    (filled values args)[j]? = values[j]?.map fun value =>
      if value = -1 then (args.getD ((values.take j).count (-1)) 0).toInt else value := by
  induction values generalizing args j with
  | nil => rfl
  | cons value values ih =>
    rw [filled]
    cases j with
    | zero =>
      split
      · rename_i hvalue
        cases args <;> simp [hvalue]
      · rename_i hvalue
        simp [hvalue]
    | succ j =>
      split
      · rename_i hvalue
        rw [List.getElem?_cons_succ, List.getElem?_cons_succ, List.take_succ_cons, hvalue,
          List.count_cons_self, ih]
        cases args <;> simp
      · rename_i hvalue
        rw [List.getElem?_cons_succ, List.getElem?_cons_succ, List.take_succ_cons,
          List.count_cons_of_ne hvalue, ih]

/-- The inner loop, between the values before the cursor and those from it on. -/
theorem fillPlaceholders_eq {signal : Signal} {args : List (BitVec 32)}
    (hargs : signal.HasArgs args) (code info : BitVec 32) (optionalInfo : Int)
    (before values : List Int) {k : Nat} (hk : k ≤ args.length) :
    fillPlaceholders signal (List.range' before.length values.length)
        (.ofValues code info optionalInfo (before ++ values)) k =
      if args.length < k + values.count (-1) then .ok none
      else .ok (some (.ofValues code info optionalInfo (before ++ filled values (args.drop k)),
        k + values.count (-1))) := by
  induction values generalizing before k with
  | nil =>
    have henough : ¬ args.length < k + [].count (-1 : Int) := by
      simpa using hk
    rw [if_neg henough]
    rfl
  | cons value values ih =>
    have hread : (Resource.ofValues code info optionalInfo (before ++ value :: values)).getValueAt
        before.length = value := Resource.getValueAt_ofValues code info optionalInfo (by simp)
    -- the loop goes on with one more value before the cursor
    have hnext : ∀ (arg : Int) {k : Nat}, k ≤ args.length →
        fillPlaceholders signal (List.range' (before.length + 1) values.length)
            (.ofValues code info optionalInfo (before ++ arg :: values)) k =
          if args.length < k + values.count (-1) then .ok none
          else .ok (some (.ofValues code info optionalInfo
            (before ++ arg :: filled values (args.drop k)), k + values.count (-1))) := by
      intro arg k hk
      have h := ih (before ++ [arg]) hk
      simpa only [List.length_append, List.length_cons, List.length_nil, Nat.zero_add,
        List.append_assoc, List.cons_append, List.nil_append] using h
    rw [List.length_cons, List.range'_succ, fillPlaceholders, hread, filled]
    by_cases hvalue : value = -1
    · subst hvalue
      rw [if_pos rfl, if_pos rfl, List.count_cons_self]
      by_cases hmore : k < args.length
      · have hlist : signal.mListArgs = some args := by
          refine hargs.2.resolve_right ?_
          rintro ⟨-, rfl⟩
          simp at hmore
        have hcursor : (k : Int) < signal.mNumArgs := by
          rw [hargs.1]
          omega
        simp only [hlist, if_pos hcursor, List.getElem?_eq_getElem hmore]
        rw [Resource.setValueAt_ofValues, hnext _ hmore, List.drop_eq_getElem_cons hmore, List.headD_cons,
          List.tail_cons, show k + 1 + values.count (-1) = k + (values.count (-1) + 1) by omega]
      · have hcursor : ¬ (k : Int) < signal.mNumArgs := by
          rw [hargs.1]
          omega
        rw [if_pos (by omega)]
        cases signal.mListArgs with
        | none => rfl
        | some listArgs => simp only [if_neg hcursor]
    · rw [if_neg hvalue, if_neg hvalue, List.count_cons_of_ne hvalue]
      exact hnext value hk

/-- The values that are taken for placeholders. -/
def marks (resources : List ConfigResource) : Nat :=
  (resources.flatMap ConfigResource.stored).count (-1)

@[simp] theorem marks_nil : marks [] = 0 := rfl

@[simp] theorem marks_cons (config : ConfigResource) (resources : List ConfigResource) :
    marks (config :: resources) = config.stored.count (-1) + marks resources := by
  rw [marks, List.flatMap_cons, List.count_append, marks]

/-- The nodes of the translated request, from the `i`-th configured resource and the `k`-th argument
on. -/
def translated (args : List (BitVec 32)) (ptr : Nat) :
    List ConfigResource → Nat → Nat → List ResIterable
  | [], _, _ => []
  | config :: resources, i, k =>
    ⟨(ptr, i), some (.ofValues config.mResCode config.mResInfo 0
      (filled config.stored (args.drop k)))⟩ ::
        translated args ptr resources (i + 1) (k + config.stored.count (-1))

@[simp] theorem length_translated (args : List (BitVec 32)) (ptr : Nat)
    (resources : List ConfigResource) (i k : Nat) :
    (translated args ptr resources i k).length = resources.length := by
  induction resources generalizing i k with
  | nil => rfl
  | cons config resources ih => rw [translated, List.length_cons, ih, List.length_cons]

/-- The cursor stands after the values that were taken for placeholders before. -/
theorem getElem?_translated (args : List (BitVec 32)) (ptr : Nat) (resources : List ConfigResource)
    (i k n : Nat) :
    (translated args ptr resources i k)[n]? = resources[n]?.map fun config =>
      ⟨(ptr, i + n), some (.ofValues config.mResCode config.mResInfo 0
        (filled config.stored (args.drop (k + marks (resources.take n)))))⟩ := by
  induction resources generalizing i k n with
  | nil => rfl
  | cons config resources ih =>
    rw [translated]
    cases n with
    | zero => rfl
    | succ n =>
      rw [List.getElem?_cons_succ, List.getElem?_cons_succ, List.take_succ_cons, marks_cons, ih,
        show i + 1 + n = i + (n + 1) by omega, Nat.add_assoc]

theorem Request.nodes_addResource (r : Request) (node : ResIterable) :
    (r.addResource true node).nodes = r.nodes ++ [node] := by
  unfold Request.addResource Request.nodes
  cases r.mResourceList <;> rfl

/-- The outer loop, from the `i`-th configured resource and the `k`-th argument on. -/
theorem addSignalResources_eq {signal : Signal} {args : List (BitVec 32)}
    (hargs : signal.HasArgs args) (ptr : Nat) (resources : List ConfigResource) (i : Nat) {k : Nat}
    (hk : k ≤ args.length) (request : Request) :
    if args.length < k + marks resources then
      addSignalResources signal .granted ptr (resources.map fun config => some config.resource) i k
        request = .ok none
    else ∃ request',
      addSignalResources signal .granted ptr (resources.map fun config => some config.resource) i k
        request = .ok (some request') ∧
      request'.nodes = request.nodes ++ translated args ptr resources i k := by
  induction resources generalizing i k request with
  | nil =>
    rw [if_neg (by simpa using hk)]
    exact ⟨request, rfl, by simp [translated]⟩
  | cons config resources ih =>
    have hfill : fillPlaceholders signal (List.range config.resource.getValuesCount.toNat)
        config.resource k =
          if args.length < k + config.stored.count (-1) then .ok none
          else .ok (some (.ofValues config.mResCode config.mResInfo 0
            (filled config.stored (args.drop k)), k + config.stored.count (-1))) := by
      have h := fillPlaceholders_eq hargs config.mResCode config.mResInfo 0 [] config.stored hk
      rwa [List.length_nil, ← List.range_eq_range'] at h
    rw [List.map_cons, addSignalResources, hfill, marks_cons]
    by_cases hshort : args.length < k + config.stored.count (-1)
    · rw [if_pos hshort, if_pos (by omega)]
      rfl
    · rw [if_neg hshort]
      have hrest := ih (i + 1) (not_lt.mp hshort)
        (request.addResource true ⟨(ptr, i), some (.ofValues config.mResCode config.mResInfo 0
          (filled config.stored (args.drop k)))⟩)
      rw [Request.nodes_addResource, List.append_assoc, Nat.add_assoc] at hrest
      exact hrest

/-! ## The law -/

/-- The numbers `-1` are taken for placeholders as well. -/
theorem count_stored (values : List ConfigValue) :
    (values.map ConfigValue.stored).count (-1) =
      values.count .placeholder + values.count (.literal (-1)) := by
  induction values with
  | nil => rfl
  | cons value values ih =>
    rw [List.map_cons]
    cases value with
    | placeholder =>
      rw [ConfigValue.stored, List.count_cons_self, List.count_cons_self,
        List.count_cons_of_ne (by simp), ih]
      omega
    | literal n =>
      by_cases hn : n = -1
      · subst hn
        rw [show (ConfigValue.literal (-1)).stored = -1 by decide, List.count_cons_self,
          List.count_cons_self, List.count_cons_of_ne (by simp), ih]
        omega
      · have hstored : (ConfigValue.literal n).stored ≠ -1 := by
          intro h
          exact hn (BitVec.toInt_inj.mp h)
        rw [List.count_cons_of_ne hstored, List.count_cons_of_ne (by simp),
          List.count_cons_of_ne (by simpa using hn), ih]

theorem marks_eq (resources : List ConfigResource) :
    marks resources =
      placeholders resources + (resources.flatMap ConfigResource.values).count (.literal (-1)) := by
  have hflat : resources.flatMap ConfigResource.stored =
      (resources.flatMap ConfigResource.values).map ConfigValue.stored := by
    rw [List.map_flatMap]
    rfl
  rw [marks, hflat, count_stored, placeholders]

/-- The translation in closed form. -/
theorem createResourceTuningRequest_eq {registry : SignalRegistry} {signal : Signal}
    {signalInfo : SignalInfo} {args : List (BitVec 32)} {resources : List ConfigResource} (ptr : Nat)
    (hinfo : registry.getSignalConfigById signal.mSignalCode signal.mSignalType = some signalInfo)
    (hresources : signalInfo.mSignalResources = some (resources.map fun config => some config.resource))
    (hargs : signal.HasArgs args) :
    if args.length < marks resources then
      createResourceTuningRequest registry signal .granted ptr = .ok none
    else ∃ request, createResourceTuningRequest registry signal .granted ptr = .ok (some request) ∧
      request.nodes = translated args ptr resources 0 0 := by
  have h := addSignalResources_eq hargs ptr resources 0 (Nat.zero_le _)
    { toMessage := { signal.toMessage with mReqType := .REQ_RESOURCE_TUNING }
      mTimer := none
      mResourceList := none }
  rw [Nat.zero_add] at h
  simp only [createResourceTuningRequest, hinfo, hresources]
  exact h

/-- Where no number is `-1` the nodes are the configured resources with the arguments in the place of
the placeholders. -/
theorem substituted_of_nodes {resources : List ConfigResource} {args : List (BitVec 32)} {ptr : Nat}
    {request : Request} (hliteral : ∀ config ∈ resources, .literal (-1) ∉ config.values)
    (hnodes : request.nodes = translated args ptr resources 0 0) :
    Substituted resources args request where
  count := by rw [hnodes, length_translated]
  copied := by
    intro i config hconfig
    have hno : ∀ values : List ConfigValue, (∀ value ∈ values, value ≠ ConfigValue.literal (-1)) →
        (values.map ConfigValue.stored).count (-1) = values.count .placeholder := by
      intro values hvalues
      rw [count_stored, List.count_eq_zero.mpr fun h => hvalues _ h rfl, Nat.add_zero]
    have hbefore : marks (resources.take i) = placeholders (resources.take i) := by
      rw [marks_eq, List.count_eq_zero.mpr, Nat.add_zero]
      intro h
      obtain ⟨other, hother, hmem⟩ := List.mem_flatMap.mp h
      exact hliteral other (List.mem_of_mem_take hother) hmem
    have hconfig' := hliteral config (List.mem_of_getElem? hconfig)
    refine ⟨_, _, by rw [hnodes, getElem?_translated, hconfig]; rfl, rfl, rfl, rfl, ?_, ?_⟩
    · show ((filled config.stored _).length : Int) = _
      rw [length_filled, ConfigResource.stored, List.length_map]
    · intro j value hvalue
      refine Resource.getValueAt_ofValues _ _ _ ?_
      rw [getElem?_filled, ConfigResource.stored, List.getElem?_map, hvalue, ← List.map_take,
        hno _ fun value h heq => hconfig' (heq ▸ List.mem_of_mem_take h)]
      simp only [Option.map_some]
      congr 1
      cases value with
      | placeholder =>
        rw [ConfigValue.stored, if_pos rfl, Nat.zero_add, hbefore, placeholdersBefore,
          List.getD_eq_getElem?_getD, List.getD_eq_getElem?_getD, List.getElem?_drop]
      | literal n =>
        have hstored : (ConfigValue.literal n).stored ≠ -1 := by
          intro h
          obtain rfl : n = -1 := BitVec.toInt_inj.mp h
          exact hconfig' (List.mem_of_getElem? hvalue)
        rw [if_neg hstored]
        rfl

/-- A signal with these resources. -/
def signalInfoOf (resources : List ConfigResource) : SignalInfo where
  mSignalCategory := 1
  mSignalID := 0
  mSigType := 0
  mTimeout := 1
  mPermissions := none
  mSignalResources := some (resources.map fun config => some config.resource)

/-- The registry with this signal alone. -/
def registryOf (resources : List ConfigResource) : SignalRegistry :=
  .ofEntries [⟨some (signalInfoOf resources), false⟩]

/-- The signal that names it. -/
def signalWith (args : List (BitVec 32)) : Signal where
  mReqType := .REQ_SIGNAL_TUNING
  mHandle := 1
  mDuration := 1
  mProperties := 0
  mClientPID := 1
  mClientTID := 1
  mSignalCode := 0x10000
  mSignalType := 0
  mNumArgs := args.length
  mListArgs := some args

theorem getSignalConfigById_registryOf (resources : List ConfigResource) (args : List (BitVec 32)) :
    (registryOf resources).getSignalConfigById (signalWith args).mSignalCode
      (signalWith args).mSignalType = some (signalInfoOf resources) := by
  have hcode : (signalInfoOf resources).code = 0x10000 := by
    show BitVec.setWidth 32 (0 : BitVec 16) ||| (BitVec.setWidth 32 (1 : BitVec 8) <<< 16) = 0x10000
    decide
  have hcategory : (signalInfoOf resources).mSignalCategory ≠ 0 := by
    show (1 : BitVec 8) ≠ 0
    decide
  have hfound := SignalRegistry.getSignalConfigById_single hcategory
  rwa [hcode] at hfound

/-- **When a signal is translated as its configuration says.**  The placeholders of a configuration,
and nothing else, are replaced by the arguments exactly when no configured number is `-1`. -/
theorem substitutionLaw_iff (resources : List ConfigResource) :
    SubstitutionLaw resources ↔ ∀ config ∈ resources, .literal (-1) ∉ config.values := by
  constructor
  · intro hlaw
    by_contra hliteral
    push Not at hliteral
    obtain ⟨config, hconfig, hmem⟩ := hliteral
    -- with as many arguments as placeholders the number is one too many
    have hlength : (List.replicate (placeholders resources) (0 : BitVec 32)).length =
        placeholders resources := List.length_replicate
    obtain ⟨hnull, -⟩ := hlaw (registryOf resources)
      (signalWith (List.replicate (placeholders resources) 0)) (signalInfoOf resources)
      (List.replicate (placeholders resources) 0) 0 (getSignalConfigById_registryOf ..) rfl
      ⟨rfl, Or.inl rfl⟩
    have hresult := @createResourceTuningRequest_eq (registryOf resources)
      (signalWith (List.replicate (placeholders resources) 0)) (signalInfoOf resources) _ resources 0
      (getSignalConfigById_registryOf ..) rfl ⟨rfl, Or.inl rfl⟩
    have hmore : placeholders resources < marks resources := by
      have hpos : 0 < (resources.flatMap ConfigResource.values).count (.literal (-1)) :=
        List.count_pos_iff.mpr (List.mem_flatMap.mpr ⟨config, hconfig, hmem⟩)
      rw [marks_eq]
      omega
    rw [hlength, if_pos hmore] at hresult
    exact absurd (hnull.mp hresult) (by omega)
  · intro hliteral registry signal signalInfo args ptr hinfo hresources hargs
    have hmarks : marks resources = placeholders resources := by
      rw [marks_eq, List.count_eq_zero.mpr, Nat.add_zero]
      intro h
      obtain ⟨config, hconfig, hmem⟩ := List.mem_flatMap.mp h
      exact hliteral config hconfig hmem
    have hresult := createResourceTuningRequest_eq ptr hinfo hresources hargs
    rw [hmarks] at hresult
    split at hresult
    · rename_i hshort
      exact ⟨⟨fun _ => hshort, fun _ => hresult⟩, Or.inl hshort⟩
    · rename_i henough
      obtain ⟨request, hrequest, hnodes⟩ := hresult
      refine ⟨⟨fun h => ?_, fun h => absurd h henough⟩,
        Or.inr ⟨request, hrequest, substituted_of_nodes hliteral hnodes⟩⟩
      rw [hrequest] at h
      cases h

/-- The number `-1` alone needs an argument. -/
theorem literal_lost : ¬ SubstitutionLaw [⟨0x40000, 0, [.literal (-1)]⟩] := by
  intro hlaw
  obtain ⟨hnull, -⟩ := hlaw (registryOf [⟨0x40000, 0, [.literal (-1)]⟩]) (signalWith [])
    (signalInfoOf [⟨0x40000, 0, [.literal (-1)]⟩]) [] 0
    (getSignalConfigById_registryOf ..) rfl ⟨rfl, Or.inl rfl⟩
  exact absurd (hnull.mp (by decide)) (by decide)

end ResourceTuner
