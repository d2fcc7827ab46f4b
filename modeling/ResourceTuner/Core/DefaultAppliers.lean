import ResourceTuner.Core.ResourceHooks

/-!
# The numbers the default appliers write

Three of the four default appliers multiply the configured value by the unit of its resource with the
saturating `Multiply`; the applier of global resources writes the value without its unit.  `Multiply`
is right about every product, but to find out it divides the 64-bit limits by the value, and
`INT64_MIN / -1` is not a 64-bit number.

* **`appliedValue`** — the number of an applier, in 64-bit arithmetic;
* **`applier_writes_value`** — it is what the applier writes;
* **`appliersAgree_iff`** — the values and units for which the four appliers write the same number.
-/

namespace ResourceTuner

/-! ## The appliers -/

/-- The value an applier takes from a resource; the first value of a cgroup resource is the cgroup. -/
def ResConfInfo.configuredValue (conf : ResConfInfo) (resource : Resource) : Int :=
  match conf.mApplyType with
  | .APPLY_CGROUP => resource.getValueAt 1
  | _ => resource.getValueAt 0

/-- The number the default applier of a type writes, `none` when its arithmetic overflows. -/
def appliedValue (applyType : ResourceApplyType) (value : Int) (unit : TranslationUnit) :
    Option Int :=
  match applyType with
  | .APPLY_GLOBAL => some value
  | _ => translatedValue value unit

/-- The four default appliers write the value in its unit, exactly, and no arithmetic overflows. -/
structure AppliersAgree (value : Int) (unit : TranslationUnit) : Prop where
  computed : ∀ applyType, appliedValue applyType value unit = some (value * unit.toInt)
  written : ∀ (env : Env) (node : ResIterable) (resource : Resource) (conf : ResConfInfo),
    node.mData = some resource → env.getResConf resource.mResCode = some conf →
    conf.UsesDefaults → conf.mUnit = unit → conf.configuredValue resource = value →
    ∀ w ∈ (Callback.applier node).writes env, w.2 = toString (value * unit.toInt)

/-- What a default applier writes is its number. -/
theorem applier_writes_value {env : Env} {node : ResIterable} {resource : Resource}
    {conf : ResConfInfo} {n : Int} (hdata : node.mData = some resource)
    (hconf : env.getResConf resource.mResCode = some conf) (hdefault : conf.UsesDefaults)
    (hvalue : appliedValue conf.mApplyType (conf.configuredValue resource) conf.mUnit = some n)
    {w : String × String} (hw : w ∈ (Callback.applier node).writes env) : w.2 = toString n := by
  -- the three appliers that multiply write to files of different kinds
  have htranslated : ∀ value path, translatedValue value conf.mUnit = some n →
      w ∈ unitWrite env resource path value → w.2 = toString n := by
    intro value path hn hmem
    simp only [unitWrite, unitValue, hconf, hn, List.mem_singleton] at hmem
    rw [hmem]
  rw [applier_writes_of_usesDefaults hdata hconf hdefault] at hw
  cases htype : conf.mApplyType with
  | APPLY_CLUSTER =>
    simp only [htype, appliedValue, ResConfInfo.configuredValue] at hvalue
    simp only [htype, defaultClusterLevelApplierCb] at hw
    exact htranslated _ _ hvalue hw
  | APPLY_CORE =>
    simp only [htype, appliedValue, ResConfInfo.configuredValue] at hvalue
    simp only [htype, defaultCoreLevelApplierCb, List.mem_flatMap] at hw
    obtain ⟨core, -, hmem⟩ := hw
    exact htranslated _ _ hvalue hmem
  | APPLY_CGROUP =>
    simp only [htype, appliedValue, ResConfInfo.configuredValue] at hvalue
    simp only [htype, defaultCGroupLevelApplierCb] at hw
    split at hw
    · cases hw
    · obtain ⟨path, -, hmem⟩ := List.mem_flatMap.mp hw
      exact htranslated _ _ hvalue hmem
  | APPLY_GLOBAL =>
    simp only [htype, appliedValue, ResConfInfo.configuredValue, Option.some.injEq] at hvalue
    simp only [htype, defaultGlobalLevelApplierCb, hconf, writeToFile] at hw
    split at hw
    · cases hw
    · rw [List.mem_singleton.mp hw, hvalue]

/-- **The default appliers agree** exactly on the value zero, and on every value but minus one whose
unit is one. -/
theorem appliersAgree_iff {value : Int} {unit : TranslationUnit}
    (hvalue : -2 ^ 31 ≤ value ∧ value < 2 ^ 31) :
    AppliersAgree value unit ↔ value = 0 ∨ unit.toInt = 1 ∧ value ≠ -1 := by
  have hunit := unit_pos unit
  have htranslated := translatedValue_eq unit hvalue
  constructor
  · rintro ⟨hcomputed, -⟩
    have hglobal : value * unit.toInt = value := (Option.some.inj (hcomputed .APPLY_GLOBAL)).symm
    have hcore := hcomputed .APPLY_CORE
    have hone : value ≠ -1 := by
      intro hone
      simp only [appliedValue, htranslated, if_pos hone] at hcore
      cases hcore
    rcases Int.eq_zero_or_eq_zero_of_mul_eq_zero
      (show value * (unit.toInt - 1) = 0 by rw [mul_sub, mul_one, hglobal, sub_self]) with h | h
    · exact Or.inl h
    · exact Or.inr ⟨by omega, hone⟩
  · intro hcondition
    have hone : value ≠ -1 := by
      rcases hcondition with rfl | h
      · decide
      · exact h.2
    have hglobal : value * unit.toInt = value := by
      rcases hcondition with rfl | h
      · exact zero_mul _
      · rw [h.1, mul_one]
    have hcomputed : ∀ applyType,
        appliedValue applyType value unit = some (value * unit.toInt) := by
      intro applyType
      cases applyType with
      | APPLY_GLOBAL => rw [appliedValue, hglobal]
      | APPLY_CORE | APPLY_CLUSTER | APPLY_CGROUP =>
        simp only [appliedValue, htranslated, if_neg hone]
    refine ⟨hcomputed, ?_⟩
    rintro env node resource conf hdata hconf hdefault rfl rfl w hw
    exact applier_writes_value hdata hconf hdefault (hcomputed conf.mApplyType) hw

namespace Sample

/-- The global resource of the small device with a unit. -/
def kiloEnv : Env :=
  { env with
    resourceRegistry := ResourceRegistry.empty.registerResource targetRegistry 8 (fun _ => "0")
      { globalConf with mUnit := .U_KB } false }

end Sample

theorem appliersAgree_sample : AppliersAgree 42 .U_NA :=
  (appliersAgree_iff (by decide)).mpr (Or.inr ⟨rfl, by decide⟩)

/-- Five kilobytes: the global applier writes `5`.  Minus one without a unit: `Multiply` overflows. -/
theorem appliers_disagree :
    (Callback.applier ⟨(1, 0), some (.ofValues (Sample.code 1) 0 0 [5])⟩).writes Sample.kiloEnv =
        [("/sys/global", "5")] ∧
      appliedValue .APPLY_CORE 5 .U_KB = some 5120 ∧ ¬ AppliersAgree 5 .U_KB ∧
      translatedValue (-1) .U_NA = none ∧ ¬ AppliersAgree (-1) .U_NA := by
  refine ⟨by decide, by decide, fun h => ?_, by decide, fun h => ?_⟩
  · have hglobal := h.computed .APPLY_GLOBAL
    revert hglobal
    decide
  · have hcore := h.computed .APPLY_CORE
    revert hcore
    decide

end ResourceTuner
