import ResourceTuner.Lib.Arbiter
import ResourceTuner.Core.CocoTable

/-!
# Slots of the table

A *slot* is a pair of a row and a number below the row's slot count; its four lists are the
lists of the four priorities.  This module says once what a node operation can do to the table,
in terms of the slot of its node; every later invariant is derived from these lemmas.

* **`slotKey` / `nodeSlot`** — the slot a resource contends for, the slot a node is linked in;
* **`tableIndex_eq`** — the list of a priority lies at `4 * slot + priority`;
* **`step_insert` / `step_remove`** — the two loop bodies on a node that has a slot;
* **`mem_step`** — what is linked afterwards;
* **`step_mCallbacks`** — the callbacks run on nodes of the same slot;
* **`step_of_no_slot`** — a node without a slot has at most its own callback run.
-/

namespace ResourceTuner

namespace CocoTable

/-! ## Field lemmas -/

section Fields

variable (t : CocoTable)

/-- Each of the three writes to the table changes one of its fields, and the other two are read as
they were. -/
@[simp] theorem setList_mCallbacks (i k : Nat) (l : List ResIterable) :
    (t.setList i k l).mCallbacks = t.mCallbacks := rfl

@[simp] theorem setList_mCurrentlyAppliedPriority (i k : Nat) (l : List ResIterable) :
    (t.setList i k l).mCurrentlyAppliedPriority = t.mCurrentlyAppliedPriority := rfl

@[simp] theorem setPriority_mCocoTable (i : Nat) (p : Int) :
    (t.setPriority i p).mCocoTable = t.mCocoTable := rfl

@[simp] theorem setPriority_mCallbacks (i : Nat) (p : Int) :
    (t.setPriority i p).mCallbacks = t.mCallbacks := rfl

@[simp] theorem setPriority_mCurrentlyAppliedPriority (i : Nat) (p : Int) :
    (t.setPriority i p).mCurrentlyAppliedPriority =
      Function.update t.mCurrentlyAppliedPriority i p := rfl

@[simp] theorem record_mCocoTable (e : Callback) : (t.record e).mCocoTable = t.mCocoTable := rfl

@[simp] theorem record_mCurrentlyAppliedPriority (e : Callback) :
    (t.record e).mCurrentlyAppliedPriority = t.mCurrentlyAppliedPriority := rfl

@[simp] theorem record_mCallbacks (e : Callback) :
    (t.record e).mCallbacks = t.mCallbacks ++ [e] := rfl

@[simp] theorem call_mCocoTable (cb : Option ResourceLifecycleCallback) (e : Callback) :
    (t.call cb e).mCocoTable = t.mCocoTable := by
  cases cb <;> rfl

@[simp] theorem call_mCurrentlyAppliedPriority (cb : Option ResourceLifecycleCallback)
    (e : Callback) : (t.call cb e).mCurrentlyAppliedPriority = t.mCurrentlyAppliedPriority := by
  cases cb <;> rfl

/-- A list is changed at its own place. -/
theorem setList_mCocoTable (i k i' k' : Nat) (l : List ResIterable) :
    (t.setList i k l).mCocoTable i' k' = if i' = i ∧ k' = k then l else t.mCocoTable i' k' := by
  unfold setList
  by_cases hi : i' = i
  · subst hi
    by_cases hk : k' = k
    · subst hk
      simp
    · simp [hk]
  · simp [hi]

end Fields

/-! ## Where a resource lies -/

/-- The secondary index is `4 * slot + priority`, for a slot that does not depend on the
priority, or it is invalid for every priority. -/
theorem getCocoTableSecondaryIndex_cases (env : Env) (resource : Resource) :
    (∃ s : Nat, ∀ p, getCocoTableSecondaryIndex env resource p = s * 4 + p) ∨
      ∀ p, getCocoTableSecondaryIndex env resource p = -1 := by
  cases hconf : env.getResConf resource.mResCode with
  | none => exact Or.inr fun p => by simp only [getCocoTableSecondaryIndex, hconf]
  | some conf =>
    cases htype : conf.mApplyType with
    | APPLY_CORE =>
      refine Or.inl ⟨(resource.mResInfo &&& 0xff).toNat, fun p => ?_⟩
      simp only [getCocoTableSecondaryIndex, hconf, htype, Resource.getCoreValue, TOTAL_PRIORITIES]
      rfl
    | APPLY_CLUSTER =>
      by_cases h : resource.getClusterValue = -1
      · exact Or.inr fun p => by simp only [getCocoTableSecondaryIndex, hconf, htype, if_pos h]
      · refine Or.inl ⟨((mFlatClusterMap env).lookup resource.getClusterValue).getD 0, fun p => ?_⟩
        simp only [getCocoTableSecondaryIndex, hconf, htype, if_neg h, TOTAL_PRIORITIES]
        rfl
    | APPLY_CGROUP =>
      by_cases h : resource.getValueAt 0 = -1
      · exact Or.inr fun p => by simp only [getCocoTableSecondaryIndex, hconf, htype, if_pos h]
      · refine Or.inl ⟨((mFlatCGroupMap env).lookup (resource.getValueAt 0)).getD 0, fun p => ?_⟩
        simp only [getCocoTableSecondaryIndex, hconf, htype, if_neg h, TOTAL_PRIORITIES]
        rfl
    | APPLY_GLOBAL =>
      refine Or.inl ⟨0, fun p => ?_⟩
      simp only [getCocoTableSecondaryIndex, hconf, htype]
      omega

/-- The slot a resource contends for: its row and the number of the slot there. -/
def slotKey (env : Env) (resource : Resource) : Option (Nat × Nat) :=
  (tableIndex env resource SYSTEM_HIGH).map fun idx => (idx.1, idx.2 / 4)

/-- The resource bypasses the lists. -/
def isPassThrough (env : Env) (resource : Resource) : Bool :=
  (env.getResConf resource.mResCode).any fun conf => conf.mPolicy == .PASS_THROUGH

/-- The slot in whose lists a node is linked; none for a pass-through resource, for a resource
outside the table and for an empty node. -/
def nodeSlot (env : Env) (node : ResIterable) : Option (Nat × Nat) :=
  node.mData.bind fun resource =>
    if isPassThrough env resource then none else slotKey env resource

/-- Rows hold four lists for each slot. -/
theorem four_dvd_rowSize (env : Env) (i : Nat) : ∃ count, rowSize env i = 4 * count := by
  unfold rowSize
  cases env.resourceRegistry.mResourceConfigs[i]? with
  | none => exact ⟨0, rfl⟩
  | some conf => exact ⟨slotCount env conf, rfl⟩

/-- **The list of a priority**: the four lists of a slot are consecutive. -/
theorem tableIndex_eq (env : Env) (resource : Resource) {p : Int} (h0 : 0 ≤ p) (h4 : p < 4) :
    tableIndex env resource p =
      (slotKey env resource).map fun key => (key.1, 4 * key.2 + p.toNat) := by
  obtain ⟨count, hcount⟩ := four_dvd_rowSize env (getCocoTablePrimaryIndex env resource.mResCode).toNat
  unfold slotKey
  rcases getCocoTableSecondaryIndex_cases env resource with ⟨s, hs⟩ | hinv
  · simp only [tableIndex, hs, hcount, SYSTEM_HIGH]
    by_cases hin : getCocoTablePrimaryIndex env resource.mResCode < 0 ∨
        getCocoTablePrimaryIndex env resource.mResCode ≥
          env.resourceRegistry.getTotalResourcesCount ∨ (s : Int) ≥ count
    · rw [if_pos (by omega), if_pos (by omega)]
      rfl
    · rw [if_neg (by omega), if_neg (by omega)]
      simp only [Option.map_some, Option.some.injEq, Prod.mk.injEq, true_and]
      omega
  · simp [tableIndex, hinv]

/-- The configuration of a resource that has a list is its row's. -/
theorem getResConf_of_tableIndex {env : Env} {resource : Resource} {p : Int} {i k : Nat}
    (h : tableIndex env resource p = some (i, k)) :
    env.getResConf resource.mResCode = env.resourceRegistry.mResourceConfigs[i]? := by
  unfold tableIndex at h
  simp only at h
  split at h
  · cases h
  · rename_i hrange
    obtain ⟨rfl, rfl⟩ := Prod.mk.inj (Option.some.inj h)
    unfold getCocoTablePrimaryIndex at hrange ⊢
    cases hconf : env.getResConf resource.mResCode with
    | none => simp [hconf] at hrange
    | some conf =>
      obtain ⟨i, -, hi, hidx⟩ := ResourceRegistry.getResConf_eq_some hconf
      simp only [hidx, Int.toNat_natCast, hi]

/-- The row of a resource is the one of its configuration. -/
theorem getResConf_of_slotKey {env : Env} {resource : Resource} {key : Nat × Nat}
    (h : slotKey env resource = some key) :
    env.getResConf resource.mResCode = env.resourceRegistry.mResourceConfigs[key.1]? := by
  obtain ⟨⟨i, k⟩, hidx, rfl⟩ := Option.map_eq_some_iff.mp h
  exact getResConf_of_tableIndex hidx

/-- The rescan of `removeRequest` starts at the slot's first list. -/
theorem reIndexIncrement_of_slotKey {env : Env} {resource : Resource} {conf : ResConfInfo}
    {i s : Nat} (hconf : env.getResConf resource.mResCode = some conf)
    (h : slotKey env resource = some (i, s)) :
    reIndexIncrement env conf resource = 4 * s := by
  unfold slotKey at h
  obtain ⟨⟨i', k⟩, hidx, hkey⟩ := Option.map_eq_some_iff.mp h
  obtain ⟨rfl, rfl⟩ := Prod.mk.inj hkey
  have hk : getCocoTableSecondaryIndex env resource SYSTEM_HIGH = k := by
    unfold tableIndex at hidx
    simp only at hidx
    split at hidx
    · cases hidx
    · obtain ⟨-, hk⟩ := Prod.mk.inj (Option.some.inj hidx)
      omega
  have hfour : (k : Int) = 4 * ((k / 4 : Nat) : Int) := by
    rcases getCocoTableSecondaryIndex_cases env resource with ⟨s, hs⟩ | hinv
    · rw [hs, SYSTEM_HIGH] at hk
      omega
    · rw [hinv] at hk
      omega
  cases htype : conf.mApplyType with
  | APPLY_GLOBAL =>
    have hzero : getCocoTableSecondaryIndex env resource SYSTEM_HIGH = 0 := by
      simp only [getCocoTableSecondaryIndex, hconf, htype, SYSTEM_HIGH]
    simp only [reIndexIncrement, htype]
    omega
  | APPLY_CORE | APPLY_CLUSTER | APPLY_CGROUP =>
    simp only [reIndexIncrement, htype, hk]
    exact hfour

/-- A node that has a slot carries a resource of the slot's row, and is not passed through. -/
theorem data_of_nodeSlot {env : Env} {node : ResIterable} {i s : Nat}
    (h : nodeSlot env node = some (i, s)) :
    ∃ resource conf, node.mData = some resource ∧ slotKey env resource = some (i, s) ∧
      env.getResConf resource.mResCode = some conf ∧
      env.resourceRegistry.mResourceConfigs[i]? = some conf ∧ conf.mPolicy ≠ .PASS_THROUGH := by
  obtain ⟨resource, hdata, hslot⟩ := Option.bind_eq_some_iff.mp h
  split at hslot
  · cases hslot
  · rename_i hpass
    have hrow := getResConf_of_slotKey hslot
    cases hconf : env.getResConf resource.mResCode with
    | none =>
      -- a code that is not registered has no primary index
      have hidx : tableIndex env resource SYSTEM_HIGH = none := by
        simp [tableIndex, getCocoTablePrimaryIndex, hconf]
      simp [slotKey, hidx] at hslot
    | some conf =>
      refine ⟨resource, conf, hdata, hslot, hconf, hrow ▸ hconf, ?_⟩
      simpa [isPassThrough, hconf] using hpass

/-! ## The two loop bodies on a slot -/

section Bodies

variable {env : Env} {conf : ResConfInfo} {i s : Nat} (t : CocoTable)

/-- An insertion into a slot, spelled out: the node goes where the policy wants it, and is applied
if it has come to the head. -/
theorem step_insert (p : Int) (node : ResIterable) (hslot : nodeSlot env node = some (i, s))
    (hrow : env.resourceRegistry.mResourceConfigs[i]? = some conf) (h0 : 0 ≤ p) (h4 : p < 4) :
    t.step env (.insert p node) =
      let dlm := insertByPolicy conf.mPolicy node (t.mCocoTable i (4 * s + p.toNat))
      let t' := t.setList i (4 * s + p.toNat) dlm
      if dlm.head? = some node then t'.applyAction env node i p else t' := by
  obtain ⟨resource, conf', hdata, hkey, hconf, hrow', hpolicy⟩ := data_of_nodeSlot hslot
  obtain rfl : conf' = conf := Option.some.inj (hrow'.symm.trans hrow)
  have hidx : tableIndex env resource p = some (i, 4 * s + p.toNat) := by
    rw [tableIndex_eq env resource h0 h4, hkey]
    rfl
  simp only [step, insertInCocoTable, hdata, hconf, hpolicy, if_false, hidx, DLManager.isNodeNth,
    List.head?_eq_getElem?, beq_iff_eq]
  split <;> rfl

/-- A removal, spelled out: the next node is applied, or the next level that has one, or the tear
runs. -/
theorem step_remove (p : Int) (node : ResIterable) (hslot : nodeSlot env node = some (i, s))
    (hrow : env.resourceRegistry.mResourceConfigs[i]? = some conf) (h0 : 0 ≤ p) (h4 : p < 4) :
    t.step env (.remove p node) =
      let k := 4 * s + p.toNat
      let dlm := (t.mCocoTable i k).filter (· ≠ node)
      let t' := t.setList i k dlm
      match dlm with
      | [] => t'.afterEmptied env i (4 * s : Nat) node
      | head :: _ =>
        if (t.mCocoTable i k).head? = some node then t'.applyAction env head i p else t' := by
  obtain ⟨resource, conf', hdata, hkey, hconf, hrow', hpolicy⟩ := data_of_nodeSlot hslot
  obtain rfl : conf' = conf := Option.some.inj (hrow'.symm.trans hrow)
  have hidx : tableIndex env resource p = some (i, 4 * s + p.toNat) := by
    rw [tableIndex_eq env resource h0 h4, hkey]
    rfl
  simp only [step, removeNode, hdata, hconf, hpolicy, if_false, hidx,
    reIndexIncrement_of_slotKey hconf hkey, DLManager.isNodeNth, List.head?_eq_getElem?,
    beq_iff_eq, DLManager.deleteNode]
  rfl

end Bodies

/-! ## What the actions can change -/

section Actions

variable (env : Env) (t : CocoTable) (node : ResIterable) (i : Nat) (p : Int)

/-- `applyAction` does nothing, or the gate was open and it runs the applier and caches the
priority. -/
theorem applyAction_cases :
    t.applyAction env node i p = t ∨
      t.gateOpen i p ∧ ∃ resource conf, node.mData = some resource ∧
        env.getResConf resource.mResCode = some conf ∧ modeAllows env conf ∧
        t.applyAction env node i p =
          (t.call conf.mResourceApplierCallback (.applier node)).setPriority i p := by
  cases hdata : node.mData with
  | none => exact Or.inl (by simp only [applyAction, hdata])
  | some resource =>
    by_cases hgate : t.gateOpen i p
    · cases hconf : env.getResConf resource.mResCode with
      | none => exact Or.inl (by simp only [applyAction, hdata, hconf, ite_self])
      | some conf =>
        by_cases hmode : modeAllows env conf
        · refine Or.inr ⟨hgate, resource, conf, rfl, hconf, hmode, ?_⟩
          simp only [applyAction, hdata, hconf, hgate, hmode, if_true]
        · exact Or.inl (by simp [applyAction, hdata, hconf, hmode])
    · exact Or.inl (by simp [applyAction, hdata, hgate])

/-- `removeAction` does nothing, or it runs the tear and forgets the cached priority. -/
theorem removeAction_cases :
    t.removeAction env i node = t ∨
      ∃ resource conf, node.mData = some resource ∧
        env.getResConf resource.mResCode = some conf ∧ t.removeAction env i node =
          (t.call conf.mResourceTearCallback (.tear node)).setPriority i (-1) := by
  cases hdata : node.mData with
  | none => exact Or.inl (by simp only [removeAction, hdata])
  | some resource =>
    cases hconf : env.getResConf resource.mResCode with
    | none => exact Or.inl (by simp only [removeAction, hdata, hconf])
    | some conf =>
      exact Or.inr ⟨resource, conf, rfl, hconf, by simp only [removeAction, hdata, hconf]⟩

/-- `applyAction` moves no node. -/
@[simp] theorem applyAction_mCocoTable :
    (t.applyAction env node i p).mCocoTable = t.mCocoTable := by
  rcases t.applyAction_cases env node i p with h | ⟨-, _, _, -, -, -, h⟩ <;> simp [h]

/-- Nor does `removeAction`. -/
@[simp] theorem removeAction_mCocoTable :
    (t.removeAction env i node).mCocoTable = t.mCocoTable := by
  rcases t.removeAction_cases env node i with h | ⟨_, _, -, -, h⟩ <;> simp [h]

/-- Row `j` keeps its cached priority. -/
theorem applyAction_priority_of_ne {j : Nat} (hj : j ≠ i) :
    (t.applyAction env node i p).mCurrentlyAppliedPriority j = t.mCurrentlyAppliedPriority j := by
  rcases t.applyAction_cases env node i p with h | ⟨-, _, _, -, -, -, h⟩ <;> simp [h, hj]

/-- It forgets the priority of its own row only. -/
theorem removeAction_priority_of_ne {j : Nat} (hj : j ≠ i) :
    (t.removeAction env i node).mCurrentlyAppliedPriority j = t.mCurrentlyAppliedPriority j := by
  rcases t.removeAction_cases env node i with h | ⟨_, _, -, -, h⟩ <;> simp [h, hj]

/-- At most one callback runs. -/
theorem call_mCallbacks (cb : Option ResourceLifecycleCallback) (e : Callback) :
    (t.call cb e).mCallbacks = t.mCallbacks ∨ (t.call cb e).mCallbacks = t.mCallbacks ++ [e] := by
  cases cb with
  | none => exact Or.inl rfl
  | some _ => exact Or.inr rfl

/-- `applyAction` runs the applier on its node, or nothing. -/
theorem applyAction_mCallbacks :
    (t.applyAction env node i p).mCallbacks = t.mCallbacks ∨
      (t.applyAction env node i p).mCallbacks = t.mCallbacks ++ [.applier node] := by
  rcases t.applyAction_cases env node i p with h | ⟨-, _, _, -, -, -, h⟩
  · exact Or.inl (by rw [h])
  · rw [h, setPriority_mCallbacks]
    exact t.call_mCallbacks _ _

/-- `removeAction` runs the tear on its node, or nothing. -/
theorem removeAction_mCallbacks :
    (t.removeAction env i node).mCallbacks = t.mCallbacks ∨
      (t.removeAction env i node).mCallbacks = t.mCallbacks ++ [.tear node] := by
  rcases t.removeAction_cases env node i with h | ⟨_, _, -, -, h⟩
  · exact Or.inl (by rw [h])
  · rw [h, setPriority_mCallbacks]
    exact t.call_mCallbacks _ _

end Actions

/-! ## The lists of a slot -/

/-- The lists of slot `(i, s)` by priority. -/
def slotLists (t : CocoTable) (i s : Nat) (p : Nat) : List ResIterable :=
  if p < 4 then t.mCocoTable i (4 * s + p) else []

/-- The four lists of a slot lie next to each other. -/
theorem slotLists_of_lt (t : CocoTable) (i s : Nat) {p : Nat} (hp : p < 4) :
    t.slotLists i s p = t.mCocoTable i (4 * s + p) := if_pos hp

/-- They depend on the lists of the table only. -/
theorem slotLists_congr {t t' : CocoTable} (h : t'.mCocoTable = t.mCocoTable) (i s : Nat) :
    t'.slotLists i s = t.slotLists i s := by
  funext p
  simp only [slotLists, h]

@[simp] theorem slotLists_record (t : CocoTable) (cb : Callback) (i s : Nat) :
    (t.record cb).slotLists i s = t.slotLists i s := rfl

@[simp] theorem slotLists_setPriority (t : CocoTable) (j : Nat) (q : Int) (i s : Nat) :
    (t.setPriority j q).slotLists i s = t.slotLists i s := rfl

/-- A change of one of them is a change at its level. -/
theorem slotLists_setList_self (t : CocoTable) (i s : Nat) {p : Nat} (hp : p < 4)
    (l : List ResIterable) :
    (t.setList i (4 * s + p) l).slotLists i s = Function.update (t.slotLists i s) p l := by
  funext q
  by_cases hq : q = p
  · subst hq
    rw [slotLists_of_lt _ _ _ hp, setList_mCocoTable, Function.update_self]
    simp
  · rw [Function.update_of_ne hq]
    by_cases hq4 : q < 4
    · rw [slotLists_of_lt _ _ _ hq4, slotLists_of_lt _ _ _ hq4, setList_mCocoTable, if_neg]
      omega
    · simp only [slotLists, hq4, if_false]

/-- Another slot has other lists. -/
theorem slotLists_setList_of_ne (t : CocoTable) {i s i' s' : Nat} (h : (i', s') ≠ (i, s)) {p : Nat}
    (hp : p < 4) (l : List ResIterable) :
    (t.setList i' (4 * s' + p) l).slotLists i s = t.slotLists i s := by
  funext q
  by_cases hq4 : q < 4
  · rw [slotLists_of_lt _ _ _ hq4, slotLists_of_lt _ _ _ hq4, setList_mCocoTable, if_neg]
    rintro ⟨rfl, hk⟩
    exact h (by rw [show s' = s by omega])
  · simp only [slotLists, hq4, if_false]

/-- The rescan finds the strongest occupied priority of the slot. -/
theorem rescan_eq_top (t : CocoTable) (i s : Nat) :
    t.rescan i (4 * s) = Arbiter.top 4 (t.slotLists i s) := by
  unfold rescan Arbiter.top
  apply List.find?_congr
  intro p hp
  rw [slotLists_of_lt _ _ _ (List.mem_range.mp hp), Nat.add_comm]

/-- After a list of the slot has emptied, the slot goes to the head of its strongest list, whose
priority is cached first, or, when all four are empty, to the tear callback. -/
theorem afterEmptied_cases (env : Env) (t : CocoTable) (i s : Nat) (node : ResIterable) :
    (∃ q head, Arbiter.top 4 (t.slotLists i s) = some q ∧
        (t.slotLists i s q).head? = some head ∧
        t.afterEmptied env i (4 * s : Nat) node =
          (t.setPriority i q).applyAction env head i q) ∨
      Arbiter.top 4 (t.slotLists i s) = none ∧
        t.afterEmptied env i (4 * s : Nat) node = t.removeAction env i node := by
  have hbase : ((4 * s : Nat) : Int) ≠ -1 := by omega
  cases htop : Arbiter.top 4 (t.slotLists i s) with
  | none =>
    refine Or.inr ⟨rfl, ?_⟩
    simp only [afterEmptied, if_neg hbase, Int.toNat_natCast, rescan_eq_top, htop]
  | some q =>
    obtain ⟨hq4, hne, -⟩ := Arbiter.top_eq_some_iff.mp htop
    obtain ⟨head, rest, hl⟩ := List.exists_cons_of_ne_nil hne
    refine Or.inl ⟨q, head, rfl, by rw [hl]; rfl, ?_⟩
    rw [slotLists_of_lt _ _ _ hq4, Nat.add_comm] at hl
    simp only [afterEmptied, if_neg hbase, Int.toNat_natCast, rescan_eq_top, htop, hl]

/-! ## Which slot an operation touches

The lists of an operation's slot change in one place; everything the operation calls is called on
a node of that slot.  An operation on a node without a slot links nothing, and a pass-through
node only has its own callback run. -/

/-- Every linked node hangs in a list of its own slot. -/
def Placed (env : Env) (t : CocoTable) : Prop :=
  ∀ i k, ∀ node ∈ t.mCocoTable i k, nodeSlot env node = some (i, k / 4)

/-- The list an operation leaves at its index. -/
def newList (conf : ResConfInfo) (t : CocoTable) (i k : Nat) : NodeOp → List ResIterable
  | .insert _ node => insertByPolicy conf.mPolicy node (t.mCocoTable i k)
  | .remove _ node => DLManager.deleteNode (t.mCocoTable i k) node

/-- An operation whose priority is one of the four. -/
def NodeOp.InRange (op : NodeOp) : Prop := 0 ≤ op.priority ∧ op.priority < 4

/-- The index of an operation's list inside its slot. -/
def NodeOp.level (op : NodeOp) : Nat := op.priority.toNat

/-- An operation in range is on one of the four levels. -/
theorem NodeOp.InRange.level_lt {op : NodeOp} (h : op.InRange) : op.level < 4 := by
  obtain ⟨h0, h4⟩ := h
  unfold NodeOp.level
  omega

section Frame

variable {env : Env} {t : CocoTable} {op : NodeOp} {i s : Nat} {conf : ResConfInfo}

/-- The lists after an operation on a queued node of slot `(i, s)`. -/
theorem step_mCocoTable (hslot : nodeSlot env op.node = some (i, s))
    (hrow : env.resourceRegistry.mResourceConfigs[i]? = some conf) (hop : op.InRange) :
    (t.step env op).mCocoTable =
      (t.setList i (4 * s + op.level) (newList conf t i (4 * s + op.level) op)).mCocoTable := by
  cases op with
  | insert p node =>
    rw [t.step_insert p node hslot hrow hop.1 hop.2]
    simp only [newList, NodeOp.level, NodeOp.priority]
    split <;> simp
  | remove p node =>
    rw [t.step_remove p node hslot hrow hop.1 hop.2]
    simp only [newList, NodeOp.level, NodeOp.priority, DLManager.deleteNode]
    split
    · -- the list emptied: the rescan only applies or resets
      rename_i hnil
      rw [hnil]
      rcases afterEmptied_cases env (t.setList i (4 * s + p.toNat) []) i s node with
        ⟨q, head, -, -, h⟩ | ⟨-, h⟩
      · rw [h]
        simp
      · rw [h]
        simp
    · rename_i hcons
      rw [hcons]
      split <;> simp

/-- The callback an operation runs on its own node. -/
def NodeOp.callback : NodeOp → Callback
  | .insert _ node => .applier node
  | .remove _ node => .tear node

/-- The callback of an operation is on its node. -/
@[simp] theorem NodeOp.node_callback (op : NodeOp) : op.callback.node = op.node := by
  cases op <;> rfl

/-- An operation on a node without a slot does nothing, or the node is passed through and the
operation runs the node's own callback. -/
theorem step_of_no_slot (hslot : nodeSlot env op.node = none) (hop : op.InRange) :
    t.step env op = t ∨
      op.node.mData.any (isPassThrough env) ∧ t.step env op = t.record op.callback := by
  have hcall : ∀ (cb : Option ResourceLifecycleCallback) (e : Callback),
      t.call cb e = t ∨ t.call cb e = t.record e := by
    intro cb e
    cases cb with
    | none => exact Or.inl rfl
    | some _ => exact Or.inr rfl
  cases hdata : op.node.mData with
  | none =>
    left
    cases op <;> simp_all [step, insertInCocoTable, removeNode, NodeOp.node]
  | some resource =>
    cases hconf : env.getResConf resource.mResCode with
    | none =>
      left
      cases op <;> simp_all [step, insertInCocoTable, removeNode, NodeOp.node]
    | some conf =>
      by_cases hpolicy : conf.mPolicy = .PASS_THROUGH
      · have hpass : (some resource).any (isPassThrough env) := by
          simp [isPassThrough, hconf, hpolicy]
        cases op with
        | insert p node =>
          simp only [NodeOp.node] at hdata
          simp only [step, insertInCocoTable, hdata, hconf, hpolicy, if_true, fastPathApply]
          split
          · exact (hcall _ (.applier node)).imp id fun h => ⟨hpass, h⟩
          · exact Or.inl rfl
        | remove p node =>
          simp only [NodeOp.node] at hdata
          simp only [step, removeNode, hdata, hconf, hpolicy, if_true, fastPathReset]
          split
          · exact Or.inl rfl
          · exact (hcall _ (.tear node)).imp id fun h => ⟨hpass, h⟩
      · -- queued, but its index fails the range check
        have hkey : slotKey env resource = none := by
          simpa [nodeSlot, hdata, isPassThrough, hconf, hpolicy] using hslot
        have hidx : tableIndex env resource op.priority = none := by
          rw [tableIndex_eq env resource hop.1 hop.2, hkey]
          rfl
        left
        cases op <;> simp_all [step, insertInCocoTable, removeNode, NodeOp.node, NodeOp.priority]

/-- The callbacks of an operation run on nodes of the operation's own slot. -/
theorem step_mCallbacks (hplaced : Placed env t) (hslot : nodeSlot env op.node = some (i, s))
    (hop : op.InRange) :
    ∃ cbs, (t.step env op).mCallbacks = t.mCallbacks ++ cbs ∧
      ∀ cb ∈ cbs, nodeSlot env cb.node = some (i, s) := by
  obtain ⟨-, conf, -, -, -, hrow, -⟩ := data_of_nodeSlot hslot
  -- an action on a node of the slot appends nothing or that node's callback
  have happly : ∀ (t' : CocoTable) (node : ResIterable) (p : Int),
      t'.mCallbacks = t.mCallbacks → nodeSlot env node = some (i, s) →
      ∃ cbs, (t'.applyAction env node i p).mCallbacks = t.mCallbacks ++ cbs ∧
        ∀ cb ∈ cbs, nodeSlot env cb.node = some (i, s) := by
    intro t' node p ht' hnode
    rcases t'.applyAction_mCallbacks env node i p with h | h
    · exact ⟨[], by simp [h, ht'], by simp⟩
    · exact ⟨[.applier node], by rw [h, ht'], by simpa [Callback.node] using hnode⟩
  have hmem : ∀ p : Nat, p < 4 → ∀ node ∈ t.mCocoTable i (4 * s + p),
      nodeSlot env node = some (i, s) := by
    intro p hp node hnode
    rw [hplaced i _ node hnode]
    congr 2
    omega
  cases op with
  | insert p node =>
    rw [t.step_insert p node hslot hrow hop.1 hop.2]
    simp only
    split
    · exact happly _ node p rfl hslot
    · exact ⟨[], by simp, by simp⟩
  | remove p node =>
    rw [t.step_remove p node hslot hrow hop.1 hop.2]
    have hp : p.toNat < 4 := hop.level_lt
    simp only
    split
    · rename_i hnil
      rw [hnil]
      rcases afterEmptied_cases env (t.setList i (4 * s + p.toNat) []) i s node with
        ⟨q, head, htop, hhead, h⟩ | ⟨-, h⟩
      · rw [h]
        refine happly _ head q rfl ?_
        obtain ⟨hq4, -, -⟩ := Arbiter.top_eq_some_iff.mp htop
        rw [slotLists_setList_self t i s hp] at hhead
        by_cases hqp : q = p.toNat
        · rw [hqp, Function.update_self] at hhead
          cases hhead
        · rw [Function.update_of_ne hqp, slotLists_of_lt _ _ _ hq4] at hhead
          exact hmem q hq4 head (List.mem_of_head? hhead)
      · rw [h]
        rcases removeAction_mCallbacks env (t.setList i (4 * s + p.toNat) []) node i with h' | h'
        · exact ⟨[], by simpa using h', by simp⟩
        · refine ⟨[.tear node], by simpa using h', ?_⟩
          simpa [Callback.node, NodeOp.node] using hslot
    · rename_i head rest hcons
      split
      · refine happly _ head p rfl ?_
        have hhead : head ∈ (t.mCocoTable i (4 * s + p.toNat)).filter (· ≠ node) := by
          rw [hcons]
          exact List.mem_cons_self
        exact hmem p.toNat hp head (List.mem_filter.mp hhead).1
      · exact ⟨[], by simp, by simp⟩

/-- Rows other than the operation's keep their cached priority. -/
theorem step_priority_of_ne (hslot : nodeSlot env op.node = some (i, s)) (hop : op.InRange)
    {j : Nat} (hj : j ≠ i) :
    (t.step env op).mCurrentlyAppliedPriority j = t.mCurrentlyAppliedPriority j := by
  obtain ⟨-, conf, -, -, -, hrow, -⟩ := data_of_nodeSlot hslot
  cases op with
  | insert p node =>
    rw [t.step_insert p node hslot hrow hop.1 hop.2]
    simp only
    split <;> simp [applyAction_priority_of_ne, hj]
  | remove p node =>
    rw [t.step_remove p node hslot hrow hop.1 hop.2]
    simp only
    split
    · rcases afterEmptied_cases env (t.setList i (4 * s + p.toNat) _) i s node with
        ⟨q, head, -, -, h⟩ | ⟨-, h⟩
      · rw [h, applyAction_priority_of_ne env _ head i q hj]
        simp [hj]
      · rw [h, removeAction_priority_of_ne env _ node i hj]
        rfl
    · split <;> simp [applyAction_priority_of_ne, hj]

end Frame

/-! ## Nodes stay in their own slot -/

/-- Every policy places the new node somewhere into the list. -/
theorem isPlacement_insertWithPolicy {α : Type} (policyCB : α → α → Bool) :
    Arbiter.IsPlacement (DLManager.insertWithPolicy policyCB) := by
  intro a l
  induction l with
  | nil => exact ⟨[], [], rfl, rfl⟩
  | cons b rest ih =>
    by_cases h : policyCB a b
    · exact ⟨[], b :: rest, rfl, by simp [DLManager.insertWithPolicy, h]⟩
    · obtain ⟨l₁, l₂, hl, hins⟩ := ih
      refine ⟨b :: l₁, l₂, by rw [hl]; rfl, ?_⟩
      simp [DLManager.insertWithPolicy, h, hins]

/-- Whichever policy it is, the node is put somewhere and the others keep their order. -/
theorem isPlacement_insertByPolicy {policy : Policy} (h : policy ≠ .PASS_THROUGH) :
    Arbiter.IsPlacement (insertByPolicy policy) := by
  cases policy with
  | INSTANT_APPLY => exact fun a l => ⟨[], l, rfl, rfl⟩
  | HIGHER_BETTER => exact isPlacement_insertWithPolicy comparHBetter
  | LOWER_BETTER => exact isPlacement_insertWithPolicy comparLBetter
  | LAZY_APPLY => exact fun a l => ⟨l, [], by simp, rfl⟩
  | PASS_THROUGH => exact absurd rfl h

/-- So the list has the node, and what it had. -/
theorem mem_insertByPolicy {policy : Policy} (h : policy ≠ .PASS_THROUGH) {a b : ResIterable}
    {l : List ResIterable} : b ∈ insertByPolicy policy a l ↔ b = a ∨ b ∈ l := by
  obtain ⟨l₁, l₂, hl, hins⟩ := isPlacement_insertByPolicy h a l
  rw [hins, hl]
  simp only [List.mem_append, List.mem_cons]
  tauto

/-- What is linked after an operation on a node that has a slot: the others stay where they
were, and the node itself is linked in the list of its priority, or unlinked from it. -/
theorem mem_step {env : Env} {t : CocoTable} {op : NodeOp} {i s : Nat}
    (hslot : nodeSlot env op.node = some (i, s)) (hop : op.InRange) {i' k' : Nat}
    {node : ResIterable} :
    node ∈ (t.step env op).mCocoTable i' k' ↔
      match op with
      | .insert p n => (node = n ∧ i' = i ∧ k' = 4 * s + p.toNat) ∨ node ∈ t.mCocoTable i' k'
      | .remove p n => node ∈ t.mCocoTable i' k' ∧ ¬ (node = n ∧ i' = i ∧ k' = 4 * s + p.toNat) := by
  obtain ⟨-, conf, -, -, -, hrow, hpolicy⟩ := data_of_nodeSlot hslot
  rw [step_mCocoTable hslot hrow hop, setList_mCocoTable]
  by_cases hat : i' = i ∧ k' = 4 * s + op.level
  · obtain ⟨rfl, rfl⟩ := hat
    cases op with
    | insert p n => simp [newList, mem_insertByPolicy hpolicy, NodeOp.level, NodeOp.priority]
    | remove p n => simp [newList, DLManager.deleteNode, NodeOp.level, NodeOp.priority]
  · rw [if_neg hat]
    cases op with
    | insert p n =>
      simp only [NodeOp.level, NodeOp.priority] at hat
      tauto
    | remove p n =>
      simp only [NodeOp.level, NodeOp.priority] at hat
      tauto

/-- An operation on a node without a slot leaves the lists alone. -/
theorem step_mCocoTable_of_no_slot {env : Env} {t : CocoTable} {op : NodeOp}
    (hslot : nodeSlot env op.node = none) (hop : op.InRange) :
    (t.step env op).mCocoTable = t.mCocoTable := by
  rcases step_of_no_slot (t := t) hslot hop with h | ⟨-, h⟩ <;> simp [h]

/-- In the empty table every node is where it belongs. -/
theorem placed_new (env : Env) : Placed env new := by
  intro i k node h
  cases h

/-- An operation puts a node where it belongs, or takes one out. -/
theorem placed_step {env : Env} {t : CocoTable} (hplaced : Placed env t) {op : NodeOp}
    (hop : op.InRange) : Placed env (t.step env op) := by
  intro i' k' node hnode
  cases hslot : nodeSlot env op.node with
  | none =>
    rw [step_mCocoTable_of_no_slot hslot hop] at hnode
    exact hplaced i' k' node hnode
  | some key =>
    obtain ⟨i, s⟩ := key
    rw [mem_step hslot hop] at hnode
    cases op with
    | insert p n =>
      rcases hnode with ⟨rfl, rfl, rfl⟩ | hnode
      · have hp : p.toNat < 4 := hop.level_lt
        rw [show (4 * s + p.toNat) / 4 = s by omega]
        exact hslot
      · exact hplaced i' k' node hnode
    | remove p n => exact hplaced i' k' node hnode.1

/-- So every node of a table that operations have led to is in the list of its slot and level. -/
theorem placed_exec (env : Env) {ops : List NodeOp} (hops : ∀ op ∈ ops, op.InRange) :
    Placed env (exec env ops) := by
  induction ops using List.reverseRecOn with
  | nil => exact placed_new env
  | append_singleton ops op ih =>
    rw [exec_append_singleton]
    exact placed_step (ih fun o ho => hops o (by simp [ho])) (hops op (by simp))

/-! ## Calls as node operations -/

/-- The node operations of a sequence of calls. -/
def callOps (calls : List Call) : List NodeOp := calls.flatMap Call.ops

/-- A history goes on from where it is. -/
theorem foldl_step_append (env : Env) (ops more : List NodeOp) :
    exec env (ops ++ more) = more.foldl (step env) (exec env ops) := by
  simp [exec]

/-- `insertRequest` that answers true has linked every node, and changed the request in its timer
only. -/
theorem insertRequest_of_true {env : Env} {t t' : CocoTable} {request request' : Request}
    {timerBlock : Option Nat} {enqueued : Bool}
    (h : t.insertRequest env request timerBlock enqueued = (true, t', request')) :
    t' = t.insertNodes env request.getPriority request.nodes ∧
      ∃ timer, request' = { request with mTimer := timer } := by
  unfold insertRequest at h
  split at h
  · cases h
  · simp only at h
    cases hlist : request.mResourceList with
    | none => simp [hlist] at h
    | some nodes =>
      simp only [hlist] at h
      split at h
      · cases h
      · obtain ⟨-, ht, hr⟩ := Prod.mk.inj h |>.imp id Prod.mk.inj
        refine ⟨?_, _, hr.symm⟩
        rw [← ht, Request.nodes, hlist]
        rfl

/-- An infinite request needs no timer, and is always inserted. -/
theorem insertRequest_of_infinite (env : Env) (t : CocoTable) {request : Request}
    (hduration : request.mDuration = -1) (hlist : request.mResourceList.isSome)
    (timerBlock : Option Nat) (enqueued : Bool) :
    t.insertRequest env request timerBlock enqueued =
      (true, t.insertNodes env request.getPriority request.nodes,
        { request with mTimer := none }) := by
  obtain ⟨nodes, hnodes⟩ := Option.isSome_iff_exists.mp hlist
  simp only [insertRequest, hduration, ne_eq, not_true_eq_false, false_and, if_false, hnodes,
    Request.nodes, Option.getD_some]
  rfl

/-- The loop of `insertRequest` is one insertion for each node. -/
theorem insertNodes_eq (env : Env) (t : CocoTable) (priority : Int) (nodes : List ResIterable) :
    t.insertNodes env priority nodes = (nodes.map (.insert priority)).foldl (step env) t := by
  rw [insertNodes, List.foldl_map]
  rfl

/-- The loop of `removeRequest` is one removal for each. -/
theorem removeRequest_eq (env : Env) (t : CocoTable) (request : Request) :
    t.removeRequest env request =
      (request.nodes.map (.remove request.getPriority)).foldl (step env) t := by
  rw [removeRequest, List.foldl_map]
  rfl

end CocoTable

open CocoTable

/-- One more infinite request. -/
theorem Run.insert_infinite {env : Env} {calls : List Call} {t : CocoTable} {live : List Request}
    (run : Run env calls t live) (request : Request) (hduration : request.mDuration = -1)
    (verified : Verified env request) (nodup : request.nodes.Nodup)
    (fresh : ∀ node ∈ request.nodes, node ∉ liveNodes live) :
    Run env (calls ++ [.insertRequest request])
      (t.insertNodes env request.getPriority request.nodes)
      ({ request with mTimer := none } :: live) :=
  run.insert verified nodup fresh
    (insertRequest_of_infinite env t hduration verified.list none false)

/-- Everything inserted was verified. -/
theorem Run.verified {env : Env} {calls : List Call} {t : CocoTable} {live : List Request}
    (run : Run env calls t live) : ∀ request ∈ live, Verified env request := by
  induction run with
  | nil => simp
  | insert _ verified _ _ inserted ih =>
    intro request hmem
    obtain ⟨-, timer, rfl⟩ := insertRequest_of_true inserted
    rcases List.mem_cons.mp hmem with rfl | hmem
    · exact ⟨verified.priority_nonneg, verified.priority_lt, verified.list, verified.registered⟩
    · exact ih request hmem
  | remove _ _ ih => exact fun request hmem => ih request (List.mem_of_mem_erase hmem)

/-- **A run of calls is a run of node operations.** -/
theorem Run.eq_exec {env : Env} {calls : List Call} {t : CocoTable} {live : List Request}
    (run : Run env calls t live) : t = exec env (callOps calls) := by
  induction run with
  | nil => rfl
  | insert _ _ _ _ inserted ih =>
    obtain ⟨ht, -⟩ := insertRequest_of_true inserted
    rw [ht, insertNodes_eq, ih, ← foldl_step_append]
    simp [callOps, Call.ops]
  | remove _ _ ih =>
    rw [removeRequest_eq, ih, ← foldl_step_append]
    simp [callOps, Call.ops]

/-- Every operation of a run has one of the four priorities. -/
theorem Run.inRange {env : Env} {calls : List Call} {t : CocoTable} {live : List Request}
    (run : Run env calls t live) : ∀ op ∈ callOps calls, op.InRange := by
  induction run with
  | nil => simp [callOps]
  | insert _ verified _ _ _ ih =>
    intro op hop
    simp only [callOps, List.flatMap_append, List.flatMap_singleton, List.mem_append] at hop
    rcases hop with hop | hop
    · exact ih op hop
    · obtain ⟨node, -, rfl⟩ := List.mem_map.mp hop
      exact ⟨verified.priority_nonneg, verified.priority_lt⟩
  | remove run linked ih =>
    intro op hop
    simp only [callOps, List.flatMap_append, List.flatMap_singleton, List.mem_append] at hop
    rcases hop with hop | hop
    · exact ih op hop
    · obtain ⟨node, -, rfl⟩ := List.mem_map.mp hop
      have hv := run.verified _ linked
      exact ⟨hv.priority_nonneg, hv.priority_lt⟩

end ResourceTuner
