import ResourceTuner.Core.CocoTableSlots

/-!
# Arbitration

Which request's value a slot ends up with.  The view of one slot is a state of the general
arbiter of `ResourceTuner.Lib.Arbiter`; the table follows the arbiter as long as its cached
priority answers as the lists of the slot would.

* **`slotView`** — the lists and the callbacks of one slot;
* **`GateAgrees`** — the cached priority and the slot give the same answer;
* **`slotView_step`** — while they do, a node operation on the slot is the arbiter's operation,
  and an operation on any other slot leaves the view alone;
* **`slotView_exec`** — whole runs;
* **`cached_exec`** — a global resource has one slot only, and there they always agree.
-/

namespace ResourceTuner

namespace CocoTable

/-! ## The view of one slot -/

/-- A callback as an effect on the slot. -/
def toEffect : Callback → Arbiter.Effect ResIterable
  | .applier node => .apply node
  | .tear node => .reset node

/-- The callbacks that ran for a slot. -/
def slotCallbacks (env : Env) (t : CocoTable) (i s : Nat) : List Callback :=
  t.mCallbacks.filter fun cb => nodeSlot env cb.node == some (i, s)

/-- **The view of a slot**: its lists, and the effects of the callbacks that ran for it. -/
def slotView (env : Env) (t : CocoTable) (i s : Nat) : Arbiter.State ResIterable :=
  ⟨t.slotLists i s, (slotCallbacks env t i s).map toEffect⟩

@[simp] theorem slotView_level (env : Env) (t : CocoTable) (i s : Nat) :
    (slotView env t i s).level = t.slotLists i s := rfl

/-- The arbiter's operation a node operation stands for, when it is about slot `(i, s)`. -/
def slotOp (env : Env) (i s : Nat) (op : NodeOp) : Option (Arbiter.Op ResIterable) :=
  if nodeSlot env op.node = some (i, s) then
    match op with
    | .insert p node => some (.insert p.toNat node)
    | .remove p node => some (.remove p.toNat node)
  else none

/-- **The gate agrees with the slot.**  Where the operation makes the table decide by the cached
priority (a node that became the head of its list, a head that left others behind), the test
opens exactly when no stronger list of this slot is occupied. -/
def GateAgrees (env : Env) (conf : ResConfInfo) (i s : Nat) (t : CocoTable) : NodeOp → Prop
  | .insert p node =>
    nodeSlot env node = some (i, s) →
    (insertByPolicy conf.mPolicy node (t.slotLists i s p.toNat)).head? = some node →
    (t.gateOpen i p = true ↔ Arbiter.Clear (t.slotLists i s) p.toNat)
  | .remove p node =>
    nodeSlot env node = some (i, s) →
    (t.slotLists i s p.toNat).head? = some node →
    (t.slotLists i s p.toNat).filter (· ≠ node) ≠ [] →
    (t.gateOpen i p = true ↔ Arbiter.Clear (t.slotLists i s) p.toNat)

/-! ## One operation -/

section Step

variable {env : Env} {t : CocoTable} {conf : ResConfInfo} {i s : Nat}

theorem slotView_ext {t' : CocoTable} {st : Arbiter.State ResIterable}
    (hlists : t'.slotLists i s = st.level)
    (hlog : (slotCallbacks env t' i s).map toEffect = st.log) : slotView env t' i s = st := by
  cases st
  simp only [slotView, hlists, hlog]

/-- Callbacks of one slot appended to the history. -/
theorem slotCallbacks_append {t' : CocoTable} {cbs : List Callback}
    (h : t'.mCallbacks = t.mCallbacks ++ cbs) :
    slotCallbacks env t' i s =
      slotCallbacks env t i s ++ cbs.filter fun cb => nodeSlot env cb.node == some (i, s) := by
  simp only [slotCallbacks, h, List.filter_append]

/-- Operations on another slot, or on no slot, are invisible. -/
theorem slotView_step_of_ne (hplaced : Placed env t) {op : NodeOp} (hop : op.InRange)
    (h : nodeSlot env op.node ≠ some (i, s)) :
    slotView env (t.step env op) i s = slotView env t i s := by
  cases hslot : nodeSlot env op.node with
  | none =>
    apply slotView_ext (slotLists_congr (step_mCocoTable_of_no_slot hslot hop) i s)
    rcases step_of_no_slot (t := t) hslot hop with heq | ⟨-, heq⟩
    · rw [heq]
      rfl
    · rw [slotCallbacks_append (t := t) (by rw [heq, record_mCallbacks])]
      simp [hslot, slotView]
  | some key =>
    obtain ⟨i', s'⟩ := key
    have hne : (i', s') ≠ (i, s) := by
      intro heq
      exact h (by rw [hslot, heq])
    obtain ⟨-, conf', -, -, -, hrow', -⟩ := data_of_nodeSlot hslot
    apply slotView_ext
    · rw [slotLists_congr (step_mCocoTable hslot hrow' hop) i s]
      exact slotLists_setList_of_ne t hne hop.level_lt _
    · obtain ⟨cbs, hcbs, hin⟩ := step_mCallbacks hplaced hslot hop
      have hnone : cbs.filter (fun cb => nodeSlot env cb.node == some (i, s)) = [] := by
        rw [List.filter_eq_nil_iff]
        intro cb hcb
        simpa [hin cb hcb] using hne
      rw [slotCallbacks_append hcbs, hnone, List.append_nil]
      rfl

/-- On a node of a slot whose row may be written in the current mode, `applyAction` is decided by
the gate alone. -/
theorem applyAction_of_slot {node : ResIterable} (hslot : nodeSlot env node = some (i, s))
    (hrow : env.resourceRegistry.mResourceConfigs[i]? = some conf)
    (hmode : modeAllows env conf = true) (p : Int) :
    t.applyAction env node i p =
      if t.gateOpen i p then (t.record (.applier node)).setPriority i p else t := by
  obtain ⟨resource, conf', hdata, -, hconf, hrow', -⟩ := data_of_nodeSlot hslot
  obtain rfl : conf' = conf := Option.some.inj (hrow'.symm.trans hrow)
  obtain ⟨cb, hcb⟩ := Option.isSome_iff_exists.mp
    (ResourceRegistry.hasCallbacks_of_getResConf hconf).1
  simp only [applyAction, hdata, hconf, hmode, if_true, hcb, call]

/-- Likewise the tear callback of a row always runs. -/
theorem removeAction_of_slot {node : ResIterable} (hslot : nodeSlot env node = some (i, s)) :
    t.removeAction env i node = (t.record (.tear node)).setPriority i (-1) := by
  obtain ⟨resource, conf, hdata, -, hconf, -, -⟩ := data_of_nodeSlot hslot
  obtain ⟨cb, hcb⟩ := Option.isSome_iff_exists.mp
    (ResourceRegistry.hasCallbacks_of_getResConf hconf).2
  simp only [removeAction, hdata, hconf, hcb, call]

theorem nodeSlot_of_mem (hplaced : Placed env t) {p : Nat} {node : ResIterable}
    (h : node ∈ t.slotLists i s p) : nodeSlot env node = some (i, s) := by
  by_cases hp : p < 4
  · rw [slotLists_of_lt _ _ _ hp] at h
    rw [hplaced i _ node h]
    congr 2
    omega
  · simp [slotLists, hp] at h

variable (hrow : env.resourceRegistry.mResourceConfigs[i]? = some conf)
  (hmode : modeAllows env conf = true)

include hrow hmode in
/-- An insertion on the slot, once the gate agrees. -/
theorem step_insert_of_gateAgrees {p : Int} {node : ResIterable}
    (hslot : nodeSlot env node = some (i, s)) (hop : (NodeOp.insert p node).InRange)
    (hgate : GateAgrees env conf i s t (.insert p node)) :
    t.step env (.insert p node) =
      let dlm := insertByPolicy conf.mPolicy node (t.slotLists i s p.toNat)
      let t' := t.setList i (4 * s + p.toNat) dlm
      if dlm.head? = some node ∧ Arbiter.Clear (t.slotLists i s) p.toNat then
        (t'.record (.applier node)).setPriority i p
      else t' := by
  have hp : p.toNat < 4 := hop.level_lt
  rw [t.step_insert p node hslot hrow hop.1 hop.2, ← slotLists_of_lt t i s hp]
  simp only [applyAction_of_slot hslot hrow hmode]
  by_cases hhead : (insertByPolicy conf.mPolicy node (t.slotLists i s p.toNat)).head? = some node
  · have hopen : (t.setList i (4 * s + p.toNat)
        (insertByPolicy conf.mPolicy node (t.slotLists i s p.toNat))).gateOpen i p = true ↔
        Arbiter.Clear (t.slotLists i s) p.toNat := hgate hslot hhead
    simp only [hhead, true_and, if_true, hopen]
  · simp only [hhead, false_and, if_false]

include hrow hmode in
/-- A removal on the slot that leaves its list occupied, once the gate agrees. -/
theorem step_remove_of_cons {p : Int} {node head : ResIterable} {rest : List ResIterable}
    (hplaced : Placed env t) (hslot : nodeSlot env node = some (i, s))
    (hop : (NodeOp.remove p node).InRange) (hgate : GateAgrees env conf i s t (.remove p node))
    (hcons : (t.slotLists i s p.toNat).filter (· ≠ node) = head :: rest) :
    t.step env (.remove p node) =
      let t' := t.setList i (4 * s + p.toNat) (head :: rest)
      if (t.slotLists i s p.toNat).head? = some node ∧
          Arbiter.Clear (t.slotLists i s) p.toNat then
        (t'.record (.applier head)).setPriority i p
      else t' := by
  have hp : p.toNat < 4 := hop.level_lt
  have hhead : nodeSlot env head = some (i, s) := by
    have hmem : head ∈ (t.slotLists i s p.toNat).filter (· ≠ node) := by
      rw [hcons]
      exact List.mem_cons_self
    exact nodeSlot_of_mem hplaced (List.mem_filter.mp hmem).1
  rw [t.step_remove p node hslot hrow hop.1 hop.2]
  simp only [← slotLists_of_lt t i s hp, hcons, applyAction_of_slot hhead hrow hmode]
  by_cases hfirst : (t.slotLists i s p.toNat).head? = some node
  · have hopen : (t.setList i (4 * s + p.toNat) (head :: rest)).gateOpen i p = true ↔
        Arbiter.Clear (t.slotLists i s) p.toNat := hgate hslot hfirst (by
          rw [hcons]
          exact List.cons_ne_nil _ _)
    simp only [hfirst, true_and, if_true, hopen]
  · simp only [hfirst, false_and, if_false]

include hrow hmode in
/-- A removal on the slot that empties its list: the strongest occupied priority takes over, with
no need of the gate, since the cached priority is set to it first. -/
theorem step_remove_of_nil {p : Int} {node : ResIterable}
    (hplaced : Placed env t) (hslot : nodeSlot env node = some (i, s))
    (hop : (NodeOp.remove p node).InRange)
    (hnil : (t.slotLists i s p.toNat).filter (· ≠ node) = []) :
    let t' := t.setList i (4 * s + p.toNat) []
    (∃ (q : Nat) (head : ResIterable), Arbiter.top 4 (t'.slotLists i s) = some q ∧
        (t'.slotLists i s q).head? = some head ∧ nodeSlot env head = some (i, s) ∧
        t.step env (.remove p node) = (t'.record (.applier head)).setPriority i q) ∨
      Arbiter.top 4 (t'.slotLists i s) = none ∧
        t.step env (.remove p node) = (t'.record (.tear node)).setPriority i (-1) := by
  have hp : p.toNat < 4 := hop.level_lt
  intro t'
  have hstep : t.step env (.remove p node) = t'.afterEmptied env i (4 * s : Nat) node := by
    rw [t.step_remove p node hslot hrow hop.1 hop.2]
    simp only [← slotLists_of_lt t i s hp, hnil]
    rfl
  rcases afterEmptied_cases env t' i s node with ⟨q, head, htop, hhead, h⟩ | ⟨htop, h⟩
  · have hslot' : nodeSlot env head = some (i, s) := by
      have hmem := List.mem_of_head? hhead
      rw [slotLists_setList_self t i s hp] at hmem
      by_cases hq : q = p.toNat
      · rw [hq, Function.update_self] at hmem
        cases hmem
      · rw [Function.update_of_ne hq] at hmem
        exact nodeSlot_of_mem hplaced hmem
    refine Or.inl ⟨q, head, htop, hhead, hslot', ?_⟩
    rw [hstep, h, applyAction_of_slot hslot' hrow hmode]
    have hopen : (t'.setPriority i q).gateOpen i q = true := by simp [gateOpen]
    rw [if_pos hopen]
    -- the priority is cached twice
    simp only [setPriority, record, Function.update_idem]
  · exact Or.inr ⟨htop, by rw [hstep, h, removeAction_of_slot hslot]⟩

/-- Relinking a list of the slot changes one level of the view. -/
theorem slotView_setList {p : Nat} (hp : p < 4) (l : List ResIterable) :
    slotView env (t.setList i (4 * s + p) l) i s =
      ⟨Function.update (t.slotLists i s) p l, (slotView env t i s).log⟩ :=
  slotView_ext (slotLists_setList_self t i s hp l) rfl

/-- A callback on a node of the slot shows in its history. -/
theorem slotView_record (cb : Callback) (hslot : nodeSlot env cb.node = some (i, s)) (j : Nat)
    (q : Int) :
    slotView env ((t.record cb).setPriority j q) i s =
      ⟨(slotView env t i s).level, (slotView env t i s).log ++ [toEffect cb]⟩ := by
  apply slotView_ext rfl
  rw [slotCallbacks_append (t := t) rfl]
  simp [hslot, slotView]

include hrow hmode in
theorem slotView_insert {p : Int} {node : ResIterable}
    (hslot : nodeSlot env node = some (i, s)) (hop : (NodeOp.insert p node).InRange)
    (hgate : GateAgrees env conf i s t (.insert p node)) :
    slotView env (t.step env (.insert p node)) i s =
      Arbiter.insert (insertByPolicy conf.mPolicy) (slotView env t i s) p.toNat node := by
  have hp : p.toNat < 4 := hop.level_lt
  rw [step_insert_of_gateAgrees hrow hmode hslot hop hgate]
  simp only
  split
  · rename_i hwins
    rw [Arbiter.insert_of_wins (s := slotView env t i s) hwins,
      slotView_record (t := t.setList _ _ _) (.applier node) hslot, slotView_setList hp]
    rfl
  · rename_i hwaits
    rw [Arbiter.insert_of_waits (s := slotView env t i s) hwaits, slotView_setList hp]
    rfl

include hrow hmode in
theorem slotView_remove (hplaced : Placed env t) {p : Int} {node : ResIterable}
    (hslot : nodeSlot env node = some (i, s)) (hop : (NodeOp.remove p node).InRange)
    (hgate : GateAgrees env conf i s t (.remove p node)) :
    slotView env (t.step env (.remove p node)) i s =
      Arbiter.remove 4 (slotView env t i s) p.toNat node := by
  have hp : p.toNat < 4 := hop.level_lt
  cases hl : (t.slotLists i s p.toNat).filter (· ≠ node) with
  | nil =>
    have hlists := slotLists_setList_self t i s hp []
    rw [Arbiter.remove_of_nil (s := slotView env t i s) hl, slotView_level, ← hlists]
    rcases step_remove_of_nil hrow hmode hplaced hslot hop hl with
      ⟨q, head, htop, hhead, hslot', h⟩ | ⟨htop, h⟩
    · rw [h, slotView_record (.applier head) hslot', Arbiter.winner_of_top htop, hhead]
      rfl
    · rw [h, slotView_record (.tear node) hslot, Arbiter.winner_eq_none_iff.mpr htop]
      rfl
  | cons head rest =>
    have hhead : nodeSlot env head = some (i, s) := by
      have hmem : head ∈ (t.slotLists i s p.toNat).filter (· ≠ node) := by
        rw [hl]
        exact List.mem_cons_self
      exact nodeSlot_of_mem hplaced (List.mem_filter.mp hmem).1
    rw [step_remove_of_cons hrow hmode hplaced hslot hop hgate hl]
    simp only
    split
    · rename_i hnext
      rw [Arbiter.remove_of_succeeded (s := slotView env t i s) hl hnext,
        slotView_record (t := t.setList _ _ _) (.applier head) hhead, slotView_setList hp]
      rfl
    · rename_i hskip
      rw [Arbiter.remove_of_unnoticed (s := slotView env t i s) hl hskip, slotView_setList hp]
      rfl

include hrow hmode in
/-- **One operation follows the arbiter** while the gate agrees. -/
theorem slotView_step (hplaced : Placed env t) {op : NodeOp} (hop : op.InRange)
    (hgate : GateAgrees env conf i s t op) :
    slotView env (t.step env op) i s =
      match slotOp env i s op with
      | some o => Arbiter.step 4 (insertByPolicy conf.mPolicy) (slotView env t i s) o
      | none => slotView env t i s := by
  by_cases hslot : nodeSlot env op.node = some (i, s)
  · cases op with
    | insert p node =>
      simp only [slotOp, hslot, if_true]
      exact slotView_insert hrow hmode hslot hop hgate
    | remove p node =>
      simp only [slotOp, hslot, if_true]
      exact slotView_remove hrow hmode hplaced hslot hop hgate
  · rw [slotView_step_of_ne hplaced hop hslot]
    simp only [slotOp, hslot, if_false]

end Step

/-! ## Runs -/

/-- The gate agrees at every operation of the sequence, in the state it finds. -/
def GatesAgree (env : Env) (conf : ResConfInfo) (i s : Nat) (ops : List NodeOp) : Prop :=
  ∀ pre op post, ops = pre ++ op :: post → GateAgrees env conf i s (exec env pre) op

theorem gatesAgree_nil (env : Env) (conf : ResConfInfo) (i s : Nat) :
    GatesAgree env conf i s [] := by
  intro pre op post h
  simp at h

theorem gatesAgree_concat {env : Env} {conf : ResConfInfo} {i s : Nat} {ops : List NodeOp}
    {op : NodeOp} (hops : GatesAgree env conf i s ops)
    (hop : GateAgrees env conf i s (exec env ops) op) : GatesAgree env conf i s (ops ++ [op]) := by
  intro pre o post h
  rcases List.eq_nil_or_concat post with rfl | ⟨post', o', rfl⟩
  · obtain ⟨rfl, hlast⟩ := List.append_inj' h rfl
    obtain rfl := List.singleton_inj.mp hlast
    exact hop
  · rw [List.concat_eq_append, ← List.cons_append, ← List.append_assoc] at h
    obtain ⟨h, -⟩ := List.append_inj' h rfl
    exact hops pre o post' h

/-- The arbiter's operations a sequence performs on a slot. -/
def slotOps (env : Env) (i s : Nat) (ops : List NodeOp) : List (Arbiter.Op ResIterable) :=
  ops.filterMap (slotOp env i s)

/-- **A run follows the arbiter** on every slot whose gate agrees throughout. -/
theorem slotView_exec {env : Env} {conf : ResConfInfo} {i s : Nat}
    (hrow : env.resourceRegistry.mResourceConfigs[i]? = some conf)
    (hmode : modeAllows env conf = true) {ops : List NodeOp} (hops : ∀ op ∈ ops, op.InRange)
    (hgates : GatesAgree env conf i s ops) :
    slotView env (exec env ops) i s =
      Arbiter.run 4 (insertByPolicy conf.mPolicy) (slotOps env i s ops) := by
  induction ops using List.reverseRecOn with
  | nil =>
    apply slotView_ext _ rfl
    funext p
    simp [slotLists, new, Arbiter.run, slotOps, Arbiter.init]
  | append_singleton ops op ih =>
    have hops' : ∀ o ∈ ops, o.InRange := fun o ho => hops o (by simp [ho])
    have hgates' : GatesAgree env conf i s ops := by
      intro pre o post h
      exact hgates pre o (post ++ [op]) (by simp [h])
    rw [exec_append_singleton, slotView_step hrow hmode (placed_exec env hops')
      (hops op (by simp)) (hgates ops op [] rfl), ih hops' hgates']
    cases h : slotOp env i s op with
    | none => simp [slotOps, h]
    | some o => simp [slotOps, h, Arbiter.run]

/-- **The slot is arbitrated**: its last callback was the applier on the head of its strongest
occupied list; or all four lists are empty, and there was none or it was the tear. -/
def SlotArbitrated (env : Env) (t : CocoTable) (i s : Nat) : Prop :=
  match Arbiter.winner 4 (t.slotLists i s) with
  | some head => (slotCallbacks env t i s).getLast? = some (.applier head)
  | none => slotCallbacks env t i s = [] ∨
      ∃ node, (slotCallbacks env t i s).getLast? = some (.tear node)

theorem slotArbitrated_of_settled {env : Env} {t : CocoTable} {i s : Nat}
    (h : Arbiter.Settled 4 (slotView env t i s)) : SlotArbitrated env t i s := by
  unfold Arbiter.Settled at h
  unfold SlotArbitrated
  rw [slotView_level] at h
  cases hw : Arbiter.winner 4 (t.slotLists i s) with
  | some head =>
    simp only [hw, slotView, List.getLast?_map] at h
    obtain ⟨cb, hcb, heff⟩ := Option.map_eq_some_iff.mp h
    cases cb with
    | applier node =>
      obtain rfl := Arbiter.Effect.apply.inj heff
      exact hcb
    | tear node => cases heff
  | none =>
    simp only [hw, slotView, List.getLast?_map, List.map_eq_nil_iff] at h
    rcases h with hnil | ⟨a, hlast⟩
    · exact Or.inl hnil
    · obtain ⟨cb, hcb, heff⟩ := Option.map_eq_some_iff.mp hlast
      cases cb with
      | applier node => cases heff
      | tear node => exact Or.inr ⟨node, hcb⟩

/-! ## The cached priority of a resource with one slot -/

/-- The cached priority is the strongest occupied one of the slot, or `-1`. -/
def Cached (t : CocoTable) (i s : Nat) : Prop :=
  t.mCurrentlyAppliedPriority i =
    match Arbiter.top 4 (t.slotLists i s) with
    | some q => (q : Int)
    | none => -1

section Cached

variable {env : Env} {t : CocoTable} {conf : ResConfInfo} {i s : Nat}

theorem gateOpen_iff_clear (h : Cached t i s) {p : Int} (h0 : 0 ≤ p) (h4 : p < 4) :
    t.gateOpen i p = true ↔ Arbiter.Clear (t.slotLists i s) p.toNat := by
  unfold Cached at h
  cases htop : Arbiter.top 4 (t.slotLists i s) with
  | none =>
    have hempty := Arbiter.top_eq_none_iff.mp htop
    have hclear : Arbiter.Clear (t.slotLists i s) p.toNat := fun q hq => hempty q (by omega)
    rw [htop] at h
    simp [gateOpen, h, hclear]
  | some q =>
    obtain ⟨-, hne, hclear⟩ := Arbiter.top_eq_some_iff.mp htop
    rw [htop] at h
    have hcur : t.gateOpen i p = true ↔ p ≤ q := by
      simp only [gateOpen, h, Bool.or_eq_true, decide_eq_true_eq, beq_iff_eq]
      omega
    rw [hcur]
    constructor
    · intro hpq r hr
      exact hclear r (by omega)
    · intro hc
      by_contra hlt
      exact hne (hc q (by omega))

theorem gateAgrees_of_cached (h : Cached t i s) {op : NodeOp} (hop : op.InRange) :
    GateAgrees env conf i s t op := by
  cases op with
  | insert p node => exact fun _ _ => gateOpen_iff_clear h hop.1 hop.2
  | remove p node => exact fun _ _ _ => gateOpen_iff_clear h hop.1 hop.2

/-- The cached priority was set to the strongest occupied one. -/
theorem cached_setPriority {t' : CocoTable} {q : Nat}
    (htop : Arbiter.top 4 (t'.slotLists i s) = some q) (cb : Callback) :
    Cached ((t'.record cb).setPriority i q) i s := by
  simp [Cached, htop]

/-- The lists changed and the strongest occupied priority did not. -/
theorem cached_congr (h : Cached t i s) {t' : CocoTable}
    (hcur : t'.mCurrentlyAppliedPriority i = t.mCurrentlyAppliedPriority i)
    (htop : Arbiter.top 4 (t'.slotLists i s) = Arbiter.top 4 (t.slotLists i s)) :
    Cached t' i s := by
  unfold Cached at h ⊢
  rw [hcur, h, htop]

variable (hrow : env.resourceRegistry.mResourceConfigs[i]? = some conf)
  (hmode : modeAllows env conf = true)

include hrow hmode in
theorem cached_insert (h : Cached t i s) {p : Int} {node : ResIterable}
    (hslot : nodeSlot env node = some (i, s)) (hop : (NodeOp.insert p node).InRange) :
    Cached (t.step env (.insert p node)) i s := by
  have hp : p.toNat < 4 := hop.level_lt
  obtain ⟨-, conf', -, -, -, hrow', hpolicy⟩ := data_of_nodeSlot hslot
  obtain rfl : conf' = conf := Option.some.inj (hrow'.symm.trans hrow)
  have hplace := isPlacement_insertByPolicy hpolicy
  have hlists := slotLists_setList_self t i s hp
    (insertByPolicy conf'.mPolicy node (t.slotLists i s p.toNat))
  have hne := hplace.ne_nil node (t.slotLists i s p.toNat)
  rw [step_insert_of_gateAgrees hrow hmode hslot hop (gateAgrees_of_cached h hop)]
  simp only
  split
  · rename_i hwins
    rw [show p = ((p.toNat : Nat) : Int) from (Int.toNat_of_nonneg hop.1).symm]
    apply cached_setPriority
    rw [Int.toNat_natCast, hlists]
    exact Arbiter.top_update_of_clear hp hwins.2 hne
  · rename_i hwaits
    refine cached_congr h rfl ?_
    rw [hlists]
    by_cases hclear : Arbiter.Clear (t.slotLists i s) p.toNat
    · -- it was placed behind someone, so its list was occupied already
      have hhead := hplace.head?_of_ne fun hhead => hwaits ⟨hhead, hclear⟩
      apply Arbiter.top_update_of_iff
      rw [← List.head?_eq_none_iff, hhead, List.head?_eq_none_iff]
    · exact Arbiter.top_update_of_not_clear hclear _

include hrow hmode in
theorem cached_remove (hplaced : Placed env t) (h : Cached t i s) {p : Int} {node : ResIterable}
    (hslot : nodeSlot env node = some (i, s)) (hop : (NodeOp.remove p node).InRange) :
    Cached (t.step env (.remove p node)) i s := by
  have hp : p.toNat < 4 := hop.level_lt
  cases hl : (t.slotLists i s p.toNat).filter (· ≠ node) with
  | nil =>
    rcases step_remove_of_nil hrow hmode hplaced hslot hop hl with
      ⟨q, head, htop, -, -, hstep⟩ | ⟨htop, hstep⟩
    · rw [hstep]
      exact cached_setPriority htop _
    · rw [hstep]
      unfold Cached
      simp [htop]
  | cons head rest =>
    have hlists := slotLists_setList_self t i s hp (head :: rest)
    have hne : t.slotLists i s p.toNat ≠ [] := by
      intro hnil
      simp [hnil] at hl
    rw [step_remove_of_cons hrow hmode hplaced hslot hop (gateAgrees_of_cached h hop) hl]
    simp only
    split
    · rename_i hnext
      rw [show p = ((p.toNat : Nat) : Int) from (Int.toNat_of_nonneg hop.1).symm]
      apply cached_setPriority
      rw [Int.toNat_natCast, hlists]
      exact Arbiter.top_update_of_clear hp hnext.2 (List.cons_ne_nil _ _)
    · refine cached_congr h rfl ?_
      rw [hlists]
      apply Arbiter.top_update_of_iff
      simp [hne]

include hrow hmode in
/-- In a row with one slot the cached priority stays right. -/
theorem cached_exec (hsingle : ∀ node s', nodeSlot env node = some (i, s') → s' = s)
    {ops : List NodeOp} (hops : ∀ op ∈ ops, op.InRange) : Cached (exec env ops) i s := by
  induction ops using List.reverseRecOn with
  | nil =>
    have htop : Arbiter.top 4 (new.slotLists i s) = none := by
      rw [Arbiter.top_eq_none_iff]
      intro p _
      simp [slotLists, new]
    simp only [Cached, exec_nil, htop]
    rfl
  | append_singleton ops op ih =>
    have hops' : ∀ o ∈ ops, o.InRange := fun o ho => hops o (by simp [ho])
    have hop := hops op (by simp)
    have hplaced := placed_exec env hops'
    rw [exec_append_singleton]
    by_cases hslot : nodeSlot env op.node = some (i, s)
    · cases op with
      | insert p node => exact cached_insert hrow hmode (ih hops') hslot hop
      | remove p node => exact cached_remove hrow hmode hplaced (ih hops') hslot hop
    · -- the operation is about another row, or about none
      have hview := slotView_step_of_ne hplaced hop hslot
      refine cached_congr (ih hops') ?_ (congrArg (fun v => Arbiter.top 4 v.level) hview)
      cases hother : nodeSlot env op.node with
      | none =>
        rcases step_of_no_slot (t := exec env ops) hother hop with h | ⟨-, h⟩ <;> rw [h]
        rfl
      | some key =>
        obtain ⟨i', s'⟩ := key
        apply step_priority_of_ne hother hop
        rintro rfl
        exact hslot (by rw [hother, hsingle op.node s' hother])

end Cached

/-- The operations of a slot are at one of its four levels. -/
theorem priority_lt_of_mem_slotOps {env : Env} {i s : Nat} {ops : List NodeOp}
    (hops : ∀ op ∈ ops, op.InRange) :
    ∀ o ∈ slotOps env i s ops, o.priority < 4 := by
  intro o ho
  obtain ⟨op, hop, hslot⟩ := List.mem_filterMap.mp ho
  have hlt := (hops op hop).level_lt
  unfold slotOp at hslot
  split at hslot
  · cases op <;> (obtain rfl := Option.some.inj hslot; exact hlt)
  · cases hslot

/-! ## A global resource -/

/-- The list of a priority of a global resource. -/
def globalList (env : Env) (t : CocoTable) (code : BitVec 32) (p : Nat) : List ResIterable :=
  t.mCocoTable (getCocoTablePrimaryIndex env code).toNat p

/-- The callbacks that ran for a resource, on whatever node. -/
def callbacksOf (t : CocoTable) (code : BitVec 32) : List Callback :=
  t.mCallbacks.filter fun cb => cb.node.mData.map (·.mResCode) == some code

/-- **The resource is arbitrated**: the cached priority is the strongest one with a waiting node,
and the last callback was the applier on the first node waiting there; or nobody waits, nothing
is cached, and if the resource was ever applied the last callback was the tear. -/
structure GloballyArbitrated (env : Env) (code : BitVec 32) (t : CocoTable) : Prop where
  applied : ∀ p < TOTAL_PRIORITIES, (∀ q < p, globalList env t code q = []) →
    ∀ head rest, globalList env t code p = head :: rest →
      t.mCurrentlyAppliedPriority (getCocoTablePrimaryIndex env code).toNat = p ∧
        (callbacksOf t code).getLast? = some (.applier head)
  idle : (∀ p < TOTAL_PRIORITIES, globalList env t code p = []) →
    t.mCurrentlyAppliedPriority (getCocoTablePrimaryIndex env code).toNat = -1 ∧
      ((∃ node, .applier node ∈ callbacksOf t code) →
        ∃ node, (callbacksOf t code).getLast? = some (.tear node))

section Global

variable {env : Env} {code : BitVec 32} {conf : ResConfInfo}

/-- The row of a registered code. -/
theorem row_of_getResConf (hconf : env.getResConf code = some conf) :
    ∃ i : Nat, getCocoTablePrimaryIndex env code = i ∧
      i < env.resourceRegistry.getTotalResourcesCount ∧
      env.resourceRegistry.mSystemIndependentLayerMappings.lookup code = some i ∧
      env.resourceRegistry.mResourceConfigs[i]? = some conf := by
  obtain ⟨i, hlookup, hrow, hidx⟩ := ResourceRegistry.getResConf_eq_some hconf
  refine ⟨i, ?_, ?_, hlookup, hrow⟩
  · simp only [getCocoTablePrimaryIndex, hconf, hidx]
  · rw [ResourceRegistry.getTotalResourcesCount_eq]
    exact env.resourceRegistry.index_lt code i hlookup

/-- The code of a resource that has a slot is the one whose row the slot lies in. -/
theorem lookup_of_slotKey {resource : Resource} {i s : Nat}
    (h : slotKey env resource = some (i, s)) :
    env.resourceRegistry.mSystemIndependentLayerMappings.lookup resource.mResCode = some i := by
  unfold slotKey at h
  obtain ⟨⟨i', k⟩, hidx, hkey⟩ := Option.map_eq_some_iff.mp h
  obtain ⟨rfl, rfl⟩ := Prod.mk.inj hkey
  unfold tableIndex at hidx
  simp only at hidx
  split at hidx
  · cases hidx
  · rename_i hrange
    obtain ⟨hi, -⟩ := Prod.mk.inj (Option.some.inj hidx)
    cases hconf : env.getResConf resource.mResCode with
    | none => simp [getCocoTablePrimaryIndex, hconf] at hrange
    | some conf' =>
      obtain ⟨j, hj, -, hlookup, -⟩ := row_of_getResConf hconf
      rw [hlookup, ← hi, hj]
      rfl

/-- The nodes of a global resource are exactly the nodes of slot zero of its row. -/
theorem nodeSlot_eq_iff_code (hconf : env.getResConf code = some conf)
    (hglobal : conf.mApplyType = .APPLY_GLOBAL) (hpolicy : conf.mPolicy ≠ .PASS_THROUGH) {i : Nat}
    (hi : env.resourceRegistry.mSystemIndependentLayerMappings.lookup code = some i)
    (node : ResIterable) :
    nodeSlot env node = some (i, 0) ↔ node.mData.map (·.mResCode) = some code := by
  constructor
  · intro h
    obtain ⟨resource, conf', hdata, hkey, -, -, -⟩ := data_of_nodeSlot h
    rw [hdata, Option.map_some]
    exact congrArg some (env.resourceRegistry.index_inj _ _ i (lookup_of_slotKey hkey) hi)
  · intro h
    obtain ⟨resource, hdata, rfl⟩ := Option.map_eq_some_iff.mp h
    obtain ⟨j, hj, hlt, hlookup, hrow⟩ := row_of_getResConf hconf
    obtain rfl : i = j := Option.some.inj (hi.symm.trans hlookup)
    have hsec : getCocoTableSecondaryIndex env resource SYSTEM_HIGH = 0 := by
      simp only [getCocoTableSecondaryIndex, hconf, hglobal, SYSTEM_HIGH]
    have hsize : rowSize env i = 4 := by
      simp only [rowSize, hrow, slotCount, hglobal, TOTAL_PRIORITIES]
    have hidx : tableIndex env resource SYSTEM_HIGH = some (i, 0) := by
      simp only [tableIndex, hj, hsec, Int.toNat_natCast, hsize]
      rw [if_neg (by omega)]
      rfl
    have hpass : isPassThrough env resource = false := by
      simp [isPassThrough, hconf, hpolicy]
    simp [nodeSlot, hdata, hpass, slotKey, hidx]

/-- A global row has no slot but zero. -/
theorem slot_eq_zero (hglobal : conf.mApplyType = .APPLY_GLOBAL) {i : Nat}
    (hrow : env.resourceRegistry.mResourceConfigs[i]? = some conf) (node : ResIterable) (s : Nat)
    (h : nodeSlot env node = some (i, s)) : s = 0 := by
  obtain ⟨resource, conf', -, hkey, hconf, hrow', -⟩ := data_of_nodeSlot h
  obtain rfl : conf' = conf := Option.some.inj (hrow'.symm.trans hrow)
  have hbase := reIndexIncrement_of_slotKey hconf hkey
  simp only [reIndexIncrement, hglobal] at hbase
  omega

/-- **Arbitration of a global resource.**  After every call of every run, the cached priority is
the strongest priority that has a waiting node, and the last callback for the resource was the
applier on the head of that list, or the tear when nobody waits any more. -/
theorem globallyArbitrated_of_run (hconf : env.getResConf code = some conf)
    (hglobal : conf.mApplyType = .APPLY_GLOBAL) (hpolicy : conf.mPolicy ≠ .PASS_THROUGH)
    (hmode : modeAllows env conf = true) {calls : List Call} {t : CocoTable}
    {live : List Request} (run : Run env calls t live) : GloballyArbitrated env code t := by
  obtain ⟨i, hi, -, hlookup, hrow⟩ := row_of_getResConf hconf
  have hops := run.inRange
  have hsingle : ∀ node s, nodeSlot env node = some (i, s) → s = 0 := slot_eq_zero hglobal hrow
  -- the cached priority is right in every state of the run, so the gate always agrees
  have hcached : ∀ ops, (∀ op ∈ ops, NodeOp.InRange op) → Cached (exec env ops) i 0 :=
    fun ops h => cached_exec hrow hmode hsingle h
  have hgates : GatesAgree env conf i 0 (callOps calls) := by
    intro pre op post h
    rw [h] at hops
    exact gateAgrees_of_cached (hcached pre fun o ho => hops o (by simp [ho])) (hops op (by simp))
  have hview := slotView_exec hrow hmode hops hgates
  have hslot : SlotArbitrated env t i 0 := by
    apply slotArbitrated_of_settled
    rw [run.eq_exec, hview]
    exact Arbiter.settled_run (isPlacement_insertByPolicy hpolicy) _
      (priority_lt_of_mem_slotOps hops)
  have hcur := hcached _ hops
  rw [← run.eq_exec] at hcur
  -- the slot's history is the resource's
  have hlog : slotCallbacks env t i 0 = callbacksOf t code := by
    unfold slotCallbacks callbacksOf
    apply List.filter_congr
    intro cb _
    rw [Bool.eq_iff_iff, beq_iff_eq, beq_iff_eq]
    exact nodeSlot_eq_iff_code hconf hglobal hpolicy hlookup cb.node
  have hlist : ∀ p < 4, globalList env t code p = t.slotLists i 0 p := by
    intro p hp
    simp [globalList, hi, slotLists, hp]
  refine ⟨?_, ?_⟩
  · intro p hp hclear head rest hl
    have htop : Arbiter.top 4 (t.slotLists i 0) = some p := by
      rw [Arbiter.top_eq_some_iff]
      refine ⟨hp, by rw [← hlist p hp, hl]; exact List.cons_ne_nil _ _, fun q hq => ?_⟩
      rw [← hlist q (lt_trans hq hp)]
      exact hclear q hq
    have hw : Arbiter.winner 4 (t.slotLists i 0) = some head := by
      rw [Arbiter.winner_of_top htop, ← hlist p hp, hl]
      rfl
    refine ⟨by simpa [Cached, htop, hi] using hcur, ?_⟩
    simpa only [SlotArbitrated, hw, hlog] using hslot
  · intro hempty
    have htop : Arbiter.top 4 (t.slotLists i 0) = none := by
      rw [Arbiter.top_eq_none_iff]
      intro p hp
      rw [← hlist p hp]
      exact hempty p hp
    refine ⟨by simpa [Cached, htop, hi] using hcur, ?_⟩
    rintro ⟨node, hnode⟩
    simp only [SlotArbitrated, Arbiter.winner_eq_none_iff.mpr htop, hlog] at hslot
    rcases hslot with hnil | hlast
    · simp [hnil] at hnode
    · exact hlast

end Global

/-- Two requests for the sample's global resource, one of them naming it twice. -/
theorem globallyArbitrated_sample :
    ∃ t live, Run Sample.env
        [.insertRequest (Sample.request 1 2 [.ofValues (Sample.code 1) 0 0 [5]]),
          .insertRequest (Sample.request 2 0
            [.ofValues (Sample.code 1) 0 0 [3], .ofValues (Sample.code 1) 0 0 [4]]),
          .removeRequest (Sample.request 1 2 [.ofValues (Sample.code 1) 0 0 [5]])] t live ∧
      GloballyArbitrated Sample.env (Sample.code 1) t := by
  have run₀ : Run Sample.env [] new [] := .nil
  have run₁ := run₀.insert_infinite (Sample.request 1 2 [.ofValues (Sample.code 1) 0 0 [5]])
    rfl (by decide) (by decide) (by decide)
  have run₂ := run₁.insert_infinite
    (Sample.request 2 0 [.ofValues (Sample.code 1) 0 0 [3], .ofValues (Sample.code 1) 0 0 [4]])
    rfl (by decide) (by decide) (by decide)
  have hlive : Sample.request 1 2 [.ofValues (Sample.code 1) 0 0 [5]] ∈
      [Sample.request 2 0 [.ofValues (Sample.code 1) 0 0 [3], .ofValues (Sample.code 1) 0 0 [4]],
        Sample.request 1 2 [.ofValues (Sample.code 1) 0 0 [5]]] := by decide
  have run₃ := run₂.remove hlive
  have hconf : Sample.env.getResConf (Sample.code 1) =
      some Sample.globalConf.setLifeCycleCallbacks := rfl
  exact ⟨_, _, run₃, globallyArbitrated_of_run hconf rfl (by decide) (by decide) run₃⟩

/-! ## Resources with several slots

The cached priority is one per resource, the lists are one family per slot.  A slot is therefore
only arbitrated by its own lists as long as the cached priority, which other slots also write,
happens to give the answer its lists would give. -/

/-- **A slot whose gate agrees throughout is isolated**: its last callback is the one its own
lists call for, and its lists and its whole callback history are those of the arbiter run on the
operations of this slot alone. -/
theorem slot_isolated_of_gatesAgree {env : Env} {code : BitVec 32} {conf : ResConfInfo}
    (hconf : env.getResConf code = some conf) (hpolicy : conf.mPolicy ≠ .PASS_THROUGH)
    (hmode : modeAllows env conf = true) {calls : List Call} {t : CocoTable}
    {live : List Request} (run : Run env calls t live) (s : Nat)
    (hgates : GatesAgree env conf (getCocoTablePrimaryIndex env code).toNat s (callOps calls)) :
    SlotArbitrated env t (getCocoTablePrimaryIndex env code).toNat s ∧
      slotView env t (getCocoTablePrimaryIndex env code).toNat s =
        Arbiter.run 4 (insertByPolicy conf.mPolicy)
          (slotOps env (getCocoTablePrimaryIndex env code).toNat s (callOps calls)) := by
  obtain ⟨i, hi, -, -, hrow⟩ := row_of_getResConf hconf
  rw [hi, Int.toNat_natCast] at hgates ⊢
  have hview := slotView_exec hrow hmode run.inRange hgates
  rw [← run.eq_exec] at hview
  refine ⟨slotArbitrated_of_settled ?_, hview⟩
  rw [hview]
  exact Arbiter.settled_run (isPlacement_insertByPolicy hpolicy) _
    (priority_lt_of_mem_slotOps run.inRange)

/-- Core 1 and core 2 of the sample device, tuned at the same priority. -/
theorem slot_isolated_sample :
    ∃ t live, Run Sample.env
        [.insertRequest (Sample.request 1 0 [.ofValues (Sample.code 2) 1 0 [5]]),
          .insertRequest (Sample.request 2 0 [.ofValues (Sample.code 2) 2 0 [6]])] t live ∧
      SlotArbitrated Sample.env t 1 2 := by
  have run₀ : Run Sample.env [] new [] := .nil
  have run₁ := run₀.insert_infinite (Sample.request 1 0 [.ofValues (Sample.code 2) 1 0 [5]])
    rfl (by decide) (by decide) (by decide)
  have run₂ := run₁.insert_infinite (Sample.request 2 0 [.ofValues (Sample.code 2) 2 0 [6]])
    rfl (by decide) (by decide) (by decide)
  have hconf : Sample.env.getResConf (Sample.code 2) =
      some Sample.coreConf.setLifeCycleCallbacks := rfl
  -- the strongest priority has nothing above it, and the cached priority never exceeds it
  have hclear : ∀ L : Nat → List ResIterable, Arbiter.Clear L 0 := fun L q hq => by omega
  have hgates : GatesAgree Sample.env Sample.coreConf.setLifeCycleCallbacks 1 2
      ([] ++ [.insert 0 ⟨(1, 0), some (.ofValues (Sample.code 2) 1 0 [5])⟩] ++
        [.insert 0 ⟨(2, 0), some (.ofValues (Sample.code 2) 2 0 [6])⟩]) := by
    apply gatesAgree_concat
    · apply gatesAgree_concat (gatesAgree_nil _ _ _ _)
      exact fun _ _ => iff_of_true (by decide) (hclear _)
    · exact fun _ _ => iff_of_true (by decide) (hclear _)
  exact ⟨_, _, run₂, (slot_isolated_of_gatesAgree hconf (by decide) (by decide) run₂ 2 hgates).1⟩

/-- **Slots are not isolated in general.**  A request of priority `SYSTEM_HIGH` on core 1, then
one of priority `THIRD_PARTY_HIGH` on core 2: core 2 has a single waiting node, and its applier
never runs, because the priority cached for core 1 shuts the gate. -/
theorem slot_not_isolated :
    ∃ t live, Run Sample.env
        [.insertRequest (Sample.request 1 0 [.ofValues (Sample.code 2) 1 0 [5]]),
          .insertRequest (Sample.request 2 2 [.ofValues (Sample.code 2) 2 0 [6]])] t live ∧
      Sample.env.getResConf (Sample.code 2) = some Sample.coreConf.setLifeCycleCallbacks ∧
      getCocoTablePrimaryIndex Sample.env (Sample.code 2) = 1 ∧
      ¬ SlotArbitrated Sample.env t 1 2 := by
  have run₀ : Run Sample.env [] new [] := .nil
  have run₁ := run₀.insert_infinite (Sample.request 1 0 [.ofValues (Sample.code 2) 1 0 [5]])
    rfl (by decide) (by decide) (by decide)
  have run₂ := run₁.insert_infinite (Sample.request 2 2 [.ofValues (Sample.code 2) 2 0 [6]])
    rfl (by decide) (by decide) (by decide)
  refine ⟨_, _, run₂, rfl, rfl, ?_⟩
  rw [run₂.eq_exec]
  intro h
  have hlog : slotCallbacks Sample.env (exec Sample.env (callOps
      [.insertRequest (Sample.request 1 0 [.ofValues (Sample.code 2) 1 0 [5]]),
        .insertRequest (Sample.request 2 2 [.ofValues (Sample.code 2) 2 0 [6]])])) 1 2 = [] := by
    decide
  have hw : Arbiter.winner 4 ((exec Sample.env (callOps
      [.insertRequest (Sample.request 1 0 [.ofValues (Sample.code 2) 1 0 [5]]),
        .insertRequest (Sample.request 2 2 [.ofValues (Sample.code 2) 2 0 [6]])])).slotLists 1 2) =
      some ⟨(2, 0), some (.ofValues (Sample.code 2) 2 0 [6])⟩ := by
    decide
  simp only [SlotArbitrated, List.nil_append, List.cons_append] at h
  rw [hw, hlog] at h
  cases h

end CocoTable

end ResourceTuner
