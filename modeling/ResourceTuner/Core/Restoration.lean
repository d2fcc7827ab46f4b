import ResourceTuner.Core.ResourceHooks
import ResourceTuner.Core.CocoTableSlots
import ResourceTuner.Core.RequestHandler

/-!
# Restoring the device

When all requests are gone, has every file that was tuned got its stored value back?  The tear
callback runs once per slot, on the last node removed from it, so a file is reset only if that
node happens to address it.  Whether it does can be seen one removal at a time:

* **`Linkable`** — the node can be applied at all: it has a slot or is passed through;
* **`liveAfter`** — the nodes inserted and not yet removed;
* **`RemovalSafe`** — a removal abandons no file: one that is not restored is addressed by
  another live node, or this removal runs the tear;
* **`Held`** — the invariant: a tuned file is restored or some live node addresses it;
* **`restored_of_run`** — a run of safe removals leaves every tuned file restored.

A slot shared by nodes that address different files is what breaks the condition: all-cores
requests of two clusters share the slot of core `0` (`not_restored`).
-/

namespace ResourceTuner

namespace CocoTable

/-! ## Live nodes -/

/-- The live nodes with their priorities, after one more operation. -/
def NodeOp.track (live : List (Int × ResIterable)) : NodeOp → List (Int × ResIterable)
  | .insert p node => (p, node) :: live
  | .remove p node => live.erase (p, node)

/-- The nodes inserted and not removed by a sequence of operations. -/
def liveAfter (ops : List NodeOp) : List (Int × ResIterable) := ops.foldl NodeOp.track []

@[simp] theorem liveAfter_append_singleton (ops : List NodeOp) (op : NodeOp) :
    liveAfter (ops ++ [op]) = op.track (liveAfter ops) := by
  simp [liveAfter]

theorem liveAfter_append_inserts (ops : List NodeOp) (p : Int) (nodes : List ResIterable) :
    liveAfter (ops ++ nodes.map (.insert p)) =
      (nodes.map fun node => (p, node)).reverse ++ liveAfter ops := by
  induction nodes generalizing ops with
  | nil => simp
  | cons node rest ih =>
    rw [List.map_cons, List.append_cons, ih, liveAfter_append_singleton]
    simp [NodeOp.track]

theorem liveAfter_append_removes (ops : List NodeOp) (p : Int) (nodes : List ResIterable) :
    liveAfter (ops ++ nodes.map (.remove p)) =
      (liveAfter ops).diff (nodes.map fun node => (p, node)) := by
  induction nodes generalizing ops with
  | nil => simp
  | cons node rest ih =>
    rw [List.map_cons, List.append_cons, ih, liveAfter_append_singleton, List.map_cons,
      List.diff_cons]
    rfl

/-- In a run, the live nodes are nodes of live requests, each once. -/
theorem liveAfter_of_run {env : Env} {calls : List Call} {t : CocoTable} {live : List Request}
    (run : Run env calls t live) :
    (liveAfter (callOps calls)).Nodup ∧ ∀ x ∈ liveAfter (callOps calls),
      ∃ request ∈ live, x ∈ request.nodes.map fun node => (request.getPriority, node) := by
  induction run with
  | nil => exact ⟨List.nodup_nil, by simp [liveAfter, callOps]⟩
  | @insert calls t t' live request request' _ _ _ _ nodup fresh inserted ih =>
    obtain ⟨hnodup, hmem⟩ := ih
    obtain ⟨-, timer, rfl⟩ := insertRequest_of_true inserted
    simp only [callOps, List.flatMap_append, List.flatMap_singleton, Call.ops] at hnodup hmem ⊢
    rw [liveAfter_append_inserts]
    constructor
    · refine List.Nodup.append ?_ hnodup ?_
      · rw [List.nodup_reverse]
        exact nodup.map fun a b h => (Prod.mk.inj h).2
      · -- a node of the new request belongs to no live one
        intro x hnew hold
        obtain ⟨node, hnode, rfl⟩ := List.mem_map.mp (List.mem_reverse.mp hnew)
        obtain ⟨r, hr, hx⟩ := hmem _ hold
        obtain ⟨node', hnode', heq⟩ := List.mem_map.mp hx
        obtain ⟨-, rfl⟩ := Prod.mk.inj heq
        exact fresh node' hnode (List.mem_flatMap.mpr ⟨r, hr, hnode'⟩)
    · intro x hx
      rcases List.mem_append.mp hx with hx | hx
      · exact ⟨_, List.mem_cons_self, List.mem_reverse.mp hx⟩
      · obtain ⟨r, hr, hx⟩ := hmem x hx
        exact ⟨r, List.mem_cons_of_mem _ hr, hx⟩
  | @remove calls t live request run linked ih =>
    obtain ⟨hnodup, hmem⟩ := ih
    simp only [callOps, List.flatMap_append, List.flatMap_singleton, Call.ops] at hnodup hmem ⊢
    rw [liveAfter_append_removes]
    refine ⟨hnodup.diff, fun x hx => ?_⟩
    obtain ⟨hx, hgone⟩ := hnodup.mem_sdiff_iff.mp hx
    obtain ⟨r, hr, hxr⟩ := hmem x hx
    have hne : r ≠ request := by
      rintro rfl
      exact hgone hxr
    exact ⟨r, (List.mem_erase_of_ne hne).mpr hr, hxr⟩

/-! ## The condition -/

section Condition

variable (env : Env) (device : Device)

/-- The node reaches the device: it has a slot, or it is passed through. -/
def Linkable (node : ResIterable) : Prop :=
  (nodeSlot env node).isSome ∨ node.mData.any (isPassThrough env)

/-- The node is live and its tear would reset the file. -/
def Addresses (node : ResIterable) (path : String) : Prop :=
  Linkable env node ∧ path ∈ tearPaths env node

/-- Removing the node runs its tear: it is passed through, or nothing else is linked in its
slot. -/
def TornBy (t : CocoTable) (p : Int) (node : ResIterable) : Prop :=
  Linkable env node ∧ ∀ i s, nodeSlot env node = some (i, s) →
    ∀ q, ∀ m ∈ t.slotLists i s q, m = node ∧ q = p.toNat

/-- Removing the node after `ops` abandons no file: every tuned file it addresses is restored, or
addressed by another live node, or has a stored value and is reset by the tear this removal
runs. -/
def RemovalSafe (ops : List NodeOp) (p : Int) (node : ResIterable) : Prop :=
  ∀ path, device.Tuned env (exec env ops).mCallbacks path → Addresses env node path →
    device.Restored env (exec env ops).mCallbacks path ∨
      (∃ x ∈ liveAfter ops, x.2 ≠ node ∧ Addresses env x.2 path) ∨
      TornBy env (exec env ops) p node ∧
        (env.resourceRegistry.mDefaultValueStore.lookup path).isSome

/-- Every removal of the sequence is safe when it is made. -/
def RemovalsSafe (ops : List NodeOp) : Prop :=
  ∀ before p node after, ops = before ++ .remove p node :: after →
    RemovalSafe env device before p node

theorem removalsSafe_nil : RemovalsSafe env device [] := by
  intro before p node after h
  simp at h

variable {env device} in
theorem removalsSafe_concat {ops : List NodeOp} {op : NodeOp} (hops : RemovalsSafe env device ops)
    (hop : ∀ p node, op = .remove p node → RemovalSafe env device ops p node) :
    RemovalsSafe env device (ops ++ [op]) := by
  intro before p node after h
  rcases List.eq_nil_or_concat after with rfl | ⟨after, last, rfl⟩
  · obtain ⟨rfl, hlast⟩ := List.append_inj' h rfl
    exact hop p node (List.singleton_inj.mp hlast)
  · rw [List.concat_eq_append, ← List.cons_append, ← List.append_assoc] at h
    obtain ⟨rfl, -⟩ := List.append_inj' h rfl
    exact hops before p node after rfl

end Condition

/-! ## Callbacks of one operation -/

section Callbacks

variable {env : Env} {t : CocoTable}

/-- Inserting a node runs nothing, or the applier on that node. -/
theorem insert_mCallbacks {p : Int} {node : ResIterable} (hop : (NodeOp.insert p node).InRange) :
    (t.step env (.insert p node)).mCallbacks = t.mCallbacks ∨
      Linkable env node ∧
        (t.step env (.insert p node)).mCallbacks = t.mCallbacks ++ [.applier node] := by
  cases hslot : nodeSlot env node with
  | none =>
    have hslot : nodeSlot env (NodeOp.insert p node).node = none := hslot
    rcases step_of_no_slot (t := t) hslot hop with h | ⟨hpass, h⟩
    · exact Or.inl (by rw [h])
    · exact Or.inr ⟨Or.inr hpass, by rw [h]; rfl⟩
  | some key =>
    obtain ⟨i, s⟩ := key
    obtain ⟨-, conf, -, -, -, hrow, -⟩ := data_of_nodeSlot hslot
    rw [t.step_insert p node hslot hrow hop.1 hop.2]
    simp only
    split
    · rcases applyAction_mCallbacks env (t.setList i (4 * s + p.toNat)
        (insertByPolicy conf.mPolicy node (t.mCocoTable i (4 * s + p.toNat)))) node i p with h | h
      · exact Or.inl (by rw [h]; rfl)
      · exact Or.inr ⟨Or.inl (by rw [hslot]; rfl), by rw [h]; rfl⟩
    · exact Or.inl rfl

/-- Removing a node runs nothing, the applier on a node that is still linked, or the tear on the
removed node. -/
theorem remove_mCallbacks {p : Int} {node : ResIterable} (hop : (NodeOp.remove p node).InRange) :
    (t.step env (.remove p node)).mCallbacks = t.mCallbacks ∨
      (∃ m i k, m ∈ (t.step env (.remove p node)).mCocoTable i k ∧
        (t.step env (.remove p node)).mCallbacks = t.mCallbacks ++ [.applier m]) ∨
      Linkable env node ∧
        (t.step env (.remove p node)).mCallbacks = t.mCallbacks ++ [.tear node] := by
  cases hslot : nodeSlot env node with
  | none =>
    have hslot : nodeSlot env (NodeOp.remove p node).node = none := hslot
    rcases step_of_no_slot (t := t) hslot hop with h | ⟨hpass, h⟩
    · exact Or.inl (by rw [h])
    · exact Or.inr (Or.inr ⟨Or.inr hpass, by rw [h]; rfl⟩)
  | some key =>
    obtain ⟨i, s⟩ := key
    obtain ⟨-, conf, -, -, -, hrow, -⟩ := data_of_nodeSlot hslot
    -- an applier on a node of the list that the operation leaves at `i`, `k`
    have happly : ∀ (t' : CocoTable) (m : ResIterable) (q : Int) (k : Nat),
        t'.mCallbacks = t.mCallbacks → m ∈ t'.mCocoTable i k →
        (t'.applyAction env m i q).mCallbacks = t.mCallbacks ∨
          ∃ m' i' k', m' ∈ (t'.applyAction env m i q).mCocoTable i' k' ∧
            (t'.applyAction env m i q).mCallbacks = t.mCallbacks ++ [.applier m'] := by
      intro t' m q k ht' hm
      rcases t'.applyAction_mCallbacks env m i q with h | h
      · exact Or.inl (h.trans ht')
      · exact Or.inr ⟨m, i, k, by simpa using hm, by rw [h, ht']⟩
    rw [t.step_remove p node hslot hrow hop.1 hop.2]
    simp only
    split
    · rename_i hnil
      rw [hnil]
      rcases afterEmptied_cases env (t.setList i (4 * s + p.toNat) []) i s node with
        ⟨q, head, htop, hhead, h⟩ | ⟨-, h⟩
      · obtain ⟨hq4, -, -⟩ := Arbiter.top_eq_some_iff.mp htop
        rw [slotLists_of_lt _ _ _ hq4] at hhead
        rw [h]
        exact (happly ((t.setList i (4 * s + p.toNat) []).setPriority i q) head q (4 * s + q) rfl
          (List.mem_of_head? hhead)).imp id Or.inl
      · rw [h]
        rcases removeAction_mCallbacks env (t.setList i (4 * s + p.toNat) []) node i with h' | h'
        · exact Or.inl h'
        · exact Or.inr (Or.inr ⟨Or.inl (by rw [hslot]; rfl), h'⟩)
    · rename_i head rest hcons
      split
      · refine (happly (t.setList i (4 * s + p.toNat) _) head p (4 * s + p.toNat) rfl ?_).imp id
          Or.inl
        rw [setList_mCocoTable, if_pos ⟨rfl, rfl⟩, hcons]
        exact List.mem_cons_self
      · exact Or.inl rfl

/-- A node that is passed through, or alone in its slot, is torn down when it is removed. -/
theorem mCallbacks_of_tornBy {p : Int} {node : ResIterable}
    (hop : (NodeOp.remove p node).InRange) (htorn : TornBy env t p node) :
    (t.step env (.remove p node)).mCallbacks = t.mCallbacks ++ [.tear node] := by
  obtain ⟨hlinkable, halone⟩ := htorn
  cases hslot : nodeSlot env node with
  | none =>
    have hpass : node.mData.any (isPassThrough env) := by
      rcases hlinkable with h | h
      · rw [hslot] at h
        cases h
      · exact h
    obtain ⟨resource, hdata, hpass⟩ := (Option.any_eq_true _ _).mp hpass
    obtain ⟨conf, hconf, hpolicy⟩ := (Option.any_eq_true _ _).mp hpass
    -- every registered configuration has both callbacks
    obtain ⟨happlier, htear⟩ := ResourceRegistry.hasCallbacks_of_getResConf hconf
    obtain ⟨applier, happlier⟩ := Option.isSome_iff_exists.mp happlier
    obtain ⟨tear, htear⟩ := Option.isSome_iff_exists.mp htear
    simp only [step, removeNode, hdata, hconf, eq_of_beq hpolicy, if_true, fastPathReset, happlier,
      htear, call, record_mCallbacks]
  | some key =>
    obtain ⟨i, s⟩ := key
    obtain ⟨resource, conf, hdata, -, hconf, hrow, -⟩ := data_of_nodeSlot hslot
    obtain ⟨tear, htear⟩ := Option.isSome_iff_exists.mp
      (ResourceRegistry.hasCallbacks_of_getResConf hconf).2
    have halone := halone i s hslot
    have hp : p.toNat < 4 := hop.level_lt
    have hnil : (t.mCocoTable i (4 * s + p.toNat)).filter (· ≠ node) = [] := by
      rw [List.filter_eq_nil_iff]
      intro m hm
      simp [(halone p.toNat m (by rwa [slotLists_of_lt _ _ _ hp])).1]
    rw [t.step_remove p node hslot hrow hop.1 hop.2]
    simp only [hnil]
    rcases afterEmptied_cases env (t.setList i (4 * s + p.toNat) []) i s node with
      ⟨q, head, htop, hhead, -⟩ | ⟨-, h⟩
    · -- the slot still has a head, which can only be the removed node
      rw [slotLists_setList_self t i s hp] at hhead
      by_cases hqp : q = p.toNat
      · rw [hqp, Function.update_self] at hhead
        cases hhead
      · rw [Function.update_of_ne hqp] at hhead
        exact absurd (halone q head (List.mem_of_head? hhead)).2 hqp
    · rw [h]
      simp only [removeAction, hdata, hconf, htear, call, setPriority_mCallbacks,
        record_mCallbacks, setList_mCallbacks]

end Callbacks

/-! ## The invariant -/

section Invariant

variable {env : Env} {device : Device}

/-- Every linked node is live, under the priority of its list. -/
def LinkedLive (ops : List NodeOp) (t : CocoTable) : Prop :=
  ∀ i k, ∀ node ∈ t.mCocoTable i k, (((k % 4 : Nat) : Int), node) ∈ liveAfter ops

theorem linkedLive_step {ops : List NodeOp} {t : CocoTable} (hplaced : Placed env t)
    (hlinked : LinkedLive ops t) {op : NodeOp} (hop : op.InRange) :
    LinkedLive (ops ++ [op]) (t.step env op) := by
  intro i k node hnode
  rw [liveAfter_append_singleton]
  cases op with
  | insert p n =>
    cases hslot : nodeSlot env n with
    | none =>
      rw [step_mCocoTable_of_no_slot hslot hop] at hnode
      exact List.mem_cons_of_mem _ (hlinked i k node hnode)
    | some key =>
      obtain ⟨i', s⟩ := key
      rw [mem_step hslot hop] at hnode
      rcases hnode with ⟨rfl, -, rfl⟩ | hnode
      · obtain ⟨h0, h4⟩ := hop
        simp only [NodeOp.priority] at h0 h4
        rw [show (((4 * s + p.toNat) % 4 : Nat) : Int) = p by omega]
        exact List.mem_cons_self
      · exact List.mem_cons_of_mem _ (hlinked i k node hnode)
  | remove p n =>
    -- the node hung in its own slot before, so it is not the entry that leaves
    suffices hstay : node ∈ t.mCocoTable i k ∧ (((k % 4 : Nat) : Int), node) ≠ (p, n) by
      exact (List.mem_erase_of_ne hstay.2).mpr (hlinked i k node hstay.1)
    cases hslot : nodeSlot env n with
    | none =>
      rw [step_mCocoTable_of_no_slot hslot hop] at hnode
      refine ⟨hnode, fun heq => ?_⟩
      obtain ⟨-, rfl⟩ := Prod.mk.inj heq
      rw [hplaced i k node hnode] at hslot
      cases hslot
    | some key =>
      obtain ⟨i', s⟩ := key
      obtain ⟨hbefore, hother⟩ := (mem_step hslot hop).mp hnode
      refine ⟨hbefore, fun heq => ?_⟩
      obtain ⟨hp, rfl⟩ := Prod.mk.inj heq
      rw [hplaced i k node hbefore] at hslot
      obtain ⟨rfl, rfl⟩ := Prod.mk.inj (Option.some.inj hslot)
      exact hother ⟨rfl, rfl, by omega⟩

/-- A tuned file is restored, or a live node addresses it. -/
def Held (env : Env) (device : Device) (ops : List NodeOp) (t : CocoTable) : Prop :=
  ∀ path, device.Tuned env t.mCallbacks path →
    device.Restored env t.mCallbacks path ∨ ∃ x ∈ liveAfter ops, Addresses env x.2 path

/-- A linked node can be applied, hence has a slot. -/
theorem linkable_of_mem {t : CocoTable} (hplaced : Placed env t) {i k : Nat} {node : ResIterable}
    (hnode : node ∈ t.mCocoTable i k) : Linkable env node :=
  Or.inl (by rw [hplaced i k node hnode]; rfl)

/-- After the applier on a node that is live from now on, the files it wrote are its own, and the
others are as they were. -/
theorem held_of_applier {t t' : CocoTable} {live : List (Int × ResIterable)}
    {node : ResIterable} {q : Int} (hdefault : UsesDefaults env node)
    (hnode : (q, node) ∈ live) (hlinkable : Linkable env node)
    (hcallbacks : t'.mCallbacks = t.mCallbacks ++ [.applier node])
    (hold : ∀ path, device.Tuned env t.mCallbacks path →
      device.Restored env t.mCallbacks path ∨ ∃ x ∈ live, Addresses env x.2 path) (path : String)
    (htuned : device.Tuned env t'.mCallbacks path) :
    device.Restored env t'.mCallbacks path ∨ ∃ x ∈ live, Addresses env x.2 path := by
  by_cases hmine : path ∈ ((Callback.applier node).writes env).map Prod.fst
  · exact Or.inr ⟨(q, node), hnode, hlinkable, mem_tearPaths_of_applier hdefault hmine⟩
  · rw [hcallbacks] at htuned ⊢
    obtain ⟨hopen, m, hm, hwrites⟩ := htuned
    have hm : .applier m ∈ t.mCallbacks := by
      rcases List.mem_append.mp hm with h | h
      · exact h
      · cases List.mem_singleton.mp h
        exact absurd hwrites hmine
    refine (hold path ⟨hopen, m, hm, hwrites⟩).imp (fun hrestored => ?_) id
    unfold Device.Restored
    rw [Device.sysfsAfter_of_notMem _ _ fun _ => hmine]
    exact hrestored

/-- The same after the tear of a node: what it resets is restored if there was a stored value. -/
theorem held_of_tear {t t' : CocoTable} {live : List (Int × ResIterable)} {node : ResIterable}
    (hdefault : UsesDefaults env node)
    (hcallbacks : t'.mCallbacks = t.mCallbacks ++ [.tear node])
    (hold : ∀ path, device.Tuned env t.mCallbacks path →
      device.Restored env t.mCallbacks path ∨ (∃ x ∈ live, Addresses env x.2 path) ∨
        path ∈ tearPaths env node ∧
          (env.resourceRegistry.mDefaultValueStore.lookup path).isSome) (path : String)
    (htuned : device.Tuned env t'.mCallbacks path) :
    device.Restored env t'.mCallbacks path ∨ ∃ x ∈ live, Addresses env x.2 path := by
  rw [hcallbacks] at htuned ⊢
  obtain ⟨hopen, m, hm, hwrites⟩ := htuned
  have hm : .applier m ∈ t.mCallbacks := by
    rcases List.mem_append.mp hm with h | h
    · exact h
    · cases List.mem_singleton.mp h
  -- a file the tear names now holds its stored value
  have htear : path ∈ tearPaths env node →
      (env.resourceRegistry.mDefaultValueStore.lookup path).isSome →
      device.Restored env (t.mCallbacks ++ [.tear node]) path := by
    intro hpath hstored
    obtain ⟨value, hvalue⟩ := Option.isSome_iff_exists.mp hstored
    rw [Device.Restored, Device.sysfsAfter_tear hdefault _ hopen hpath,
      ResourceRegistry.getDefaultValue, hvalue]
    rfl
  rcases hold path ⟨hopen, m, hm, hwrites⟩ with hrestored | hlive | ⟨hpath, hstored⟩
  · left
    by_cases hpath : path ∈ tearPaths env node
    · exact htear hpath (by rw [hrestored]; rfl)
    · unfold Device.Restored
      rw [Device.sysfsAfter_of_notMem _ _ fun _ => hpath]
      exact hrestored
  · exact Or.inr hlive
  · exact Or.inl (htear hpath hstored)

/-- **A safe operation keeps every tuned file held.** -/
theorem held_step {ops : List NodeOp} {op : NodeOp} (hops : ∀ op ∈ ops, op.InRange)
    (hop : op.InRange) (hlinked : LinkedLive ops (exec env ops))
    (hdefault : ∀ x ∈ liveAfter (ops ++ [op]), UsesDefaults env x.2)
    (hnode : UsesDefaults env op.node)
    (hsafe : ∀ p node, op = .remove p node → RemovalSafe env device ops p node)
    (hheld : Held env device ops (exec env ops)) :
    Held env device (ops ++ [op]) (exec env (ops ++ [op])) := by
  have hplaced := placed_exec env hops
  have hplaced' := placed_step hplaced hop
  have hlinked' := linkedLive_step hplaced hlinked hop
  unfold Held
  rw [liveAfter_append_singleton] at hdefault ⊢
  rw [exec_append_singleton]
  cases op with
  | insert p node =>
    -- every file that was held is still held, now by one more node
    have hold : ∀ path, device.Tuned env (exec env ops).mCallbacks path →
        device.Restored env (exec env ops).mCallbacks path ∨
          ∃ x ∈ (p, node) :: liveAfter ops, Addresses env x.2 path := by
      intro path htuned
      exact (hheld path htuned).imp id fun ⟨x, hx, h⟩ => ⟨x, List.mem_cons_of_mem _ hx, h⟩
    rcases insert_mCallbacks (t := exec env ops) hop with h | ⟨hlinkable, h⟩
    · rw [h]
      exact hold
    · exact held_of_applier hnode List.mem_cons_self hlinkable h hold
  | remove p node =>
    have hsafe := hsafe p node rfl
    -- what the leaving node held is restored, held by another, or reset by the tear
    have hold : ∀ path, device.Tuned env (exec env ops).mCallbacks path →
        device.Restored env (exec env ops).mCallbacks path ∨
          (∃ x ∈ (liveAfter ops).erase (p, node), Addresses env x.2 path) ∨
          TornBy env (exec env ops) p node ∧ path ∈ tearPaths env node ∧
            (env.resourceRegistry.mDefaultValueStore.lookup path).isSome := by
      intro path htuned
      have hstay : ∀ x ∈ liveAfter ops, x ≠ (p, node) → x ∈ (liveAfter ops).erase (p, node) :=
        fun x hx hne => (List.mem_erase_of_ne hne).mpr hx
      rcases hheld path htuned with hrestored | ⟨x, hx, haddr⟩
      · exact Or.inl hrestored
      · by_cases hleaving : x = (p, node)
        · subst hleaving
          rcases hsafe path htuned haddr with h | ⟨y, hy, hne, haddr'⟩ | ⟨htorn, hstored⟩
          · exact Or.inl h
          · exact Or.inr (Or.inl ⟨y, hstay y hy fun heq => hne (by rw [heq]), haddr'⟩)
          · exact Or.inr (Or.inr ⟨htorn, haddr.2, hstored⟩)
        · exact Or.inr (Or.inl ⟨x, hstay x hx hleaving, haddr⟩)
    by_cases htorn : TornBy env (exec env ops) p node
    · exact held_of_tear hnode (mCallbacks_of_tornBy hop htorn) fun path htuned =>
        (hold path htuned).imp id (Or.imp id And.right)
    · have hold' : ∀ path, device.Tuned env (exec env ops).mCallbacks path →
          device.Restored env (exec env ops).mCallbacks path ∨
            ∃ x ∈ (liveAfter ops).erase (p, node), Addresses env x.2 path :=
        fun path htuned => (hold path htuned).imp id fun h =>
          h.elim id fun h => absurd h.1 htorn
      rcases remove_mCallbacks (t := exec env ops) hop with h | ⟨m, i, k, hm, h⟩ | ⟨-, h⟩
      · rw [h]
        exact hold'
      · have hlive := hlinked' i k m hm
        rw [liveAfter_append_singleton] at hlive
        exact held_of_applier (hdefault _ hlive) hlive (linkable_of_mem hplaced' hm) h hold'
      · exact held_of_tear hnode h fun path htuned => (hold' path htuned).imp id Or.inl

theorem usesDefaults_of_liveAfter {ops : List NodeOp}
    (hdefault : ∀ op ∈ ops, UsesDefaults env op.node) :
    ∀ x ∈ liveAfter ops, UsesDefaults env x.2 := by
  induction ops using List.reverseRecOn with
  | nil => simp [liveAfter]
  | append_singleton ops op ih =>
    have ih := ih fun op hmem => hdefault op (by simp [hmem])
    have hop : UsesDefaults env op.node := hdefault op (by simp)
    intro x hx
    rw [liveAfter_append_singleton] at hx
    cases op with
    | insert p node =>
      rcases List.mem_cons.mp hx with rfl | hx
      · exact hop
      · exact ih x hx
    | remove p node => exact ih x (List.mem_of_mem_erase hx)

/-- The two invariants over a whole sequence of operations. -/
theorem held_exec {ops : List NodeOp} (hops : ∀ op ∈ ops, op.InRange)
    (hdefault : ∀ op ∈ ops, UsesDefaults env op.node) (hsafe : RemovalsSafe env device ops) :
    LinkedLive ops (exec env ops) ∧ Held env device ops (exec env ops) := by
  induction ops using List.reverseRecOn with
  | nil =>
    refine ⟨fun i k node h => ?_, fun path htuned => ?_⟩
    · cases h
    · obtain ⟨-, m, hm, -⟩ := htuned
      cases hm
  | append_singleton ops op ih =>
    have hops' : ∀ op ∈ ops, op.InRange := fun op hmem => hops op (by simp [hmem])
    have hop : op.InRange := hops op (by simp)
    obtain ⟨hlinked, hheld⟩ := ih hops' (fun op hmem => hdefault op (by simp [hmem])) (by
      rintro before p node after rfl
      exact hsafe before p node (after ++ [op]) (by simp))
    refine ⟨?_, ?_⟩
    · rw [exec_append_singleton]
      exact linkedLive_step (placed_exec env hops') hlinked hop
    · refine held_step hops' hop hlinked (usesDefaults_of_liveAfter hdefault)
        (hdefault op (by simp)) ?_ hheld
      rintro p node rfl
      exact hsafe ops p node [] rfl

end Invariant

end CocoTable

open CocoTable

/-- **Full restoration.**  When the requests of a run use the default callbacks, every removal is
safe, and all requests are gone, every file an applier wrote holds its stored value again. -/
theorem restored_of_run {env : Env} {device : Device} {calls : List Call} {t : CocoTable}
    (run : Run env calls t []) (hdefault : ∀ op ∈ callOps calls, UsesDefaults env op.node)
    (hsafe : RemovalsSafe env device (callOps calls)) (path : String)
    (htuned : device.Tuned env t.mCallbacks path) : device.Restored env t.mCallbacks path := by
  have hheld := (held_exec run.inRange hdefault hsafe).2
  rw [← run.eq_exec] at hheld
  rcases hheld path htuned with hrestored | ⟨x, hx, -⟩
  · exact hrestored
  · -- no live request, no live node
    obtain ⟨r, hr, -⟩ := (liveAfter_of_run run).2 x hx
    cases hr

namespace Sample

/-- Every file opens. -/
def device : Device := ⟨fun _ => true, fun _ => "0"⟩

/-- The node of a request for all cores of a physical cluster. -/
def allCoresNode (ptr : Nat) (cluster : BitVec 32) (value : Int) : ResIterable :=
  ⟨(ptr, 0), some (.ofValues (code 2) (cluster <<< 8) 0 [value])⟩

/-- The request itself, as the verifier hands it on. -/
def allCores (ptr : Nat) (cluster : BitVec 32) (value : Int) : Request :=
  request ptr 0x100 [.ofValues (code 2) (cluster <<< 8) 0 [value]]

/-- Two such requests come and go, first in, first out. -/
def allCoresCalls (cluster₁ cluster₂ : BitVec 32) : List Call :=
  [.insertRequest (allCores 1 cluster₁ 5), .insertRequest (allCores 2 cluster₂ 6),
    .removeRequest (allCores 1 cluster₁ 5), .removeRequest (allCores 2 cluster₂ 6)]

end Sample

/-- Two requests for all cores of the first cluster: when the first leaves, the second addresses
the same files; when the second leaves, its tear resets them. -/
theorem restored_sample :
    ∃ t, Run Sample.env (Sample.allCoresCalls 0 0) t [] ∧
      Sample.device.Tuned Sample.env t.mCallbacks "/sys/cpu3" ∧
      Sample.device.Restored Sample.env t.mCallbacks "/sys/cpu3" := by
  have run₀ : Run Sample.env [] new [] := .nil
  have run₁ := run₀.insert_infinite (Sample.allCores 1 0 5) rfl (by decide) (by decide) (by decide)
  have run₂ := run₁.insert_infinite (Sample.allCores 2 0 6) rfl (by decide) (by decide) (by decide)
  have run₃ := run₂.remove (show Sample.allCores 1 0 5 ∈ _ from by decide)
  have run₄ := run₃.remove (show Sample.allCores 2 0 6 ∈ _ from by decide)
  have run : Run Sample.env (Sample.allCoresCalls 0 0) _ [] := run₄
  have hsafe : RemovalsSafe Sample.env Sample.device (callOps (Sample.allCoresCalls 0 0)) := by
    refine removalsSafe_concat (removalsSafe_concat (removalsSafe_concat (removalsSafe_concat
      (removalsSafe_nil _ _) ?_) ?_) ?_) ?_
    · intro p node h
      cases h
    · intro p node h
      cases h
    · -- the first leaves: the second, still live, addresses the same files
      intro p node h path _ haddr
      cases h
      have hpaths : tearPaths Sample.env (Sample.allCoresNode 1 0 5) =
          tearPaths Sample.env (Sample.allCoresNode 2 0 6) := by decide
      have hpath : path ∈ tearPaths Sample.env (Sample.allCoresNode 2 0 6) := hpaths ▸ haddr.2
      exact Or.inr (Or.inl ⟨(0, Sample.allCoresNode 2 0 6), by decide, by decide,
        Or.inl (by decide), hpath⟩)
    · -- the second leaves an empty slot
      intro p node h path _ haddr
      cases h
      refine Or.inr (Or.inr ⟨⟨haddr.1, ?_⟩, ?_⟩)
      · intro i s hslot q m hm
        cases hslot
        by_cases hq : q < 4
        · have hall : ∀ q < 4, ∀ m ∈ (exec Sample.env
              [.insert 0 (Sample.allCoresNode 1 0 5), .insert 0 (Sample.allCoresNode 2 0 6),
                .remove 0 (Sample.allCoresNode 1 0 5)]).slotLists 1 0 q,
              m = Sample.allCoresNode 2 0 6 ∧ q = 0 := by decide
          exact hall q hq m hm
        · rw [slotLists, if_neg hq] at hm
          cases hm
      · have hall : ∀ path ∈ tearPaths Sample.env (Sample.allCoresNode 2 0 6),
            (Sample.env.resourceRegistry.mDefaultValueStore.lookup path).isSome := by decide
        exact hall path haddr.2
  have hdefault : ∀ op ∈ callOps (Sample.allCoresCalls 0 0), UsesDefaults Sample.env op.node := by
    decide
  have htuned : Sample.device.Tuned Sample.env (exec Sample.env (callOps
      (Sample.allCoresCalls 0 0))).mCallbacks "/sys/cpu3" :=
    ⟨rfl, Sample.allCoresNode 1 0 5, by decide, by decide⟩
  rw [run.eq_exec] at run
  exact ⟨_, run, htuned, restored_of_run run hdefault hsafe _ htuned⟩

/-- **Restoration fails in general.**  Two system requests for all cores, one per cluster, share
the slot of core `0`.  The verifier accepts both; the first one leaves while the second is queued
behind it, and the only tear that ever runs resets the cores of the second cluster: the cores of
the first keep the value of a request that is gone. -/
theorem not_restored :
    ∃ t, VerifyIncomingRequest Sample.env (Sample.clients .PERMISSION_SYSTEM)
        (Sample.request 1 0 [.ofValues (Sample.code 2) 0x000 0 [5]]) =
          some (Sample.allCores 1 0 5) ∧
      VerifyIncomingRequest Sample.env (Sample.clients .PERMISSION_SYSTEM)
        (Sample.request 2 0 [.ofValues (Sample.code 2) 0x100 0 [6]]) =
          some (Sample.allCores 2 4 6) ∧
      (∀ op ∈ callOps (Sample.allCoresCalls 0 4), UsesDefaults Sample.env op.node) ∧
      Run Sample.env (Sample.allCoresCalls 0 4) t [] ∧
      Sample.device.Tuned Sample.env t.mCallbacks "/sys/cpu3" ∧
      ¬ Sample.device.Restored Sample.env t.mCallbacks "/sys/cpu3" := by
  have run₀ : Run Sample.env [] new [] := .nil
  have run₁ := run₀.insert_infinite (Sample.allCores 1 0 5) rfl (by decide) (by decide) (by decide)
  have run₂ := run₁.insert_infinite (Sample.allCores 2 4 6) rfl (by decide) (by decide) (by decide)
  have run₃ := run₂.remove (show Sample.allCores 1 0 5 ∈ _ from by decide)
  have run₄ := run₃.remove (show Sample.allCores 2 4 6 ∈ _ from by decide)
  have run : Run Sample.env (Sample.allCoresCalls 0 4) _ [] := run₄
  rw [run.eq_exec] at run
  refine ⟨_, by decide, by decide, by decide, run,
    ⟨rfl, Sample.allCoresNode 1 0 5, by decide, by decide⟩, ?_⟩
  unfold Device.Restored
  decide

end ResourceTuner
