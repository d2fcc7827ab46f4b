import ResourceTuner.Core.Arbitration
import ResourceTuner.Core.PolicyOrder

/-!
# The ledger of a table

A table is filled request by request and emptied request by request.  What is left of a run of calls is
a ledger: the nodes of the live requests, each with the priority of its request, in the order in which
they arrived.  The ledger alone says what every list holds, and for a global resource it says which
node is applied.

* **`Run.accounted`** — the ledger of a run holds the nodes of the live requests, and no others;
* **`claimants`** — the entries for one resource at one priority;
* **`Awarded`** — a global resource is given to the claimant its policy prescribes;
* **`Run.awarded`** — it always is.
-/

namespace ResourceTuner

namespace CocoTable

/-! ## Entering and leaving the ledger -/

section Arrivals

variable {arrived : List (Int × ResIterable)} {priority : Int} {nodes : List ResIterable}

theorem foldl_arrive_inserts (arrived : List (Int × ResIterable)) (priority : Int)
    (nodes : List ResIterable) :
    (nodes.map (NodeOp.insert priority)).foldl arrive arrived =
      arrived ++ nodes.map fun node => (priority, node) := by
  induction nodes generalizing arrived with
  | nil => simp
  | cons node nodes ih =>
    rw [List.map_cons, List.foldl_cons, ih, arrive, List.append_assoc, List.map_cons,
      List.singleton_append]

theorem foldl_arrive_removes (arrived : List (Int × ResIterable)) (priority : Int)
    (nodes : List ResIterable) :
    (nodes.map (NodeOp.remove priority)).foldl arrive arrived =
      arrived.filter (· ∉ nodes.map fun node => (priority, node)) := by
  induction nodes generalizing arrived with
  | nil => simp
  | cons node nodes ih =>
    rw [List.map_cons, List.foldl_cons, ih, arrive, List.filter_filter]
    refine List.filter_congr fun entry _ => ?_
    simp [Bool.and_comm]

theorem allAllowed_append {ops more : List NodeOp} : AllAllowed arrived (ops ++ more) ↔
    AllAllowed arrived ops ∧ AllAllowed (ops.foldl arrive arrived) more := by
  induction ops generalizing arrived with
  | nil => simp [AllAllowed]
  | cons op ops ih => simp [AllAllowed, ih, and_assoc]

/-- Nodes that are not in the ledger can be inserted one after the other. -/
theorem allAllowed_inserts (hnodup : nodes.Nodup)
    (hnew : ∀ node ∈ nodes, node ∉ arrived.map Prod.snd) :
    AllAllowed arrived (nodes.map (.insert priority)) := by
  induction nodes generalizing arrived with
  | nil => trivial
  | cons node nodes ih =>
    obtain ⟨hnode, hnodup⟩ := List.nodup_cons.mp hnodup
    refine ⟨hnew node List.mem_cons_self, ih hnodup fun other hother => ?_⟩
    simp only [arrive, List.map_append, List.map_cons, List.map_nil, List.mem_append,
      List.mem_singleton, not_or]
    refine ⟨hnew other (List.mem_cons_of_mem _ hother), ?_⟩
    rintro rfl
    exact hnode hother

/-- Nodes that are in the ledger can be removed one after the other. -/
theorem allAllowed_removes (hnodup : nodes.Nodup)
    (hheld : ∀ node ∈ nodes, (priority, node) ∈ arrived) :
    AllAllowed arrived (nodes.map (.remove priority)) := by
  induction nodes generalizing arrived with
  | nil => trivial
  | cons node nodes ih =>
    obtain ⟨hnode, hnodup⟩ := List.nodup_cons.mp hnodup
    refine ⟨hheld node List.mem_cons_self, ih hnodup fun other hother => ?_⟩
    rw [arrive, List.mem_filter, decide_eq_true_eq]
    refine ⟨hheld other (List.mem_cons_of_mem _ hother), fun heq => ?_⟩
    exact hnode ((Prod.mk.inj heq).2 ▸ hother)

end Arrivals

/-! ## The ledger of a run -/

/-- The ledger holds the nodes of these requests, under their priorities. -/
def Accounts (live : List Request) (arrived : List (Int × ResIterable)) : Prop :=
  ∀ priority node, (priority, node) ∈ arrived ↔
    ∃ request ∈ live, node ∈ request.nodes ∧ request.getPriority = priority

theorem Accounts.mem_liveNodes {live : List Request} {arrived : List (Int × ResIterable)}
    (h : Accounts live arrived) {node : ResIterable} (hnode : node ∈ arrived.map Prod.snd) :
    node ∈ liveNodes live := by
  obtain ⟨⟨priority, _⟩, hmem, rfl⟩ := List.mem_map.mp hnode
  obtain ⟨request, hrequest, hin, -⟩ := (h priority _).mp hmem
  exact List.mem_flatMap.mpr ⟨request, hrequest, hin⟩

end CocoTable

open CocoTable

/-- The nodes of one live request, and those of the others. -/
theorem nodup_append_liveNodes {live : List Request} (hnodup : (liveNodes live).Nodup)
    {request : Request} (hmem : request ∈ live) :
    (request.nodes ++ liveNodes (live.erase request)).Nodup :=
  ((List.perm_cons_erase hmem).flatMap_right Request.nodes).nodup_iff.mp hnodup

/-- No node belongs to two live requests. -/
theorem Run.nodup_liveNodes {env : Env} {calls : List Call} {t : CocoTable} {live : List Request}
    (run : Run env calls t live) : (liveNodes live).Nodup := by
  induction run with
  | nil => exact List.nodup_nil
  | @insert calls t t' live request request' _ _ _ _ nodup fresh inserted ih =>
    obtain ⟨-, timer, rfl⟩ := insertRequest_of_true inserted
    exact nodup.append ih fun node hnew hold => fresh node hnew hold
  | @remove calls t live request run linked ih =>
    exact (List.nodup_append.mp (nodup_append_liveNodes ih linked)).2.1

/-- **A run keeps its ledger**: every operation is one the ledger allows, and what is in it are the
nodes of the live requests. -/
theorem Run.accounted {env : Env} {calls : List Call} {t : CocoTable} {live : List Request}
    (run : Run env calls t live) :
    AllAllowed [] (callOps calls) ∧ Accounts live (arrivals (callOps calls)) := by
  induction run with
  | nil => exact ⟨trivial, fun priority node => by simp [callOps, arrivals]⟩
  | @insert calls t t' live request request' _ _ _ _ nodup fresh inserted ih =>
    obtain ⟨hallowed, haccounts⟩ := ih
    obtain ⟨-, timer, rfl⟩ := insertRequest_of_true inserted
    have hops : callOps (calls ++ [.insertRequest request]) =
        callOps calls ++ request.nodes.map (.insert request.getPriority) := by
      simp [callOps, Call.ops]
    have hnew : ∀ node ∈ request.nodes, node ∉ (arrivals (callOps calls)).map Prod.snd :=
      fun node hnode hold => fresh node hnode (haccounts.mem_liveNodes hold)
    rw [hops]
    refine ⟨allAllowed_append.mpr ⟨hallowed, allAllowed_inserts nodup hnew⟩, fun priority node => ?_⟩
    rw [arrivals, List.foldl_append, foldl_arrive_inserts, List.mem_append]
    have hold := haccounts priority node
    simp only [arrivals] at hold
    rw [hold, List.exists_mem_cons_iff, or_comm]
    refine or_congr ?_ Iff.rfl
    simp only [List.mem_map, Prod.mk.injEq]
    constructor
    · rintro ⟨_, hmem, rfl, rfl⟩
      exact ⟨hmem, rfl⟩
    · rintro ⟨hmem, rfl⟩
      exact ⟨node, hmem, rfl, rfl⟩
  | @remove calls t live request run linked ih =>
    obtain ⟨hallowed, haccounts⟩ := ih
    have hops : callOps (calls ++ [.removeRequest request]) =
        callOps calls ++ request.nodes.map (.remove request.getPriority) := by
      simp [callOps, Call.ops]
    have hnodup := nodup_append_liveNodes run.nodup_liveNodes linked
    have hheld : ∀ node ∈ request.nodes,
        (request.getPriority, node) ∈ arrivals (callOps calls) :=
      fun node hnode => (haccounts _ _).mpr ⟨request, linked, hnode, rfl⟩
    rw [hops]
    refine ⟨allAllowed_append.mpr
      ⟨hallowed, allAllowed_removes (List.nodup_append.mp hnodup).1 hheld⟩, fun priority node => ?_⟩
    rw [arrivals, List.foldl_append, foldl_arrive_removes, List.mem_filter, decide_eq_true_eq]
    have hold := haccounts priority node
    simp only [arrivals] at hold
    rw [hold]
    constructor
    · rintro ⟨⟨other, hother, hnode, rfl⟩, hgone⟩
      refine ⟨other, (List.mem_erase_of_ne ?_).mpr hother, hnode, rfl⟩
      rintro rfl
      exact hgone (List.mem_map_of_mem hnode)
    · rintro ⟨other, hother, hnode, rfl⟩
      refine ⟨⟨other, List.mem_of_mem_erase hother, hnode, rfl⟩, fun hmem => ?_⟩
      -- the node would belong to the removed request as well
      obtain ⟨_, hboth, heq⟩ := List.mem_map.mp hmem
      obtain ⟨-, rfl⟩ := Prod.mk.inj heq
      exact (List.nodup_append.mp hnodup).2.2 _ hboth _ (List.mem_flatMap.mpr ⟨other, hother, hnode⟩)
        rfl

/-- Every list of a run is in the order its policy wants for the ledger. -/
theorem Run.ordered {env : Env} {calls : List Call} {t : CocoTable} {live : List Request}
    (run : Run env calls t live) : Ordered env (arrivals (callOps calls)) t := by
  rw [run.eq_exec]
  exact (ordered_foldl (ordered_new env) List.nodup_nil run.accounted.1).1

/-! ## A global resource -/

namespace CocoTable

/-- The entries for a resource at a priority, as they arrived. -/
def claimants (arrived : List (Int × ResIterable)) (code : BitVec 32) (priority : Int) :
    List ResIterable :=
  (arrived.filter fun entry =>
    entry.1 = priority ∧ entry.2.mData.map (·.mResCode) = some code).map Prod.snd

/-- **The resource is awarded**: the last callback for it was the applier on the node that the policy
prescribes among the claimants of the strongest priority that has any; or nobody claims it, and it was
torn down or never applied. -/
structure Awarded (policy : Policy) (code : BitVec 32) (arrived : List (Int × ResIterable))
    (t : CocoTable) : Prop where
  held : ∀ priority, claimants arrived code priority ≠ [] →
    (∀ stronger < priority, claimants arrived code stronger = []) →
      ∃ head, Prescribed policy (claimants arrived code priority) head ∧
        (callbacksOf t code).getLast? = some (.applier head)
  idle : (∀ priority, claimants arrived code priority = []) →
    callbacksOf t code = [] ∨ ∃ node, (callbacksOf t code).getLast? = some (.tear node)

section Global

variable {env : Env} {code : BitVec 32} {conf : ResConfInfo}

theorem mem_claimants {arrived : List (Int × ResIterable)} {priority : Int} {node : ResIterable} :
    node ∈ claimants arrived code priority ↔
      (priority, node) ∈ arrived ∧ node.mData.map (·.mResCode) = some code := by
  simp only [claimants, List.mem_map, List.mem_filter, decide_eq_true_eq]
  constructor
  · rintro ⟨⟨_, _⟩, ⟨hmem, rfl, hcode⟩, rfl⟩
    exact ⟨hmem, hcode⟩
  · rintro ⟨hmem, hcode⟩
    exact ⟨(priority, node), ⟨hmem, rfl, hcode⟩, rfl⟩

theorem mem_of_prescribed {policy : Policy} {arrived : List ResIterable} {head : ResIterable}
    (h : Prescribed policy arrived head) : head ∈ arrived := by
  cases policy with
  | INSTANT_APPLY => exact List.mem_of_getLast? h
  | LAZY_APPLY => exact List.mem_of_head? h
  | HIGHER_BETTER | LOWER_BETTER => exact List.mem_of_mem_filter (List.mem_of_head? h.2)
  | PASS_THROUGH => exact h.elim

/-- The list of a node lies in its slot. -/
theorem home_eq (node : ResIterable) {p : Int} (h0 : 0 ≤ p) (h4 : p < 4) :
    home env p node = (nodeSlot env node).map fun key => (key.1, 4 * key.2 + p.toNat) := by
  unfold home nodeSlot isPassThrough
  cases node.mData with
  | none => rfl
  | some resource =>
    cases hconf : env.getResConf resource.mResCode with
    | none =>
      have hidx : tableIndex env resource SYSTEM_HIGH = none := by
        simp [tableIndex, getCocoTablePrimaryIndex, hconf]
      simp [hconf, slotKey, hidx]
    | some conf =>
      by_cases hpolicy : conf.mPolicy = .PASS_THROUGH
      · simp [hconf, hpolicy]
      · simp [hconf, hpolicy, tableIndex_eq env resource h0 h4]

variable (hconf : env.getResConf code = some conf) (hglobal : conf.mApplyType = .APPLY_GLOBAL)
  (hpolicy : conf.mPolicy ≠ .PASS_THROUGH)

include hconf hglobal hpolicy in
/-- The nodes of a global resource are at home in the list of their priority. -/
theorem home_eq_iff {i k : Nat} (hi : env.resourceRegistry.mSystemIndependentLayerMappings.lookup code =
      some i) (hrow : env.resourceRegistry.mResourceConfigs[i]? = some conf) (node : ResIterable)
    {p : Int} (h0 : 0 ≤ p) (h4 : p < 4) :
    home env p node = some (i, k) ↔ p = k ∧ node.mData.map (·.mResCode) = some code := by
  rw [home_eq node h0 h4, ← nodeSlot_eq_iff_code hconf hglobal hpolicy hi node]
  constructor
  · intro h
    obtain ⟨⟨i', s⟩, hslot, heq⟩ := Option.map_eq_some_iff.mp h
    obtain ⟨rfl, hk⟩ := Prod.mk.inj heq
    obtain rfl : s = 0 := slot_eq_zero hglobal hrow node s hslot
    refine ⟨?_, hslot⟩
    dsimp only at hk
    omega
  · rintro ⟨rfl, hslot⟩
    simp [hslot]

include hconf hglobal hpolicy in
/-- Those who wait for a list of a global resource are its claimants. -/
theorem waiting_eq_claimants {i : Nat}
    (hi : env.resourceRegistry.mSystemIndependentLayerMappings.lookup code = some i)
    (hrow : env.resourceRegistry.mResourceConfigs[i]? = some conf)
    {arrived : List (Int × ResIterable)} (hrange : ∀ entry ∈ arrived, 0 ≤ entry.1 ∧ entry.1 < 4)
    (k : Nat) : waiting env arrived i k = claimants arrived code k := by
  unfold waiting claimants
  congr 1
  refine List.filter_congr fun entry hentry => ?_
  obtain ⟨h0, h4⟩ := hrange entry hentry
  rw [decide_eq_decide]
  exact home_eq_iff hconf hglobal hpolicy hi hrow entry.2 h0 h4

end Global

end CocoTable

section Global

variable {env : Env} {code : BitVec 32} {conf : ResConfInfo} {calls : List Call} {t : CocoTable}
  {live : List Request}

/-- The live requests have internal priorities. -/
theorem Run.arrivals_range (run : Run env calls t live) :
    ∀ entry ∈ arrivals (callOps calls), 0 ≤ entry.1 ∧ entry.1 < 4 := by
  intro entry hentry
  obtain ⟨request, hrequest, -, heq⟩ := (run.accounted.2 entry.1 entry.2).mp hentry
  have hverified := run.verified request hrequest
  rw [← heq]
  exact ⟨hverified.priority_nonneg, hverified.priority_lt⟩

variable (hconf : env.getResConf code = some conf) (hglobal : conf.mApplyType = .APPLY_GLOBAL)
  (hpolicy : conf.mPolicy ≠ .PASS_THROUGH) (hmode : modeAllows env conf = true)

include hglobal hpolicy hmode in
/-- The one slot of a global resource is arbitrated, since its gate always agrees. -/
theorem Run.slotArbitrated (run : Run env calls t live) {i : Nat}
    (hrow : env.resourceRegistry.mResourceConfigs[i]? = some conf) : SlotArbitrated env t i 0 := by
  have hops := run.inRange
  have hsingle : ∀ node s, nodeSlot env node = some (i, s) → s = 0 := slot_eq_zero hglobal hrow
  have hgates : GatesAgree env conf i 0 (callOps calls) := by
    intro before op after h
    rw [h] at hops
    have hbefore : ∀ o ∈ before, NodeOp.InRange o := fun o ho => hops o (by simp [ho])
    exact gateAgrees_of_cached (cached_exec hrow hmode hsingle hbefore) (hops op (by simp))
  apply slotArbitrated_of_settled
  rw [run.eq_exec, slotView_exec hrow hmode hops hgates]
  exact Arbiter.settled_run (isPlacement_insertByPolicy hpolicy) _ (priority_lt_of_mem_slotOps hops)

include hconf hglobal hpolicy hmode in
/-- **A global resource is awarded by the ledger**, after every run of calls. -/
theorem Run.awarded (run : Run env calls t live) :
    Awarded conf.mPolicy code (arrivals (callOps calls)) t := by
  obtain ⟨i, -, -, hlookup, hrow⟩ := row_of_getResConf hconf
  have hslot := run.slotArbitrated hglobal hpolicy hmode hrow
  have hwaiting := waiting_eq_claimants hconf hglobal hpolicy hlookup hrow run.arrivals_range
  have hordered : ∀ k : Nat, PolicyOrdered conf.mPolicy (claimants (arrivals (callOps calls)) code k)
      (t.mCocoTable i k) := by
    intro k
    rw [← hwaiting]
    exact run.ordered i k conf hrow
  have hlist : ∀ p < 4, t.slotLists i 0 p = t.mCocoTable i p := by
    intro p hp
    rw [slotLists_of_lt t i 0 hp, Nat.mul_zero, Nat.zero_add]
  have hempty : ∀ k : Nat, t.mCocoTable i k = [] ↔ claimants (arrivals (callOps calls)) code k = [] := by
    intro k
    rw [← List.length_eq_zero_iff, (perm_of_policyOrdered (hordered k) hpolicy).length_eq,
      List.length_eq_zero_iff]
  -- what ran for the slot ran for the resource
  have hlog : slotCallbacks env t i 0 = callbacksOf t code := by
    unfold slotCallbacks callbacksOf
    refine List.filter_congr fun cb _ => ?_
    rw [Bool.eq_iff_iff, beq_iff_eq, beq_iff_eq]
    exact nodeSlot_eq_iff_code hconf hglobal hpolicy hlookup cb.node
  refine ⟨fun priority hclaimed hclear => ?_, fun hnone => ?_⟩
  · obtain ⟨node, hnode⟩ := List.exists_mem_of_ne_nil _ hclaimed
    obtain ⟨h0, h4⟩ := run.arrivals_range _ (mem_claimants.mp hnode).1
    obtain ⟨p, rfl⟩ : ∃ p : Nat, priority = p := ⟨priority.toNat, by omega⟩
    have hp : p < 4 := by omega
    have hne : t.mCocoTable i p ≠ [] := fun h => hclaimed ((hempty p).mp h)
    have htop : Arbiter.top 4 (t.slotLists i 0) = some p := by
      refine Arbiter.top_eq_some_iff.mpr ⟨hp, by rwa [hlist p hp], fun q hq => ?_⟩
      rw [hlist q (by omega), hempty q]
      exact hclear q (by omega)
    obtain ⟨head, rest, hcons⟩ := List.exists_cons_of_ne_nil hne
    have hhead : (t.mCocoTable i p).head? = some head := by rw [hcons]; rfl
    have hwinner : Arbiter.winner 4 (t.slotLists i 0) = some head := by
      rw [Arbiter.winner_of_top htop, hlist p hp, hhead]
    refine ⟨head, prescribed_of_head (hordered p) hhead, ?_⟩
    simpa only [SlotArbitrated, hwinner, hlog] using hslot
  · have htop : Arbiter.top 4 (t.slotLists i 0) = none := by
      refine Arbiter.top_eq_none_iff.mpr fun p hp => ?_
      rw [hlist p hp, hempty p]
      exact hnone p
    simpa only [SlotArbitrated, Arbiter.winner_eq_none_iff.mpr htop, hlog] using hslot

end Global

end ResourceTuner
