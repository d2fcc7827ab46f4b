import Mathlib.Data.List.Find
import Mathlib.Data.List.Induction
import Mathlib.Logic.Function.Basic

/-!
# Priority arbitration over ordered waiting lists

A *slot* is contended for by claimants of `n` priority levels, level `0` being the strongest.
Each level keeps an ordered waiting list; the claimant at the head of the strongest non-empty
level owns the slot.  The arbiter is told when a claimant arrives and when it leaves, and it
drives the slot through two effects: `apply a`, which gives the slot to `a`, and `reset a`,
which returns it to its idle value when its last claimant `a` has gone.

* **`insert` / `remove`** — the two operations, parametrised by the placement `place` that says
  where a newcomer enters its waiting list;
* **`winner`** — the claimant that should own the slot;
* **`Settled`** — the invariant: the last effect belongs to the winner, or is a reset (or there
  was none) when nobody waits;
* **`settled_run`** — every run of operations keeps the slot settled.
-/

namespace Arbiter

variable {α : Type}

/-- What the arbiter does to the slot. -/
inductive Effect (α : Type) where
  | apply (a : α)
  | reset (a : α)
  deriving DecidableEq

/-- The waiting lists, by level, and the effects so far, oldest first. -/
structure State (α : Type) where
  level : Nat → List α
  log : List (Effect α)

/-- Nobody waits at a level stronger than `p`. -/
def Clear (L : Nat → List α) (p : Nat) : Prop := ∀ q < p, L q = []

instance [DecidableEq α] (L : Nat → List α) (p : Nat) : Decidable (Clear L p) :=
  inferInstanceAs (Decidable (∀ q < p, L q = []))

/-- The strongest non-empty level. -/
def top (n : Nat) (L : Nat → List α) : Option Nat :=
  (List.range n).find? fun p => !(L p).isEmpty

/-- The claimant that should own the slot. -/
def winner (n : Nat) (L : Nat → List α) : Option α :=
  (top n L).bind fun p => (L p).head?

/-- `place` puts the newcomer somewhere into the list and keeps the order of the others. -/
def IsPlacement (place : α → List α → List α) : Prop :=
  ∀ a l, ∃ l₁ l₂, l = l₁ ++ l₂ ∧ place a l = l₁ ++ a :: l₂

/-! ## The strongest level -/

/-- The top level is the first that is not empty. -/
theorem top_eq_some_iff {n : Nat} {L : Nat → List α} {p : Nat} :
    top n L = some p ↔ p < n ∧ L p ≠ [] ∧ Clear L p := by
  unfold top Clear
  rw [List.find?_range_eq_some]
  simp only [Bool.not_eq_eq_eq_not, Bool.not_true, List.isEmpty_eq_false_iff, ne_eq,
    List.mem_range, Bool.not_not, List.isEmpty_iff]
  tauto

theorem top_eq_none_iff {n : Nat} {L : Nat → List α} :
    top n L = none ↔ ∀ p < n, L p = [] := by
  simp [top, List.find?_eq_none]

/-- The strongest level only depends on which levels are occupied. -/
theorem top_congr {n : Nat} {L L' : Nat → List α} (h : ∀ p < n, L' p = [] ↔ L p = []) :
    top n L' = top n L := by
  unfold top
  apply List.find?_congr
  intro p hp
  rw [Bool.eq_iff_iff]
  simp [h p (List.mem_range.mp hp)]

/-- A level may change as long as it does not become empty, or stop being so. -/
theorem top_update_of_iff {n : Nat} {L : Nat → List α} {p : Nat} {l : List α}
    (h : l = [] ↔ L p = []) : top n (Function.update L p l) = top n L := by
  apply top_congr
  intro q _
  by_cases hqp : q = p
  · subst hqp
    rw [Function.update_self, h]
  · rw [Function.update_of_ne hqp]

/-- Whatever happens at a level does not matter while a stronger level is occupied. -/
theorem top_update_of_not_clear {n : Nat} {L : Nat → List α} {p : Nat} (h : ¬ Clear L p)
    (l : List α) : top n (Function.update L p l) = top n L := by
  have hocc : ∃ q, q < p ∧ L q ≠ [] := by
    simpa only [Clear, not_forall, exists_prop] using h
  have hbelow : ∀ q < p, Function.update L p l q = L q :=
    fun q hq => Function.update_of_ne (Nat.ne_of_lt hq) _ _
  obtain ⟨q₀, hq₀, hne₀⟩ := hocc
  apply Option.ext
  intro r
  simp only [top_eq_some_iff, Clear]
  -- the strongest level lies at or above `q₀`, hence strictly above `p`, on either side
  constructor
  · rintro ⟨hr, hne, hclear⟩
    have hrp : r < p := by
      by_contra hge
      exact hne₀ ((hbelow q₀ hq₀) ▸ hclear q₀ (by omega))
    exact ⟨hr, hbelow r hrp ▸ hne, fun q hq => hbelow q (by omega) ▸ hclear q hq⟩
  · rintro ⟨hr, hne, hclear⟩
    have hrp : r < p := by
      by_contra hge
      exact hne₀ (hclear q₀ (by omega))
    exact ⟨hr, (hbelow r hrp).symm ▸ hne, fun q hq => (hbelow q (by omega)).symm ▸ hclear q hq⟩

/-- An occupied level nobody stands above is the strongest. -/
theorem top_update_of_clear {n : Nat} {L : Nat → List α} {p : Nat} (hp : p < n)
    (h : Clear L p) {l : List α} (hl : l ≠ []) : top n (Function.update L p l) = some p := by
  rw [top_eq_some_iff]
  refine ⟨hp, by rwa [Function.update_self], fun q hq => ?_⟩
  rw [Function.update_of_ne (by omega)]
  exact h q hq

/-! ## The winner -/

/-- The winner is the head of the top level. -/
theorem winner_of_top {n : Nat} {L : Nat → List α} {p : Nat} (h : top n L = some p) :
    winner n L = (L p).head? := by
  rw [winner, h]
  rfl

theorem winner_eq_none_iff {n : Nat} {L : Nat → List α} : winner n L = none ↔ top n L = none := by
  cases htop : top n L with
  | none => simp [winner, htop]
  | some p =>
    obtain ⟨-, hne, -⟩ := top_eq_some_iff.mp htop
    simp [winner, htop, hne]

/-- The winner only depends on the heads of the levels. -/
theorem winner_congr {n : Nat} {L L' : Nat → List α}
    (h : ∀ p < n, (L' p).head? = (L p).head?) : winner n L' = winner n L := by
  have htop : top n L' = top n L := by
    apply top_congr
    intro p hp
    rw [← List.head?_eq_none_iff, h p hp, List.head?_eq_none_iff]
  cases hL : top n L with
  | none => rw [winner_eq_none_iff.mpr hL, winner_eq_none_iff.mpr (htop.trans hL)]
  | some p =>
    rw [winner_of_top hL, winner_of_top (htop.trans hL)]
    exact h p (top_eq_some_iff.mp hL).1

/-- A level that keeps its head may change behind it. -/
theorem winner_update_of_head {n : Nat} {L : Nat → List α} {p : Nat} {l : List α}
    (h : l.head? = (L p).head?) : winner n (Function.update L p l) = winner n L := by
  apply winner_congr
  intro q _
  by_cases hqp : q = p
  · subst hqp
    rw [Function.update_self, h]
  · rw [Function.update_of_ne hqp]

/-- Below the top level nothing that changes changes the winner. -/
theorem winner_update_of_not_clear {n : Nat} {L : Nat → List α} {p : Nat} (h : ¬ Clear L p)
    (l : List α) : winner n (Function.update L p l) = winner n L := by
  have htop := top_update_of_not_clear (n := n) h l
  cases hL : top n L with
  | none => rw [winner_eq_none_iff.mpr hL, winner_eq_none_iff.mpr (htop.trans hL)]
  | some q =>
    have hqp : q ≠ p := by
      rintro rfl
      exact h (top_eq_some_iff.mp hL).2.2
    rw [winner_of_top hL, winner_of_top (htop.trans hL), Function.update_of_ne hqp]

/-- With nothing above it the head of a level wins. -/
theorem winner_update_of_clear {n : Nat} {L : Nat → List α} {p : Nat} (hp : p < n)
    (h : Clear L p) {l : List α} {a : α} (hl : l.head? = some a) :
    winner n (Function.update L p l) = some a := by
  have hne : l ≠ [] := by
    rintro rfl
    cases hl
  rw [winner_of_top (top_update_of_clear hp h hne), Function.update_self, hl]

/-- A newcomer that is not placed first leaves the head alone. -/
theorem IsPlacement.head?_of_ne {place : α → List α → List α} (hplace : IsPlacement place)
    {a : α} {l : List α} (h : (place a l).head? ≠ some a) : (place a l).head? = l.head? := by
  obtain ⟨l₁, l₂, hl, hl'⟩ := hplace a l
  rw [hl'] at h ⊢
  cases l₁ with
  | nil => exact absurd rfl h
  | cons b l₁ => rw [hl]; rfl

/-- A newcomer leaves no list empty. -/
theorem IsPlacement.ne_nil {place : α → List α → List α} (hplace : IsPlacement place) (a : α)
    (l : List α) : place a l ≠ [] := by
  obtain ⟨l₁, l₂, -, hl⟩ := hplace a l
  simp [hl]

/-! ## The invariant

A slot is settled when its last effect belongs to the winner. -/

/-- **The slot is in order**: its last effect gave it to the winner, or nobody waits and it was
never touched or last reset. -/
def Settled (n : Nat) (s : State α) : Prop :=
  match winner n s.level with
  | some a => s.log.getLast? = some (.apply a)
  | none => s.log = [] ∨ ∃ a, s.log.getLast? = some (.reset a)

/-- Right after the winner was applied the log is settled. -/
theorem settled_of_apply {n : Nat} {s : State α} {a : α} (hw : winner n s.level = some a)
    (hlog : s.log.getLast? = some (.apply a)) : Settled n s := by
  simp only [Settled, hw, hlog]

theorem settled_congr {n : Nat} {s s' : State α} (hw : winner n s'.level = winner n s.level)
    (hlog : s'.log = s.log) (h : Settled n s) : Settled n s' := by
  simpa only [Settled, hw, hlog] using h

/-- The state before any message. -/
def init : State α := ⟨fun _ => [], []⟩

theorem settled_init (n : Nat) : Settled n (init : State α) := by
  have hw : winner n (init : State α).level = none := winner_eq_none_iff.mpr
    (top_eq_none_iff.mpr fun _ _ => rfl)
  simp only [Settled, hw]
  exact Or.inl rfl

/-! ## Operations -/

variable [DecidableEq α]

/-- `a` arrives at level `p`: it is placed, and owns the slot at once when it is first in its
list and no stronger level is occupied. -/
def insert (place : α → List α → List α) (s : State α) (p : Nat) (a : α) : State α :=
  let l := place a (s.level p)
  { level := Function.update s.level p l
    log := if l.head? = some a ∧ Clear s.level p then s.log ++ [.apply a] else s.log }

/-- A newcomer that comes to the head, with nothing above it, is applied. -/
theorem insert_of_wins {place : α → List α → List α} {s : State α} {p : Nat} {a : α}
    (h : (place a (s.level p)).head? = some a ∧ Clear s.level p) :
    insert place s p a =
      ⟨Function.update s.level p (place a (s.level p)), s.log ++ [.apply a]⟩ := by
  simp only [insert, if_pos h]

/-- Any other is only put in its place. -/
theorem insert_of_waits {place : α → List α → List α} {s : State α} {p : Nat} {a : α}
    (h : ¬ ((place a (s.level p)).head? = some a ∧ Clear s.level p)) :
    insert place s p a = ⟨Function.update s.level p (place a (s.level p)), s.log⟩ := by
  simp only [insert, if_neg h]

/-- `a` leaves level `p`.  If its list is now empty the levels are searched again; if it was
first and others wait behind it, the next of its list takes over unless a stronger level is
occupied. -/
def remove (n : Nat) (s : State α) (p : Nat) (a : α) : State α :=
  let l := (s.level p).filter (· ≠ a)
  let L := Function.update s.level p l
  { level := L
    log := match l with
      | [] => match winner n L with
        | some b => s.log ++ [.apply b]
        | none => s.log ++ [.reset a]
      | b :: _ => if (s.level p).head? = some a ∧ Clear s.level p then s.log ++ [.apply b]
        else s.log }

/-- The last one of a level leaves its effect to the winner of the others, or is reset. -/
theorem remove_of_nil {n : Nat} {s : State α} {p : Nat} {a : α}
    (h : (s.level p).filter (· ≠ a) = []) :
    remove n s p a = ⟨Function.update s.level p [],
      match winner n (Function.update s.level p []) with
      | some b => s.log ++ [.apply b]
      | none => s.log ++ [.reset a]⟩ := by
  simp only [remove, h]

/-- The winner leaves its effect to the next one of its level. -/
theorem remove_of_succeeded {n : Nat} {s : State α} {p : Nat} {a b : α} {rest : List α}
    (hl : (s.level p).filter (· ≠ a) = b :: rest)
    (h : (s.level p).head? = some a ∧ Clear s.level p) :
    remove n s p a = ⟨Function.update s.level p (b :: rest), s.log ++ [.apply b]⟩ := by
  simp only [remove, hl, if_pos h]

/-- One that was not in effect leaves unnoticed. -/
theorem remove_of_unnoticed {n : Nat} {s : State α} {p : Nat} {a b : α} {rest : List α}
    (hl : (s.level p).filter (· ≠ a) = b :: rest)
    (h : ¬ ((s.level p).head? = some a ∧ Clear s.level p)) :
    remove n s p a = ⟨Function.update s.level p (b :: rest), s.log⟩ := by
  simp only [remove, hl, if_neg h]

/-- One message to the arbiter. -/
inductive Op (α : Type) where
  | insert (p : Nat) (a : α)
  | remove (p : Nat) (a : α)
  deriving DecidableEq

/-- The level an operation is about. -/
def Op.priority : Op α → Nat
  | .insert p _ => p
  | .remove p _ => p

def step (n : Nat) (place : α → List α → List α) (s : State α) : Op α → State α
  | .insert p a => insert place s p a
  | .remove p a => remove n s p a

def run (n : Nat) (place : α → List α → List α) (ops : List (Op α)) : State α :=
  ops.foldl (step n place) init

/-! ## Every operation keeps the invariant -/

/-- An insertion keeps the log settled, wherever the policy puts the newcomer. -/
theorem settled_insert {n : Nat} {place : α → List α → List α} (hplace : IsPlacement place)
    {s : State α} (hs : Settled n s) {p : Nat} (hp : p < n) (a : α) :
    Settled n (insert place s p a) := by
  by_cases hhead : (place a (s.level p)).head? = some a
  · by_cases hclear : Clear s.level p
    · -- the newcomer takes the slot
      rw [insert_of_wins ⟨hhead, hclear⟩]
      exact settled_of_apply (winner_update_of_clear hp hclear hhead) (by simp)
    · -- first in its list, but a stronger level keeps the slot
      rw [insert_of_waits fun h => hclear h.2]
      exact settled_congr (winner_update_of_not_clear hclear _) rfl hs
  · -- it queues behind someone
    rw [insert_of_waits fun h => hhead h.1]
    exact settled_congr (winner_update_of_head (hplace.head?_of_ne hhead)) rfl hs

/-- So does a removal: the three cases of the code are all that can happen. -/
theorem settled_remove {n : Nat} {s : State α} (hs : Settled n s) {p : Nat} (hp : p < n) (a : α) :
    Settled n (remove n s p a) := by
  cases hl : (s.level p).filter (· ≠ a) with
  | nil =>
    -- the list emptied: the arbiter searches all levels again
    rw [remove_of_nil hl]
    cases hw : winner n (Function.update s.level p []) with
    | some b => exact settled_of_apply hw (by simp)
    | none =>
      simp only [Settled, hw]
      exact Or.inr ⟨a, by simp⟩
  | cons b rest =>
    by_cases hhead : (s.level p).head? = some a
    · by_cases hclear : Clear s.level p
      · rw [remove_of_succeeded hl ⟨hhead, hclear⟩]
        exact settled_of_apply (winner_update_of_clear hp hclear rfl) (by simp)
      · rw [remove_of_unnoticed hl fun h => hclear h.2]
        exact settled_congr (winner_update_of_not_clear hclear _) rfl hs
    · -- someone else was first and still is
      rw [remove_of_unnoticed hl fun h => hhead h.1]
      refine settled_congr (winner_update_of_head ?_) rfl hs
      rw [← hl]
      cases hsl : s.level p with
      | nil => rfl
      | cons c cs =>
        have hca : c ≠ a := by
          intro h
          exact hhead (by rw [hsl, h]; rfl)
        simp [hca]

/-- So does any operation. -/
theorem settled_step {n : Nat} {place : α → List α → List α} (hplace : IsPlacement place)
    {s : State α} (hs : Settled n s) (op : Op α) (hp : op.priority < n) :
    Settled n (step n place s op) := by
  cases op with
  | insert p a => exact settled_insert hplace hs hp a
  | remove p a => exact settled_remove hs hp a

/-- **A run keeps the slot in order**, whatever arrives and leaves in whatever order. -/
theorem settled_run {n : Nat} {place : α → List α → List α} (hplace : IsPlacement place)
    (ops : List (Op α)) (hops : ∀ op ∈ ops, op.priority < n) : Settled n (run n place ops) := by
  induction ops using List.reverseRecOn with
  | nil => exact settled_init n
  | append_singleton ops op ih =>
    rw [run, List.foldl_append, List.foldl_cons, List.foldl_nil]
    apply settled_step hplace _ op (hops op (by simp))
    exact ih fun o ho => hops o (by simp [ho])

end Arbiter
