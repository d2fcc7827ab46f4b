import Mathlib.Algebra.Order.Ring.Rat
import Mathlib.Tactic.Linarith
import ResourceTuner.Core.ClientDataManager

/-!
# The rate limiter

`RateLimiter.cpp`.  Every thread has a health that starts at 100: a message that comes too soon after
the last accepted one costs a penalty, any other one earns a reward, and a thread whose health is
used up is blocked for good.  Health, penalty and reward are exact rational numbers here.

* **`shouldBeProcessed`** — the decision on one message, over the client tables;
* **`judge`** — what it does to the entry of the thread;
* **`Lawful`** — what the limiter promises over any sequence of messages;
* **`lawful_of_fresh`** — and that it keeps it.
-/

namespace ResourceTuner

/-- `class RateLimiter`. -/
structure RateLimiter where
  mDelta : Nat
  mPenaltyFactor : Rat
  mRewardFactor : Rat

namespace RateLimiter

/-- The health after a message.  The first message of a thread does not change it. -/
def rate (r : RateLimiter) (health : Rat) (lastRequest currentMillis : Int) : Rat :=
  if lastRequest ≠ 0 then
    if currentMillis - lastRequest < r.mDelta then health - r.mPenaltyFactor
    else min 100 (health + r.mRewardFactor)
  else health

/-- `shouldBeProcessed` at a time, `none` where it would dereference a null entry. -/
def shouldBeProcessed (r : RateLimiter) (m : ClientDataManager) (clientTID currentMillis : Int) :
    Option (Bool × ClientDataManager) := do
  let health ← m.getHealthByClientID clientTID
  if health ≤ 0 then some (false, m)
  else
    let lastRequest ← m.getLastRequestTimestampByClientID clientTID
    let health := r.rate health lastRequest currentMillis
    let m ← m.updateHealthByClientID clientTID health
    if health ≤ 0 then some (false, m)
    else
      let m ← m.updateLastRequestTimestampByClientID clientTID currentMillis
      some (true, m)

/-- The answers to the messages of a thread, at the times of a list. -/
def calls (r : RateLimiter) (m : ClientDataManager) (clientTID : Int) :
    List Int → Option (List Bool × ClientDataManager)
  | [] => some ([], m)
  | currentMillis :: rest => do
    let (answer, m) ← r.shouldBeProcessed m clientTID currentMillis
    let (answers, m) ← r.calls m clientTID rest
    return (answer :: answers, m)

/-! ## The entry of one thread -/

/-- The answer to a message and the entry it leaves. -/
def judge (r : RateLimiter) (data : ClientTidData) (currentMillis : Int) : Bool × ClientTidData :=
  let health := r.rate data.mHealth data.mLastRequestTimestamp currentMillis
  if data.mHealth ≤ 0 then (false, data)
  else if health ≤ 0 then (false, { data with mHealth := health })
  else (true, { data with mHealth := health, mLastRequestTimestamp := currentMillis })

/-- The answers to a sequence of messages and the entry they leave. -/
def judgeAll (r : RateLimiter) (data : ClientTidData) : List Int → List Bool × ClientTidData
  | [] => ([], data)
  | currentMillis :: rest =>
    let judged := r.judge data currentMillis
    let judgedRest := r.judgeAll judged.2 rest
    (judged.1 :: judgedRest.1, judgedRest.2)

section Tables

variable {r : RateLimiter} {m : ClientDataManager} {clientTID : Int} {data : ClientTidData}

/-- The decision reads and writes the entry of its thread only. -/
theorem shouldBeProcessed_of_lookup (h : m.mClientTidRepo.lookup clientTID = some (some data))
    (currentMillis : Int) :
    ∃ m', r.shouldBeProcessed m clientTID currentMillis =
        some ((r.judge data currentMillis).1, m') ∧
      m'.mClientTidRepo.lookup clientTID = some (some (r.judge data currentMillis).2) ∧
      (data.mHealth ≤ 0 → m' = m) := by
  have hhealth : m.getHealthByClientID clientTID = some data.mHealth := by
    simp [ClientDataManager.getHealthByClientID, ClientDataManager.findTid, h]
  have hlast : m.getLastRequestTimestampByClientID clientTID = some data.mLastRequestTimestamp := by
    simp [ClientDataManager.getLastRequestTimestampByClientID, ClientDataManager.findTid, h]
  simp only [shouldBeProcessed, judge, hhealth, hlast, Option.bind_eq_bind, Option.bind_some]
  generalize r.rate data.mHealth data.mLastRequestTimestamp currentMillis = health
  by_cases hblocked : data.mHealth ≤ 0
  · simp only [if_pos hblocked]
    exact ⟨m, rfl, h, fun _ => rfl⟩
  · have hupdate : m.updateHealthByClientID clientTID health =
        some (m.setTid clientTID { data with mHealth := health }) := by
      simp [ClientDataManager.updateHealthByClientID, ClientDataManager.findTid, h]
    simp only [if_neg hblocked, hupdate, Option.bind_some]
    by_cases hspent : health ≤ 0
    · simp only [if_pos hspent]
      exact ⟨_, rfl, AList.lookup_insert _, fun hle => absurd hle hblocked⟩
    · simp only [if_neg hspent]
      have hlookup : (m.setTid clientTID { data with mHealth := health }).mClientTidRepo.lookup
          clientTID = some (some { data with mHealth := health }) := AList.lookup_insert _
      have hstamp : (m.setTid clientTID { data with mHealth := health
          }).updateLastRequestTimestampByClientID clientTID currentMillis = some ((m.setTid clientTID
            { data with mHealth := health }).setTid clientTID
              { data with mHealth := health, mLastRequestTimestamp := currentMillis }) := by
        simp [ClientDataManager.updateLastRequestTimestampByClientID, ClientDataManager.findTid,
          hlookup]
      simp only [hstamp, Option.bind_some]
      exact ⟨_, rfl, AList.lookup_insert _, fun hle => absurd hle hblocked⟩

/-- The answers of the tables are the answers of the entry. -/
theorem calls_of_lookup (h : m.mClientTidRepo.lookup clientTID = some (some data))
    (times : List Int) :
    ∃ m', r.calls m clientTID times = some ((r.judgeAll data times).1, m') ∧
      m'.mClientTidRepo.lookup clientTID = some (some (r.judgeAll data times).2) := by
  induction times generalizing m data with
  | nil => exact ⟨m, rfl, h⟩
  | cons currentMillis rest ih =>
    obtain ⟨m₁, hcall, hlookup, -⟩ := shouldBeProcessed_of_lookup (r := r) h currentMillis
    obtain ⟨m₂, hcalls, hlookup₂⟩ := ih hlookup
    refine ⟨m₂, ?_, hlookup₂⟩
    simp only [calls, hcall, hcalls, Option.bind_eq_bind, Option.bind_some, judgeAll]
    rfl

end Tables

/-! ## The law -/

/-- The time of the last accepted message, or the given one if none is. -/
def lastAccepted (stamp : Int) : List Int → List Bool → Int
  | currentMillis :: times, answer :: answers =>
    lastAccepted (if answer then currentMillis else stamp) times answers
  | _, _ => stamp

/-- The time from every message to the next. -/
def gaps : List Int → List Int
  | first :: second :: rest => (second - first) :: gaps (second :: rest)
  | _ => []

/-- The state after a sequence of messages of a thread, and what any next message does to it. -/
structure Judged (r : RateLimiter) (m : ClientDataManager) (clientTID : Int) (times : List Int)
    (answers : List Bool) (m' : ClientDataManager) : Prop where
  run : r.calls m clientTID times = some (answers, m')
  health : ∃ health, m'.getHealthByClientID clientTID = some health ∧ health ≤ 100
  stamp : m'.getLastRequestTimestampByClientID clientTID = some (lastAccepted 0 times answers)
  /-- a message is accepted exactly when some health is left after it -/
  next : ∀ currentMillis, 0 < currentMillis → ∃ answer m'' health,
    r.shouldBeProcessed m' clientTID currentMillis = some (answer, m'') ∧
      m''.getHealthByClientID clientTID = some health ∧ (answer = true ↔ 0 < health)
  /-- a thread that was refused once is refused for good -/
  blocked : false ∈ answers → ∀ currentMillis, r.shouldBeProcessed m' clientTID currentMillis =
    some (false, m')

/-- **What the limiter promises** to a thread. -/
structure Lawful (r : RateLimiter) (m : ClientDataManager) (clientTID : Int) : Prop where
  judged : ∀ times, (∀ t ∈ times, 0 < t) → ∃ answers m', r.Judged m clientTID times answers m'
  /-- whoever waits longer is not worse off -/
  monotone : ∀ times₁ times₂ answers₁ answers₂ m₁ m₂, (∀ t ∈ times₁, 0 < t) →
    (∀ t ∈ times₂, 0 < t) → times₁.length = times₂.length →
    List.Forall₂ (· ≤ ·) (gaps times₁) (gaps times₂) →
    r.calls m clientTID times₁ = some (answers₁, m₁) →
    r.calls m clientTID times₂ = some (answers₂, m₂) →
    ∀ i : Nat, answers₁[i]? = some true → answers₂[i]? = some true

section Law

variable {r : RateLimiter} {data data₁ data₂ : ClientTidData}

/-- A blocked entry is left as it is. -/
theorem judge_of_blocked (h : data.mHealth ≤ 0) (currentMillis : Int) :
    r.judge data currentMillis = (false, data) := if_pos h

/-- The answer tells whether some health is left. -/
theorem judge_fst_iff (currentMillis : Int) :
    (r.judge data currentMillis).1 = true ↔ 0 < (r.judge data currentMillis).2.mHealth := by
  unfold judge
  dsimp only
  split
  · simpa using ‹_ ≤ _›
  · split
    · simpa using ‹_ ≤ _›
    · simpa using not_le.mp ‹¬ r.rate _ _ _ ≤ 0›

theorem judge_stamp (currentMillis : Int) :
    (r.judge data currentMillis).2.mLastRequestTimestamp =
      if (r.judge data currentMillis).1 then currentMillis else data.mLastRequestTimestamp := by
  unfold judge
  dsimp only
  repeat' split
  all_goals simp_all

theorem judge_health_le (hp : 0 ≤ r.mPenaltyFactor) (h : data.mHealth ≤ 100)
    (currentMillis : Int) : (r.judge data currentMillis).2.mHealth ≤ 100 := by
  have hrate : r.rate data.mHealth data.mLastRequestTimestamp currentMillis ≤ 100 := by
    unfold rate
    split
    · split
      · linarith
      · exact min_le_left _ _
    · exact h
  unfold judge
  dsimp only
  repeat' split
  all_goals assumption

/-- A blocked entry refuses everything. -/
theorem judgeAll_of_blocked (h : data.mHealth ≤ 0) (times : List Int) :
    r.judgeAll data times = (List.replicate times.length false, data) := by
  induction times with
  | nil => rfl
  | cons currentMillis rest ih =>
    rw [judgeAll, judge_of_blocked h, ih]
    rfl

/-- An entry that has been judged: its health, its time stamp, and whether it is blocked. -/
theorem judgeAll_spec (hp : 0 ≤ r.mPenaltyFactor) (h : data.mHealth ≤ 100) (times : List Int) :
    (r.judgeAll data times).2.mHealth ≤ 100 ∧
      (r.judgeAll data times).2.mLastRequestTimestamp =
        lastAccepted data.mLastRequestTimestamp times (r.judgeAll data times).1 ∧
      (false ∈ (r.judgeAll data times).1 → (r.judgeAll data times).2.mHealth ≤ 0) := by
  induction times generalizing data with
  | nil => exact ⟨h, rfl, fun hmem => absurd hmem List.not_mem_nil⟩
  | cons currentMillis rest ih =>
    obtain ⟨hhealth, hstamp, hblocked⟩ := ih (judge_health_le hp h currentMillis)
    refine ⟨hhealth, ?_, fun hmem => ?_⟩
    · rw [judge_stamp] at hstamp
      exact hstamp
    · rcases List.mem_cons.mp hmem with hfalse | hmem
      · -- refused now: what is left is blocked
        have hspent : (r.judge data currentMillis).2.mHealth ≤ 0 := by
          rw [← not_lt, ← judge_fst_iff, ← hfalse]
          decide
        show (r.judgeAll (r.judge data currentMillis).2 rest).2.mHealth ≤ 0
        rw [judgeAll_of_blocked hspent]
        exact hspent
      · exact hblocked hmem

/-- More health and a longer wait leave more health. -/
theorem rate_mono (hp : 0 ≤ r.mPenaltyFactor) (hr : 0 ≤ r.mRewardFactor) {health₁ health₂ : Rat}
    {stamp₁ stamp₂ now₁ now₂ : Int} (hle : health₁ ≤ health₂) (hmax : health₂ ≤ 100)
    (hstamp₁ : stamp₁ ≠ 0) (hstamp₂ : stamp₂ ≠ 0) (hgap : now₁ - stamp₁ ≤ now₂ - stamp₂) :
    r.rate health₁ stamp₁ now₁ ≤ r.rate health₂ stamp₂ now₂ := by
  unfold rate
  rw [if_pos hstamp₁, if_pos hstamp₂]
  have hkept : health₂ ≤ min 100 (health₂ + r.mRewardFactor) := le_min hmax (by linarith)
  by_cases hfast₁ : now₁ - stamp₁ < r.mDelta
  · rw [if_pos hfast₁]
    split
    · linarith
    · linarith
  · have hfast₂ : ¬ now₂ - stamp₂ < r.mDelta := by omega
    rw [if_neg hfast₁, if_neg hfast₂]
    exact min_le_min_left 100 (by linarith)

/-- The simulation: as long as the first thread is not blocked, the second has at least its
health. -/
theorem judgeAll_mono (hp : 0 ≤ r.mPenaltyFactor) (hr : 0 ≤ r.mRewardFactor)
    {times₁ times₂ : List Int} (hle : data₁.mHealth ≤ data₂.mHealth) (hmax : data₂.mHealth ≤ 100)
    (hstamp₁ : data₁.mLastRequestTimestamp ≠ 0) (hstamp₂ : data₂.mLastRequestTimestamp ≠ 0)
    (hpos₁ : ∀ t ∈ times₁, 0 < t) (hpos₂ : ∀ t ∈ times₂, 0 < t)
    (hgaps : List.Forall₂ (· ≤ ·) (gaps (data₁.mLastRequestTimestamp :: times₁))
      (gaps (data₂.mLastRequestTimestamp :: times₂))) {i : Nat}
    (hi : (r.judgeAll data₁ times₁).1[i]? = some true) :
    (r.judgeAll data₂ times₂).1[i]? = some true := by
  induction times₁ generalizing data₁ data₂ times₂ i with
  | nil => simp [judgeAll] at hi
  | cons now₁ rest₁ ih =>
    cases times₂ with
    | nil => cases hgaps
    | cons now₂ rest₂ =>
      have hgap := (List.forall₂_cons.mp hgaps).1
      have hrest := (List.forall₂_cons.mp hgaps).2
      have hrate := rate_mono hp hr hle hmax hstamp₁ hstamp₂ hgap
      -- a first thread that is blocked, or that this message blocks, answers true no more
      have hopen : ¬ data₁.mHealth ≤ 0 := by
        intro hblocked
        rw [judgeAll_of_blocked hblocked] at hi
        simp [List.getElem?_replicate] at hi
      have hleft : ¬ r.rate data₁.mHealth data₁.mLastRequestTimestamp now₁ ≤ 0 := by
        intro hspent
        have hjudge : r.judge data₁ now₁ = (false, { data₁ with
            mHealth := r.rate data₁.mHealth data₁.mLastRequestTimestamp now₁ }) := by
          simp [judge, hopen, hspent]
        rw [judgeAll, hjudge, judgeAll_of_blocked hspent] at hi
        cases i <;> simp [List.getElem?_replicate] at hi
      have hjudge₁ : r.judge data₁ now₁ = (true, { data₁ with
          mHealth := r.rate data₁.mHealth data₁.mLastRequestTimestamp now₁
          mLastRequestTimestamp := now₁ }) := by
        simp [judge, hopen, hleft]
      have hopen₂ : ¬ data₂.mHealth ≤ 0 := by linarith
      have hleft₂ : ¬ r.rate data₂.mHealth data₂.mLastRequestTimestamp now₂ ≤ 0 := by linarith
      have hjudge₂ : r.judge data₂ now₂ = (true, { data₂ with
          mHealth := r.rate data₂.mHealth data₂.mLastRequestTimestamp now₂
          mLastRequestTimestamp := now₂ }) := by
        simp [judge, hopen₂, hleft₂]
      cases i with
      | zero => simp [judgeAll, hjudge₂]
      | succ i =>
        have hmax₂ := judge_health_le hp hmax now₂
        rw [hjudge₂] at hmax₂
        simp only [judgeAll, hjudge₁, hjudge₂, List.getElem?_cons_succ] at hi ⊢
        refine ih hrate hmax₂ ?_ ?_ ?_ ?_ hrest hi
        · exact (hpos₁ now₁ List.mem_cons_self).ne'
        · exact (hpos₂ now₂ List.mem_cons_self).ne'
        · exact fun t ht => hpos₁ t (List.mem_cons_of_mem _ ht)
        · exact fun t ht => hpos₂ t (List.mem_cons_of_mem _ ht)

/-- The first message of a fresh entry is accepted. -/
theorem judge_fresh (currentMillis : Int) : r.judge .fresh currentMillis =
    (true, { ClientTidData.fresh with mLastRequestTimestamp := currentMillis }) := by
  simp only [judge, rate, ClientTidData.fresh, ne_eq, not_true_eq_false, if_false]
  rw [if_neg (by decide), if_neg (by decide)]

end Law

/-- **The law of the rate limiter**: the health of a fresh entry never exceeds 100 and decides every
answer, the time stamp is that of the last accepted message, a thread that was refused stays blocked,
and longer waits are never punished. -/
theorem lawful_of_fresh (r : RateLimiter) (m : ClientDataManager) (clientTID : Int)
    (hp : 0 ≤ r.mPenaltyFactor) (hr : 0 ≤ r.mRewardFactor)
    (hfresh : m.mClientTidRepo.lookup clientTID = some (some .fresh)) :
    r.Lawful m clientTID := by
  have hmax : ClientTidData.fresh.mHealth ≤ 100 := le_refl _
  constructor
  · intro times hpos
    obtain ⟨m', hrun, hlookup⟩ := calls_of_lookup (r := r) hfresh times
    obtain ⟨hhealth, hstamp, hblocked⟩ := judgeAll_spec hp hmax times
    refine ⟨_, m', hrun, ⟨_, ?_, hhealth⟩, ?_, fun now hnow => ?_, fun hmem now => ?_⟩
    · simp [ClientDataManager.getHealthByClientID, ClientDataManager.findTid, hlookup]
    · simp only [ClientDataManager.getLastRequestTimestampByClientID, ClientDataManager.findTid,
        hlookup, hstamp]
      rfl
    · obtain ⟨m'', hcall, hlookup', -⟩ := shouldBeProcessed_of_lookup (r := r) hlookup now
      refine ⟨_, m'', _, hcall, ?_, judge_fst_iff now⟩
      simp [ClientDataManager.getHealthByClientID, ClientDataManager.findTid, hlookup']
    · obtain ⟨m'', hcall, -, hsame⟩ := shouldBeProcessed_of_lookup (r := r) hlookup now
      have hspent := hblocked hmem
      rw [hcall, judge_of_blocked hspent, hsame hspent]
  · intro times₁ times₂ answers₁ answers₂ m₁ m₂ hpos₁ hpos₂ hlength hgaps hrun₁ hrun₂ i hi
    obtain ⟨m₁', hcalls₁, -⟩ := calls_of_lookup (r := r) hfresh times₁
    obtain ⟨m₂', hcalls₂, -⟩ := calls_of_lookup (r := r) hfresh times₂
    obtain ⟨rfl, -⟩ := Prod.mk.inj (Option.some.inj (hrun₁.symm.trans hcalls₁))
    obtain ⟨rfl, -⟩ := Prod.mk.inj (Option.some.inj (hrun₂.symm.trans hcalls₂))
    cases times₁ with
    | nil => simp [judgeAll] at hi
    | cons now₁ rest₁ =>
      cases times₂ with
      | nil => cases hlength
      | cons now₂ rest₂ =>
        rw [judgeAll, judge_fresh] at hi ⊢
        cases i with
        | zero => rfl
        | succ i =>
          simp only [List.getElem?_cons_succ] at hi ⊢
          have hmono := @judgeAll_mono r
            { ClientTidData.fresh with mLastRequestTimestamp := now₁ }
            { ClientTidData.fresh with mLastRequestTimestamp := now₂ } hp hr rest₁ rest₂
          refine hmono (le_refl _) hmax ?_ ?_ ?_ ?_ hgaps hi
          · exact (hpos₁ now₁ List.mem_cons_self).ne'
          · exact (hpos₂ now₂ List.mem_cons_self).ne'
          · exact fun t ht => hpos₁ t (List.mem_cons_of_mem _ ht)
          · exact fun t ht => hpos₂ t (List.mem_cons_of_mem _ ht)

end RateLimiter

namespace Sample

/-- The limiter of a target that allows a message every two milliseconds. -/
def rateLimiter : RateLimiter := ⟨2, 2, 2 / 5⟩

/-- The tables after a first client was created. -/
def oneClient : ClientDataManager :=
  (ClientDataManager.empty.createNewClient 1 1 ⟨true, true, some .PERMISSION_THIRD_PARTY⟩).2

theorem rateLimiter_lawful : rateLimiter.Lawful oneClient 1 :=
  RateLimiter.lawful_of_fresh rateLimiter oneClient 1 (by norm_num [rateLimiter])
    (by norm_num [rateLimiter]) (by decide)

end Sample

end ResourceTuner
