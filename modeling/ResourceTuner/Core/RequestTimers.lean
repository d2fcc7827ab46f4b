import ResourceTuner.Common.Timer
import ResourceTuner.Core.CocoTable
import ResourceTuner.Core.RequestManager
import ResourceTuner.Lib.Machine

/-!
# The timers of the requests

`CocoTable::insertRequest` and `updateRequest` once more, this time with the timer blocks they take,
build in, start and give back, and `Request::cleanUpRequest`.  The lists they link are the subject
of `CocoTable.lean`; `updateRequest_answer` says that a retune answers here what it answers there.

* **`updateRequest_atomic_iff`** — when a retune leaves either everything or nothing as it was;
* **`TimerServer`** — requests that come and go, and tasks that outlive their timers;
* **`expiries_sound`** — a task expires the request it was enqueued for, as long as no block is
  taken while a task still waits on it.
-/

namespace ResourceTuner

namespace Timers

/-! ## The calls -/

/-- `insertRequest` of the request at `r`: the answer and the request afterwards. -/
def insertRequest (s : Timers) (r : ReqPtr) (req : Request) (granted enqueued : Bool) :
    Bool × Request × Timers :=
  let req := { req with mTimer := none }
  if req.mDuration ≠ -1 then
    match s.getBlock granted with
    | (none, s) => (false, req, s)
    | (some b, s) =>
      let s := s.construct b (some r) false
      let req := { req with mTimer := some b }
      match req.mResourceList with
      | none => (false, req, s)
      | some _ =>
        let started := s.startTimer b req.mDuration enqueued
        (started.1, req, started.2)
  else (req.mResourceList.isSome, req, s)

/-- `updateRequest` of the request at `r`.  `none` is the crash of a request without a timer: the
old timer is killed through its pointer before anything is tested. -/
def updateRequest (s : Timers) (r : ReqPtr) (req : Request) (duration : Int)
    (granted enqueued : Bool) : Option (Bool × Request × Timers) :=
  if duration < -1 ∨ (duration > 0 ∧ duration < req.mDuration) then some (false, req, s)
  else
    match req.mTimer with
    | none => none
    | some currTimer =>
      let s := (s.killTimer currTimer).freeBlock currTimer
      let req := { req with mTimer := none, mDuration := duration }
      match s.getBlock granted with
      | (none, s) => some (false, req, s)
      | (some b, s) =>
        let started := (s.construct b (some r) false).startTimer b duration enqueued
        some (started.1, { req with mTimer := some b }, started.2)

/-- `cleanUpRequest`, as far as the timer goes. -/
def cleanUpRequest (s : Timers) (req : Request) : Request × Timers :=
  match req.mTimer with
  | none => (req, s)
  | some timer => ({ req with mTimer := none }, s.freeBlock timer)

theorem startTimer_eq (s : Timers) (b : Nat) (duration : Int) (enqueued : Bool) :
    (s.startTimer b duration enqueued).1 = CocoTable.startTimer duration enqueued := by
  unfold startTimer CocoTable.startTimer
  split
  · rfl
  · split
    · rfl
    · cases enqueued <;> rfl

/-- The admission test of `updateRequest` turns the duration down. -/
def Refused (req : Request) (duration : Int) : Prop :=
  duration < -1 ∨ (duration > 0 ∧ duration < req.mDuration)

instance (req : Request) (duration : Int) : Decidable (Refused req duration) :=
  inferInstanceAs (Decidable (_ ∨ _ ∧ _))

end Timers

/-! ## The answer of a retune -/

namespace CocoTable

variable {request request' : Request} {duration : Int} {timerBlock : Option Nat}
  {enqueued b : Bool}

theorem updateRequest_of_refused (h : Timers.Refused request duration) :
    updateRequest request duration timerBlock enqueued = some (false, request) := if_pos h

theorem updateRequest_of_passed (h : ¬ Timers.Refused request duration) :
    updateRequest request duration timerBlock enqueued =
      request.mTimer.map fun _ =>
        (timerBlock.isSome && startTimer duration enqueued,
          { request with mDuration := duration, mTimer := timerBlock }) := by
  refine (if_neg h).trans ?_
  cases request.mTimer with
  | none => rfl
  | some timer => cases timerBlock <;> rfl

/-- What `updateRequest` leaves of the duration, when it does not crash. -/
theorem updateRequest_duration
    (h : updateRequest request duration timerBlock enqueued = some (b, request')) :
    request'.mDuration =
      if Timers.Refused request duration then request.mDuration else duration := by
  split
  · rename_i hrefused
    rw [updateRequest_of_refused hrefused] at h
    cases h
    rfl
  · rename_i hpassed
    rw [updateRequest_of_passed hpassed] at h
    obtain ⟨timer, -, hupdated⟩ := Option.map_eq_some_iff.mp h
    cases hupdated
    rfl

/-- It crashes on a request without a timer, unless it turns the duration down. -/
theorem updateRequest_eq_none_iff :
    updateRequest request duration timerBlock enqueued = none ↔
      ¬ Timers.Refused request duration ∧ request.mTimer = none := by
  by_cases hrefused : Timers.Refused request duration
  · rw [updateRequest_of_refused hrefused]
    simp [hrefused]
  · rw [updateRequest_of_passed hrefused, Option.map_eq_none_iff]
    simp [hrefused]

end CocoTable

namespace Timers

/-- The answer and the request are those of the table's account of `updateRequest`. -/
theorem updateRequest_answer (s : Timers) (r : ReqPtr) (req : Request) (duration : Int)
    (granted enqueued : Bool) :
    (s.updateRequest r req duration granted enqueued).map (fun done => (done.1, done.2.1)) =
      CocoTable.updateRequest req duration
        (req.mTimer.bind fun b => (((s.killTimer b).freeBlock b).getBlock granted).1) enqueued := by
  unfold updateRequest
  split
  · rename_i hrefused
    exact (CocoTable.updateRequest_of_refused hrefused).symm
  · rename_i hpassed
    rw [CocoTable.updateRequest_of_passed hpassed]
    cases htimer : req.mTimer with
    | none => rfl
    | some b =>
      simp only [Option.bind_some, Option.map_some]
      rcases hblock : ((s.killTimer b).freeBlock b).getBlock granted with ⟨block, s'⟩
      cases block with
      | none => rfl
      | some b' => simp only [Option.map_some, startTimer_eq, Option.isSome_some, Bool.true_and]

/-- So it crashes where the table's account does. -/
theorem updateRequest_eq_none_iff {s : Timers} {r : ReqPtr} {req : Request} {duration : Int}
    {granted enqueued : Bool} :
    s.updateRequest r req duration granted enqueued = none ↔
      ¬ Refused req duration ∧ req.mTimer = none := by
  rw [← CocoTable.updateRequest_eq_none_iff, ← updateRequest_answer s r req duration granted enqueued,
    Option.map_eq_none_iff]

/-! ## Retuning -/

/-- The tasks that wait on a block. -/
def waiting (s : Timers) (b : Nat) : List TimerTask := s.tasks.filter (·.timer = b)

theorem waiting_eq_nil_iff {s : Timers} {b : Nat} : s.waiting b = [] ↔ s.Idle b := by
  simp [waiting, Idle, List.filter_eq_nil_iff]

/-- The request at `r` has a timer of the given duration: it was built for the request, it is not
stopped, and it has one task waiting.  For an infinite duration no task may wait, and there need
not be a timer. -/
def Running (s : Timers) (r : ReqPtr) (req : Request) (duration : Int) : Prop :=
  match req.mTimer with
  | none => duration = -1
  | some b =>
    (s.timer b).mCallback = some r ∧ (s.timer b).mTimerStop = false ∧
      (s.timer b).mIsRecurring = false ∧
      if duration = -1 then s.waiting b = []
      else (s.timer b).mDuration = duration ∧ s.waiting b = [⟨b, (s.timer b).object⟩]

/-- What a retune that answers false leaves: the duration, the timer and its tasks as they were. -/
def Untouched (s : Timers) (req : Request) (s' : Timers) (req' : Request) : Prop :=
  req'.mDuration = req.mDuration ∧ req'.mTimer = req.mTimer ∧
    ∀ b, req.mTimer = some b → s'.timer b = s.timer b ∧ s'.waiting b = s.waiting b

/-- What a retune that answers true leaves: the new duration, a timer for it, and every task of the
old timer with nothing left to do. -/
def Replaced (s : Timers) (r : ReqPtr) (req : Request) (duration : Int) (s' : Timers)
    (req' : Request) : Prop :=
  req'.mDuration = duration ∧ s'.Running r req' duration ∧
    ∀ task ∈ s.tasks, req.mTimer = some task.timer → (s'.timer task.timer).mTimerStop = true

/-- A retune that does not crash and does all or nothing. -/
def UpdateAtomic (s : Timers) (r : ReqPtr) (req : Request) (duration : Int)
    (granted enqueued : Bool) : Prop :=
  match s.updateRequest r req duration granted enqueued with
  | none => False
  | some (false, req', s') => s.Untouched req s' req'
  | some (true, req', s') => s.Replaced r req duration s' req'

/-- Nothing is missing on the way to the new timer: there is an old one, a block is granted, no task
waits on that block, and the timer starts. -/
def Replaceable (s : Timers) (req : Request) (duration : Int) (granted enqueued : Bool) : Prop :=
  ∃ b b', req.mTimer = some b ∧ (s.free ++ [b]).head? = some b' ∧ s.Idle b' ∧ granted = true ∧
    (duration = -1 ∨ 0 < duration ∧ enqueued = true)

/-- The blocks once the old timer is gone and the new one is built in `b'`. -/
def rebuild (s : Timers) (r : ReqPtr) (b b' : Nat) : Timers :=
  { (s.killTimer b).freeBlock b with free := (s.free ++ [b]).tail }.construct b' (some r) false

section Rebuild

variable {s : Timers} {r : ReqPtr} {b b' : Nat}

@[simp] theorem rebuild_tasks : (s.rebuild r b b').tasks = s.tasks := rfl

@[simp] theorem rebuild_next : (s.rebuild r b b').next = s.next + 1 := rfl

theorem rebuild_timer_self (s : Timers) (r : ReqPtr) (b b' : Nat) : ∃ duration,
    (s.rebuild r b b').timer b' = ⟨s.next, duration, false, false, some r⟩ :=
  ⟨_, construct_timer_self _ _ _ _⟩

/-- Of the other blocks only the freed one changes: it is stopped. -/
theorem rebuild_timer_of_ne {c : Nat} (h : c ≠ b') :
    (s.rebuild r b b').timer c =
      if c = b then { s.timer c with mTimerStop := true } else s.timer c := by
  rw [rebuild, construct_timer_of_ne _ _ h]
  by_cases hc : c = b
  · subst hc
    simp
  · rw [if_neg hc]
    simp [killTimer_timer_of_ne hc]

end Rebuild

/-- A retune that gets as far as a new timer. -/
theorem updateRequest_of_granted {s : Timers} {req : Request} {duration : Int} {b b' : Nat}
    (r : ReqPtr) (enqueued : Bool) (haccepted : ¬ Refused req duration) (htimer : req.mTimer = some b)
    (hblock : (s.free ++ [b]).head? = some b') :
    s.updateRequest r req duration true enqueued =
      some (((s.rebuild r b b').startTimer b' duration enqueued).1,
        { req with mTimer := some b', mDuration := duration },
        ((s.rebuild r b b').startTimer b' duration enqueued).2) := by
  have hget : ((s.killTimer b).freeBlock b).getBlock true =
      (some b', { (s.killTimer b).freeBlock b with free := (s.free ++ [b]).tail }) := by
    unfold getBlock
    rw [freeBlock_free, killTimer_free]
    cases hfree : s.free ++ [b] with
    | nil => simp [hfree] at hblock
    | cons c free =>
      rw [hfree] at hblock
      cases hblock
      rfl
  have hpass : ¬ (duration < -1 ∨ (duration > 0 ∧ duration < req.mDuration)) := haccepted
  rw [updateRequest, if_neg hpass, htimer]
  simp only [hget]
  rfl

/-- A retune whose new timer is not granted a block. -/
theorem updateRequest_of_denied {s : Timers} {req : Request} {duration : Int} {b : Nat}
    (r : ReqPtr) (enqueued : Bool) (haccepted : ¬ Refused req duration)
    (htimer : req.mTimer = some b) :
    s.updateRequest r req duration false enqueued =
      some (false, { req with mTimer := none, mDuration := duration },
        (s.killTimer b).freeBlock b) := by
  have hget : ((s.killTimer b).freeBlock b).getBlock false =
      (none, (s.killTimer b).freeBlock b) := by
    unfold getBlock
    split <;> rfl
  have hpass : ¬ (duration < -1 ∨ (duration > 0 ∧ duration < req.mDuration)) := haccepted
  rw [updateRequest, if_neg hpass, htimer]
  simp only [hget]

theorem updateRequest_of_refused (s : Timers) (r : ReqPtr) {req : Request} {duration : Int}
    (granted enqueued : Bool) (h : Refused req duration) :
    s.updateRequest r req duration granted enqueued = some (false, req, s) := if_pos h

/-- Once the old timer has been freed, no answer false leaves the request as it was. -/
theorem not_untouched {s s' : Timers} {req req' : Request} {b : Nat} (htimer : req.mTimer = some b)
    (h : req'.mTimer = none ∨ ∃ b', req'.mTimer = some b' ∧ (s'.timer b').object = s.next) :
    ¬ s.Untouched req s' req' := by
  rintro ⟨-, hsame, hblock⟩
  rcases h with hnone | ⟨b', hb', hobject⟩
  · rw [hnone, htimer] at hsame
    cases hsame
  · -- the timer at the address is a later object than the one that was there
    have hbb : b' = b := by
      rw [hb', htimer] at hsame
      exact Option.some_inj.mp hsame
    subst hbb
    have hlt := s.object_lt b'
    rw [← (hblock b' htimer).1] at hlt
    omega

/-- The new timer serves the request, and no task of the old one finds it running, if no task was
waiting on the block. -/
theorem replaced_of_idle {s : Timers} {r : ReqPtr} {req : Request} {duration : Int} {b b' : Nat}
    {enqueued : Bool} (htimer : req.mTimer = some b) (hidle : s.Idle b')
    (hstart : duration = -1 ∨ 0 < duration ∧ enqueued = true) :
    s.Replaced r req duration ((s.rebuild r b b').startTimer b' duration enqueued).2
      { req with mTimer := some b', mDuration := duration } := by
  obtain ⟨old, hbuilt⟩ := rebuild_timer_self s r b b'
  have hwaiting : (s.rebuild r b b').waiting b' = [] := waiting_eq_nil_iff.mpr hidle
  -- the old timer's block is another one if a task waits on it
  have hstopped : ∀ task ∈ s.tasks, req.mTimer = some task.timer →
      task.timer ≠ b' ∧ ((s.rebuild r b b').timer task.timer).mTimerStop = true := by
    intro task htask howned
    have hb : task.timer = b := by
      rw [htimer] at howned
      exact (Option.some_inj.mp howned).symm
    have hne : task.timer ≠ b' := hidle task htask
    refine ⟨hne, ?_⟩
    rw [rebuild_timer_of_ne hne, if_pos hb]
  rcases hstart with hinf | ⟨hpos, henq⟩
  · subst hinf
    rw [startTimer_infinite]
    refine ⟨rfl, ?_, fun task htask howned => (hstopped task htask howned).2⟩
    show _ ∧ _ ∧ _ ∧ _
    rw [hbuilt, if_pos rfl]
    exact ⟨rfl, rfl, rfl, hwaiting⟩
  · rw [startTimer_of_pos _ _ _ hpos, henq, if_pos rfl]
    refine ⟨rfl, ?_, ?_⟩
    · show _ ∧ _ ∧ _ ∧ _
      rw [if_neg (by omega)]
      simp only [enqueueTask_timer, setDuration_timer_self, hbuilt]
      refine ⟨trivial, trivial, trivial, trivial, ?_⟩
      rw [waiting, enqueueTask_tasks, List.filter_append, setDuration_tasks]
      have hnone : (s.rebuild r b b').tasks.filter (·.timer = b') = [] := hwaiting
      rw [hnone, setDuration_timer_self, hbuilt]
      simp
    · intro task htask howned
      obtain ⟨hne, hstop⟩ := hstopped task htask howned
      rw [enqueueTask_timer, setDuration_timer_of_ne _ hne]
      exact hstop

/-- Conversely, a task that waited on the block before is one too many for the new timer. -/
theorem idle_of_replaced {s s' : Timers} {r : ReqPtr} {req req' : Request} {duration : Int}
    {b' : Nat} (htimer : req'.mTimer = some b') (hobject : (s'.timer b').object = s.next)
    (htasks : s'.tasks = s.tasks ++ if duration = -1 then [] else [⟨b', s.next⟩])
    (h : s.Replaced r req duration s' req') : s.Idle b' := by
  obtain ⟨-, hrunning, -⟩ := h
  rw [Running, htimer] at hrunning
  obtain ⟨-, -, -, hwaiting⟩ := hrunning
  rw [← waiting_eq_nil_iff]
  by_cases hinf : duration = -1
  · rw [if_pos hinf] at hwaiting
    rw [if_pos hinf, List.append_nil] at htasks
    rw [waiting, ← htasks]
    exact hwaiting
  · rw [if_neg hinf] at hwaiting
    rw [if_neg hinf] at htasks
    have happend : s'.waiting b' = s.waiting b' ++ [⟨b', s.next⟩] := by
      rw [waiting, htasks, List.filter_append]
      simp [waiting]
    rw [happend, hobject] at hwaiting
    exact List.append_left_eq_self.mp hwaiting.2

/-- A retune does all or nothing exactly when it is refused at once or nothing is missing on the
way. -/
theorem updateRequest_atomic_iff (s : Timers) (r : ReqPtr) (req : Request) (duration : Int)
    (granted enqueued : Bool) :
    s.UpdateAtomic r req duration granted enqueued ↔
      Refused req duration ∨ s.Replaceable req duration granted enqueued := by
  by_cases hrefused : Refused req duration
  · rw [UpdateAtomic, updateRequest_of_refused s r granted enqueued hrefused]
    exact ⟨fun _ => .inl hrefused, fun _ => ⟨rfl, rfl, fun _ _ => ⟨rfl, rfl⟩⟩⟩
  have hor : Refused req duration ∨ s.Replaceable req duration granted enqueued ↔
      s.Replaceable req duration granted enqueued := or_iff_right hrefused
  rw [hor]
  cases htimer : req.mTimer with
  | none =>
    -- the null pointer
    have hcrash : s.updateRequest r req duration granted enqueued = none :=
      updateRequest_eq_none_iff.mpr ⟨hrefused, htimer⟩
    rw [UpdateAtomic, hcrash]
    constructor
    · exact False.elim
    · rintro ⟨b, -, hb, -⟩
      rw [htimer] at hb
      cases hb
  | some b =>
    cases granted with
    | false =>
      rw [UpdateAtomic, updateRequest_of_denied r enqueued hrefused htimer]
      constructor
      · exact fun h => absurd h (not_untouched htimer (.inl rfl))
      · rintro ⟨-, -, -, -, -, hgranted, -⟩
        cases hgranted
    | true =>
      obtain ⟨b', hblock⟩ : ∃ b', (s.free ++ [b]).head? = some b' :=
        Option.isSome_iff_exists.mp (by cases s.free <;> rfl)
      rw [UpdateAtomic, updateRequest_of_granted r enqueued hrefused htimer hblock]
      obtain ⟨old, hbuilt⟩ := rebuild_timer_self s r b b'
      have hanswer := startTimer_answer (s.rebuild r b b') b' duration enqueued
      have hobject :
          (((s.rebuild r b b').startTimer b' duration enqueued).2.timer b').object = s.next := by
        rw [startTimer_timer, hbuilt]
      by_cases hstart : duration = -1 ∨ 0 < duration ∧ enqueued = true
      · -- the timer starts
        have htasks : ((s.rebuild r b b').startTimer b' duration enqueued).2.tasks =
            s.tasks ++ if duration = -1 then [] else [⟨b', s.next⟩] := by
          rw [startTimer_tasks, rebuild_tasks, hbuilt]
          rcases hstart with hinf | ⟨hpos, henq⟩
          · simp [hinf]
          · rw [if_pos ⟨hpos, henq⟩, if_neg (by omega)]
        rw [hanswer.mpr hstart]
        constructor
        · intro h
          exact ⟨b, b', htimer, hblock, idle_of_replaced rfl hobject htasks h, rfl, hstart⟩
        · rintro ⟨c, c', hc, hc', hidle, -, -⟩
          have hcb : c = b := Option.some_inj.mp (hc.symm.trans htimer)
          subst hcb
          have hcb' : c' = b' := Option.some_inj.mp (hc'.symm.trans hblock)
          subst hcb'
          exact replaced_of_idle htimer hidle hstart
      · -- the timer does not start, and the old one is gone
        have hfalse : ((s.rebuild r b b').startTimer b' duration enqueued).1 = false := by
          simpa using fun h => hstart (hanswer.mp h)
        rw [hfalse]
        constructor
        · exact fun h => absurd h (not_untouched htimer (.inr ⟨b', rfl, hobject⟩))
        · rintro ⟨-, -, -, -, -, -, h⟩
          exact absurd h hstart

/-- An infinite request is linked without a timer, and a retune of it kills its timer through the
null pointer. -/
theorem infinite_request_not_retunable :
    let linked := (new [0, 1, 2]).insertRequest 1
      (Sample.request 1 2 [.ofValues (Sample.code 1) 0 0 [5]]) true true
    linked.1 = true ∧ ¬ linked.2.2.UpdateAtomic 1 linked.2.1 60000 true true :=
  ⟨rfl, id⟩

/-! ## What the calls can do -/

/-- An insertion leaves the request without a timer and the blocks alone, or builds a timer in the
first free block, and starts it if the request has a list. -/
theorem insertRequest_cases (s : Timers) (r : ReqPtr) (req : Request) (granted enqueued : Bool) :
    ((s.insertRequest r req granted enqueued).2.1.mTimer = none ∧
        (s.insertRequest r req granted enqueued).2.2 = s) ∨
      ∃ b, req.mDuration ≠ -1 ∧ granted = true ∧ s.free.head? = some b ∧
        (s.insertRequest r req granted enqueued).2.1.mTimer = some b ∧
        let built := { s with free := s.free.tail }.construct b (some r) false
        ((s.insertRequest r req granted enqueued).2.2 = built ∨
          (s.insertRequest r req granted enqueued).2.2 =
            (built.startTimer b req.mDuration enqueued).2) := by
  unfold insertRequest
  by_cases hinf : req.mDuration = -1
  · left
    simp [hinf]
  · rcases hblock : s.getBlock granted with ⟨block, s'⟩
    cases block with
    | none =>
      left
      simp [hinf, (getBlock_eq_none hblock).2]
    | some b =>
      obtain ⟨hgranted, hhead, rfl⟩ := getBlock_eq_some hblock
      right
      refine ⟨b, hinf, hgranted, hhead, ?_⟩
      cases hlist : req.mResourceList with
      | none => simp [hinf]
      | some nodes => simp [hinf]

/-- A retune that does not crash is refused, or frees the old timer and then builds and starts a new
one if it is granted a block. -/
theorem updateRequest_cases {s : Timers} {r : ReqPtr} {req : Request} {duration : Int}
    {granted enqueued : Bool} {done : Bool × Request × Timers}
    (h : s.updateRequest r req duration granted enqueued = some done) :
    (done.2.1.mTimer = req.mTimer ∧ done.2.2 = s) ∨
      ∃ b, req.mTimer = some b ∧ ¬ Refused req duration ∧
        ((done.2.1.mTimer = none ∧ done.2.2 = (s.killTimer b).freeBlock b) ∨
          ∃ b', granted = true ∧ (s.free ++ [b]).head? = some b' ∧ done.2.1.mTimer = some b' ∧
            done.2.2 = ((s.rebuild r b b').startTimer b' duration enqueued).2) := by
  by_cases hrefused : Refused req duration
  · left
    rw [updateRequest_of_refused s r granted enqueued hrefused] at h
    cases h
    exact ⟨rfl, rfl⟩
  · right
    cases htimer : req.mTimer with
    | none =>
      rw [updateRequest_eq_none_iff.mpr ⟨hrefused, htimer⟩] at h
      cases h
    | some b =>
      refine ⟨b, rfl, hrefused, ?_⟩
      cases granted with
      | false =>
        rw [updateRequest_of_denied r enqueued hrefused htimer] at h
        cases h
        exact .inl ⟨rfl, rfl⟩
      | true =>
        obtain ⟨b', hblock⟩ : ∃ b', (s.free ++ [b]).head? = some b' :=
          Option.isSome_iff_exists.mp (by cases s.free <;> rfl)
        rw [updateRequest_of_granted r enqueued hrefused htimer hblock] at h
        cases h
        exact .inr ⟨b', rfl, hblock, rfl, rfl⟩

end Timers

/-! ## Requests and tasks -/

/-- A call of `timerExpired`: the task that made it, the request it was made for, and the task that
was enqueued, or would have been, for the timer the request owned at the time. -/
structure Expiry where
  task : TimerTask
  request : ReqPtr
  owned : Option TimerTask
  deriving DecidableEq, Repr

/-- The requests, their timers, and the calls of `timerExpired` so far, the newest first. -/
structure TimerServer where
  heap : ReqPtr → Request
  timers : Timers
  expired : List Expiry

namespace TimerServer

/-- A server with the given timer blocks that has started no timer. -/
def init (heap : ReqPtr → Request) (blocks : List Nat) : TimerServer := ⟨heap, .new blocks, []⟩

inductive Event where
  | insert (r : ReqPtr) (req : Request) (granted enqueued : Bool)
  | remove (r : ReqPtr)
  | retune (r : ReqPtr) (duration : Int) (granted enqueued : Bool)
  | expire (task : TimerTask)
  deriving DecidableEq, Repr

/-- The task of the timer that a request owns. -/
def owned (s : TimerServer) (r : ReqPtr) : Option TimerTask :=
  (s.heap r).mTimer.map fun b => ⟨b, (s.timers.timer b).object⟩

/-- A call has changed the request at `r` and the timers. -/
def store (s : TimerServer) (r : ReqPtr) (req : Request) (timers : Timers) : TimerServer :=
  { s with heap := Function.update s.heap r req, timers := timers }

/-- One step.  A retune that crashes leads nowhere. -/
def next (s : TimerServer) : Event → TimerServer
  | .insert r req granted enqueued =>
    let inserted := s.timers.insertRequest r req granted enqueued
    s.store r inserted.2.1 inserted.2.2
  | .remove r =>
    let cleaned := s.timers.cleanUpRequest (s.heap r)
    s.store r cleaned.1 cleaned.2
  | .retune r duration granted enqueued =>
    match s.timers.updateRequest r (s.heap r) duration granted enqueued with
    | none => s
    | some updated => s.store r updated.2.1 updated.2.2
  | .expire task =>
    let done := s.timers.implementTimer task
    match done.1 with
    | none => { s with timers := done.2 }
    | some r => { s with timers := done.2, expired := ⟨task, r, s.owned r⟩ :: s.expired }

/-- A request is inserted into a block that holds no timer: it is new, or what was there before has
been cleaned up.  Only a waiting task expires. -/
def Enabled (s : TimerServer) : Event → Prop
  | .insert r _ _ _ => (s.heap r).mTimer = none
  | .remove _ => True
  | .retune r duration granted enqueued =>
    (s.timers.updateRequest r (s.heap r) duration granted enqueued).isSome
  | .expire task => task ∈ s.timers.tasks

instance (s : TimerServer) (e : Event) : Decidable (s.Enabled e) :=
  match e with
  | .insert _ _ _ _ => inferInstanceAs (Decidable (_ = _))
  | .remove _ => .isTrue trivial
  | .retune _ _ _ _ => inferInstanceAs (Decidable (_ = _))
  | .expire _ => inferInstanceAs (Decidable (_ ∈ _))

/-- The orders in which requests come and go and tasks expire. -/
def machine : Machine TimerServer Event := ⟨Enabled, next⟩

instance (s : TimerServer) (e : Event) : Decidable (machine.Enabled s e) :=
  inferInstanceAs (Decidable (s.Enabled e))

/-- The block a step builds a timer in. -/
def takes (s : TimerServer) : Event → Option Nat
  | .insert _ req granted _ =>
    if req.mDuration ≠ -1 ∧ granted then s.timers.free.head? else none
  | .retune r duration granted _ =>
    if ¬ Timers.Refused (s.heap r) duration ∧ granted then
      (s.heap r).mTimer.bind fun b => (s.timers.free ++ [b]).head?
    else none
  | .remove _ => none
  | .expire _ => none

/-- No step builds a timer in a block that a task still waits on. -/
def TakesIdle (s : TimerServer) (e : Event) : Prop := ∀ b, s.takes e = some b → s.timers.Idle b

instance (s : TimerServer) (e : Event) : Decidable (s.TakesIdle e) :=
  match h : s.takes e with
  | none => .isTrue fun b hb => by rw [h] at hb; cases hb
  | some b => decidable_of_iff (s.timers.Idle b)
      ⟨fun hidle c hc => by rw [h] at hc; cases hc; exact hidle, fun hall => hall b h⟩

/-- Every call of `timerExpired` was made by the task of the timer that the request owned, and no
timer made two. -/
def Sound (s : TimerServer) : Prop :=
  (∀ expiry ∈ s.expired, expiry.owned = some expiry.task) ∧
    (s.expired.map (·.task.object)).Nodup

instance (s : TimerServer) : Decidable s.Sound := inferInstanceAs (Decidable (_ ∧ _))

/-! ### The invariant -/

/-- A task that waits holds the address of the timer it was enqueued for; if that timer is not
stopped, its request still owns it.  No timer has two tasks, or one that waits beside one that has
expired. -/
structure Inv (owner : ReqPtr → Option Nat) (timers : Timers) (expired : List Expiry) : Prop where
  current : ∀ task ∈ timers.tasks, (timers.timer task.timer).object = task.object
  owner : ∀ task ∈ timers.tasks, (timers.timer task.timer).mTimerStop = false →
    ∃ r, (timers.timer task.timer).mCallback = some r ∧ owner r = some task.timer
  once : ∀ task ∈ timers.tasks, (timers.timer task.timer).mIsRecurring = false
  nodup : (timers.tasks.map (·.object)).Nodup
  waiting : ∀ task ∈ timers.tasks, ∀ expiry ∈ expired, expiry.task.object ≠ task.object
  expired_lt : ∀ expiry ∈ expired, expiry.task.object < timers.next

namespace Inv

variable {owner : ReqPtr → Option Nat} {timers : Timers} {expired : List Expiry} {r : ReqPtr}
  {b : Nat}

theorem task_lt (h : Inv owner timers expired) {task : TimerTask} (htask : task ∈ timers.tasks) :
    task.object < timers.next := by
  rw [← h.current task htask]
  exact timers.object_lt task.timer

/-- Killing the timer in a block, where only requests that own the block lose their timer. -/
theorem kill (h : Inv owner timers expired) (b : Nat) {owner' : ReqPtr → Option Nat}
    (hother : ∀ r, owner r ≠ some b → owner' r = owner r) :
    Inv owner' (timers.killTimer b) expired where
  current task htask := by
    rw [Timers.killTimer_object]
    exact h.current task htask
  owner task htask hrunning := by
    by_cases hb : task.timer = b
    · subst hb
      simp at hrunning
    · rw [Timers.killTimer_timer_of_ne hb] at hrunning ⊢
      obtain ⟨r, hcallback, howner⟩ := h.owner task htask hrunning
      have hne : owner r ≠ some b := by
        rw [howner]
        exact fun heq => hb (Option.some_inj.mp heq)
      exact ⟨r, hcallback, (hother r hne).trans howner⟩
  once task htask := by
    by_cases hb : task.timer = b
    · subst hb
      rw [Timers.killTimer_timer_self]
      exact h.once task htask
    · rw [Timers.killTimer_timer_of_ne hb]
      exact h.once task htask
  nodup := h.nodup
  waiting := h.waiting
  expired_lt := h.expired_lt

/-- The free list does not matter. -/
theorem withFree (h : Inv owner timers expired) (free : List Nat) :
    Inv owner { timers with free := free } expired :=
  ⟨h.current, h.owner, h.once, h.nodup, h.waiting, h.expired_lt⟩

/-- Building a timer for a request in a block that no task waits on. -/
theorem build (h : Inv owner timers expired) (hr : owner r = none) (hidle : timers.Idle b) :
    Inv (Function.update owner r (some b)) (timers.construct b (some r) false) expired where
  current task htask := by
    rw [Timers.construct_timer_of_ne _ _ (hidle task htask)]
    exact h.current task htask
  owner task htask hrunning := by
    rw [Timers.construct_timer_of_ne _ _ (hidle task htask)] at hrunning ⊢
    obtain ⟨r', hcallback, howner⟩ := h.owner task htask hrunning
    have hne : r' ≠ r := by
      rintro rfl
      rw [hr] at howner
      cases howner
    exact ⟨r', hcallback, by rw [Function.update_of_ne hne, howner]⟩
  once task htask := by
    rw [Timers.construct_timer_of_ne _ _ (hidle task htask)]
    exact h.once task htask
  nodup := h.nodup
  waiting := h.waiting
  expired_lt expiry hexpiry := Nat.lt_succ_of_lt (h.expired_lt expiry hexpiry)

/-- Starting the timer that was just built. -/
theorem start (h : Inv owner timers expired) (hr : owner r = none) (hidle : timers.Idle b)
    (duration : Int) (enqueued : Bool) :
    Inv (Function.update owner r (some b))
      ((timers.construct b (some r) false).startTimer b duration enqueued).2 expired := by
  have hbuilt := h.build hr hidle
  have htasks := Timers.startTimer_tasks (timers.construct b (some r) false) b duration enqueued
  have htimer := fun c =>
    Timers.startTimer_timer (timers.construct b (some r) false) b c duration enqueued
  have hnext := Timers.startTimer_next (timers.construct b (some r) false) b duration enqueued
  rw [Timers.construct_timer_self, Timers.construct_tasks] at htasks
  generalize (timers.construct b (some r) false).startTimer b duration enqueued = started
    at htasks htimer hnext ⊢
  -- a waiting task is an old one, or the one of the timer just built
  have hmem : ∀ task ∈ started.2.tasks, task ∈ timers.tasks ∨ task = ⟨b, timers.next⟩ := by
    intro task htask
    rw [htasks, List.mem_append] at htask
    refine htask.imp_right fun hadded => ?_
    split at hadded
    · exact List.mem_singleton.mp hadded
    · cases hadded
  constructor
  case current =>
    intro task htask
    rw [htimer]
    rcases hmem task htask with hold | rfl
    · exact hbuilt.current task hold
    · rw [Timers.construct_timer_self]
  case owner =>
    intro task htask hrunning
    rw [htimer] at hrunning ⊢
    rcases hmem task htask with hold | rfl
    · exact hbuilt.owner task hold hrunning
    · rw [Timers.construct_timer_self]
      exact ⟨r, rfl, Function.update_self _ _ _⟩
  case once =>
    intro task htask
    rw [htimer]
    rcases hmem task htask with hold | rfl
    · exact hbuilt.once task hold
    · rw [Timers.construct_timer_self]
  case nodup =>
    rw [htasks, List.map_append, List.nodup_append]
    refine ⟨h.nodup, ?_, ?_⟩
    · split <;> simp
    · intro object hobject object' hobject' heq
      obtain ⟨task, htask, rfl⟩ := List.mem_map.mp hobject
      have hlt := h.task_lt htask
      split at hobject'
      · simp at hobject'
        omega
      · simp at hobject'
  case waiting =>
    intro task htask expiry hexpiry
    rcases hmem task htask with hold | rfl
    · exact h.waiting task hold expiry hexpiry
    · exact Nat.ne_of_lt (h.expired_lt expiry hexpiry)
  case expired_lt =>
    intro expiry hexpiry
    rw [hnext]
    exact hbuilt.expired_lt expiry hexpiry

/-- The end of a wait: the task goes, and if it reported a request, the request owned the timer
whose task it was. -/
theorem implement (h : Inv owner timers expired) {task : TimerTask} (htask : task ∈ timers.tasks) :
    ((timers.implementTimer task).1 = none ∧
        Inv owner (timers.implementTimer task).2 expired) ∨
      ∃ r, (timers.implementTimer task).1 = some r ∧ owner r = some task.timer ∧
        ∀ owned, Inv owner (timers.implementTimer task).2 (⟨task, r, owned⟩ :: expired) := by
  have hother : ∀ other ∈ timers.tasks.erase task,
      other ∈ timers.tasks ∧ other.object ≠ task.object := by
    intro other herased
    have hnodup : timers.tasks.Nodup := List.Nodup.of_map _ h.nodup
    obtain ⟨hne, hmem⟩ := hnodup.mem_erase_iff.mp herased
    exact ⟨hmem, fun heq => hne (List.inj_on_of_nodup_map h.nodup hmem htask heq)⟩
  have herased : Inv owner { timers with tasks := timers.tasks.erase task } expired :=
    ⟨fun other ho => h.current other (hother other ho).1,
      fun other ho => h.owner other (hother other ho).1,
      fun other ho => h.once other (hother other ho).1,
      h.nodup.sublist (List.erase_sublist.map _),
      fun other ho => h.waiting other (hother other ho).1, h.expired_lt⟩
  cases hstop : (timers.timer task.timer).mTimerStop with
  | true =>
    left
    rw [Timers.implementTimer, if_pos hstop]
    exact ⟨rfl, herased⟩
  | false =>
    right
    obtain ⟨r, hcallback, howner⟩ := h.owner task htask hstop
    rw [Timers.implementTimer, if_neg (by simp [hstop]), if_neg (by simp [h.once task htask])]
    refine ⟨r, hcallback, howner, fun owned => { herased with waiting := ?_, expired_lt := ?_ }⟩
    · intro other ho expiry hexpiry
      rcases List.mem_cons.mp hexpiry with rfl | hbefore
      · exact (hother other ho).2.symm
      · exact herased.waiting other ho expiry hbefore
    · intro expiry hexpiry
      rcases List.mem_cons.mp hexpiry with rfl | hbefore
      · exact h.task_lt htask
      · exact h.expired_lt expiry hbefore

end Inv

/-- The block of the timer of every request. -/
def owner (s : TimerServer) : ReqPtr → Option Nat := fun r => (s.heap r).mTimer

theorem owner_store (s : TimerServer) (r : ReqPtr) (req : Request) (timers : Timers) :
    (s.store r req timers).owner = Function.update s.owner r req.mTimer := by
  funext r'
  by_cases hr : r' = r
  · subst hr
    simp [owner, store]
  · simp [owner, store, Function.update_of_ne hr]

/-- What holds along a run. -/
structure Good (s : TimerServer) : Prop where
  inv : Inv s.owner s.timers s.expired
  sound : s.Sound

theorem good_init (heap : ReqPtr → Request) (blocks : List Nat) : (init heap blocks).Good where
  inv := ⟨nofun, nofun, nofun, List.nodup_nil, nofun, nofun⟩
  sound := ⟨nofun, List.nodup_nil⟩

theorem Good.store {s : TimerServer} (h : s.Good) {r : ReqPtr} {req : Request} {timers : Timers}
    (hinv : Inv (Function.update s.owner r req.mTimer) timers s.expired) :
    (s.store r req timers).Good where
  inv := by
    rw [owner_store]
    exact hinv
  sound := h.sound

/-- Only the requests that own the block lose a timer when `r`, which owns it, loses its own. -/
theorem update_owner_of_ne {owner : ReqPtr → Option Nat} {r : ReqPtr} {b : Nat}
    (hr : owner r = some b) (r' : ReqPtr) (hne : owner r' ≠ some b) :
    Function.update owner r none r' = owner r' := by
  apply Function.update_of_ne
  rintro rfl
  exact hne hr

/-- One step keeps the invariant, if it builds its timer in an idle block. -/
theorem Good.next {s : TimerServer} {e : Event} (h : s.Good) (henabled : s.Enabled e)
    (hidle : s.TakesIdle e) : (s.next e).Good := by
  cases e with
  | insert r req granted enqueued =>
    have hr : s.owner r = none := henabled
    apply h.store
    rcases s.timers.insertRequest_cases r req granted enqueued with
      ⟨hnone, hsame⟩ | ⟨b, hinf, hgranted, hhead, hsome, hbuilt⟩
    · rw [hnone, hsame, ← hr, Function.update_eq_self]
      exact h.inv
    · have hb : s.timers.Idle b := hidle b (by simp [takes, hinf, hgranted, hhead])
      rw [hsome]
      rcases hbuilt with hbuilt | hstarted
      · rw [hbuilt]
        exact (h.inv.withFree _).build hr hb
      · rw [hstarted]
        exact (h.inv.withFree s.timers.free.tail).start hr hb _ _
  | remove r =>
    apply h.store
    cases htimer : (s.heap r).mTimer with
    | none =>
      rw [Timers.cleanUpRequest, htimer]
      have hsame : Function.update s.owner r (s.heap r).mTimer = s.owner :=
        Function.update_eq_self _ _
      rw [hsame]
      exact h.inv
    | some b =>
      rw [Timers.cleanUpRequest, htimer]
      exact (h.inv.kill b (update_owner_of_ne htimer)).withFree _
  | retune r duration granted enqueued =>
    cases hupdate : s.timers.updateRequest r (s.heap r) duration granted enqueued with
    | none => simp [Enabled, hupdate] at henabled
    | some updated =>
      have hnext : s.next (.retune r duration granted enqueued) =
          s.store r updated.2.1 updated.2.2 := by rw [TimerServer.next, hupdate]
      rw [hnext]
      apply h.store
      rcases Timers.updateRequest_cases hupdate with ⟨hsame, hall⟩ |
        ⟨b, htimer, haccepted, ⟨hnone, hfreed⟩ | ⟨b', hgranted, hhead, hsome, hstarted⟩⟩
      · have howner : Function.update s.owner r updated.2.1.mTimer = s.owner := by
          rw [hsame]
          exact Function.update_eq_self _ _
        rw [howner, hall]
        exact h.inv
      · -- the old timer is gone, and the request is left without one
        rw [hnone, hfreed]
        exact ((h.inv.kill b (update_owner_of_ne htimer)).kill b fun _ _ => rfl).withFree _
      · have hb : s.timers.Idle b' := by
          apply hidle b'
          rw [takes, if_pos ⟨haccepted, hgranted⟩, htimer]
          exact hhead
        have hkilled := ((h.inv.kill b (update_owner_of_ne htimer)).kill b fun _ _ => rfl).withFree
          (s.timers.free ++ [b]).tail
        have hstart := hkilled.start (r := r) (Function.update_self _ _ _) hb duration enqueued
        rw [Function.update_idem] at hstart
        rw [hsome, hstarted]
        exact hstart
  | expire task =>
    rcases h.inv.implement henabled with ⟨hnone, hinv⟩ | ⟨r, hsome, howner, hinv⟩
    · rw [TimerServer.next, hnone]
      exact ⟨hinv, h.sound⟩
    · rw [TimerServer.next, hsome]
      refine ⟨hinv _, ?_, ?_⟩
      · intro expiry hexpiry
        rcases List.mem_cons.mp hexpiry with rfl | hbefore
        · -- the timer the request owns is the one the task was enqueued for
          have hcurrent := h.inv.current task henabled
          show (s.heap r).mTimer.map _ = some task
          rw [show (s.heap r).mTimer = some task.timer from howner, Option.map_some, hcurrent]
        · exact h.sound.1 expiry hbefore
      · refine List.nodup_cons.mpr ⟨?_, h.sound.2⟩
        intro hmem
        obtain ⟨expiry, hexpiry, heq⟩ := List.mem_map.mp hmem
        exact h.inv.waiting task henabled expiry hexpiry heq

/-- As long as no timer is built in a block that a task still waits on, every call of
`timerExpired` is made by the task of the timer that the request owns, and no timer makes two. -/
theorem expiries_sound {heap : ReqPtr → Request} {blocks : List Nat} {events : List Event}
    (run : machine.Run (init heap blocks) events)
    (idle : machine.Steps TakesIdle (init heap blocks) events) :
    (machine.exec (init heap blocks) events).Sound :=
  ((run.and idle).invariant (good_init heap blocks)
    fun _ _ hgood hstep => hgood.next hstep.1 hstep.2).sound

namespace Sample

def server : TimerServer := init (Sample.request · 2 []) [0]

/-- A request of half a second, at an address. -/
def insert (r : ReqPtr) : Event :=
  .insert r { Sample.request r 2 [] with mDuration := 500 } true true

end Sample

/-- Two requests, one after the other in the only block, and each expires by its own task. -/
theorem expiries_sound_sample :
    (machine.exec Sample.server [Sample.insert 1, .expire ⟨0, 1⟩, .remove 1, Sample.insert 2,
      .expire ⟨0, 2⟩]).Sound :=
  expiries_sound (by decide) (by decide)

/-- The first request is removed before its task expires, and the second gets its block: the task
of the first expires the second. -/
theorem stale_task_expires_other :
    let events := [Sample.insert 1, .remove 1, Sample.insert 2, .expire ⟨0, 1⟩]
    machine.Run Sample.server events ∧ ¬ (machine.exec Sample.server events).Sound :=
  ⟨by decide, by decide⟩

end TimerServer

end ResourceTuner
