import ResourceTuner.Lib.DropOldest
import ResourceTuner.Lib.Machine
import ResourceTuner.Server.ProcessFilter

/-!
# From process events to the classifier

`NetLinkComm::recvEvent`, and the two threads of `ContextualClassifier.cpp` with `Terminate`.  The listener
puts the events it does not pass over into a queue of thirty, from which the oldest is dropped; the
classifier takes them out one by one.

* **`recvEvent`**, **`handleProcEv`** — one event of the kernel;
* **`actions`** — what the classifier does for an event;
* **`PendingEvents`**, **`machine`** — the threads, with one turn between two uses of the lock;
* **`events_of_run`** — what becomes of the events;
* **`stops_of_run`** — the classifier after `Terminate`.

What the kernel, the `/proc` files, the inference and the callback of an extension say is part of a turn.
-/

namespace ResourceTuner

/-- `struct ProcEvent`. -/
structure ProcEvent where
  pid : Int
  tgid : Int
  type : EventType
  deriving DecidableEq, Repr

/-- `what` of a message, as far as it is told apart. -/
inductive ProcEventKind where
  | PROC_EVENT_EXEC
  | PROC_EVENT_EXIT
  | other
  deriving DecidableEq, Repr

/-- What `recv` returns, with the number of bytes of a message. -/
inductive Received where
  | shutdown
  | failed (interrupted : Bool)
  | message (size : Nat) (what : ProcEventKind) (pid tgid : Int)
  deriving DecidableEq, Repr

/-- A message is longer than the numbers of the types. -/
def Received.WellSized : Received → Prop
  | .message size _ _ _ => 2 < size
  | _ => True

instance (received : Received) : Decidable received.WellSized :=
  match received with
  | .message .. => inferInstanceAs (Decidable (_ < _))
  | .shutdown | .failed _ => .isTrue trivial

/-- What `/proc` says of a process, each time it is asked: whether `comm` is there, who the parent is,
whether `comm` is still there, and what it says. -/
structure ProcAnswer where
  commExists : Bool
  parent : Int
  stillUp : Bool
  commFile : Option String
  deriving DecidableEq, Repr

/-- What the classifier is told about an event. -/
structure ClassifyAnswer where
  procExists : Bool
  commFile : Option String
  commExists : Bool
  context : Int
  /-- what the callback makes of the signal, if there is one -/
  postProcessed : Option (BitVec 32 × BitVec 32)
  deriving DecidableEq, Repr

/-- The calls that the classifier makes. -/
inductive Action where
  | moveAppThreadsToCGroup (incomingPID incomingTID : Int) (comm : String) (cgroupIdentifier : Int)
  | applyActions (sigId sigType : BitVec 32) (incomingPID incomingTID : Int)
  deriving DecidableEq, Repr

namespace PendingEvents

open DropOldest (Queue queued taken push clear leave Bounded)

def PROCP_THRESH : Int := 50
def pendingQueueControlSize : Nat := 30
def FOCUSED_CGROUP_IDENTIFIER : Int := 4
def DEFAULT_SIGNAL_TYPE : BitVec 32 := 0

/-! ## Events -/

/-- `recvEvent`, with its return code. -/
def recvEvent (answer : ProcAnswer) : Received → Int × ProcEvent
  | .shutdown => (0, ⟨0, 0, .CC_IGNORE⟩)
  | .failed _ => (-1, ⟨0, 0, .CC_IGNORE⟩)
  | .message size what pid tgid =>
    match what with
    | .PROC_EVENT_EXEC =>
      if answer.commExists = false ∨ answer.parent ≤ PROCP_THRESH then (0, ⟨pid, tgid, .CC_IGNORE⟩)
      else (1, ⟨pid, tgid, .CC_APP_OPEN⟩)
    | .PROC_EVENT_EXIT =>
      if answer.commExists = false ∨ answer.parent ≤ PROCP_THRESH then (0, ⟨pid, tgid, .CC_IGNORE⟩)
      else (2, ⟨pid, tgid, .CC_APP_CLOSE⟩)
    | .other => (size, ⟨-1, -1, .CC_IGNORE⟩)

/-- How an iteration of the listener ends. -/
inductive Iteration where
  | ignored
  | pending (ev : ProcEvent)
  | returned
  deriving DecidableEq, Repr

/-- The loop of `HandleProcEv` behind the test of `mNeedExit`. -/
def handleProcEv (filter : ProcessFilter) (received : Received) (answer : ProcAnswer) : Iteration :=
  let rc := (recvEvent answer received).1
  let ev := (recvEvent answer received).2
  if rc = 0 then .ignored
  else if rc = -1 then if received = .failed true then .ignored else .returned
  else if answer.stillUp = false then .ignored
  else if rc = 1 ∨ rc = 2 then
    -- the cases of an opened and of a closed process are the same
    if filter.shouldProcBeIgnored ev.type (getProcName answer.commFile) then .ignored else .pending ev
  else .ignored

def GetSignalIDForWorkload (contextType : Int) : BitVec 32 :=
  if contextType = 4 then 0x00020004
  else if contextType = 3 then 0x00020003
  else if contextType = 2 then 0x00020002
  else 0x00020001

/-- The loop of `ClassifierMain` behind the wait. -/
def actions (ev : ProcEvent) (answer : ClassifyAnswer) : List Action :=
  if ev.type = .CC_APP_OPEN ∧ ev.pid ≠ -1 then
    match fetchComm answer.procExists answer.commFile with
    | none => []
    | some comm =>
      let contextType := if answer.commExists then answer.context else 0
      if contextType = 0 then []
      else
        let sig := answer.postProcessed.getD (GetSignalIDForWorkload contextType, DEFAULT_SIGNAL_TYPE)
        [.moveAppThreadsToCGroup ev.pid ev.tgid comm FOCUSED_CGROUP_IDENTIFIER,
          .applyActions sig.1 sig.2 ev.pid ev.tgid]
  else []

end PendingEvents

/-! ## The threads -/

/-- Where the listener is: in front of the test of `mNeedExit`, behind it, or out of its loop. -/
inductive NetlinkThread where
  | looping
  | receiving
  | returned
  deriving DecidableEq, Repr

/-- Where the classifier is: in front of the lock, in the wait, with an event, or out of its loop. -/
inductive ClassifierMain where
  | looping
  | asleep (notified : Bool)
  | handling (ev : ProcEvent)
  | returned
  deriving DecidableEq, Repr

/-- Where `Terminate` is: it has set `mNeedExit`, or it waits for the threads. -/
inductive Terminator where
  | idle
  | flagged
  | joining
  deriving DecidableEq, Repr

/-- The queue and the threads.  `pushed` records the events that were put into the queue, each with the
name of its process, and `handled` those the classifier is done with. -/
structure PendingEvents where
  mPendingEv : DropOldest.Queue ProcEvent
  mNeedExit : Bool
  listener : NetlinkThread
  classifier : ClassifierMain
  terminator : Terminator
  pushed : List (ProcEvent × String)
  handled : List (ProcEvent × ClassifyAnswer)
  deriving DecidableEq, Repr

namespace PendingEvents

open DropOldest (Queue queued taken push clear leave Bounded)

def init : PendingEvents where
  mPendingEv := DropOldest.empty
  mNeedExit := false
  listener := .looping
  classifier := .looping
  terminator := .idle
  pushed := []
  handled := []

/-- `notify_one` and `notify_all`: only the classifier waits. -/
def notify : ClassifierMain → ClassifierMain
  | .asleep _ => .asleep true
  | classifier => classifier

/-- The turns of the threads. -/
inductive Turn where
  /-- the listener tests `mNeedExit` -/
  | test
  /-- it receives something and does with it what it does -/
  | receive (received : Received) (answer : ProcAnswer)
  /-- the classifier takes the lock -/
  | lock
  /-- it wakes up, notified or not -/
  | wake
  /-- it is done with an event -/
  | finish (answer : ClassifyAnswer)
  /-- `Terminate` with the lock -/
  | terminate
  | notifyAll
  /-- it has joined both threads -/
  | join
  deriving DecidableEq, Repr

def Turn.isClassifier : Turn → Bool
  | .lock | .wake | .finish _ => true
  | _ => false

/-- The wait of the classifier with the lock, and what follows up to its end. -/
def tryTake (s : PendingEvents) : PendingEvents :=
  if s.mPendingEv.waiting = [] ∧ s.mNeedExit = false then { s with classifier := .asleep false }
  else if s.mNeedExit then { s with classifier := .returned }
  else
    match s.mPendingEv.waiting with
    | [] => s
    | ev :: _ => { s with classifier := .handling ev, mPendingEv := leave s.mPendingEv .taken }

/-- The listener puts an event into the queue. -/
def pushEvent (s : PendingEvents) (ev : ProcEvent) (procName : String) : PendingEvents :=
  { s with
    mPendingEv := push pendingQueueControlSize s.mPendingEv ev
    classifier := notify s.classifier
    listener := .looping
    pushed := s.pushed ++ [(ev, procName)] }

def next (filter : ProcessFilter) (s : PendingEvents) : Turn → PendingEvents
  | .test => { s with listener := if s.mNeedExit then .returned else .receiving }
  | .receive received answer =>
    match handleProcEv filter received answer with
    | .ignored => { s with listener := .looping }
    | .pending ev => s.pushEvent ev ((getProcName answer.commFile).getD "")
    | .returned => { s with listener := .returned }
  | .lock | .wake => s.tryTake
  | .finish answer =>
    match s.classifier with
    | .handling ev => { s with classifier := .looping, handled := s.handled ++ [(ev, answer)] }
    | _ => s
  | .terminate => { s with mNeedExit := true, mPendingEv := clear s.mPendingEv, terminator := .flagged }
  | .notifyAll => { s with classifier := notify s.classifier, terminator := .joining }
  | .join => { s with terminator := .idle }

def isAsleep : ClassifierMain → Bool
  | .asleep _ => true
  | _ => false

def isHandling : ClassifierMain → Bool
  | .handling _ => true
  | _ => false

/-- When a turn can happen. -/
def Enabled (s : PendingEvents) : Turn → Prop
  | .test => s.listener = .looping
  | .receive received _ => s.listener = .receiving ∧ received.WellSized
  | .lock => s.classifier = .looping
  | .wake => isAsleep s.classifier = true
  | .finish _ => isHandling s.classifier = true
  | .terminate => s.terminator = .idle
  | .notifyAll => s.terminator = .flagged
  | .join => s.terminator = .joining ∧ s.listener = .returned ∧ s.classifier = .returned

instance (s : PendingEvents) (turn : Turn) : Decidable (s.Enabled turn) :=
  match turn with
  | .test | .lock | .wake | .finish _ | .terminate | .notifyAll => inferInstanceAs (Decidable (_ = _))
  | .receive .. => inferInstanceAs (Decidable (_ ∧ _))
  | .join => inferInstanceAs (Decidable (_ ∧ _ ∧ _))

def machine (filter : ProcessFilter) : Machine PendingEvents Turn where
  Enabled := Enabled
  next := next filter

instance (filter : ProcessFilter) (s : PendingEvents) (turn : Turn) :
    Decidable ((machine filter).Enabled s turn) :=
  inferInstanceAs (Decidable (s.Enabled turn))

/-! ## What becomes of the events -/

/-- The event that the classifier works on. -/
def inHand : ClassifierMain → List ProcEvent
  | .handling ev => [ev]
  | _ => []

/-- An event that is put into the queue: a process was opened, and the filter lets it through. -/
def Admitted (filter : ProcessFilter) (entry : ProcEvent × String) : Prop :=
  entry.1.type = .CC_APP_OPEN ∧ filter.shouldProcBeIgnored .CC_APP_OPEN (some entry.2) = false

/-- The calls that the classifier has made. -/
def calls (s : PendingEvents) : List Action := s.handled.flatMap fun entry => actions entry.1 entry.2

/-- The process that a call moves. -/
def moved : Action → Option Int
  | .moveAppThreadsToCGroup incomingPID _ _ _ => some incomingPID
  | .applyActions .. => none

/-- What holds between two turns. -/
structure Inv (filter : ProcessFilter) (s : PendingEvents) : Prop where
  queued : queued s.mPendingEv = s.pushed.map Prod.fst
  bounded : Bounded pendingQueueControlSize s.mPendingEv
  cleared : (∃ ev, (ev, .cleared) ∈ s.mPendingEv.gone) → s.mNeedExit = true
  admitted : ∀ entry ∈ s.pushed, Admitted filter entry
  taken : taken s.mPendingEv = s.handled.map Prod.fst ++ inHand s.classifier
  asleep : s.classifier = .asleep false →
    s.mPendingEv.waiting = [] ∧ (s.mNeedExit = true → s.terminator = .flagged)

section Steps

variable {filter : ProcessFilter} {s : PendingEvents} {turn : Turn}

theorem inv_init (filter : ProcessFilter) : Inv filter init where
  queued := rfl
  bounded := DropOldest.bounded_empty
  cleared := by simp [init, DropOldest.empty]
  admitted := by simp [init]
  taken := rfl
  asleep := by simp [init]

/-- The length of a message is no type: what has the code of an event is one. -/
theorem type_of_recvEvent {received : Received} {answer : ProcAnswer} (hsize : received.WellSized)
    (hrc : (recvEvent answer received).1 = 1 ∨ (recvEvent answer received).1 = 2) :
    (recvEvent answer received).2.type = .CC_APP_OPEN ∨
      (recvEvent answer received).2.type = .CC_APP_CLOSE := by
  cases received with
  | shutdown => simp [recvEvent] at hrc
  | failed interrupted => simp [recvEvent] at hrc
  | message size what pid tgid =>
    have hlong : 2 < size := hsize
    cases what with
    | PROC_EVENT_EXEC =>
      simp only [recvEvent] at hrc ⊢
      split at hrc
      · simp at hrc
      · rename_i hactive
        exact .inl (by rw [if_neg hactive])
    | PROC_EVENT_EXIT =>
      simp only [recvEvent] at hrc ⊢
      split at hrc
      · simp at hrc
      · rename_i hactive
        exact .inr (by rw [if_neg hactive])
    | other =>
      simp only [recvEvent] at hrc
      omega

/-- Who is not passed over has not closed and has a name. -/
theorem exists_name_of_not_ignored {evType : EventType} {procName : Option String}
    (h : filter.shouldProcBeIgnored evType procName = false) :
    evType ≠ .CC_APP_CLOSE ∧ ∃ name, procName = some name := by
  unfold ProcessFilter.shouldProcBeIgnored at h
  split at h
  · cases h
  · rename_i hclose
    cases procName with
    | none => cases h
    | some name => exact ⟨hclose, name, rfl⟩

/-- Only the opening of a process that the filter lets through is put into the queue. -/
theorem admitted_of_pending {received : Received} {answer : ProcAnswer} {ev : ProcEvent}
    (hsize : received.WellSized) (h : handleProcEv filter received answer = .pending ev) :
    Admitted filter (ev, (getProcName answer.commFile).getD "") := by
  obtain ⟨hrc, hlet, rfl⟩ : ((recvEvent answer received).1 = 1 ∨ (recvEvent answer received).1 = 2) ∧
      filter.shouldProcBeIgnored (recvEvent answer received).2.type (getProcName answer.commFile) = false ∧
      (recvEvent answer received).2 = ev := by
    simp only [handleProcEv] at h
    split at h
    · cases h
    · split at h
      · split at h <;> cases h
      · split at h
        · cases h
        · split at h
          · rename_i hrc
            split at h
            · cases h
            · rename_i hlet
              exact ⟨hrc, Bool.not_eq_true _ ▸ hlet, Iteration.pending.inj h⟩
          · cases h
  obtain ⟨hclose, name, hname⟩ := exists_name_of_not_ignored hlet
  have hopen := (type_of_recvEvent hsize hrc).resolve_right hclose
  rw [hname, hopen] at hlet
  rw [hname]
  exact ⟨hopen, hlet⟩

theorem inHand_notify (classifier : ClassifierMain) : inHand (notify classifier) = inHand classifier := by
  cases classifier <;> rfl

theorem notify_ne_asleep (classifier : ClassifierMain) : notify classifier ≠ .asleep false := by
  cases classifier <;> simp [notify]

theorem mem_gone_leave {q : Queue ProcEvent} {fate : DropOldest.Fate} {ev : ProcEvent}
    (hfate : fate ≠ .cleared) (h : (ev, .cleared) ∈ (leave q fate).gone) : (ev, .cleared) ∈ q.gone := by
  unfold leave at h
  cases hwaiting : q.waiting with
  | nil => rwa [hwaiting] at h
  | cons oldest rest =>
    rw [hwaiting, List.mem_append] at h
    refine h.resolve_right fun hnew => hfate ?_
    exact (congrArg Prod.snd (List.mem_singleton.mp hnew)).symm

theorem inv_pushEvent (hinv : Inv filter s) {ev : ProcEvent} {procName : String}
    (hadmitted : Admitted filter (ev, procName)) : Inv filter (s.pushEvent ev procName) where
  queued := by
    show queued (push _ _ _) = (s.pushed ++ [(ev, procName)]).map Prod.fst
    rw [DropOldest.queued_push, hinv.queued, List.map_append]
    rfl
  bounded := hinv.bounded.push ev
  cleared := by
    rintro ⟨cleared, hcleared⟩
    refine hinv.cleared ⟨cleared, ?_⟩
    have hgone : (cleared, DropOldest.Fate.cleared) ∈
        (push pendingQueueControlSize s.mPendingEv ev).gone := hcleared
    rw [push] at hgone
    split at hgone
    · exact @mem_gone_leave { s.mPendingEv with waiting := s.mPendingEv.waiting ++ [ev] } .displaced cleared
        (by decide) hgone
    · exact hgone
  admitted := by
    intro entry hentry
    rcases List.mem_append.mp hentry with hold | hnew
    · exact hinv.admitted entry hold
    · rw [List.mem_singleton.mp hnew]
      exact hadmitted
  taken := by
    show taken (push _ _ _) = _ ++ inHand (notify s.classifier)
    rw [DropOldest.taken_push, inHand_notify, hinv.taken]
    rfl
  asleep := fun hasleep => absurd hasleep (notify_ne_asleep _)

theorem inv_tryTake (hinv : Inv filter s) (hfree : inHand s.classifier = []) : Inv filter s.tryTake := by
  have htaken : taken s.mPendingEv = s.handled.map Prod.fst := by rw [hinv.taken, hfree, List.append_nil]
  rw [tryTake]
  split
  · rename_i hempty
    exact
      { hinv with
        taken := htaken.trans (List.append_nil _).symm
        asleep := fun _ => ⟨hempty.1, fun hexit => by rw [hempty.2] at hexit; cases hexit⟩ }
  · split
    · exact
        { hinv with
          taken := htaken.trans (List.append_nil _).symm
          asleep := by rintro ⟨⟩ }
    · split
      · exact hinv
      · rename_i ev rest hwaiting
        exact
          { queued := by
              show queued (leave _ _) = _
              rw [DropOldest.queued_leave]
              exact hinv.queued
            bounded := hinv.bounded.taken
            cleared := by
              rintro ⟨cleared, hcleared⟩
              exact hinv.cleared ⟨cleared, mem_gone_leave (by decide) hcleared⟩
            admitted := hinv.admitted
            taken := by
              show taken (leave _ _) = s.handled.map Prod.fst ++ [ev]
              rw [DropOldest.taken_leave_taken hwaiting, htaken]
            asleep := by rintro ⟨⟩ }

theorem inv_next (hinv : Inv filter s) (henabled : s.Enabled turn) : Inv filter (s.next filter turn) := by
  cases turn with
  | test => exact { hinv with }
  | receive received answer =>
    simp only [next]
    split
    · exact { hinv with }
    · rename_i ev hpending
      exact inv_pushEvent hinv (admitted_of_pending henabled.2 hpending)
    · exact { hinv with }
  | lock =>
    refine inv_tryTake hinv ?_
    rw [show s.classifier = .looping from henabled]
    rfl
  | wake =>
    refine inv_tryTake hinv ?_
    have hasleep : isAsleep s.classifier = true := henabled
    cases hclassifier : s.classifier with
    | asleep notified => rfl
    | looping => rfl
    | handling ev => rw [hclassifier] at hasleep; cases hasleep
    | returned => rfl
  | finish answer =>
    simp only [next]
    split
    · rename_i ev hclassifier
      refine { hinv with taken := ?_, asleep := by rintro ⟨⟩ }
      show taken s.mPendingEv = (s.handled ++ [(ev, answer)]).map Prod.fst ++ []
      rw [hinv.taken, hclassifier, List.append_nil, List.map_append]
      rfl
    · exact hinv
  | terminate =>
    exact
      { queued := by
          show queued (clear _) = _
          rw [DropOldest.queued_clear]
          exact hinv.queued
        bounded := hinv.bounded.clear
        cleared := fun _ => rfl
        admitted := hinv.admitted
        taken := by
          show taken (clear _) = _
          rw [DropOldest.taken_clear]
          exact hinv.taken
        asleep := fun _ => ⟨rfl, fun _ => rfl⟩ }
  | notifyAll =>
    refine { hinv with taken := ?_, asleep := fun hasleep => absurd hasleep (notify_ne_asleep _) }
    show taken s.mPendingEv = s.handled.map Prod.fst ++ inHand (notify s.classifier)
    rw [inHand_notify, hinv.taken]
  | join =>
    have hreturned : s.classifier = .returned := henabled.2.2
    refine { hinv with asleep := fun hasleep => ?_ }
    rw [show s.classifier = .asleep false from hasleep] at hreturned
    cases hreturned

/-- An event moves its process or none. -/
theorem moved_actions (ev : ProcEvent) (answer : ClassifyAnswer) :
    ((actions ev answer).filterMap moved).Sublist [ev.pid] := by
  unfold actions
  split
  · cases fetchComm answer.procExists answer.commFile with
    | none => exact List.nil_sublist _
    | some comm =>
      dsimp only
      generalize (if answer.commExists then answer.context else 0) = contextType
      split
      · exact List.nil_sublist _
      · exact List.Sublist.refl _
  · exact List.nil_sublist _

theorem moved_calls (s : PendingEvents) :
    ((calls s).filterMap moved).Sublist ((s.handled.map Prod.fst).map ProcEvent.pid) := by
  rw [calls]
  induction s.handled with
  | nil => exact List.nil_sublist _
  | cons entry handled ih =>
    rw [List.flatMap_cons, List.filterMap_append, List.map_cons, List.map_cons]
    exact (moved_actions entry.1 entry.2).append ih

theorem inv_of_run {turns : List Turn} (hinv : Inv filter s) (hrun : (machine filter).Run s turns) :
    Inv filter ((machine filter).exec s turns) :=
  Machine.Steps.invariant hrun hinv fun _ _ => inv_next

end Steps

/-- **What becomes of the events.**  However the threads take turns, what was put into the queue are
openings of processes that the filter lets through.  They leave it in the order in which they came, and
one that was dropped was so because thirty more had come by then, or because of `Terminate`.  The
classifier works through those it takes, in order: no process is moved twice for one opening, and none out
of order.  It sleeps on an empty queue only, unless `Terminate` is about to wake it. -/
theorem events_of_run {filter : ProcessFilter} {turns : List Turn}
    (hrun : (machine filter).Run init turns) :
    let s := (machine filter).exec init turns
    (∀ entry ∈ s.pushed, Admitted filter entry) ∧
      s.mPendingEv.gone.map Prod.fst ++ s.mPendingEv.waiting = s.pushed.map Prod.fst ∧
      s.mPendingEv.waiting.length ≤ 30 ∧
      (∀ i ev, s.mPendingEv.gone[i]? = some (ev, .displaced) → i + 30 < s.pushed.length) ∧
      ((∃ ev, (ev, .cleared) ∈ s.mPendingEv.gone) → s.mNeedExit = true) ∧
      taken s.mPendingEv = s.handled.map Prod.fst ++ inHand s.classifier ∧
      ((calls s).filterMap moved).Sublist (s.pushed.map fun entry => entry.1.pid) ∧
      (s.classifier = .asleep false → s.mPendingEv.waiting = [] ∧
        (s.mNeedExit = true → s.terminator = .flagged)) := by
  intro s
  have hinv : Inv filter s := inv_of_run (inv_init filter) hrun
  have hlength : (queued s.mPendingEv).length = s.pushed.length := by
    rw [hinv.queued, List.length_map]
  have hhandled : (s.handled.map Prod.fst).Sublist (s.pushed.map Prod.fst) := by
    rw [← hinv.queued]
    refine List.Sublist.trans ?_ DropOldest.taken_sublist
    rw [hinv.taken]
    exact List.sublist_append_left _ _
  have hmoved : ((calls s).filterMap moved).Sublist (s.pushed.map fun entry => entry.1.pid) := by
    have hpids := (moved_calls s).trans (hhandled.map ProcEvent.pid)
    rwa [List.map_map] at hpids
  refine ⟨hinv.admitted, hinv.queued, hinv.bounded.length_le, fun i ev hgone => ?_, hinv.cleared,
    hinv.taken, hmoved, hinv.asleep⟩
  rw [← hlength]
  exact hinv.bounded.displaced i ev hgone

namespace Sample

def filter : ProcessFilter := ⟨ProcessFilter.ofNames ["app"], .empty⟩

/-- A process is opened, and the listener gets to know of it. -/
def opening (pid : Int) : List Turn :=
  [.test, .receive (.message 76 .PROC_EVENT_EXEC pid pid) ⟨true, 100, true, some "app"⟩]

/-- One more than the queue holds. -/
def openings : List Turn := (List.range 31).flatMap fun n => opening (n + 100)

theorem run_openings : (machine filter).Run init openings := by decide +kernel

end Sample

/-- The first of them is dropped. -/
theorem events_of_openings :
    let s := (machine Sample.filter).exec init Sample.openings
    s.mPendingEv.waiting.length ≤ 30 ∧ 0 + 30 < s.pushed.length := by
  intro s
  obtain ⟨-, -, hlength, hdisplaced, -⟩ := events_of_run Sample.run_openings
  exact ⟨hlength, hdisplaced 0 ⟨100, 100, .CC_APP_OPEN⟩ (by decide +kernel)⟩

/-! ## Stopping -/

/-- The turns that the classifier still takes. -/
def remaining : ClassifierMain → Nat
  | .handling _ => 2
  | .looping | .asleep _ => 1
  | .returned => 0

/-- The flag is set, and the classifier does not miss it. -/
def Stopping (s : PendingEvents) : Prop := s.mNeedExit = true ∧ s.classifier ≠ .asleep false

section Stops

variable {filter : ProcessFilter} {s : PendingEvents} {turn : Turn}

theorem remaining_notify (classifier : ClassifierMain) :
    remaining (notify classifier) = remaining classifier := by cases classifier <;> rfl

/-- A turn of a classifier that is stopping. -/
theorem Stopping.stops (h : Stopping s) (henabled : s.Enabled turn) :
    Stopping (s.next filter turn) ∧
      remaining (s.next filter turn).classifier + (if turn.isClassifier then 1 else 0) ≤
        remaining s.classifier ∧
      taken (s.next filter turn).mPendingEv = taken s.mPendingEv := by
  obtain ⟨hexit, hawake⟩ := h
  have htry : s.tryTake = { s with classifier := .returned } := by
    simp [tryTake, hexit]
  cases turn with
  | test => exact ⟨⟨hexit, hawake⟩, le_refl _, rfl⟩
  | receive received answer =>
    simp only [next]
    split
    · exact ⟨⟨hexit, hawake⟩, le_refl _, rfl⟩
    · exact ⟨⟨hexit, notify_ne_asleep _⟩, Nat.le_of_eq (remaining_notify _), DropOldest.taken_push⟩
    · exact ⟨⟨hexit, hawake⟩, le_refl _, rfl⟩
  | lock =>
    have hlooping : s.classifier = .looping := henabled
    rw [show s.next filter .lock = _ from htry, hlooping]
    exact ⟨⟨hexit, by simp⟩, le_refl _, rfl⟩
  | wake =>
    have hasleep : isAsleep s.classifier = true := henabled
    rw [show s.next filter .wake = _ from htry]
    cases hclassifier : s.classifier with
    | asleep notified => exact ⟨⟨hexit, by simp⟩, le_refl _, rfl⟩
    | looping => rw [hclassifier] at hasleep; cases hasleep
    | handling ev => rw [hclassifier] at hasleep; cases hasleep
    | returned => rw [hclassifier] at hasleep; cases hasleep
  | finish answer =>
    have hhandling : isHandling s.classifier = true := henabled
    cases hclassifier : s.classifier with
    | handling ev =>
      have hnext : s.next filter (.finish answer) =
          { s with classifier := .looping, handled := s.handled ++ [(ev, answer)] } := by
        simp only [next, hclassifier]
      rw [hnext]
      exact ⟨⟨hexit, by simp⟩, le_refl _, rfl⟩
    | looping => rw [hclassifier] at hhandling; cases hhandling
    | asleep notified => rw [hclassifier] at hhandling; cases hhandling
    | returned => rw [hclassifier] at hhandling; cases hhandling
  | terminate => exact ⟨⟨rfl, hawake⟩, le_refl _, DropOldest.taken_clear⟩
  | notifyAll => exact ⟨⟨hexit, notify_ne_asleep _⟩, Nat.le_of_eq (remaining_notify _), rfl⟩
  | join => exact ⟨⟨hexit, hawake⟩, le_refl _, rfl⟩

theorem Stopping.of_run {turns : List Turn} (h : Stopping s) (hrun : (machine filter).Run s turns) :
    Stopping ((machine filter).exec s turns) ∧
      remaining ((machine filter).exec s turns).classifier + turns.countP Turn.isClassifier ≤
        remaining s.classifier ∧
      taken ((machine filter).exec s turns).mPendingEv = taken s.mPendingEv := by
  induction turns generalizing s with
  | nil => exact ⟨h, le_refl _, rfl⟩
  | cons turn turns ih =>
    obtain ⟨henabled, hrest⟩ := hrun
    obtain ⟨hstopping, hremaining, htaken⟩ := @Stopping.stops filter s turn h henabled
    obtain ⟨hlast, hcount, hmore⟩ := ih hstopping hrest
    refine ⟨hlast, ?_, hmore.trans htaken⟩
    rw [List.countP_cons]
    calc _ = remaining ((machine filter).exec (s.next filter turn) turns).classifier +
          turns.countP Turn.isClassifier + (if turn.isClassifier then 1 else 0) := (Nat.add_assoc ..).symm
      _ ≤ remaining (s.next filter turn).classifier + (if turn.isClassifier then 1 else 0) :=
        Nat.add_le_add_right hcount _
      _ ≤ remaining s.classifier := hremaining

/-- While it has not returned the classifier has a turn that nobody has to give it. -/
theorem exists_enabled (s : PendingEvents) :
    s.classifier = .returned ∨ ∃ turn, turn.isClassifier = true ∧ s.Enabled turn := by
  cases hclassifier : s.classifier with
  | returned => exact .inl rfl
  | looping => exact .inr ⟨.lock, rfl, hclassifier⟩
  | asleep notified =>
    refine .inr ⟨.wake, rfl, ?_⟩
    show isAsleep s.classifier = true
    rw [hclassifier]
    rfl
  | handling ev =>
    refine .inr ⟨.finish ⟨false, none, false, 0, none⟩, rfl, ?_⟩
    show isHandling s.classifier = true
    rw [hclassifier]
    rfl

end Stops

/-- **The classifier stops.**  Once `Terminate` has set the flag and woken the threads, the classifier
takes no event any more, whatever the listener still puts into the queue; it takes at most two more turns,
and until it has returned it is never left asleep. -/
theorem stops_of_run {filter : ProcessFilter} {before after : List Turn}
    (hrun : (machine filter).Run init (before ++ after))
    (hflag : ((machine filter).exec init before).mNeedExit = true)
    (hwoken : ((machine filter).exec init before).terminator ≠ .flagged) :
    let s := (machine filter).exec init (before ++ after)
    taken s.mPendingEv = taken ((machine filter).exec init before).mPendingEv ∧
      after.countP Turn.isClassifier ≤ 2 ∧ s.classifier ≠ .asleep false ∧
      (s.classifier = .returned ∨
        ∃ turn, turn.isClassifier = true ∧ (machine filter).Enabled s turn) := by
  intro s
  obtain ⟨hbefore, hafter⟩ := Machine.steps_append.mp hrun
  have hinv := inv_of_run (inv_init filter) hbefore
  have hstopping : Stopping ((machine filter).exec init before) :=
    ⟨hflag, fun hasleep => hwoken ((hinv.asleep hasleep).2 hflag)⟩
  obtain ⟨hlast, hcount, htaken⟩ := hstopping.of_run hafter
  have hle : remaining ((machine filter).exec init before).classifier ≤ 2 := by
    cases ((machine filter).exec init before).classifier <;> simp [remaining]
  rw [← Machine.exec_append] at hlast hcount htaken
  exact ⟨htaken, by omega, hlast.2, exists_enabled _⟩

/-- `Terminate` comes while the classifier is at work and the listener has something more. -/
theorem stops_of_openings :
    let before := Sample.opening 100 ++ [.lock, .test, .terminate, .notifyAll]
    let after := [.receive (.message 76 .PROC_EVENT_EXEC 101 101) ⟨true, 100, true, some "app"⟩, .test,
      .finish ⟨true, some "app", true, 1, none⟩, .lock, .join]
    taken ((machine Sample.filter).exec init (before ++ after)).mPendingEv =
      [⟨100, 100, .CC_APP_OPEN⟩] := by
  intro before after
  exact (@stops_of_run Sample.filter before after (by decide) (by decide) (by decide)).1.trans (by decide)

end PendingEvents

end ResourceTuner
