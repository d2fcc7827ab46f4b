import ResourceTuner.Server.SignalUntune
import ResourceTuner.Signals.SignalHandler
import ResourceTuner.Wire.Deserialize

/-!
# The reserved priorities

The lowest byte of the properties word orders the queue.  Priorities below
`SERVER_CLEANUP_TRIGGER_PRIORITY` are refused by `addAndWakeup`, and a message of exactly that priority
is taken for the trigger that ends the consumer.  The word comes from the client.  A tune request is
verified and gets an internal priority before it is queued, and the untune request of a timer takes the
word of its tune request; retune and untune messages are queued with the word as it was sent.

* **`FromSocket`** — the requests that the two front ends make of a received message;
* **`Unreserved`** — an event on a message from a client meets no reserved priority;
* **`PassesReserved`** — a retune or untune message with a reserved priority passes `verifyHandle`;
* **`clientMessages_delivered_iff`** — without such a message, and only then, every message from a
  client is applied or freed.
-/

namespace ResourceTuner

open ByteReader

/-- The signal as its handler sees it. -/
def RawSignal.toSignal (raw : RawSignal) (type : RequestType) (handle : Int) : Signal where
  mReqType := type
  mHandle := handle
  mDuration := raw.mDuration
  mProperties := raw.mProperties
  mClientPID := raw.mClientPID
  mClientTID := raw.mClientTID
  mSignalCode := raw.mSignalCode
  mSignalType := raw.mSignalType
  mNumArgs := raw.mNumArgs
  mListArgs := raw.mListArgs.map Prod.snd

/-- The stages after the priority of a message should have been looked at. -/
def Stage.ranked : Stage → Bool
  | .shouldBeAdded | .add | .enqueue | .queued | .held | .live => true
  | _ => false

namespace Server

variable {env : Env} {registry : SignalRegistry} {s s' : Server} {e : Event} {req : ReqPtr}
  {answer : Answer} {client : ReqPtr → Prop}

/-- The requests that come out of the bytes of a message, with the flag they are submitted with.
`handle` is the one the receiver has made up; a tune message gets it, the others carry their own. -/
inductive FromSocket (registry : SignalRegistry) (req : ReqPtr) : Request → Bool → Prop where
  /-- `submitResProvisionReqMsg` -/
  | resource {memory rest : List Byte} {pool pool' : Pool} {raw : RawRequest} {type : RequestType}
      {handle : Int}
      (read : Request.deserialize ⟨memory, ⟨.new, pool⟩⟩ = .ok () ⟨rest, ⟨raw, pool'⟩⟩)
      (byte : raw.mReqType = type.toByte)
      (forwarded : type = .REQ_RESOURCE_TUNING ∨ type = .REQ_RESOURCE_RETUNING ∨
        type = .REQ_RESOURCE_UNTUNING) :
      FromSocket registry req
        (if type = .REQ_RESOURCE_TUNING then
          { raw.toRequest type req with mHandle := handle }
        else raw.toRequest type req) false
  /-- `submitSignalRequest`, for a signal that passes its verifier -/
  | signalTuning {memory rest : List Byte} {pool pool' : Pool} {raw : RawSignal} {handle : Int}
      {clients : ClientDataManager} {signal : Signal} {blocks : TranslationBlocks}
      {request : Request}
      (read : Signal.deserialize ⟨memory, ⟨.new, pool⟩⟩ = .ok () ⟨rest, ⟨raw, pool'⟩⟩)
      (byte : raw.mReqType = RequestType.REQ_SIGNAL_TUNING.toByte)
      (verified : SignalHandler.VerifyIncomingRequest registry clients
        (raw.toSignal .REQ_SIGNAL_TUNING handle) = .ok (some signal))
      (translated : createResourceTuningRequest registry signal blocks req = .ok (some request)) :
      FromSocket registry req request false
  | signalUntuning {memory rest : List Byte} {pool pool' : Pool} {raw : RawSignal}
      (read : Signal.deserialize ⟨memory, ⟨.new, pool⟩⟩ = .ok () ⟨rest, ⟨raw, pool'⟩⟩)
      (byte : raw.mReqType = RequestType.REQ_SIGNAL_UNTUNING.toByte) :
      FromSocket registry req
        (untuneRequest (raw.toSignal .REQ_SIGNAL_UNTUNING raw.mHandle).toMessage) true

/-- No tune request is submitted as validated. -/
theorem FromSocket.unvalidated {request : Request} {isValidated : Bool}
    (h : FromSocket registry req request isValidated)
    (htype : request.mReqType = .REQ_RESOURCE_TUNING) : isValidated = false := by
  cases h with
  | resource | signalTuning => rfl
  | signalUntuning => cases htype

/-- `client` marks the messages that originate from the socket: those received there, and the untune
requests of the timers of such requests. -/
def Originates (registry : SignalRegistry) (client : ReqPtr → Prop) : Event → Prop
  | .receive req request isValidated => client req → FromSocket registry req request isValidated
  | .timerExpired req target _ => client req ↔ client target
  | .work _ _ | .pop _ | .consume _ => True

/-- The event does not meet a reserved priority on a message from a client: it is not refused by
`addAndWakeup`, and not popped as the trigger. -/
def Unreserved (client : ReqPtr → Prop) (s : Server) : Event → Prop
  | .work req _ => client req → s.stage req = .enqueue →
    ¬ (s.heap req).getPriority < SERVER_CLEANUP_TRIGGER_PRIORITY
  | .pop req => client req → (s.heap req).getPriority ≠ SERVER_CLEANUP_TRIGGER_PRIORITY
  | .timerExpired req target _ => client req →
    ¬ (s.heap target).getPriority < SERVER_CLEANUP_TRIGGER_PRIORITY
  | .receive _ _ _ | .consume _ => True

/-- A retune or untune message from a client is about an active request and has a reserved priority. -/
def PassesReserved (client : ReqPtr → Prop) (s : Server) : Event → Prop
  | .work req _ => client req ∧ s.stage req = .verifyHandle ∧
    s.tracker.manager.verifyHandle (s.heap req).mHandle ∧
    (s.heap req).getPriority ≤ SERVER_CLEANUP_TRIGGER_PRIORITY
  | .receive _ _ _ | .pop _ | .consume _ | .timerExpired _ _ _ => False

instance [DecidablePred client] (s : Server) (e : Event) : Decidable (Unreserved client s e) :=
  match e with
  | .work _ _ => inferInstanceAs (Decidable (_ → _ → _))
  | .pop _ | .timerExpired _ _ _ => inferInstanceAs (Decidable (_ → _))
  | .receive _ _ _ | .consume _ => .isTrue trivial

instance [DecidablePred client] (s : Server) (e : Event) : Decidable (PassesReserved client s e) :=
  match e with
  | .work _ _ => inferInstanceAs (Decidable (_ ∧ _ ∧ _ ∧ _))
  | .receive _ _ _ | .pop _ | .consume _ | .timerExpired _ _ _ => .isFalse not_false

/-- Every message from a client was applied and is still in force, or was passed to
`cleanUpRequest`. -/
def Delivered (client : ReqPtr → Prop) (s : Server) : Prop :=
  ∀ req ∈ s.received, client req → s.stage req = .live ∨ (s.cleaned.map Prod.fst).count req = 1

/-! ## Without reserved priorities -/

/-- The verifier leaves one of the four internal priorities. -/
theorem getPriority_of_verify {clients : ClientDataManager} {request request' : Request}
    (h : VerifyIncomingRequest env clients request = some request') :
    SERVER_CLEANUP_TRIGGER_PRIORITY < request'.getPriority := by
  unfold VerifyIncomingRequest at h
  split at h
  · cases h
  simp only at h
  split at h
  · cases h
  cases hclient : clients.getClientLevelByClientID request.mClientPID with
  | none => simp [hclient] at h
  | some permissions =>
    simp only [hclient] at h
    split at h
    · cases h
    rename_i hrange
    split at h
    · cases h
    cases hlist : request.mResourceList with
    | none => simp [hlist] at h
    | some nodes =>
      simp only [hlist] at h
      obtain ⟨nodes', -, rfl⟩ := Option.map_eq_some_iff.mp h
      have hlevel := (show PriorityAdmitted permissions
        (request.toMessage.addProcessingMode MODE_RESUME).getPriority _ from
          priorityAdmitted_of_setters (by omega) (by omega)).level
      show _ < Message.getPriority _
      simp only [SYSTEM_HIGH, SYSTEM_LOW, THIRD_PARTY_HIGH, THIRD_PARTY_LOW,
        SERVER_CLEANUP_TRIGGER_PRIORITY] at hlevel ⊢
      omega

/-- What is known of a message from a client: as long as it can reach the queue it has a priority above
the reserved ones, and it was not lost. -/
structure RankedAt (stage : Stage) (request : Request) (isValidated : Bool) : Prop where
  unvalidated : request.mReqType = .REQ_RESOURCE_TUNING → isValidated = false
  above : stage.ranked → SERVER_CLEANUP_TRIGGER_PRIORITY < request.getPriority
  kept : stage ≠ .lost

def Ranked (client : ReqPtr → Prop) (s : Server) : Prop :=
  ∀ req, s.stage req ≠ .unused → client req →
    RankedAt (s.stage req) (s.heap req) (s.isValidated req)

/-- A step has to be looked at only where it changes something. -/
theorem Ranked.frame (hranked : Ranked client s) (h : ∀ r, s'.stage r ≠ .unused → client r →
    s'.stage r = s.stage r ∧ s'.heap r = s.heap r ∧ s'.isValidated r = s.isValidated r ∨
      RankedAt (s'.stage r) (s'.heap r) (s'.isValidated r)) : Ranked client s' := by
  intro r hused' hclient
  rcases h r hused' hclient with ⟨hstage, hheap, hvalidated⟩ | hat
  · rw [hstage] at hused' ⊢
    rw [hheap, hvalidated]
    exact hranked r hused' hclient
  · exact hat

/-- A worker that only moves on to a stage before the queue, or frees its message. -/
theorem RankedAt.proceed {stage stage' : Stage} {request : Request} {isValidated b : Bool}
    (h : RankedAt stage request isValidated) (hranked : stage'.ranked → stage.ranked)
    (hlost : stage' ≠ .lost) :
    RankedAt (if b then stage' else .freed) request isValidated where
  unvalidated := h.unvalidated
  above hr := by
    cases b with
    | true => exact h.above (hranked hr)
    | false => cases hr
  kept := by
    cases b with
    | true => exact hlost
    | false => simp

theorem rankedAt_of_work (hinv : Inv env s) (hworking : (s.stage req).working)
    (hclient : client req) (hpass : ¬ PassesReserved client s (.work req answer))
    (hat : RankedAt (s.stage req) (s.heap req) (s.isValidated req)) :
    RankedAt ((s.work env req answer).stage req) ((s.work env req answer).heap req)
      (s.isValidated req) := by
  have hfits := hinv.fits req (by intro h; rw [h] at hworking; cases hworking)
  cases hstage : s.stage req with
  | unused | queued | held | live | freed | lost =>
    rw [hstage] at hworking
    cases hworking
  | globalRateLimit | createClient | disable | shouldBeAdded | add =>
    rw [hstage] at hat
    simp only [work, hstage, proceed_heap, proceed_stage_self]
    exact hat.proceed (by decide) (by decide)
  | rateLimit =>
    rw [hstage] at hat
    simp only [work, hstage, proceed_heap, proceed_stage_self]
    exact hat.proceed (by split <;> decide) (by split <;> decide)
  | clientCheck =>
    rw [hstage] at hat
    simp only [work, hstage]
    split
    · simp only [goto_stage_self, goto_heap]
      refine ⟨hat.unvalidated, ?_, ?_⟩
      · split <;> intro h <;> cases h
      · split <;> decide
    · simp only [proceed_heap, proceed_stage_self]
      exact hat.proceed (by decide) (by decide)
    · simp only [proceed_heap, proceed_stage_self]
      exact hat.proceed (by decide) (by decide)
  | verifyHandle =>
    rw [hstage] at hat
    simp only [work, hstage, proceed_heap, proceed_stage_self]
    cases hactive : s.tracker.manager.verifyHandle (s.heap req).mHandle with
    | false => exact ⟨hat.unvalidated, fun h => (by cases h), by decide⟩
    | true =>
      refine ⟨hat.unvalidated, fun _ => ?_, by decide⟩
      by_contra hlow
      exact hpass ⟨hclient, hstage, hactive, by omega⟩
  | verify =>
    rw [hstage] at hfits
    have htype : (s.heap req).mReqType = .REQ_RESOURCE_TUNING := by simpa [Stage.fits] using hfits
    simp only [work, hstage, hat.unvalidated htype, Bool.false_eq_true, if_false]
    split
    · simp only [cleanUpRequest_stage_self, cleanUpRequest_heap]
      exact ⟨fun _ => rfl, fun h => (by cases h), by decide⟩
    · rename_i hverify
      simp only [goto_stage_self, goto_heap, Function.update_self]
      exact ⟨fun _ => rfl, fun _ => getPriority_of_verify hverify, by decide⟩
  | enqueue =>
    rw [hstage] at hat
    have habove := hat.above rfl
    have hqueue : ¬ (s.heap req).getPriority < SERVER_CLEANUP_TRIGGER_PRIORITY := by omega
    simp only [work, hstage, addAndWakeup, if_neg hqueue, goto_stage_self, goto_heap]
    exact ⟨hat.unvalidated, fun _ => habove, by decide⟩

theorem ranked_of_next (hinv : Inv env s) (henabled : s.Enabled e)
    (horigin : Originates registry client e) (hpass : ¬ PassesReserved client s e)
    (hranked : Ranked client s) : Ranked client (next env s e) := by
  cases e with
  | receive req request isValidated =>
    refine hranked.frame fun r hused hclient => ?_
    by_cases hne : r = req
    · subst hne
      right
      simp only [next, arrive, goto, Function.update_self]
      refine ⟨(horigin hclient).unvalidated, ?_, ?_⟩
      · split <;> intro h <;> cases h
      · split <;> decide
    · exact Or.inl ⟨goto_stage_of_ne hne, Function.update_of_ne hne _ _,
        Function.update_of_ne hne _ _⟩
  | work req answer =>
    obtain ⟨-, -, hothers⟩ := work_frame env s req answer
    refine hranked.frame fun r hused hclient => ?_
    by_cases hne : r = req
    · subst hne
      right
      have hused : s.stage r ≠ .unused := by
        intro h
        have hworking : (s.stage r).working := henabled
        rw [h] at hworking
        cases hworking
      simp only [next, work_isValidated]
      exact rankedAt_of_work hinv henabled hclient hpass (hranked r hused hclient)
    · exact Or.inl ⟨(hothers r hne).1, (hothers r hne).2, congrFun work_isValidated r⟩
  | pop req =>
    obtain ⟨-, hqueued, -⟩ := henabled
    refine hranked.frame fun r hused hclient => ?_
    by_cases hne : r = req
    · subst hne
      right
      have hat := hranked r (by rw [hqueued]; decide) hclient
      rw [hqueued] at hat
      have habove := hat.above rfl
      have htrigger : ¬ (s.heap r).getPriority = SERVER_CLEANUP_TRIGGER_PRIORITY := by omega
      have hheld : RankedAt .held (s.heap r) (s.isValidated r) :=
        ⟨hat.unvalidated, fun _ => habove, by decide⟩
      simp only [next, pop, if_neg htrigger]
      split <;> simpa [turn, goto] using hheld
    · exact Or.inl ⟨pop_stage_of_ne hne, congrFun pop_heap r, congrFun pop_isValidated r⟩
  | consume answer =>
    intro r hused hclient
    obtain ⟨hretimed, hstage⟩ := consume_message answer hinv r
    simp only [next, consume_isValidated] at hused ⊢
    have hold : s.stage r ≠ .unused := by
      rcases hstage with h | ⟨h | h, -⟩ | ⟨h, -⟩
      · rwa [h] at hused
      all_goals
        rw [h]
        decide
    have hat := hranked r hold hclient
    refine ⟨fun h => hat.unvalidated (hretimed.kept.type.symm.trans h), fun h => ?_, ?_⟩
    · rw [hretimed.links.2]
      rcases hstage with heq | ⟨-, heq⟩ | ⟨hheld, -⟩
      · rw [heq] at h
        exact hat.above h
      · rw [heq] at h
        cases h
      · rw [hheld] at hat
        exact hat.above rfl
    · rcases hstage with heq | ⟨-, heq⟩ | ⟨-, heq⟩
      · rw [heq]
        exact hat.kept
      all_goals
        rw [heq]
        decide
  | timerExpired req target duration =>
    obtain ⟨-, hlive, -⟩ := henabled
    refine hranked.frame fun r hused hclient => ?_
    by_cases hne : r = req
    · subst hne
      right
      have hat := hranked target (by rw [hlive]; decide) (horigin.mp hclient)
      rw [hlive] at hat
      -- the new request has the properties word of its tune request
      have habove : SERVER_CLEANUP_TRIGGER_PRIORITY <
          ((s.heap target).populateUntuneRequest duration).getPriority := hat.above rfl
      have hqueue : ¬ ((s.heap target).populateUntuneRequest duration).getPriority <
          SERVER_CLEANUP_TRIGGER_PRIORITY := by omega
      simp only [next, addAndWakeup, arrive, Function.update_self, if_neg hqueue, goto]
      exact ⟨fun h => (by cases h), fun _ => habove, by decide⟩
    · left
      simp only [next, addAndWakeup_stage_of_ne hne, addAndWakeup_heap, addAndWakeup_isValidated]
      exact ⟨rfl, Function.update_of_ne hne _ _, Function.update_of_ne hne _ _⟩

/-- In a state where every message from a client is ranked no event meets a reserved priority. -/
theorem Ranked.unreserved (hranked : Ranked client s) (henabled : s.Enabled e)
    (horigin : Originates registry client e) : Unreserved client s e := by
  cases e with
  | receive | consume => trivial
  | work req answer =>
    intro hclient hstage
    have habove := (hranked req (by rw [hstage]; decide) hclient).above (by rw [hstage]; rfl)
    omega
  | pop req =>
    intro hclient
    obtain ⟨-, hqueued, -⟩ := henabled
    have habove := (hranked req (by rw [hqueued]; decide) hclient).above (by rw [hqueued]; rfl)
    omega
  | timerExpired req target duration =>
    intro hclient
    obtain ⟨-, hlive, -⟩ := henabled
    have habove := (hranked target (by rw [hlive]; decide) (horigin.mp hclient)).above
      (by rw [hlive]; rfl)
    omega

/-! ## With a reserved priority -/

/-- A retune or untune message that will be refused, or popped as the trigger, or was. -/
structure Doomed (s : Server) (req : ReqPtr) : Prop where
  type : (s.heap req).mReqType ≠ .REQ_RESOURCE_TUNING
  low : (s.heap req).getPriority ≤ SERVER_CLEANUP_TRIGGER_PRIORITY
  place : s.stage req = .enqueue ∨
    s.stage req = .queued ∧ (s.heap req).getPriority = SERVER_CLEANUP_TRIGGER_PRIORITY ∨
    s.stage req = .lost

theorem Doomed.congr (hdoomed : Doomed s req) (hstage : s'.stage req = s.stage req)
    (hheap : s'.heap req = s.heap req) : Doomed s' req := by
  refine ⟨?_, ?_, ?_⟩
  · rw [hheap]
    exact hdoomed.type
  · rw [hheap]
    exact hdoomed.low
  · rw [hstage, hheap]
    exact hdoomed.place

theorem doomed_of_passesReserved (hinv : Inv env s) (hpass : PassesReserved client s e) :
    ∃ req, client req ∧ Doomed (next env s e) req := by
  cases e with
  | receive | pop | consume | timerExpired => exact hpass.elim
  | work req answer =>
    obtain ⟨hclient, hstage, hactive, hlow⟩ := hpass
    have hfits := hinv.fits req (by rw [hstage]; decide)
    rw [hstage] at hfits
    simp only [Stage.fits, decide_eq_true_eq] at hfits
    have hnext : next env s (.work req answer) = s.goto req .enqueue := by
      simp only [next, work, hstage, proceed, hactive, if_true]
    refine ⟨req, hclient, ?_, ?_, Or.inl ?_⟩
    · rw [hnext, goto_heap]
      rcases hfits with h | h <;> simp [h]
    · rw [hnext]
      exact hlow
    · rw [hnext, goto_stage_self]

theorem doomed_of_next (hinv : Inv env s) (henabled : s.Enabled e) (hdoomed : Doomed s req) :
    Doomed (next env s e) req := by
  have hused : s.stage req ≠ .unused := by
    rcases hdoomed.place with h | ⟨h, -⟩ | h <;> rw [h] <;> decide
  cases e with
  | receive r request isValidated =>
    have hne : req ≠ r := by
      rintro rfl
      exact hused henabled.1
    exact hdoomed.congr (goto_stage_of_ne hne) (Function.update_of_ne hne _ _)
  | work r answer =>
    by_cases hne : req = r
    · subst hne
      have hworking : (s.stage req).working := henabled
      rcases hdoomed.place with hstage | ⟨hstage, -⟩ | hstage
      · -- refused, or queued with the priority of the trigger
        simp only [next, work, hstage, addAndWakeup]
        have hlow := hdoomed.low
        split
        · exact ⟨hdoomed.type, hlow, Or.inr (Or.inr goto_stage_self)⟩
        · refine ⟨hdoomed.type, hlow, Or.inr (Or.inl ⟨goto_stage_self, ?_⟩)⟩
          rw [goto_heap]
          omega
      all_goals
        rw [hstage] at hworking
        cases hworking
    · obtain ⟨-, -, hothers⟩ := work_frame env s r answer
      exact hdoomed.congr (hothers req hne).1 (hothers req hne).2
  | pop r =>
    by_cases hne : req = r
    · subst hne
      have hqueued := henabled.2.1
      rcases hdoomed.place with hstage | ⟨-, htrigger⟩ | hstage
      · rw [hqueued] at hstage
        cases hstage
      · simp only [next, pop, htrigger, if_true]
        exact ⟨hdoomed.type, hdoomed.low, Or.inr (Or.inr goto_stage_self)⟩
      · rw [hqueued] at hstage
        cases hstage
    · exact hdoomed.congr (pop_stage_of_ne hne) (congrFun pop_heap req)
  | consume answer =>
    obtain ⟨hretimed, hstage⟩ := consume_message answer hinv req
    have hkept : (s.consume env answer).stage req = s.stage req := by
      rcases hstage with h | ⟨h | h, -⟩ | ⟨h, -⟩
      · exact h
      all_goals
        have hplace := hdoomed.place
        rw [h] at hplace
        simp at hplace
    refine ⟨?_, ?_, ?_⟩
    · rw [next, hretimed.kept.type]
      exact hdoomed.type
    · rw [next, hretimed.links.2]
      exact hdoomed.low
    · rw [next, hretimed.links.2, hkept]
      exact hdoomed.place
  | timerExpired r target duration =>
    have hne : req ≠ r := by
      rintro rfl
      exact hused henabled.1
    refine hdoomed.congr (addAndWakeup_stage_of_ne hne) ?_
    rw [next, addAndWakeup_heap]
    exact Function.update_of_ne hne _ _

/-- A doomed message is lost when all threads are done. -/
theorem Doomed.not_delivered (hinv : Inv env s) (hdone : s.Quiescent) (hclient : client req)
    (hdoomed : Doomed s req) : ¬ Delivered client s := by
  intro hdelivered
  have hused : s.stage req ≠ .unused := by
    rcases hdoomed.place with h | ⟨h, -⟩ | h <;> rw [h] <;> decide
  have hreceived := not_not.mp ((not_congr (hinv.received req)).mp hused)
  obtain ⟨hworking, hqueued⟩ := hdone.2 req hreceived
  have hlost : s.stage req = .lost := by
    rcases hdoomed.place with h | ⟨h, -⟩ | h
    · rw [h] at hworking
      cases hworking
    · exact absurd h hqueued
    · exact h
  rcases hdelivered req hreceived hclient with h | h
  · rw [hlost] at h
    cases h
  · rw [hinv.cleaned req, hlost, if_neg (by decide)] at h
    cases h

/-! ## Delivery -/

theorem Ranked.delivered (hinv : Inv env s) (hdone : s.Quiescent) (hranked : Ranked client s) :
    Delivered client s := by
  intro req hreceived hclient
  have hused := (not_congr (hinv.received req)).mpr (not_not.mpr hreceived)
  obtain ⟨hworking, hqueued⟩ := hdone.2 req hreceived
  have hkept := (hranked req hused hclient).kept
  rw [hinv.cleaned req]
  cases hstage : s.stage req with
  | live => exact Or.inl rfl
  | freed => exact Or.inr (if_pos rfl)
  | unused => exact absurd hstage hused
  | queued => exact absurd hstage hqueued
  | lost => exact absurd hstage hkept
  | held =>
    have hitem := (hinv.item req).mp hstage
    rw [hdone.1] at hitem
    cases hitem
  | globalRateLimit | clientCheck | createClient | disable | rateLimit | verifyHandle | verify
    | shouldBeAdded | add | enqueue =>
    rw [hstage] at hworking
    cases hworking

end Server

namespace Sample

/-- The bytes of a resource message of the client, up to its resources. -/
def header (type : RequestType) (handle duration : BitVec 64) (count properties : BitVec 32) :
    List Byte :=
  encode 1 0 ++ encode 1 type.toByte ++ encode 8 handle ++ encode 8 duration ++ encode 4 count ++
    encode 4 properties ++ encode 4 (1 : BitVec 32) ++ encode 4 (1 : BitVec 32)

/-- The bytes of the tune request, with its one resource. -/
def tuneBytes : List Byte :=
  header .REQ_RESOURCE_TUNING 0 (-1) 1 1 ++ encode 4 (code 1) ++ encode 4 (0 : BitVec 32) ++
    encode 4 (0 : BitVec 32) ++ encode 4 (1 : BitVec 32) ++ encode 4 (5 : BitVec 32)

/-- The request that is read from the bytes. -/
def readRequest (bytes : List Byte) (type : RequestType) (req : ReqPtr) : Option Request :=
  match Request.deserialize ⟨bytes, ⟨.new, .fresh fun _ => true⟩⟩ with
  | .ok _ s =>
    if s.store.object.mReqType = type.toByte then some (s.store.object.toRequest type req) else none
  | .error _ _ => none

/-- A request is tuned and an untune message with a properties word follows. -/
def untuneAt (properties : BitVec 32) (calls : Nat) : List Server.Event :=
  worker 1 (tune 1) 8 ++ drain 1 3 ++
    worker 2 (message .REQ_RESOURCE_UNTUNING 1 0 properties) 5 ++ drain 2 calls

end Sample

open Server

theorem fromSocket_of_readRequest {registry : SignalRegistry} {bytes : List Byte} {req : ReqPtr}
    {type : RequestType} {request : Request} (h : Sample.readRequest bytes type req = some request)
    (forwarded : type = .REQ_RESOURCE_TUNING ∨ type = .REQ_RESOURCE_RETUNING ∨
      type = .REQ_RESOURCE_UNTUNING) (handle : Int) :
    FromSocket registry req
      (if type = .REQ_RESOURCE_TUNING then { request with mHandle := handle } else request)
      false := by
  unfold Sample.readRequest at h
  split at h
  · rename_i s hread
    split at h
    · rename_i hbyte
      obtain rfl := Option.some.inj h
      exact .resource hread hbyte forwarded
    · cases h
  · cases h

/-- Both messages of the sample come from the socket. -/
theorem originates_untuneAt (registry : SignalRegistry) {s : Server} {properties : BitVec 32} {calls : Nat}
    (h : Sample.readRequest (Sample.header .REQ_RESOURCE_UNTUNING 1 0 0 properties)
      .REQ_RESOURCE_UNTUNING 2 = some (Sample.message .REQ_RESOURCE_UNTUNING 1 0 properties)) :
    (machine Sample.env).Steps (fun _ => Originates registry fun _ => True) s
      (Sample.untuneAt properties calls) := by
  have htune : FromSocket registry 1 (Sample.tune 1) false :=
    fromSocket_of_readRequest (show Sample.readRequest Sample.tuneBytes .REQ_RESOURCE_TUNING 1 =
      some { Sample.tune 1 with mHandle := 0 } by decide +kernel) (Or.inl rfl) 1
  have huntune : FromSocket registry 2 (Sample.message .REQ_RESOURCE_UNTUNING 1 0 properties) false :=
    fromSocket_of_readRequest h (Or.inr (Or.inr rfl)) 0
  refine Machine.steps_of_forall fun e he => ?_
  simp only [Sample.untuneAt, Sample.worker, Sample.drain, List.mem_append, List.mem_cons,
    List.mem_replicate] at he
  rcases he with ((( rfl | ⟨-, rfl⟩) | (rfl | ⟨-, rfl⟩)) | (rfl | ⟨-, rfl⟩)) | (rfl | ⟨-, rfl⟩)
  · exact fun _ => htune
  · trivial
  · trivial
  · trivial
  · exact fun _ => huntune
  all_goals trivial

end ResourceTuner
