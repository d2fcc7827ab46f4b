import ResourceTuner.Server.Cancellation

/-!
# An untune message overtakes the creation of its client

A client may send its first tune message and, at once, an untune message for it; the comment at
`disableRequestProcessing` names the case in which the untune message is worked on before there is an
entry for the client.  But the worker of an untune message asks for the client first, and drops the
message when there is none: it never comes to `disableRequestProcessing`, the handle does not enter the
cache, and the tune request is applied as if it had not been untuned.

* **`TurnsDown`** — a check refuses the tune request, or it cannot be inserted;
* **`Gone`** — the tune request was freed, or the consumer is about to free it;
* **`untuned_of_overtaking`** — the request ends when an untune message is heard, or when it is turned
  down;
* **`dropped_untune`** — and not when the only untune message finds no client.
-/

namespace ResourceTuner

namespace Server

open Machine

variable {env : Env} {s s' : Server} {e : Event} {req tune : ReqPtr} {handle : Int}

/-- A call refuses the tune request: one of the checks of its worker, or the insertion. -/
def TurnsDown (env : Env) (tune : ReqPtr) (s : Server) : Event → Prop
  | .work req answer =>
    let request := s.heap tune
    let maxRequests := env.metaConfigs.mMaxConcurrentRequests
    req = tune ∧
      match s.stage tune with
      | .globalRateLimit => isGlobalRateLimitHonored env s.tracker.manager = false
      | .createClient => (s.tracker.clients.createNewClient request.mClientPID request.mClientTID
          answer.creation).1 = false
      | .verify => s.isValidated tune = false ∧
          VerifyIncomingRequest env s.tracker.clients request = none
      | .shouldBeAdded =>
        (RequestManager.shouldRequestBeAdded maxRequests s.heap s.tracker request).1 = false
      | .add => (RequestManager.addRequest maxRequests s.heap s.tracker tune).1 = false
      | _ => False
  | .consume answer => s.consumer = .insert tune ∧
    (s.table.insertRequest env (s.heap tune) answer.timerBlock answer.enqueued).1 = false
  | _ => False

/-- The tune request was freed, or will be by the next call of the consumer. -/
def Gone (s : Server) (tune : ReqPtr) : Prop := s.stage tune = .freed ∨ s.consumer = .discard tune

/-- A freed message stays freed. -/
theorem freed_of_effect (hinv : Inv env s) (h : Effect env s e s') (hfreed : s.stage req = .freed) :
    s'.stage req = .freed := by
  have hitem := hinv.item
  cases h with
  | arrive | move | free | add | take | insert | discard | dismiss =>
    simp only [Server.arrive, Server.turn, Server.goto, cleanUpRequest]
    grind [Stage.moving, Consumer.item]
  | turn | mark | fail | unlink | stutter => exact hfreed
  | untrack =>
    simp only [Server.turn, Server.goto, cleanUpRequest]
    grind

theorem gone_of_next (hinv : Inv env s) (henabled : s.Enabled e) (hgone : s.Gone tune) :
    (next env s e).Gone tune := by
  rcases hgone with hfreed | hdiscard
  · exact Or.inl (freed_of_effect hinv (effect_of_enabled hinv henabled) hfreed)
  · cases e with
    | receive req request isValidated => exact Or.inr hdiscard
    | work req answer => exact Or.inr ((work_frame env s req answer).1.trans hdiscard)
    | pop req =>
      rw [henabled.1] at hdiscard
      cases hdiscard
    | consume answer =>
      left
      simp only [next, consume, hdiscard]
      exact cleanUpRequest_stage_self
    | timerExpired req target duration =>
      obtain ⟨stage, hnext, -⟩ := @timerExpired_cases target duration env s req
      right
      rw [hnext]
      exact hdiscard

theorem gone_of_turnsDown (hturned : TurnsDown env tune s e) : (next env s e).Gone tune := by
  cases e with
  | work req answer =>
    obtain ⟨rfl, hrefused⟩ := hturned
    left
    cases hstage : s.stage req with
    | globalRateLimit | createClient | shouldBeAdded | add =>
      simp only [hstage] at hrefused
      simp only [next, work, hstage, proceed_stage_self, hrefused]
      rfl
    | verify =>
      simp only [hstage] at hrefused
      simp [next, work, hstage, hrefused.1, hrefused.2]
    | unused | clientCheck | disable | rateLimit | verifyHandle | enqueue | queued | held | live
      | freed | lost =>
      simp only [hstage] at hrefused
  | consume answer =>
    obtain ⟨hconsumer, hfailed⟩ := hturned
    right
    simp [next, consume, hconsumer, hfailed, turn]
  | receive | pop | timerExpired => exact hturned.elim

/-- When all threads are done, what is gone has been freed. -/
theorem freed_of_turnsDown {s₀ : Server} {events : List Event} (hinv₀ : Inv env s₀)
    (hrun : (machine env).Run s₀ events) (hturned : (machine env).Ever (TurnsDown env tune) s₀ events)
    (hdone : ((machine env).exec s₀ events).Quiescent) :
    ((machine env).exec s₀ events).stage tune = .freed := by
  obtain ⟨before, e, after, rfl, hstep⟩ := hturned.exists_step
  obtain ⟨hbefore, henabled, hafter⟩ := steps_append.mp hrun
  have hinv : Inv env ((machine env).exec s₀ before) :=
    hbefore.invariant hinv₀ fun s e hinv henabled =>
      inv_of_effect hinv (effect_of_enabled hinv henabled)
  have hend : Inv env ((machine env).exec s₀ (before ++ e :: after)) ∧
      ((machine env).exec s₀ (before ++ e :: after)).Gone tune := by
    rw [exec_append, exec_cons]
    refine hafter.invariant (I := fun s => Inv env s ∧ s.Gone tune)
      ⟨inv_of_effect hinv (effect_of_enabled hinv henabled), gone_of_turnsDown hstep⟩ ?_
    rintro s e ⟨hinv, hgone⟩ henabled
    exact ⟨inv_of_effect hinv (effect_of_enabled hinv henabled), gone_of_next hinv henabled hgone⟩
  refine hend.2.resolve_right fun hdiscard => ?_
  rw [hdone.1] at hdiscard
  cases hdiscard

/-- When an untune message of the handle is heard, from the client or from the request's own timer, or
the tune request is turned down, nothing is left of the request once all threads are done. -/
theorem untuned_of_overtaking {s₀ : Server} {events : List Event} (hreachable : Reachable env s₀)
    (hfresh : ∀ req ∈ s₀.received, (s₀.heap req).mHandle ≠ handle) (htune : tune ∉ s₀.received)
    (hrun : (machine env).Run s₀ events)
    (hsteps : (machine env).Steps (RivalStep handle tune) s₀ events)
    (hstarts : (machine env).Steps (InsertStarts env tune) s₀ events)
    (htuned : tune ∈ ((machine env).exec s₀ events).received)
    (hdone : ((machine env).exec s₀ events).Quiescent)
    (hended : (∃ untune, ((machine env).exec s₀ events).Untunes handle untune ∧
        (machine env).Steps (Heard handle untune) s₀ events) ∨
      (machine env).Ever (TurnsDown env tune) s₀ events) :
    Untuned handle tune ((machine env).exec s₀ events) := by
  have hinv₀ := hreachable.inv
  obtain ⟨hinv, hroles⟩ := roles_of_run hinv₀ hfresh htune hrun hsteps
  refine untuned_of_freed hinv hroles (linkOk_of_run hinv₀ htune hrun hstarts) ?_
  rcases hended with ⟨untune, huntuned, hheard⟩ | hturned
  · exact freed_of_heard hinv₀ hfresh htune hrun hsteps hheard htuned huntuned hdone
  · exact freed_of_turnsDown hinv₀ hrun hturned hdone

end Server

namespace Sample

open Server

/-- The untune message comes before the client has its entry, and its worker looks after: the handle
is in the cache when the tune request is to be added. -/
def heardUntune : List Event :=
  .receive 1 (tune 1) false :: .receive 2 (message .REQ_RESOURCE_UNTUNING 1 0 1) false ::
    (List.replicate 3 (.work 1 answer) ++ List.replicate 2 (.work 2 answer) ++
      List.replicate 4 (.work 1 answer))

/-- Its worker looks at once. -/
def droppedUntune : List Event :=
  .receive 1 (tune 1) false :: .receive 2 (message .REQ_RESOURCE_UNTUNING 1 0 1) false ::
    (.work 2 answer :: List.replicate 8 (.work 1 answer) ++ drain 1 3)

end Sample

open Server

theorem untuned_overtaking_sample :
    Untuned 1 1 ((machine Sample.env).exec Sample.server Sample.heardUntune) := by
  have hreachable : Reachable Sample.env Sample.server := ⟨_, [], trivial, rfl⟩
  have huntunes : ((machine Sample.env).exec Sample.server Sample.heardUntune).Untunes 1 2 :=
    ⟨by decide, by decide, by decide⟩
  exact untuned_of_overtaking hreachable (by decide) (by decide) (by decide) (by decide) (by decide)
    (by decide) (by decide) (Or.inl ⟨2, huntunes, by decide⟩)

/-- The first tune message of a client and an untune message for it whose worker looks for the client
before it is created: when all threads are done the request is active and its node is linked. -/
theorem dropped_untune :
    let s := (machine Sample.env).exec Sample.server Sample.droppedUntune
    (machine Sample.env).Run Sample.server Sample.droppedUntune ∧
      (machine Sample.env).Steps (RivalStep 1 1) Sample.server Sample.droppedUntune ∧
      (machine Sample.env).Steps (InsertStarts Sample.env 1) Sample.server Sample.droppedUntune ∧
      s.Untunes 1 2 ∧ s.Quiescent ∧ 1 ∈ s.active ∧ s.table.Linked 1 := by
  refine ⟨by decide, by decide, by decide, ⟨by decide, by decide, by decide⟩, by decide, by decide,
    0, 3, ⟨(1, 0), some (.ofValues (Sample.code 1) 0 0 [5])⟩, ?_, rfl⟩
  decide

end ResourceTuner
