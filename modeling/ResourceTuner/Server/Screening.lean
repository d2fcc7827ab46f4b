import ResourceTuner.Server.Priorities
import ResourceTuner.Server.Receiver

/-!
# Past the verifier

A tune request reaches the table in one of two ways: the verifier has let it through, or whoever made it
said that it need not be verified.  So whatever the verifier establishes, and whoever skips it has seen
to, holds of every request from the verifier on: in the queue, at the consumer and in the table.

* **`Screen`** — what is asked of every tune message, and what the verifier establishes;
* **`Screened`** — the requests of the server are as the screen says;
* **`screened_of_next`** — every event keeps it;
* **`tableScreen`** — the screen for what the table relies on.
-/

namespace ResourceTuner

/-! ## What the verifier leaves -/

section Verifier

variable {env : Env}

theorem code_of_translate {conf : ResConfInfo} {r r' : Resource}
    (h : translateToPhysicalIDs env conf r = some r') : r'.mResCode = r.mResCode := by
  unfold translateToPhysicalIDs at h
  cases htype : conf.mApplyType with
  | APPLY_GLOBAL | APPLY_CGROUP =>
    simp only [htype, Option.some.injEq] at h
    rw [← h]
  | APPLY_CLUSTER | APPLY_CORE =>
    simp only [htype] at h
    repeat' split at h
    all_goals
      first
        | cases h
          done
        | cases h
          rfl

/-- A resource that passes is registered, under the code it came with. -/
theorem registered_of_verifyResource {permissions : Permissions} {r r' : Resource}
    (h : verifyResource env permissions r = some r') :
    ∃ conf, env.getResConf r'.mResCode = some conf := by
  unfold verifyResource at h
  cases hconf : env.getResConf r.mResCode with
  | none => simp [hconf] at h
  | some conf =>
    simp only [hconf] at h
    split at h
    · cases h
    split at h
    · cases h
    · exact ⟨conf, by rw [code_of_translate h, hconf]⟩

/-- The loop keeps the nodes and their order, and leaves a registered resource at each. -/
theorem nodes_of_verifyNodes {permissions : Permissions} {nodes nodes' : List ResIterable}
    (h : verifyNodes env permissions nodes = some nodes') :
    nodes'.map (·.addr) = nodes.map (·.addr) ∧ ∀ node ∈ nodes', ∃ resource conf,
      node.mData = some resource ∧ env.getResConf resource.mResCode = some conf := by
  induction nodes generalizing nodes' with
  | nil =>
    obtain rfl := Option.some.inj h
    exact ⟨rfl, fun node hnode => by cases hnode⟩
  | cons first rest ih =>
    unfold verifyNodes at h
    cases hdata : first.mData with
    | none => simp [hdata] at h
    | some r =>
      cases hr : verifyResource env permissions r with
      | none => simp [hdata, hr] at h
      | some r' =>
        simp only [hdata, hr] at h
        obtain ⟨rest', hrest, rfl⟩ := Option.map_eq_some_iff.mp h
        obtain ⟨haddrs, hregistered⟩ := ih hrest
        refine ⟨by simp [haddrs], fun node hnode => ?_⟩
        rcases List.mem_cons.mp hnode with rfl | hnode
        · obtain ⟨conf, hconf⟩ := registered_of_verifyResource hr
          exact ⟨r', conf, rfl, hconf⟩
        · exact hregistered node hnode

/-- The verifier leaves one of the four internal priorities. -/
theorem internal_of_setters (permissions : Permissions) {m : Message}
    (hlow : m.getPriority ≤ REQ_PRIORITY_LOW) (hhigh : REQ_PRIORITY_HIGH ≤ m.getPriority) :
    0 ≤ (m.setPriority (getRequestPriority permissions m.getPriority)).getPriority ∧
      (m.setPriority (getRequestPriority permissions m.getPriority)).getPriority <
        TOTAL_PRIORITIES := by
  have hadmitted : PriorityAdmitted permissions m.getPriority _ :=
    priorityAdmitted_of_setters hlow hhigh
  have hlevel := hadmitted.level
  simp only [SYSTEM_HIGH, SYSTEM_LOW, THIRD_PARTY_HIGH, THIRD_PARTY_LOW] at hlevel
  simp only [TOTAL_PRIORITIES]
  omega

/-- The verifier hands on the nodes its loop leaves, under one of the internal priorities. -/
theorem exists_of_verify {clients : ClientDataManager} {request request' : Request}
    (h : VerifyIncomingRequest env clients request = some request') :
    ∃ permissions, verifyNodes env permissions request.nodes = some request'.nodes ∧
      request'.mResourceList.isSome ∧ 0 ≤ request'.getPriority ∧
      request'.getPriority < TOTAL_PRIORITIES := by
  unfold VerifyIncomingRequest at h
  split at h
  · cases h
  simp only at h
  split at h
  · cases h
  cases hclient : clients.getClientLevelByClientID request.mClientPID with
  | none => simp [hclient] at h
  | some permissions =>
    simp only [hclient] at h
    split at h
    · cases h
    rename_i hrange
    split at h
    · cases h
    cases hlist : request.mResourceList with
    | none => simp [hlist] at h
    | some nodes =>
      simp only [hlist] at h
      obtain ⟨nodes', hnodes, rfl⟩ := Option.map_eq_some_iff.mp h
      have hinternal := internal_of_setters permissions
        (m := request.toMessage.addProcessingMode MODE_RESUME) (by omega) (by omega)
      exact ⟨permissions, by simpa [Request.nodes, hlist] using hnodes, rfl, hinternal⟩

/-- What the verifier lets through, the table can take. -/
theorem verified_of_verify {clients : ClientDataManager} {request request' : Request}
    (h : VerifyIncomingRequest env clients request = some request') :
    Verified env request' ∧ request'.nodes.map (·.addr) = request.nodes.map (·.addr) := by
  obtain ⟨permissions, hnodes, hlist, hnonneg, hlt⟩ := exists_of_verify h
  obtain ⟨haddrs, hregistered⟩ := nodes_of_verifyNodes hnodes
  exact ⟨⟨hnonneg, hlt, hlist, hregistered⟩, haddrs⟩

end Verifier

/-- What holds of every tune message, and what holds besides of one that has passed the verifier. -/
structure Screen (env : Env) where
  given : Request → Prop
  passed : Request → Prop
  verify : ∀ {clients request request'}, VerifyIncomingRequest env clients request = some request' →
    given request → given request' ∧ passed request'
  given_retimed : ∀ {request request'}, Server.Retimed request request' → given request → given request'
  passed_retimed : ∀ {request request'}, Server.Retimed request request' → passed request → passed request'

/-- What the table relies on: nodes of the request's own, and what the verifier checks. -/
def tableScreen (env : Env) : Screen env where
  given request := (request.nodes.map (·.addr)).Nodup
  passed := Verified env
  verify h hdistinct := ⟨by rwa [(verified_of_verify h).2], (verified_of_verify h).1⟩
  given_retimed := by
    rintro request _ ⟨duration, timer, rfl⟩ h
    exact h
  passed_retimed := by
    rintro request _ ⟨duration, timer, rfl⟩ h
    exact ⟨h.priority_nonneg, h.priority_lt, h.list, h.registered⟩

/-- The messages are as the screen asks, those that skip the verifier as it would leave them. -/
def Screen.Admits {env : Env} (screen : Screen env) : Server.Event → Prop
  | .receive _ request isValidated => request.mReqType = .REQ_RESOURCE_TUNING →
    screen.given request ∧ (isValidated → screen.passed request)
  | .work _ _ | .pop _ | .consume _ | .timerExpired _ _ _ => True

instance (env : Env) (e : Server.Event) : Decidable ((tableScreen env).Admits e) :=
  match e with
  | .receive _ request isValidated =>
    inferInstanceAs (Decidable (request.mReqType = .REQ_RESOURCE_TUNING →
      (request.nodes.map (·.addr)).Nodup ∧ (isValidated = true → Verified env request)))
  | .work _ _ | .pop _ | .consume _ | .timerExpired _ _ _ => .isTrue trivial

namespace Server

variable {env : Env} {screen : Screen env} {s : Server} {e : Event} {req : ReqPtr} {answer : Answer}

/-- What is known of a tune request at a stage. -/
structure ScreenedAt (screen : Screen env) (stage : Stage) (request : Request) (isValidated : Bool) :
    Prop where
  given : screen.given request
  passed : isValidated ∨ stage.ranked → screen.passed request

def Screened (screen : Screen env) (s : Server) : Prop :=
  ∀ req, s.IsTune req → ScreenedAt screen (s.stage req) (s.heap req) (s.isValidated req)

theorem Screened.of_ranked (hscreened : Screened screen s) (htune : s.IsTune req)
    (hranked : (s.stage req).ranked) : screen.given (s.heap req) ∧ screen.passed (s.heap req) :=
  ⟨(hscreened req htune).given, (hscreened req htune).passed (Or.inr hranked)⟩

/-- What is in the table is a tune request. -/
theorem isTune_of_live (hinv : Inv env s) (hlive : s.stage req = .live) : s.IsTune req := by
  have hused : s.stage req ≠ .unused := by
    rw [hlive]
    decide
  have hfits := hinv.fits req hused
  rw [hlive] at hfits
  exact ⟨hused, by simpa [Stage.fits] using hfits⟩

theorem work_table : (s.work env req answer).table = s.table := by
  unfold work
  cases s.stage req with
  | unused | queued | held | live | freed | lost => rfl
  | globalRateLimit | createClient | disable | rateLimit | verifyHandle | shouldBeAdded | add =>
    simp only [proceed]
    split <;> rfl
  | clientCheck | verify | enqueue =>
    simp only [proceed, addAndWakeup]
    repeat' split
    all_goals rfl

theorem ScreenedAt.move {stage stage' : Stage} {request : Request} {isValidated : Bool}
    (h : ScreenedAt screen stage request isValidated) (hranked : stage'.ranked → stage.ranked) :
    ScreenedAt screen stage' request isValidated :=
  ⟨h.given, fun hr => h.passed (hr.imp id hranked)⟩

/-- A worker that goes on or frees its message. -/
theorem ScreenedAt.proceed {stage stage' : Stage} {request : Request} {isValidated b : Bool}
    (h : ScreenedAt screen stage request isValidated) (hranked : stage'.ranked → stage.ranked) :
    ScreenedAt screen (if b then stage' else .freed) request isValidated := by
  cases b with
  | true => exact h.move hranked
  | false => exact h.move fun hr => by cases hr

/-- The same request with another duration and another timer. -/
theorem ScreenedAt.retimed {stage : Stage} {request request' : Request} {isValidated : Bool}
    (h : ScreenedAt screen stage request isValidated) (hretimed : Retimed request request') :
    ScreenedAt screen stage request' isValidated :=
  ⟨screen.given_retimed hretimed h.given,
    fun hr => screen.passed_retimed hretimed (h.passed hr)⟩

theorem screenedAt_of_work (hinv : Inv env s) (hworking : (s.stage req).working)
    (htype : (s.heap req).mReqType = .REQ_RESOURCE_TUNING)
    (hat : ScreenedAt screen (s.stage req) (s.heap req) (s.isValidated req)) :
    ScreenedAt screen ((s.work env req answer).stage req) ((s.work env req answer).heap req)
      (s.isValidated req) := by
  have hfits := hinv.fits req (by intro h; rw [h] at hworking; cases hworking)
  cases hstage : s.stage req with
  | unused | queued | held | live | freed | lost =>
    rw [hstage] at hworking
    cases hworking
  | disable | verifyHandle =>
    rw [hstage] at hfits
    simp [Stage.fits, htype] at hfits
  | globalRateLimit | createClient | shouldBeAdded | add =>
    rw [hstage] at hat
    simp only [work, hstage, proceed_heap, proceed_stage_self]
    exact hat.proceed (by decide)
  | rateLimit =>
    rw [hstage] at hat
    simp only [work, hstage, htype, if_true, proceed_heap, proceed_stage_self]
    exact hat.proceed (by decide)
  | clientCheck =>
    rw [hstage] at hat
    simp only [work, hstage, htype, goto_stage_self, goto_heap]
    exact hat.move (by split <;> decide)
  | verify =>
    rw [hstage] at hat
    simp only [work, hstage]
    split
    · rename_i hvalidated
      simp only [goto_stage_self, goto_heap]
      exact ⟨hat.given, fun _ => hat.passed (Or.inl hvalidated)⟩
    · split
      · simp only [cleanUpRequest_stage_self, cleanUpRequest_heap]
        exact hat.move (by decide)
      · rename_i hverify
        simp only [goto_stage_self, goto_heap, Function.update_self]
        obtain ⟨hgiven, hpassed⟩ := screen.verify hverify hat.given
        exact ⟨hgiven, fun _ => hpassed⟩
  | enqueue =>
    rw [hstage] at hat
    simp only [work, hstage, addAndWakeup]
    split <;>
      (simp only [goto_stage_self, goto_heap]; exact hat.move (by decide))

theorem screened_of_next (hinv : Inv env s) (henabled : s.Enabled e) (hadmits : screen.Admits e)
    (hscreened : Screened screen s) : Screened screen (next env s e) := by
  intro r htune'
  rcases isTune_of_next hinv henabled htune' with ⟨htune, -⟩ | ⟨request, isValidated, rfl, htype⟩
  · have hat := hscreened r htune
    cases e with
    | receive req request isValidated =>
      have hne : r ≠ req := by
        rintro rfl
        exact htune.1 henabled.1
      simpa only [next, arrive, goto, Function.update_of_ne hne] using hat
    | work req answer =>
      rw [next, work_isValidated]
      by_cases hne : r = req
      · subst hne
        exact screenedAt_of_work hinv henabled htune.2 hat
      · obtain ⟨hstage, hheap⟩ := (work_frame env s req answer).2.2 r hne
        rwa [hstage, hheap]
    | pop req =>
      obtain ⟨-, hqueued, -⟩ := henabled
      rw [next, pop_heap, pop_isValidated]
      by_cases hne : r = req
      · subst hne
        rw [hqueued] at hat
        exact hat.move fun _ => rfl
      · rwa [pop_stage_of_ne hne]
    | consume answer =>
      obtain ⟨hretimed, hstage⟩ := consume_message answer hinv r
      rw [next, consume_isValidated]
      refine ScreenedAt.retimed (hat.move fun hranked => ?_) hretimed
      rcases hstage with heq | ⟨-, heq⟩ | ⟨hheld, -⟩
      · rwa [heq] at hranked
      · rw [heq] at hranked
        cases hranked
      · rw [hheld]
        rfl
    | timerExpired req target duration =>
      have hne : r ≠ req := by
        rintro rfl
        exact htune.1 henabled.1
      rw [next, addAndWakeup_stage_of_ne hne, addAndWakeup_heap, addAndWakeup_isValidated]
      simpa only [arrive, Function.update_of_ne hne] using hat
  · -- a message that has just arrived
    obtain ⟨hgiven, htrusted⟩ := hadmits htype
    simp only [next, arrive, goto, Function.update_self, htype, if_true]
    refine ⟨hgiven, fun h => h.elim htrusted fun hranked => ?_⟩
    cases hranked

end Server

/-! ## The messages of clients -/

/-- A translated signal has one node for each of its resources, at the index of the resource. -/
theorem distinct_of_addSignalResources {signal : Signal} {blocks : TranslationBlocks} {ptr : Nat}
    {locks : List (Option Resource)} {i listIndex : Nat} {request request' : Request}
    (hbelow : ∀ node ∈ request.nodes, node.addr.2 < i)
    (hdistinct : (request.nodes.map (·.addr)).Nodup)
    (h : addSignalResources signal blocks ptr locks i listIndex request = .ok (some request')) :
    (request'.nodes.map (·.addr)).Nodup := by
  induction locks generalizing i listIndex request with
  | nil =>
    obtain rfl : request = request' := by simpa [addSignalResources] using h
    exact hdistinct
  | cons lock locks ih =>
    cases lock with
    | none => exact ih (fun node hnode => Nat.lt_succ_of_lt (hbelow node hnode)) hdistinct h
    | some lock =>
      unfold addSignalResources at h
      split at h
      · cases h
      split at h
      · cases h
      · cases h
      · rename_i resource listIndex' _
        split at h
        · cases h
        · -- the new node lies behind the others, or the list could not be allocated
          have hnodes : (request.addResource (blocks.list i) ⟨(ptr, i), some resource⟩).nodes =
                request.nodes ∨
              (request.addResource (blocks.list i) ⟨(ptr, i), some resource⟩).nodes =
                request.nodes ++ [⟨(ptr, i), some resource⟩] := by
            unfold Request.addResource Request.nodes
            cases hlist : request.mResourceList <;> cases blocks.list i <;>
              simp [hlist, DLManager.insert]
          refine ih ?_ ?_ h
          · intro node hnode
            rcases hnodes with heq | heq
            · rw [heq] at hnode
              exact Nat.lt_succ_of_lt (hbelow node hnode)
            · rw [heq, List.mem_append, List.mem_singleton] at hnode
              rcases hnode with hnode | rfl
              · exact Nat.lt_succ_of_lt (hbelow node hnode)
              · exact Nat.lt_succ_self i
          · rcases hnodes with heq | heq
            · rwa [heq]
            · rw [heq, List.map_append, List.map_singleton]
              refine hdistinct.append (List.nodup_singleton _) fun addr hold hnew => ?_
              obtain ⟨node, hnode, rfl⟩ := List.mem_map.mp hold
              have hlt := hbelow node hnode
              rw [List.mem_singleton.mp hnew] at hlt
              exact absurd hlt (Nat.lt_irrefl i)

/-- What the two front ends make of a message from the socket has nodes of its own. -/
theorem Server.FromSocket.distinct {registry : SignalRegistry} {req : ReqPtr} {request : Request}
    {isValidated : Bool} (h : Server.FromSocket registry req request isValidated) :
    (request.nodes.map (·.addr)).Nodup := by
  cases h with
  | @resource _ _ _ _ raw type _ _ _ _ =>
    have hnodes : ((raw.toRequest type req).nodes.map (·.addr)).Nodup := by
      simp only [RawRequest.toRequest, Request.nodes]
      cases raw.mResourceList with
      | none => exact List.nodup_nil
      | some list =>
        have haddrs : (list.2.zipIdx.map fun entry =>
            (⟨(req, entry.2), some entry.1.mData⟩ : ResIterable)).map (·.addr) =
              (List.range' 0 list.2.length).map fun i => (req, i) := by
          rw [List.map_map, ← List.zipIdx_map_snd 0 list.2, List.map_map]
          rfl
        simp only [Option.map_some, Option.getD_some, haddrs]
        exact List.Nodup.map (fun i j h => (Prod.mk.inj h).2) List.nodup_range'
    split <;> exact hnodes
  | signalTuning read byte verified translated =>
    unfold createResourceTuningRequest at translated
    split at translated
    · cases translated
    · split at translated
      · cases translated
      · split at translated
        · cases translated
        · refine distinct_of_addSignalResources ?_ ?_ translated
          · intro node hnode
            cases hnode
          · exact List.nodup_nil
  | signalUntuning => exact List.nodup_nil

/-- No tune request from the socket skips the verifier. -/
theorem Screen.admits_of_fromSocket {env : Env} {screen : Screen env} {registry : SignalRegistry}
    {req : ReqPtr} {request : Request} {isValidated : Bool}
    (h : Server.FromSocket registry req request isValidated) (hgiven : screen.given request) :
    screen.Admits (.receive req request isValidated) := by
  refine fun htype => ⟨hgiven, fun hvalidated => ?_⟩
  rw [h.unvalidated htype] at hvalidated
  cases hvalidated

/-- A message that arrives was made of the bytes a client has sent, or it is one of the server's own (the
classifier, the collector and the timers submit some), which the screen admits. -/
def Screen.Submitted {env : Env} (screen : Screen env) (registry : SignalRegistry) :
    Server.Event → Prop
  | .receive req request isValidated =>
    Server.FromSocket registry req request isValidated ∨
      screen.Admits (.receive req request isValidated)
  | .work _ _ | .pop _ | .consume _ | .timerExpired _ _ _ => True

/-- In particular whatever the screen admits may be submitted. -/
theorem Screen.submitted_of_admits {env : Env} {screen : Screen env} {registry : SignalRegistry}
    {e : Server.Event} (h : screen.Admits e) : screen.Submitted registry e := by
  cases e with
  | receive => exact Or.inr h
  | work | pop | consume | timerExpired => trivial

/-- The table can take what clients send, whatever bytes these are: the front ends make nodes of their
own for every message, and no message of a client skips the verifier. -/
theorem tableScreen_admits {env : Env} {registry : SignalRegistry} {e : Server.Event}
    (h : (tableScreen env).Submitted registry e) : (tableScreen env).Admits e := by
  cases e with
  | receive req request isValidated =>
    rcases h with hclient | hown
    · exact Screen.admits_of_fromSocket hclient hclient.distinct
    · exact hown
  | work | pop | consume | timerExpired => trivial

end ResourceTuner
