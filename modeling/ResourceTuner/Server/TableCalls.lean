import ResourceTuner.Core.TableLedger
import ResourceTuner.Server.Screening

/-!
# The table behind the server

The consumer is the only thread that touches the table.  Whatever the workers and the timers do in the
meantime, the table goes through a run of calls as the table wants them: every request that is inserted
was verified and has nodes of its own, and a request is removed once, while it is live.  So what is
known of the runs of a table is known of the server.

* **`tableOps`** — what an event does to the table;
* **`TableRun`** — the table of the server is the table of a run of calls;
* **`tableRun_of_next`** — every event continues it;
* **`lists_of_run`**, **`awarded_of_run`** — what follows for the lists and the global resources.
-/

namespace ResourceTuner

namespace Server

variable {env : Env} {s s' : Server} {e : Event} {req : ReqPtr} {answer : Answer}

/-! ## What an event does to the table -/

/-- The operations of an event on the nodes of the table. -/
def tableOps (env : Env) (s : Server) : Event → List CocoTable.NodeOp
  | .consume answer =>
    match s.consumer with
    | .insert req =>
      if (s.table.insertRequest env (s.heap req) answer.timerBlock answer.enqueued).1 then
        (CocoTable.Call.insertRequest (s.heap req)).ops
      else []
    | .remove _ target => (CocoTable.Call.removeRequest (s.heap target)).ops
    | _ => []
  | .receive _ _ _ | .work _ _ | .pop _ | .timerExpired _ _ _ => []

/-- The consumer does not insert a request whose timer was allocated and will not start. -/
def InsertsWhole (s : Server) : Event → Prop
  | .consume answer => ∀ req ∈ s.consumer.item, s.consumer = .insert req →
    (s.heap req).mDuration = -1 ∨ answer.timerBlock = none ∨
      CocoTable.startTimer (s.heap req).mDuration answer.enqueued
  | .receive _ _ _ | .work _ _ | .pop _ | .timerExpired _ _ _ => True

instance (s : Server) (e : Event) : Decidable (InsertsWhole s e) :=
  match e with
  | .consume _ => inferInstanceAs (Decidable (∀ req ∈ _, _ → _ ∨ _ ∨ _))
  | .receive _ _ _ | .work _ _ | .pop _ | .timerExpired _ _ _ => .isTrue trivial

/-- The request is inserted and not removed. -/
def InTable (s : Server) (req : ReqPtr) : Prop :=
  s.stage req = .live ∧ ∀ r, s.consumer ≠ .untrack r req

/-- The table is what a run of calls with these operations leads to, and the live requests of the run
are those in the table, up to their durations and timers. -/
structure TableRun (env : Env) (s : Server) (ops : List CocoTable.NodeOp)
    (calls : List CocoTable.Call) (live : List (ReqPtr × Request)) : Prop where
  ops : CocoTable.callOps calls = ops
  run : Run env calls s.table (live.map Prod.snd)
  nodup : (live.map Prod.fst).Nodup
  inTable : ∀ req, req ∈ live.map Prod.fst ↔ s.InTable req
  same : ∀ entry ∈ live, Retimed entry.2 (s.heap entry.1)

/-- An event that leaves the table alone. -/
theorem TableRun.frame {ops : List CocoTable.NodeOp} {calls : List CocoTable.Call}
    {live : List (ReqPtr × Request)} (h : TableRun env s ops calls live)
    (htable : s'.table = s.table) (hin : ∀ req, s'.InTable req ↔ s.InTable req)
    (hsame : ∀ req, s.InTable req → Retimed (s.heap req) (s'.heap req)) :
    TableRun env s' ops calls live where
  ops := h.ops
  run := by
    rw [htable]
    exact h.run
  nodup := h.nodup
  inTable req := (h.inTable req).trans (hin req).symm
  same entry hentry := (h.same entry hentry).trans
    (hsame entry.1 ((h.inTable entry.1).mp (List.mem_map_of_mem hentry)))

/-- Nothing is live that a worker has a call to make for, neither before nor after the call. -/
theorem work_stage_ne_live (hworking : (s.stage req).working) :
    (s.work env req answer).stage req ≠ .live := by
  by_cases henqueue : s.stage req = .enqueue
  · simp only [work, henqueue, addAndWakeup]
    split <;> simp
  · intro hlive
    rcases (work_self env s answer hworking henqueue).2 with h | h
    · rw [hlive] at h
      cases h
    · rw [hlive] at h
      cases h

/-- The workers, the timers and the queue have no part in the table. -/
theorem TableRun.others {ops : List CocoTable.NodeOp} {calls : List CocoTable.Call}
    {live : List (ReqPtr × Request)} (h : TableRun env s ops calls live) (henabled : s.Enabled e)
    (hothers : ∀ answer, e ≠ .consume answer) : TableRun env (next env s e) ops calls live := by
  cases e with
  | consume answer => exact absurd rfl (hothers answer)
  | receive req request isValidated =>
    have hunused : s.stage req = .unused := henabled.1
    refine h.frame rfl (fun r => ?_) fun r hr => ?_
    · simp only [InTable, next, arrive, goto]
      grind
    · have hne : r ≠ req := by
        rintro rfl
        rw [hr.1] at hunused
        cases hunused
      simp only [next, goto_heap, arrive, Function.update_of_ne hne]
      exact ⟨_, _, rfl⟩
  | work req answer =>
    have hworking : (s.stage req).working := henabled
    obtain ⟨hconsumer, -, hframe⟩ := work_frame env s req answer
    have hnot : s.stage req ≠ .live := by
      intro hlive
      rw [hlive] at hworking
      cases hworking
    refine h.frame work_table (fun r => ?_) fun r hr => ?_
    · simp only [InTable, next, hconsumer]
      by_cases hne : r = req
      · subst hne
        exact iff_of_false (fun hin => work_stage_ne_live hworking hin.1) fun hin => hnot hin.1
      · rw [(hframe r hne).1]
    · have hne : r ≠ req := by
        rintro rfl
        exact hnot hr.1
      rw [next, (hframe r hne).2]
      exact ⟨_, _, rfl⟩
  | pop req =>
    obtain ⟨hidle, hqueued, -⟩ := henabled
    refine h.frame pop_table (fun r => ?_) fun r hr => ?_
    · simp only [InTable, next, pop]
      split
      · simp only [goto]
        grind
      · split
        all_goals
          simp only [turn, goto]
          grind
    · rw [next, pop_heap]
      exact ⟨_, _, rfl⟩
  | timerExpired req target duration =>
    have hunused : s.stage req = .unused := henabled.1
    obtain ⟨stage, hstage⟩ := addAndWakeup_eq_goto
      (s.arrive req ((s.heap target).populateUntuneRequest duration) true) req
    have hnot : ((s.arrive req ((s.heap target).populateUntuneRequest duration) true).addAndWakeup
        req).stage req ≠ .live := by
      simp only [addAndWakeup]
      split <;> simp
    refine h.frame ?_ (fun r => ?_) fun r hr => ?_
    · rw [next, hstage]
      rfl
    · simp only [InTable, next, addAndWakeup_consumer, arrive] at hnot ⊢
      by_cases hne : r = req
      · subst hne
        exact iff_of_false (fun hin => hnot hin.1) fun hin => by
          rw [hin.1] at hunused
          cases hunused
      · rw [addAndWakeup_stage_of_ne hne]
    · have hne : r ≠ req := by
        rintro rfl
        rw [hr.1] at hunused
        cases hunused
      simp only [next, addAndWakeup_heap, arrive, Function.update_of_ne hne]
      exact ⟨_, _, rfl⟩

/-- A call of the consumer that leaves the table alone, and at the end of which the requests in the table
are those before it. -/
theorem TableRun.stay {ops : List CocoTable.NodeOp} {calls : List CocoTable.Call}
    {live : List (ReqPtr × Request)} (h : TableRun env s ops calls live) (hinv : Inv env s)
    (hops : tableOps env s (.consume answer) = []) (htable : (s.consume env answer).table = s.table)
    (hin : ∀ req, (s.consume env answer).InTable req ↔ s.InTable req) :
    TableRun env (next env s (.consume answer)) (ops ++ tableOps env s (.consume answer)) calls live := by
  rw [hops, List.append_nil]
  exact h.frame htable hin fun req _ => (consume_message answer hinv req).1

/-- The consumer inserts a request. -/
theorem TableRun.insert {ops : List CocoTable.NodeOp} {calls : List CocoTable.Call}
    {live : List (ReqPtr × Request)} (h : TableRun env s ops calls live) (hinv : Inv env s)
    (hscreened : Screened (tableScreen env) s) (hconsumer : s.consumer = .insert req)
    (hinserted : (s.table.insertRequest env (s.heap req) answer.timerBlock answer.enqueued).1) :
    TableRun env (next env s (.consume answer)) (ops ++ tableOps env s (.consume answer))
      (calls ++ [.insertRequest (s.heap req)])
      ((req, (s.table.insertRequest env (s.heap req) answer.timerBlock answer.enqueued).2.2) ::
        live) := by
  have hheld := hinv.held (show s.consumer.item = some req by rw [hconsumer]; rfl)
  have hok := hinv.consumer
  rw [ConsumerOk, hconsumer] at hok
  obtain ⟨hdistinct, hverified⟩ := hscreened.of_ranked hok (by rw [hheld]; rfl)
  have hnodup : (s.heap req).nodes.Nodup := List.Nodup.of_map _ hdistinct
  -- a node of a request in the table belongs to that request
  have hfresh : ∀ node ∈ (s.heap req).nodes, node ∉ liveNodes (live.map Prod.snd) := by
    intro node hnode hlive
    obtain ⟨request, hrequest, hmem⟩ := List.mem_flatMap.mp hlive
    obtain ⟨⟨r, _⟩, hentry, rfl⟩ := List.mem_map.mp hrequest
    have hr := (h.inTable r).mp (List.mem_map_of_mem hentry)
    rw [← (h.same _ hentry).links.1] at hmem
    have hown := hinv.owned r (by rw [hr.1]; decide) node hmem
    have hown' := hinv.owned req (by rw [hheld]; decide) node hnode
    rw [hown'] at hown
    obtain rfl := hown
    rw [hr.1] at hheld
    cases hheld
  have hnext : next env s (.consume answer) = (({ s with
      table := (s.table.insertRequest env (s.heap req) answer.timerBlock answer.enqueued).2.1
      heap := Function.update s.heap req
        (s.table.insertRequest env (s.heap req) answer.timerBlock answer.enqueued).2.2 }).goto req
          .live).turn .idle := by
    simp only [next, consume, hconsumer, hinserted, if_true]
  have hnot : req ∉ live.map Prod.fst := by
    intro hmem
    have hin := ((h.inTable req).mp hmem).1
    rw [hheld] at hin
    cases hin
  rw [hnext]
  refine ⟨?_, ?_, List.nodup_cons.mpr ⟨hnot, h.nodup⟩, fun r => ?_, fun entry hentry => ?_⟩
  · simp [CocoTable.callOps, tableOps, hconsumer, hinserted, ← h.ops]
  · exact h.run.insert hverified hnodup hfresh
      (Prod.ext hinserted (Prod.ext rfl rfl) :
        _ = (true, (s.table.insertRequest env (s.heap req) answer.timerBlock answer.enqueued).2.1, _))
  · rw [List.map_cons, List.mem_cons, h.inTable]
    simp only [InTable, turn, goto, hconsumer]
    grind
  · rcases List.mem_cons.mp hentry with rfl | hold
    · simp only [turn, goto, Function.update_self]
      exact ⟨_, _, rfl⟩
    · have hne : entry.1 ≠ req := fun heq => hnot (heq ▸ List.mem_map_of_mem hold)
      simp only [turn, goto, Function.update_of_ne hne]
      exact h.same entry hold

/-- Two entries of the run are of two requests. -/
theorem TableRun.request_inj {ops : List CocoTable.NodeOp} {calls : List CocoTable.Call}
    {live : List (ReqPtr × Request)} (h : TableRun env s ops calls live) (hinv : Inv env s)
    {entry entry' : ReqPtr × Request} (hentry : entry ∈ live) (hentry' : entry' ∈ live)
    (heq : entry.2 = entry'.2) : entry.1 = entry'.1 := by
  have htune := isTune_of_live hinv ((h.inTable entry.1).mp (List.mem_map_of_mem hentry)).1
  have htune' := isTune_of_live hinv ((h.inTable entry'.1).mp (List.mem_map_of_mem hentry')).1
  refine hinv.unique _ _ htune htune' ?_
  rw [(h.same entry hentry).kept.handle, (h.same entry' hentry').kept.handle, heq]

/-- The consumer removes a request. -/
theorem TableRun.remove {ops : List CocoTable.NodeOp} {calls : List CocoTable.Call}
    {live : List (ReqPtr × Request)} (h : TableRun env s ops calls live) (hinv : Inv env s)
    {target : ReqPtr} (hconsumer : s.consumer = .remove req target) :
    ∃ calls' live', TableRun env (next env s (.consume answer))
      (ops ++ tableOps env s (.consume answer)) calls' live' := by
  have hok := hinv.consumer
  rw [ConsumerOk, hconsumer] at hok
  have hin : s.InTable target := ⟨hok.2.2.1, by simp [hconsumer]⟩
  obtain ⟨request, hentry⟩ : ∃ request, (target, request) ∈ live := by
    obtain ⟨⟨_, request⟩, hmem, rfl⟩ := List.mem_map.mp ((h.inTable target).mpr hin)
    exact ⟨request, hmem⟩
  obtain ⟨hnodes, hpriority⟩ := (h.same _ hentry).links
  obtain ⟨before, after, rfl⟩ := List.append_of_mem hentry
  have hnodup := h.nodup
  rw [List.map_append, List.map_cons] at hnodup
  have hother : target ∉ (before ++ after).map Prod.fst := by
    rw [List.map_append]
    exact (List.nodup_middle.mp hnodup |> List.nodup_cons.mp).1
  have hfirst : request ∉ before.map Prod.snd := by
    intro hmem
    obtain ⟨⟨r, _⟩, hr, rfl⟩ := List.mem_map.mp hmem
    have hsame : r = target := h.request_inj hinv (List.mem_append_left _ hr) hentry rfl
    exact hother (hsame ▸ List.mem_map_of_mem (List.mem_append_left _ hr))
  have hnext : next env s (.consume answer) =
      ({ s with table := s.table.removeRequest env (s.heap target) }).turn (.untrack req target) := by
    simp only [next, consume, hconsumer]
  have hcall : s.table.removeRequest env (s.heap target) = s.table.removeRequest env request := by
    rw [CocoTable.removeRequest_eq, CocoTable.removeRequest_eq, hnodes, hpriority]
  have hrun : Run env (calls ++ [.removeRequest request]) _ _ :=
    h.run.remove (List.mem_map_of_mem hentry)
  rw [List.map_append, List.map_cons, List.erase_append_right _ hfirst, List.erase_cons_head,
    ← List.map_append] at hrun
  rw [hnext]
  refine ⟨calls ++ [.removeRequest request], before ++ after, ?_, ?_, ?_, fun r => ?_,
    fun entry hentry => ?_⟩
  · simp [CocoTable.callOps, tableOps, hconsumer, ← h.ops, CocoTable.Call.ops, hnodes, hpriority]
  · simpa only [turn, hcall] using hrun
  · rw [List.map_append]
    exact (List.nodup_middle.mp hnodup |> List.nodup_cons.mp).2
  · have hold := h.inTable r
    simp only [List.map_append, List.map_cons, List.mem_append, List.mem_cons] at hold hother ⊢
    simp only [InTable, turn, hconsumer] at hold ⊢
    grind
  · exact h.same entry (by simp only [List.mem_append, List.mem_cons] at hentry ⊢; tauto)

/-- A request that has a list and is not inserted whole leaves the table as it was. -/
theorem insertRequest_of_refused {t : CocoTable} {request : Request} {timerBlock : Option Nat}
    {enqueued : Bool} (hlist : request.mResourceList.isSome)
    (hwhole : request.mDuration = -1 ∨ timerBlock = none ∨
      CocoTable.startTimer request.mDuration enqueued)
    (hrefused : ¬ (t.insertRequest env request timerBlock enqueued).1 = true) :
    (t.insertRequest env request timerBlock enqueued).2.1 = t := by
  obtain ⟨nodes, hnodes⟩ := Option.isSome_iff_exists.mp hlist
  unfold CocoTable.insertRequest at hrefused ⊢
  split
  · rfl
  · rename_i hblock
    rw [if_neg hblock] at hrefused
    simp only [hnodes] at hrefused ⊢
    split at hrefused
    · rename_i hstart
      rcases hwhole with h | h | h
      · exact absurd h hstart.1
      · exact absurd ⟨hstart.1, h⟩ hblock
      · exact absurd h hstart.2
    · exact absurd rfl hrefused

theorem TableRun.consume {ops : List CocoTable.NodeOp} {calls : List CocoTable.Call}
    {live : List (ReqPtr × Request)} (h : TableRun env s ops calls live) (hinv : Inv env s)
    (hscreened : Screened (tableScreen env) s) (hwhole : InsertsWhole s (.consume answer)) :
    ∃ calls' live', TableRun env (next env s (.consume answer))
      (ops ++ tableOps env s (.consume answer)) calls' live' := by
  have hitem : ∀ req, s.consumer.item = some req → s.stage req = .held := fun _ => hinv.held
  cases hconsumer : s.consumer with
  | remove req target => exact h.remove hinv hconsumer
  | insert req =>
    by_cases hinserted :
        (s.table.insertRequest env (s.heap req) answer.timerBlock answer.enqueued).1 = true
    · exact ⟨_, _, h.insert hinv hscreened hconsumer hinserted⟩
    · have hok := hinv.consumer
      rw [ConsumerOk, hconsumer] at hok
      have hheld := hitem req (by rw [hconsumer]; rfl)
      have hverified : Verified env (s.heap req) := (hscreened.of_ranked hok (by rw [hheld]; rfl)).2
      have hstarts := hwhole req (by rw [hconsumer]; rfl) hconsumer
      have htable := insertRequest_of_refused hverified.list hstarts hinserted
      refine ⟨calls, live, h.stay hinv ?_ ?_ fun r => ?_⟩
      · simp only [tableOps, hconsumer, if_neg hinserted]
      · simp only [Server.consume, hconsumer, if_neg hinserted]
        exact htable
      · simp only [InTable, Server.consume, hconsumer, if_neg hinserted, turn]
        grind
  | idle | crashed =>
    refine ⟨calls, live, h.stay hinv ?_ ?_ fun r => ?_⟩
    · simp only [tableOps, hconsumer]
    · simp only [Server.consume, hconsumer]
    · simp only [InTable, Server.consume, hconsumer]
  | mark req =>
    refine ⟨calls, live, h.stay hinv ?_ ?_ fun r => ?_⟩
    · simp only [tableOps, hconsumer]
    · simp only [Server.consume, hconsumer]
      rfl
    · simp only [InTable, Server.consume, hconsumer, turn]
      grind
  | discard req =>
    have hheld := hitem req (by rw [hconsumer]; rfl)
    refine ⟨calls, live, h.stay hinv ?_ ?_ fun r => ?_⟩
    · simp only [tableOps, hconsumer]
    · simp only [Server.consume, hconsumer]
      rfl
    · simp only [InTable, Server.consume, hconsumer, turn, cleanUpRequest, goto]
      grind
  | untrack req target =>
    have hheld := hitem req (by rw [hconsumer]; rfl)
    refine ⟨calls, live, h.stay hinv ?_ ?_ fun r => ?_⟩
    · simp only [tableOps, hconsumer]
    · simp only [Server.consume, hconsumer]
      rfl
    · simp only [InTable, Server.consume, hconsumer, turn, cleanUpRequest, goto]
      grind
  | status req =>
    refine ⟨calls, live, h.stay hinv ?_ ?_ fun r => ?_⟩
    · simp only [tableOps, hconsumer]
    · simp only [Server.consume, hconsumer]
      split <;> rfl
    · simp only [InTable, Server.consume, hconsumer]
      split <;>
        (simp only [turn]; grind)
  | find req =>
    have hheld := hitem req (by rw [hconsumer]; rfl)
    refine ⟨calls, live, h.stay hinv ?_ ?_ fun r => ?_⟩
    · simp only [tableOps, hconsumer]
    · simp only [Server.consume, hconsumer]
      repeat' split
      all_goals rfl
    · simp only [InTable, Server.consume, hconsumer]
      repeat' split
      all_goals
        simp only [turn, cleanUpRequest, goto]
        grind
  | update req target status =>
    have hheld := hitem req (by rw [hconsumer]; rfl)
    refine ⟨calls, live, h.stay hinv ?_ ?_ fun r => ?_⟩
    · simp only [tableOps, hconsumer]
    · simp only [Server.consume, hconsumer]
      repeat' split
      all_goals rfl
    · simp only [InTable, Server.consume, hconsumer]
      repeat' split
      all_goals
        simp only [turn, cleanUpRequest, goto]
        grind

/-- **Every event continues the run of the table.** -/
theorem tableRun_of_next {ops : List CocoTable.NodeOp} (hinv : Inv env s) (hscreened : Screened (tableScreen env) s)
    (henabled : s.Enabled e) (hwhole : InsertsWhole s e)
    (h : ∃ calls live, TableRun env s ops calls live) :
    ∃ calls live, TableRun env (next env s e) (ops ++ tableOps env s e) calls live := by
  obtain ⟨calls, live, h⟩ := h
  cases e with
  | consume answer => exact h.consume hinv hscreened hwhole
  | receive | work | pop | timerExpired =>
    rw [tableOps, List.append_nil]
    exact ⟨calls, live, h.others henabled fun answer heq => by cases heq⟩

/-! ## Every reachable state -/

section Runs

variable {heap : Heap} {events : List Event}

/-- What the consumer has done to the table in the course of a run. -/
def tableHistory (env : Env) (heap : Heap) (events : List Event) : List CocoTable.NodeOp :=
  (machine env).recorded (tableOps env) (init heap) events

/-- What is known of a state and of what the consumer has done to the table so far. -/
def Known (env : Env) (s : Server) (ops : List CocoTable.NodeOp) : Prop :=
  Inv env s ∧ Screened (tableScreen env) s ∧ ∃ calls live, TableRun env s ops calls live

theorem tableRun_of_run (hrun : (machine env).Run (init heap) events)
    (hadmits : ∀ e ∈ events, (tableScreen env).Admits e)
    (hwhole : (machine env).Steps InsertsWhole (init heap) events) :
    ∃ calls live, TableRun env ((machine env).exec (init heap) events) (tableHistory env heap events)
      calls live := by
  have hinit : TableRun env (init heap) [] [] [] := by
    refine ⟨rfl, .nil, List.nodup_nil, fun req => ?_, fun entry h => by cases h⟩
    simp [InTable, init]
  have hsteps := (hrun.and ((Machine.steps_of_forall hadmits).and hwhole))
  have hinv : Known env (init heap) [] :=
    ⟨inv_init heap, fun req htune => absurd rfl htune.1, [], [], hinit⟩
  have hstep : ∀ s e ops, Known env s ops →
      (machine env).Enabled s e ∧ (tableScreen env).Admits e ∧ InsertsWhole s e →
        Known env ((machine env).next s e) (ops ++ tableOps env s e) := by
    rintro s e ops ⟨hinv, hscreened, htable⟩ ⟨henabled, hadmits, hwhole⟩
    exact ⟨inv_of_effect hinv (effect_of_enabled hinv henabled),
      screened_of_next hinv henabled hadmits hscreened,
      tableRun_of_next hinv hscreened henabled hwhole htable⟩
  have hrecorded := hsteps.invariant_recorded hinv hstep
  exact hrecorded.2.2

/-- The entries of the ledger are those of the requests in the table. -/
theorem TableRun.mem_arrivals {s : Server} {ops : List CocoTable.NodeOp}
    {calls : List CocoTable.Call} {live : List (ReqPtr × Request)} (h : TableRun env s ops calls live)
    {priority : Int} {node : ResIterable} : (priority, node) ∈ CocoTable.arrivals ops ↔
      ∃ req, s.InTable req ∧ node ∈ (s.heap req).nodes ∧ (s.heap req).getPriority = priority := by
  rw [← h.ops, h.run.accounted.2]
  constructor
  · rintro ⟨request, hrequest, hnode, rfl⟩
    obtain ⟨entry, hentry, rfl⟩ := List.mem_map.mp hrequest
    obtain ⟨hnodes, hpriority⟩ := (h.same entry hentry).links
    exact ⟨entry.1, (h.inTable entry.1).mp (List.mem_map_of_mem hentry), by rwa [hnodes], hpriority⟩
  · rintro ⟨req, hin, hnode, rfl⟩
    obtain ⟨entry, hentry, rfl⟩ := List.mem_map.mp ((h.inTable req).mpr hin)
    obtain ⟨hnodes, hpriority⟩ := (h.same entry hentry).links
    exact ⟨entry.2, List.mem_map_of_mem hentry, by rwa [← hnodes], hpriority.symm⟩

/-- **The lists of the server**: in every state of a run in which no request is inserted whose timer does
not start, the table is what its history of insertions and removals makes of an empty one.  Inserted and not removed are exactly the nodes of the requests in the
table, each once and under the priority of its request, and every list holds those that belong to it in
the order its policy wants, given the order in which they were inserted. -/
theorem lists_of_run {registry : SignalRegistry} (hrun : (machine env).Run (init heap) events)
    (hsubmitted : ∀ e ∈ events, (tableScreen env).Submitted registry e)
    (hwhole : (machine env).Steps InsertsWhole (init heap) events) :
    let s := (machine env).exec (init heap) events
    let arrived := CocoTable.arrivals (tableHistory env heap events)
    s.table = CocoTable.exec env (tableHistory env heap events) ∧
      (∀ priority node, (priority, node) ∈ arrived ↔
        ∃ req, s.InTable req ∧ node ∈ (s.heap req).nodes ∧ (s.heap req).getPriority = priority) ∧
      (arrived.map Prod.snd).Nodup ∧
      ∀ i k conf, env.resourceRegistry.mResourceConfigs[i]? = some conf →
        CocoTable.PolicyOrdered conf.mPolicy (CocoTable.waiting env arrived i k)
          (s.table.mCocoTable i k) := by
  obtain ⟨calls, live, h⟩ :=
    tableRun_of_run hrun (fun e he => tableScreen_admits (hsubmitted e he)) hwhole
  have hallowed := h.run.accounted.1
  rw [h.ops] at hallowed
  have hordered := CocoTable.ordered_foldl (CocoTable.ordered_new env) List.nodup_nil hallowed
  have htable := h.run.eq_exec
  rw [h.ops] at htable
  refine ⟨htable, fun priority node => h.mem_arrivals, hordered.2, ?_⟩
  rw [htable]
  exact hordered.1

/-- The request has a node for the resource. -/
def Wants (s : Server) (req : ReqPtr) (code : BitVec 32) : Prop :=
  ∃ node ∈ (s.heap req).nodes, node.mData.map (·.mResCode) = some code

instance (s : Server) (req : ReqPtr) (code : BitVec 32) : Decidable (s.Wants req code) :=
  inferInstanceAs (Decidable (∃ node ∈ _, _))

/-- **Who gets a global resource**: the last callback for it was the applier on a node of a request in
the table whose priority no other request for the resource has a stronger one than, and among the nodes
of that priority it is the one the policy prescribes, given the order in which they were inserted.  When
no request in the table is for the resource, it was torn down, or never applied. -/
structure Awards (s : Server) (policy : Policy) (code : BitVec 32)
    (arrived : List (Int × ResIterable)) : Prop where
  held : ∀ req, s.InTable req → s.Wants req code →
    (∀ other, s.InTable other → s.Wants other code →
      (s.heap req).getPriority ≤ (s.heap other).getPriority) →
    ∃ winner head, s.InTable winner ∧ head ∈ (s.heap winner).nodes ∧
      (s.heap winner).getPriority = (s.heap req).getPriority ∧
      CocoTable.Prescribed policy (CocoTable.claimants arrived code (s.heap req).getPriority) head ∧
      (CocoTable.callbacksOf s.table code).getLast? = some (.applier head)
  idle : (∀ req, s.InTable req → ¬ s.Wants req code) → CocoTable.callbacksOf s.table code = [] ∨
    ∃ node, (CocoTable.callbacksOf s.table code).getLast? = some (.tear node)

theorem TableRun.awards {s : Server} {ops : List CocoTable.NodeOp} {calls : List CocoTable.Call}
    {live : List (ReqPtr × Request)} (h : TableRun env s ops calls live) {code : BitVec 32}
    {conf : ResConfInfo} (hconf : env.getResConf code = some conf)
    (hglobal : conf.mApplyType = .APPLY_GLOBAL) (hpolicy : conf.mPolicy ≠ .PASS_THROUGH)
    (hmode : CocoTable.modeAllows env conf = true) :
    s.Awards conf.mPolicy code (CocoTable.arrivals ops) := by
  have hawarded := h.run.awarded hconf hglobal hpolicy hmode
  rw [h.ops] at hawarded
  have hclaims : ∀ priority node, node ∈ CocoTable.claimants (CocoTable.arrivals ops) code priority ↔
      (∃ req, s.InTable req ∧ node ∈ (s.heap req).nodes ∧ (s.heap req).getPriority = priority) ∧
        node.mData.map (·.mResCode) = some code := by
    intro priority node
    rw [CocoTable.mem_claimants, h.mem_arrivals]
  refine ⟨fun req hin ⟨node, hnode, hcode⟩ hstrongest => ?_, fun hnone => ?_⟩
  · have hclaimed : CocoTable.claimants (CocoTable.arrivals ops) code (s.heap req).getPriority ≠ [] :=
      List.ne_nil_of_mem ((hclaims _ node).mpr ⟨⟨req, hin, hnode, rfl⟩, hcode⟩)
    have hclear : ∀ stronger < (s.heap req).getPriority,
        CocoTable.claimants (CocoTable.arrivals ops) code stronger = [] := by
      intro stronger hlt
      refine List.eq_nil_iff_forall_not_mem.mpr fun other hother => ?_
      obtain ⟨⟨rival, hrival, hmem, rfl⟩, hfor⟩ := (hclaims _ other).mp hother
      have hle := hstrongest rival hrival ⟨other, hmem, hfor⟩
      omega
    obtain ⟨head, hprescribed, hlast⟩ := hawarded.held _ hclaimed hclear
    obtain ⟨⟨winner, hwinner, hmem, hpriority⟩, -⟩ :=
      (hclaims _ head).mp (CocoTable.mem_of_prescribed hprescribed)
    exact ⟨winner, head, hwinner, hmem, hpriority, hprescribed, hlast⟩
  · refine hawarded.idle fun priority => List.eq_nil_iff_forall_not_mem.mpr fun node hnode => ?_
    obtain ⟨⟨req, hin, hmem, -⟩, hcode⟩ := (hclaims _ node).mp hnode
    exact hnone req hin ⟨node, hmem, hcode⟩

/-- **Global resources are awarded** in every state of a run in which no request is inserted whose timer
does not start, whatever clients send and whatever order the threads take turns in. -/
theorem awarded_of_run {registry : SignalRegistry} {code : BitVec 32} {conf : ResConfInfo}
    (hconf : env.getResConf code = some conf) (hglobal : conf.mApplyType = .APPLY_GLOBAL)
    (hpolicy : conf.mPolicy ≠ .PASS_THROUGH) (hmode : CocoTable.modeAllows env conf = true)
    (hrun : (machine env).Run (init heap) events)
    (hsubmitted : ∀ e ∈ events, (tableScreen env).Submitted registry e)
    (hwhole : (machine env).Steps InsertsWhole (init heap) events) :
    ((machine env).exec (init heap) events).Awards conf.mPolicy code
      (CocoTable.arrivals (tableHistory env heap events)) := by
  obtain ⟨calls, live, h⟩ :=
    tableRun_of_run hrun (fun e he => tableScreen_admits (hsubmitted e he)) hwhole
  exact h.awards hconf hglobal hpolicy hmode

end Runs

end Server

namespace Sample

/-- Two tune requests for the global resource, of the same priority, one after the other. -/
def rivals : List Server.Event :=
  worker 1 (tune 1) 8 ++ drain 1 3 ++ worker 2 (request 2 1 [.ofValues (code 1) 0 0 [7]]) 7 ++
    drain 2 3

theorem rivals_run : (Server.machine env).Run server rivals := by decide

/-- Both are as a client would send them, and neither skips the verifier. -/
theorem rivals_submitted : ∀ e ∈ rivals, (tableScreen env).Submitted .empty e := by
  have hadmits : ∀ e ∈ rivals, (tableScreen env).Admits e := by decide
  exact fun e he => Screen.submitted_of_admits (hadmits e he)

theorem rivals_inTable : ((Server.machine env).exec server rivals).InTable 1 :=
  ⟨by decide, fun r => by simp [show ((Server.machine env).exec server rivals).consumer = .idle by decide]⟩

/-- Nothing but the two requests is in the table, and they have the same priority. -/
theorem rivals_strongest (other : ReqPtr)
    (hother : ((Server.machine env).exec server rivals).InTable other) :
    (((Server.machine env).exec server rivals).heap 1).getPriority ≤
      (((Server.machine env).exec server rivals).heap other).getPriority := by
  have hreceived : ((Server.machine env).exec server rivals).received = [2, 1] := by decide
  have hmem : other ∈ ((Server.machine env).exec server rivals).received := by
    by_contra hnot
    have hunused := ((Server.inv_of_run rivals_run).received other).mpr hnot
    exact Stage.noConfusion (hother.1.symm.trans hunused)
  rw [hreceived] at hmem
  simp only [List.mem_cons, List.not_mem_nil, or_false] at hmem
  rcases hmem with rfl | rfl <;> decide

end Sample

open Server

theorem lists_of_rivals :
    ((machine Sample.env).exec Sample.server Sample.rivals).table =
      CocoTable.exec Sample.env
        (tableHistory Sample.env (fun _ => Sample.message .REQ_PROP_GET 0 0 0) Sample.rivals) :=
  (lists_of_run Sample.rivals_run Sample.rivals_submitted (by decide)).1

theorem awarded_of_rivals : ∃ winner head,
    ((machine Sample.env).exec Sample.server Sample.rivals).InTable winner ∧
      head ∈ (((machine Sample.env).exec Sample.server Sample.rivals).heap winner).nodes ∧
      (CocoTable.callbacksOf ((machine Sample.env).exec Sample.server Sample.rivals).table
        (Sample.code 1)).getLast? = some (.applier head) := by
  have hconf : Sample.env.getResConf (Sample.code 1) =
      some Sample.globalConf.setLifeCycleCallbacks := by decide
  have hawards := awarded_of_run hconf rfl (by decide) (by decide) Sample.rivals_run
    Sample.rivals_submitted (by decide)
  obtain ⟨winner, head, hwinner, hmem, -, -, hlast⟩ :=
    hawards.held 1 Sample.rivals_inTable (by decide) fun other hother _ =>
      Sample.rivals_strongest other hother
  exact ⟨winner, head, hwinner, hmem, hlast⟩

end ResourceTuner
