import ResourceTuner.Server.Invariants

/-!
# Freed requests

The nodes of a request are part of the request: once it is freed, a list that still has one of them
hands freed memory to the next caller.  The consumer keeps requests in the table and requests in the
map together by marking a request before it is inserted and removing it from the table before it is
untracked.  The one way out is an insertion that answers false: the request is then untracked and
freed, and `insertRequest` answers false also after it has linked the nodes, when the timer does not
start.  A tune request is verified to have a duration a timer starts with, but a retune message that
is popped first sets any duration it likes.

* **`LinkOk`** — the nodes of one request are linked only while it is live;
* **`linkOk_of_effect`** — which lasts as long as no insertion fails half way;
* **`freed_unlinked_of_run`** — and what follows for every reachable state;
* **`freed_while_linked`** — a retune message to duration zero that overtakes its tune request.
-/

namespace ResourceTuner

namespace Server

variable {env : Env} {s s' : Server} {e : Event} {req : ReqPtr}

/-- A node of the request is linked only while the request is live and not yet unlinked, and it was
never freed with a node linked. -/
structure LinkOk (s : Server) (req : ReqPtr) : Prop where
  live : s.table.Linked req → s.stage req = .live ∧ ∀ r, s.consumer ≠ .untrack r req
  cleaned : ∀ entry ∈ s.cleaned, entry.1 = req → ¬ entry.2.Linked req

/-- If the consumer inserts the request in this step, the insertion does not fail half way. -/
def InsertStarts (env : Env) (req : ReqPtr) (s : Server) : Event → Prop
  | .consume answer => s.consumer = .insert req →
    CocoTable.Starts env (s.heap req) answer.timerBlock answer.enqueued
  | _ => True

instance (s : Server) (e : Event) : Decidable (InsertStarts env req s e) :=
  match e with
  | .consume _ => inferInstanceAs (Decidable (_ → _))
  | .receive _ _ _ | .work _ _ | .pop _ | .timerExpired _ _ _ => .isTrue trivial

/-- A request that is not live has no node to lose. -/
theorem LinkOk.not_linked (hok : LinkOk s req) (h : s.stage req ≠ .live) : ¬ s.table.Linked req :=
  fun hlinked => h (hok.live hlinked).1

/-- Effects that leave the lists alone: what is live and not being removed stays live, and what is
freed was not live or had been unlinked. -/
theorem LinkOk.frame (hok : LinkOk s req) (htable : s'.table = s.table)
    (hlive : s.stage req = .live → (∀ r, s.consumer ≠ .untrack r req) → s'.stage req = .live)
    (huntrack : ∀ r, s'.consumer = .untrack r req → s.consumer = .untrack r req)
    (hcleaned : ∀ entry ∈ s'.cleaned, entry ∈ s.cleaned ∨
      entry.2 = s.table ∧ (s.stage entry.1 = .live → ∃ r, s.consumer = .untrack r entry.1)) :
    LinkOk s' req where
  live hlinked := by
    rw [htable] at hlinked
    obtain ⟨h, hno⟩ := hok.live hlinked
    exact ⟨hlive h hno, fun r hr => hno r (huntrack r hr)⟩
  cleaned := by
    rintro entry hentry rfl
    rcases hcleaned entry hentry with h | ⟨htime, huntracking⟩
    · exact hok.cleaned entry h rfl
    · rw [htime]
      intro hlinked
      obtain ⟨h, hno⟩ := hok.live hlinked
      obtain ⟨r, hr⟩ := huntracking h
      exact hno r hr

/-- The removal finds every node of its request, since each is at home. -/
theorem not_linked_removeRequest (hinv : Inv env s) :
    ¬ (s.table.removeRequest env (s.heap req)).Linked req := by
  rintro ⟨i, k, node, hnode, rfl⟩
  obtain ⟨hnode, hno⟩ := CocoTable.mem_removeRequest.mp hnode
  obtain ⟨hmem, hhome, -⟩ := hinv.links i k node hnode
  exact hno ⟨hmem, hhome⟩

/-- An insertion links nodes of the inserted request. -/
theorem linked_of_insertRequest (hinv : Inv env s) (hconsumer : s.consumer = .insert req)
    {timerBlock : Option Nat} {enqueued : Bool} {r : ReqPtr} (hr : r ≠ req)
    (h : (s.table.insertRequest env (s.heap req) timerBlock enqueued).2.1.Linked r) :
    s.table.Linked r := by
  obtain ⟨i, k, node, hnode, rfl⟩ := h
  rcases CocoTable.mem_insertRequest hnode with hold | ⟨hmem, -⟩
  · exact ⟨i, k, node, hold, rfl⟩
  · have hheld := hinv.held (show s.consumer.item = some req by rw [hconsumer]; rfl)
    exact absurd (hinv.owned req (by rw [hheld]; decide) node hmem) hr

theorem linkOk_of_effect (hinv : Inv env s) (h : Effect env s e s') (hok : LinkOk s req)
    (hstarts : InsertStarts env req s e) : LinkOk s' req := by
  have hitem := hinv.item
  cases h with
  | arrive | move | add | take =>
    refine hok.frame rfl ?_ ?_ fun entry h => Or.inl h
    · simp only [Server.arrive, Server.turn, Server.goto]
      grind [Stage.moving]
    · simp only [Server.arrive, Server.turn, Server.goto]
      grind
  | turn _ _ looking =>
    exact hok.frame rfl (fun h _ => h) (fun r h => absurd h ((looking r).2.2.2 req))
      fun entry h => Or.inl h
  | mark =>
    refine hok.frame rfl (fun h _ => h) ?_ fun entry h => Or.inl h
    simp [Server.turn]
  | free moving =>
    refine hok.frame rfl ?_ (fun r h => h) ?_
    · simp only [Server.goto, cleanUpRequest]
      grind [Stage.moving]
    · simp only [cleanUpRequest]
      grind [Stage.moving]
  | discard | dismiss =>
    refine hok.frame rfl ?_ ?_ ?_
    · simp only [Server.turn, Server.goto, cleanUpRequest]
      grind [Consumer.item]
    · simp [Server.turn]
    · simp only [Server.turn, cleanUpRequest]
      grind [Consumer.item]
  | @untrack _ r target untracking =>
    obtain ⟨hheld, -, -, -⟩ := hinv.target_of_untrack untracking
    refine hok.frame rfl ?_ ?_ ?_
    · simp only [Server.turn, Server.goto, cleanUpRequest]
      grind
    · simp [Server.turn]
    · simp only [Server.turn, Server.goto, cleanUpRequest]
      grind
  | stutter => exact hok
  | @insert _ r table _ timerBlock enqueued inserting inserted _ =>
    have htable : table = (s.table.insertRequest env (s.heap r) timerBlock enqueued).2.1 := by
      rw [inserted]
    refine ⟨fun hlinked => ⟨?_, by simp [Server.turn]⟩, hok.cleaned⟩
    by_cases hr : req = r
    · subst hr
      simp [Server.turn, Server.goto]
    · simp only [Server.turn, Server.goto, Function.update_of_ne hr] at hlinked ⊢
      rw [htable] at hlinked
      exact (hok.live (linked_of_insertRequest hinv inserting hr hlinked)).1
  | @fail r table _ answer inserting failed _ =>
    have hheld := hinv.held (show s.consumer.item = some r by rw [inserting]; rfl)
    have htable : table = (s.table.insertRequest env (s.heap r) answer.timerBlock
        answer.enqueued).2.1 := by
      rw [failed]
    refine ⟨fun hlinked => ⟨?_, by simp [Server.turn]⟩, hok.cleaned⟩
    simp only [Server.turn] at hlinked
    rw [htable] at hlinked
    by_cases hr : req = r
    · -- the insertion failed before it linked a node, and there was none before
      subst hr
      obtain ⟨i, k, node, hnode, haddr⟩ := hlinked
      have hold := CocoTable.mem_insertRequest_of_starts (hstarts inserting) (by rw [failed]) hnode
      exact absurd ⟨i, k, node, hold, haddr⟩ (hok.not_linked (by rw [hheld]; decide))
    · exact (hok.live (linked_of_insertRequest hinv inserting hr hlinked)).1
  | @unlink _ r target removing =>
    refine ⟨fun hlinked => ⟨?_, ?_⟩, hok.cleaned⟩
    · obtain ⟨i, k, node, hnode, haddr⟩ := hlinked
      exact (hok.live ⟨i, k, node, (CocoTable.mem_removeRequest.mp hnode).1, haddr⟩).1
    · rintro r' h
      obtain ⟨-, rfl⟩ := Consumer.untrack.inj h
      exact not_linked_removeRequest hinv hlinked

theorem linkOk_init (heap : Heap) : LinkOk (init heap) req where
  live hlinked := absurd hlinked (CocoTable.not_linked_new req)
  cleaned := by
    intro entry h
    cases h

/-- Where the nodes of a request are linked only while it is live, they are linked only while it is
active and completed. -/
theorem LinkOk.active (hinv : Inv env s) (hok : LinkOk s req) (hlinked : s.table.Linked req) :
    ∃ status, s.active.lookup (s.heap req).mHandle = some (some req, status) ∧
      hasBit status REQ_COMPLETED := by
  obtain ⟨hlive, -⟩ := hok.live hlinked
  have hfits := hinv.fits req (by rw [hlive]; decide)
  have htune : s.IsTune req := by
    rw [hlive] at hfits
    exact ⟨by rw [hlive]; decide, by simpa [Stage.fits] using hfits⟩
  obtain ⟨status, hlookup, hstatus⟩ := hinv.entry req htune (by rw [hlive]; rfl)
  exact ⟨status, hlookup, hstatus.completed (Or.inl hlive)⟩

/-- Linked nodes belong to active, completed requests, and no request was freed while a node of it
was linked. -/
structure NoDanglingNode (s : Server) : Prop where
  linked : ∀ req, s.table.Linked req → ∃ status,
    s.active.lookup (s.heap req).mHandle = some (some req, status) ∧ hasBit status REQ_COMPLETED
  cleaned : ∀ entry ∈ s.cleaned, ¬ entry.2.Linked entry.1

/-- Every insertion of the step, whichever request it is of, does not fail half way. -/
def InsertionsStart (env : Env) (s : Server) (e : Event) : Prop :=
  ∀ req ∈ s.received, InsertStarts env req s e

instance (s : Server) (e : Event) : Decidable (InsertionsStart env s e) :=
  inferInstanceAs (Decidable (∀ req ∈ s.received, _))

/-- **No freed request stays linked**, in any state that is reached without an insertion that fails
half way: one of a request with nodes to link and a duration other than `-1`, whose timer was
allocated and does not start. -/
theorem freed_unlinked_of_run {heap : Heap} {events : List Event}
    (hrun : (machine env).Run (init heap) events)
    (hstarts : (machine env).Steps (InsertionsStart env) (init heap) events) :
    NoDanglingNode ((machine env).exec (init heap) events) := by
  obtain ⟨hinv, hok⟩ : Inv env ((machine env).exec (init heap) events) ∧
      ∀ req, LinkOk ((machine env).exec (init heap) events) req := by
    refine (hrun.and hstarts).invariant (I := fun s => Inv env s ∧ ∀ req, LinkOk s req)
      ⟨inv_init heap, fun req => linkOk_init heap⟩ ?_
    rintro s e ⟨hinv, hok⟩ ⟨henabled, hstarts⟩
    have heffect := effect_of_enabled hinv henabled
    refine ⟨inv_of_effect hinv heffect, fun req => linkOk_of_effect hinv heffect (hok req) ?_⟩
    by_cases hreq : req ∈ s.received
    · exact hstarts req hreq
    · -- the consumer inserts received messages only
      cases e with
      | consume answer =>
        intro hconsumer
        have hheld := hinv.held (show s.consumer.item = some req by rw [hconsumer]; rfl)
        rw [(hinv.received req).mpr hreq] at hheld
        cases hheld
      | receive | work | pop | timerExpired => trivial
  exact ⟨fun req hlinked => (hok req).active hinv hlinked,
    fun entry hentry => (hok entry.1).cleaned entry hentry rfl⟩

end Server

namespace Sample

/-- A tune request is queued, and so is a retune message with a smaller priority byte, which the
consumer pops first. -/
def earlyRetune (duration : Int) : List Server.Event :=
  worker 1 (tune 1) 8 ++ worker 2 (message .REQ_RESOURCE_RETUNING 1 duration 0) 4 ++
    drain 2 2 ++ drain 1 3

end Sample

open Server

/-- A retune message to five seconds gets the request a timer that starts. -/
theorem freed_unlinked_sample :
    (machine Sample.env).Run Sample.server (Sample.earlyRetune 5000) ∧
      (machine Sample.env).Steps (InsertionsStart Sample.env) Sample.server
        (Sample.earlyRetune 5000) ∧
      ((machine Sample.env).exec Sample.server (Sample.earlyRetune 5000)).table.Linked 1 ∧
      NoDanglingNode ((machine Sample.env).exec Sample.server (Sample.earlyRetune 5000)) := by
  have hrun : (machine Sample.env).Run Sample.server (Sample.earlyRetune 5000) := by decide
  have hstarts : (machine Sample.env).Steps (InsertionsStart Sample.env) Sample.server
      (Sample.earlyRetune 5000) := by decide
  refine ⟨hrun, hstarts, ⟨0, 3, ⟨(1, 0), some (.ofValues (Sample.code 1) 0 0 [5])⟩, ?_, rfl⟩,
    freed_unlinked_of_run hrun hstarts⟩
  decide

/-- A retune message to duration zero: the nodes are linked, the timer does not start, and the
request is freed with its node in the list. -/
theorem freed_while_linked :
    (machine Sample.env).Run Sample.server
        (Sample.earlyRetune 0 ++ [.consume Sample.answer]) ∧
      ¬ NoDanglingNode ((machine Sample.env).exec Sample.server
        (Sample.earlyRetune 0 ++ [.consume Sample.answer])) := by
  refine ⟨by decide, fun h => ?_⟩
  obtain ⟨status, hlookup, -⟩ := h.linked 1
    ⟨0, 3, ⟨(1, 0), some (.ofValues (Sample.code 1) 0 0 [5])⟩, by decide, rfl⟩
  have hnone : ((machine Sample.env).exec Sample.server
      (Sample.earlyRetune 0 ++ [.consume Sample.answer])).active.lookup 1 = none := by decide
  have hhandle : (((machine Sample.env).exec Sample.server
      (Sample.earlyRetune 0 ++ [.consume Sample.answer])).heap 1).mHandle = 1 := by decide
  rw [hhandle, hnone] at hlookup
  cases hlookup

end ResourceTuner
