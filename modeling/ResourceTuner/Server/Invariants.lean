import ResourceTuner.Server.Effects

/-!
# The invariant of the server

Every effect keeps every part of `Inv`.  The parts are taken one by one, each as a case analysis
over `Effect`, and only the effects that touch a part need an argument: who owns a message and how
far it has come (`received` to `cleaned`), the two stores of active requests (`origin`, `entry`,
`handles`), and the lists of the table (`links`).
-/

namespace ResourceTuner

namespace Server

variable {env : Env} {s s' : Server} {e : Event} {req : ReqPtr}

/-! ## Messages stay messages -/

/-- The parts of a message that nothing changes. -/
structure Kept (request request' : Request) : Prop where
  type : request'.mReqType = request.mReqType
  handle : request'.mHandle = request.mHandle
  tid : request'.mClientTID = request.mClientTID

theorem Kept.refl (request : Request) : Kept request request := ⟨rfl, rfl, rfl⟩

theorem SameMessage.kept {request request' : Request} (h : SameMessage request request') :
    Kept request request' := ⟨h.type, h.handle, h.tid⟩

theorem Retimed.kept {request request' : Request} (h : Retimed request request') :
    Kept request request' := by
  obtain ⟨duration, timer, rfl⟩ := h
  exact ⟨rfl, rfl, rfl⟩

/-- A retimed request has the same nodes and the same priority. -/
theorem Retimed.links {request request' : Request} (h : Retimed request request') :
    request'.nodes = request.nodes ∧ request'.getPriority = request.getPriority := by
  obtain ⟨duration, timer, rfl⟩ := h
  exact ⟨rfl, rfl⟩

theorem Retimed.trans {request request' request'' : Request} (h : Retimed request request')
    (h' : Retimed request' request'') : Retimed request request'' := by
  obtain ⟨duration, timer, rfl⟩ := h
  obtain ⟨duration', timer', rfl⟩ := h'
  exact ⟨duration', timer', rfl⟩

/-- Writing a message that was kept keeps all messages. -/
theorem kept_update {request : Request} {heap : Heap} (h : Kept (heap req) request) (r : ReqPtr) :
    Kept (heap r) (Function.update heap req request r) := by
  by_cases hr : r = req
  · subst hr
    simpa using h
  · simpa [hr] using Kept.refl (heap r)

/-- A message that is there stays, whichever message takes a step. -/
theorem update_ne_unused {stage : Stage} (h : stage ≠ .unused) {f : ReqPtr → Stage} {r : ReqPtr}
    (hr : f r ≠ .unused) : Function.update f req stage r ≠ .unused := by
  by_cases heq : r = req
  · subst heq
    simpa using h
  · simpa [heq] using hr

theorem ne_unused_of_moving {stage : Stage} (h : stage.moving) : stage ≠ .unused := by
  rintro rfl
  cases h

/-- Messages do not vanish, and keep their type, handle and client. -/
theorem Effect.persists (h : Effect env s e s') {r : ReqPtr} (hr : s.stage r ≠ .unused) :
    s'.stage r ≠ .unused ∧ Kept (s.heap r) (s'.heap r) := by
  cases h with
  | @arrive _ req request isValidated stage fresh moving =>
    have hne : r ≠ req := by
      rintro rfl
      exact hr fresh
    refine ⟨update_ne_unused (ne_unused_of_moving moving) hr, ?_⟩
    simpa [Server.arrive, Server.goto, hne] using Kept.refl (s.heap r)
  | move _ moving' _ _ same =>
    exact ⟨update_ne_unused (ne_unused_of_moving moving') hr, kept_update same.kept r⟩
  | free | discard | add | take => exact ⟨update_ne_unused (by decide) hr, .refl _⟩
  | turn | mark | unlink | stutter => exact ⟨hr, .refl _⟩
  | insert _ _ retimed => exact ⟨update_ne_unused (by decide) hr, kept_update retimed.kept r⟩
  | fail _ _ retimed => exact ⟨hr, kept_update retimed.kept r⟩
  | dismiss _ _ retimed => exact ⟨update_ne_unused (by decide) hr, kept_update retimed.kept r⟩
  | untrack => exact ⟨update_ne_unused (by decide) (update_ne_unused (by decide) hr), .refl _⟩

theorem Effect.isTune (h : Effect env s e s') {r : ReqPtr} (hr : s.IsTune r) : s'.IsTune r :=
  ⟨(h.persists hr.1).1, by rw [(h.persists hr.1).2.type]; exact hr.2⟩

/-- The message the consumer works on. -/
theorem Inv.held (hinv : Inv env s) (h : s.consumer.item = some req) : s.stage req = .held :=
  (hinv.item req).mpr h

/-- What the consumer is about to remove is live, and not the message it works on. -/
theorem Inv.target_of_untrack (hinv : Inv env s) {target : ReqPtr}
    (h : s.consumer = .untrack req target) :
    s.stage req = .held ∧ s.IsTune target ∧ s.stage target = .live ∧ target ≠ req := by
  have hok := hinv.consumer
  simp only [ConsumerOk, h] at hok
  have hheld := hinv.held (show s.consumer.item = some req by rw [h]; rfl)
  refine ⟨hheld, hok.2.1, hok.2.2.1, ?_⟩
  rintro rfl
  rw [hheld] at hok
  cases hok.2.2.1

/-! ## The way of a message -/

/-- Only an arrival makes a message. -/
theorem received_of_effect (hinv : Inv env s) (h : Effect env s e s') :
    ∀ req, s'.stage req = .unused ↔ req ∉ s'.received := by
  have hreceived := hinv.received
  have hitem := hinv.item
  cases h with
  | arrive fresh moving =>
    simp only [Server.arrive, Server.goto]
    grind [Stage.moving]
  | move moving moving' =>
    simp only [Server.goto]
    grind [Stage.moving]
  | free moving =>
    simp only [cleanUpRequest, Server.goto]
    grind [Stage.moving]
  | add | take =>
    simp only [Server.turn, Server.goto]
    grind
  | turn | mark | fail | unlink | stutter => exact hreceived
  | insert | discard | dismiss =>
    simp only [Server.turn, Server.goto, cleanUpRequest]
    grind [Consumer.item]
  | untrack untracking =>
    obtain ⟨hheld, -, hlive, -⟩ := hinv.target_of_untrack untracking
    simp only [Server.turn, Server.goto, cleanUpRequest]
    grind

/-- A message can be freed from wherever it is. -/
theorem fits_freed {type : RequestType} {stage : Stage} (hne : stage ≠ .unused)
    (h : stage.fits type) : Stage.freed.fits type := by
  cases stage <;> cases type <;> simp_all [Stage.fits]

/-- Every message is at a stage that its type can come to. -/
theorem fits_of_effect (hinv : Inv env s) (h : Effect env s e s') :
    ∀ req, s'.stage req ≠ .unused → (s'.stage req).fits (s'.heap req).mReqType := by
  have hfits := hinv.fits
  have hitem := hinv.item
  have hok := hinv.consumer
  cases h with
  | arrive =>
    simp only [Server.arrive, Server.goto]
    grind
  | free moving =>
    simp only [Server.goto, cleanUpRequest]
    grind [fits_freed, ne_unused_of_moving]
  | discard =>
    simp only [Server.turn, Server.goto, cleanUpRequest]
    grind [fits_freed, Consumer.item]
  | move _ _ _ _ same =>
    have htype := same.type
    simp only [Server.goto]
    grind
  | add | take =>
    simp only [Server.turn, Server.goto]
    grind [Stage.fits]
  | turn | mark | unlink | stutter => exact hfits
  | insert inserting _ retimed =>
    have htype := retimed.kept.type
    simp only [ConsumerOk, inserting, IsTune] at hok
    simp only [Server.turn, Server.goto]
    grind [Stage.fits]
  | fail _ _ retimed | dismiss _ _ retimed =>
    have htype := retimed.kept.type
    simp only [Server.turn, Server.goto, cleanUpRequest]
    grind [fits_freed, Consumer.item]
  | untrack untracking =>
    obtain ⟨hheld, -, hlive, -⟩ := hinv.target_of_untrack untracking
    simp only [Server.turn, Server.goto, cleanUpRequest]
    grind [fits_freed]

/-- The handle of a new tune request is new. -/
theorem unique_of_effect (hinv : Inv env s) (h : Effect env s e s') :
    ∀ req req', s'.IsTune req → s'.IsTune req' →
      (s'.heap req).mHandle = (s'.heap req').mHandle → req = req' := by
  have hreceived := hinv.received
  have hreceived' := received_of_effect hinv h
  intro r r' hr hr' hhandle
  by_cases hold : s.stage r ≠ .unused ∧ s.stage r' ≠ .unused
  · -- two old messages: nothing has changed for them
    have hkept := (h.persists hold.1).2
    have hkept' := (h.persists hold.2).2
    refine hinv.unique r r' ⟨hold.1, ?_⟩ ⟨hold.2, ?_⟩ ?_
    · rw [← hkept.type]; exact hr.2
    · rw [← hkept'.type]; exact hr'.2
    · rw [← hkept.handle, ← hkept'.handle]; exact hhandle
  · cases h with
    | arrive =>
      simp only [IsTune, Server.arrive, Server.goto] at *
      grind
    | _ =>
      have h1 := (not_congr (hreceived' r)).mp hr.1
      have h2 := (not_congr (hreceived' r')).mp hr'.1
      exact absurd ⟨(not_congr (hreceived r)).mpr h1, (not_congr (hreceived r')).mpr h2⟩ hold

/-- The nodes of a message are its own. -/
theorem owned_of_effect (hinv : Inv env s) (h : Effect env s e s') :
    ∀ req, s'.stage req ≠ .unused → ∀ node ∈ (s'.heap req).nodes, node.addr.1 = req := by
  have howned := hinv.owned
  have hitem := hinv.item
  cases h with
  | arrive =>
    simp only [Server.arrive, Server.goto]
    grind
  | move moving _ _ _ same =>
    have haddrs := same.addrs
    simp only [Server.goto]
    grind [Stage.moving]
  | turn | mark | unlink | stutter => exact howned
  | add | take | free | discard =>
    simp only [Server.turn, Server.goto, cleanUpRequest]
    grind [Consumer.item, Stage.moving]
  | insert _ _ retimed | fail _ _ retimed | dismiss _ _ retimed =>
    obtain ⟨duration, timer, rfl⟩ := retimed
    simp only [Server.turn, Server.goto, cleanUpRequest, Request.nodes] at *
    grind [Consumer.item]
  | untrack untracking =>
    obtain ⟨hheld, -, hlive, -⟩ := hinv.target_of_untrack untracking
    simp only [Server.turn, Server.goto, cleanUpRequest]
    grind

/-- A message is held exactly if the consumer has it. -/
theorem item_of_effect (hinv : Inv env s) (h : Effect env s e s') :
    ∀ req, s'.stage req = .held ↔ s'.consumer.item = some req := by
  have hitem := hinv.item
  cases h with
  | arrive | move | free =>
    simp only [Server.arrive, Server.goto, cleanUpRequest]
    grind [Stage.moving]
  | add | take | insert | discard | dismiss =>
    simp only [Server.turn, Server.goto, cleanUpRequest]
    grind [Consumer.item]
  | turn item =>
    simp only [Server.turn, item]
    exact hitem
  | mark | fail | unlink =>
    simp only [Server.turn]
    grind [Consumer.item]
  | untrack untracking =>
    obtain ⟨hheld, -, hlive, -⟩ := hinv.target_of_untrack untracking
    simp only [Server.turn, Server.goto, cleanUpRequest]
    grind [Consumer.item]
  | stutter => exact hitem

/-- A message is freed once. -/
theorem cleaned_of_effect (hinv : Inv env s) (h : Effect env s e s') :
    ∀ req, (s'.cleaned.map Prod.fst).count req = if s'.stage req = .freed then 1 else 0 := by
  have hcleaned := hinv.cleaned
  have hitem := hinv.item
  cases h with
  | arrive | move | free =>
    simp only [Server.arrive, Server.goto, cleanUpRequest]
    grind [Stage.moving]
  | turn | mark | fail | unlink | stutter => exact hcleaned
  | add | take | insert | discard | dismiss =>
    simp only [Server.turn, Server.goto, cleanUpRequest]
    grind [Consumer.item]
  | untrack untracking =>
    obtain ⟨hheld, -, hlive, -⟩ := hinv.target_of_untrack untracking
    simp only [Server.turn, Server.goto, cleanUpRequest]
    grind

/-- What the consumer is about to do fits the message it has. -/
theorem consumer_of_effect (hinv : Inv env s) (h : Effect env s e s') : s'.ConsumerOk := by
  have hitem := hinv.item
  have hok := hinv.consumer
  cases h with
  | arrive fresh =>
    simp only [ConsumerOk, IsTune, Server.arrive, Server.goto] at *
    cases hconsumer : s.consumer <;> simp only [hconsumer] at * <;> grind [Consumer.item]
  | move moving _ _ _ same =>
    have htype := same.type
    have hhandle := same.handle
    simp only [ConsumerOk, IsTune, Server.goto] at *
    cases hconsumer : s.consumer <;> simp only [hconsumer] at * <;>
      grind [Consumer.item, Stage.moving]
  | free moving =>
    simp only [ConsumerOk, IsTune, cleanUpRequest, Server.goto] at *
    cases hconsumer : s.consumer <;> simp only [hconsumer] at * <;>
      grind [Consumer.item, Stage.moving]
  | add =>
    simp only [ConsumerOk, IsTune, Server.goto] at *
    cases hconsumer : s.consumer <;> simp only [hconsumer] at * <;>
      grind [Consumer.item, Stage.tracked]
  | take _ _ taken =>
    rcases taken with ⟨htype, rfl⟩ | ⟨htype, rfl⟩
    · exact ⟨by simp [Server.turn, Server.goto], htype⟩
    · exact htype
  | turn _ ok => exact ok
  | mark marking =>
    simp only [ConsumerOk, marking] at hok
    exact hok
  | fail inserting _ retimed =>
    simp only [ConsumerOk, inserting] at hok
    exact ⟨hok.1, by simpa [Server.turn] using retimed.kept.type.trans hok.2⟩
  | insert | discard | dismiss | untrack => trivial
  | unlink removing =>
    simp only [ConsumerOk, removing] at hok
    exact hok
  | stutter => exact hok

/-! ## The map of active requests -/

/-- A status that gets the cancelled bit says the same about progress. -/
theorem StatusOk.cancel {status : BitVec 8} (h : s.StatusOk req status) :
    s.StatusOk req (status ||| REQ_CANCELLED) := by
  have hcompleted : hasBit REQ_CANCELLED REQ_COMPLETED = false := by decide
  have hfound : hasBit REQ_CANCELLED REQ_NOT_FOUND = false := by decide
  refine ⟨?_, ?_, ?_⟩
  · simpa [hcompleted] using h.completed
  · simpa [hcompleted] using h.inserted
  · simpa [hfound] using h.found

/-- A request keeps its entry when its own position and the consumer's work on it stay. -/
theorem StatusOk.congr {status : BitVec 8} (h : s.StatusOk req status)
    (hlive : s'.stage req = .live ↔ s.stage req = .live)
    (hinsert : s'.consumer = .insert req ↔ s.consumer = .insert req)
    (hdiscard : s.consumer = .discard req → s'.consumer = .discard req) :
    s'.StatusOk req status := by
  refine ⟨?_, ?_, h.found⟩
  · rw [hlive, hinsert]
    exact h.completed
  · rw [hlive, hinsert]
    intro hbit
    rcases h.inserted hbit with h | h | h
    · exact Or.inl h
    · exact Or.inr (Or.inl h)
    · exact Or.inr (Or.inr (hdiscard h))

/-- An active request keeps its entry through a quiet call, with a status that is as good. -/
theorem Quiet.entry {tracker : Tracker} (h : Quiet s.tracker tracker) {handle : Int}
    {status : BitVec 8} (hlookup : s.active.lookup handle = some (some req, status))
    (hstatus : s.StatusOk req status) :
    ∃ status', tracker.manager.mActiveRequests.lookup handle = some (some req, status') ∧
      s.StatusOk req status' := by
  rcases h.lookup handle with heq | ⟨info, hinfo, heq⟩
  · exact ⟨status, heq.trans hlookup, hstatus⟩
  · obtain rfl := Option.some.inj (hinfo.symm.trans hlookup)
    exact ⟨_, heq, hstatus.cancel⟩

/-- Which makes no entry of its own. -/
theorem Quiet.origin {t t' : Tracker} (h : Quiet t t') {handle : Int} {info : RequestInfo}
    (hlookup : t'.manager.mActiveRequests.lookup handle = some info) :
    ∃ info', t.manager.mActiveRequests.lookup handle = some info' ∧ info'.1 = info.1 := by
  rcases h.lookup handle with heq | ⟨info', hlookup', heq⟩
  · exact ⟨info, heq.symm.trans hlookup, rfl⟩
  · obtain rfl := Option.some.inj (heq.symm.trans hlookup)
    exact ⟨info', hlookup', rfl⟩

/-- An accepted request is the entry of its handle, and no other entry changes. -/
theorem lookup_of_added {maxRequests : Nat} {heap : Heap} {t : Tracker}
    (h : (RequestManager.addRequest maxRequests heap t req).1) (handle : Int) :
    (RequestManager.addRequest maxRequests heap t req).2.manager.mActiveRequests.lookup handle =
      if handle = (heap req).mHandle then some (some req, REQ_UNCHANGED)
      else t.manager.mActiveRequests.lookup handle := by
  obtain ⟨-, -, -, hactive, -⟩ := RequestManager.addRequest_of_true h
  rw [hactive]
  split
  · rename_i heq
    rw [heq, AList.lookup_insert]
  · rename_i hne
    exact AList.lookup_insert_ne hne

/-- Every active handle belongs to a tune message that is tracked. -/
theorem origin_of_effect (hinv : Inv env s) (h : Effect env s e s') :
    ∀ handle info, s'.active.lookup handle = some info → ∃ req, info.1 = some req ∧
      s'.IsTune req ∧ (s'.stage req).tracked ∧ (s'.heap req).mHandle = handle := by
  intro handle info hlookup
  -- an entry for a request that was known before, and is tracked still
  have hold : ∀ req, info.1 = some req → s.IsTune req → (s'.stage req).tracked →
      (s.heap req).mHandle = handle → ∃ req, info.1 = some req ∧ s'.IsTune req ∧
        (s'.stage req).tracked ∧ (s'.heap req).mHandle = handle := by
    intro r hinfo htune htracked hhandle
    exact ⟨r, hinfo, h.isTune htune, htracked, (h.persists htune.1).2.handle.trans hhandle⟩
  have hitem := hinv.item
  cases h with
  | arrive | take | turn | insert | fail | unlink | stutter | dismiss =>
    obtain ⟨r, hinfo, htune, htracked, hhandle⟩ := hinv.origin handle info hlookup
    refine hold r hinfo htune ?_ hhandle
    simp only [Server.arrive, Server.goto, Server.turn, cleanUpRequest, IsTune] at *
    grind [Stage.tracked, Consumer.item]
  | @move _ req _ _ _ moving _ _ tracked _ quiet =>
    obtain ⟨info', hlookup', hinfo'⟩ := quiet.origin hlookup
    obtain ⟨r, hinfo, htune, htracked, hhandle⟩ := hinv.origin handle info' hlookup'
    refine hold r (hinfo'.symm.trans hinfo) htune ?_ hhandle
    simp only [Server.goto, IsTune] at *
    grind
  | @free _ req _ moving untracked quiet =>
    obtain ⟨info', hlookup', hinfo'⟩ := quiet.origin hlookup
    obtain ⟨r, hinfo, htune, htracked, hhandle⟩ := hinv.origin handle info' hlookup'
    refine hold r (hinfo'.symm.trans hinfo) htune ?_ hhandle
    simp only [Server.goto, cleanUpRequest, IsTune] at *
    grind
  | @add _ req stage added =>
    have hnew := lookup_of_added added handle
    simp only [active, Server.goto] at hlookup
    rw [hnew] at hlookup
    split at hlookup
    · rename_i heq
      obtain rfl := Option.some.inj hlookup
      exact hold req rfl (hinv.isTune_of_adding stage) (by simp [Server.goto, Stage.tracked]) heq.symm
    · obtain ⟨r, hinfo, htune, htracked, hhandle⟩ := hinv.origin handle info hlookup
      refine hold r hinfo htune ?_ hhandle
      simp only [Server.goto] at *
      grind [Stage.tracked]
  | @mark _ req marking =>
    simp only [active, Server.turn, RequestManager.markRequestAsComplete,
      RequestManager.lookup_addStatus] at hlookup
    obtain ⟨info', hlookup', hinfo'⟩ : ∃ info', s.active.lookup handle = some info' ∧
        info'.1 = info.1 := by
      split at hlookup
      · rename_i heq
        obtain ⟨info', hlookup', rfl⟩ := Option.map_eq_some_iff.mp hlookup
        exact ⟨info', heq ▸ hlookup', rfl⟩
      · exact ⟨info, hlookup, rfl⟩
    obtain ⟨r, hinfo, htune, htracked, hhandle⟩ := hinv.origin handle info' hlookup'
    exact hold r (hinfo'.symm.trans hinfo) htune htracked hhandle
  | @discard _ req discarding =>
    simp only [active, Server.turn, cleanUpRequest, Server.goto,
      RequestManager.lookup_removeRequest] at hlookup
    split at hlookup
    · cases hlookup
    · rename_i hne
      obtain ⟨r, hinfo, htune, htracked, hhandle⟩ := hinv.origin handle info hlookup
      refine hold r hinfo htune ?_ hhandle
      simp only [Server.turn, Server.goto, cleanUpRequest]
      grind
  | @untrack _ req target untracking =>
    obtain ⟨hheld, -, hlive, -⟩ := hinv.target_of_untrack untracking
    have hok := hinv.consumer
    simp only [ConsumerOk, untracking] at hok
    simp only [active, Server.turn, cleanUpRequest, Server.goto,
      RequestManager.lookup_removeRequest] at hlookup
    split at hlookup
    · cases hlookup
    · rename_i hne
      obtain ⟨r, hinfo, htune, htracked, hhandle⟩ := hinv.origin handle info hlookup
      refine hold r hinfo htune ?_ hhandle
      simp only [Server.turn, Server.goto, cleanUpRequest, IsTune] at *
      grind

/-- A tracked request was tracked before, or it has just been added. -/
theorem tracked_of_effect (hinv : Inv env s) (h : Effect env s e s') {r : ReqPtr}
    (htune' : s'.IsTune r) (htracked' : (s'.stage r).tracked) :
    s.IsTune r ∧ ((s.stage r).tracked ∨ s.stage r = .add ∧ s'.stage r = .enqueue ∧
      s'.consumer = s.consumer ∧
      s'.active.lookup (s.heap r).mHandle = some (some r, REQ_UNCHANGED)) := by
  have hitem := hinv.item
  have hok := hinv.consumer
  cases h with
  | @arrive _ req _ _ _ fresh moving _ untracked =>
    have hne : r ≠ req := by
      rintro rfl
      simp only [IsTune, Server.arrive, Server.goto, Function.update_self] at htune' htracked'
      rw [untracked htune'.2] at htracked'
      cases htracked'
    simp only [IsTune, Server.arrive, Server.goto, Function.update_of_ne hne] at htune' htracked'
    exact ⟨htune', Or.inl htracked'⟩
  | @move _ req _ _ stage moving moving' _ tracked same quiet =>
    have htune : s.IsTune r := by
      simp only [IsTune, Server.goto] at htune' ⊢
      have htype := same.type
      grind [Stage.moving]
    refine ⟨htune, Or.inl ?_⟩
    simp only [IsTune, Server.goto] at htune htracked'
    grind
  | @free _ req _ moving _ quiet =>
    simp only [IsTune, Server.goto, cleanUpRequest] at htune' htracked'
    have hne : r ≠ req := by
      rintro rfl
      simp [Stage.tracked] at htracked'
    rw [Function.update_of_ne hne] at htune' htracked'
    exact ⟨htune', Or.inl htracked'⟩
  | @add _ req stage added =>
    by_cases hr : r = req
    · subst hr
      exact ⟨hinv.isTune_of_adding stage, Or.inr ⟨stage, goto_stage_self, rfl,
        (lookup_of_added added _).trans (if_pos rfl)⟩⟩
    · simp only [IsTune, Server.goto, Function.update_of_ne hr] at htune' htracked'
      exact ⟨htune', Or.inl htracked'⟩
  | take =>
    simp only [IsTune, Server.turn, Server.goto] at htune' htracked' ⊢
    grind [Stage.tracked]
  | turn | mark | unlink | stutter => exact ⟨htune', Or.inl htracked'⟩
  | @insert _ req _ _ _ _ inserting _ retimed =>
    have hheld := hinv.held (show s.consumer.item = some req by rw [inserting]; rfl)
    have htype := (kept_update retimed.kept r).type
    simp only [IsTune, Server.turn, Server.goto] at htune' htracked' ⊢
    grind [Stage.tracked]
  | @fail req _ _ _ _ _ retimed =>
    have htype := (kept_update retimed.kept r).type
    exact ⟨⟨htune'.1, htype.symm.trans htune'.2⟩, Or.inl htracked'⟩
  | @discard _ req discarding =>
    simp only [IsTune, Server.turn, Server.goto, cleanUpRequest] at htune' htracked'
    have hne : r ≠ req := by
      rintro rfl
      simp [Stage.tracked] at htracked'
    rw [Function.update_of_ne hne] at htune' htracked'
    exact ⟨htune', Or.inl htracked'⟩
  | @dismiss _ req target _ item type retimed =>
    have htype := (kept_update retimed.kept r).type
    simp only [IsTune, Server.turn, Server.goto, cleanUpRequest] at htune' htracked' ⊢
    grind [Stage.tracked]
  | @untrack _ req target untracking =>
    simp only [IsTune, Server.turn, Server.goto, cleanUpRequest] at htune' htracked' ⊢
    grind [Stage.tracked]

/-- Every effect keeps the entries of the tracked requests: the entry of the request it is about is
written anew, and the other handles are other handles. -/
theorem entry_of_effect (hinv : Inv env s) (h : Effect env s e s') :
    ∀ req, s'.IsTune req → (s'.stage req).tracked → ∃ status,
      s'.active.lookup (s'.heap req).mHandle = some (some req, status) ∧
        s'.StatusOk req status := by
  intro r htune' htracked'
  have hitem := hinv.item
  have hok := hinv.consumer
  obtain ⟨htune, hbefore⟩ := tracked_of_effect hinv h htune' htracked'
  -- the request keeps its handle, so what matters is the map under that handle
  rw [(h.persists htune.1).2.handle]
  rcases hbefore with htracked | ⟨hadd, henqueue, hconsumer, hnew⟩
  · obtain ⟨status, hlookup, hstatus⟩ := hinv.entry r htune htracked
    have hother : ∀ {req}, s.IsTune req → r ≠ req → (s.heap r).mHandle ≠ (s.heap req).mHandle :=
      fun hreq hne heq => hne (hinv.unique r _ htune hreq heq)
    cases h with
    | @arrive _ req _ _ _ fresh moving _ untracked =>
      refine ⟨status, hlookup, hstatus.congr ?_ Iff.rfl id⟩
      simp only [Server.arrive, Server.goto]
      grind [Stage.tracked, Stage.moving]
    | @move _ req _ _ stage moving moving' _ tracked same quiet =>
      obtain ⟨status', hlookup', hstatus'⟩ := quiet.entry hlookup hstatus
      refine ⟨status', hlookup', hstatus'.congr ?_ Iff.rfl id⟩
      simp only [Server.goto]
      grind [Stage.moving]
    | @free _ req _ moving _ quiet =>
      obtain ⟨status', hlookup', hstatus'⟩ := quiet.entry hlookup hstatus
      refine ⟨status', hlookup', hstatus'.congr ?_ Iff.rfl id⟩
      simp only [Server.goto, cleanUpRequest]
      grind [Stage.moving]
    | @add _ req stage added =>
      have hne : r ≠ req := by
        rintro rfl
        rw [stage] at htracked
        cases htracked
      refine ⟨status, ?_, hstatus.congr (by simp [Server.goto, hne]) Iff.rfl id⟩
      exact (lookup_of_added added _).trans
        ((if_neg (hother (hinv.isTune_of_adding stage) hne)).trans hlookup)
    | @take _ req consumer idle queued taken =>
      refine ⟨status, hlookup, hstatus.congr ?_ ?_ ?_⟩
      · simp only [Server.turn, Server.goto]
        grind
      · simp only [Server.turn, idle]
        grind
      · simp [idle]
    | @turn _ consumer item ok looking =>
      refine ⟨status, hlookup, hstatus.congr Iff.rfl ?_ ?_⟩
      · exact iff_of_false (looking r).2.2.1 (looking r).1
      · exact fun h => absurd h (looking r).2.1
    | @mark _ req marking =>
      simp only [ConsumerOk, marking] at hok
      simp only [active, Server.turn, RequestManager.markRequestAsComplete]
      rw [RequestManager.lookup_addStatus]
      by_cases hr : r = req
      · subst hr
        refine ⟨status ||| REQ_COMPLETED, ?_, ?_⟩
        · simp only [if_true]
          rw [show s.tracker.manager.mActiveRequests.lookup (s.heap r).mHandle = _ from hlookup]
          rfl
        · have hbit : hasBit REQ_COMPLETED REQ_NOT_FOUND = false := by decide
          have hbit' : hasBit REQ_COMPLETED REQ_COMPLETED = true := by decide
          refine ⟨?_, ?_, ?_⟩
          · simp [hbit']
          · intro _
            exact Or.inr (Or.inl rfl)
          · simpa [hbit] using hstatus.found
      · refine ⟨status, (if_neg (hother hok hr)).trans hlookup, hstatus.congr Iff.rfl ?_ ?_⟩
        · simp [marking, Ne.symm hr]
        · simp [marking]
    | @insert _ req _ _ _ _ inserting inserted retimed =>
      refine ⟨status, hlookup, ?_⟩
      by_cases hr : r = req
      · subst hr
        refine ⟨fun _ => hstatus.completed (Or.inr inserting), fun _ => Or.inl ?_, hstatus.found⟩
        simp [Server.turn, Server.goto]
      · refine hstatus.congr ?_ ?_ ?_
        · simp [Server.turn, Server.goto, hr]
        · simp [Server.turn, inserting, Ne.symm hr]
        · simp [inserting]
    | @fail req _ _ _ inserting failed retimed =>
      refine ⟨status, hlookup, ?_⟩
      by_cases hr : r = req
      · subst hr
        refine ⟨?_, fun _ => Or.inr (Or.inr rfl), hstatus.found⟩
        rintro (h | h)
        · exact hstatus.completed (Or.inl h)
        · cases h
      · refine hstatus.congr Iff.rfl ?_ ?_
        · simp [Server.turn, inserting, Ne.symm hr]
        · simp [inserting]
    | @discard _ req discarding =>
      simp only [ConsumerOk, discarding] at hok
      have hne : r ≠ req := by
        rintro rfl
        simp [Server.turn, Server.goto, cleanUpRequest, Stage.tracked] at htracked'
      refine ⟨status, ?_, hstatus.congr ?_ ?_ ?_⟩
      · simp only [active, Server.turn, Server.goto, cleanUpRequest,
          RequestManager.lookup_removeRequest, if_neg (hother hok hne)]
        exact hlookup
      · simp [Server.turn, Server.goto, cleanUpRequest, hne]
      · simp [Server.turn, discarding]
      · simp [discarding, Ne.symm hne]
    | @dismiss _ req target _ item type retimed =>
      have hne : r ≠ req := by
        rintro rfl
        exact type htune.2
      refine ⟨status, hlookup, hstatus.congr ?_ ?_ ?_⟩
      · simp [Server.turn, Server.goto, cleanUpRequest, hne]
      · simp only [Server.turn]
        grind [Consumer.item]
      · grind [Consumer.item]
    | @unlink _ req target removing =>
      refine ⟨status, hlookup, hstatus.congr Iff.rfl ?_ ?_⟩
      · simp [Server.turn, removing]
      · simp [removing]
    | @untrack _ req target untracking =>
      obtain ⟨-, htarget, -, -⟩ := hinv.target_of_untrack untracking
      simp only [Server.turn, Server.goto, cleanUpRequest] at htracked'
      have hne : r ≠ target := by
        rintro rfl
        simp [Stage.tracked] at htracked'
      have hne' : r ≠ req := by
        rintro rfl
        simp [hne, Stage.tracked] at htracked'
      refine ⟨status, ?_, hstatus.congr ?_ ?_ ?_⟩
      · simp only [active, Server.turn, Server.goto, cleanUpRequest,
          RequestManager.lookup_removeRequest, if_neg (hother htarget hne)]
        exact hlookup
      · simp [Server.turn, Server.goto, cleanUpRequest, hne, hne']
      · simp [Server.turn, untracking]
      · simp [untracking]
    | stutter => exact ⟨status, hlookup, hstatus⟩
  · -- a new entry says nothing about progress
    have hbit : hasBit REQ_UNCHANGED REQ_COMPLETED = false := by decide
    refine ⟨REQ_UNCHANGED, hnew, ?_, by simp [hbit], by decide⟩
    rintro (h | h)
    · rw [henqueue] at h
      cases h
    · have hheld := hinv.held (show s.consumer.item = some r by rw [← hconsumer, h]; rfl)
      rw [hadd] at hheld
      cases hheld

/-- The sets follow the map: a handle is added to both and removed from both. -/
theorem handles_of_effect (hinv : Inv env s) (h : Effect env s e s') :
    ∀ tid handle, s'.tracker.clients.Holds tid handle → ∃ req status,
      s'.active.lookup handle = some (some req, status) ∧ (s'.heap req).mClientTID = tid := by
  intro tid handle hholds'
  -- a handle that was held before, and whose entry is still there
  have hold : s.tracker.clients.Holds tid handle →
      (∀ req status, s.active.lookup handle = some (some req, status) →
        (s.heap req).mClientTID = tid →
          ∃ status', s'.active.lookup handle = some (some req, status')) →
      ∃ req status, s'.active.lookup handle = some (some req, status) ∧
        (s'.heap req).mClientTID = tid := by
    intro hholds hkeep
    obtain ⟨r, status, hlookup, htid⟩ := hinv.handles tid handle hholds
    obtain ⟨r', hr', htune, -, -⟩ := hinv.origin _ _ hlookup
    obtain rfl := Option.some.inj hr'
    obtain ⟨status', hlookup'⟩ := hkeep r status hlookup htid
    exact ⟨r, status', hlookup', (h.persists htune.1).2.tid.trans htid⟩
  cases h with
  | arrive | take | turn | insert | fail | dismiss | unlink | stutter =>
    exact hold hholds' fun req status hlookup _ => ⟨status, hlookup⟩
  | move _ _ _ _ _ quiet | free _ _ quiet =>
    refine hold (quiet.handles tid handle hholds') fun req status hlookup _ => ?_
    rcases quiet.lookup handle with heq | ⟨info, hinfo, heq⟩
    · exact ⟨status, heq.trans hlookup⟩
    · obtain rfl := Option.some.inj (hinfo.symm.trans hlookup)
      exact ⟨_, heq⟩
  | @add _ req stage added =>
    obtain ⟨hnew, -, -, -, hclients⟩ := RequestManager.addRequest_of_true added
    simp only [Server.goto] at hholds'
    rw [hclients] at hholds'
    rcases ClientDataManager.holds_of_insertRequestByClientId hholds' with hholds | ⟨rfl, rfl⟩
    · refine hold hholds fun r status hlookup _ => ⟨status, ?_⟩
      have hne : handle ≠ (s.heap req).mHandle := by
        rintro rfl
        exact hnew (UnorderedMap.mem_of_lookup hlookup)
      exact (lookup_of_added added handle).trans ((if_neg hne).trans hlookup)
    · exact ⟨req, REQ_UNCHANGED, (lookup_of_added added _).trans (if_pos rfl), rfl⟩
  | @mark _ req marking =>
    refine hold hholds' fun r status hlookup _ => ?_
    simp only [active, Server.turn, RequestManager.markRequestAsComplete,
      RequestManager.lookup_addStatus]
    split
    · rename_i heq
      subst heq
      rw [show s.tracker.manager.mActiveRequests.lookup (s.heap req).mHandle = _ from hlookup]
      exact ⟨_, rfl⟩
    · exact ⟨status, hlookup⟩
  | @discard _ req discarding =>
    have hok := hinv.consumer
    simp only [ConsumerOk, discarding] at hok
    obtain ⟨hholds, hne⟩ := ClientDataManager.holds_of_deleteRequestByClientId hholds'
    refine hold hholds fun r status hlookup htid => ⟨status, ?_⟩
    -- the handle is not that of the discarded request, whose thread would be this one
    have hhandle : handle ≠ (s.heap req).mHandle := by
      rintro rfl
      obtain ⟨r', hr', htune, -, heq⟩ := hinv.origin _ _ hlookup
      obtain rfl := Option.some.inj hr'
      obtain rfl := hinv.unique r req htune hok heq
      exact hne ⟨htid.symm, rfl⟩
    exact (RequestManager.lookup_removeRequest handle).trans ((if_neg hhandle).trans hlookup)
  | @untrack _ req target untracking =>
    obtain ⟨-, htarget, -, -⟩ := hinv.target_of_untrack untracking
    obtain ⟨hholds, hne⟩ := ClientDataManager.holds_of_deleteRequestByClientId hholds'
    refine hold hholds fun r status hlookup htid => ⟨status, ?_⟩
    have hhandle : handle ≠ (s.heap target).mHandle := by
      rintro rfl
      obtain ⟨r', hr', htune, -, heq⟩ := hinv.origin _ _ hlookup
      obtain rfl := Option.some.inj hr'
      obtain rfl := hinv.unique r target htune htarget heq
      exact hne ⟨htid.symm, rfl⟩
    exact (RequestManager.lookup_removeRequest handle).trans ((if_neg hhandle).trans hlookup)

/-! ## The lists -/

/-- A linked node stays at home: its request is past the verifier, and what changes later is the
duration and the timer. -/
theorem links_of_effect (hinv : Inv env s) (h : Effect env s e s') :
    ∀ i k, ∀ node ∈ s'.table.mCocoTable i k, node ∈ (s'.heap node.addr.1).nodes ∧
      CocoTable.home env (s'.heap node.addr.1).getPriority node = some (i, k) ∧
      s'.IsTune node.addr.1 ∧ (s'.stage node.addr.1 = .held ∨ s'.stage node.addr.1 = .live ∨
        s'.stage node.addr.1 = .freed) := by
  intro i k node hnode'
  have hitem := hinv.item
  -- a node that was linked before
  have hold : node ∈ s.table.mCocoTable i k →
      ((s.stage node.addr.1 = .held ∨ s.stage node.addr.1 = .live ∨
          s.stage node.addr.1 = .freed) →
        Retimed (s.heap node.addr.1) (s'.heap node.addr.1) ∧
          (s'.stage node.addr.1 = .held ∨ s'.stage node.addr.1 = .live ∨
            s'.stage node.addr.1 = .freed)) →
      node ∈ (s'.heap node.addr.1).nodes ∧
        CocoTable.home env (s'.heap node.addr.1).getPriority node = some (i, k) ∧
        s'.IsTune node.addr.1 ∧ (s'.stage node.addr.1 = .held ∨ s'.stage node.addr.1 = .live ∨
          s'.stage node.addr.1 = .freed) := by
    intro hnode hkeep
    obtain ⟨hmem, hhome, htune, hstage⟩ := hinv.links i k node hnode
    obtain ⟨hretimed, hstage'⟩ := hkeep hstage
    rw [hretimed.links.1, hretimed.links.2]
    exact ⟨hmem, hhome, h.isTune htune, hstage'⟩
  -- a node of the request that is being inserted
  have hnew : ∀ req, s.consumer = .insert req → node ∈ (s.heap req).nodes →
      node.addr.1 = req ∧ s.IsTune req := by
    intro req hconsumer hmem
    have hok := hinv.consumer
    simp only [ConsumerOk, hconsumer] at hok
    exact ⟨hinv.owned req hok.1 node hmem, hok⟩
  have hrefl : ∀ request : Request, Retimed request request := fun request => ⟨_, _, rfl⟩
  cases h with
  | arrive | move | free | add | take | discard =>
    refine hold hnode' fun hstage => ?_
    simp only [Server.arrive, Server.goto, Server.turn, cleanUpRequest]
    grind [Stage.moving]
  | turn | mark | stutter => exact hold hnode' fun hstage => ⟨hrefl _, hstage⟩
  | dismiss _ _ retimed =>
    refine hold hnode' fun hstage => ⟨?_, ?_⟩
    · simp only [Server.turn, cleanUpRequest, Server.goto]
      grind
    · simp only [Server.turn, cleanUpRequest, Server.goto]
      grind
  | untrack untracking =>
    refine hold hnode' fun hstage => ⟨hrefl _, ?_⟩
    simp only [Server.turn, cleanUpRequest, Server.goto]
    grind
  | unlink =>
    exact hold (CocoTable.mem_removeRequest.mp hnode').1 fun hstage => ⟨hrefl _, hstage⟩
  | @insert e' req table request timerBlock enqueued inserting inserted retimed =>
    have htable : table = (s.table.insertRequest env (s.heap req) timerBlock enqueued).2.1 := by
      rw [inserted]
    simp only [Server.turn, Server.goto] at hnode'
    rw [htable] at hnode'
    rcases CocoTable.mem_insertRequest hnode' with hnode | ⟨hmem, hhome⟩
    · refine hold hnode fun hstage => ?_
      simp only [Server.turn, Server.goto]
      grind
    · obtain ⟨haddr, htune⟩ := hnew req inserting hmem
      rw [haddr]
      refine ⟨?_, ?_, ?_, ?_⟩
      · simpa [Server.turn, Server.goto, retimed.links.1] using hmem
      · simpa [Server.turn, Server.goto, retimed.links.2] using hhome
      · simpa [IsTune, Server.turn, Server.goto] using retimed.kept.type.trans htune.2
      · simp [Server.turn, Server.goto]
  | @fail req table request answer inserting failed retimed =>
    have hheld := hinv.held (show s.consumer.item = some req by rw [inserting]; rfl)
    have htable : table = (s.table.insertRequest env (s.heap req) answer.timerBlock
        answer.enqueued).2.1 := by
      rw [failed]
    simp only [Server.turn] at hnode'
    rw [htable] at hnode'
    rcases CocoTable.mem_insertRequest hnode' with hnode | ⟨hmem, hhome⟩
    · refine hold hnode fun hstage => ⟨?_, hstage⟩
      simp only [Server.turn]
      grind
    · obtain ⟨haddr, htune⟩ := hnew req inserting hmem
      rw [haddr]
      refine ⟨?_, ?_, ⟨htune.1, ?_⟩, Or.inl hheld⟩
      · simpa [Server.turn, retimed.links.1] using hmem
      · simpa [Server.turn, retimed.links.2] using hhome
      · simpa [Server.turn] using retimed.kept.type.trans htune.2

/-! ## Every reachable state -/

/-- **Every effect keeps the invariant**, field by field. -/
theorem inv_of_effect (hinv : Inv env s) (h : Effect env s e s') : Inv env s' where
  received := received_of_effect hinv h
  fits := fits_of_effect hinv h
  unique := unique_of_effect hinv h
  owned := owned_of_effect hinv h
  item := item_of_effect hinv h
  consumer := consumer_of_effect hinv h
  origin := origin_of_effect hinv h
  entry := entry_of_effect hinv h
  handles := handles_of_effect hinv h
  cleaned := cleaned_of_effect hinv h
  links := links_of_effect hinv h

/-- At the start there is no message. -/
theorem inv_init (heap : Heap) : Inv env (init heap) where
  received := by simp [init]
  fits := by simp [init]
  unique := by simp [IsTune, init]
  owned := by simp [init]
  item := by simp [init, Consumer.item]
  consumer := trivial
  origin := by
    intro handle info h
    cases h
  entry := by simp [IsTune, init]
  handles := by
    rintro tid handle ⟨set, h, -⟩
    cases h
  cleaned := by simp [init]
  links := by
    intro i k node h
    cases h

/-- **The invariant holds in every reachable state.** -/
theorem inv_of_run {heap : Heap} {events : List Event}
    (hrun : (machine env).Run (init heap) events) : Inv env ((machine env).exec (init heap) events) :=
  hrun.invariant (inv_init heap) fun _ _ hinv henabled =>
    inv_of_effect hinv (effect_of_enabled hinv henabled)

end Server

end ResourceTuner
