import ResourceTuner.Common.SafeOps
import ResourceTuner.Lib.Simulation
import ResourceTuner.Server.Cancellation

/-!
# Handles

`generateUniqueHandle` of `AuxRoutines.cpp` and `RequestReceiver::forwardMessage`.  The listener asks
for a handle for every message, hands the message to the pool of workers and writes the handle back if
the message was a tune message; the classifier asks for handles too.  A worker may be done with a
message before the handle is written, and it may drop it.  Here the threads that ask for handles are
put in front of the server: a message gets its handle from the generator, and nothing else is said
about it.

* **`generateUniqueHandle`** — the generator;
* **`Receiver`**, **`machine`** — the listener, the classifier and the server, interleaved;
* **`Fresh`** — what is true of the handles;
* **`projects`** — the server is never given a handle twice;
* **`handles_of_run`** — what a client may rely on.
-/

namespace ResourceTuner

/-! ## The generator -/

/-- `generateUniqueHandle`, with the counter it keeps. -/
def generateUniqueHandle (handleGenerator : SignedInt 64) : Int × SignedInt 64 :=
  match SafeOps.Add handleGenerator (.clamp 64 1) with
  | some (nextHandle, .SUCCESS) => (nextHandle.toInt, nextHandle)
  | _ => (-1, handleGenerator)

/-- The next handle is one more than the last, until there are no more. -/
theorem generateUniqueHandle_cases (g : SignedInt 64) :
    (generateUniqueHandle g).1 = g.toInt + 1 ∧ (generateUniqueHandle g).2.toInt = g.toInt + 1 ∨
      g = .highest 64 ∧ generateUniqueHandle g = (-1, g) := by
  have hlimit : SignedInt.limit 64 = 2 ^ 63 := rfl
  have hone : (SignedInt.clamp 64 1).toInt = 1 :=
    SignedInt.toInt_clamp (by rw [hlimit]; decide) (by rw [hlimit]; decide)
  have hlow := g.neg_limit_le
  have hhigh := g.lt_limit
  rw [hlimit] at hlow hhigh
  rw [generateUniqueHandle, SafeOps.add_eq, hone]
  by_cases hmax : g.toInt + 1 < 2 ^ 63
  · left
    have hclamp : (SignedInt.clamp 64 (g.toInt + 1)).toInt = g.toInt + 1 :=
      SignedInt.toInt_clamp (by rw [hlimit]; omega) (by rw [hlimit]; exact hmax)
    have hstatus : SafeOps.statusOf 64 (g.toInt + 1) = .SUCCESS := by
      rw [SafeOps.statusOf, SignedInt.toInt_highest, SignedInt.toInt_lowest, hlimit,
        if_neg (by omega), if_neg (by omega)]
    simp only [SafeOps.saturated, hstatus, hclamp, and_self]
  · right
    have hg : g = .highest 64 := by
      apply SignedInt.ext
      rw [SignedInt.toInt_highest, hlimit]
      omega
    have hstatus : SafeOps.statusOf 64 (g.toInt + 1) = .OVERFLOW := by
      rw [SafeOps.statusOf, SignedInt.toInt_highest, hlimit, if_pos (by omega)]
    simp only [SafeOps.saturated, hstatus]
    exact ⟨hg, trivial⟩

/-! ## The receiver -/

/-- A connection with the type of its message. -/
structure Incoming where
  clientSocket : Nat
  requestType : RequestType
  deriving DecidableEq, Repr

/-- The messages whose handle is written back. -/
def RequestType.isTune (type : RequestType) : Bool :=
  type = .REQ_RESOURCE_TUNING || type = .REQ_SIGNAL_TUNING

/-- Who asked for a handle. -/
inductive Origin where
  | client (clientSocket : Nat)
  | classifier
  deriving DecidableEq, Repr

/-- The thread in `ListenForClientRequests`: between two messages, with the handle of a message, or in
front of the reply. -/
inductive Listener where
  | idle
  | generated (info : Incoming) (mHandle : Int)
  | forwarded (info : Incoming) (mHandle : Int)
  deriving DecidableEq, Repr

/-- The server behind the threads that ask for handles.  `asked` are the handles so far with those who
asked for them, `carried` the ones whose requests have not reached the server yet; `unnumbered` counts
the requests of the classifier for which no handle was left.  `origin` says whose message a request
was. -/
structure Receiver where
  server : Server
  handleGenerator : SignedInt 64
  listener : Listener
  asked : List (Int × Origin)
  carried : List (Int × Origin)
  unnumbered : Nat
  origin : ReqPtr → Origin
  replies : List (Nat × Int)

namespace Receiver

/-- The server has received nothing, and no handle was asked for. -/
def init (heap : Heap) : Receiver where
  server := .init heap
  handleGenerator := .clamp 64 0
  listener := .idle
  asked := []
  carried := []
  unnumbered := 0
  origin _ := .classifier
  replies := []

inductive Event where
  /-- the listener reads a message and asks for a handle -/
  | receive (info : Incoming)
  /-- it hands the message to the pool, which may not be there or refuse it -/
  | forward (threadPool enqueued : Bool)
  /-- it writes the handle back, if the socket takes it -/
  | reply (written : Bool)
  /-- the classifier asks for a handle, and has a request with it, with the handle -1 if none is left -/
  | classify
  /-- a worker gives up a message before it is a request -/
  | drop (mHandle : Int) (asked : Origin)
  /-- a worker has made a tune message a request -/
  | submit (req : ReqPtr) (request : Request) (isValidated : Bool) (asked : Origin)
  /-- the server goes on, or is given another message -/
  | server (e : Server.Event)

/-- The state after an event. -/
def next (env : Env) (s : Receiver) : Event → Receiver
  | .receive info =>
    let made := generateUniqueHandle s.handleGenerator
    { s with
      handleGenerator := made.2
      listener := if made.1 < 0 then .idle else .generated info made.1
      asked := if made.1 < 0 then s.asked else (made.1, .client info.clientSocket) :: s.asked }
  | .forward threadPool enqueued =>
    match s.listener with
    | .generated info mHandle =>
      if !threadPool then { s with listener := .idle }
      else
        { s with
          listener := if info.requestType.isTune then .forwarded info mHandle else .idle
          carried :=
            if info.requestType.isTune && enqueued then
              (mHandle, .client info.clientSocket) :: s.carried
            else s.carried }
    | _ => s
  | .reply written =>
    match s.listener with
    | .forwarded info mHandle =>
      { s with
        listener := .idle
        replies := if written then (info.clientSocket, mHandle) :: s.replies else s.replies }
    | _ => s
  | .classify =>
    let made := generateUniqueHandle s.handleGenerator
    { s with
      handleGenerator := made.2
      asked := if made.1 < 0 then s.asked else (made.1, .classifier) :: s.asked
      carried := if made.1 < 0 then s.carried else (made.1, .classifier) :: s.carried
      unnumbered := if made.1 < 0 then s.unnumbered + 1 else s.unnumbered }
  | .drop mHandle asked =>
    { s with
      carried := s.carried.erase (mHandle, asked)
      unnumbered := if mHandle = -1 then s.unnumbered - 1 else s.unnumbered }
  | .submit req request isValidated asked =>
    { s with
      server := s.server.next env (.receive req request isValidated)
      carried := s.carried.erase (request.mHandle, asked)
      unnumbered := if request.mHandle = -1 then s.unnumbered - 1 else s.unnumbered
      origin := Function.update s.origin req asked }
  | .server e => { s with server := s.server.next env e }

/-- The handle is with a thread that is making a request of it: it was given to that thread, or it is the
-1 of the classifier. -/
def Carries (s : Receiver) (mHandle : Int) (asked : Origin) : Prop :=
  (mHandle, asked) ∈ s.carried ∨ mHandle = -1 ∧ asked = .classifier ∧ 0 < s.unnumbered

/-- When an event can happen.  A tune request reaches the server with a handle that is carried; where
the other messages have their handles from is not said.  The generator does not keep requests without
a handle apart, so that here the server's own guard is asked for: it has had no other of them. -/
def Enabled (s : Receiver) : Event → Prop
  | .receive _ => s.listener = .idle
  | .forward _ _ => ∃ info mHandle, s.listener = .generated info mHandle
  | .reply _ => ∃ info mHandle, s.listener = .forwarded info mHandle
  | .classify => True
  | .drop mHandle asked => s.Carries mHandle asked
  | .submit req request isValidated asked =>
    s.server.stage req = .unused ∧ request.mReqType = .REQ_RESOURCE_TUNING ∧
      (∀ node ∈ request.nodes, node.addr.1 = req) ∧ s.Carries request.mHandle asked ∧
      (request.mHandle = -1 → s.server.Enabled (.receive req request isValidated))
  | .server (.receive req request isValidated) =>
    s.server.Enabled (.receive req request isValidated) ∧ request.mReqType ≠ .REQ_RESOURCE_TUNING
  | .server e => s.server.Enabled e

/-- The interleavings of the listener, the classifier and the threads of the server. -/
def machine (env : Env) : Machine Receiver Event := ⟨Enabled, next env⟩

end Receiver

/-! ## Tune requests of the server -/

namespace Server

variable {env : Env} {s : Server} {e : Event} {req : ReqPtr}

theorem received_work (req : ReqPtr) (answer : Answer) :
    (s.work env req answer).received = s.received := by
  unfold work
  split
  all_goals
    simp only [proceed_received, addAndWakeup_received]
    repeat' split
    all_goals
      first
        | rfl
        | exact proceed_received

/-- A tune request was one before, with the same handle, or the event has brought it. -/
theorem isTune_of_next (hinv : Inv env s) (henabled : s.Enabled e) (htune : (next env s e).IsTune req) :
    s.IsTune req ∧ ((next env s e).heap req).mHandle = (s.heap req).mHandle ∨
      ∃ request isValidated, e = .receive req request isValidated ∧
        request.mReqType = .REQ_RESOURCE_TUNING := by
  have heffect := effect_of_enabled hinv henabled
  by_cases hunused : s.stage req = .unused
  · -- only an arrival gives an unused pointer a message
    have hnot : req ∉ s.received := (hinv.received req).mp hunused
    have hmem : req ∈ (next env s e).received := by
      by_contra hnot'
      exact htune.1 ((received_of_effect hinv heffect req).mpr hnot')
    cases e with
    | receive other request isValidated =>
      rcases List.mem_cons.mp hmem with rfl | hmem
      · refine Or.inr ⟨request, isValidated, rfl, ?_⟩
        have htype := htune.2
        simpa [next, arrive] using htype
      · exact absurd hmem hnot
    | work other answer =>
      rw [next, received_work] at hmem
      exact absurd hmem hnot
    | pop other =>
      rw [next, pop_received] at hmem
      exact absurd hmem hnot
    | consume answer =>
      rw [next, received_consume] at hmem
      exact absurd hmem hnot
    | timerExpired other target duration =>
      rw [next, addAndWakeup_received] at hmem
      rcases List.mem_cons.mp hmem with rfl | hmem
      · have htype := htune.2
        simp [next, arrive, Request.populateUntuneRequest] at htype
      · exact absurd hmem hnot
  · obtain ⟨-, hkept⟩ := heffect.persists hunused
    exact Or.inl ⟨⟨hunused, hkept.type ▸ htune.2⟩, hkept.handle⟩

end Server

namespace Receiver

/-! ## What is true of the handles -/

/-- The handle has been asked for by nobody else, and neither a worker nor the server nor a client has
it. -/
structure Unused (s : Receiver) (mHandle : Int) : Prop where
  carried : mHandle ∉ s.carried.map Prod.fst
  tune : ∀ req, s.server.IsTune req → (s.server.heap req).mHandle ≠ mHandle
  replies : mHandle ∉ s.replies.map Prod.snd

/-- Handles are asked for once each, and are then with those who asked for them. -/
structure Fresh (s : Receiver) : Prop where
  nonneg : 0 ≤ s.handleGenerator.toInt
  asked : (s.asked.map Prod.fst).Nodup
  range : ∀ pair ∈ s.asked, 0 < pair.1 ∧ pair.1 ≤ s.handleGenerator.toInt
  carriedNodup : (s.carried.map Prod.fst).Nodup
  carried : ∀ pair ∈ s.carried, pair ∈ s.asked
  tune : ∀ req, s.server.IsTune req → (s.server.heap req).mHandle ≠ -1 →
    ((s.server.heap req).mHandle, s.origin req) ∈ s.asked ∧
      (s.server.heap req).mHandle ∉ s.carried.map Prod.fst
  generated : ∀ info mHandle, s.listener = .generated info mHandle →
    (mHandle, .client info.clientSocket) ∈ s.asked ∧ s.Unused mHandle
  forwarded : ∀ info mHandle, s.listener = .forwarded info mHandle →
    (mHandle, .client info.clientSocket) ∈ s.asked ∧ mHandle ∉ s.replies.map Prod.snd
  repliesNodup : (s.replies.map Prod.snd).Nodup
  replies : ∀ reply ∈ s.replies, (reply.2, .client reply.1) ∈ s.asked

variable {env : Env} {s : Receiver} {e : Event}

theorem fresh_init (heap : Heap) : Fresh (init heap) := by
  have hlimit : SignedInt.limit 64 = 2 ^ 63 := rfl
  have hzero : (SignedInt.clamp 64 0).toInt = 0 :=
    SignedInt.toInt_clamp (by rw [hlimit]; decide) (by rw [hlimit]; decide)
  constructor
  · exact le_of_eq hzero.symm
  · exact List.nodup_nil
  · intro pair h
    cases h
  · exact List.nodup_nil
  · intro pair h
    cases h
  · intro req h _
    exact absurd rfl h.1
  · intro info mHandle h
    cases h
  · intro info mHandle h
    cases h
  · exact List.nodup_nil
  · intro reply h
    cases h

/-- A handle has one asker. -/
theorem Fresh.asker_unique (h : Fresh s) {mHandle : Int} {asked asked' : Origin}
    (hasked : (mHandle, asked) ∈ s.asked) (hasked' : (mHandle, asked') ∈ s.asked) : asked = asked' := by
  have heq := List.inj_on_of_nodup_map h.asked hasked hasked' rfl
  exact congrArg Prod.snd heq

/-- The next handle is with nobody. -/
theorem Fresh.unused (h : Fresh s) {mHandle : Int} (hnew : s.handleGenerator.toInt < mHandle) :
    mHandle ∉ s.asked.map Prod.fst ∧ s.Unused mHandle := by
  have hnot : ∀ asked, (mHandle, asked) ∉ s.asked := by
    intro asked hmem
    have := (h.range _ hmem).2
    omega
  refine ⟨?_, ?_, ?_, ?_⟩
  · rw [List.mem_map]
    rintro ⟨⟨_, asked⟩, hmem, rfl⟩
    exact hnot asked hmem
  · rw [List.mem_map]
    rintro ⟨⟨_, asked⟩, hmem, rfl⟩
    exact hnot asked (h.carried _ hmem)
  · rintro req htune rfl
    have hnonneg := h.nonneg
    exact hnot _ (h.tune req htune (by omega)).1
  · rw [List.mem_map]
    rintro ⟨⟨socket, _⟩, hmem, rfl⟩
    exact hnot _ (h.replies _ hmem)

/-! ## Every step keeps it -/

/-- Asking for a handle. -/
theorem Fresh.ask (h : Fresh s) {g : SignedInt 64} (asked : Origin)
    (hg : g.toInt = s.handleGenerator.toInt + 1) :
    Fresh { s with handleGenerator := g, asked := (g.toInt, asked) :: s.asked } := by
  have hnonneg := h.nonneg
  obtain ⟨hnew, -⟩ := h.unused (show s.handleGenerator.toInt < g.toInt by omega)
  refine
    { h with
      nonneg := by show 0 ≤ g.toInt; omega
      asked := List.nodup_cons.mpr ⟨hnew, h.asked⟩
      range := ?_
      carried := fun pair hpair => List.mem_cons_of_mem _ (h.carried pair hpair)
      tune := fun req htune hne =>
        ⟨List.mem_cons_of_mem _ (h.tune req htune hne).1, (h.tune req htune hne).2⟩
      generated := fun info mHandle hlistener =>
        ⟨List.mem_cons_of_mem _ (h.generated info mHandle hlistener).1,
          (h.generated info mHandle hlistener).2.1, (h.generated info mHandle hlistener).2.2,
          (h.generated info mHandle hlistener).2.3⟩
      forwarded := fun info mHandle hlistener =>
        ⟨List.mem_cons_of_mem _ (h.forwarded info mHandle hlistener).1,
          (h.forwarded info mHandle hlistener).2⟩
      replies := fun reply hreply => List.mem_cons_of_mem _ (h.replies reply hreply) }
  intro pair hpair
  rcases List.mem_cons.mp hpair with rfl | hpair
  · exact ⟨by show 0 < g.toInt; omega, le_refl _⟩
  · have := h.range pair hpair
    exact ⟨this.1, by show pair.1 ≤ g.toInt; omega⟩

/-- The listener has nothing to do with the handles any more. -/
theorem Fresh.rest (h : Fresh s) : Fresh { s with listener := .idle } :=
  { h with
    generated := fun _ _ hlistener => by cases hlistener
    forwarded := fun _ _ hlistener => by cases hlistener }

/-- Handles that are carried are positive. -/
theorem Fresh.ne_of_carried (h : Fresh s) {mHandle : Int} (hmem : mHandle ∈ s.carried.map Prod.fst) :
    mHandle ≠ -1 := by
  obtain ⟨pair, hpair, rfl⟩ := List.mem_map.mp hmem
  have hpos := (h.range pair (h.carried pair hpair)).1
  omega

/-- How many requests have no handle is nothing to the handles. -/
theorem Fresh.count (h : Fresh s) (unnumbered : Nat) : Fresh { s with unnumbered := unnumbered } :=
  { h with
    generated := fun info mHandle hlistener =>
      have hgenerated := h.generated info mHandle hlistener
      ⟨hgenerated.1, hgenerated.2.1, hgenerated.2.2, hgenerated.2.3⟩ }

/-- Fewer handles are carried. -/
theorem Fresh.erase (h : Fresh s) (pair : Int × Origin) :
    Fresh { s with carried := s.carried.erase pair } := by
  have hsub : (s.carried.erase pair).Sublist s.carried := List.erase_sublist
  have hmap : ((s.carried.erase pair).map Prod.fst).Sublist (s.carried.map Prod.fst) := hsub.map _
  exact
    { h with
      carriedNodup := h.carriedNodup.sublist hmap
      carried := fun pair' hpair => h.carried pair' (hsub.subset hpair)
      tune := fun req htune hne =>
        ⟨(h.tune req htune hne).1, fun hmem => (h.tune req htune hne).2 (hmap.subset hmem)⟩
      generated := fun info mHandle hlistener =>
        ⟨(h.generated info mHandle hlistener).1,
          fun hmem => (h.generated info mHandle hlistener).2.carried (hmap.subset hmem),
          (h.generated info mHandle hlistener).2.tune, (h.generated info mHandle hlistener).2.replies⟩ }

/-- A worker carries one more handle, which nobody else has. -/
theorem Fresh.carry (h : Fresh s) {mHandle : Int} {asked : Origin}
    (hasked : (mHandle, asked) ∈ s.asked) (hcarried : mHandle ∉ s.carried.map Prod.fst)
    (htune : ∀ req, s.server.IsTune req → (s.server.heap req).mHandle ≠ mHandle)
    (hlistener : ∀ info, s.listener ≠ .generated info mHandle) :
    Fresh { s with carried := (mHandle, asked) :: s.carried } := by
  refine
    { h with
      carriedNodup := List.nodup_cons.mpr ⟨hcarried, h.carriedNodup⟩
      carried := ?_
      tune := ?_
      generated := ?_ }
  · intro pair hpair
    rcases List.mem_cons.mp hpair with rfl | hpair
    · exact hasked
    · exact h.carried pair hpair
  · intro req hreq hne
    refine ⟨(h.tune req hreq hne).1, fun hmem => ?_⟩
    rcases List.mem_cons.mp hmem with heq | hmem
    · exact htune req hreq heq
    · exact (h.tune req hreq hne).2 hmem
  · intro info mHandle' heq
    have hgenerated := h.generated info mHandle' heq
    refine ⟨hgenerated.1, fun hmem => ?_, hgenerated.2.tune, hgenerated.2.replies⟩
    rcases List.mem_cons.mp hmem with rfl | hmem
    · exact hlistener info heq
    · exact hgenerated.2.carried hmem

/-- A message of a client gets the next handle. -/
theorem fresh_receive (h : Fresh s) (info : Incoming) : Fresh (s.next env (.receive info)) := by
  have hnonneg := h.nonneg
  rcases generateUniqueHandle_cases s.handleGenerator with ⟨hhandle, hgen⟩ | ⟨-, hgen⟩
  · have hask := h.ask (.client info.clientSocket) hgen
    obtain ⟨-, hunused⟩ := h.unused (show s.handleGenerator.toInt <
      (generateUniqueHandle s.handleGenerator).2.toInt by omega)
    rw [next, hhandle, ← hgen, if_neg (by omega), if_neg (by omega)]
    refine
      { hask with
        generated := ?_
        forwarded := fun _ _ hlistener => by cases hlistener }
    intro info' mHandle hlistener
    cases hlistener
    exact ⟨List.mem_cons_self, hunused.1, hunused.2, hunused.3⟩
  · have hminus : (-1 : Int) < 0 := by decide
    rw [next, hgen, if_pos hminus, if_pos hminus]
    exact h.rest

theorem fresh_classify (h : Fresh s) : Fresh (s.next env .classify) := by
  have hnonneg := h.nonneg
  rcases generateUniqueHandle_cases s.handleGenerator with ⟨hhandle, hgen⟩ | ⟨-, hgen⟩
  · have hask := h.ask .classifier hgen
    obtain ⟨-, hunused⟩ := h.unused (show s.handleGenerator.toInt <
      (generateUniqueHandle s.handleGenerator).2.toInt by omega)
    rw [next, hhandle, ← hgen, if_neg (by omega), if_neg (by omega), if_neg (by omega)]
    -- the listener has an older handle
    refine hask.carry List.mem_cons_self hunused.carried hunused.tune fun info hlistener => ?_
    have hrange := h.range _ (h.generated info _ hlistener).1
    omega
  · have hminus : (-1 : Int) < 0 := by decide
    rw [next, hgen, if_pos hminus, if_pos hminus, if_pos hminus]
    exact h.count _

theorem fresh_forward (h : Fresh s) (threadPool enqueued : Bool) :
    Fresh (s.next env (.forward threadPool enqueued)) := by
  rw [next]
  cases hlistener : s.listener with
  | idle | forwarded => exact h
  | generated info mHandle =>
    obtain ⟨hasked, hunused⟩ := h.generated info mHandle hlistener
    have hforwarded : Fresh
        { s with
          listener := if info.requestType.isTune then .forwarded info mHandle else .idle } := by
      refine { h with generated := ?_, forwarded := ?_ }
      · intro info' mHandle' heq
        split at heq <;> cases heq
      · intro info' mHandle' heq
        split at heq
        · cases heq
          exact ⟨hasked, hunused.replies⟩
        · cases heq
    simp only
    split
    · exact h.rest
    · by_cases hcarried : (info.requestType.isTune && enqueued) = true
      · -- a worker carries the handle too
        rw [if_pos hcarried]
        refine hforwarded.carry hasked hunused.carried hunused.tune fun info' heq => ?_
        simp only at heq
        split at heq <;> cases heq
      · rw [if_neg hcarried]
        exact hforwarded

theorem fresh_reply (h : Fresh s) (written : Bool) : Fresh (s.next env (.reply written)) := by
  rw [next]
  cases hlistener : s.listener with
  | idle | generated => exact h
  | forwarded info mHandle =>
    obtain ⟨hasked, hnot⟩ := h.forwarded info mHandle hlistener
    simp only
    split
    · refine
        { h.rest with
          repliesNodup := List.nodup_cons.mpr ⟨hnot, h.repliesNodup⟩
          replies := ?_
          generated := fun _ _ heq => by cases heq
          forwarded := fun _ _ heq => by cases heq }
      intro reply hreply
      rcases List.mem_cons.mp hreply with rfl | hreply
      · exact hasked
      · exact h.replies reply hreply
    · exact h.rest

/-- The server goes on, and its tune requests keep their handles. -/
theorem Fresh.advance (h : Fresh s) {server : Server}
    (htune : ∀ req, server.IsTune req → s.server.IsTune req ∧
      (server.heap req).mHandle = (s.server.heap req).mHandle) :
    Fresh { s with server := server } := by
  refine { h with tune := ?_, generated := ?_ }
  · intro req hreq
    obtain ⟨hold, hhandle⟩ := htune req hreq
    show (server.heap req).mHandle ≠ -1 → ((server.heap req).mHandle, s.origin req) ∈ s.asked ∧ _
    rw [hhandle]
    exact h.tune req hold
  · intro info mHandle hlistener
    obtain ⟨hasked, hunused⟩ := h.generated info mHandle hlistener
    refine ⟨hasked, hunused.carried, fun req hreq => ?_, hunused.replies⟩
    obtain ⟨hold, hhandle⟩ := htune req hreq
    show (server.heap req).mHandle ≠ mHandle
    rw [hhandle]
    exact hunused.tune req hold

theorem notMem_map_erase {pairs : List (Int × Origin)} (hnodup : (pairs.map Prod.fst).Nodup)
    {pair : Int × Origin} (hmem : pair ∈ pairs) : pair.1 ∉ (pairs.erase pair).map Prod.fst := by
  have hperm := (List.perm_cons_erase hmem).map Prod.fst
  exact (List.nodup_cons.mp (hperm.nodup_iff.mp hnodup)).1

/-- The guard of the server holds of a handle that is carried. -/
theorem Fresh.enabled_receive (h : Fresh s) (hinv : Server.Inv env s.server) {req : ReqPtr}
    {request : Request} (isValidated : Bool) {asked : Origin}
    (henabled : s.Enabled (.submit req request isValidated asked)) :
    s.server.Enabled (.receive req request isValidated) := by
  obtain ⟨hunused, htype, howned, hcarried | ⟨hminus, -⟩, hserver⟩ := henabled
  · refine ⟨hunused, Or.inl htype, howned, fun _ other hother hotherType heq => ?_⟩
    have hmem : request.mHandle ∈ s.carried.map Prod.fst := List.mem_map_of_mem hcarried
    have hotherTune : s.server.IsTune other := by
      refine ⟨fun hstage => ?_, hotherType⟩
      exact (hinv.received other).mp hstage hother
    apply (h.tune other hotherTune (heq ▸ h.ne_of_carried hmem)).2
    rw [heq]
    exact hmem
  · exact hserver hminus

theorem fresh_submit (h : Fresh s) (hinv : Server.Inv env s.server) {req : ReqPtr}
    {request : Request} {isValidated : Bool} {asked : Origin}
    (henabled : s.Enabled (.submit req request isValidated asked)) :
    Fresh (s.next env (.submit req request isValidated asked)) := by
  have hreceive := h.enabled_receive hinv isValidated henabled
  obtain ⟨hunused, htype, -, hcarries, -⟩ := henabled
  have hold : ∀ r, (s.server.next env (.receive req request isValidated)).IsTune r → r ≠ req →
      s.server.IsTune r ∧ ((s.server.next env (.receive req request isValidated)).heap r).mHandle =
        (s.server.heap r).mHandle := by
    intro r hr hne
    rcases Server.isTune_of_next hinv hreceive hr with hold | ⟨_, _, hevent, -⟩
    · exact hold
    · cases hevent
      exact absurd rfl hne
  have hnew : (s.server.next env (.receive req request isValidated)).heap req = request := by
    simp [Server.next, Server.arrive]
  have herased := (h.erase (request.mHandle, asked)).count
    (if request.mHandle = -1 then s.unnumbered - 1 else s.unnumbered)
  refine { herased with tune := ?_, generated := ?_ }
  · intro r hr
    show ((s.server.next env (.receive req request isValidated)).heap r).mHandle ≠ -1 →
      (((s.server.next env (.receive req request isValidated)).heap r).mHandle,
        Function.update s.origin req asked r) ∈ s.asked ∧
      ((s.server.next env (.receive req request isValidated)).heap r).mHandle ∉
        (s.carried.erase (request.mHandle, asked)).map Prod.fst
    by_cases heq : r = req
    · subst heq
      rw [hnew, Function.update_self]
      intro hne
      rcases hcarries with hcarried | ⟨hminus, -⟩
      · exact ⟨h.carried _ hcarried, notMem_map_erase h.carriedNodup hcarried⟩
      · exact absurd hminus hne
    · obtain ⟨hrold, hhandle⟩ := hold r hr heq
      rw [hhandle, Function.update_of_ne heq]
      exact herased.tune r hrold
  · intro info mHandle hlistener
    obtain ⟨hasked, hwith⟩ := herased.generated info mHandle hlistener
    refine ⟨hasked, hwith.carried, fun r hr => ?_, hwith.replies⟩
    show ((s.server.next env (.receive req request isValidated)).heap r).mHandle ≠ mHandle
    by_cases heq : r = req
    · subst heq
      rw [hnew]
      rintro rfl
      rcases hcarries with hcarried | ⟨hminus, -⟩
      · exact (h.generated info _ hlistener).2.carried (List.mem_map_of_mem hcarried)
      · have hpos := (h.range _ hasked).1
        omega
    · obtain ⟨hrold, hhandle⟩ := hold r hr heq
      rw [hhandle]
      exact hwith.tune r hrold

/-! ## The server behind the generator -/

/-- What an event is for the server. -/
def trace : Receiver → Event → List Server.Event
  | _, .submit req request isValidated _ => [.receive req request isValidated]
  | _, .server e => [e]
  | _, _ => []

theorem Enabled.server {e : Server.Event} (h : s.Enabled (.server e)) :
    s.server.Enabled e ∧ ∀ req request isValidated, e = .receive req request isValidated →
      request.mReqType ≠ .REQ_RESOURCE_TUNING := by
  cases e with
  | receive req request isValidated =>
    refine ⟨h.1, fun _ _ _ heq => ?_⟩
    cases heq
    exact h.2
  | work | pop | consume | timerExpired => exact ⟨h, fun _ _ _ heq => by cases heq⟩

theorem fresh_next (h : Fresh s) (hinv : Server.Inv env s.server) (henabled : s.Enabled e) :
    Fresh (s.next env e) := by
  cases e with
  | receive info => exact fresh_receive h info
  | forward threadPool enqueued => exact fresh_forward h threadPool enqueued
  | reply written => exact fresh_reply h written
  | classify => exact fresh_classify h
  | drop mHandle asked => exact (h.erase (mHandle, asked)).count _
  | submit req request isValidated asked => exact fresh_submit h hinv henabled
  | server e =>
    obtain ⟨hserver, hnot⟩ := henabled.server
    refine h.advance fun req htune => ?_
    rcases Server.isTune_of_next hinv hserver htune with hold | ⟨request, isValidated, heq, htype⟩
    · exact hold
    · exact absurd htype (hnot req request isValidated heq)

/-- The server that is only given handles of the generator makes the runs it is meant to make. -/
theorem projects (env : Env) :
    (machine env).Projects (Server.machine env) (fun s => Fresh s ∧ Server.Inv env s.server) server
      trace := by
  have hrun : ∀ s e, Fresh s ∧ Server.Inv env s.server → (machine env).Enabled s e →
      (Server.machine env).Run s.server (trace s e) := by
    rintro s e ⟨hfresh, hinv⟩ henabled
    cases e with
    | submit req request isValidated asked =>
      exact ⟨hfresh.enabled_receive hinv isValidated henabled, trivial⟩
    | server => exact ⟨(Enabled.server henabled).1, trivial⟩
    | receive | forward | reply | classify | drop => trivial
  have hexec : ∀ s e, (Server.machine env).exec s.server (trace s e) =
      ((machine env).next s e).server := by
    intro s e
    cases e with
    | submit | server | receive | classify | drop => rfl
    | forward =>
      show s.server = (s.next env _).server
      rw [next]
      repeat' split
      all_goals rfl
    | reply =>
      show s.server = (s.next env _).server
      rw [next]
      split <;> rfl
  refine ⟨hrun, fun s e _ _ => hexec s e, fun s e h henabled => ⟨fresh_next h.1 h.2 henabled, ?_⟩⟩
  -- the invariant of the server is one of its runs
  show Server.Inv env ((machine env).next s e).server
  rw [← hexec s e]
  exact (hrun s e h henabled).invariant h.2 fun _ _ hinv hstep =>
    Server.inv_of_effect hinv (Server.effect_of_enabled hinv hstep)

/-- **Handles.**  However the listener, the classifier, the workers and the consumer take turns, the
server makes a run in which no handle comes twice.  A handle that was written to a client is positive
and was written to no other, and a tune request of the server with that handle is the one of that
client's message. -/
theorem handles_of_run {env : Env} {heap : Heap} {events : List Event}
    (hrun : (machine env).Run (init heap) events) :
    let s := (machine env).exec (init heap) events
    (∃ serverEvents, (Server.machine env).Run (.init heap) serverEvents ∧
      (Server.machine env).exec (.init heap) serverEvents = s.server) ∧
      (s.replies.map Prod.snd).Nodup ∧
      ∀ clientSocket mHandle, (clientSocket, mHandle) ∈ s.replies → 0 < mHandle ∧
        ∀ req, s.server.IsTune req → (s.server.heap req).mHandle = mHandle →
          s.origin req = .client clientSocket := by
  intro s
  have hinit : Fresh (init heap) ∧ Server.Inv env (init heap).server :=
    ⟨fresh_init heap, Server.inv_init heap⟩
  obtain ⟨hfresh, -⟩ := (projects env).invariant hinit hrun
  refine ⟨(projects env).exists_run hinit hrun, hfresh.repliesNodup, ?_⟩
  intro clientSocket mHandle hreply
  have hasked := hfresh.replies _ hreply
  have hpos : 0 < mHandle := (hfresh.range _ hasked).1
  refine ⟨hpos, fun req htune heq => ?_⟩
  subst heq
  have hne : (s.server.heap req).mHandle ≠ -1 := by omega
  exact hfresh.asker_unique (hfresh.tune req htune hne).1 hasked

/-- The classifier has the first handle; the message of connection 3 has the second one, and is a request
before the handle is written back. -/
def sampleEvents : List Event :=
  [.classify, .receive ⟨3, .REQ_RESOURCE_TUNING⟩, .forward true true,
    .submit 2 (Sample.tune 2) false (.client 3), .reply true]

theorem sampleEvents_run : (machine Sample.env).Run (init Sample.server.heap) sampleEvents :=
  ⟨trivial, rfl, ⟨_, _, rfl⟩, ⟨rfl, rfl, by decide, Or.inl (by decide), by decide⟩, ⟨_, _, rfl⟩, trivial⟩

theorem handles_of_sampleEvents :
    ((machine Sample.env).exec (init Sample.server.heap) sampleEvents).replies = [(3, 2)] ∧
      ((machine Sample.env).exec (init Sample.server.heap) sampleEvents).origin 2 = .client 3 := by
  have h := (handles_of_run sampleEvents_run).2.2 3 2 (by decide)
  exact ⟨by decide, h.2 2 ⟨by decide, by decide⟩ (by decide)⟩

end Receiver

end ResourceTuner
