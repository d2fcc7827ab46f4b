import ResourceTuner.Core.RequestManager
import ResourceTuner.Lib.Machine

/-!
# What the calls on the client tables leave behind

The two tables are meant to be seen through their calls only.  Two things can go wrong in them.
`getRequestsByClientID` and `insertRequestByClientId` look a thread up with `operator[]` and so leave
a null entry under an unknown one, which the accessors that test with `find` take for a real one;
and `createNewClient` writes the thread table before it knows whether the process table can follow.

* **`Call`, `calls`** — the calls, and sequences of them;
* **`lookups_safe_iff`** — a sequence is free of null entries and of null dereferences exactly when
  no thread is looked up by `operator[]` that is not there;
* **`Atomic`, `Undisturbed`** — what `createNewClient` should promise, and when it keeps the promise.
-/

namespace ResourceTuner

namespace ClientDataManager

/-! ## Sequences of calls -/

/-- The calls that work on the thread table. -/
inductive Call where
  | createNewClient (clientPID clientTID : Int) (outcome : CreationOutcome)
  | deleteClientPID (clientPID : Int)
  | deleteClientTID (clientTID : Int)
  | getRequestsByClientID (clientTID : Int)
  | insertRequestByClientId (clientTID requestHandle : Int)
  | deleteRequestByClientId (clientTID requestHandle : Int)
  | getHealthByClientID (clientTID : Int)
  | updateHealthByClientID (clientTID : Int) (health : Rat)
  | getLastRequestTimestampByClientID (clientTID : Int)
  | updateLastRequestTimestampByClientID (clientTID currentMillis : Int)

/-- The tables after a call, `none` if it dereferences a null entry. -/
def call (m : ClientDataManager) : Call → Option ClientDataManager
  | .createNewClient pid tid outcome => some (m.createNewClient pid tid outcome).2
  | .deleteClientPID pid => some (m.deleteClientPID pid)
  | .deleteClientTID tid => m.deleteClientTID tid
  | .getRequestsByClientID tid => some (m.getRequestsByClientID tid).2
  | .insertRequestByClientId tid handle => some (m.insertRequestByClientId tid handle)
  | .deleteRequestByClientId tid handle =>
    m.findTid tid m fun _ => m.deleteRequestByClientId tid handle
  | .getHealthByClientID tid => (m.getHealthByClientID tid).map fun _ => m
  | .updateHealthByClientID tid health => m.updateHealthByClientID tid health
  | .getLastRequestTimestampByClientID tid =>
    (m.getLastRequestTimestampByClientID tid).map fun _ => m
  | .updateLastRequestTimestampByClientID tid millis =>
    m.updateLastRequestTimestampByClientID tid millis

/-- Any call can be made at any time; after a crash nothing changes any more. -/
def calls : Machine ClientDataManager Call where
  Enabled _ _ := True
  next m c := (m.call c).getD m

/-- No entry of the thread table is null. -/
def NullFree (m : ClientDataManager) : Prop := ∀ tid, m.mClientTidRepo.lookup tid ≠ some none

/-- The thread a call looks up with `operator[]`. -/
def Call.subscripted : Call → Option Int
  | .getRequestsByClientID tid => some tid
  | .insertRequestByClientId tid _ => some tid
  | _ => none

/-- What a call should keep to. -/
structure Safe (m : ClientDataManager) (c : Call) : Prop where
  nullFree : NullFree (calls.next m c)
  unchanged : ∀ tid, c.subscripted = some tid → tid ∉ m.mClientTidRepo → calls.next m c = m
  noDereference : (m.call c).isSome

/-- The call looks no unknown thread up with `operator[]`. -/
def Known (m : ClientDataManager) (c : Call) : Prop :=
  ∀ tid, c.subscripted = some tid → tid ∈ m.mClientTidRepo

section Calls

variable {m : ClientDataManager}

theorem nullFree_empty : NullFree empty := by
  intro tid h
  cases h

/-- A table with one entry replaced by a real one. -/
theorem NullFree.insert (h : NullFree m) (repo : UnorderedMap Int ClientInfo) (tid : Int)
    (data : ClientTidData) : NullFree ⟨repo, m.mClientTidRepo.insert tid (some data)⟩ := by
  intro tid' hnull
  by_cases htid : tid' = tid
  · subst htid
    rw [AList.lookup_insert] at hnull
    cases hnull
  · rw [AList.lookup_insert_ne htid] at hnull
    exact h tid' hnull

theorem NullFree.erase (h : NullFree m) (tid : Int) :
    NullFree { m with mClientTidRepo := m.mClientTidRepo.erase tid } := by
  intro tid' hnull
  by_cases htid : tid' = tid
  · subst htid
    rw [AList.lookup_erase] at hnull
    cases hnull
  · rw [AList.lookup_erase_ne htid] at hnull
    exact h tid' hnull

/-- Where no entry is null, `find` is enough of a test. -/
theorem NullFree.findTid {α : Type} (h : NullFree m) (tid : Int) (unknown : α)
    (found : ClientTidData → α) :
    m.findTid tid unknown found = some unknown ∨ ∃ data, m.findTid tid unknown found =
      some (found data) := by
  unfold ClientDataManager.findTid
  cases hentry : m.mClientTidRepo.lookup tid with
  | none => exact Or.inl rfl
  | some entry =>
    cases entry with
    | none => exact absurd hentry (h tid)
    | some data => exact Or.inr ⟨data, rfl⟩

theorem NullFree.createNewClient (h : NullFree m) (pid tid : Int) (outcome : CreationOutcome) :
    NullFree (m.createNewClient pid tid outcome).2 := by
  unfold ClientDataManager.createNewClient
  split
  · exact h
  split
  · exact h
  simp only
  split
  · split
    · exact h.insert _ tid .fresh
    · exact h.insert _ tid .fresh
  · split
    · exact h.insert _ tid .fresh
    · exact h.insert _ tid .fresh

/-- `operator[]` on a known thread reads the table and leaves it as it is. -/
theorem subscript_of_mem (h : NullFree m) {tid : Int} (hmem : tid ∈ m.mClientTidRepo) :
    ∃ data, UnorderedMap.subscript m.mClientTidRepo tid none = (some data, m.mClientTidRepo) := by
  obtain ⟨entry, hentry⟩ := Option.isSome_iff_exists.mp (AList.lookup_isSome.mpr hmem)
  cases entry with
  | none => exact absurd hentry (h tid)
  | some data => exact ⟨data, UnorderedMap.subscript_of_lookup hentry none⟩

/-- On an unknown thread it leaves a null entry. -/
theorem lookup_next_of_unknown {c : Call} {tid : Int} (hc : c.subscripted = some tid)
    (hunknown : tid ∉ m.mClientTidRepo) :
    (calls.next m c).mClientTidRepo.lookup tid = some none := by
  have hlookup : m.mClientTidRepo.lookup tid = none := AList.lookup_eq_none.mpr hunknown
  cases c with
  | getRequestsByClientID tid' | insertRequestByClientId tid' =>
    obtain rfl := Option.some.inj hc
    simp [calls, call, ClientDataManager.getRequestsByClientID,
      ClientDataManager.insertRequestByClientId, UnorderedMap.subscript, hlookup]
  | createNewClient | deleteClientPID | deleteClientTID | deleteRequestByClientId
    | getHealthByClientID | updateHealthByClientID | getLastRequestTimestampByClientID
    | updateLastRequestTimestampByClientID => cases hc

/-- One call: null entries come from unknown threads only. -/
theorem nullFree_call (h : NullFree m) {c : Call} (hknown : Known m c) :
    ∃ m', m.call c = some m' ∧ NullFree m' := by
  cases c with
  | createNewClient pid tid outcome => exact ⟨_, rfl, h.createNewClient pid tid outcome⟩
  | deleteClientPID pid => exact ⟨_, rfl, h⟩
  | deleteClientTID tid =>
    rcases h.findTid tid m _ with heq | ⟨data, heq⟩
    · exact ⟨_, heq, h⟩
    · exact ⟨_, heq, h.erase tid⟩
  | getRequestsByClientID tid =>
    obtain ⟨data, hdata⟩ := subscript_of_mem h (hknown tid rfl)
    refine ⟨_, rfl, ?_⟩
    simpa only [ClientDataManager.getRequestsByClientID, hdata] using h
  | insertRequestByClientId tid handle =>
    obtain ⟨data, hdata⟩ := subscript_of_mem h (hknown tid rfl)
    refine ⟨_, rfl, ?_⟩
    simp only [ClientDataManager.insertRequestByClientId, hdata]
    exact h.insert _ tid _
  | deleteRequestByClientId tid handle =>
    rcases h.findTid tid m (fun _ => m.deleteRequestByClientId tid handle) with heq | ⟨data, heq⟩
    · exact ⟨_, heq, h⟩
    · refine ⟨_, heq, ?_⟩
      simp only [ClientDataManager.deleteRequestByClientId]
      split
      · exact h.insert _ tid _
      · exact h
  | getHealthByClientID tid =>
    rcases h.findTid tid (-1) (·.mHealth) with heq | ⟨data, heq⟩
    · exact ⟨m, by simp [call, ClientDataManager.getHealthByClientID, heq], h⟩
    · exact ⟨m, by simp [call, ClientDataManager.getHealthByClientID, heq], h⟩
  | getLastRequestTimestampByClientID tid =>
    rcases h.findTid tid 0 (·.mLastRequestTimestamp) with heq | ⟨data, heq⟩
    · exact ⟨m, by simp [call, ClientDataManager.getLastRequestTimestampByClientID, heq], h⟩
    · exact ⟨m, by simp [call, ClientDataManager.getLastRequestTimestampByClientID, heq], h⟩
  | updateHealthByClientID tid health =>
    rcases h.findTid tid m _ with heq | ⟨data, heq⟩
    · exact ⟨_, heq, h⟩
    · exact ⟨_, heq, h.insert _ tid _⟩
  | updateLastRequestTimestampByClientID tid millis =>
    rcases h.findTid tid m _ with heq | ⟨data, heq⟩
    · exact ⟨_, heq, h⟩
    · exact ⟨_, heq, h.insert _ tid _⟩

theorem safe_of_known (h : NullFree m) {c : Call} (hknown : Known m c) : Safe m c := by
  obtain ⟨m', hcall, hfree⟩ := nullFree_call h hknown
  refine ⟨?_, ?_, by rw [hcall]; rfl⟩
  · simpa [calls, hcall] using hfree
  · intro tid hc hunknown
    exact absurd (hknown tid hc) hunknown

/-- A call that leaves the tables of an unknown thread alone did not look it up with
`operator[]`. -/
theorem Safe.known {c : Call} (h : Safe m c) : Known m c := by
  intro tid hc
  by_contra hunknown
  exact h.nullFree tid (lookup_next_of_unknown hc hunknown)

end Calls

/-- **Lookups are read-only and null-free** in a sequence of calls exactly when each
`getRequestsByClientID` and each `insertRequestByClientId` is for a thread that the table knows. -/
theorem lookups_safe_iff (sequence : List Call) :
    calls.Steps Safe empty sequence ↔ calls.Steps Known empty sequence := by
  -- the invariant is that no entry is null
  have hgeneral : ∀ m, NullFree m → (calls.Steps Safe m sequence ↔ calls.Steps Known m sequence) := by
    induction sequence with
    | nil => exact fun m _ => Iff.rfl
    | cons c rest ih =>
      intro m hm
      constructor
      · rintro ⟨hsafe, hrest⟩
        exact ⟨hsafe.known, (ih _ hsafe.nullFree).mp hrest⟩
      · rintro ⟨hknown, hrest⟩
        have hsafe := safe_of_known hm hknown
        exact ⟨hsafe, (ih _ hsafe.nullFree).mpr hrest⟩
  exact hgeneral empty nullFree_empty

/-- The duplicate check asks for the handles of thread 7, which has no entry; then the rate limiter
reads its health. -/
theorem lookup_unknown_thread :
    ¬ calls.Steps Safe empty [.getRequestsByClientID 7] ∧
      (calls.exec empty [.getRequestsByClientID 7]).call (.getHealthByClientID 7) = none := by
  refine ⟨fun h => ?_, by decide⟩
  exact h.1.nullFree 7 (by decide)

/-! ## Creating a client -/

/-- Both tables answer as before. -/
def Unchanged (m m' : ClientDataManager) : Prop :=
  (∀ pid, m'.mClientRepo.lookup pid = m.mClientRepo.lookup pid) ∧
    ∀ tid, m'.mClientTidRepo.lookup tid = m.mClientTidRepo.lookup tid

/-- The process lists the thread. -/
def Lists (m : ClientDataManager) (pid tid : Int) : Prop :=
  ∃ info, m.mClientRepo.lookup pid = some info ∧ tid ∈ info.mClientTIDs

/-- What a successful creation should leave: the thread in one slot of one process, and nothing else
changed. -/
structure Created (m m' : ClientDataManager) (pid tid : Int) : Prop where
  slot : ∃ info, m'.mClientRepo.lookup pid = some info ∧ info.mClientTIDs.count tid = 1 ∧
    info.mClientTIDs.length ≤ PER_CLIENT_TID_CAP
  only : ∀ pid', pid' ≠ pid → ¬ m'.Lists pid' tid
  clients : ∀ pid', pid' ≠ pid → m'.mClientRepo.lookup pid' = m.mClientRepo.lookup pid'
  threads : ∀ tid', tid' ≠ tid → m'.mClientTidRepo.lookup tid' = m.mClientTidRepo.lookup tid'
  kept : ∀ data, m.mClientTidRepo.lookup tid = some (some data) →
    m'.mClientTidRepo.lookup tid = some (some data)

/-- A creation that does what it says or nothing. -/
def Atomic (m : ClientDataManager) (pid tid : Int) (outcome : CreationOutcome) : Prop :=
  ((m.createNewClient pid tid outcome).1 = false →
      Unchanged m (m.createNewClient pid tid outcome).2) ∧
    ((m.createNewClient pid tid outcome).1 = true →
      Created m (m.createNewClient pid tid outcome).2 pid tid)

/-- The tables a creation can be trusted with.  A known process and a known thread must belong
together.  Otherwise, if there is a block for the thread's entry, the thread must be listed nowhere
and have no entry worth keeping, and the process must have a slot or get a block. -/
def Undisturbed (m : ClientDataManager) (pid tid : Int) (outcome : CreationOutcome) : Prop :=
  match m.mClientRepo.lookup pid, m.mClientTidRepo.lookup tid with
  | some info, some _ =>
    info.mClientTIDs.count tid = 1 ∧ info.mClientTIDs.length ≤ PER_CLIENT_TID_CAP ∧
      ∀ pid', pid' ≠ pid → ¬ m.Lists pid' tid
  | some info, none =>
    outcome.tidBlock → info.mClientTIDs.length < PER_CLIENT_TID_CAP ∧ ∀ pid', ¬ m.Lists pid' tid
  | none, entry =>
    outcome.tidBlock →
      if outcome.infoBlock then
        (∀ data, entry = some (some data) → data = .fresh) ∧ ∀ pid', ¬ m.Lists pid' tid
      else entry = some (some .fresh)

section Creation

variable {m : ClientDataManager} {pid tid : Int} {outcome : CreationOutcome}

theorem clientExists_iff :
    m.clientExists pid tid = true ↔ pid ∈ m.mClientRepo ∧ tid ∈ m.mClientTidRepo := by
  simp [clientExists]

theorem not_clientExists_of_thread (h : m.mClientTidRepo.lookup tid = none) :
    m.clientExists pid tid = false := by
  rw [Bool.eq_false_iff, ne_eq, clientExists_iff]
  exact fun hexists => AList.lookup_eq_none.mp h hexists.2

theorem not_clientExists_of_process (h : m.mClientRepo.lookup pid = none) :
    m.clientExists pid tid = false := by
  rw [Bool.eq_false_iff, ne_eq, clientExists_iff]
  exact fun hexists => AList.lookup_eq_none.mp h hexists.1

/-- Other processes keep their threads when one entry is replaced. -/
theorem lists_insert_of_ne {pid' : Int} (hne : pid' ≠ pid) (info : ClientInfo)
    (tids : UnorderedMap Int (Option ClientTidData)) :
    (⟨m.mClientRepo.insert pid info, tids⟩ : ClientDataManager).Lists pid' tid ↔
      m.Lists pid' tid := by
  simp only [Lists, AList.lookup_insert_ne hne]

/-- What a creation leaves when it ends well. -/
theorem created_insert_iff {info : ClientInfo} :
    Created m ⟨m.mClientRepo.insert pid info, m.mClientTidRepo.insert tid (some .fresh)⟩ pid tid ↔
      info.mClientTIDs.count tid = 1 ∧ info.mClientTIDs.length ≤ PER_CLIENT_TID_CAP ∧
        (∀ pid', pid' ≠ pid → ¬ m.Lists pid' tid) ∧
        ∀ data, m.mClientTidRepo.lookup tid = some (some data) → data = .fresh := by
  constructor
  · intro h
    obtain ⟨info', hinfo, hcount, hlength⟩ := h.slot
    rw [AList.lookup_insert] at hinfo
    obtain rfl := Option.some.inj hinfo
    refine ⟨hcount, hlength, fun pid' hne => ?_, fun data hdata => ?_⟩
    · exact fun hlists => h.only pid' hne ((lists_insert_of_ne hne _ _).mpr hlists)
    · have hkept := h.kept data hdata
      rw [AList.lookup_insert] at hkept
      exact (Option.some.inj (Option.some.inj hkept)).symm
  · rintro ⟨hcount, hlength, honly, hfresh⟩
    refine ⟨⟨info, AList.lookup_insert _, hcount, hlength⟩, fun pid' hne => ?_,
      fun pid' hne => AList.lookup_insert_ne hne, fun tid' hne => AList.lookup_insert_ne hne,
      fun data hdata => ?_⟩
    · exact fun hlists => honly pid' hne ((lists_insert_of_ne hne _ _).mp hlists)
    · rw [AList.lookup_insert, hfresh data hdata]

/-- What a creation leaves when it gives up after the thread's entry was written. -/
theorem unchanged_insert_iff :
    Unchanged m ⟨m.mClientRepo, m.mClientTidRepo.insert tid (some .fresh)⟩ ↔
      m.mClientTidRepo.lookup tid = some (some .fresh) := by
  constructor
  · intro h
    rw [← h.2 tid]
    exact AList.lookup_insert _
  · intro h
    refine ⟨fun pid => rfl, fun tid' => ?_⟩
    by_cases htid : tid' = tid
    · subst htid
      rw [AList.lookup_insert, h]
    · exact AList.lookup_insert_ne htid

theorem unchanged_refl : Unchanged m m := ⟨fun _ => rfl, fun _ => rfl⟩

/-- Both are known: nothing is written, and the tables have to be right already. -/
theorem atomic_iff_of_known {info : ClientInfo} {entry : Option ClientTidData}
    (hpid : m.mClientRepo.lookup pid = some info) (htid : m.mClientTidRepo.lookup tid = some entry) :
    Atomic m pid tid outcome ↔ info.mClientTIDs.count tid = 1 ∧
      info.mClientTIDs.length ≤ PER_CLIENT_TID_CAP ∧ ∀ pid', pid' ≠ pid → ¬ m.Lists pid' tid := by
  have hexists : m.clientExists pid tid = true :=
    clientExists_iff.mpr ⟨UnorderedMap.mem_of_lookup hpid, UnorderedMap.mem_of_lookup htid⟩
  have hcreate : m.createNewClient pid tid outcome = (true, m) := by
    simp [createNewClient, hexists]
  rw [Atomic, hcreate]
  constructor
  · rintro ⟨-, hcreated⟩
    obtain ⟨info', hinfo, hcount, hlength⟩ := (hcreated rfl).slot
    obtain rfl := Option.some.inj (hpid.symm.trans hinfo)
    exact ⟨hcount, hlength, (hcreated rfl).only⟩
  · rintro ⟨hcount, hlength, honly⟩
    refine ⟨fun h => (Bool.false_ne_true h.symm).elim, fun _ => ?_⟩
    exact ⟨⟨info, hpid, hcount, hlength⟩, honly, fun _ _ => rfl, fun _ _ => rfl, fun _ h => h⟩

/-- A further thread of a known process. -/
theorem atomic_iff_of_process {info : ClientInfo} (hpid : m.mClientRepo.lookup pid = some info)
    (htid : m.mClientTidRepo.lookup tid = none) (hblock : outcome.tidBlock = true) :
    Atomic m pid tid outcome ↔
      info.mClientTIDs.length < PER_CLIENT_TID_CAP ∧ ∀ pid', ¬ m.Lists pid' tid := by
  have hcreate : m.createNewClient pid tid outcome =
      if info.mClientTIDs.length < PER_CLIENT_TID_CAP then
        (true, ⟨m.mClientRepo.insert pid
          { info with mClientTIDs := info.mClientTIDs ++ [tid] },
          m.mClientTidRepo.insert tid (some .fresh)⟩)
      else (false, ⟨m.mClientRepo, m.mClientTidRepo.insert tid (some .fresh)⟩) := by
    simp [createNewClient, not_clientExists_of_thread htid, hblock, hpid]
  rw [Atomic, hcreate]
  by_cases hcap : info.mClientTIDs.length < PER_CLIENT_TID_CAP
  · simp only [hcap, if_true, true_and, forall_const, created_insert_iff, Bool.true_eq_false,
      false_implies, List.count_append, List.length_append, List.count_singleton_self,
      List.length_singleton, htid, reduceCtorEq, implies_true, and_true]
    -- the thread's one slot is the new one
    constructor
    · rintro ⟨hcount, -, honly⟩ pid' ⟨info', hinfo, hmem⟩
      by_cases hne : pid' = pid
      · subst hne
        obtain rfl := Option.some.inj (hpid.symm.trans hinfo)
        have := List.count_pos_iff.mpr hmem
        omega
      · exact honly pid' hne ⟨info', hinfo, hmem⟩
    · intro hnone
      refine ⟨?_, hcap, fun pid' _ => hnone pid'⟩
      rw [List.count_eq_zero.mpr fun hmem => hnone pid ⟨info, hpid, hmem⟩]
  · simp only [hcap, if_false, false_and, iff_false]
    rintro ⟨hunchanged, -⟩
    have := unchanged_insert_iff.mp (hunchanged trivial)
    rw [htid] at this
    cases this

/-- The first thread of a process. -/
theorem atomic_iff_of_unknown (hpid : m.mClientRepo.lookup pid = none)
    (hblock : outcome.tidBlock = true) :
    Atomic m pid tid outcome ↔
      if outcome.infoBlock then
        (∀ data, m.mClientTidRepo.lookup tid = some (some data) → data = .fresh) ∧
          ∀ pid', ¬ m.Lists pid' tid
      else m.mClientTidRepo.lookup tid = some (some .fresh) := by
  have hcreate : m.createNewClient pid tid outcome =
      if outcome.infoBlock then
        (true, ⟨m.mClientRepo.insert pid ⟨outcome.clientType, [tid]⟩,
          m.mClientTidRepo.insert tid (some .fresh)⟩)
      else (false, ⟨m.mClientRepo, m.mClientTidRepo.insert tid (some .fresh)⟩) := by
    simp [createNewClient, not_clientExists_of_process hpid, hblock, hpid]
  rw [Atomic, hcreate]
  cases outcome.infoBlock with
  | false =>
    simp only [Bool.false_eq_true, if_false, forall_const, unchanged_insert_iff, false_implies,
      and_true]
  | true =>
    simp only [if_true, forall_const, created_insert_iff, Bool.true_eq_false, false_implies,
      true_and, List.count_singleton_self, List.length_singleton]
    constructor
    · rintro ⟨-, honly, hfresh⟩
      refine ⟨hfresh, ?_⟩
      rintro pid' ⟨info', hinfo, hmem⟩
      by_cases hne : pid' = pid
      · subst hne
        rw [hpid] at hinfo
        cases hinfo
      · exact honly pid' hne ⟨info', hinfo, hmem⟩
    · rintro ⟨hfresh, hnone⟩
      exact ⟨by decide, fun pid' _ => hnone pid', hfresh⟩

theorem atomic_of_no_block (hexists : m.clientExists pid tid = false)
    (hblock : outcome.tidBlock = false) : Atomic m pid tid outcome := by
  have hcreate : m.createNewClient pid tid outcome = (false, m) := by
    simp [createNewClient, hexists, hblock]
  rw [Atomic, hcreate]
  exact ⟨fun _ => unchanged_refl, fun h => (Bool.false_ne_true h).elim⟩

theorem atomic_iff_undisturbed : Atomic m pid tid outcome ↔ Undisturbed m pid tid outcome := by
  unfold Undisturbed
  cases hpid : m.mClientRepo.lookup pid with
  | some info =>
    cases htid : m.mClientTidRepo.lookup tid with
    | some entry => exact atomic_iff_of_known hpid htid
    | none =>
      cases hblock : outcome.tidBlock with
      | true => simpa using atomic_iff_of_process hpid htid hblock
      | false => simpa using atomic_of_no_block (not_clientExists_of_thread htid) hblock
  | none =>
    cases hblock : outcome.tidBlock with
    | true => simpa using atomic_iff_of_unknown hpid hblock
    | false => simpa using atomic_of_no_block (not_clientExists_of_process hpid) hblock

end Creation

/-! ### Other entries -/

instance (m : ClientDataManager) (tid handle : Int) : Decidable (m.Holds tid handle) :=
  decidable_of_iff ((m.handles tid).any fun set => handle ∈ set) (by
    simp [Holds, Option.any_eq_true])

instance (m : ClientDataManager) (pid tid : Int) : Decidable (m.Lists pid tid) :=
  decidable_of_iff ((m.mClientRepo.lookup pid).any fun info => tid ∈ info.mClientTIDs) (by
    simp [Lists, Option.any_eq_true])

section Others

variable {m : ClientDataManager} {pid tid pid' tid' handle : Int} {outcome : CreationOutcome}

theorem createNewClient_of_exists (h : m.clientExists pid tid) :
    (m.createNewClient pid tid outcome).2 = m := by
  simp [createNewClient, h]

theorem createNewClient_of_no_block (h : outcome.tidBlock = false) :
    (m.createNewClient pid tid outcome).2 = m := by
  unfold createNewClient
  split
  · rfl
  · simp [h]

/-- A creation takes no thread from a process. -/
theorem lists_createNewClient (h : m.Lists pid' tid') :
    (m.createNewClient pid tid outcome).2.Lists pid' tid' := by
  obtain ⟨info, hinfo, hmem⟩ := h
  -- the entry of the process is longer by one thread, or it is not this process
  have hinsert : ∀ info' tids, (m.mClientRepo.lookup pid = none ∨
      ∃ info, m.mClientRepo.lookup pid = some info ∧
        info' = { info with mClientTIDs := info.mClientTIDs ++ [tid] }) →
      Lists ⟨m.mClientRepo.insert pid info', tids⟩ pid' tid' := by
    intro info' tids hentry
    by_cases hpid : pid' = pid
    · subst hpid
      refine ⟨info', AList.lookup_insert _, ?_⟩
      rcases hentry with hnone | ⟨old, hold, rfl⟩
      · rw [hinfo] at hnone
        cases hnone
      · obtain rfl := Option.some.inj (hinfo.symm.trans hold)
        exact List.mem_append_left _ hmem
    · exact ⟨info, (AList.lookup_insert_ne hpid).trans hinfo, hmem⟩
  unfold createNewClient
  split
  · exact ⟨info, hinfo, hmem⟩
  split
  · exact ⟨info, hinfo, hmem⟩
  simp only
  split
  · rename_i old hold
    split
    · exact hinsert _ _ (Or.inr ⟨old, hold, rfl⟩)
    · exact ⟨info, hinfo, hmem⟩
  · rename_i hnone
    split
    · exact hinsert _ _ (Or.inl hnone)
    · exact ⟨info, hinfo, hmem⟩

/-- A creation leaves the entries of other threads alone. -/
theorem handles_createNewClient_of_ne (hne : tid' ≠ tid) :
    (m.createNewClient pid tid outcome).2.handles tid' = m.handles tid' := by
  have hinsert : ∀ repo, handles ⟨repo, m.mClientTidRepo.insert tid (some .fresh)⟩ tid' =
      m.handles tid' := by
    intro repo
    simp only [handles, AList.lookup_insert_ne hne]
  unfold createNewClient
  split
  · rfl
  split
  · rfl
  simp only
  split <;> split <;> exact hinsert _

theorem lists_deleteClientPID_of_ne (hne : pid' ≠ pid) (h : m.Lists pid' tid) :
    (m.deleteClientPID pid).Lists pid' tid := by
  obtain ⟨info, hinfo, hmem⟩ := h
  exact ⟨info, (AList.lookup_erase_ne hne).trans hinfo, hmem⟩

/-- Taking the entry of a thread away changes nothing else. -/
theorem deleteClientTID_spec {clients : ClientDataManager} (h : m.deleteClientTID tid = some clients) :
    clients.mClientRepo = m.mClientRepo ∧
      (∀ tid', tid' ≠ tid → clients.handles tid' = m.handles tid') ∧ clients.handles tid = none := by
  unfold deleteClientTID findTid at h
  split at h
  · rename_i hnone
    obtain rfl := Option.some.inj h
    exact ⟨rfl, fun tid' _ => rfl, by simp [handles, hnone]⟩
  · cases h
  · obtain rfl := Option.some.inj h
    refine ⟨rfl, fun tid' hne => ?_, ?_⟩
    · simp only [handles, AList.lookup_erase_ne hne]
    · simp [handles]

/-- A null entry is dereferenced; it has no handles. -/
theorem handles_of_deleteClientTID_none (h : m.deleteClientTID tid = none) : m.handles tid = none := by
  unfold deleteClientTID findTid at h
  split at h
  · cases h
  · rename_i hnull
    simp [handles, hnull]
  · cases h

theorem getRequestsByClientID_fst : (m.getRequestsByClientID tid).1 = m.handles tid := by
  unfold getRequestsByClientID handles UnorderedMap.subscript
  cases m.mClientTidRepo.lookup tid <;> rfl

theorem mClientRepo_insertRequestByClientId :
    (m.insertRequestByClientId tid handle).mClientRepo = m.mClientRepo := by
  unfold insertRequestByClientId
  simp only
  split <;> rfl

theorem mClientRepo_deleteRequestByClientId :
    (m.deleteRequestByClientId tid handle).mClientRepo = m.mClientRepo := by
  unfold deleteRequestByClientId
  split <;> rfl

end Others

/-! ### Sequences of creations -/

/-- A call of `createNewClient`. -/
structure Creation where
  clientPID : Int
  clientTID : Int
  outcome : CreationOutcome

/-- Sequences of creations.  `clientExists` changes nothing and is left out. -/
def creations : Machine ClientDataManager Creation where
  Enabled _ _ := True
  next m c := (m.createNewClient c.clientPID c.clientTID c.outcome).2

/-- The creation is one of the pair, and succeeds. -/
def Succeeds (pid tid : Int) (m : ClientDataManager) (c : Creation) : Prop :=
  c.clientPID = pid ∧ c.clientTID = tid ∧
    (m.createNewClient c.clientPID c.clientTID c.outcome).1 = true

/-- The creation pairs no process with a thread of another one: it writes nothing, or adds a thread
to the only process, or adds a process whose thread is the only one, or is given up when no process
is there to be paired with the thread it leaves. -/
def Separate (m : ClientDataManager) (c : Creation) : Prop :=
  m.clientExists c.clientPID c.clientTID ∨ ¬ c.outcome.tidBlock ∨
    match m.mClientRepo.lookup c.clientPID with
    | some info =>
      info.mClientTIDs.length < PER_CLIENT_TID_CAP ∧ ∀ pid ∈ m.mClientRepo, pid = c.clientPID
    | none =>
      (c.clientTID ∈ m.mClientTidRepo ∨ ∀ pid, pid ∉ m.mClientRepo) ∧
        (c.outcome.infoBlock → ∀ tid ∈ m.mClientTidRepo, tid = c.clientTID)

/-- The pairs that a separate creation makes known. -/
theorem clientExists_of_separate {m : ClientDataManager} {c : Creation} (hsep : Separate m c)
    {pid tid : Int} (h : (creations.next m c).clientExists pid tid) :
    m.clientExists pid tid ∨ Succeeds pid tid m c := by
  obtain ⟨hpid, htid⟩ := clientExists_iff.mp h
  rw [clientExists_iff]
  by_cases hexists : m.clientExists c.clientPID c.clientTID = true
  · simp only [creations, createNewClient, hexists, if_true] at hpid htid
    exact Or.inl ⟨hpid, htid⟩
  by_cases hblock : c.outcome.tidBlock = true
  · have hsep := (hsep.resolve_left hexists).resolve_left (not_not.mpr hblock)
    cases hlookup : m.mClientRepo.lookup c.clientPID with
    | some info =>
      simp only [hlookup] at hsep
      obtain ⟨hcap, honly⟩ := hsep
      have hcreate : m.createNewClient c.clientPID c.clientTID c.outcome =
          (true, ⟨m.mClientRepo.insert c.clientPID
            { info with mClientTIDs := info.mClientTIDs ++ [c.clientTID] },
            m.mClientTidRepo.insert c.clientTID (some .fresh)⟩) := by
        simp [createNewClient, hexists, hblock, hlookup, hcap]
      simp only [creations, hcreate, AList.mem_insert] at hpid htid
      have hpid' : pid = c.clientPID := hpid.elim id (honly pid)
      rcases htid with rfl | htid
      · exact Or.inr ⟨hpid'.symm, rfl, by rw [hcreate]⟩
      · exact Or.inl ⟨hpid' ▸ UnorderedMap.mem_of_lookup hlookup, htid⟩
    | none =>
      simp only [hlookup] at hsep
      obtain ⟨hlone, hone⟩ := hsep
      cases hinfo : c.outcome.infoBlock with
      | true =>
        have hcreate : m.createNewClient c.clientPID c.clientTID c.outcome =
            (true, ⟨m.mClientRepo.insert c.clientPID ⟨c.outcome.clientType, [c.clientTID]⟩,
              m.mClientTidRepo.insert c.clientTID (some .fresh)⟩) := by
          simp [createNewClient, hexists, hblock, hlookup, hinfo]
        simp only [creations, hcreate, AList.mem_insert] at hpid htid
        have htid' : tid = c.clientTID := htid.elim id (hone hinfo tid)
        rcases hpid with rfl | hpid
        · exact Or.inr ⟨rfl, htid'.symm, by rw [hcreate]⟩
        · exact Or.inl ⟨hpid, htid' ▸ hlone.resolve_right fun hno => hno pid hpid⟩
      | false =>
        have hcreate : m.createNewClient c.clientPID c.clientTID c.outcome =
            (false, ⟨m.mClientRepo, m.mClientTidRepo.insert c.clientTID (some .fresh)⟩) := by
          simp [createNewClient, hexists, hblock, hlookup, hinfo]
        simp only [creations, hcreate, AList.mem_insert] at hpid htid
        have htid' := hlone.resolve_right fun hno => hno pid hpid
        rcases htid with rfl | htid
        · exact Or.inl ⟨hpid, htid'⟩
        · exact Or.inl ⟨hpid, htid⟩
  · simp only [creations, createNewClient, hexists, hblock, if_false, Bool.not_false, if_true,
      Bool.false_eq_true] at hpid htid
    exact Or.inl ⟨hpid, htid⟩

/-- Every known pair was known before or has been created since. -/
theorem clientExists_of_creations {m : ClientDataManager} {sequence : List Creation} {pid tid : Int}
    (hsteps : creations.Steps Separate m sequence)
    (h : (creations.exec m sequence).clientExists pid tid) :
    m.clientExists pid tid ∨ creations.Ever (Succeeds pid tid) m sequence := by
  induction sequence generalizing m with
  | nil => exact Or.inl h
  | cons c rest ih =>
    rcases ih hsteps.2 h with hexists | hever
    · rcases clientExists_of_separate hsteps.1 hexists with hbefore | hnow
      · exact Or.inl hbefore
      · exact Or.inr (Or.inl hnow)
    · exact Or.inr (Or.inr hever)

/-- **Client creation is atomic** exactly on undisturbed tables; and in a sequence of separate
creations a pair is known only if a creation of it succeeded. -/
theorem createNewClient_atomic_iff (m : ClientDataManager) (pid tid : Int)
    (outcome : CreationOutcome) (sequence : List Creation) :
    (Atomic m pid tid outcome ↔ Undisturbed m pid tid outcome) ∧
      (creations.Steps Separate empty sequence → ∀ pid tid,
        (creations.exec empty sequence).clientExists pid tid →
          creations.Ever (Succeeds pid tid) empty sequence) := by
  refine ⟨atomic_iff_undisturbed, fun hsteps pid tid h => ?_⟩
  rcases clientExists_of_creations hsteps h with hempty | hever
  · cases hempty
  · exact hever

/-- Process 1 has died and its entry is gone, but not yet that of its thread 5, which holds handle
7.  A new process 2 comes with a thread of the same number: the handle is forgotten.  And two
processes with a thread each make the threads known under both. -/
theorem createNewClient_overwrites :
    ¬ Atomic (calls.exec empty [.createNewClient 1 5 ⟨true, true, some .PERMISSION_THIRD_PARTY⟩,
        .insertRequestByClientId 5 7, .deleteClientPID 1])
      2 5 ⟨true, true, some .PERMISSION_THIRD_PARTY⟩ ∧
    (creations.exec empty [⟨1, 5, ⟨true, true, some .PERMISSION_THIRD_PARTY⟩⟩,
        ⟨2, 6, ⟨true, true, some .PERMISSION_THIRD_PARTY⟩⟩]).clientExists 1 6 = true ∧
    ¬ creations.Ever (Succeeds 1 6) empty [⟨1, 5, ⟨true, true, some .PERMISSION_THIRD_PARTY⟩⟩,
        ⟨2, 6, ⟨true, true, some .PERMISSION_THIRD_PARTY⟩⟩] := by
  refine ⟨fun h => ?_, by decide, ?_⟩
  · have hkept := (h.2 (by decide)).kept ⟨⟨[7], by decide⟩, 0, 100⟩ (by decide)
    revert hkept
    decide
  · simp [Machine.Ever, Succeeds]

end ClientDataManager

end ResourceTuner
