import Mathlib.Data.Rat.Init
import ResourceTuner.Common.Utils
import ResourceTuner.Lib.UnorderedMap

/-!
# Client tables

`ClientDataManager.cpp`: one table of processes, one of threads.  A thread's entry holds the set
of handles of its requests and the two values of the rate limiter.  Several accessors read the
thread table with `operator[]`, which puts a null entry under a thread the table does not know; a
null entry is `none` here.  The other accessors test with `find` and then use the entry as it is:
where they would dereference a null entry their model answers `none`.
-/

namespace ResourceTuner

def PER_CLIENT_TID_CAP : Nat := 32

/-- `struct ClientInfo`.  `mClientType` is `none` for the `-1` of a process whose status file
could not be read; the thread ids in use are a list as long as `mCurClientThreads`. -/
structure ClientInfo where
  mClientType : Option Permissions
  mClientTIDs : List Int
  deriving DecidableEq

/-- `struct ClientTidData`.  The tables only store and copy the health, a `double`, so it is the
rational number it stands for. -/
structure ClientTidData where
  mClientHandles : UnorderedSet Int
  mLastRequestTimestamp : Int
  mHealth : Rat
  deriving DecidableEq

/-- The entry of a new thread. -/
def ClientTidData.fresh : ClientTidData := ⟨.empty, 0, 100⟩

/-- `class ClientDataManager`. -/
structure ClientDataManager where
  mClientRepo : UnorderedMap Int ClientInfo
  mClientTidRepo : UnorderedMap Int (Option ClientTidData)

namespace ClientDataManager

def empty : ClientDataManager := ⟨∅, ∅⟩

def clientExists (m : ClientDataManager) (clientPID clientTID : Int) : Bool :=
  decide (clientPID ∈ m.mClientRepo) && decide (clientTID ∈ m.mClientTidRepo)

/-- What the outside world answers to `createNewClient`: whether the two pool allocations
succeed, and the permission `isRootProcess` reads from the process's status file. -/
structure CreationOutcome where
  tidBlock : Bool
  infoBlock : Bool
  clientType : Option Permissions

/-- `createNewClient`.  The thread's entry is written before the process's entry is dealt with,
and it stays when the latter fails. -/
def createNewClient (m : ClientDataManager) (clientPID clientTID : Int)
    (outcome : CreationOutcome) : Bool × ClientDataManager :=
  if m.clientExists clientPID clientTID then (true, m)
  else if !outcome.tidBlock then (false, m)
  else
    let tids := m.mClientTidRepo.insert clientTID (some .fresh)
    match m.mClientRepo.lookup clientPID with
    | some info =>
      if info.mClientTIDs.length < PER_CLIENT_TID_CAP then
        (true, ⟨m.mClientRepo.insert clientPID
          { info with mClientTIDs := info.mClientTIDs ++ [clientTID] }, tids⟩)
      else (false, ⟨m.mClientRepo, tids⟩)
    | none =>
      if outcome.infoBlock then
        (true, ⟨m.mClientRepo.insert clientPID ⟨outcome.clientType, [clientTID]⟩, tids⟩)
      else (false, ⟨m.mClientRepo, tids⟩)

/-- `getRequestsByClientID`: the thread's handles, and the table after the `operator[]` read. -/
def getRequestsByClientID (m : ClientDataManager) (clientTID : Int) :
    Option (UnorderedSet Int) × ClientDataManager :=
  let entry := UnorderedMap.subscript m.mClientTidRepo clientTID none
  (entry.1.map (·.mClientHandles), { m with mClientTidRepo := entry.2 })

/-- `insertRequestByClientId`; for an unknown thread only the null entry of `operator[]` stays. -/
def insertRequestByClientId (m : ClientDataManager) (clientTID requestHandle : Int) :
    ClientDataManager :=
  let entry := UnorderedMap.subscript m.mClientTidRepo clientTID none
  match entry.1 with
  | none => { m with mClientTidRepo := entry.2 }
  | some data =>
    { m with
      mClientTidRepo := entry.2.insert clientTID
        (some { data with mClientHandles := data.mClientHandles.insert requestHandle }) }

/-- `deleteRequestByClientId`.  A null entry would be dereferenced by the source. -/
def deleteRequestByClientId (m : ClientDataManager) (clientTID requestHandle : Int) :
    ClientDataManager :=
  match m.mClientTidRepo.lookup clientTID with
  | some (some data) =>
    { m with
      mClientTidRepo := m.mClientTidRepo.insert clientTID
        (some { data with mClientHandles := data.mClientHandles.erase requestHandle }) }
  | _ => m

/-- `getClientLevelByClientID`, `none` for `-1`. -/
def getClientLevelByClientID (m : ClientDataManager) (clientPID : Int) : Option Permissions :=
  (m.mClientRepo.lookup clientPID).bind (·.mClientType)

/-- `getThreadsByClientId`, the ids it appends. -/
def getThreadsByClientId (m : ClientDataManager) (clientPID : Int) : List Int :=
  match m.mClientRepo.lookup clientPID with
  | none => []
  | some info => info.mClientTIDs

/-- `getActiveClientList`. -/
def getActiveClientList (m : ClientDataManager) : List Int := m.mClientRepo.keys

/-- The accessors that test the thread table with `find`: an answer for an unknown thread, and one
computed from the entry. -/
def findTid {α : Type} (m : ClientDataManager) (clientTID : Int) (unknown : α)
    (found : ClientTidData → α) : Option α :=
  match m.mClientTidRepo.lookup clientTID with
  | none => some unknown
  | some none => none
  | some (some data) => some (found data)

def getHealthByClientID (m : ClientDataManager) (clientTID : Int) : Option Rat :=
  m.findTid clientTID (-1) (·.mHealth)

def getLastRequestTimestampByClientID (m : ClientDataManager) (clientTID : Int) : Option Int :=
  m.findTid clientTID 0 (·.mLastRequestTimestamp)

/-- Overwrite the entry of a thread. -/
def setTid (m : ClientDataManager) (clientTID : Int) (data : ClientTidData) : ClientDataManager :=
  { m with mClientTidRepo := m.mClientTidRepo.insert clientTID (some data) }

def updateHealthByClientID (m : ClientDataManager) (clientTID : Int) (health : Rat) :
    Option ClientDataManager :=
  m.findTid clientTID m fun data => m.setTid clientTID { data with mHealth := health }

def updateLastRequestTimestampByClientID (m : ClientDataManager) (clientTID currentMillis : Int) :
    Option ClientDataManager :=
  m.findTid clientTID m fun data =>
    m.setTid clientTID { data with mLastRequestTimestamp := currentMillis }

def deleteClientPID (m : ClientDataManager) (clientPID : Int) : ClientDataManager :=
  { m with mClientRepo := m.mClientRepo.erase clientPID }

/-- `deleteClientTID`; the handle set of the entry is freed through the entry. -/
def deleteClientTID (m : ClientDataManager) (clientTID : Int) : Option ClientDataManager :=
  m.findTid clientTID m fun _ => { m with mClientTidRepo := m.mClientTidRepo.erase clientTID }

/-- The handles of a thread, none for an unknown thread or a null entry. -/
def handles (m : ClientDataManager) (clientTID : Int) : Option (UnorderedSet Int) :=
  (m.mClientTidRepo.lookup clientTID).bind fun entry => entry.map (·.mClientHandles)

end ClientDataManager

end ResourceTuner
