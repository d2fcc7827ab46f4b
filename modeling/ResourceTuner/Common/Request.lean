import ResourceTuner.Common.DLManager
import ResourceTuner.Common.Resource

/-!
# Messages and requests

`modula/Common/Message.cpp` and `Request.cpp`.  A `Message` carries a 32-bit properties word
whose lowest byte is the priority and whose second byte is the set of display modes the request
may run in.  The setters only ever OR bits into the word, which is why the priority a verifier
reads back after setting it is a fact to prove and not a definition.
-/

namespace ResourceTuner

/-- `class Message`. -/
structure Message where
  mReqType : RequestType
  mHandle : Int
  mDuration : Int
  mProperties : BitVec 32
  mClientPID : Int
  mClientTID : Int
  deriving DecidableEq, Repr

namespace Message

/-- `(int8_t) (mProperties & 0xff)`. -/
def getPriority (m : Message) : Int := ((m.mProperties &&& 0xff).setWidth 8).toInt

/-- `(int8_t) ((mProperties >> 8) & 0xff)`; the shift of the signed word is arithmetic. -/
def getProcessingModes (m : Message) : BitVec 8 :=
  ((m.mProperties.sshiftRight 8) &&& 0xff).setWidth 8

/-- `mProperties |= (int8_t) priority`: the byte is sign-extended before it is OR-ed in. -/
def setPriority (m : Message) (priority : Int) : Message :=
  { m with mProperties := m.mProperties ||| (BitVec.ofInt 8 priority).signExtend 32 }

def addProcessingMode (m : Message) (processingMode : BitVec 8) : Message :=
  { m with
    mProperties := m.mProperties |||
      (((m.mProperties.sshiftRight 8) ||| processingMode.signExtend 32) <<< 8) }

/-- The priority is the lowest byte, read as a signed byte. -/
theorem getPriority_eq (m : Message) : m.getPriority = (m.mProperties.setWidth 8).toInt := by
  have hmask : (m.mProperties &&& 0xff).setWidth 8 = m.mProperties.setWidth 8 := by
    apply BitVec.eq_of_getLsbD_eq
    intro i hi
    simp only [BitVec.getLsbD_setWidth, BitVec.getLsbD_and, getLsbD_byteMask, hi, decide_true,
      Bool.and_true]
  rw [getPriority, hmask]

/-- Adding a display mode leaves the priority byte alone. -/
theorem setWidth_addProcessingMode (m : Message) (mode : BitVec 8) :
    (m.addProcessingMode mode).mProperties.setWidth 8 = m.mProperties.setWidth 8 := by
  apply BitVec.eq_of_getLsbD_eq
  intro i hi
  simp [addProcessingMode, hi]

/-- Setting a priority ORs it into the priority byte. -/
theorem setWidth_setPriority (m : Message) (p : Int) :
    (m.setPriority p).mProperties.setWidth 8 = m.mProperties.setWidth 8 ||| BitVec.ofInt 8 p := by
  apply BitVec.eq_of_getLsbD_eq
  intro i hi
  simp only [setPriority, BitVec.getLsbD_setWidth, BitVec.getLsbD_or, BitVec.getLsbD_signExtend,
    hi, if_true, decide_true, Bool.true_and]
  simp [show i < 32 by omega]

end Message

/-- `class Request`.  `mTimer` is the address of the timer block, `mResourceList` the list of
resource nodes, absent until the first resource is added. -/
structure Request extends Message where
  mTimer : Option Nat
  mResourceList : Option (List ResIterable)
  deriving DecidableEq, Repr

namespace Request

def getPriority (r : Request) : Int := r.toMessage.getPriority

/-- The nodes of a request, none when no list was ever allocated. -/
def nodes (r : Request) : List ResIterable := r.mResourceList.getD []

def getResourcesCount (r : Request) : Nat := r.nodes.length

/-- `addResource`.  The list is allocated with the first resource; when that fails the resource
is dropped without a word. -/
def addResource (r : Request) (listBlock : Bool) (resIterable : ResIterable) : Request :=
  match r.mResourceList with
  | none => if listBlock then { r with mResourceList := some (DLManager.insert [] resIterable) } else r
  | some nodes => { r with mResourceList := some (DLManager.insert nodes resIterable) }

/-- `populateUntuneRequest`.  The duration of the new request is left as `MPLACED(Request)` made
it; no consumer of an untune reads it. -/
def populateUntuneRequest (r : Request) (duration : Int) : Request where
  mReqType := .REQ_RESOURCE_UNTUNING
  mHandle := r.mHandle
  mDuration := duration
  mProperties := r.mProperties
  mClientPID := r.mClientPID
  mClientTID := r.mClientTID
  mTimer := none
  mResourceList := none

@[simp] theorem getPriority_withTimer (r : Request) (timer : Option Nat) :
    ({ r with mTimer := timer } : Request).getPriority = r.getPriority := rfl

@[simp] theorem nodes_withTimer (r : Request) (timer : Option Nat) :
    ({ r with mTimer := timer } : Request).nodes = r.nodes := rfl

end Request

end ResourceTuner
