import ResourceTuner.Common.MemoryPool
import ResourceTuner.Common.Request
import ResourceTuner.Lib.ByteReader

/-!
# Messages from the wire

`Request::deserialize` and `Signal::deserialize`.  Both walk over the received buffer and fill an
object in place; every count and the end of every string is taken from the buffer itself.

* **`RawRequest`, `RawSignal`** — the objects with all they own;
* **`Request.deserialize`, `Signal.deserialize`** — the readers;
* **`Request.claimedLength`, `Signal.claimedLength`** — the length a message claims to have;
* **`deserialize_staysInside_iff`** — the readers stay inside the buffer exactly when that is at most
  its size.
-/

namespace ResourceTuner

open ByteReader

/-- `REQ_BUFFER_SIZE`: what the server reads of a message. -/
def REQ_BUFFER_SIZE : Nat := 580

/-- The value of the type byte. -/
def RequestType.toByte : RequestType → Byte
  | .REQ_RESOURCE_TUNING => 0
  | .REQ_RESOURCE_RETUNING => 1
  | .REQ_RESOURCE_UNTUNING => 2
  | .REQ_PROP_GET => 3
  | .REQ_SIGNAL_TUNING => 4
  | .REQ_SIGNAL_UNTUNING => 5
  | .REQ_SIGNAL_RELAY => 6

/-- The error codes of the two functions. -/
inductive ErrCode where
  | RC_MEMORY_POOL_BLOCK_RETRIEVAL_FAILURE
  | RC_REQUEST_DESERIALIZATION_FAILURE
  deriving DecidableEq, Repr

/-! ## The objects -/

/-- A node of a request's list, with the resource it points to. -/
structure RawNode where
  node : Block
  resource : Block
  mData : Resource

/-- A `Request` while it is filled.  The type is the byte from the wire; the list is the block of
its `DLManager` and its nodes. -/
structure RawRequest where
  mReqType : Byte
  mHandle : Int
  mDuration : Int
  mProperties : BitVec 32
  mClientPID : Int
  mClientTID : Int
  mResourceList : Option (Block × List RawNode)

namespace RawRequest

/-- `Request()`; what it leaves unset is zero here. -/
def new : RawRequest := ⟨0, 0, 0, 0, 0, 0, none⟩

def nodes (r : RawRequest) : List RawNode := (r.mResourceList.map Prod.snd).getD []

/-- The resources in the order of the list. -/
def resources (r : RawRequest) : List Resource := r.nodes.map (·.mData)

/-- The request as the rest of the server sees it, at an address. -/
def toRequest (r : RawRequest) (type : RequestType) (req : Nat) : Request where
  mReqType := type
  mHandle := r.mHandle
  mDuration := r.mDuration
  mProperties := r.mProperties
  mClientPID := r.mClientPID
  mClientTID := r.mClientTID
  mTimer := none
  mResourceList := r.mResourceList.map fun list =>
    list.2.zipIdx.map fun entry => ⟨(req, entry.2), some entry.1.mData⟩

end RawRequest

/-- A `Signal` while it is filled.  `mListArgs` is `none` until it is assigned; the constructor leaves
it unset. -/
structure RawSignal where
  mReqType : Byte
  mSignalCode : BitVec 32
  mSignalType : BitVec 32
  mHandle : Int
  mDuration : Int
  mAppName : List Byte
  mScenario : List Byte
  mNumArgs : Int
  mProperties : BitVec 32
  mClientPID : Int
  mClientTID : Int
  mListArgs : Option (Block × List (BitVec 32))

/-- `Signal()`. -/
def RawSignal.new : RawSignal := ⟨0, 0, 0, 0, 0, [], [], 0, 0, 0, 0, none⟩

/-- The object that is filled, and the pools. -/
structure Workspace (τ : Type) where
  object : τ
  pool : Pool

/-! ## The readers -/

abbrev Deserializer (τ : Type) := Reader ErrCode (Workspace τ)

section Readers

variable {τ : Type}

/-- An assignment to a field. -/
def assign (change : τ → τ) : Deserializer τ Unit :=
  update fun w => { w with object := change w.object }

/-- A field is written and the reading goes on, at the same place of the buffer. -/
theorem assign_bind {α : Type} (change : τ → τ) (f : Unit → Deserializer τ α) (rest : List Byte)
    (w : Workspace τ) :
    (assign change >>= f) ⟨rest, w⟩ = f () ⟨rest, { w with object := change w.object }⟩ := rfl

/-- `MPLACED`.  The exception is caught by the caller and becomes an error code. -/
def getBlock (kind : BlockKind) : Deserializer τ Block := fun s =>
  match s.store.pool.getBlock kind with
  | (some block, pool) => .ok block { s with store := { s.store with pool := pool } }
  | (none, pool) => .error (.failed .RC_MEMORY_POOL_BLOCK_RETRIEVAL_FAILURE)
      { s with store := { s.store with pool := pool } }

/-- A plain allocation that answers null when it fails. -/
def allocate : Deserializer τ Bool := fun s =>
  .ok s.store.pool.answer { s with store := { s.store with pool := s.store.pool.ask } }

/-- A plain allocation that throws when it fails. -/
def allocateOrThrow : Deserializer τ Unit := do
  let granted ← allocate
  if granted then pure () else fail .RC_MEMORY_POOL_BLOCK_RETRIEVAL_FAILURE

end Readers

/-- `addResource`.  Without a block for the list the node is dropped and nothing is said. -/
def addResource (node : RawNode) : Deserializer RawRequest Unit := fun s =>
  match s.store.object.mResourceList with
  | some (list, nodes) => assign (fun r => { r with mResourceList := some (list, nodes ++ [node]) }) s
  | none =>
    match s.store.pool.getBlock .DLManager with
    | (some list, pool) =>
      .ok () { s with store := ⟨{ s.store.object with mResourceList := some (list, [node]) }, pool⟩ }
    | (none, pool) => .ok () { s with store := { s.store with pool := pool } }

/-- The loop over the values of a resource from the `j`-th on.  The value is read before
`setValueAt` finds that there is no array for it. -/
def readValues (allocated : Bool) : Nat → Nat → Resource → Deserializer RawRequest Resource
  | 0, _, resource => pure resource
  | left + 1, j, resource => do
    let value ← read 4
    if allocated then readValues allocated left (j + 1) (resource.setValueAt j value.toInt)
    else fail .RC_REQUEST_DESERIALIZATION_FAILURE

/-- The allocation of `setNumValues`: up to two values are kept in the resource itself, more in an
array. -/
def allocateValues (numValues : Int) : Deserializer RawRequest Bool :=
  if numValues > 2 then allocate else pure true

/-- The body of the loop over the resources. -/
def readResource : Deserializer RawRequest Unit := do
  let node ← getBlock .ResIterable
  let resource ← getBlock .Resource
  let resCode ← read 4
  let resInfo ← read 4
  let optionalInfo ← read 4
  let numValues ← read 4
  let allocated ← allocateValues numValues.toInt
  let mData ← readValues allocated numValues.toInt.toNat 0
    ((Resource.ofValues resCode resInfo optionalInfo.toInt []).setNumValues numValues.toInt)
  addResource ⟨node, resource, mData⟩

def readResources : Nat → Deserializer RawRequest Unit
  | 0 => pure ()
  | n + 1 => do
    readResource
    readResources n

/-- `Request::deserialize`. -/
def Request.deserialize : Deserializer RawRequest Unit := do
  let _moduleID ← read 1
  let type ← read 1
  assign fun r => { r with mReqType := type }
  let handle ← read 8
  assign fun r => { r with mHandle := handle.toInt }
  let duration ← read 8
  assign fun r => { r with mDuration := duration.toInt }
  let numResources ← read 4
  let properties ← read 4
  assign fun r => { r with mProperties := properties }
  let pid ← read 4
  assign fun r => { r with mClientPID := pid.toInt }
  let tid ← read 4
  assign fun r => { r with mClientTID := tid.toInt }
  if type = RequestType.REQ_RESOURCE_TUNING.toByte then readResources numResources.toInt.toNat
  else pure ()

/-- The loop over the arguments of a signal. -/
def readArgs : Nat → Deserializer RawSignal (List (BitVec 32))
  | 0 => pure []
  | n + 1 => do
    let arg ← read 4
    let args ← readArgs n
    pure (arg :: args)

/-- `Signal::deserialize`.  `resize` throws for a negative count, which is a huge one as a
`size_t`. -/
def Signal.deserialize : Deserializer RawSignal Unit := do
  let _moduleID ← read 1
  let type ← read 1
  assign fun s => { s with mReqType := type }
  let signalCode ← read 4
  assign fun s => { s with mSignalCode := signalCode }
  let signalType ← read 4
  assign fun s => { s with mSignalType := signalType }
  let handle ← read 8
  assign fun s => { s with mHandle := handle.toInt }
  let duration ← read 8
  assign fun s => { s with mDuration := duration.toInt }
  let appName ← readString
  allocateOrThrow
  assign fun s => { s with mAppName := appName }
  let scenario ← readString
  allocateOrThrow
  assign fun s => { s with mScenario := scenario }
  let numArgs ← read 4
  assign fun s => { s with mNumArgs := numArgs.toInt }
  let properties ← read 4
  assign fun s => { s with mProperties := properties }
  let pid ← read 4
  assign fun s => { s with mClientPID := pid.toInt }
  let tid ← read 4
  assign fun s => { s with mClientTID := tid.toInt }
  let listArgs ← getBlock .ArgVector
  assign fun s => { s with mListArgs := some (listArgs, []) }
  if numArgs.toInt < 0 then fail .RC_REQUEST_DESERIALIZATION_FAILURE
  else do
    allocateOrThrow
    let args ← readArgs numArgs.toInt.toNat
    assign fun s => { s with mListArgs := some (listArgs, args) }

/-! ## Staying inside the buffer -/

section Sequential

variable {τ : Type}

/-- An assignment does not look at the buffer. -/
theorem sequential_assign (change : τ → τ) : Sequential (assign change) := .update _

/-- Neither does taking a block. -/
theorem sequential_getBlock (kind : BlockKind) :
    Sequential (getBlock kind : Deserializer τ Block) := by
  refine .of_store (fun w => match w.pool.getBlock kind with
    | (some block, pool) => .ok block { w with pool := pool }
    | (none, pool) => .error (.failed .RC_MEMORY_POOL_BLOCK_RETRIEVAL_FAILURE)
        { w with pool := pool }) (fun s => ?_) (fun w w' => ?_)
  · unfold getBlock
    rcases s.store.pool.getBlock kind with ⟨_ | block, pool⟩ <;> rfl
  · rcases w.pool.getBlock kind with ⟨_ | block, pool⟩ <;> simp

/-- Nor an allocation, whether it is granted or not. -/
theorem sequential_allocate : Sequential (allocate : Deserializer τ Bool) :=
  .of_store (fun w => .ok w.pool.answer { w with pool := w.pool.ask }) (fun _ => rfl) (by simp)

/-- One that throws ends the reading where it stands. -/
theorem sequential_allocateOrThrow : Sequential (allocateOrThrow : Deserializer τ Unit) := by
  refine sequential_allocate.bind fun granted => ?_
  split
  · exact .pure ()
  · exact .fail _

/-- A resource is added to the request without a look at the buffer. -/
theorem sequential_addResource (node : RawNode) : Sequential (addResource node) := by
  refine .of_store (fun w => match w.object.mResourceList with
    | some (list, nodes) =>
      .ok () { w with object := { w.object with mResourceList := some (list, nodes ++ [node]) } }
    | none => match w.pool.getBlock .DLManager with
      | (some list, pool) => .ok () ⟨{ w.object with mResourceList := some (list, [node]) }, pool⟩
      | (none, pool) => .ok () { w with pool := pool }) (fun s => ?_) (fun w w' => ?_)
  · unfold addResource
    cases s.store.object.mResourceList with
    | some entry => rfl
    | none =>
      simp only
      rcases s.store.pool.getBlock .DLManager with ⟨_ | block, pool⟩ <;> rfl
  · cases w.object.mResourceList with
    | some entry => simp
    | none =>
      simp only
      rcases w.pool.getBlock .DLManager with ⟨_ | block, pool⟩ <;> simp

/-- The values are read one after the other, into the array or into nothing. -/
theorem sequential_readValues (allocated : Bool) (left j : Nat) (resource : Resource) :
    Sequential (readValues allocated left j resource) := by
  induction left generalizing j resource with
  | zero => exact .pure resource
  | succ left ih =>
    refine .bind (.read 4) fun value => ?_
    split
    · exact ih (j + 1) _
    · exact .fail _

/-- The array is asked for before the values are read. -/
theorem sequential_allocateValues (numValues : Int) : Sequential (allocateValues numValues) := by
  unfold allocateValues
  split
  · exact sequential_allocate
  · exact .pure true

/-- A resource is its header and its values. -/
theorem sequential_readResource : Sequential readResource := by
  refine (sequential_getBlock _).bind fun node => (sequential_getBlock _).bind fun block => ?_
  refine .bind (.read 4) fun code => .bind (.read 4) fun info => .bind (.read 4) fun optional => ?_
  refine .bind (.read 4) fun numValues => (sequential_allocateValues _).bind fun allocated => ?_
  exact (sequential_readValues _ _ _ _).bind fun resource => sequential_addResource _

/-- The loop over the resources reads on from where the last one ended. -/
theorem sequential_readResources (n : Nat) : Sequential (readResources n) := by
  induction n with
  | zero => exact .pure ()
  | succ n ih => exact sequential_readResource.bind fun _ => ih

/-- **The request decoder reads on and on**: what lies behind the buffer has no say in its outcome
unless it gets there. -/
theorem sequential_request : Sequential Request.deserialize := by
  refine .bind (.read 1) fun _ => .bind (.read 1) fun type => (sequential_assign _).bind fun _ => ?_
  refine .bind (.read 8) fun _ => (sequential_assign _).bind fun _ => ?_
  refine .bind (.read 8) fun _ => (sequential_assign _).bind fun _ => ?_
  refine .bind (.read 4) fun numResources => .bind (.read 4) fun _ => ?_
  refine (sequential_assign _).bind fun _ => .bind (.read 4) fun _ => ?_
  refine (sequential_assign _).bind fun _ => .bind (.read 4) fun _ => ?_
  refine (sequential_assign _).bind fun _ => ?_
  split
  · exact sequential_readResources _
  · exact .pure ()

/-- The arguments of a signal are words, one after the other. -/
theorem sequential_readArgs (n : Nat) : Sequential (readArgs n) := by
  induction n with
  | zero => exact .pure []
  | succ n ih => exact .bind (.read 4) fun arg => ih.bind fun args => .pure _

/-- **So does the signal decoder**, whatever its strings and counts are. -/
theorem sequential_signal : Sequential Signal.deserialize := by
  refine .bind (.read 1) fun _ => .bind (.read 1) fun _ => (sequential_assign _).bind fun _ => ?_
  refine .bind (.read 4) fun _ => (sequential_assign _).bind fun _ => ?_
  refine .bind (.read 4) fun _ => (sequential_assign _).bind fun _ => ?_
  refine .bind (.read 8) fun _ => (sequential_assign _).bind fun _ => ?_
  refine .bind (.read 8) fun _ => (sequential_assign _).bind fun _ => ?_
  refine .bind .readString fun _ => sequential_allocateOrThrow.bind fun _ => ?_
  refine (sequential_assign _).bind fun _ => .bind .readString fun _ => ?_
  refine sequential_allocateOrThrow.bind fun _ => (sequential_assign _).bind fun _ => ?_
  refine .bind (.read 4) fun numArgs => (sequential_assign _).bind fun _ => ?_
  refine .bind (.read 4) fun _ => (sequential_assign _).bind fun _ => ?_
  refine .bind (.read 4) fun _ => (sequential_assign _).bind fun _ => ?_
  refine .bind (.read 4) fun _ => (sequential_assign _).bind fun _ => ?_
  refine (sequential_getBlock _).bind fun _ => (sequential_assign _).bind fun _ => ?_
  split
  · exact .fail _
  · exact sequential_allocateOrThrow.bind fun _ =>
      (sequential_readArgs _).bind fun _ => sequential_assign _

end Sequential

/-! ## The length a message claims

The counts are signed words; a negative one claims nothing.  Where the buffer ends early the missing
bytes are read as none here, which only makes the claim longer than the buffer. -/

/-- The number of values that the first resource of the bytes claims. -/
def claimedValues (bytes : List Byte) : Nat := (decode 4 ((bytes.drop 12).take 4)).toInt.toNat

/-- The bytes that a number of resources claims. -/
def claimedResources : Nat → List Byte → Nat
  | 0, _ => 0
  | n + 1, bytes =>
    16 + 4 * claimedValues bytes +
      claimedResources n (bytes.drop (16 + 4 * claimedValues bytes))

/-- The bytes that a resource request claims: a header, and for a tune request its resources. -/
def Request.claimedLength (bytes : List Byte) : Nat :=
  34 + if decode 1 ((bytes.drop 1).take 1) = RequestType.REQ_RESOURCE_TUNING.toByte then
      claimedResources (decode 4 ((bytes.drop 18).take 4)).toInt.toNat (bytes.drop 34)
    else 0

/-- The bytes that a signal claims: a header, two strings, four words and the arguments. -/
def Signal.claimedLength (bytes : List Byte) : Nat :=
  let appName := stringLength (bytes.drop 26)
  let scenario := stringLength (bytes.drop (26 + appName))
  let words := bytes.drop (26 + appName + scenario)
  26 + appName + scenario + 16 + 4 * (decode 4 (words.take 4)).toInt.toNat

section Claimed

variable {τ : Type} {s : Input (Workspace τ)}

/-- Every allocation for the message succeeds. -/
def Granted (w : Workspace τ) : Prop := w.pool.Granted

/-- A block costs no bytes. -/
theorem within_getBlock (kind : BlockKind) :
    Within (getBlock kind : Deserializer τ Block) s 0 := by
  refine .zero (fun s' h => ?_) fun a s' h => ?_
  · simp only [getBlock] at h
    split at h <;> cases h
  · simp only [getBlock] at h
    split at h
    · cases h
      rfl
    · cases h

/-- And it is there as long as the pool has one. -/
theorem unfailing_getBlock (kind : BlockKind) :
    Unfailing Granted (getBlock kind : Deserializer τ Block) := by
  intro s hs
  have hget := Pool.getBlock_of_granted hs kind
  refine ⟨fun code s' h => ?_, fun a s' h => ?_⟩
  · simp only [getBlock, hget] at h
    cases h
  · simp only [getBlock, hget] at h
    cases h
    exact hs

/-- An assignment cannot fail. -/
theorem unfailing_assign (change : τ → τ) : Unfailing Granted (assign change) :=
  .update _ fun _ h => h

/-- Nor can an allocation whose answer is looked at. -/
theorem unfailing_allocate : Unfailing Granted (allocate : Deserializer τ Bool) := by
  intro s hs
  refine ⟨fun code s' h => ?_, fun a s' h => ?_⟩
  · cases h
  · cases h
    exact hs

/-- A granted allocation answers true. -/
theorem eq_true_of_allocate {granted : Bool}
    (h : ∃ s s', Granted s.store ∧ (allocate : Deserializer τ Bool) s = .ok granted s') :
    granted = true := by
  obtain ⟨s, s', hs, hok⟩ := h
  cases hok
  exact hs _

/-- An allocation costs no bytes either. -/
theorem within_allocateOrThrow : Within (allocateOrThrow : Deserializer τ Unit) s 0 := by
  refine Within.bind (k := 0) (l := 0) ?_ fun granted s' _ => ?_
  · exact .zero (fun s' h => by cases h) fun a s' h => by cases h; rfl
  · split
    · exact .pure ()
    · exact .fail _

/-- It does not throw where it is granted. -/
theorem unfailing_allocateOrThrow : Unfailing Granted (allocateOrThrow : Deserializer τ Unit) := by
  refine unfailing_allocate.bind fun granted hgranted => ?_
  rw [eq_true_of_allocate hgranted]
  exact .pure ()

end Claimed

section ClaimedRequest

variable {s : Input (Workspace RawRequest)}

/-- To add a resource costs no bytes. -/
theorem within_addResource (node : RawNode) : Within (addResource node) s 0 := by
  refine .zero (fun s' h => ?_) fun a s' h => ?_
  · simp only [addResource] at h
    split at h
    · cases h
    · split at h <;> cases h
  · simp only [addResource] at h
    split at h
    · cases h
      rfl
    · split at h
      · cases h
        rfl
      · cases h
        rfl

/-- And a list that can be allocated takes it. -/
theorem unfailing_addResource (node : RawNode) : Unfailing Granted (addResource node) := by
  intro s hs
  have hget := Pool.getBlock_of_granted hs .DLManager
  refine ⟨fun code s' h => ?_, fun a s' h => ?_⟩
  · simp only [addResource, hget] at h
    split at h <;> cases h
  · simp only [addResource, hget] at h
    split at h
    · cases h
      exact hs
    · cases h
      exact hs

/-- Each value claims four bytes, also when there is no array to put it in. -/
theorem within_readValues (allocated : Bool) (left j : Nat) (resource : Resource) :
    Within (readValues allocated left j resource) s (4 * left) := by
  induction left generalizing s j resource with
  | zero => exact .pure resource
  | succ left ih =>
    rw [show 4 * (left + 1) = 4 + 4 * left by omega]
    cases allocated with
    | true => exact .bind (.read 4) fun value s' _ => ih (j + 1) _
    | false =>
      -- the first value is read, and then there is no array for it
      refine ⟨fun hle s' h => ?_, fun a s' h => ?_⟩
      · rcases bind_eq_error h with h₁ | ⟨a, s₁, -, h₂⟩
        · exact (Within.read 4).1 (by omega) s' h₁
        · cases h₂
      · obtain ⟨a, s₁, -, h₂⟩ := bind_eq_ok h
        cases h₂

/-- With an array there is nothing that can go wrong between the values. -/
theorem unfailing_readValues (left j : Nat) (resource : Resource) :
    Unfailing Granted (readValues true left j resource) := by
  induction left generalizing j resource with
  | zero => exact .pure resource
  | succ left ih => exact .bind (.read 4) fun value _ => ih (j + 1) _

/-- The array costs no bytes. -/
theorem within_allocateValues (numValues : Int) : Within (allocateValues numValues) s 0 := by
  unfold allocateValues
  split
  · exact .zero (fun s' h => by cases h) fun a s' h => by cases h; rfl
  · exact .pure true

/-- It is granted. -/
theorem unfailing_allocateValues (numValues : Int) :
    Unfailing Granted (allocateValues numValues) := by
  unfold allocateValues
  split
  · exact unfailing_allocate
  · exact .pure true

/-- And so the values are read into an array. -/
theorem eq_true_of_allocateValues {numValues : Int} {allocated : Bool}
    (h : ∃ s s', Granted s.store ∧ allocateValues numValues s = .ok allocated s') :
    allocated = true := by
  unfold allocateValues at h
  split at h
  · exact eq_true_of_allocate h
  · obtain ⟨s, s', -, hok⟩ := h
    cases hok
    rfl

/-- A resource is read if its bytes are there. -/
theorem unfailing_readResource : Unfailing Granted readResource := by
  refine (unfailing_getBlock _).bind fun node _ => (unfailing_getBlock _).bind fun block _ => ?_
  refine .bind (.read 4) fun code _ => .bind (.read 4) fun info _ => ?_
  refine .bind (.read 4) fun optional _ => .bind (.read 4) fun numValues _ => ?_
  refine (unfailing_allocateValues _).bind fun allocated hallocated => ?_
  rw [eq_true_of_allocateValues hallocated]
  exact (unfailing_readValues _ _ _).bind fun mData _ => unfailing_addResource _

/-- So are any number of them. -/
theorem unfailing_readResources (n : Nat) : Unfailing Granted (readResources n) := by
  induction n with
  | zero => exact .pure ()
  | succ n ih => exact unfailing_readResource.bind fun _ _ => ih

/-- One resource takes four words and its values. -/
theorem within_readResource : Within readResource s (16 + 4 * claimedValues s.rest) := by
  rw [show 16 + 4 * claimedValues s.rest =
    0 + (0 + (4 + (4 + (4 + (4 + (0 + (4 * claimedValues s.rest + 0))))))) by omega]
  refine .bind (within_getBlock _) fun node s₁ h₁ => .bind (within_getBlock _) fun block s₂ h₂ => ?_
  refine .bind (.read 4) fun code s₃ h₃ => .bind (.read 4) fun info s₄ h₄ => ?_
  refine .bind (.read 4) fun optional s₅ h₅ => .bind (.read 4) fun numValues s₆ h₆ => ?_
  have hvalues : numValues.toInt.toNat = claimedValues s.rest := by
    have hrest : s₅.rest = s.rest.drop 12 := by
      rw [((Within.read 4).2 _ _ h₅).2, ((Within.read 4).2 _ _ h₄).2,
        ((Within.read 4).2 _ _ h₃).2, ((within_getBlock _).2 _ _ h₂).2,
        ((within_getBlock _).2 _ _ h₁).2]
      simp only [List.drop_zero, List.drop_drop]
    simp only [ByteReader.read] at h₆
    split at h₆
    · cases h₆
      rw [claimedValues, hrest]
    · cases h₆
  refine .bind (within_allocateValues _) fun allocated s₇ h₇ => ?_
  rw [← hvalues]
  exact .bind (within_readValues _ _ _ _) fun mData s₈ h₈ => within_addResource _

/-- The resources claim what their own counts say, each one's being read at the place where the last
one ended. -/
theorem within_readResources (n : Nat) :
    Within (readResources n) s (claimedResources n s.rest) := by
  induction n generalizing s with
  | zero => exact .pure ()
  | succ n ih =>
    refine .bind within_readResource fun _ s' h => ?_
    rw [← (within_readResource.2 _ _ h).2]
    exact ih

/-- **The request decoder takes exactly the bytes that the message claims**, and succeeds if they
are there. -/
theorem takes_request (s : Input (Workspace RawRequest)) :
    Takes Granted Request.deserialize s (Request.claimedLength s.rest) := by
  rw [Request.claimedLength, show ∀ k, 34 + k = 1 + (1 + (8 + (8 + (4 + (4 + (4 + (4 + k)))))))
    from fun k => by omega]
  refine .read_bind fun s₁ h₁ => .read_bind fun s₂ h₂ => ?_
  refine .skip_bind (.update _) (unfailing_assign _) fun _ s₃ h₃ => .read_bind fun s₄ h₄ => ?_
  refine .skip_bind (.update _) (unfailing_assign _) fun _ s₅ h₅ => .read_bind fun s₆ h₆ => ?_
  refine .skip_bind (.update _) (unfailing_assign _) fun _ s₇ h₇ => ?_
  refine .read_bind fun s₈ h₈ => .read_bind fun s₉ h₉ => ?_
  refine .skip_bind (.update _) (unfailing_assign _) fun _ s₁₀ h₁₀ => .read_bind fun s₁₁ h₁₁ => ?_
  refine .skip_bind (.update _) (unfailing_assign _) fun _ s₁₂ h₁₂ => .read_bind fun s₁₃ h₁₃ => ?_
  refine .skip_bind (.update _) (unfailing_assign _) fun _ s₁₄ h₁₄ => ?_
  simp only [h₁, h₂, h₃, h₄, h₅, h₆, h₇, h₈, h₉, h₁₀, h₁₁, h₁₂, h₁₃, List.drop_drop] at h₁₄ ⊢
  split
  · rw [← h₁₄]
    exact .of_unfailing (within_readResources _) (unfailing_readResources _)
  · exact .of_unfailing (.pure ()) (.pure ())

end ClaimedRequest

section ClaimedSignal

variable {s : Input (Workspace RawSignal)}

/-- Each argument claims four bytes. -/
theorem within_readArgs (n : Nat) : Within (readArgs n) s (4 * n) := by
  induction n generalizing s with
  | zero => exact .pure []
  | succ n ih =>
    rw [show 4 * (n + 1) = 4 + (4 * n + 0) by omega]
    exact .bind (.read 4) fun arg s' _ => .bind ih fun args s'' _ => .pure _

/-- Nothing but the end of the buffer stops the loop. -/
theorem unfailing_readArgs (n : Nat) : Unfailing Granted (readArgs n) := by
  induction n with
  | zero => exact .pure []
  | succ n ih => exact .bind (.read 4) fun arg _ => ih.bind fun args _ => .pure _

/-- **The signal decoder takes exactly the bytes that the signal claims**, the two strings with
their zero bytes. -/
theorem takes_signal (s : Input (Workspace RawSignal)) :
    Takes Granted Signal.deserialize s (Signal.claimedLength s.rest) := by
  simp only [Signal.claimedLength, show ∀ a b k, 26 + a + b + 16 + k =
    1 + (1 + (4 + (4 + (8 + (8 + (a + (b + (4 + (4 + (4 + (4 + k)))))))))))
    from fun a b k => by omega]
  refine .read_bind fun s₁ h₁ => .read_bind fun s₂ h₂ => ?_
  refine .skip_bind (.update _) (unfailing_assign _) fun _ s₃ h₃ => .read_bind fun s₄ h₄ => ?_
  refine .skip_bind (.update _) (unfailing_assign _) fun _ s₅ h₅ => .read_bind fun s₆ h₆ => ?_
  refine .skip_bind (.update _) (unfailing_assign _) fun _ s₇ h₇ => .read_bind fun s₈ h₈ => ?_
  refine .skip_bind (.update _) (unfailing_assign _) fun _ s₉ h₉ => .read_bind fun s₁₀ h₁₀ => ?_
  refine .skip_bind (.update _) (unfailing_assign _) fun _ s₁₁ h₁₁ => ?_
  have hnames : s₁₁.rest = s.rest.drop 26 := by
    simp only [h₁, h₂, h₃, h₄, h₅, h₆, h₇, h₈, h₉, h₁₀, h₁₁, List.drop_drop]
  rw [← hnames]
  refine .string_bind fun appName s₁₂ h₁₂ => ?_
  refine .skip_bind within_allocateOrThrow unfailing_allocateOrThrow fun _ s₁₃ h₁₃ => ?_
  refine .skip_bind (.update _) (unfailing_assign _) fun _ s₁₄ h₁₄ => ?_
  have hscenario : s₁₄.rest = s.rest.drop (26 + stringLength s₁₁.rest) := by
    rw [h₁₄, h₁₃, h₁₂, hnames, List.drop_drop]
  rw [← hscenario]
  refine .string_bind fun scenario s₁₅ h₁₅ => ?_
  refine .skip_bind within_allocateOrThrow unfailing_allocateOrThrow fun _ s₁₆ h₁₆ => ?_
  refine .skip_bind (.update _) (unfailing_assign _) fun _ s₁₇ h₁₇ => ?_
  have hwords : s₁₇.rest =
      s.rest.drop (26 + stringLength s₁₁.rest + stringLength s₁₄.rest) := by
    rw [h₁₇, h₁₆, h₁₅, hscenario, List.drop_drop]
  rw [← hwords]
  refine .read_bind fun s₁₈ h₁₈ => ?_
  refine .skip_bind (.update _) (unfailing_assign _) fun _ s₁₉ h₁₉ => .read_bind fun s₂₀ h₂₀ => ?_
  refine .skip_bind (.update _) (unfailing_assign _) fun _ s₂₁ h₂₁ => .read_bind fun s₂₂ h₂₂ => ?_
  refine .skip_bind (.update _) (unfailing_assign _) fun _ s₂₃ h₂₃ => .read_bind fun s₂₄ h₂₄ => ?_
  refine .skip_bind (.update _) (unfailing_assign _) fun _ s₂₅ h₂₅ => ?_
  refine .skip_bind (within_getBlock _) (unfailing_getBlock _) fun listArgs s₂₆ h₂₆ => ?_
  refine .skip_bind (.update _) (unfailing_assign _) fun _ s₂₇ h₂₇ => ?_
  split
  · -- a negative count claims nothing, and `resize` throws
    rename_i hneg
    rw [Int.toNat_of_nonpos hneg.le]
    exact .fail _
  · refine .skip_bind within_allocateOrThrow unfailing_allocateOrThrow fun _ s₂₈ h₂₈ => ?_
    exact .of_unfailing (k := _ + 0) (.bind (within_readArgs _) fun args s' _ => .update _)
      ((unfailing_readArgs _).bind fun args _ => unfailing_assign _)

end ClaimedSignal

/-! ## Staying inside the buffer -/

/-- Whatever lies behind the buffer and however the allocations are answered, a reader returns an
error code or reads the buffer only. -/
def ReadsBuffer {τ : Type} (d : Deserializer τ Unit) (new : τ) (buffer : List Byte) : Prop :=
  ∀ grants, StaysInside d buffer ⟨new, .fresh grants⟩

/-- A decoder that takes what a message claims stays in the buffer exactly if the message claims no
more than the buffer has: what lies behind has no say in it until it gets there. -/
theorem readsBuffer_iff {τ : Type} {d : Deserializer τ Unit} {claimedLength : List Byte → Nat}
    (hseq : Sequential d) (htakes : ∀ s, Takes Granted d s (claimedLength s.rest)) (new : τ)
    (buffer : List Byte) : ReadsBuffer d new buffer ↔ claimedLength buffer ≤ buffer.length := by
  simp only [ReadsBuffer, staysInside_iff hseq]
  constructor
  · intro h
    by_contra hlong
    obtain ⟨s', hfault⟩ := ((htakes ⟨buffer, ⟨new, .fresh fun _ => true⟩⟩).fault_iff
      fun _ => rfl).mpr (by simpa using hlong)
    exact h (fun _ => true) s' hfault
  · intro hle grants
    exact (htakes _).within.1 hle

/-- **The decoders stay inside the received buffer** exactly when the message claims no more than its
size. -/
theorem deserialize_staysInside_iff (buffer : List Byte) (hsize : buffer.length = REQ_BUFFER_SIZE) :
    (ReadsBuffer Request.deserialize .new buffer ↔
        Request.claimedLength buffer ≤ REQ_BUFFER_SIZE) ∧
      (ReadsBuffer Signal.deserialize .new buffer ↔
        Signal.claimedLength buffer ≤ REQ_BUFFER_SIZE) := by
  rw [← hsize]
  exact ⟨readsBuffer_iff sequential_request takes_request .new buffer,
    readsBuffer_iff sequential_signal takes_signal .new buffer⟩

/-- A message of zero bytes claims a header. -/
theorem deserialize_staysInside_zeros :
    ReadsBuffer Request.deserialize .new (List.replicate REQ_BUFFER_SIZE 0) ∧
      ReadsBuffer Signal.deserialize .new (List.replicate REQ_BUFFER_SIZE 0) := by
  obtain ⟨hrequest, hsignal⟩ :=
    deserialize_staysInside_iff (List.replicate REQ_BUFFER_SIZE 0) List.length_replicate
  exact ⟨hrequest.mpr (by decide +kernel), hsignal.mpr (by decide +kernel)⟩

/-- A tune message that claims forty resources, and a signal whose name has no end. -/
theorem deserialize_leaves_buffer :
    ¬ ReadsBuffer Request.deserialize .new
        (List.replicate 18 0 ++ encode 4 40 ++ List.replicate 558 0) ∧
      ¬ ReadsBuffer Signal.deserialize .new (List.replicate REQ_BUFFER_SIZE 1) := by
  rw [readsBuffer_iff sequential_request takes_request,
    readsBuffer_iff sequential_signal takes_signal]
  decide +kernel

end ResourceTuner
