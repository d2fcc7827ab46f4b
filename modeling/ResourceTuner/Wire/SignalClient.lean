import ResourceTuner.Wire.ResourceClient
import ResourceTuner.Wire.SignalLayout

/-!
# Signals on the wire

`tuneSignal` and `relaySignal` of `UrmAPIs.cpp`.  They write their message through bare pointers into
a local array of 1024 bytes and send the whole array; the server receives the first `REQ_BUFFER_SIZE`
bytes of it.  Neither side looks at a length.

* **`SignalCall`**, **`tuneSignal`**, **`relaySignal`** — the client;
* **`Draws`** — the allocations a reader needs in order to end well;
* **`RoundTrips`** — the server reads back what the client was given;
* **`signal_roundTrip_iff`** — it does exactly when the message fits the server's buffer.
-/

namespace ResourceTuner

open ByteReader

/-- A string as C has it: the bytes before the terminating zero. -/
structure CString where
  bytes : List Byte
  noZero : 0 ∉ bytes

/-- The arguments of the two calls. -/
structure SignalCall where
  sigId : BitVec 32
  sigType : BitVec 32
  duration : BitVec 64
  properties : BitVec 32
  appName : CString
  scenario : CString
  numArgs : BitVec 32
  list : Nat → BitVec 32

/-- The size of the client's array. -/
def CLIENT_BUFFER_SIZE : Nat := 1024

/-- The bytes that are written, from the start of the array on. -/
def SignalCall.bytes (call : SignalCall) (client : ClientProcess) (type : RequestType) : List Byte :=
  encode 1 MOD_RESTUNE ++ (encode 1 type.toByte ++ (encode 4 call.sigId ++ (encode 4 call.sigType ++
    (encode 8 0 ++ (encode 8 call.duration ++ (call.appName.bytes ++ 0 ::
      (call.scenario.bytes ++ 0 :: (encode 4 call.numArgs ++ (encode 4 call.properties ++
        (encode 4 client.pid ++ (encode 4 client.tid ++
          valuesBytes call.list call.numArgs.toInt.toNat 0)))))))))))

/-- The body of the two calls; `none` where nothing is sent. -/
def sendSignal (type : RequestType) (client : ClientProcess) (call : SignalCall) :
    Option (List Byte) :=
  if call.duration.toInt < -1 then none
  else if call.numArgs.toInt < 0 then none
  else if call.properties.toInt < 0 then none
  else some (call.bytes client type)

def tuneSignal : ClientProcess → SignalCall → Option (List Byte) := sendSignal .REQ_SIGNAL_TUNING

def relaySignal : ClientProcess → SignalCall → Option (List Byte) := sendSignal .REQ_SIGNAL_RELAY

/-- What the server receives: the array starts with what was written and goes on with what was in it
before. -/
def receivedBytes (written array : List Byte) : List Byte :=
  (written ++ array.drop written.length).take REQ_BUFFER_SIZE

/-! ## What is read back -/

/-- The server's signal says what the client was given. -/
structure SignalReadBack (type : RequestType) (client : ClientProcess) (call : SignalCall)
    (signal : RawSignal) : Prop where
  type : signal.mReqType = type.toByte
  signalCode : signal.mSignalCode = call.sigId
  signalType : signal.mSignalType = call.sigType
  duration : signal.mDuration = call.duration.toInt
  appName : signal.mAppName = call.appName.bytes
  scenario : signal.mScenario = call.scenario.bytes
  properties : signal.mProperties = call.properties
  pid : signal.mClientPID = client.pid.toInt
  tid : signal.mClientTID = client.tid.toInt
  numArgs : signal.mNumArgs = call.numArgs.toInt
  args : ∃ block, signal.mListArgs =
    some (block, (List.range call.numArgs.toInt.toNat).map call.list)

/-- The client stays in its array, and the server reads the signal back, whatever was in the array
before and lies behind the server's buffer. -/
def RoundTrips (type : RequestType) (client : ClientProcess) (call : SignalCall)
    (grants : Nat → Bool) : Prop :=
  (call.bytes client type).length ≤ CLIENT_BUFFER_SIZE ∧
    ∀ array beyond : List Byte, array.length = CLIENT_BUFFER_SIZE → ∃ s,
      Signal.deserialize ⟨receivedBytes (call.bytes client type) array ++ beyond,
        ⟨.new, .fresh grants⟩⟩ = .ok () s ∧ SignalReadBack type client call s.store.object

/-- Each argument takes four bytes. -/
theorem length_valuesBytes (value : Nat → BitVec 32) (left j : Nat) :
    (valuesBytes value left j).length = 4 * left := by
  induction left generalizing j with
  | zero => rfl
  | succ left ih =>
    rw [valuesBytes, List.length_append, length_encode, ih]
    omega

/-- The fixed fields take 44 bytes, with the zero bytes of the two strings. -/
theorem SignalCall.length_bytes (call : SignalCall) (client : ClientProcess) (type : RequestType) :
    (call.bytes client type).length = 44 + call.appName.bytes.length +
      call.scenario.bytes.length + 4 * call.numArgs.toInt.toNat := by
  simp only [SignalCall.bytes, List.length_append, List.length_cons, length_encode,
    length_valuesBytes]
  omega

/-- The loop of the client writes the arguments one after the other. -/
theorem valuesBytes_eq (value : Nat → BitVec 32) (left j : Nat) :
    valuesBytes value left j = ((List.range' j left).map value).flatMap (encode 4) := by
  induction left generalizing j with
  | zero => rfl
  | succ left ih =>
    rw [valuesBytes, ih, List.range'_succ]
    rfl

/-- The call as the fields that are read.  The client writes no handle. -/
def SignalCall.message (call : SignalCall) (client : ClientProcess) (type : RequestType) :
    SignalMessage where
  moduleID := MOD_RESTUNE
  type := type.toByte
  signalCode := call.sigId
  signalType := call.sigType
  handle := 0
  duration := call.duration
  appName := call.appName.bytes
  scenario := call.scenario.bytes
  numArgs := call.numArgs
  properties := call.properties
  pid := client.pid
  tid := client.tid
  args := (List.range call.numArgs.toInt.toNat).map call.list

/-- What the client writes is the encoding of the message that the decoder should see. -/
theorem SignalCall.bytes_eq (call : SignalCall) (client : ClientProcess) (type : RequestType) :
    call.bytes client type = (call.message client type).bytes := by
  rw [SignalCall.bytes, valuesBytes_eq, ← List.range_eq_range']
  rfl

/-- That message is one the decoder accepts, if the number of arguments is not negative. -/
theorem SignalCall.wellFormed_message {call : SignalCall} (h : 0 ≤ call.numArgs.toInt)
    (client : ClientProcess) (type : RequestType) : (call.message client type).WellFormed where
  appName := call.appName.noZero
  scenario := call.scenario.noZero
  count := by
    have hlength : ((call.message client type).args).length = call.numArgs.toInt.toNat := by
      simp [SignalCall.message]
    rw [hlength]
    exact (Int.toNat_of_nonneg h).symm

/-- The message alone, whatever follows it. -/
theorem deserialize_signalBytes (client : ClientProcess) (call : SignalCall) (type : RequestType)
    (hargs : 0 ≤ call.numArgs.toInt) {grants : Nat → Bool} (hgrants : ∀ n < 4, grants n = true)
    (tail : List Byte) :
    ∃ w, Signal.deserialize ⟨call.bytes client type ++ tail, ⟨.new, .fresh grants⟩⟩ =
      .ok () ⟨tail, w⟩ ∧ SignalReadBack type client call w.object := by
  obtain ⟨pool, hread⟩ :=
    deserialize_bytes (SignalCall.wellFormed_message hargs client type) hgrants tail
  rw [← SignalCall.bytes_eq] at hread
  exact ⟨_, hread, ⟨rfl, rfl, rfl, rfl, rfl, rfl, rfl, rfl, rfl, rfl, _, rfl⟩⟩

/-! ## Allocations -/

/-- A reader that has ended well was granted its next `n` allocations. -/
def Draws {τ α : Type} (d : Deserializer τ α) (n : Nat) : Prop :=
  ∀ s a s', d s = .ok a s' → s'.store.pool.grants = s.store.pool.grants ∧
    s'.store.pool.asked = s.store.pool.asked + n ∧
    ∀ i < n, s.store.pool.grants (s.store.pool.asked + i) = true

namespace Draws

variable {τ α β : Type} {d : Deserializer τ α} {f : α → Deserializer τ β} {n m : Nat}

theorem bind (hd : Draws d n) (hf : ∀ a, Draws (f a) m) : Draws (d >>= f) (n + m) := by
  intro s b s' h
  obtain ⟨a, s₁, h₁, h₂⟩ := bind_eq_ok h
  obtain ⟨hgrants, hasked, hanswers⟩ := hd s a s₁ h₁
  obtain ⟨hgrants', hasked', hanswers'⟩ := hf a s₁ b s' h₂
  refine ⟨hgrants'.trans hgrants, by omega, fun i hi => ?_⟩
  by_cases hin : i < n
  · exact hanswers i hin
  · have := hanswers' (i - n) (by omega)
    rw [hgrants, hasked] at this
    rwa [show s.store.pool.asked + i = s.store.pool.asked + n + (i - n) by omega]

/-- A reader that leaves the pools alone. -/
theorem zero (h : ∀ s a s', d s = .ok a s' → s'.store.pool = s.store.pool) : Draws d 0 := by
  intro s a s' hok
  rw [h s a s' hok]
  exact ⟨rfl, rfl, fun i hi => absurd hi (Nat.not_lt_zero i)⟩

theorem read (k : Nat) : Draws (read k : Deserializer τ _) 0 := by
  refine zero fun s a s' h => ?_
  simp only [ByteReader.read] at h
  split at h
  · cases h
    rfl
  · cases h

theorem readString : Draws (readString : Deserializer τ _) 0 := by
  refine zero fun s a s' h => ?_
  simp only [ByteReader.readString] at h
  split at h
  · cases h
    rfl
  · cases h

theorem assign (change : τ → τ) : Draws (assign change) 0 :=
  zero fun s a s' h => by cases h; rfl

theorem readArgs (k : Nat) : Draws (readArgs k) 0 := by
  induction k with
  | zero => exact zero fun s a s' h => by cases h; rfl
  | succ k ih =>
    exact (read 4).bind fun arg => ih.bind fun args => zero fun s a s' h => by cases h; rfl

theorem fail (code : ErrCode) : Draws (fail code : Deserializer τ α) n :=
  fun s a s' h => by cases h

theorem getBlock (kind : BlockKind) : Draws (getBlock kind : Deserializer τ Block) 1 := by
  intro s a s' h
  simp only [ResourceTuner.getBlock, Pool.getBlock] at h
  by_cases hanswer : s.store.pool.answer = true
  · rw [if_pos hanswer] at h
    cases h
    refine ⟨rfl, rfl, fun i hi => ?_⟩
    obtain rfl : i = 0 := by omega
    exact hanswer
  · rw [if_neg hanswer] at h
    cases h

theorem allocateOrThrow : Draws (allocateOrThrow : Deserializer τ Unit) 1 := by
  intro s a s' h
  obtain ⟨granted, s₁, h₁, h₂⟩ := bind_eq_ok h
  cases h₁
  split at h₂
  · rename_i hanswer
    cases h₂
    refine ⟨rfl, rfl, fun i hi => ?_⟩
    obtain rfl : i = 0 := by omega
    exact hanswer
  · cases h₂

end Draws

/-- Two strings, the vector and its elements. -/
theorem draws_signal : Draws Signal.deserialize 4 := by
  rw [show (4 : Nat) = 0 + (0 + (0 + (0 + (0 + (0 + (0 + (0 + (0 + (0 + (0 + (0 + (1 + (0 + (0 + (1 +
    (0 + (0 + (0 + (0 + (0 + (0 + (0 + (0 + (0 + (1 + (0 + 1)))))))))))))))))))))))))) from rfl]
  refine (Draws.read 1).bind fun _ => (Draws.read 1).bind fun _ => (Draws.assign _).bind fun _ => ?_
  refine (Draws.read 4).bind fun _ => (Draws.assign _).bind fun _ => ?_
  refine (Draws.read 4).bind fun _ => (Draws.assign _).bind fun _ => ?_
  refine (Draws.read 8).bind fun _ => (Draws.assign _).bind fun _ => ?_
  refine (Draws.read 8).bind fun _ => (Draws.assign _).bind fun _ => ?_
  refine Draws.readString.bind fun _ => Draws.allocateOrThrow.bind fun _ => ?_
  refine (Draws.assign _).bind fun _ => Draws.readString.bind fun _ => ?_
  refine Draws.allocateOrThrow.bind fun _ => (Draws.assign _).bind fun _ => ?_
  refine (Draws.read 4).bind fun numArgs => (Draws.assign _).bind fun _ => ?_
  refine (Draws.read 4).bind fun _ => (Draws.assign _).bind fun _ => ?_
  refine (Draws.read 4).bind fun _ => (Draws.assign _).bind fun _ => ?_
  refine (Draws.read 4).bind fun _ => (Draws.assign _).bind fun _ => ?_
  refine (Draws.getBlock _).bind fun _ => (Draws.assign _).bind fun _ => ?_
  split
  · exact .fail _
  · exact Draws.allocateOrThrow.bind fun _ => (Draws.readArgs _).bind fun _ => Draws.assign _

/-! ## The round trip -/

/-- A message that fits the buffer is there, and something behind it. -/
theorem receivedBytes_of_fits {written : List Byte} (hfits : written.length ≤ REQ_BUFFER_SIZE)
    (array : List Byte) : ∃ tail, receivedBytes written array = written ++ tail := by
  refine ⟨(array.drop written.length).take (REQ_BUFFER_SIZE - written.length), ?_⟩
  rw [receivedBytes, List.take_append, List.take_of_length_le hfits]

/-- Of a longer one the rest is missing. -/
theorem receivedBytes_of_long {written array : List Byte} (hlong : REQ_BUFFER_SIZE < written.length) :
    receivedBytes written array ++ written.drop REQ_BUFFER_SIZE = written := by
  rw [receivedBytes, List.take_append_of_le_length hlong.le, List.take_append_drop]

/-- **A signal comes back** exactly if its bytes fit the buffer and the four allocations of its
decoder are granted. -/
theorem roundTrips_iff {type : RequestType} {client : ClientProcess} {call : SignalCall}
    (hargs : 0 ≤ call.numArgs.toInt) (grants : Nat → Bool) :
    RoundTrips type client call grants ↔
      44 + call.appName.bytes.length + call.scenario.bytes.length +
          4 * call.numArgs.toInt.toNat ≤ REQ_BUFFER_SIZE ∧ ∀ n < 4, grants n = true := by
  rw [← call.length_bytes client type]
  constructor
  · rintro ⟨-, h⟩
    obtain ⟨s, hok, -⟩ := h (List.replicate CLIENT_BUFFER_SIZE 0) [] List.length_replicate
    rw [List.append_nil] at hok
    have hgrants : ∀ n < 4, grants n = true := by
      intro n hn
      simpa [Pool.fresh] using (draws_signal _ _ _ hok).2.2 n hn
    refine ⟨?_, hgrants⟩
    -- with the rest of the message behind it, the buffer would be the message, which is read to its
    -- end; but a reader that does not look behind the buffer leaves that rest
    by_contra hlong
    have hwhole := sequential_signal.ok _ ((call.bytes client type).drop REQ_BUFFER_SIZE) _ _ _ hok
    rw [receivedBytes_of_long (not_le.mp hlong)] at hwhole
    obtain ⟨w, hread, -⟩ := deserialize_signalBytes client call type hargs hgrants []
    rw [List.append_nil, hwhole] at hread
    have hrest := congrArg Input.rest (EStateM.Result.ok.inj hread).2
    simp only [List.append_eq_nil_iff, List.drop_eq_nil_iff] at hrest
    omega
  · rintro ⟨hfits, hgrants⟩
    have hsize : REQ_BUFFER_SIZE ≤ CLIENT_BUFFER_SIZE := by decide
    refine ⟨hfits.trans hsize, fun array beyond _ => ?_⟩
    obtain ⟨tail, htail⟩ := receivedBytes_of_fits hfits array
    obtain ⟨w, hread, hback⟩ :=
      deserialize_signalBytes client call type hargs hgrants (tail ++ beyond)
    rw [htail, List.append_assoc, hread]
    exact ⟨_, rfl, hback⟩

/-- A call with a negative number of arguments is not sent. -/
theorem numArgs_nonneg_of_sendSignal {type : RequestType} {client : ClientProcess}
    {call : SignalCall} {written : List Byte} (h : sendSignal type client call = some written) :
    0 ≤ call.numArgs.toInt := by
  unfold sendSignal at h
  split at h
  · cases h
  split at h
  · cases h
  · omega

/-- **A signal survives the wire** exactly when it fits the server's buffer and the server's four
allocations succeed. -/
theorem signal_roundTrip_iff (client : ClientProcess) (call : SignalCall) (written : List Byte)
    (grants : Nat → Bool) :
    (tuneSignal client call = some written →
      (RoundTrips .REQ_SIGNAL_TUNING client call grants ↔
        44 + call.appName.bytes.length + call.scenario.bytes.length +
          4 * call.numArgs.toInt.toNat ≤ REQ_BUFFER_SIZE ∧ ∀ n < 4, grants n = true)) ∧
    (relaySignal client call = some written →
      (RoundTrips .REQ_SIGNAL_RELAY client call grants ↔
        44 + call.appName.bytes.length + call.scenario.bytes.length +
          4 * call.numArgs.toInt.toNat ≤ REQ_BUFFER_SIZE ∧ ∀ n < 4, grants n = true)) :=
  ⟨fun h => roundTrips_iff (numArgs_nonneg_of_sendSignal h) grants,
    fun h => roundTrips_iff (numArgs_nonneg_of_sendSignal h) grants⟩

/-- A signal with a name and two arguments. -/
theorem signal_roundTrip_sample :
    RoundTrips .REQ_SIGNAL_TUNING ⟨10, 11⟩
        ⟨1, 0, 5000, 0, ⟨[97], by decide⟩, ⟨[], by decide⟩, 2, fun j => j⟩ fun _ => true := by
  obtain ⟨written, hwritten⟩ := Option.isSome_iff_exists.mp (show (tuneSignal ⟨10, 11⟩
    ⟨1, 0, 5000, 0, ⟨[97], by decide⟩, ⟨[], by decide⟩, 2, fun j => j⟩).isSome by decide)
  exact ((signal_roundTrip_iff _ _ _ _).1 hwritten).mpr ⟨by decide, fun _ _ => rfl⟩

/-- A signal with one hundred and forty arguments: the server reads past its buffer. -/
theorem signal_not_roundTrip :
    (tuneSignal ⟨10, 11⟩ ⟨1, 0, 5000, 0, ⟨[], by decide⟩, ⟨[], by decide⟩, 140, fun _ => 1⟩).isSome ∧
      ¬ RoundTrips .REQ_SIGNAL_TUNING ⟨10, 11⟩
        ⟨1, 0, 5000, 0, ⟨[], by decide⟩, ⟨[], by decide⟩, 140, fun _ => 1⟩ fun _ => true := by
  refine ⟨by decide, ?_⟩
  rw [roundTrips_iff (by decide)]
  decide

end ResourceTuner
