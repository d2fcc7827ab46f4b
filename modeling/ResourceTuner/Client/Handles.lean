import ResourceTuner.Server.Priorities
import ResourceTuner.Server.Receiver
import ResourceTuner.Server.SignalUntune
import ResourceTuner.Wire.SignalClient

/-!
# Handles in the hands of a client

The other half of `UrmAPIs.cpp`: `readHandleHelper`, `retuneResources`, `untuneResources` and
`untuneSignal`.  A handle leaves the server as the eight bytes that `forwardMessage` writes, is put
together again from a buffer that may hold fewer, and comes back in a resource message or in a signal.

* **`reply`**, **`readHandleHelper`** — the way to the client;
* **`retuneResources`**, **`untuneResources`**, **`untuneSignal`** — the ways back;
* **`ReadAsRequest`**, **`ReadAsSignal`** — what the server makes of the bytes;
* **`handle_of_run`** — a handle that was handed out comes back as itself.
-/

namespace ResourceTuner

open ByteReader FlatBuffEncoder

/-! ## The client -/

/-- `write(clientSocket, &info->mHandle, sizeof(int64_t))`. -/
def reply (mHandle : Int) : List Byte := encode 8 (BitVec.ofInt _ mHandle)

/-- `readHandleHelper`, and the same lines of `tuneSignal`.  `received` is what `read` puts into the
zeroed buffer of 64 bytes, `none` where it fails; at the end of the stream it is nothing. -/
def readHandleHelper (received : Option (List Byte)) : BitVec 64 :=
  match received with
  | none => -1
  | some bytes => decode 8 ((bytes.take 64 ++ List.replicate (64 - bytes.length) 0).take 8)

/-- The eight words that a request without resources consists of. -/
def appendHeader (client : ClientProcess) (type : RequestType) (handle duration : BitVec 64)
    (batch : FlatBuffEncoder) : FlatBuffEncoder :=
  let batch := (((batch.append 1 MOD_RESTUNE).append 1 type.toByte).append 8 handle).append 8 duration
  (((batch.append 4 0).append 4 0).append 4 client.pid).append 4 client.tid

/-- They are written into a zeroed buffer, which is sent as a whole. -/
def sendHeader (client : ClientProcess) (type : RequestType) (handle duration : BitVec 64) :
    Option (List Byte) :=
  let batch := appendHeader client type handle duration (setBuf (List.replicate REQ_BUFFER_SIZE 0))
  if batch.isBufSane then some batch.mBuffer else none

/-- `retuneResources`: the buffer that is sent, if one is. -/
def retuneResources (client : ClientProcess) (handle duration : BitVec 64) : Option (List Byte) :=
  if handle.toInt ≤ 0 ∨ duration.toInt = 0 ∨ duration.toInt < -1 then none
  else sendHeader client .REQ_RESOURCE_RETUNING handle duration

def untuneResources (client : ClientProcess) (handle : BitVec 64) : Option (List Byte) :=
  if handle.toInt ≤ 0 then none
  else sendHeader client .REQ_RESOURCE_UNTUNING handle (-1)

/-- `untuneSignal`: what is written, from the start of the array on.  The two strings are empty, and
there are no arguments behind their count. -/
def untuneSignal (client : ClientProcess) (handle : BitVec 64) : Option (List Byte) :=
  if handle.toInt ≤ 0 then none
  else some (encode 1 MOD_RESTUNE ++ (encode 1 RequestType.REQ_SIGNAL_UNTUNING.toByte ++
    (encode 4 0 ++ (encode 4 0 ++ (encode 8 handle ++ (encode 8 (-1) ++ (0 :: 0 ::
      (encode 4 0 ++ (encode 4 0 ++ (encode 4 client.pid ++ encode 4 client.tid))))))))))

/-! ## What the server makes of the bytes -/

/-- The request a client asks for with a handle and no resources. -/
def requestOf (client : ClientProcess) (type : RequestType) (handle duration : BitVec 64) : Request where
  mReqType := type
  mHandle := handle.toInt
  mDuration := duration.toInt
  mProperties := 0
  mClientPID := client.pid.toInt
  mClientTID := client.tid.toInt
  mTimer := none
  mResourceList := none

/-- The resource path makes this request of the buffer, whatever lies behind it and whatever the pools
have left. -/
def ReadAsRequest (buf : List Byte) (request : Request) : Prop :=
  ∀ (beyond : List Byte) (pool : Pool), ∃ rest raw,
    Request.deserialize ⟨buf ++ beyond, ⟨.new, pool⟩⟩ = .ok () ⟨rest, ⟨raw, pool⟩⟩ ∧
      raw.mReqType = request.mReqType.toByte ∧ ∀ req, raw.toRequest request.mReqType req = request

/-- The signal path makes this request of the array, whatever was in it before and lies behind the
server's buffer, if the four allocations succeed. -/
def ReadAsSignal (written : List Byte) (request : Request) : Prop :=
  ∀ (array beyond : List Byte) (grants : Nat → Bool), (∀ n < 4, grants n = true) → ∃ rest raw pool,
    Signal.deserialize ⟨receivedBytes written array ++ beyond, ⟨.new, .fresh grants⟩⟩ =
        .ok () ⟨rest, ⟨raw, pool⟩⟩ ∧
      raw.mReqType = RequestType.REQ_SIGNAL_UNTUNING.toByte ∧
      Server.untuneRequest (raw.toSignal .REQ_SIGNAL_UNTUNING raw.mHandle).toMessage = request

/-! ## The header -/

/-- A word for which there is room. -/
theorem FlatBuffEncoder.Holds.append {e : FlatBuffEncoder} {held : List Byte} (h : e.Holds held)
    (n : Nat) (value : BitVec (8 * n)) (hroom : held.length + n < REQ_BUFFER_SIZE) :
    (e.append n value).Holds (held ++ encode n value) := by
  have hsane : (e.append n value).isBufSane = true := by
    have hindex := h.index
    rw [FlatBuffEncoder.append, if_neg (by omega), if_pos (by omega), isBufSane, decide_eq_true_eq]
    show e.mRunningIndex + n < REQ_BUFFER_SIZE
    omega
  exact (extends_append e n value hsane).2 held h

/-- The header is far from the end of the buffer. -/
theorem holds_appendHeader (client : ClientProcess) (type : RequestType)
    (handle duration : BitVec 64) :
    (appendHeader client type handle duration (setBuf (List.replicate REQ_BUFFER_SIZE 0))).Holds
      (headerBytes client type handle duration 0 0) := by
  have h₁ := holds_setBuf.append 1 MOD_RESTUNE (by decide)
  have h₂ := h₁.append 1 type.toByte (by simp [REQ_BUFFER_SIZE])
  have h₃ := h₂.append 8 handle (by simp [REQ_BUFFER_SIZE])
  have h₄ := h₃.append 8 duration (by simp [REQ_BUFFER_SIZE])
  have h₅ := h₄.append 4 0 (by simp [REQ_BUFFER_SIZE])
  have h₆ := h₅.append 4 0 (by simp [REQ_BUFFER_SIZE])
  have h₇ := h₆.append 4 client.pid (by simp [REQ_BUFFER_SIZE])
  have h₈ := h₇.append 4 client.tid (by simp [REQ_BUFFER_SIZE])
  simp only [List.nil_append, List.append_assoc] at h₈
  exact h₈

/-- What is sent is the header and zeros. -/
theorem sendHeader_eq (client : ClientProcess) (type : RequestType) (handle duration : BitVec 64) :
    ∃ zeros, sendHeader client type handle duration =
      some (headerBytes client type handle duration 0 0 ++ zeros) := by
  have hholds := holds_appendHeader client type handle duration
  have hsane : (appendHeader client type handle duration
      (setBuf (List.replicate REQ_BUFFER_SIZE 0))).isBufSane = true := by
    have hindex := hholds.index
    have hroom := hholds.room
    rw [isBufSane, decide_eq_true_eq]
    omega
  refine ⟨List.replicate (REQ_BUFFER_SIZE - (headerBytes client type handle duration 0 0).length) 0,
    ?_⟩
  rw [sendHeader, if_pos hsane, hholds.buffer]

/-- A request that is no tune request is read as its header. -/
theorem readAsRequest_header {client : ClientProcess} {type : RequestType}
    (htype : type.toByte ≠ RequestType.REQ_RESOURCE_TUNING.toByte) (handle duration : BitVec 64)
    (zeros : List Byte) :
    ReadAsRequest (headerBytes client type handle duration 0 0 ++ zeros)
      (requestOf client type handle duration) := by
  intro beyond pool
  refine ⟨zeros ++ beyond, ⟨type.toByte, handle.toInt, duration.toInt, 0, client.pid.toInt,
    client.tid.toInt, none⟩, ?_, rfl, fun req => rfl⟩
  simp only [headerBytes, List.append_assoc]
  rw [Request.deserialize, bind_ok (read_encode 1 MOD_RESTUNE _ _),
    bind_ok (read_encode 1 type.toByte _ _), assign_bind, bind_ok (read_encode 8 handle _ _),
    assign_bind, bind_ok (read_encode 8 duration _ _), assign_bind, bind_ok (read_encode 4 0 _ _),
    bind_ok (read_encode 4 0 _ _), assign_bind, bind_ok (read_encode 4 client.pid _ _), assign_bind,
    bind_ok (read_encode 4 client.tid _ _), assign_bind, if_neg htype]
  rfl

theorem readAsRequest_of_sendHeader {client : ClientProcess} {type : RequestType}
    (htype : type.toByte ≠ RequestType.REQ_RESOURCE_TUNING.toByte) {handle duration : BitVec 64} :
    ∃ buf, sendHeader client type handle duration = some buf ∧
      ReadAsRequest buf (requestOf client type handle duration) := by
  obtain ⟨zeros, hsent⟩ := sendHeader_eq client type handle duration
  exact ⟨_, hsent, readAsRequest_header htype handle duration zeros⟩

/-! ## The signal -/

/-- The fields of the signal that untunes. -/
def untuneMessage (client : ClientProcess) (handle : BitVec 64) : SignalMessage where
  moduleID := MOD_RESTUNE
  type := RequestType.REQ_SIGNAL_UNTUNING.toByte
  signalCode := 0
  signalType := 0
  handle := handle
  duration := -1
  appName := []
  scenario := []
  numArgs := 0
  properties := 0
  pid := client.pid
  tid := client.tid
  args := []

theorem untuneSignal_eq {client : ClientProcess} {handle : BitVec 64} (hpos : 0 < handle.toInt) :
    untuneSignal client handle = some (untuneMessage client handle).bytes := by
  rw [untuneSignal, if_neg (not_le.mpr hpos), SignalMessage.bytes, SignalMessage.body]
  simp only [untuneMessage, List.nil_append, List.flatMap_nil, List.append_nil]

theorem readAsSignal_of_untuneSignal {client : ClientProcess} {handle : BitVec 64}
    (hpos : 0 < handle.toInt) :
    ∃ written, untuneSignal client handle = some written ∧
      ReadAsSignal written (requestOf client .REQ_RESOURCE_UNTUNING handle (-1)) := by
  refine ⟨_, untuneSignal_eq hpos, fun array beyond grants hgrants => ?_⟩
  have hlength : (untuneMessage client handle).bytes.length ≤ REQ_BUFFER_SIZE := by
    simp [SignalMessage.bytes, SignalMessage.body, untuneMessage, REQ_BUFFER_SIZE]
  have hwell : (untuneMessage client handle).WellFormed :=
    ⟨List.not_mem_nil, List.not_mem_nil, rfl⟩
  obtain ⟨tail, htail⟩ := receivedBytes_of_fits hlength array
  obtain ⟨pool, hread⟩ := deserialize_bytes hwell hgrants (tail ++ beyond)
  refine ⟨tail ++ beyond, (untuneMessage client handle).object ⟨.ArgVector, 2⟩, pool, ?_, rfl, rfl⟩
  rw [htail, List.append_assoc]
  exact hread

/-! ## The handle -/

/-- A handle is put together from the bytes it was taken apart into. -/
theorem readHandleHelper_reply {mHandle : Int} (hlow : -(2 : Int) ^ 63 ≤ mHandle)
    (hhigh : mHandle < (2 : Int) ^ 63) : (readHandleHelper (some (reply mHandle))).toInt = mHandle := by
  have hlength : (reply mHandle).length = 8 := length_encode 8 _
  have hall : (reply mHandle).take 64 = reply mHandle := List.take_of_length_le (by omega)
  have htake : ((reply mHandle).take 64 ++ List.replicate (64 - (reply mHandle).length) 0).take 8 =
      reply mHandle := by
    rw [hall, List.take_left' hlength]
  rw [readHandleHelper, htake, reply, decode_encode]
  exact BitVec.toInt_ofInt_eq_self (by decide) hlow hhigh

/-- Neither an error nor the end of the stream gives a handle that the client would send. -/
theorem not_sent_of_no_reply (client : ClientProcess) (duration : BitVec 64)
    {received : Option (List Byte)} (h : received = none ∨ received = some []) :
    untuneResources client (readHandleHelper received) = none ∧
      untuneSignal client (readHandleHelper received) = none ∧
      retuneResources client (readHandleHelper received) duration = none := by
  have hnonpos : (readHandleHelper received).toInt ≤ 0 := by
    rcases h with rfl | rfl <;> decide
  exact ⟨if_pos hnonpos, if_pos hnonpos, if_pos (Or.inl hnonpos)⟩

/-- What the three functions do with a positive handle. -/
structure ComesBack (client : ClientProcess) (handle : BitVec 64) : Prop where
  untuneResources : ∃ buf, untuneResources client handle = some buf ∧
    ReadAsRequest buf (requestOf client .REQ_RESOURCE_UNTUNING handle (-1))
  untuneSignal : ∃ written, untuneSignal client handle = some written ∧
    ReadAsSignal written (requestOf client .REQ_RESOURCE_UNTUNING handle (-1))
  retuneResources : ∀ duration : BitVec 64,
    if duration.toInt = 0 ∨ duration.toInt < -1 then retuneResources client handle duration = none
    else ∃ buf, retuneResources client handle duration = some buf ∧
      ReadAsRequest buf (requestOf client .REQ_RESOURCE_RETUNING handle duration)

theorem comesBack {handle : BitVec 64} (hpos : 0 < handle.toInt) (client : ClientProcess) :
    ComesBack client handle := by
  refine ⟨?_, readAsSignal_of_untuneSignal hpos, fun duration => ?_⟩
  · rw [untuneResources, if_neg (not_le.mpr hpos)]
    exact readAsRequest_of_sendHeader (by decide)
  · split
    · rename_i hrefused
      exact if_pos (Or.inr hrefused)
    · rename_i haccepted
      rw [retuneResources, if_neg (fun hrefused => hrefused.elim (not_le.mpr hpos) haccepted)]
      exact readAsRequest_of_sendHeader (by decide)

namespace Receiver

variable {env : Env} {s : Receiver}

/-- A handle that was written back is positive and fits the eight bytes. -/
theorem Fresh.reply_range (h : Fresh s) {answer : Nat × Int} (hanswer : answer ∈ s.replies) :
    0 < answer.2 ∧ answer.2 < (2 : Int) ^ 63 := by
  have hrange := h.range _ (h.replies answer hanswer)
  have hlimit : SignedInt.limit 64 = 2 ^ 63 := rfl
  have hgenerator := s.handleGenerator.lt_limit
  rw [hlimit] at hgenerator
  exact ⟨hrange.1, lt_of_le_of_lt hrange.2 (by exact_mod_cast hgenerator)⟩

/-- **A handle comes back.**  However the threads of the server take turns: what the client puts
together from a reply is the handle that was written, each of its ways to give it back is taken, the
resource path and the signal path of the server read the same untune request, and the tune request of
the server that it names is the one of this client's message. -/
theorem handle_of_run {env : Env} {heap : Heap} {events : List Event}
    (hrun : (machine env).Run (init heap) events) {clientSocket : Nat} {mHandle : Int}
    (hreply : (clientSocket, mHandle) ∈ ((machine env).exec (init heap) events).replies)
    (client : ClientProcess) :
    let s := (machine env).exec (init heap) events
    let handle := readHandleHelper (some (reply mHandle))
    handle.toInt = mHandle ∧ ComesBack client handle ∧
      ∀ req, s.server.IsTune req →
        (s.server.heap req).mHandle =
            (requestOf client .REQ_RESOURCE_UNTUNING handle (-1)).mHandle →
          s.origin req = .client clientSocket := by
  have hinit : Fresh (init heap) ∧ Server.Inv env (init heap).server :=
    ⟨fresh_init heap, Server.inv_init heap⟩
  obtain ⟨hfresh, -⟩ := (projects env).invariant hinit hrun
  obtain ⟨hpos, hhigh⟩ := hfresh.reply_range hreply
  have hlow : -(2 : Int) ^ 63 ≤ mHandle := le_trans (by decide) hpos.le
  have hhandle := readHandleHelper_reply hlow hhigh
  refine ⟨hhandle, comesBack (by rw [hhandle]; exact hpos) client, fun req htune heq => ?_⟩
  simp only [requestOf, hhandle] at heq
  have horigin := (hfresh.tune req htune fun hminus => by rw [hminus] at heq; omega).1
  rw [heq] at horigin
  exact hfresh.asker_unique horigin (hfresh.replies _ hreply)

theorem handle_of_sampleEvents :
    ComesBack ⟨10, 11⟩ (readHandleHelper (some (reply 2))) ∧
      (untuneResources ⟨10, 11⟩ (readHandleHelper (some (reply 2)))).isSome :=
  ⟨(handle_of_run sampleEvents_run (show (3, 2) ∈ _ by decide) ⟨10, 11⟩).2.1, by decide⟩

end Receiver

end ResourceTuner
