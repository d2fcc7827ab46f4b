import ResourceTuner.Wire.SignalClient

/-!
# `Signal::serialize`

The encoder of `modula/Common/Signal.cpp`.  It writes the request type, the code, the handle and the
duration, while the decoder of the same class reads a module byte before the request type and the
signal type after the code: five bytes that are never written.  Everything is then read five bytes
too late, and the decoder only finds the fields again where the bytes repeat themselves every five.

* `SignalObject`, `serialize` — the encoder;
* `Undone` — the decoder gets the same fields back;
* `Repeats` — the bytes repeat themselves.
-/

namespace ResourceTuner

open ByteReader

/-- `class Signal` with the types of its members. -/
structure SignalObject where
  mReqType : Byte
  mSignalCode : BitVec 32
  mSignalType : BitVec 32
  mHandle : BitVec 64
  mDuration : BitVec 64
  mAppName : CString
  mScenario : CString
  mNumArgs : BitVec 32
  mProperties : BitVec 32
  mClientPID : BitVec 32
  mClientTID : BitVec 32
  mListArgs : List (BitVec 32)
  /-- `setNumArgs` is given the length of the list. -/
  count : mNumArgs.toInt = mListArgs.length

namespace SignalObject

variable {s : SignalObject} {buf rest tail : List Byte} {grants : Nat → Bool}

/-- From the handle on. -/
def afterCode (s : SignalObject) : List Byte :=
  encode 8 s.mHandle ++ (encode 8 s.mDuration ++ (s.mAppName.bytes ++ 0 ::
    (s.mScenario.bytes ++ 0 :: (encode 4 s.mNumArgs ++ (encode 4 s.mProperties ++
      (encode 4 s.mClientPID ++ (encode 4 s.mClientTID ++ s.mListArgs.flatMap (encode 4))))))))

/-- The bytes that are written. -/
def written (s : SignalObject) : List Byte :=
  encode 1 s.mReqType ++ (encode 4 s.mSignalCode ++ s.afterCode)

/-- `Signal::serialize`: what the buffer holds afterwards. -/
def serialize (s : SignalObject) (buf : List Byte) : List Byte :=
  s.written ++ buf.drop s.written.length

/-- The signal of a decoder that has all the same fields. -/
def raw (s : SignalObject) (list : Block) : RawSignal where
  mReqType := s.mReqType
  mSignalCode := s.mSignalCode
  mSignalType := s.mSignalType
  mHandle := s.mHandle.toInt
  mDuration := s.mDuration.toInt
  mAppName := s.mAppName.bytes
  mScenario := s.mScenario.bytes
  mNumArgs := s.mNumArgs.toInt
  mProperties := s.mProperties
  mClientPID := s.mClientPID.toInt
  mClientTID := s.mClientTID.toInt
  mListArgs := some (list, s.mListArgs)

/-- `deserialize` on the buffer that `serialize` wrote succeeds with all the same fields. -/
def Undone (s : SignalObject) (buf : List Byte) (grants : Nat → Bool) : Prop :=
  ∃ out list, Signal.deserialize ⟨s.serialize buf, ⟨.new, .fresh grants⟩⟩ = .ok () out ∧
    out.store.object = s.raw list

/-- The request type and the bytes of the signal type. -/
def cycle (s : SignalObject) : List Byte := s.mReqType :: encode 4 s.mSignalType

/-- Every byte of the code is the request type, and what follows the code, into `rest`, runs through
the cycle over and over. -/
structure Repeats (s : SignalObject) (rest : List Byte) : Prop where
  code : encode 4 s.mSignalCode = List.replicate 4 s.mReqType
  rest : s.cycle ++ s.afterCode <+: s.afterCode ++ rest

/-- The message that the decoder would have to find. -/
def message (s : SignalObject) (moduleID : Byte) : SignalMessage where
  moduleID := moduleID
  type := s.mReqType
  signalCode := s.mSignalCode
  signalType := s.mSignalType
  handle := s.mHandle
  duration := s.mDuration
  appName := s.mAppName.bytes
  scenario := s.mScenario.bytes
  numArgs := s.mNumArgs
  properties := s.mProperties
  pid := s.mClientPID
  tid := s.mClientTID
  args := s.mListArgs

theorem wellFormed_message (s : SignalObject) (moduleID : Byte) :
    (s.message moduleID).WellFormed :=
  ⟨s.mAppName.noZero, s.mScenario.noZero, s.count⟩

/-- A message is known by the signal that is read from it, but for its first byte. -/
theorem eq_message {m : SignalMessage} {list list' : Block} (h : m.object list = s.raw list') :
    m = s.message m.moduleID := by
  simp only [SignalMessage.object, raw, RawSignal.mk.injEq, BitVec.toInt_inj, Option.some.injEq,
    Prod.mk.injEq] at h
  obtain ⟨h₁, h₂, h₃, h₄, h₅, h₆, h₇, h₈, h₉, h₁₀, h₁₁, -, h₁₂⟩ := h
  cases m
  simp only [message, SignalMessage.mk.injEq]
  exact ⟨trivial, h₁, h₂, h₃, h₄, h₅, h₆, h₇, h₈, h₉, h₁₀, h₁₁, h₁₂⟩

/-- A word in front of its own copy, one byte later, is one byte four times. -/
theorem append_eq_cons_append_iff {word x y : List Byte} {b : Byte} (h : word.length = 4) :
    word ++ x = b :: (word ++ y) ↔ word = List.replicate 4 b ∧ x = b :: y := by
  match word, h with
  | [b₀, b₁, b₂, b₃], _ =>
    simp only [List.cons_append, List.nil_append, List.cons.injEq, List.replicate_succ,
      List.replicate_zero]
    constructor
    · rintro ⟨rfl, rfl, rfl, rfl, h⟩
      exact ⟨⟨rfl, rfl, rfl, rfl, trivial⟩, h⟩
    · rintro ⟨⟨rfl, rfl, rfl, rfl, -⟩, h⟩
      exact ⟨rfl, rfl, rfl, rfl, h⟩

/-- What is written is the message up to `tail` exactly when it repeats itself that far. -/
theorem written_eq_iff {moduleID : Byte} :
    s.written ++ rest = (s.message moduleID).bytes ++ tail ↔
      s.mReqType = moduleID ∧ encode 4 s.mSignalCode = List.replicate 4 s.mReqType ∧
        s.afterCode ++ rest = s.cycle ++ s.afterCode ++ tail := by
  have hbytes : (s.message moduleID).bytes ++ tail = moduleID :: s.mReqType ::
      (encode 4 s.mSignalCode ++ (encode 4 s.mSignalType ++ (s.afterCode ++ tail))) := by
    rw [SignalMessage.bytes, encode_one, encode_one]
    simp only [List.append_assoc, List.cons_append, List.nil_append]
    rfl
  have hwritten : s.written ++ rest =
      s.mReqType :: (encode 4 s.mSignalCode ++ (s.afterCode ++ rest)) := by
    rw [written, encode_one]
    simp only [List.append_assoc, List.cons_append, List.nil_append]
  have hcycle : s.cycle ++ s.afterCode ++ tail =
      s.mReqType :: (encode 4 s.mSignalType ++ (s.afterCode ++ tail)) := by
    simp only [cycle, List.append_assoc, List.cons_append]
  rw [hbytes, hwritten, hcycle, List.cons.injEq,
    append_eq_cons_append_iff (length_encode 4 s.mSignalCode)]

theorem repeats_of_undone (h : s.Undone buf grants) :
    s.Repeats (buf.drop s.written.length) := by
  obtain ⟨out, list, hread, hobject⟩ := h
  obtain ⟨m, -, hbytes, list', hm⟩ := bytes_of_deserialize hread
  rw [eq_message (hm.symm.trans hobject)] at hbytes
  obtain ⟨-, hcode, hrest⟩ := written_eq_iff.mp hbytes
  exact ⟨hcode, out.rest, hrest.symm⟩

theorem undone_of_repeats (h : s.Repeats (buf.drop s.written.length))
    (hgrants : ∀ n < 4, grants n = true) : s.Undone buf grants := by
  obtain ⟨tail, htail⟩ := h.rest
  have hbytes : s.serialize buf = (s.message s.mReqType).bytes ++ tail :=
    written_eq_iff.mpr ⟨rfl, h.code, htail.symm⟩
  obtain ⟨pool, hread⟩ := deserialize_bytes (s.wellFormed_message s.mReqType) hgrants tail
  rw [← hbytes] at hread
  exact ⟨_, _, hread, rfl⟩

theorem granted_of_undone (h : s.Undone buf grants) : ∀ n < 4, grants n = true := by
  obtain ⟨out, list, hread, -⟩ := h
  intro n hn
  simpa [Pool.fresh] using (draws_signal _ _ _ hread).2.2 n hn

/-- **The decoder undoes the encoder** exactly when the encoding repeats itself every five bytes, into
what the buffer held behind it, and the four allocations of the decoder succeed. -/
theorem undone_iff_repeats (s : SignalObject) (buf : List Byte) (grants : Nat → Bool) :
    s.Undone buf grants ↔
      s.Repeats (buf.drop s.written.length) ∧ ∀ n < 4, grants n = true :=
  ⟨fun h => ⟨repeats_of_undone h, granted_of_undone h⟩, fun h => undone_of_repeats h.1 h.2⟩

namespace Sample

/-- A signal of zeros. -/
def zero : SignalObject :=
  ⟨0, 0, 0, 0, 0, ⟨[], List.not_mem_nil⟩, ⟨[], List.not_mem_nil⟩, 0, 0, 0, 0, [], rfl⟩

/-- Signal 1 for an application `a`, as a client sends it. -/
def tune : SignalObject :=
  ⟨RequestType.REQ_SIGNAL_TUNING.toByte, 1, 0, 0, 5000, ⟨[97], by decide⟩,
    ⟨[], List.not_mem_nil⟩, 0, 0, 10, 11, [], rfl⟩

end Sample

/-- In a buffer of zeros it is read back. -/
theorem undone_iff_repeats_zero :
    Sample.zero.Undone (List.replicate 44 0) fun _ => true :=
  (undone_iff_repeats Sample.zero _ _).mpr
    ⟨⟨by decide, by decide⟩, fun _ _ => rfl⟩

/-- A signal of a client is not. -/
theorem tune_not_undone :
    Sample.tune.written.length ≤ (List.replicate REQ_BUFFER_SIZE (0 : Byte)).length ∧
      ¬ Sample.tune.Undone (List.replicate REQ_BUFFER_SIZE 0) fun _ => true :=
  ⟨by rw [List.length_replicate]; decide,
    fun h => absurd (repeats_of_undone h).code (by decide)⟩

end SignalObject

end ResourceTuner
