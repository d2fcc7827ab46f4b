import Mathlib.Data.List.Chain
import ResourceTuner.Lib.Overlay
import ResourceTuner.Wire.SignalClient

/-!
# Sequences of calls on one encoder

`FlatBuffEncoder` of `AuxRoutines.h` with its strings.  `append` returns the encoder it was called
on, `appendString` a copy of it: what is chained onto a string moves the copy's pointer and index,
while the encoder stays where the string ended.  The two have the same buffer.

* **`appendString`**, **`Call`**, **`Session`** — the calls, and the encoder with the copy that the
  last call returned;
* **`fitting`**, **`Promised`** — what the buffer should hold;
* **`Mode`** — what the text of the calls says of the places of the two;
* **`Tracks`** — the invariant of a session in which every call is allowed;
* **`writesInOrder_iff`** — the sessions that keep what is promised.
-/

namespace ResourceTuner

open ByteReader Overlay

namespace FlatBuffEncoder

/-! ## The calls -/

/-- The loop of `appendString` over the characters that are left. -/
def appendChars : List Byte → FlatBuffEncoder → FlatBuffEncoder
  | [], e => e
  | c :: chars, e =>
    if e.mRunningIndex ≠ -1 ∧ e.mRunningIndex + 1 < REQ_BUFFER_SIZE then
      appendChars chars
        { mBuffer := e.mBuffer.take e.mCurPtr ++ c :: e.mBuffer.drop (e.mCurPtr + 1)
          mCurPtr := e.mCurPtr + 1
          mRunningIndex := e.mRunningIndex + 1 }
    else { e with mRunningIndex := REQ_BUFFER_SIZE }

def appendString (e : FlatBuffEncoder) (valStr : CString) : FlatBuffEncoder :=
  if e.mRunningIndex = -1 then e
  else
    let e := appendChars valStr.bytes e
    if 0 ≤ e.mRunningIndex ∧ e.mRunningIndex < REQ_BUFFER_SIZE then e.append 1 0 else e

/-- The sizes of the types that are appended. -/
inductive Width
  | one
  | four
  | eight

def Width.size : Width → Nat
  | .one => 1
  | .four => 4
  | .eight => 8

inductive Call
  | append (w : Width) (val : BitVec (8 * w.size))
  | appendString (valStr : CString)

namespace Call

/-- What the call should write. -/
def bytes : Call → List Byte
  | .append w val => encode w.size val
  | .appendString valStr => valStr.bytes ++ [0]

def run : Call → FlatBuffEncoder → FlatBuffEncoder
  | .append w val, e => e.append w.size val
  | .appendString valStr, e => e.appendString valStr

/-- `append` returns a reference. -/
def returnsCopy : Call → Bool
  | .append .. => false
  | .appendString _ => true

/-- What is written at `p` by a call that does not fit there: the characters that do. -/
def begun (p : Nat) : Call → List Byte
  | .append .. => []
  | .appendString valStr => valStr.bytes.take (REQ_BUFFER_SIZE - 1 - p)

/-- Every call writes something, if only the zero byte of a string. -/
theorem bytes_ne_nil (call : Call) : call.bytes ≠ [] := by
  cases call with
  | append w val =>
    rw [bytes, ← List.length_pos_iff, length_encode]
    cases w <;> decide
  | appendString valStr => simp [bytes]

end Call

/-- A call in the text: on what the call before it returned, or in a statement of its own. -/
structure Step where
  chained : Bool
  call : Call

/-- The encoder, and the copy that the last call returned, if it returned one. -/
structure Session where
  encoder : FlatBuffEncoder
  returned : Option FlatBuffEncoder

def Session.start (buffer : List Byte) : Session := ⟨setBuf buffer, none⟩

/-- A call on a copy writes to the encoder's buffer, and returns that copy or a copy of it. -/
def Session.step (s : Session) (step : Step) : Session :=
  match if step.chained then s.returned else none with
  | none =>
    let e := step.call.run s.encoder
    ⟨e, if step.call.returnsCopy then some e else none⟩
  | some copy =>
    let e := step.call.run copy
    ⟨{ s.encoder with mBuffer := e.mBuffer }, some e⟩

def Session.run (s : Session) (steps : List Step) : Session := steps.foldl step s

/-- A call on the encoder itself changes it. -/
theorem Session.step_encoder {s : Session} {step : Step}
    (h : (if step.chained then s.returned else none) = none) :
    s.step step = ⟨step.call.run s.encoder,
      if step.call.returnsCopy then some (step.call.run s.encoder) else none⟩ := by
  rw [Session.step, h]

/-- A call that is chained onto a string is made on a copy, of which the encoder keeps the bytes and
not the index. -/
theorem Session.step_copy {s : Session} {step : Step} {copy : FlatBuffEncoder}
    (hchained : step.chained = true) (h : s.returned = some copy) :
    s.step step = ⟨{ s.encoder with mBuffer := (step.call.run copy).mBuffer },
      some (step.call.run copy)⟩ := by
  rw [Session.step, if_pos hchained, h]

/-- A copy is what the encoder was when it was made. -/
theorem eq_of_mem_returned {returns : Bool} {e copy : FlatBuffEncoder}
    (h : copy ∈ if returns then some e else none) : copy = e := by
  cases returns with
  | false => cases h
  | true => exact (Option.some.inj h).symm

/-! ## What one call does -/

/-- The encoder over a buffer that starts with `known`, at the index `p`. -/
def holding (buffer known : List Byte) (p : Nat) : FlatBuffEncoder :=
  ⟨known ++ buffer.drop known.length, p, p⟩

/-- Characters that fit are written where the index is. -/
theorem appendChars_of_fits (chars : List Byte) (memory : List Byte) (p : Nat)
    (hmemory : REQ_BUFFER_SIZE ≤ memory.length) (h : p + chars.length < REQ_BUFFER_SIZE) :
    appendChars chars ⟨memory, p, p⟩ =
      ⟨overlay memory p chars, p + chars.length, (p + chars.length : Nat)⟩ := by
  induction chars generalizing memory p with
  | nil => simp [appendChars]
  | cons c chars ih =>
    rw [List.length_cons] at h
    have hone : p + [c].length ≤ memory.length := by
      rw [List.length_singleton]
      omega
    have hcons : memory.take p ++ c :: memory.drop (p + 1) = overlay memory p [c] := by
      simp [overlay]
    have hrest := ih (overlay memory p [c]) (p + 1) (by rwa [length_overlay hone]) (by omega)
    have hwrite := overlay_overlay chars hone
    rw [List.length_singleton, List.singleton_append] at hwrite
    rw [hwrite] at hrest
    rw [appendChars, if_pos (by constructor <;> dsimp only <;> omega)]
    simp only [hcons, List.length_cons]
    rw [← Nat.cast_add_one, hrest, Nat.add_right_comm, Nat.add_assoc]

/-- A full buffer is not written to. -/
theorem appendChars_of_full {e : FlatBuffEncoder} (h : e.mRunningIndex = REQ_BUFFER_SIZE)
    (chars : List Byte) : appendChars chars e = e := by
  cases chars with
  | nil => rfl
  | cons c chars =>
    rw [appendChars, if_neg (by omega), ← h]

/-- They are written one after the other. -/
theorem appendChars_append (xs ys : List Byte) (e : FlatBuffEncoder) :
    appendChars (xs ++ ys) e = appendChars ys (appendChars xs e) := by
  induction xs generalizing e with
  | nil => rfl
  | cons c xs ih =>
    rw [List.cons_append, appendChars, appendChars]
    split
    · exact ih _
    · exact (appendChars_of_full (e := { e with mRunningIndex := REQ_BUFFER_SIZE }) rfl ys).symm

/-- The characters that fit are written, up to the last byte but one. -/
theorem appendChars_of_refused (chars memory : List Byte) (p : Nat)
    (hmemory : REQ_BUFFER_SIZE ≤ memory.length) (hp : p < REQ_BUFFER_SIZE)
    (h : REQ_BUFFER_SIZE ≤ p + chars.length) :
    appendChars chars ⟨memory, p, p⟩ =
      ⟨overlay memory p (chars.take (REQ_BUFFER_SIZE - 1 - p)), REQ_BUFFER_SIZE - 1,
        REQ_BUFFER_SIZE⟩ := by
  have hlength : (chars.take (REQ_BUFFER_SIZE - 1 - p)).length = REQ_BUFFER_SIZE - 1 - p :=
    List.length_take_of_le (by omega)
  obtain ⟨c, rest, hdrop⟩ := List.exists_cons_of_length_pos
    (l := chars.drop (REQ_BUFFER_SIZE - 1 - p)) (by rw [List.length_drop]; omega)
  have hlast : p + (REQ_BUFFER_SIZE - 1 - p) = REQ_BUFFER_SIZE - 1 := by omega
  calc appendChars chars ⟨memory, p, p⟩
      = appendChars (c :: rest)
          (appendChars (chars.take (REQ_BUFFER_SIZE - 1 - p)) ⟨memory, p, p⟩) := by
        rw [← hdrop, ← appendChars_append, List.take_append_drop]
    _ = _ := by
        rw [appendChars_of_fits _ _ _ hmemory (by omega), hlength, hlast, appendChars,
          if_neg (by dsimp only; omega)]

namespace Call

/-- A call that fits writes its bytes at the index. -/
theorem run_of_fits (call : Call) {memory : List Byte} {p : Nat}
    (hmemory : REQ_BUFFER_SIZE ≤ memory.length) (h : p + call.bytes.length < REQ_BUFFER_SIZE) :
    call.run ⟨memory, p, p⟩ = ⟨overlay memory p call.bytes, p + call.bytes.length,
      (p + call.bytes.length : Nat)⟩ := by
  cases call with
  | append w val =>
    rw [bytes, length_encode] at h ⊢
    rw [run, FlatBuffEncoder.append, if_neg (by dsimp only; omega), if_pos (by dsimp only; omega),
      overlay, length_encode, Nat.cast_add]
  | appendString valStr =>
    rw [bytes, List.length_append, List.length_singleton] at h ⊢
    have hchars : p + valStr.bytes.length ≤ memory.length := by omega
    rw [run, FlatBuffEncoder.appendString, if_neg (by dsimp only; omega),
      appendChars_of_fits _ _ _ hmemory (by omega)]
    dsimp only
    rw [if_pos (by omega), FlatBuffEncoder.append, if_neg (by dsimp only; omega),
      if_pos (by dsimp only; omega), ← overlay_overlay [0] hchars]
    simp [overlay, encode_one, add_assoc]

/-- A call that does not fit is the last one that the encoder writes of. -/
theorem run_of_refused (call : Call) {memory : List Byte} {p : Nat}
    (hmemory : REQ_BUFFER_SIZE ≤ memory.length) (hp : p < REQ_BUFFER_SIZE)
    (h : REQ_BUFFER_SIZE ≤ p + call.bytes.length) :
    ∃ ptr, call.run ⟨memory, p, p⟩ = ⟨overlay memory p (call.begun p), ptr, REQ_BUFFER_SIZE⟩ := by
  cases call with
  | append w val =>
    rw [bytes, length_encode] at h
    refine ⟨p, ?_⟩
    rw [run, FlatBuffEncoder.append, if_neg (by dsimp only; omega), if_neg (by dsimp only; omega),
      begun, overlay_nil]
  | appendString valStr =>
    rw [bytes, List.length_append, List.length_singleton] at h
    refine ⟨REQ_BUFFER_SIZE - 1, ?_⟩
    rw [run, FlatBuffEncoder.appendString, if_neg (by dsimp only; omega), begun]
    by_cases hchars : REQ_BUFFER_SIZE ≤ p + valStr.bytes.length
    · rw [appendChars_of_refused _ _ _ hmemory hp hchars]
      dsimp only
      rw [if_neg (by omega)]
    · -- only the terminator does not fit
      have hall : valStr.bytes.length = REQ_BUFFER_SIZE - 1 - p := by omega
      have hlast : p + (REQ_BUFFER_SIZE - 1 - p) = REQ_BUFFER_SIZE - 1 := by omega
      rw [appendChars_of_fits _ _ _ hmemory (by omega), ← hall, List.take_length]
      dsimp only
      rw [if_pos (by omega), FlatBuffEncoder.append, if_neg (by dsimp only; omega),
        if_neg (by dsimp only; omega), hall, hlast]

/-- A full encoder takes nothing. -/
theorem run_of_full (call : Call) {e : FlatBuffEncoder} (h : e.mRunningIndex = REQ_BUFFER_SIZE) :
    call.run e = e := by
  cases call with
  | append w val =>
    rw [run, FlatBuffEncoder.append, if_neg (by omega), if_neg (by omega), ← h]
  | appendString valStr =>
    rw [run, FlatBuffEncoder.appendString, if_neg (by omega), appendChars_of_full h]
    dsimp only
    rw [if_neg (by omega)]

/-- What a call has begun to write is below the end. -/
theorem length_begun_add_lt (call : Call) {p : Nat} (hp : p < REQ_BUFFER_SIZE) :
    p + (call.begun p).length < REQ_BUFFER_SIZE := by
  cases call with
  | append w val => simpa [begun] using hp
  | appendString valStr =>
    rw [begun, List.length_take]
    omega

end Call

/-! ## What is promised -/

/-- The calls before the first one that does not fit, from the index `p` on. -/
def fitting : Nat → List Call → List Call
  | _, [] => []
  | p, call :: calls =>
    if p + call.bytes.length < REQ_BUFFER_SIZE then call :: fitting (p + call.bytes.length) calls
    else []

def bytesOf (calls : List Call) : List Byte := calls.flatMap Call.bytes

/-- What should hold after these calls. -/
structure Promised (buffer : List Byte) (calls : List Call) (s : Session) : Prop where
  held : bytesOf (fitting 0 calls) <+: s.encoder.mBuffer
  beyond : s.encoder.mBuffer.drop REQ_BUFFER_SIZE = buffer.drop REQ_BUFFER_SIZE
  sane : s.encoder.isBufSane = true ↔ fitting 0 calls = calls

/-- What should hold of the whole session, at each of its points and in any buffer: what is
promised, and that nothing more is written once a call was refused. -/
def WritesInOrder (steps : List Step) : Prop :=
  ∀ buffer : List Byte, REQ_BUFFER_SIZE ≤ buffer.length → ∀ before after, steps = before ++ after →
    Promised buffer (before.map Step.call) ((Session.start buffer).run before) ∧
      (fitting 0 (before.map Step.call) ≠ before.map Step.call →
        ((Session.start buffer).run steps).encoder.mBuffer =
          ((Session.start buffer).run before).encoder.mBuffer)

/-- The calls that fit are the first ones. -/
theorem fitting_prefix (p : Nat) (calls : List Call) : fitting p calls <+: calls := by
  induction calls generalizing p with
  | nil => exact List.prefix_rfl
  | cons call calls ih =>
    rw [fitting]
    split
    · exact List.cons_prefix_cons.2 ⟨rfl, ih _⟩
    · exact List.nil_prefix

/-- If all have fitted so far, the next ones are tried at the place where these have ended. -/
theorem fitting_append {p : Nat} {calls : List Call} (h : fitting p calls = calls)
    (more : List Call) :
    fitting p (calls ++ more) = calls ++ fitting (p + (bytesOf calls).length) more := by
  induction calls generalizing p with
  | nil => rfl
  | cons call calls ih =>
    rw [fitting] at h
    split at h
    · rename_i hfits
      rw [List.cons_append, fitting, if_pos hfits, ih (List.cons.inj h).2, bytesOf, bytesOf,
        List.flatMap_cons, List.length_append, Nat.add_assoc, List.cons_append]
    · cases h

/-- After one that was refused none fits any more. -/
theorem fitting_append_of_refused {p : Nat} {calls : List Call} (h : fitting p calls ≠ calls)
    (more : List Call) : fitting p (calls ++ more) = fitting p calls := by
  induction calls generalizing p with
  | nil => exact absurd rfl h
  | cons call calls ih =>
    rw [List.cons_append, fitting, fitting]
    split
    · rename_i hfits
      rw [fitting, if_pos hfits] at h
      rw [ih fun heq => h (by rw [heq])]
    · rfl

/-- The bytes of calls are those of each, in order. -/
@[simp] theorem bytesOf_concat (calls : List Call) (call : Call) :
    bytesOf (calls ++ [call]) = bytesOf calls ++ call.bytes := by
  simp [bytesOf]

/-- One more fits below the end. -/
theorem fitting_concat_of_fits {calls : List Call} {call : Call} (h : fitting 0 calls = calls)
    (hfits : (bytesOf calls).length + call.bytes.length < REQ_BUFFER_SIZE) :
    fitting 0 (calls ++ [call]) = calls ++ [call] := by
  rw [fitting_append h, fitting, if_pos (by omega), fitting]

/-- One more is refused at the end. -/
theorem fitting_concat_of_refused {calls : List Call} {call : Call} (h : fitting 0 calls = calls)
    (hrefused : REQ_BUFFER_SIZE ≤ (bytesOf calls).length + call.bytes.length) :
    fitting 0 (calls ++ [call]) = calls := by
  rw [fitting_append h, fitting, if_neg (by omega), List.append_nil]

/-- What is not among the calls that fit was refused. -/
theorem fitting_concat_ne {calls : List Call} {call : Call}
    (h : fitting 0 (calls ++ [call]) <+: calls) : fitting 0 (calls ++ [call]) ≠ calls ++ [call] := by
  intro heq
  have hlength := h.length_le
  rw [heq, List.length_append, List.length_singleton] at hlength
  omega

/-! ## What the text of the calls says -/

/-- The places of the encoder and of the copy that the last call returned, as the calls so far
determine them: both behind what was written (`onCopy` when there is a copy), the copy ahead of the
encoder by some bytes, or no more writing. -/
inductive Mode
  | together (onCopy : Bool) (written : Nat)
  | ahead (own : Nat) (bytes : List Byte)
  | full

/-- Written over these bytes, a call that does not fit leaves them as they are. -/
def Call.Repeats (bytes : List Byte) : Call → Prop
  | .append .. => True
  | .appendString valStr => bytes <+: valStr.bytes

/-- Nothing ahead is always the same again. -/
theorem Call.repeats_nil (call : Call) : call.Repeats [] := by
  cases call with
  | append w val => trivial
  | appendString valStr => exact List.nil_prefix

namespace Mode

/-- On a copy only calls that fit.  Once the copy is ahead, the encoder itself is not called again,
unless with a call that does not fit even where the encoder is, and that does no harm. -/
def Allows : Mode → Step → Prop
  | .together onCopy written, ⟨chained, call⟩ =>
    chained = true ∧ onCopy = true → written + call.bytes.length < REQ_BUFFER_SIZE
  | .ahead own bytes, ⟨true, call⟩ => own + bytes.length + call.bytes.length < REQ_BUFFER_SIZE
  | .ahead own bytes, ⟨false, call⟩ =>
    REQ_BUFFER_SIZE ≤ own + call.bytes.length ∧ call.Repeats bytes
  | .full, _ => True

def next : Mode → Step → Mode
  | .together onCopy written, ⟨chained, call⟩ =>
    if chained = true ∧ onCopy = true then .ahead written call.bytes
    else if written + call.bytes.length < REQ_BUFFER_SIZE then
      .together call.returnsCopy (written + call.bytes.length)
    else .full
  | .ahead own bytes, ⟨true, call⟩ => .ahead own (bytes ++ call.bytes)
  | .ahead _ _, ⟨false, _⟩ => .full
  | .full, _ => .full

/-- Every call is allowed where it is made. -/
def AllowsAll : Mode → List Step → Prop
  | _, [] => True
  | mode, step :: steps => mode.Allows step ∧ (mode.next step).AllowsAll steps

end Mode

/-! ## The invariant -/

/-- Where the encoder, the copy and the buffer are after these calls. -/
inductive Tracks (buffer : List Byte) : Mode → List Call → Session → Prop
  | together {calls : List Call} {onCopy : Bool} {written : List Byte}
      (hfit : fitting 0 calls = calls) (hbytes : bytesOf calls = written)
      (hroom : written.length < REQ_BUFFER_SIZE) :
      Tracks buffer (.together onCopy written.length) calls
        ⟨holding buffer written written.length,
          if onCopy then some (holding buffer written written.length) else none⟩
  | ahead {calls : List Call} {written bytes : List Byte} (hfit : fitting 0 calls = calls)
      (hbytes : bytesOf calls = written ++ bytes) (hahead : bytes ≠ [])
      (hroom : (written ++ bytes).length < REQ_BUFFER_SIZE) :
      Tracks buffer (.ahead written.length bytes) calls
        ⟨holding buffer (written ++ bytes) written.length,
          some (holding buffer (written ++ bytes) (written ++ bytes).length)⟩
  | full {calls : List Call} {s : Session} (hrefused : fitting 0 calls ≠ calls)
      (hheld : bytesOf (fitting 0 calls) <+: s.encoder.mBuffer)
      (hbeyond : s.encoder.mBuffer.drop REQ_BUFFER_SIZE = buffer.drop REQ_BUFFER_SIZE)
      (hindex : s.encoder.mRunningIndex = REQ_BUFFER_SIZE)
      (hcopy : ∀ copy ∈ s.returned, copy.mRunningIndex = REQ_BUFFER_SIZE ∧
        copy.mBuffer = s.encoder.mBuffer) :
      Tracks buffer .full calls s

/-- At the start nothing is written, and all is as promised. -/
theorem tracks_start (buffer : List Byte) :
    Tracks buffer (.together false 0) [] (.start buffer) := by
  have hbytes : bytesOf [] = [] := rfl
  exact .together rfl hbytes (by decide)

/-- Behind the end of the buffer nothing is written. -/
theorem drop_holding (buffer : List Byte) {known : List Byte} (h : known.length ≤ REQ_BUFFER_SIZE)
    (p : Nat) : (holding buffer known p).mBuffer.drop REQ_BUFFER_SIZE = buffer.drop REQ_BUFFER_SIZE := by
  rw [holding, List.drop_append, List.drop_of_length_le h, List.nil_append, List.drop_drop]
  congr 1
  omega

/-- An encoder with room says so. -/
theorem isBufSane_holding {buffer known : List Byte} {p : Nat} (h : p < REQ_BUFFER_SIZE) :
    (holding buffer known p).isBufSane = true := by
  simpa [isBufSane, holding] using h

/-- A full one does not. -/
theorem not_isBufSane_of_full {e : FlatBuffEncoder} (h : e.mRunningIndex = REQ_BUFFER_SIZE) :
    ¬ e.isBufSane = true := by
  simp [isBufSane, h]

/-- An encoder that is tracked holds what the calls promise, or is full and says so. -/
theorem promised_of_tracks {buffer : List Byte} {mode : Mode} {calls : List Call} {s : Session}
    (h : Tracks buffer mode calls s) : Promised buffer calls s := by
  cases h with
  | together hfit hbytes hroom =>
    refine ⟨?_, drop_holding buffer (by omega) _, iff_of_true (isBufSane_holding hroom) hfit⟩
    rw [hfit, hbytes]
    exact List.prefix_append _ _
  | ahead hfit hbytes _ hroom =>
    refine ⟨?_, drop_holding buffer (by omega) _, iff_of_true (isBufSane_holding ?_) hfit⟩
    · rw [hfit, hbytes]
      exact List.prefix_append _ _
    · rw [List.length_append] at hroom
      omega
  | full hrefused hheld hbeyond hindex _ =>
    exact ⟨hheld, hbeyond, iff_of_false (not_isBufSane_of_full hindex) hrefused⟩

/-! ## One allowed call -/

section Step

variable {buffer : List Byte} (hbuffer : REQ_BUFFER_SIZE ≤ buffer.length)

include hbuffer in
/-- The buffer keeps its length. -/
theorem le_length_holding {known : List Byte} (h : known.length ≤ REQ_BUFFER_SIZE) (p : Nat) :
    REQ_BUFFER_SIZE ≤ (holding buffer known p).mBuffer.length := by
  rw [holding, List.length_append, List.length_drop]
  omega

include hbuffer in
/-- A call that fits behind what is known. -/
theorem run_holding_of_fits {known : List Byte} {call : Call}
    (h : known.length + call.bytes.length < REQ_BUFFER_SIZE) :
    call.run (holding buffer known known.length) =
      holding buffer (known ++ call.bytes) (known ++ call.bytes).length := by
  have hknown : known.length ≤ REQ_BUFFER_SIZE := by omega
  have hmemory := le_length_holding hbuffer hknown known.length
  rw [holding] at hmemory ⊢
  rw [call.run_of_fits hmemory h, overlay_append, List.drop_drop, holding, List.length_append]

include hbuffer in
/-- A call that does not fit where the encoder is, in front of some bytes that it leaves as they
are. -/
theorem run_holding_of_refused {written bytes : List Byte} {call : Call}
    (hroom : (written ++ bytes).length < REQ_BUFFER_SIZE)
    (hrefused : REQ_BUFFER_SIZE ≤ written.length + call.bytes.length) (hrepeats : call.Repeats bytes) :
    ∃ rest ptr, call.run (holding buffer (written ++ bytes) written.length) =
        ⟨written ++ bytes ++ rest, ptr, REQ_BUFFER_SIZE⟩ ∧
      (written ++ bytes ++ rest).drop REQ_BUFFER_SIZE = buffer.drop REQ_BUFFER_SIZE := by
  have hmemory := le_length_holding hbuffer hroom.le written.length
  have hp : written.length < REQ_BUFFER_SIZE := by
    rw [List.length_append] at hroom
    omega
  obtain ⟨ptr, hrun⟩ := call.run_of_refused hmemory hp hrefused
  have hbegun := call.length_begun_add_lt hp
  have hinside : written.length + (call.begun written.length).length ≤
      (holding buffer (written ++ bytes) written.length).mBuffer.length := by omega
  have hdrop := (drop_overlay hinside hbegun.le).trans (drop_holding buffer hroom.le written.length)
  suffices ∃ rest, overlay (holding buffer (written ++ bytes) written.length).mBuffer written.length
      (call.begun written.length) = written ++ bytes ++ rest by
    obtain ⟨rest, hrest⟩ := this
    refine ⟨rest, ptr, ?_, ?_⟩
    · rw [← hrest, ← hrun]
      rfl
    · rwa [← hrest]
  rw [holding, List.append_assoc written, overlay_append]
  cases call with
  | append w val =>
    refine ⟨buffer.drop (written ++ bytes).length, ?_⟩
    rw [Call.begun, List.append_nil, List.length_nil, List.drop_zero, List.append_assoc]
  | appendString valStr =>
    have hprefix : bytes <+: valStr.bytes.take (REQ_BUFFER_SIZE - 1 - written.length) := by
      rw [List.length_append] at hroom
      exact List.prefix_take_iff.2 ⟨hrepeats, by omega⟩
    obtain ⟨more, hmore⟩ := hprefix
    rw [Call.begun, ← hmore, ← List.append_assoc, List.append_assoc (written ++ bytes)]
    exact ⟨_, rfl⟩

include hbuffer in
/-- A call that the encoder refuses ends the writing. -/
theorem Tracks.full_of_refused {calls : List Call} {written bytes : List Byte} {call : Call}
    (hfit : fitting 0 calls = calls) (hbytes : bytesOf calls = written ++ bytes)
    (hroom : (written ++ bytes).length < REQ_BUFFER_SIZE)
    (hrefused : REQ_BUFFER_SIZE ≤ written.length + call.bytes.length) (hrepeats : call.Repeats bytes) :
    Tracks buffer .full (calls ++ [call])
      ⟨call.run (holding buffer (written ++ bytes) written.length),
        if call.returnsCopy then some (call.run (holding buffer (written ++ bytes) written.length))
        else none⟩ := by
  obtain ⟨rest, ptr, hrun, hbeyond⟩ := run_holding_of_refused hbuffer hroom hrefused hrepeats
  have hcut : fitting 0 (calls ++ [call]) = calls := by
    apply fitting_concat_of_refused hfit
    rw [hbytes, List.length_append]
    omega
  rw [hrun]
  refine .full (fitting_concat_ne (by rw [hcut])) ?_ hbeyond rfl ?_
  · rw [hcut, hbytes]
    exact List.prefix_append _ _
  · intro copy hmem
    obtain rfl := eq_of_mem_returned hmem
    exact ⟨rfl, rfl⟩

include hbuffer in
/-- One step while the encoder has all that was written: it is tracked further in every case that
the mode allows. -/
theorem Tracks.step_together {calls : List Call} {onCopy : Bool} {written : List Byte}
    (hfit : fitting 0 calls = calls) (hbytes : bytesOf calls = written)
    (hroom : written.length < REQ_BUFFER_SIZE) {step : Step}
    (hallows : (Mode.together onCopy written.length).Allows step) :
    Tracks buffer ((Mode.together onCopy written.length).next step) (calls ++ [step.call])
      (Session.step ⟨holding buffer written written.length,
        if onCopy then some (holding buffer written written.length) else none⟩ step) := by
  obtain ⟨chained, call⟩ := step
  rw [Mode.Allows] at hallows
  have hconcat : bytesOf (calls ++ [call]) = written ++ call.bytes := by
    rw [bytesOf_concat, hbytes]
  by_cases hcopy : chained = true ∧ onCopy = true
  · -- the copy goes ahead, from the place where both were
    have hfits := hallows hcopy
    obtain ⟨rfl, rfl⟩ := hcopy
    rw [Session.step_copy rfl rfl, Mode.next, if_pos ⟨rfl, rfl⟩,
      run_holding_of_fits hbuffer hfits]
    rw [← hbytes] at hfits
    exact .ahead (fitting_concat_of_fits hfit hfits) hconcat call.bytes_ne_nil
      (by rwa [List.length_append, ← hbytes])
  · rw [Session.step_encoder (by cases chained <;> cases onCopy <;> simp_all), Mode.next,
      if_neg hcopy]
    dsimp only
    by_cases hfits : written.length + call.bytes.length < REQ_BUFFER_SIZE
    · rw [if_pos hfits, run_holding_of_fits hbuffer hfits, ← List.length_append]
      rw [← hbytes] at hfits
      exact .together (fitting_concat_of_fits hfit hfits) hconcat
        (by rwa [List.length_append, ← hbytes])
    · have hfull := full_of_refused hbuffer hfit (hbytes.trans (List.append_nil _).symm)
        (by rwa [List.append_nil]) (Nat.le_of_not_lt hfits) call.repeats_nil
      rw [List.append_nil] at hfull
      rwa [if_neg hfits]

include hbuffer in
/-- One step while a copy is ahead of the encoder: the next call on the encoder has to write the
same bytes again. -/
theorem Tracks.step_ahead {calls : List Call} {written bytes : List Byte}
    (hfit : fitting 0 calls = calls) (hbytes : bytesOf calls = written ++ bytes)
    (hahead : bytes ≠ []) (hroom : (written ++ bytes).length < REQ_BUFFER_SIZE) {step : Step}
    (hallows : (Mode.ahead written.length bytes).Allows step) :
    Tracks buffer ((Mode.ahead written.length bytes).next step) (calls ++ [step.call])
      (Session.step ⟨holding buffer (written ++ bytes) written.length,
        some (holding buffer (written ++ bytes) (written ++ bytes).length)⟩ step) := by
  obtain ⟨chained, call⟩ := step
  cases chained with
  | true =>
    have hfits : (written ++ bytes).length + call.bytes.length < REQ_BUFFER_SIZE := by
      rwa [List.length_append]
    have hconcat : bytesOf (calls ++ [call]) = written ++ (bytes ++ call.bytes) := by
      rw [bytesOf_concat, hbytes, List.append_assoc]
    rw [Session.step_copy rfl rfl, run_holding_of_fits hbuffer hfits, List.append_assoc]
    refine .ahead (fitting_concat_of_fits hfit (by rwa [hbytes])) hconcat (by simp [hahead]) ?_
    rwa [← List.append_assoc, List.length_append]
  | false =>
    -- the encoder is called behind the copy's back, with a call that it refuses
    obtain ⟨hrefused, hrepeats⟩ := hallows
    rw [Session.step_encoder rfl]
    exact full_of_refused hbuffer hfit hbytes hroom hrefused hrepeats

end Step

/-- Nothing is written any more. -/
theorem Session.step_of_full {s : Session} (hindex : s.encoder.mRunningIndex = REQ_BUFFER_SIZE)
    (hcopy : ∀ copy ∈ s.returned, copy.mRunningIndex = REQ_BUFFER_SIZE ∧
      copy.mBuffer = s.encoder.mBuffer) (step : Step) :
    (s.step step).encoder = s.encoder ∧
      ∀ copy ∈ (s.step step).returned, copy.mRunningIndex = REQ_BUFFER_SIZE ∧
        copy.mBuffer = s.encoder.mBuffer := by
  cases htarget : (if step.chained then s.returned else none) with
  | none =>
    rw [Session.step_encoder htarget, step.call.run_of_full hindex]
    refine ⟨rfl, fun copy hmem => ?_⟩
    obtain rfl := eq_of_mem_returned hmem
    exact ⟨hindex, rfl⟩
  | some copy =>
    have hchained : step.chained = true := by
      by_contra hown
      rw [if_neg hown] at htarget
      cases htarget
    rw [if_pos hchained] at htarget
    obtain ⟨hfull, hbuffer⟩ := hcopy copy htarget
    rw [Session.step_copy hchained htarget, step.call.run_of_full hfull, hbuffer]
    refine ⟨rfl, fun other hmem => ?_⟩
    obtain rfl := Option.some.inj hmem
    exact ⟨hfull, hbuffer⟩

/-- **One step** that the mode allows keeps the encoder tracked. -/
theorem Tracks.step {buffer : List Byte} (hbuffer : REQ_BUFFER_SIZE ≤ buffer.length) {mode : Mode}
    {calls : List Call} {s : Session} (h : Tracks buffer mode calls s) {step : Step}
    (hallows : mode.Allows step) :
    Tracks buffer (mode.next step) (calls ++ [step.call]) (s.step step) := by
  cases h with
  | together hfit hbytes hroom => exact step_together hbuffer hfit hbytes hroom hallows
  | ahead hfit hbytes hahead hroom => exact step_ahead hbuffer hfit hbytes hahead hroom hallows
  | full hrefused hheld hbeyond hindex hcopy =>
    obtain ⟨hencoder, hreturned⟩ := Session.step_of_full hindex hcopy step
    have hcut := fitting_append_of_refused hrefused [step.call]
    refine .full (fitting_concat_ne ?_) ?_ ?_ ?_ ?_
    · rw [hcut]
      exact fitting_prefix 0 calls
    · rwa [hcut, hencoder]
    · rwa [hencoder]
    · rwa [hencoder]
    · rwa [hencoder]

/-! ## One call that is not allowed -/

/-- The encoder is sane, though the call was not written in full. -/
theorem not_promised_of_refused {buffer : List Byte} {calls : List Call} {call : Call} {s : Session}
    (hfit : fitting 0 calls = calls)
    (hrefused : REQ_BUFFER_SIZE ≤ (bytesOf calls).length + call.bytes.length)
    (hsane : s.encoder.mRunningIndex < REQ_BUFFER_SIZE) : ¬ Promised buffer (calls ++ [call]) s := by
  intro h
  have hall := h.sane.1 (by simpa [isBufSane] using hsane)
  exact fitting_concat_ne (by rw [fitting_concat_of_refused hfit hrefused]) hall

/-- The encoder writes where the copy was before it.  Its own last byte does not come as far as the
end of what was to be written. -/
theorem not_prefix_overlay {written bytes init : List Byte} {last b : Byte} (hahead : bytes ≠ [])
    (hlast : last ≠ b)
    (hroom : (written ++ bytes).length + (init ++ [last]).length < REQ_BUFFER_SIZE) :
    ¬ written ++ bytes ++ (init ++ [last]) <+:
      overlay (holding (List.replicate REQ_BUFFER_SIZE b) (written ++ bytes) written.length).mBuffer
        written.length (init ++ [last]) := by
  intro hheld
  have hpos := List.length_pos_iff.2 hahead
  have hend : written.length + (init ++ [last]).length ≤ (written ++ bytes ++ init).length := by
    simp only [List.length_append, List.length_singleton]
    omega
  have hinside : written.length + (init ++ [last]).length ≤
      (holding (List.replicate REQ_BUFFER_SIZE b) (written ++ bytes) written.length).mBuffer.length := by
    have hmemory : REQ_BUFFER_SIZE ≤
        (holding (List.replicate REQ_BUFFER_SIZE b) (written ++ bytes) written.length).mBuffer.length :=
      le_length_holding (by rw [List.length_replicate]) (by omega) written.length
    rw [List.length_append] at hroom
    omega
  have hlength : (written ++ bytes ++ init).length = (written ++ bytes).length + init.length :=
    List.length_append
  have hdrop := hheld.drop (written ++ bytes ++ init).length
  rw [← List.append_assoc, List.drop_left, drop_overlay hinside hend, holding, hlength,
    List.drop_length_add_append, List.drop_drop, List.drop_replicate] at hdrop
  exact hlast (List.eq_of_mem_replicate (hdrop.subset (List.mem_singleton.2 rfl)))

/-- A string that does not fit is begun over what the copy wrote. -/
theorem repeats_of_prefix_overlay {buffer written bytes : List Byte} {call : Call}
    (hroom : (written ++ bytes).length < REQ_BUFFER_SIZE)
    (hrefused : REQ_BUFFER_SIZE ≤ written.length + call.bytes.length)
    (hheld : written ++ bytes <+: overlay (holding buffer (written ++ bytes) written.length).mBuffer
      written.length (call.begun written.length)) : call.Repeats bytes := by
  cases call with
  | append w val => trivial
  | appendString valStr =>
    rw [holding, List.append_assoc written, overlay_append, List.append_assoc,
      List.prefix_append_right_inj] at hheld
    rw [List.length_append] at hroom
    rw [Call.bytes, List.length_append, List.length_singleton] at hrefused
    have hlength : bytes.length ≤ (Call.begun written.length (.appendString valStr)).length := by
      rw [Call.begun, List.length_take]
      omega
    have hbegun := List.prefix_of_prefix_length_le hheld (List.prefix_append _ _) hlength
    exact hbegun.trans (List.take_prefix _ _)

/-- A call on the encoder that fits where the encoder is, while the copy is ahead. -/
theorem not_promised_of_fits {calls : List Call} {call : Call} {written bytes init : List Byte}
    {last b : Byte} {s : Session} (hfit : fitting 0 calls = calls)
    (hbytes : bytesOf calls = written ++ bytes) (hahead : bytes ≠ [])
    (hroom : (written ++ bytes).length < REQ_BUFFER_SIZE) (hcall : call.bytes = init ++ [last])
    (hlast : last ≠ b) (hfits : written.length + call.bytes.length < REQ_BUFFER_SIZE)
    (hrun : s.encoder = call.run
      (holding (List.replicate REQ_BUFFER_SIZE b) (written ++ bytes) written.length)) :
    ¬ Promised (List.replicate REQ_BUFFER_SIZE b) (calls ++ [call]) s := by
  have hmemory := le_length_holding (Nat.le_of_eq (List.length_replicate (a := b)).symm) hroom.le
    written.length
  have hdone := hrun.trans (call.run_of_fits hmemory hfits)
  by_cases hall : (written ++ bytes).length + call.bytes.length < REQ_BUFFER_SIZE
  · intro hpromised
    have hheld := hpromised.held
    rw [fitting_concat_of_fits hfit (by rwa [hbytes]), bytesOf_concat, hbytes, hdone] at hheld
    rw [hcall] at hheld hall
    exact not_prefix_overlay hahead hlast hall hheld
  · have hrefused : REQ_BUFFER_SIZE ≤ (bytesOf calls).length + call.bytes.length := by
      rw [hbytes]
      exact Nat.le_of_not_lt hall
    refine not_promised_of_refused hfit hrefused ?_
    rw [hdone]
    exact Int.ofNat_lt.2 hfits

/-- A call on the encoder that does not fit even there. -/
theorem repeats_of_promised {buffer : List Byte} (hbuffer : REQ_BUFFER_SIZE ≤ buffer.length)
    {calls : List Call} {call : Call} {written bytes : List Byte} {s : Session}
    (hfit : fitting 0 calls = calls) (hbytes : bytesOf calls = written ++ bytes)
    (hroom : (written ++ bytes).length < REQ_BUFFER_SIZE)
    (hrefused : REQ_BUFFER_SIZE ≤ written.length + call.bytes.length)
    (hrun : s.encoder = call.run (holding buffer (written ++ bytes) written.length))
    (hpromised : Promised buffer (calls ++ [call]) s) : call.Repeats bytes := by
  have hmemory := le_length_holding hbuffer hroom.le written.length
  have hown : written.length < REQ_BUFFER_SIZE := by
    rw [List.length_append] at hroom
    omega
  have hlength : REQ_BUFFER_SIZE ≤ (bytesOf calls).length + call.bytes.length := by
    rw [hbytes, List.length_append]
    omega
  obtain ⟨ptr, hdone⟩ := call.run_of_refused hmemory hown hrefused
  have hheld := hpromised.held
  rw [fitting_concat_of_refused hfit hlength, hbytes, hrun.trans hdone] at hheld
  exact repeats_of_prefix_overlay hroom hrefused hheld

/-- Some buffer shows that the call breaks what is promised. -/
theorem exists_not_promised {mode : Mode} {step : Step} (h : ¬ mode.Allows step) :
    ∃ b : Byte, ∀ calls s, Tracks (List.replicate REQ_BUFFER_SIZE b) mode calls s →
      ¬ Promised (List.replicate REQ_BUFFER_SIZE b) (calls ++ [step.call]) (s.step step) := by
  obtain ⟨chained, call⟩ := step
  obtain ⟨init, last, hcall⟩ : ∃ init last, call.bytes = init ++ [last] :=
    ⟨_, _, (List.dropLast_append_getLast call.bytes_ne_nil).symm⟩
  -- a byte that the call does not end with
  refine ⟨last + 1, fun calls s htracks => ?_⟩
  have hlast : last ≠ last + 1 := by
    intro heq
    simp at heq
  have hbuffer : REQ_BUFFER_SIZE ≤ (List.replicate REQ_BUFFER_SIZE (last + 1)).length := by
    rw [List.length_replicate]
  cases htracks with
  | together hfit hbytes hroom =>
    -- the copy is full, and the encoder does not know it
    simp only [Mode.Allows, Classical.not_imp, Nat.not_lt] at h
    obtain ⟨⟨rfl, rfl⟩, hrefused⟩ := h
    rw [Session.step_copy rfl rfl]
    exact not_promised_of_refused hfit (by rwa [hbytes]) (Int.ofNat_lt.2 hroom)
  | @ahead _ written bytes hfit hbytes hahead hroom =>
    have hown : written.length < REQ_BUFFER_SIZE := by
      rw [List.length_append] at hroom
      omega
    cases chained with
    | true =>
      simp only [Mode.Allows, Nat.not_lt] at h
      rw [Session.step_copy rfl rfl]
      exact not_promised_of_refused hfit (by rwa [hbytes, List.length_append])
        (Int.ofNat_lt.2 hown)
    | false =>
      simp only [Mode.Allows, not_and] at h
      rw [Session.step_encoder rfl]
      by_cases hfits : written.length + call.bytes.length < REQ_BUFFER_SIZE
      · exact not_promised_of_fits hfit hbytes hahead hroom hcall hlast hfits rfl
      · have hrefused := Nat.le_of_not_lt hfits
        exact fun hpromised =>
          h hrefused (repeats_of_promised hbuffer hfit hbytes hroom hrefused rfl hpromised)
  | full => exact absurd trivial h

/-! ## Sessions -/

namespace Mode

/-- Where the calls leave the two. -/
def after (mode : Mode) (steps : List Step) : Mode := steps.foldl next mode

/-- Of steps that are not all allowed there is a first that is not. -/
theorem exists_disallowed {mode : Mode} {steps : List Step} (h : ¬ mode.AllowsAll steps) :
    ∃ before step rest, steps = before ++ step :: rest ∧ mode.AllowsAll before ∧
      ¬ (mode.after before).Allows step := by
  induction steps generalizing mode with
  | nil => exact absurd trivial h
  | cons step steps ih =>
    by_cases hallows : mode.Allows step
    · obtain ⟨before, other, rest, rfl, hbefore, hother⟩ := ih fun hall => h ⟨hallows, hall⟩
      exact ⟨step :: before, other, rest, rfl, ⟨hallows, hbefore⟩, hother⟩
    · exact ⟨[], step, steps, rfl, trivial, hallows⟩

/-- Of steps that are allowed the first ones are. -/
theorem AllowsAll.of_append {mode : Mode} {before rest : List Step}
    (h : mode.AllowsAll (before ++ rest)) : mode.AllowsAll before := by
  induction before generalizing mode with
  | nil => trivial
  | cons step before ih => exact ⟨h.1, ih h.2⟩

end Mode

/-- **A run** of steps that are allowed keeps it tracked. -/
theorem Tracks.run {buffer : List Byte} (hbuffer : REQ_BUFFER_SIZE ≤ buffer.length)
    {steps : List Step} {mode : Mode} {calls : List Call} {s : Session}
    (h : Tracks buffer mode calls s) (hall : mode.AllowsAll steps) :
    Tracks buffer (mode.after steps) (calls ++ steps.map Step.call) (s.run steps) := by
  induction steps generalizing mode calls s with
  | nil => rwa [List.map_nil, List.append_nil]
  | cons step steps ih =>
    have hrest := ih (h.step hbuffer hall.1) hall.2
    rwa [List.append_assoc, List.singleton_append] at hrest

/-- A full encoder stays what it is. -/
theorem Session.run_of_full {s : Session} (hindex : s.encoder.mRunningIndex = REQ_BUFFER_SIZE)
    (hcopy : ∀ copy ∈ s.returned, copy.mRunningIndex = REQ_BUFFER_SIZE ∧
      copy.mBuffer = s.encoder.mBuffer) (steps : List Step) :
    (s.run steps).encoder = s.encoder := by
  induction steps generalizing s with
  | nil => rfl
  | cons step steps ih =>
    obtain ⟨hencoder, hreturned⟩ := Session.step_of_full hindex hcopy step
    rw [← hencoder] at hindex hreturned
    exact (ih hindex hreturned).trans hencoder

/-- After a refused call that is tracked, nothing is written. -/
theorem Tracks.run_of_refused {buffer : List Byte} {mode : Mode} {calls : List Call} {s : Session}
    (h : Tracks buffer mode calls s) (hrefused : fitting 0 calls ≠ calls) (steps : List Step) :
    (s.run steps).encoder = s.encoder := by
  cases h with
  | together hfit => exact absurd hfit hrefused
  | ahead hfit => exact absurd hfit hrefused
  | full _ _ _ hindex hcopy => exact Session.run_of_full hindex hcopy steps

/-- So does one from the start. -/
theorem tracks_run_start {buffer : List Byte} (hbuffer : REQ_BUFFER_SIZE ≤ buffer.length)
    {steps : List Step} (hall : (Mode.together false 0).AllowsAll steps) :
    Tracks buffer ((Mode.together false 0).after steps) (steps.map Step.call)
      ((Session.start buffer).run steps) :=
  (tracks_start buffer).run hbuffer hall

/-- And then every prefix of the run has written what its calls promise. -/
theorem writesInOrder_of_allowsAll {steps : List Step}
    (hall : (Mode.together false 0).AllowsAll steps) : WritesInOrder steps := by
  rintro buffer hbuffer before rest rfl
  have htracks := tracks_run_start hbuffer hall.of_append
  refine ⟨promised_of_tracks htracks, fun hrefused => ?_⟩
  have hrun := htracks.run_of_refused hrefused rest
  rw [Session.run, List.foldl_append, ← hrun]
  rfl

/-- **A session keeps what is promised** when each of its calls is allowed, and only then. -/
theorem writesInOrder_iff (steps : List Step) :
    WritesInOrder steps ↔ (Mode.together false 0).AllowsAll steps := by
  refine ⟨fun h => ?_, writesInOrder_of_allowsAll⟩
  by_contra hdisallowed
  obtain ⟨before, step, rest, rfl, hbefore, hstep⟩ := Mode.exists_disallowed hdisallowed
  obtain ⟨b, hbreaks⟩ := exists_not_promised hstep
  have hbuffer : REQ_BUFFER_SIZE ≤ (List.replicate REQ_BUFFER_SIZE b).length := by
    rw [List.length_replicate]
  obtain ⟨hpromised, -⟩ := h _ hbuffer (before ++ [step]) rest (by simp)
  rw [List.map_append, Session.run, List.foldl_append] at hpromised
  exact hbreaks _ _ (tracks_run_start hbuffer hbefore) hpromised

/-- What is chained onto a string is written over by the next statement. -/
theorem chained_write_is_lost :
    ¬ WritesInOrder [⟨false, .appendString ⟨[], by decide⟩⟩, ⟨true, .append .one 1⟩,
      ⟨false, .append .one 2⟩] := by
  intro h
  have hheld := (h (List.replicate REQ_BUFFER_SIZE 0) (by rw [List.length_replicate]) _ []
    (List.append_nil _).symm).1.held
  revert hheld
  decide

end FlatBuffEncoder

end ResourceTuner
