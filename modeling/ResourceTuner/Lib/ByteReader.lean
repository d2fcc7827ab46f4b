import Mathlib.Data.BitVec
import Mathlib.Data.List.Basic

/-!
# Reading words and strings from memory

Words are stored with the lowest byte first.  A reader walks over memory from a buffer on: it holds
the bytes from its position to the end of what is mapped, and a store of its own for everything else
it works on.  It ends with a value, with an error code that it returns on purpose, or with a fault
when it runs off the end of memory.

* **`encode`, `decode`** — a word as bytes;
* **`Reader`**, **`read`**, **`readString`** — the readers;
* **`Sequential`** — readers whose outcome on a buffer does not depend on what lies behind it as long
  as they do not read that far; `staysInside_iff` is the use of it: such a reader stays inside a
  buffer, whatever lies behind it, exactly when it does not fault on the buffer alone;
* **`Within`** — a reader takes a given number of bytes, or ends before;
* **`Unfailing`** — a reader returns no error code;
* **`Takes`** — both at once: a reader that faults exactly when there are fewer bytes.
-/

namespace ByteReader

abbrev Byte := BitVec 8

/-! ## Words -/

/-- The lowest `n` bytes of a number. -/
def toLE : Nat → Nat → List Byte
  | 0, _ => []
  | n + 1, v => BitVec.ofNat 8 v :: toLE n (v / 256)

/-- The number that the bytes spell. -/
def fromLE : List Byte → Nat
  | [] => 0
  | b :: bytes => b.toNat + 256 * fromLE bytes

/-- A number is written in as many bytes as it is asked for. -/
theorem length_toLE (n v : Nat) : (toLE n v).length = n := by
  induction n generalizing v with
  | zero => rfl
  | succ n ih => simp [toLE, ih]

/-- What is read back is the number without what did not fit. -/
theorem fromLE_toLE (n v : Nat) : fromLE (toLE n v) = v % 256 ^ n := by
  induction n generalizing v with
  | zero => simp [toLE, fromLE, Nat.mod_one]
  | succ n ih =>
    have hsplit : v % 256 ^ (n + 1) = v % 256 + 256 * (v / 256 % 256 ^ n) := by
      rw [Nat.pow_succ', Nat.mod_mul]
    rw [toLE, fromLE, ih, BitVec.toNat_ofNat, hsplit]

/-- A word of `n` bytes. -/
def encode (n : Nat) (x : BitVec (8 * n)) : List Byte := toLE n x.toNat

def decode (n : Nat) (bytes : List Byte) : BitVec (8 * n) := BitVec.ofNat _ (fromLE bytes)

/-- A word of `n` bytes takes `n` bytes. -/
@[simp] theorem length_encode (n : Nat) (x : BitVec (8 * n)) : (encode n x).length = n :=
  length_toLE n x.toNat

/-- And nothing of it is lost. -/
@[simp] theorem decode_encode (n : Nat) (x : BitVec (8 * n)) : decode n (encode n x) = x := by
  apply BitVec.eq_of_toNat_eq
  have hpow : 256 ^ n = 2 ^ (8 * n) := by
    rw [Nat.pow_mul]
  rw [decode, encode, fromLE_toLE, BitVec.toNat_ofNat, hpow, Nat.mod_mod,
    Nat.mod_eq_of_lt x.isLt]

/-- So many bytes hold a number below that power of 256. -/
theorem fromLE_lt (bytes : List Byte) : fromLE bytes < 256 ^ bytes.length := by
  induction bytes with
  | nil => exact Nat.one_pos
  | cons b bytes ih =>
    have hb : b.toNat < 256 := b.isLt
    rw [fromLE, List.length_cons, Nat.pow_succ']
    omega

/-- The bytes of a number determine it, and it them. -/
theorem toLE_fromLE (bytes : List Byte) : toLE bytes.length (fromLE bytes) = bytes := by
  induction bytes with
  | nil => rfl
  | cons b bytes ih =>
    have hb : b.toNat < 256 := b.isLt
    have hhead : BitVec.ofNat 8 (b.toNat + 256 * fromLE bytes) = b := by
      apply BitVec.eq_of_toNat_eq
      rw [BitVec.toNat_ofNat]
      omega
    rw [fromLE, List.length_cons, toLE, hhead,
      show (b.toNat + 256 * fromLE bytes) / 256 = fromLE bytes by omega, ih]

/-- Bytes are the word they spell. -/
theorem encode_decode {n : Nat} {bytes : List Byte} (h : bytes.length = n) :
    encode n (decode n bytes) = bytes := by
  have hpow : 256 ^ n = 2 ^ (8 * n) := by
    rw [Nat.pow_mul]
  have hlt : fromLE bytes < 2 ^ (8 * n) := by
    rw [← hpow, ← h]
    exact fromLE_lt bytes
  rw [encode, decode, BitVec.toNat_ofNat, Nat.mod_eq_of_lt hlt, ← h, toLE_fromLE]

/-- A byte is its own encoding. -/
theorem encode_one (x : Byte) : encode 1 x = [x] := by
  simp [encode, toLE]

/-- The string before the first zero byte, and what follows that byte. -/
def splitString : List Byte → Option (List Byte × List Byte)
  | [] => none
  | b :: bytes =>
    if b = 0 then some ([], bytes)
    else (splitString bytes).map fun split => (b :: split.1, split.2)

/-- A string without a zero byte ends at the zero byte behind it. -/
theorem splitString_append {string : List Byte} (hstring : 0 ∉ string) (tail : List Byte) :
    splitString (string ++ 0 :: tail) = some (string, tail) := by
  induction string with
  | nil => simp [splitString]
  | cons b string ih =>
    simp only [List.mem_cons, not_or] at hstring
    rw [List.cons_append, splitString, if_neg (Ne.symm hstring.1), ih hstring.2]
    rfl

/-- A string takes its bytes and the zero byte. -/
theorem eq_of_splitString {bytes string tail : List Byte}
    (h : splitString bytes = some (string, tail)) : bytes = string ++ 0 :: tail ∧ 0 ∉ string := by
  induction bytes generalizing string with
  | nil => cases h
  | cons b bytes ih =>
    simp only [splitString] at h
    split at h
    · rename_i hzero
      cases h
      exact ⟨by simp [hzero], List.not_mem_nil⟩
    · rename_i hne
      obtain ⟨split, hsplit, heq⟩ := Option.map_eq_some_iff.mp h
      cases heq
      obtain ⟨hbytes, hstring⟩ := ih hsplit
      refine ⟨by rw [hbytes]; rfl, ?_⟩
      simp only [List.mem_cons, not_or]
      exact ⟨Ne.symm hne, hstring⟩

/-- The bytes a string takes with its zero byte; one more than there are if there is none. -/
def stringLength (bytes : List Byte) : Nat :=
  match splitString bytes with
  | some (string, _) => string.length + 1
  | none => bytes.length + 1

/-! ## Readers -/

/-- Why a reader ends without a value. -/
inductive Stop (ε : Type) where
  | failed (code : ε)
  | fault

/-- The memory from the position of the reader on, and what else it works on. -/
structure Input (σ : Type) where
  rest : List Byte
  store : σ

abbrev Reader (ε σ : Type) := EStateM (Stop ε) (Input σ)

variable {ε σ α β : Type} {d : Reader ε σ α} {f : α → Reader ε σ β} {s s' : Input σ} {a : α}

/-- Read a word. -/
def read (n : Nat) : Reader ε σ (BitVec (8 * n)) := fun s =>
  if n ≤ s.rest.length then .ok (decode n (s.rest.take n)) { s with rest := s.rest.drop n }
  else .error .fault s

/-- Read a string that a zero byte ends. -/
def readString : Reader ε σ (List Byte) := fun s =>
  match splitString s.rest with
  | some (string, tail) => .ok string { s with rest := tail }
  | none => .error .fault s

/-- Change the store. -/
def update (change : σ → σ) : Reader ε σ Unit := fun s =>
  .ok () { s with store := change s.store }

/-- End with an error code. -/
def fail (code : ε) : Reader ε σ α := fun s => .error (.failed code) s

/-- A reader that ends well hands its value and its state on; these two are what a run is computed
with. -/
theorem bind_ok (h : d s = .ok a s') : (d >>= f) s = f a s' := by
  simp only [bind, EStateM.bind, h]

/-- One that stops ends the whole. -/
theorem bind_error {stop : Stop ε} (h : d s = .error stop s') :
    (d >>= f) s = .error stop s' := by
  simp only [bind, EStateM.bind, h]

/-- A word that was written is read, and the reader stands behind it. -/
theorem read_encode (n : Nat) (x : BitVec (8 * n)) (tail : List Byte) (store : σ) :
    (read n : Reader ε σ _) ⟨encode n x ++ tail, store⟩ = .ok x ⟨tail, store⟩ := by
  have hlength : n ≤ (encode n x ++ tail).length := by simp
  have htake : (encode n x ++ tail).take n = encode n x := by
    rw [List.take_append_of_le_length (by simp), List.take_of_length_le (by simp)]
  have hdrop : (encode n x ++ tail).drop n = tail := by
    rw [List.drop_append_of_le_length (by simp), List.drop_of_length_le (by simp), List.nil_append]
  simp only [read, hlength, if_true, htake, hdrop, decode_encode]

/-- So is a string, with its zero byte. -/
theorem readString_append {string : List Byte} (hstring : 0 ∉ string) (tail : List Byte)
    (store : σ) :
    (readString : Reader ε σ _) ⟨string ++ 0 :: tail, store⟩ = .ok string ⟨tail, store⟩ := by
  simp only [readString, splitString_append hstring]

/-- A word that was read stood at the front of the memory. -/
theorem rest_of_read {n : Nat} {x : BitVec (8 * n)} (h : (read n : Reader ε σ _) s = .ok x s') :
    s.rest = encode n x ++ s'.rest ∧ s'.store = s.store := by
  simp only [read] at h
  split at h
  · rename_i hlength
    cases h
    rw [encode_decode (List.length_take_of_le hlength), List.take_append_drop]
    exact ⟨rfl, rfl⟩
  · cases h

/-- So did a string, with its zero byte. -/
theorem rest_of_readString {string : List Byte}
    (h : (readString : Reader ε σ _) s = .ok string s') :
    s.rest = string ++ 0 :: s'.rest ∧ 0 ∉ string ∧ s'.store = s.store := by
  simp only [readString] at h
  split at h
  · rename_i heq
    cases h
    obtain ⟨hrest, hstring⟩ := eq_of_splitString heq
    exact ⟨hrest, hstring, rfl⟩
  · cases h

/-- A sequence ends with a value when both of its parts do. -/
theorem bind_eq_ok {b : β} (h : (d >>= f) s = .ok b s') :
    ∃ a s₁, d s = .ok a s₁ ∧ f a s₁ = .ok b s' := by
  cases hd : d s with
  | ok a s₁ =>
    rw [bind_ok hd] at h
    exact ⟨a, s₁, rfl, h⟩
  | error stop s₁ =>
    rw [bind_error hd] at h
    cases h

/-- It ends without one when one of its parts does. -/
theorem bind_eq_error {stop : Stop ε} (h : (d >>= f) s = .error stop s') :
    d s = .error stop s' ∨ ∃ a s₁, d s = .ok a s₁ ∧ f a s₁ = .error stop s' := by
  cases hd : d s with
  | ok a s₁ =>
    rw [bind_ok hd] at h
    exact Or.inr ⟨a, s₁, rfl, h⟩
  | error stop' s₁ =>
    rw [bind_error hd] at h
    cases h
    exact Or.inl rfl

/-! ## How a reader ends -/

/-- The reader does not run out of memory, and what it ends with satisfies `ok`, or `failed` if it
returns an error code. -/
def Ends (d : Reader ε σ α) (s : Input σ) (ok : α → Input σ → Prop) (failed : Input σ → Prop) : Prop :=
  match d s with
  | .ok a s' => ok a s'
  | .error (.failed _) s' => failed s'
  | .error .fault _ => False

section Ends

variable {ok : β → Input σ → Prop} {failed : Input σ → Prop}

/-- The two outcomes may be described in any way that is as good. -/
theorem ends_congr {ok ok' : α → Input σ → Prop} {failed' : Input σ → Prop}
    (hok : ∀ a s', ok a s' ↔ ok' a s') (hfailed : ∀ s', failed s' ↔ failed' s') :
    Ends d s ok failed ↔ Ends d s ok' failed' := by
  unfold Ends
  cases d s with
  | ok a s' => exact hok a s'
  | error stop s' =>
    cases stop with
    | failed code => exact hfailed s'
    | fault => exact Iff.rfl

/-- A sequence ends as its second part does from where the first has ended. -/
theorem ends_bind : Ends (d >>= f) s ok failed ↔
    Ends d s (fun a s' => Ends (f a) s' ok failed) failed := by
  unfold Ends
  cases hd : d s with
  | ok a s' => rw [bind_ok hd]
  | error stop s' =>
    rw [bind_error hd]
    cases stop <;> rfl

/-- A reader that only answers ends well. -/
theorem ends_pure (b : β) : Ends (pure b : Reader ε σ β) s ok failed ↔ ok b s := Iff.rfl

/-- One that fails does not. -/
theorem ends_fail (code : ε) : Ends (fail code : Reader ε σ β) s ok failed ↔ failed s := Iff.rfl

theorem ends_read {n : Nat} {ok : BitVec (8 * n) → Input σ → Prop} :
    Ends (read n : Reader ε σ _) s ok failed ↔
      n ≤ s.rest.length ∧ ok (decode n (s.rest.take n)) { s with rest := s.rest.drop n } := by
  unfold Ends read
  by_cases hle : n ≤ s.rest.length
  · simp [hle]
  · simp [hle]

theorem ends_readString {ok : List Byte → Input σ → Prop} :
    Ends (readString : Reader ε σ _) s ok failed ↔
      ∃ string tail, splitString s.rest = some (string, tail) ∧
        ok string { s with rest := tail } := by
  unfold Ends readString
  cases hsplit : splitString s.rest with
  | none => simp
  | some split =>
    obtain ⟨string, tail⟩ := split
    simp

end Ends

/-! ## What a reader preserves -/

/-- However the reader ends, the store it leaves satisfies what the store it found did. -/
def Preserves (P : σ → Prop) (d : Reader ε σ α) : Prop :=
  ∀ s, P s.store → match d s with
    | .ok _ s' => P s'.store
    | .error _ s' => P s'.store

namespace Preserves

variable {P : σ → Prop}

/-- To answer changes nothing. -/
theorem pure (a : α) : Preserves P (Pure.pure a : Reader ε σ α) := fun _ h => h

/-- Nor does it to stop. -/
theorem throw (stop : Stop ε) : Preserves P (MonadExcept.throw stop : Reader ε σ α) := fun _ h => h

/-- A sequence keeps what both of its parts keep. -/
theorem bind (hd : Preserves P d) (hf : ∀ a, Preserves P (f a)) : Preserves P (d >>= f) := by
  intro s h
  have hfirst := hd s h
  cases hresult : d s with
  | ok a s' =>
    rw [hresult] at hfirst
    rw [bind_ok hresult]
    exact hf a s' hfirst
  | error stop s' =>
    rw [hresult] at hfirst
    rw [bind_error hresult]
    exact hfirst

end Preserves

/-! ## Staying inside a buffer -/

/-- The outcome on a longer memory is that on a shorter one, unless the reader ran out of the
shorter one. -/
structure Sequential (d : Reader ε σ α) : Prop where
  shrinks : ∀ s a s', d s = .ok a s' → s'.rest.length ≤ s.rest.length
  ok : ∀ bytes beyond store a s', d ⟨bytes, store⟩ = .ok a s' →
    d ⟨bytes ++ beyond, store⟩ = .ok a ⟨s'.rest ++ beyond, s'.store⟩
  failed : ∀ bytes beyond store code s', d ⟨bytes, store⟩ = .error (.failed code) s' →
    ∃ s'', d ⟨bytes ++ beyond, store⟩ = .error (.failed code) s''
  fault : ∀ bytes beyond store s', d ⟨bytes, store⟩ = .error .fault s' → ∀ a s'',
    d ⟨bytes ++ beyond, store⟩ = .ok a s'' → s''.rest.length < beyond.length

namespace Sequential

/-- A reader that does not look at memory. -/
theorem of_store {d : Reader ε σ α} (outcome : σ → EStateM.Result (Stop ε) σ α)
    (h : ∀ s, d s = match outcome s.store with
      | .ok a store => .ok a ⟨s.rest, store⟩
      | .error (.failed code) store => .error (.failed code) ⟨s.rest, store⟩
      | .error .fault _ => .error .fault s)
    (hfault : ∀ store store', outcome store ≠ .error .fault store') : Sequential d := by
  constructor
  · intro s a s' hd
    rw [h] at hd
    split at hd
    · cases hd
      exact le_refl _
    · cases hd
    · cases hd
  · intro bytes beyond store a s' hd
    rw [h] at hd ⊢
    simp only at hd ⊢
    split at hd
    · cases hd
      rfl
    · cases hd
    · cases hd
  · intro bytes beyond store code s' hd
    rw [h] at hd ⊢
    simp only at hd ⊢
    split at hd
    · cases hd
    · cases hd
      exact ⟨_, rfl⟩
    · cases hd
  · intro bytes beyond store s' hd
    rw [h] at hd
    simp only at hd
    split at hd
    · cases hd
    · cases hd
    · rename_i hout
      exact absurd hout (hfault _ _)

/-- An answer has nothing to do with memory. -/
theorem pure (a : α) : Sequential (pure a : Reader ε σ α) :=
  of_store (fun store => .ok a store) (fun _ => rfl) (by simp)

/-- Nor has a change of the store. -/
theorem update (change : σ → σ) : Sequential (update change : Reader ε σ Unit) :=
  of_store (fun store => .ok () (change store)) (fun _ => rfl) (by simp)

/-- Nor an error code. -/
theorem fail (code : ε) : Sequential (fail code : Reader ε σ α) :=
  of_store (fun store => .error (.failed code) store) (fun _ => rfl) (by simp)

/-- A word that is there is read whatever follows it, and one that is not is a fault, or takes bytes
from behind. -/
theorem read (n : Nat) : Sequential (read n : Reader ε σ (BitVec (8 * n))) := by
  constructor
  · intro s a s' h
    simp only [ByteReader.read] at h
    split at h
    · cases h
      simp
    · cases h
  · intro bytes beyond store a s' h
    simp only [ByteReader.read] at h ⊢
    split at h
    · rename_i hle
      cases h
      rw [if_pos (by simp only [List.length_append]; omega), List.take_append_of_le_length hle,
        List.drop_append_of_le_length hle]
    · cases h
  · intro bytes beyond store code s' h
    simp only [ByteReader.read] at h
    split at h <;> cases h
  · intro bytes beyond store s' h a s'' h'
    simp only [ByteReader.read] at h h'
    split at h
    · cases h
    · rename_i hlt
      split at h'
      · rename_i hle
        cases h'
        simp only [List.length_drop, List.length_append] at hle ⊢
        omega
      · cases h'

/-- The same for a string: it ends at the first zero byte, wherever the memory does. -/
theorem readString : Sequential (readString : Reader ε σ (List Byte)) := by
  have hsplit : ∀ {bytes string tail : List Byte} (beyond), splitString bytes = some (string, tail) →
      splitString (bytes ++ beyond) = some (string, tail ++ beyond) := by
    intro bytes string tail beyond h
    obtain ⟨rfl, hstring⟩ := eq_of_splitString h
    rw [List.append_assoc, List.cons_append, splitString_append hstring]
  constructor
  · intro s a s' h
    simp only [ByteReader.readString] at h
    split at h
    · rename_i string tail heq
      cases h
      rw [(eq_of_splitString heq).1]
      simp only [List.length_append, List.length_cons]
      omega
    · cases h
  · intro bytes beyond store a s' h
    simp only [ByteReader.readString] at h ⊢
    split at h
    · rename_i heq
      cases h
      rw [hsplit beyond heq]
    · cases h
  · intro bytes beyond store code s' h
    simp only [ByteReader.readString] at h
    split at h <;> cases h
  · intro bytes beyond store s' h a s'' h'
    simp only [ByteReader.readString] at h h'
    split at h
    · cases h
    · rename_i hnone
      split at h'
      · rename_i tail heq
        cases h'
        -- the zero byte lies beyond the buffer, or the string would end inside
        by_contra hlong
        obtain ⟨hbytes, hstring⟩ := eq_of_splitString heq
        obtain ⟨pre, hpre⟩ : ∃ pre, tail = pre ++ beyond := by
          have hsuffix : beyond <:+ a ++ 0 :: tail := ⟨bytes, hbytes⟩
          have htail : tail <:+ a ++ 0 :: tail := ⟨a ++ [0], by simp⟩
          obtain ⟨pre, hpre⟩ := List.suffix_of_suffix_length_le hsuffix htail (by simpa using hlong)
          exact ⟨pre, hpre.symm⟩
        rw [hpre, ← List.cons_append, ← List.append_assoc] at hbytes
        rw [List.append_cancel_right hbytes, splitString_append hstring] at hnone
        cases hnone
      · cases h'

/-- **Readers that follow each other** do not depend on what lies behind the buffer if neither of them
does. -/
theorem bind (hd : Sequential d) (hf : ∀ a, Sequential (f a)) : Sequential (d >>= f) := by
  constructor
  · intro s b s' h
    obtain ⟨a, s₁, h₁, h₂⟩ := bind_eq_ok h
    exact le_trans ((hf a).shrinks _ _ _ h₂) (hd.shrinks _ _ _ h₁)
  · intro bytes beyond store b s' h
    obtain ⟨a, s₁, h₁, h₂⟩ := bind_eq_ok h
    rw [bind_ok (hd.ok _ beyond _ _ _ h₁)]
    exact (hf a).ok _ beyond _ _ _ h₂
  · intro bytes beyond store code s' h
    rcases bind_eq_error h with h₁ | ⟨a, s₁, h₁, h₂⟩
    · obtain ⟨s'', h''⟩ := hd.failed _ beyond _ _ _ h₁
      exact ⟨s'', bind_error h''⟩
    · rw [bind_ok (hd.ok _ beyond _ _ _ h₁)]
      exact (hf a).failed _ beyond _ _ _ h₂
  · intro bytes beyond store s' h b s'' h'
    rcases bind_eq_error h with h₁ | ⟨a, s₁, h₁, h₂⟩
    · obtain ⟨a, s₂, h₂, h₃⟩ := bind_eq_ok h'
      have := hd.fault _ beyond _ _ h₁ _ _ h₂
      have := (hf a).shrinks _ _ _ h₃
      omega
    · rw [bind_ok (hd.ok _ beyond _ _ _ h₁)] at h'
      exact (hf a).fault _ beyond _ _ h₂ _ _ h'

end Sequential

/-- Whatever lies behind the buffer: the reader returns an error code, or ends well without having
read a byte of it. -/
def StaysInside (d : Reader ε σ α) (buffer : List Byte) (store : σ) : Prop :=
  ∀ beyond, match d ⟨buffer ++ beyond, store⟩ with
    | .ok _ s => beyond.length ≤ s.rest.length
    | .error (.failed _) _ => True
    | .error .fault _ => False

/-- **Staying inside a buffer** is a matter of the buffer alone: it is enough that the reader does
not fault where the memory ends with it. -/
theorem staysInside_iff (hd : Sequential d) (buffer : List Byte) (store : σ) :
    StaysInside d buffer store ↔ ∀ s, d ⟨buffer, store⟩ ≠ .error .fault s := by
  constructor
  · intro h s hfault
    have hnil := h []
    rw [List.append_nil, hfault] at hnil
    exact hnil
  · intro h beyond
    cases hout : d ⟨buffer, store⟩ with
    | ok a s =>
      rw [hd.ok _ beyond _ _ _ hout]
      simp
    | error stop s =>
      cases stop with
      | failed code =>
        obtain ⟨s', hs'⟩ := hd.failed _ beyond _ _ _ hout
        rw [hs']
        trivial
      | fault => exact absurd hout (h s)

/-! ## How much a reader takes -/

/-- The reader takes `k` bytes if it ends well, and does not run out of memory if there are as
many. -/
def Within (d : Reader ε σ α) (s : Input σ) (k : Nat) : Prop :=
  (k ≤ s.rest.length → ∀ s', d s ≠ .error .fault s') ∧
    ∀ a s', d s = .ok a s' → k ≤ s.rest.length ∧ s'.rest = s.rest.drop k

namespace Within

/-- A word takes its bytes. -/
theorem read (n : Nat) : Within (read n : Reader ε σ _) s n := by
  refine ⟨fun hle s' h => ?_, fun a s' h => ?_⟩
  · simp only [ByteReader.read, hle, if_true] at h
    cases h
  · simp only [ByteReader.read] at h
    split at h
    · rename_i hle
      cases h
      exact ⟨hle, rfl⟩
    · cases h

/-- A string takes its bytes and the zero byte. -/
theorem readString : Within (readString : Reader ε σ _) s (stringLength s.rest) := by
  refine ⟨fun hle s' h => ?_, fun a s' h => ?_⟩
  · simp only [ByteReader.readString] at h
    split at h
    · cases h
    · rename_i hnone
      simp only [stringLength, hnone] at hle
      omega
  · simp only [ByteReader.readString] at h
    split at h
    · rename_i hsome
      cases h
      have hrest := (eq_of_splitString hsome).1
      simp only [stringLength, hsome]
      refine ⟨by rw [hrest, List.length_append, List.length_cons]; omega, ?_⟩
      rw [hrest, ← List.singleton_append, ← List.append_assoc]
      exact (List.drop_left' (by simp)).symm
    · cases h

/-- A reader that leaves memory alone. -/
theorem zero (hfault : ∀ s', d s ≠ .error .fault s')
    (hok : ∀ a s', d s = .ok a s' → s'.rest = s.rest) : Within d s 0 :=
  ⟨fun _ => hfault, fun a s' h => ⟨Nat.zero_le _, by rw [hok a s' h, List.drop_zero]⟩⟩

/-- An answer takes none. -/
theorem pure (a : α) : Within (Pure.pure a : Reader ε σ α) s 0 :=
  zero (fun s' h => by cases h) fun b s' h => by cases h; rfl

/-- A change of the store takes none. -/
theorem update (change : σ → σ) : Within (update change : Reader ε σ Unit) s 0 :=
  zero (fun s' h => by cases h) fun b s' h => by cases h; rfl

/-- An error takes none. -/
theorem fail (code : ε) : Within (fail code : Reader ε σ α) s 0 :=
  zero (fun s' h => by cases h) fun b s' h => by cases h

/-- A sequence takes what its parts take, where the second may depend on what the first has read. -/
theorem bind {k l : Nat} (hd : Within d s k)
    (hf : ∀ a s', d s = .ok a s' → Within (f a) s' l) : Within (d >>= f) s (k + l) := by
  refine ⟨fun hle s' h => ?_, fun b s' h => ?_⟩
  · rcases bind_eq_error h with h₁ | ⟨a, s₁, h₁, h₂⟩
    · exact hd.1 (by omega) s' h₁
    · obtain ⟨-, hrest⟩ := hd.2 a s₁ h₁
      refine (hf a s₁ h₁).1 ?_ s' h₂
      rw [hrest, List.length_drop]
      omega
  · obtain ⟨a, s₁, h₁, h₂⟩ := bind_eq_ok h
    obtain ⟨hle, hrest⟩ := hd.2 a s₁ h₁
    obtain ⟨hle', hrest'⟩ := (hf a s₁ h₁).2 b s' h₂
    rw [hrest, List.length_drop] at hle'
    refine ⟨by omega, ?_⟩
    rw [hrest', hrest, List.drop_drop]

end Within

/-- In stores that satisfy `P` the reader returns no error code, and `P` stays true. -/
def Unfailing (P : σ → Prop) (d : Reader ε σ α) : Prop :=
  ∀ s, P s.store → (∀ code s', d s ≠ .error (.failed code) s') ∧
    ∀ a s', d s = .ok a s' → P s'.store

namespace Unfailing

variable {P : σ → Prop}

/-- An answer is no error. -/
theorem pure (a : α) : Unfailing P (Pure.pure a : Reader ε σ α) := by
  intro s hs
  refine ⟨fun code s' h => ?_, fun b s' h => ?_⟩
  · cases h
  · cases h
    exact hs

/-- A word may be a fault, but never an error code. -/
theorem read (n : Nat) : Unfailing P (read n : Reader ε σ _) := by
  intro s hs
  refine ⟨fun code s' h => ?_, fun a s' h => ?_⟩
  · simp only [ByteReader.read] at h
    split at h <;> cases h
  · simp only [ByteReader.read] at h
    split at h
    · cases h
      exact hs
    · cases h

/-- Nor may a string. -/
theorem readString : Unfailing P (readString : Reader ε σ _) := by
  intro s hs
  refine ⟨fun code s' h => ?_, fun a s' h => ?_⟩
  · simp only [ByteReader.readString] at h
    split at h <;> cases h
  · simp only [ByteReader.readString] at h
    split at h
    · cases h
      exact hs
    · cases h

/-- A change of the store is no error if it stays among the good stores. -/
theorem update (change : σ → σ) (hchange : ∀ store, P store → P (change store)) :
    Unfailing P (update change : Reader ε σ Unit) := by
  intro s hs
  refine ⟨fun code s' h => ?_, fun b s' h => ?_⟩
  · cases h
  · cases h
    exact hchange _ hs

/-- A sequence answers no error code if no part does. -/
theorem bind (hd : Unfailing P d)
    (hf : ∀ a, (∃ s s', P s.store ∧ d s = .ok a s') → Unfailing P (f a)) :
    Unfailing P (d >>= f) := by
  intro s hs
  obtain ⟨hno, hkeep⟩ := hd s hs
  refine ⟨fun code s' h => ?_, fun b s' h => ?_⟩
  · rcases bind_eq_error h with h₁ | ⟨a, s₁, h₁, h₂⟩
    · exact hno code s' h₁
    · exact (hf a ⟨s, s₁, hs, h₁⟩ s₁ (hkeep a s₁ h₁)).1 code s' h₂
  · obtain ⟨a, s₁, h₁, h₂⟩ := bind_eq_ok h
    exact (hf a ⟨s, s₁, hs, h₁⟩ s₁ (hkeep a s₁ h₁)).2 b s' h₂

end Unfailing

/-- The reader takes `k` bytes; in stores that satisfy `P` it returns an error code only when there
are as many. -/
structure Takes (P : σ → Prop) (d : Reader ε σ α) (s : Input σ) (k : Nat) : Prop where
  within : Within d s k
  failed : P s.store → ∀ code s', d s = .error (.failed code) s' → k ≤ s.rest.length

namespace Takes

variable {P : σ → Prop} {k l : Nat}

/-- A reader without error codes faults exactly when its bytes are not there. -/
theorem of_unfailing (hwithin : Within d s k) (hunfailing : Unfailing P d) : Takes P d s k :=
  ⟨hwithin, fun hP code s' h => absurd h ((hunfailing s hP).1 code s')⟩

/-- A reader that fails faults never. -/
theorem fail (code : ε) : Takes P (fail code : Reader ε σ α) s 0 :=
  ⟨.fail code, fun _ _ _ _ => Nat.zero_le _⟩

/-- A sequence faults exactly when the bytes of both parts are not there, as long as the first
answers no error code. -/
theorem bind (hwithin : Within d s k) (hunfailing : Unfailing P d)
    (hf : ∀ a s', d s = .ok a s' → s'.rest = s.rest.drop k → Takes P (f a) s' l) :
    Takes P (d >>= f) s (k + l) := by
  refine ⟨hwithin.bind fun a s' h => (hf a s' h (hwithin.2 a s' h).2).within,
    fun hP code s' h => ?_⟩
  rcases bind_eq_error h with h₁ | ⟨a, s₁, h₁, h₂⟩
  · exact absurd h₁ ((hunfailing s hP).1 code s')
  · obtain ⟨hle, hrest⟩ := hwithin.2 a s₁ h₁
    have := (hf a s₁ h₁ hrest).failed ((hunfailing s hP).2 a s₁ h₁) code s' h₂
    rw [hrest, List.length_drop] at this
    omega

/-- A word. -/
theorem read_bind {n : Nat} {f : BitVec (8 * n) → Reader ε σ β}
    (hf : ∀ s', s'.rest = s.rest.drop n → Takes P (f (decode n (s.rest.take n))) s' l) :
    Takes P (read n >>= f) s (n + l) := by
  refine bind (.read n) (.read n) fun a s' h hrest => ?_
  simp only [ByteReader.read] at h
  split at h
  · cases h
    exact hf _ rfl
  · cases h

/-- A string. -/
theorem string_bind {f : List Byte → Reader ε σ β}
    (hf : ∀ string s', s'.rest = s.rest.drop (stringLength s.rest) → Takes P (f string) s' l) :
    Takes P (readString >>= f) s (stringLength s.rest + l) :=
  bind .readString .readString fun string s' _ hrest => hf string s' hrest

/-- A step that leaves memory alone. -/
theorem skip_bind (hwithin : Within d s 0) (hunfailing : Unfailing P d)
    (hf : ∀ a s', s'.rest = s.rest → Takes P (f a) s' l) : Takes P (d >>= f) s l := by
  have h := bind hwithin hunfailing fun a s' _ hrest => hf a s' (by rw [hrest, List.drop_zero])
  rwa [Nat.zero_add] at h

/-- In stores that satisfy `P`, the reader faults exactly when there are fewer bytes. -/
theorem fault_iff (h : Takes P d s k) (hP : P s.store) :
    (∃ s', d s = .error .fault s') ↔ s.rest.length < k := by
  constructor
  · rintro ⟨s', hfault⟩
    by_contra hle
    exact h.within.1 (by omega) s' hfault
  · intro hlt
    cases hout : d s with
    | ok a s' =>
      have := (h.within.2 a s' hout).1
      omega
    | error stop s' =>
      cases stop with
      | failed code =>
        have := h.failed hP code s' hout
        omega
      | fault => exact ⟨s', rfl⟩

end Takes

end ByteReader
