import ResourceTuner.Lib.WordBytes
import ResourceTuner.Common.Resource

/-!
# The bytes of the resource info word

The macros of `UrmPlatformAL.h` with which a client fills `mResInfo`, beside the setters of
`Resource.cpp`.  Both clear a byte by an XOR with the value it has.  The setters take that value as
an unsigned number, the macros cast it to `int8_t`: from 128 on its sign reaches every bit above the
byte, and the XOR turns them over.

* **`extractByte`**, **`setByte`** — the macros;
* **`setByte_eq_iff`** — a macro replaces its byte exactly when the old value is below 128;
* **`InfoUpdate`** — a call of a setter or a macro;
* **`resourceInfo_iff`** — the setters, the macros and sequences of both.
-/

namespace ResourceTuner

open WordBytes

/-! ## The macros -/

/-- The `EXTRACT_RESOURCE_*` macros; the result is an `int8_t`. -/
def extractByte (resInfo : BitVec 32) (shift : Nat) : BitVec 8 :=
  (resInfo.sshiftRight shift &&& 0xff).setWidth 8

/-- The `SET_RESOURCE_*` macros; the extracted byte is promoted to `int`. -/
def setByte (resInfo newValue : BitVec 32) (shift : Nat) : BitVec 32 :=
  (resInfo ^^^ ((extractByte resInfo shift).signExtend 32 <<< shift)) ||| (newValue <<< shift)

def EXTRACT_RESOURCE_CORE_VALUE (resInfo : BitVec 32) : BitVec 8 := extractByte resInfo 0

def EXTRACT_RESOURCE_CLUSTER_VALUE (resInfo : BitVec 32) : BitVec 8 := extractByte resInfo 8

def EXTRACT_RESOURCE_MPAM_VALUE (resInfo : BitVec 32) : BitVec 8 := extractByte resInfo 16

def SET_RESOURCE_CORE_VALUE (resInfo newValue : BitVec 32) : BitVec 32 := setByte resInfo newValue 0

def SET_RESOURCE_CLUSTER_VALUE (resInfo newValue : BitVec 32) : BitVec 32 :=
  setByte resInfo newValue 8

def SET_RESOURCE_MPAM_VALUE (resInfo newValue : BitVec 32) : BitVec 32 := setByte resInfo newValue 16

theorem extractByte_eq (x : BitVec 32) {k : Nat} (hk : k < 4) : extractByte x (8 * k) = byteAt x k := by
  apply BitVec.eq_of_getLsbD_eq
  intro i hi
  simp only [extractByte, getLsbD_byteAt, BitVec.getLsbD_setWidth, BitVec.getLsbD_and,
    BitVec.getLsbD_sshiftRight, getLsbD_byteMask]
  simp [hi, show 8 * k + i < 32 by omega, show ¬ 32 ≤ i by omega]

/-- What a macro makes of a word: its byte is replaced, and above it the sign of the old one turns
the bits over. -/
theorem getLsbD_setByte (x : BitVec 32) (v : BitVec 8) {k i : Nat} (hk : k < 4) (hi : i < 32) :
    (setByte x (v.setWidth 32) (8 * k)).getLsbD i =
      ((replaceByte x k v).getLsbD i ^^ (decide (8 * k + 8 ≤ i) && (byteAt x k).msb)) := by
  rw [getLsbD_replaceByte x k v hi, setByte, extractByte_eq x hk]
  simp only [BitVec.getLsbD_or, BitVec.getLsbD_xor, BitVec.getLsbD_shiftLeft,
    BitVec.getLsbD_signExtend, BitVec.getLsbD_setWidth, getLsbD_byteAt, hi]
  by_cases hlow : i < 8 * k
  · simp [hlow, show ¬ 8 * k + 8 ≤ i by omega, show ¬ (8 * k ≤ i ∧ i < 8 * k + 8) by omega]
  · by_cases hhigh : i < 8 * k + 8
    · simp [hlow, show ¬ 8 * k + 8 ≤ i by omega, show 8 * k ≤ i ∧ i < 8 * k + 8 by omega,
        show i - 8 * k < 8 by omega, show i - 8 * k < 32 by omega, show 8 * k + (i - 8 * k) = i by omega]
    · simp [hlow, show 8 * k + 8 ≤ i by omega, show ¬ (8 * k ≤ i ∧ i < 8 * k + 8) by omega,
        show ¬ i - 8 * k < 8 by omega, show i - 8 * k < 32 by omega,
        BitVec.getLsbD_of_ge v (i - 8 * k) (by omega)]

/-- The byte itself is read back as it was set, whatever the old one was. -/
theorem extractByte_setByte (x : BitVec 32) (v : BitVec 8) {k : Nat} (hk : k < 4) :
    extractByte (setByte x (v.setWidth 32) (8 * k)) (8 * k) = v := by
  calc extractByte (setByte x (v.setWidth 32) (8 * k)) (8 * k)
      = byteAt (setByte x (v.setWidth 32) (8 * k)) k := extractByte_eq _ hk
    _ = byteAt (replaceByte x k v) k := by
        apply BitVec.eq_of_getLsbD_eq
        intro i hi
        rw [getLsbD_byteAt, getLsbD_byteAt, getLsbD_setByte x v hk (by omega)]
        simp [show ¬ 8 ≤ i by omega]
    _ = v := byteAt_replaceByte_self v (by omega)

theorem EXTRACT_RESOURCE_SET_RESOURCE (x : BitVec 32) (v : BitVec 8) :
    EXTRACT_RESOURCE_CORE_VALUE (SET_RESOURCE_CORE_VALUE x (v.setWidth 32)) = v ∧
      EXTRACT_RESOURCE_CLUSTER_VALUE (SET_RESOURCE_CLUSTER_VALUE x (v.setWidth 32)) = v ∧
      EXTRACT_RESOURCE_MPAM_VALUE (SET_RESOURCE_MPAM_VALUE x (v.setWidth 32)) = v :=
  ⟨extractByte_setByte x v (k := 0) (by omega), extractByte_setByte x v (k := 1) (by omega),
    extractByte_setByte x v (k := 2) (by omega)⟩

theorem msb_eq_false_iff (b : BitVec 8) : b.msb = false ↔ b.toNat < 128 := by
  rw [BitVec.msb_eq_decide]
  simp

/-- **A macro replaces its byte** and nothing else exactly when the old value is below 128. -/
theorem setByte_eq_iff (x : BitVec 32) (v : BitVec 8) {k : Nat} (hk : k < 3) :
    setByte x (v.setWidth 32) (8 * k) = replaceByte x k v ↔ (byteAt x k).toNat < 128 := by
  rw [← msb_eq_false_iff]
  constructor
  · intro h
    -- the lowest bit above the byte
    have hbit := getLsbD_setByte x v (show k < 4 by omega) (show 8 * k + 8 < 32 by omega)
    rw [h, decide_eq_true (Nat.le_refl _), Bool.true_and] at hbit
    revert hbit
    cases (replaceByte x k v).getLsbD (8 * k + 8) <;> simp
  · intro h
    apply BitVec.eq_of_getLsbD_eq
    intro i hi
    rw [getLsbD_setByte x v (by omega) hi, h, Bool.and_false, Bool.xor_false]

theorem SET_RESOURCE_CORE_VALUE_eq_iff (x : BitVec 32) (v : BitVec 8) :
    SET_RESOURCE_CORE_VALUE x (v.setWidth 32) = replaceByte x 0 v ↔ (byteAt x 0).toNat < 128 :=
  setByte_eq_iff x v (k := 0) (by omega)

theorem SET_RESOURCE_CLUSTER_VALUE_eq_iff (x : BitVec 32) (v : BitVec 8) :
    SET_RESOURCE_CLUSTER_VALUE x (v.setWidth 32) = replaceByte x 1 v ↔ (byteAt x 1).toNat < 128 :=
  setByte_eq_iff x v (k := 1) (by omega)

theorem SET_RESOURCE_MPAM_VALUE_eq_iff (x : BitVec 32) (v : BitVec 8) :
    SET_RESOURCE_MPAM_VALUE x (v.setWidth 32) = replaceByte x 2 v ↔ (byteAt x 2).toNat < 128 :=
  setByte_eq_iff x v (k := 2) (by omega)

/-! ## Calls -/

/-- A call of a setter of the server, or of a client's macro. -/
inductive InfoUpdate where
  | setCoreValue (core : BitVec 8)
  | setClusterValue (cluster : BitVec 8)
  | SET_RESOURCE_CORE_VALUE (newValue : BitVec 8)
  | SET_RESOURCE_CLUSTER_VALUE (newValue : BitVec 8)
  | SET_RESOURCE_MPAM_VALUE (newValue : BitVec 8)
  deriving DecidableEq, Repr

namespace InfoUpdate

def apply (r : Resource) : InfoUpdate → Resource
  | .setCoreValue core => r.setCoreValue core.toNat
  | .setClusterValue cluster => r.setClusterValue cluster.toNat
  | .SET_RESOURCE_CORE_VALUE newValue =>
    { r with
      mResInfo := ResourceTuner.SET_RESOURCE_CORE_VALUE r.mResInfo (newValue.setWidth 32) }
  | .SET_RESOURCE_CLUSTER_VALUE newValue =>
    { r with
      mResInfo := ResourceTuner.SET_RESOURCE_CLUSTER_VALUE r.mResInfo (newValue.setWidth 32) }
  | .SET_RESOURCE_MPAM_VALUE newValue =>
    { r with
      mResInfo := ResourceTuner.SET_RESOURCE_MPAM_VALUE r.mResInfo (newValue.setWidth 32) }

/-- The byte that is set. -/
def byte : InfoUpdate → Nat
  | .setCoreValue _ | .SET_RESOURCE_CORE_VALUE _ => 0
  | .setClusterValue _ | .SET_RESOURCE_CLUSTER_VALUE _ => 1
  | .SET_RESOURCE_MPAM_VALUE _ => 2

def value : InfoUpdate → BitVec 8
  | .setCoreValue x | .setClusterValue x | .SET_RESOURCE_CORE_VALUE x
  | .SET_RESOURCE_CLUSTER_VALUE x | .SET_RESOURCE_MPAM_VALUE x => x

def isMacro : InfoUpdate → Bool
  | .setCoreValue _ | .setClusterValue _ => false
  | _ => true

def write (update : InfoUpdate) : Nat × BitVec 8 := (update.byte, update.value)

/-- The call gets along with a byte that has this value. -/
def Takes (update : InfoUpdate) (old : BitVec 8) : Prop := update.isMacro = true → old.toNat < 128

theorem byte_lt (update : InfoUpdate) : update.byte < 4 := by
  cases update <;> simp [byte]

end InfoUpdate

namespace Resource

variable (r : Resource) (v : BitVec 8)

theorem ofInt_toNat_byte : BitVec.ofInt 32 (v.toNat : Int) = v.setWidth 32 := by
  rw [BitVec.ofInt_natCast, BitVec.ofNat_toNat]

/-- A setter of the server replaces its byte. -/
theorem mResInfo_setCoreValue :
    (r.setCoreValue v.toNat).mResInfo = replaceByte r.mResInfo 0 v := by
  apply BitVec.eq_of_getLsbD_eq
  intro i hi
  rw [r.getLsbD_setCoreValue (by omega) (by omega), getLsbD_replaceByte _ _ _ hi, ofInt_toNat_byte,
    BitVec.getLsbD_setWidth]
  simp [hi]

theorem mResInfo_setClusterValue :
    (r.setClusterValue v.toNat).mResInfo = replaceByte r.mResInfo 1 v := by
  apply BitVec.eq_of_getLsbD_eq
  intro i hi
  rw [r.getLsbD_setClusterValue (by omega) (by omega), getLsbD_replaceByte _ _ _ hi,
    ofInt_toNat_byte, BitVec.getLsbD_setWidth]
  simp [show i - 8 < 32 by omega]

end Resource

theorem InfoUpdate.mResInfo_apply_iff (r : Resource) (update : InfoUpdate) :
    (update.apply r).mResInfo = replaceByte r.mResInfo update.byte update.value ↔
      update.Takes (byteAt r.mResInfo update.byte) := by
  -- a setter replaces its byte whatever the old value is
  have hsetter : ∀ {old : BitVec 8}, false = true → old.toNat < 128 := by simp
  cases update with
  | setCoreValue core => exact iff_of_true (r.mResInfo_setCoreValue core) hsetter
  | setClusterValue cluster => exact iff_of_true (r.mResInfo_setClusterValue cluster) hsetter
  | SET_RESOURCE_CORE_VALUE newValue =>
    exact (SET_RESOURCE_CORE_VALUE_eq_iff _ newValue).trans ⟨fun h _ => h, fun h => h rfl⟩
  | SET_RESOURCE_CLUSTER_VALUE newValue =>
    exact (SET_RESOURCE_CLUSTER_VALUE_eq_iff _ newValue).trans ⟨fun h _ => h, fun h => h rfl⟩
  | SET_RESOURCE_MPAM_VALUE newValue =>
    exact (SET_RESOURCE_MPAM_VALUE_eq_iff _ newValue).trans ⟨fun h _ => h, fun h => h rfl⟩

/-! ## Sequences of calls -/

namespace Resource

def updateAll (r : Resource) (updates : List InfoUpdate) : Resource :=
  updates.foldl InfoUpdate.apply r

/-- At every point of the sequence each byte of the word holds the last value set for it. -/
def HoldsLast (r : Resource) (updates : List InfoUpdate) : Prop :=
  ∀ earlier later, updates = earlier ++ later → ∀ k < 4,
    byteAt (r.updateAll earlier).mResInfo k =
      lastWritten k (byteAt r.mResInfo k) (earlier.map InfoUpdate.write)

/-- Every macro finds a value below 128, set last or there from the start. -/
def FindsLow (r : Resource) (updates : List InfoUpdate) : Prop :=
  ∀ earlier update later, updates = earlier ++ update :: later →
    update.Takes (lastWritten update.byte (byteAt r.mResInfo update.byte)
      (earlier.map InfoUpdate.write))

theorem updateAll_concat (r : Resource) (updates : List InfoUpdate) (update : InfoUpdate) :
    r.updateAll (updates ++ [update]) = update.apply (r.updateAll updates) := by
  rw [updateAll, List.foldl_append]
  rfl

theorem holdsLast_iff_replaceAll {r : Resource} {updates : List InfoUpdate} :
    r.HoldsLast updates ↔ ∀ earlier later, updates = earlier ++ later →
      (r.updateAll earlier).mResInfo = replaceAll r.mResInfo (earlier.map InfoUpdate.write) := by
  simp only [HoldsLast, eq_replaceAll_iff (n := 4) rfl]

/-- One more call, on a word that holds what was set last. -/
theorem updateAll_concat_iff {r : Resource} {updates : List InfoUpdate}
    (h : (r.updateAll updates).mResInfo = replaceAll r.mResInfo (updates.map InfoUpdate.write))
    (update : InfoUpdate) :
    (r.updateAll (updates ++ [update])).mResInfo =
        replaceAll r.mResInfo ((updates ++ [update]).map InfoUpdate.write) ↔
      update.Takes (lastWritten update.byte (byteAt r.mResInfo update.byte)
        (updates.map InfoUpdate.write)) := by
  have hbyte := InfoUpdate.byte_lt update
  rw [updateAll_concat, List.map_append, List.map_singleton, replaceAll_concat, ← h,
    ← byteAt_replaceAll r.mResInfo (by omega), ← h]
  exact update.mResInfo_apply_iff (r.updateAll updates)

theorem holdsLast_iff (r : Resource) (updates : List InfoUpdate) :
    r.HoldsLast updates ↔ r.FindsLow updates := by
  rw [holdsLast_iff_replaceAll]
  constructor
  · rintro h earlier update later rfl
    rw [← updateAll_concat_iff (h earlier (update :: later) rfl)]
    exact h (earlier ++ [update]) later (by simp)
  · intro h earlier
    induction earlier using List.reverseRecOn with
    | nil => exact fun _ _ => rfl
    | append_singleton earlier update ih =>
      rintro later rfl
      rw [updateAll_concat_iff (ih (update :: later) (by simp))]
      exact h earlier update later (by simp)

end Resource

/-- **The info word.**  The setters replace their byte on every word.  A macro makes the same word
exactly when the old byte is below 128, and a sequence of calls sets its bytes independently exactly
when every macro in it finds such a byte. -/
theorem resourceInfo_iff (r : Resource) (v : BitVec 8) (updates : List InfoUpdate) :
    ((r.setCoreValue v.toNat).mResInfo = replaceByte r.mResInfo 0 v ∧
        (r.setCoreValue v.toNat).getCoreValue = v.toNat) ∧
      ((r.setClusterValue v.toNat).mResInfo = replaceByte r.mResInfo 1 v ∧
        (r.setClusterValue v.toNat).getClusterValue = v.toNat) ∧
      (SET_RESOURCE_CORE_VALUE r.mResInfo (v.setWidth 32) = (r.setCoreValue v.toNat).mResInfo ↔
        (byteAt r.mResInfo 0).toNat < 128) ∧
      (SET_RESOURCE_CLUSTER_VALUE r.mResInfo (v.setWidth 32) = (r.setClusterValue v.toNat).mResInfo ↔
        (byteAt r.mResInfo 1).toNat < 128) ∧
      (SET_RESOURCE_MPAM_VALUE r.mResInfo (v.setWidth 32) = replaceByte r.mResInfo 2 v ↔
        (byteAt r.mResInfo 2).toNat < 128) ∧
      (r.HoldsLast updates ↔ r.FindsLow updates) := by
  refine ⟨⟨r.mResInfo_setCoreValue v, r.getCoreValue_setCoreValue (by omega) (by omega)⟩,
    ⟨r.mResInfo_setClusterValue v, r.getClusterValue_setClusterValue (by omega) (by omega)⟩,
    ?_, ?_, SET_RESOURCE_MPAM_VALUE_eq_iff r.mResInfo v, r.holdsLast_iff updates⟩
  · rw [r.mResInfo_setCoreValue v]
    exact SET_RESOURCE_CORE_VALUE_eq_iff r.mResInfo v
  · rw [r.mResInfo_setClusterValue v]
    exact SET_RESOURCE_CLUSTER_VALUE_eq_iff r.mResInfo v

/-- The core `0x80` is replaced by a client: the cluster, the MPAM value and the byte above them are
all turned over. -/
theorem macro_turns_upper_bytes_over :
    SET_RESOURCE_CORE_VALUE 0x80 1 = 0xffffff01 ∧
      ((Resource.ofValues 0 0x80 0 []).setCoreValue 1).mResInfo = 1 ∧
      ¬ (Resource.ofValues 0 0x80 0 []).HoldsLast [.SET_RESOURCE_CORE_VALUE 1] := by
  refine ⟨by decide, by decide, fun h => ?_⟩
  have hcluster := h [.SET_RESOURCE_CORE_VALUE 1] [] rfl 1 (by decide)
  revert hcluster
  decide

end ResourceTuner
