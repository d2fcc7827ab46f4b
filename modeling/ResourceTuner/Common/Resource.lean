import ResourceTuner.Common.Utils

/-!
# Resources

`modula/Common/Resource.{h,cpp}`: one entry of a tuning request.  The info word packs a core in
its lowest byte and a cluster in the next; the accessors work on the 32-bit word itself, so the
bit-level behaviour of the two setters (an XOR that clears the old byte, then an OR) is kept.
-/

namespace ResourceTuner

/-! ## Bytes of a word -/

theorem getLsbD_byteMask (i : Nat) : (0xff : BitVec 32).getLsbD i = decide (i < 8) := by
  by_cases h : i < 32
  · have hall : ∀ j < 32, (0xff : BitVec 32).getLsbD j = decide (j < 8) := by decide
    exact hall i h
  · rw [BitVec.getLsbD_of_ge _ _ (by omega)]
    symm
    simp only [decide_eq_false_iff_not]
    omega

theorem getLsbD_of_byte {b : BitVec 32} (hb : b.toNat < 256) {i : Nat} (hi : 8 ≤ i) :
    b.getLsbD i = false := by
  rw [BitVec.getLsbD]
  apply Nat.testBit_lt_two_pow
  calc b.toNat < 2 ^ 8 := hb
    _ ≤ 2 ^ i := Nat.pow_le_pow_right (by omega) hi

/-- Clear the lowest byte by an XOR with itself, then OR a new byte in. -/
theorem getLsbD_replace_byte0 (x : BitVec 32) {b : BitVec 32} (hb : b.toNat < 256) (i : Nat) :
    ((x ^^^ (x &&& 0xff)) ||| b).getLsbD i = if i < 8 then b.getLsbD i else x.getLsbD i := by
  simp only [BitVec.getLsbD_or, BitVec.getLsbD_xor, BitVec.getLsbD_and, getLsbD_byteMask]
  by_cases h : i < 8
  · simp [h]
  · simp [h, getLsbD_of_byte hb (Nat.not_lt.mp h)]

/-- The same one byte higher. -/
theorem getLsbD_replace_byte1 (x : BitVec 32) {b : BitVec 32} (hb : b.toNat < 256) (i : Nat) :
    ((x ^^^ (((x >>> 8) &&& 0xff) <<< 8)) ||| (b <<< 8)).getLsbD i =
      if 8 ≤ i ∧ i < 16 then b.getLsbD (i - 8) else x.getLsbD i := by
  simp only [BitVec.getLsbD_or, BitVec.getLsbD_xor, BitVec.getLsbD_and, getLsbD_byteMask,
    BitVec.getLsbD_shiftLeft, BitVec.getLsbD_ushiftRight]
  by_cases h8 : i < 8
  · have h : ¬ (8 ≤ i ∧ i < 16) := by omega
    simp [h8, h]
  · rw [show 8 + (i - 8) = i by omega]
    by_cases h16 : i < 16
    · have h : 8 ≤ i ∧ i < 16 := by omega
      simp [h8, h, show i < 32 by omega, show i - 8 < 8 by omega]
    · have h : ¬ (8 ≤ i ∧ i < 16) := by omega
      simp [h8, h, show ¬ i - 8 < 8 by omega, getLsbD_of_byte hb (show 8 ≤ i - 8 by omega)]

theorem toNat_ofInt_byte {c : Int} (h0 : 0 ≤ c) (h256 : c < 256) :
    (BitVec.ofInt 32 c).toNat = c.toNat := by
  rw [BitVec.toNat_ofInt]
  omega

/-! ## The class -/

/-- `class Resource`.  The union of a two-element array and a heap array is one list; the field
`values_length` says that it has as many elements as `mNumValues` promises (none when the count
read from the wire is negative). -/
structure Resource where
  mResCode : BitVec 32
  mResInfo : BitVec 32
  mOptionalInfo : Int
  mNumValues : Int
  mResValue : List Int
  values_length : mResValue.length = mNumValues.toNat
  deriving DecidableEq, Repr

namespace Resource

/-- A resource built from its values. -/
def ofValues (code info : BitVec 32) (optionalInfo : Int) (values : List Int) : Resource where
  mResCode := code
  mResInfo := info
  mOptionalInfo := optionalInfo
  mNumValues := values.length
  mResValue := values
  values_length := rfl

def getCoreValue (r : Resource) : Int := ((r.mResInfo &&& 0xff).toNat : Int)

def getClusterValue (r : Resource) : Int := (((r.mResInfo >>> 8) &&& 0xff).toNat : Int)

def getValuesCount (r : Resource) : Int := r.mNumValues

/-- Out of range reads answer `-1`. -/
def getValueAt (r : Resource) (index : Int) : Int :=
  if index < 0 ∨ index ≥ r.mNumValues then -1 else r.mResValue.getD index.toNat 0

def setCoreValue (r : Resource) (core : Int) : Resource :=
  { r with mResInfo := (r.mResInfo ^^^ BitVec.ofInt 32 r.getCoreValue) ||| BitVec.ofInt 32 core }

def setClusterValue (r : Resource) (cluster : Int) : Resource :=
  { r with
    mResInfo := (r.mResInfo ^^^ (BitVec.ofInt 32 r.getClusterValue <<< 8)) |||
      (BitVec.ofInt 32 cluster <<< 8) }

/-- `setNumValues`.  The values are not set yet; nothing reads them before. -/
def setNumValues (r : Resource) (numValues : Int) : Resource :=
  { r with
    mNumValues := numValues
    mResValue := List.replicate numValues.toNat 0
    values_length := List.length_replicate }

/-- `setValueAt`; out of range writes are refused with `RC_BAD_ARG`. -/
def setValueAt (r : Resource) (index value : Int) : Resource :=
  if index < 0 ∨ index ≥ r.mNumValues then r
  else
    { r with
      mResValue := r.mResValue.set index.toNat value
      values_length := by rw [List.length_set, r.values_length] }

/-- Writing one value of a resource. -/
theorem setValueAt_ofValues (code info : BitVec 32) (optionalInfo : Int) (before after : List Int)
    (value arg : Int) :
    (ofValues code info optionalInfo (before ++ value :: after)).setValueAt
        before.length arg =
      ofValues code info optionalInfo (before ++ arg :: after) := by
  have hrange : ¬ ((before.length : Int) < 0 ∨
      (before.length : Int) ≥ ((before ++ value :: after).length : Int)) := by
    rw [List.length_append, List.length_cons]
    omega
  simp only [setValueAt, ofValues, if_neg hrange, Int.toNat_natCast,
    List.set_append_right _ _ (le_refl _), Nat.sub_self, List.set_cons_zero]
  congr 1
  simp

theorem getValueAt_ofValues (code info : BitVec 32) (optionalInfo : Int) {values : List Int}
    {j : Nat} {value : Int} (h : values[j]? = some value) :
    (ofValues code info optionalInfo values).getValueAt j = value := by
  have hj : j < values.length := (List.getElem?_eq_some_iff.mp h).1
  have hrange : ¬ ((j : Int) < 0 ∨
      (j : Int) ≥ (ofValues code info optionalInfo values).mNumValues) := by
    show ¬ ((j : Int) < 0 ∨ (j : Int) ≥ (values.length : Int))
    omega
  rw [getValueAt, if_neg hrange]
  show values.getD j 0 = value
  rw [List.getD_eq_getElem?_getD, h, Option.getD_some]

/-! ### The setters change their own byte

For a byte value each setter writes its byte and nothing else.  The rest of the info word is
read as the other byte and the upper half. -/

section Bytes

variable (r : Resource) {c : Int}

theorem getLsbD_setCoreValue (h0 : 0 ≤ c) (h256 : c < 256) (i : Nat) :
    (r.setCoreValue c).mResInfo.getLsbD i =
      if i < 8 then (BitVec.ofInt 32 c).getLsbD i else r.mResInfo.getLsbD i := by
  have hb : (BitVec.ofInt 32 c).toNat < 256 := by
    rw [toNat_ofInt_byte h0 h256]
    omega
  have hcore : BitVec.ofInt 32 r.getCoreValue = r.mResInfo &&& 0xff := by
    rw [getCoreValue, BitVec.ofInt_natCast, BitVec.ofNat_toNat, BitVec.setWidth_eq]
  rw [setCoreValue, hcore]
  exact getLsbD_replace_byte0 r.mResInfo hb i

theorem getLsbD_setClusterValue (h0 : 0 ≤ c) (h256 : c < 256) (i : Nat) :
    (r.setClusterValue c).mResInfo.getLsbD i =
      if 8 ≤ i ∧ i < 16 then (BitVec.ofInt 32 c).getLsbD (i - 8) else r.mResInfo.getLsbD i := by
  have hb : (BitVec.ofInt 32 c).toNat < 256 := by
    rw [toNat_ofInt_byte h0 h256]
    omega
  have hcluster : BitVec.ofInt 32 r.getClusterValue = (r.mResInfo >>> 8) &&& 0xff := by
    rw [getClusterValue, BitVec.ofInt_natCast, BitVec.ofNat_toNat, BitVec.setWidth_eq]
  rw [setClusterValue, hcluster]
  exact getLsbD_replace_byte1 r.mResInfo hb i

/-- A word whose lowest byte is `c`'s. -/
theorem toNat_byte_eq {x : BitVec 32} (h0 : 0 ≤ c) (h256 : c < 256)
    (h : ∀ i < 8, x.getLsbD i = (BitVec.ofInt 32 c).getLsbD i) :
    ((x &&& 0xff).toNat : Int) = c := by
  have hb : (BitVec.ofInt 32 c).toNat < 256 := by
    rw [toNat_ofInt_byte h0 h256]
    omega
  have heq : x &&& 0xff = BitVec.ofInt 32 c := by
    apply BitVec.eq_of_getLsbD_eq
    intro i _
    rw [BitVec.getLsbD_and, getLsbD_byteMask]
    by_cases hi : i < 8
    · simp [hi, h i hi]
    · simp [hi, getLsbD_of_byte hb (Nat.not_lt.mp hi)]
  rw [heq, toNat_ofInt_byte h0 h256, Int.toNat_of_nonneg h0]

theorem getCoreValue_setCoreValue (h0 : 0 ≤ c) (h256 : c < 256) :
    (r.setCoreValue c).getCoreValue = c := by
  apply toNat_byte_eq h0 h256
  intro i hi
  rw [r.getLsbD_setCoreValue h0 h256, if_pos hi]

theorem getClusterValue_setClusterValue (h0 : 0 ≤ c) (h256 : c < 256) :
    (r.setClusterValue c).getClusterValue = c := by
  apply toNat_byte_eq h0 h256
  intro i hi
  rw [BitVec.getLsbD_ushiftRight, r.getLsbD_setClusterValue h0 h256, if_pos (by omega),
    Nat.add_sub_cancel_left]

theorem getCoreValue_setClusterValue (h0 : 0 ≤ c) (h256 : c < 256) :
    (r.setClusterValue c).getCoreValue = r.getCoreValue := by
  have heq : (r.setClusterValue c).mResInfo &&& 0xff = r.mResInfo &&& 0xff := by
    apply BitVec.eq_of_getLsbD_eq
    intro i _
    rw [BitVec.getLsbD_and, BitVec.getLsbD_and, getLsbD_byteMask]
    by_cases hi : i < 8
    · rw [r.getLsbD_setClusterValue h0 h256, if_neg (by omega)]
    · simp [hi]
  rw [getCoreValue, heq, getCoreValue]

theorem upperHalf_setCoreValue (h0 : 0 ≤ c) (h256 : c < 256) :
    (r.setCoreValue c).mResInfo >>> 16 = r.mResInfo >>> 16 := by
  apply BitVec.eq_of_getLsbD_eq
  intro i _
  rw [BitVec.getLsbD_ushiftRight, BitVec.getLsbD_ushiftRight, r.getLsbD_setCoreValue h0 h256,
    if_neg (by omega)]

theorem upperHalf_setClusterValue (h0 : 0 ≤ c) (h256 : c < 256) :
    (r.setClusterValue c).mResInfo >>> 16 = r.mResInfo >>> 16 := by
  apply BitVec.eq_of_getLsbD_eq
  intro i _
  rw [BitVec.getLsbD_ushiftRight, BitVec.getLsbD_ushiftRight, r.getLsbD_setClusterValue h0 h256,
    if_neg (by omega)]

end Bytes

/-! ### A cluster id of any size

Only the lowest byte of the id is read back; the rest goes to the upper half of the word. -/

section AnyCluster

variable (r : Resource) (c : Int)

/-- The lowest byte of a word, as a number. -/
theorem toNat_lowByte (b : BitVec 32) : (b &&& 0xff).toNat = b.toNat % 256 := by
  rw [BitVec.toNat_and]
  exact Nat.and_two_pow_sub_one_eq_mod b.toNat 8

theorem getLsbD_setClusterValue_byte1 {i : Nat} (hi : i < 8) :
    (r.setClusterValue c).mResInfo.getLsbD (8 + i) = (BitVec.ofInt 32 c).getLsbD i := by
  have hcluster : BitVec.ofInt 32 r.getClusterValue = (r.mResInfo >>> 8) &&& 0xff := by
    rw [getClusterValue, BitVec.ofInt_natCast, BitVec.ofNat_toNat, BitVec.setWidth_eq]
  rw [setClusterValue, hcluster]
  simp only [BitVec.getLsbD_or, BitVec.getLsbD_xor, BitVec.getLsbD_and, getLsbD_byteMask,
    BitVec.getLsbD_shiftLeft, BitVec.getLsbD_ushiftRight, Nat.add_sub_cancel_left]
  simp [hi, show 8 + i < 32 by omega, show ¬ 8 + i < 8 by omega]

theorem getClusterValue_setClusterValue_emod : (r.setClusterValue c).getClusterValue = c % 256 := by
  have hbyte : ((r.setClusterValue c).mResInfo >>> 8) &&& 0xff = BitVec.ofInt 32 c &&& 0xff := by
    apply BitVec.eq_of_getLsbD_eq
    intro i _
    rw [BitVec.getLsbD_and, BitVec.getLsbD_and, getLsbD_byteMask, BitVec.getLsbD_ushiftRight]
    by_cases hi : i < 8
    · rw [r.getLsbD_setClusterValue_byte1 c hi]
    · simp [hi]
  rw [getClusterValue, hbyte, toNat_lowByte, BitVec.toNat_ofInt]
  omega

theorem getCoreValue_setClusterValue_any :
    (r.setClusterValue c).getCoreValue = r.getCoreValue := by
  have hbyte : (r.setClusterValue c).mResInfo &&& 0xff = r.mResInfo &&& 0xff := by
    apply BitVec.eq_of_getLsbD_eq
    intro i _
    rw [BitVec.getLsbD_and, BitVec.getLsbD_and, getLsbD_byteMask]
    by_cases hi : i < 8
    · rw [setClusterValue]
      simp [BitVec.getLsbD_or, BitVec.getLsbD_xor, BitVec.getLsbD_shiftLeft, hi]
    · simp [hi]
  rw [getCoreValue, hbyte, getCoreValue]

end AnyCluster

end Resource

/-- `ResIterable`, the list node that carries a resource.  `addr` is the node's address: the
request that owns it and its position there.  Comparing two nodes compares their addresses, so
equality of nodes stands for the pointer comparisons of the source. -/
structure ResIterable where
  addr : Nat × Nat
  mData : Option Resource
  deriving DecidableEq, Repr

end ResourceTuner
