import ResourceTuner.Common.Request

/-!
# The fields of the properties word

`modula/Common/Message.cpp` keeps three fields in the signed word `mProperties`: the priority in its
lowest byte, the display modes in the second one and the order in which an untune is processed in
the upper half.  Every setter shifts a sign-extended byte to its field and ORs it in.  So a setter
adds bits to its field where it should replace them, and a negative argument sets every bit above.

* `Field` — the three fields;
* `PropertyCall` — a call of a setter;
* `Independent` — what independent registers would give after a sequence of calls;
* `StaysInside` — a call adds no bit above its field that is not there already.
-/

namespace ResourceTuner

/-- The fields of `mProperties`. -/
inductive Field where
  | priority
  | modes
  | untuneOrder
  deriving DecidableEq, Repr

namespace Field

/-- The lowest bit. -/
def first : Field → Nat
  | .priority => 0
  | .modes => 8
  | .untuneOrder => 16

def width : Field → Nat
  | .priority => 8
  | .modes => 8
  | .untuneOrder => 16

/-- The fields do not overlap. -/
theorem first_add_width_le {f g : Field} (h : f.first < g.first) : f.first + f.width ≤ g.first := by
  revert h
  cases f <;> cases g <;> decide

/-- Each begins at least a byte behind the one before. -/
theorem first_add_byte_le {f g : Field} (h : f.first < g.first) : f.first + 8 ≤ g.first := by
  revert h
  cases f <;> cases g <;> decide

theorem first_add_width (f : Field) : f.first + f.width ≤ 32 := by
  cases f <;> decide

/-- The first bits of two fields differ. -/
theorem lt_or_lt {f g : Field} (h : f ≠ g) : f.first < g.first ∨ g.first < f.first := by
  revert h
  cases f <;> cases g <;> decide

end Field

namespace Message

/-- What a field holds. -/
def field (m : Message) (f : Field) : BitVec f.width := m.mProperties.extractLsb' f.first f.width

/-- The lowest byte. -/
def priorityByte (m : Message) : BitVec 8 := m.field .priority

/-- The second byte. -/
def modesByte (m : Message) : BitVec 8 := m.field .modes

/-- `setBackgroundProcessing`.  It writes where `addProcessingMode` does. -/
def setBackgroundProcessing (m : Message) (backgroundProcessing : BitVec 8) : Message :=
  { m with mProperties := m.mProperties ||| (backgroundProcessing.signExtend 32 <<< 8) }

/-- `setUntuneProcessingOrder`. -/
def setUntuneProcessingOrder (m : Message) (untuneProcessingOrder : BitVec 8) : Message :=
  { m with mProperties := m.mProperties ||| (untuneProcessingOrder.signExtend 32 <<< 16) }

/-- `getPriority` is the first byte as a signed number. -/
theorem getPriority_eq_field (m : Message) : m.getPriority = m.priorityByte.toInt := by
  rw [getPriority_eq, priorityByte, field]
  simp [Field.first, Field.width]

/-- `getProcessingModes` is the second one. -/
theorem getProcessingModes_eq_field (m : Message) : m.getProcessingModes = m.modesByte := by
  apply BitVec.eq_of_getLsbD_eq
  intro i hi
  simp only [getProcessingModes, modesByte, field, Field.first, Field.width, BitVec.getLsbD_setWidth,
    BitVec.getLsbD_and, BitVec.getLsbD_sshiftRight, getLsbD_byteMask, BitVec.getLsbD_extractLsb']
  simp [hi, show ¬ 32 ≤ i by omega, show 8 + i < 32 by omega]

end Message

/-- A call of a setter of the word. -/
inductive PropertyCall where
  | setPriority (priority : BitVec 8)
  | addProcessingMode (processingMode : BitVec 8)
  | setBackgroundProcessing (backgroundProcessing : BitVec 8)
  | setUntuneProcessingOrder (untuneProcessingOrder : BitVec 8)
  deriving DecidableEq, Repr

namespace PropertyCall

def apply (m : Message) : PropertyCall → Message
  | .setPriority priority => m.setPriority priority.toInt
  | .addProcessingMode mode => m.addProcessingMode mode
  | .setBackgroundProcessing mode => m.setBackgroundProcessing mode
  | .setUntuneProcessingOrder order => m.setUntuneProcessingOrder order

/-- The field that a setter is for. -/
def field : PropertyCall → Field
  | .setPriority _ => .priority
  | .addProcessingMode _ => .modes
  | .setBackgroundProcessing _ => .modes
  | .setUntuneProcessingOrder _ => .untuneOrder

/-- The byte that a setter is given. -/
def argument : PropertyCall → BitVec 8
  | .setPriority x | .addProcessingMode x | .setBackgroundProcessing x
  | .setUntuneProcessingOrder x => x

/-- The bits that a call sets. -/
def bits (call : PropertyCall) : BitVec 32 := call.argument.signExtend 32 <<< call.field.first

/-- Every setter ORs the sign-extended byte into the word. -/
theorem mProperties_apply (m : Message) (call : PropertyCall) :
    (call.apply m).mProperties = m.mProperties ||| call.bits := by
  cases call with
  | setPriority priority =>
    simp [apply, Message.setPriority, bits, argument, field, Field.first]
  | addProcessingMode mode =>
    apply BitVec.eq_of_getLsbD_eq
    intro i hi
    simp only [apply, Message.addProcessingMode, bits, argument, field, Field.first,
      BitVec.getLsbD_or, BitVec.getLsbD_shiftLeft, BitVec.getLsbD_sshiftRight]
    -- the word is ORed with its own upper bits, which changes nothing
    by_cases hlow : i < 8
    · simp [hlow]
    · simp only [show ¬ 32 ≤ i - 8 by omega, show 8 + (i - 8) = i by omega, hi, hlow, decide_true,
        decide_false, Bool.not_false, Bool.true_and, if_true]
      rw [← Bool.or_assoc, Bool.or_self]
  | setBackgroundProcessing mode => rfl
  | setUntuneProcessingOrder order => rfl

/-- A call does to each field what it does to the whole: it sets the bits it has there. -/
theorem field_apply (m : Message) (call : PropertyCall) (f : Field) :
    (call.apply m).field f = m.field f ||| call.bits.extractLsb' f.first f.width := by
  simp only [Message.field, mProperties_apply, BitVec.extractLsb'_or]

/-! ## The bits of a call by field -/

/-- Copies of the sign bit of a byte. -/
def signBits (x : BitVec 8) (w : Nat) : BitVec w := if x.msb then BitVec.allOnes w else 0#w

section Written

variable {first width k : Nat} {x : BitVec 8}

/-- Below the place it is shifted to a number has no bits. -/
theorem extract_below (h : first + width ≤ k) (y : BitVec 32) :
    (y <<< k).extractLsb' first width = (0 : BitVec width) := by
  apply BitVec.eq_of_getLsbD_eq
  intro i hi
  simp [hi, show first + i < k by omega]

/-- At that place it has its own. -/
theorem extract_at (h : k + width ≤ 32) :
    (x.signExtend 32 <<< k).extractLsb' k width = x.signExtend width := by
  apply BitVec.eq_of_getLsbD_eq
  intro i hi
  rw [BitVec.getLsbD_extractLsb', BitVec.getLsbD_shiftLeft, show k + i - k = i by omega]
  rw [BitVec.getLsbD_signExtend, BitVec.getLsbD_signExtend]
  simp [hi, show k + i < 32 by omega, show i < 32 by omega]

/-- Above its byte it has copies of its sign. -/
theorem extract_above (habove : k + 8 ≤ first) (h : first + width ≤ 32) :
    (x.signExtend 32 <<< k).extractLsb' first width = signBits x width := by
  apply BitVec.eq_of_getLsbD_eq
  intro i hi
  have hsign : (signBits x width).getLsbD i = x.msb := by
    unfold signBits
    cases x.msb <;> simp [hi]
  rw [hsign, BitVec.getLsbD_extractLsb', BitVec.getLsbD_shiftLeft, BitVec.getLsbD_signExtend,
    if_neg (by omega)]
  simp [hi, show first + i < 32 by omega, show ¬ first + i < k by omega,
    show first + i - k < 32 by omega]

end Written

/-- A field below the one of the call gets nothing. -/
theorem bits_below {call : PropertyCall} {f : Field} (h : f.first < call.field.first) :
    call.bits.extractLsb' f.first f.width = 0#f.width :=
  extract_below (Field.first_add_width_le h) _

/-- The field of the call gets the argument. -/
theorem bits_at (call : PropertyCall) :
    call.bits.extractLsb' call.field.first call.field.width =
      call.argument.signExtend call.field.width :=
  extract_at (Field.first_add_width _)

/-- A field above it gets the sign of the argument. -/
theorem bits_above {call : PropertyCall} {f : Field} (h : call.field.first < f.first) :
    call.bits.extractLsb' f.first f.width = signBits call.argument f.width :=
  extract_above (Field.first_add_byte_le h) (Field.first_add_width f)

/-! ## One call -/

/-- What the fields hold. -/
abbrev Registers := ∀ f : Field, BitVec f.width

/-- A negative argument finds every bit above its field set already. -/
def StaysInside (r : Registers) (call : PropertyCall) : Prop :=
  call.argument.msb = true → ∀ f : Field, call.field.first < f.first → r f = BitVec.allOnes f.width

/-- A call changes no field but its own exactly when it stays inside it. -/
theorem field_apply_eq_iff (m : Message) (call : PropertyCall) :
    (∀ f, f ≠ call.field → (call.apply m).field f = m.field f) ↔ StaysInside m.field call := by
  constructor
  · intro h hsign f habove
    have hne : f ≠ call.field := by
      rintro rfl
      exact Nat.lt_irrefl _ habove
    have hkept := h f hne
    rw [field_apply, bits_above habove, signBits, if_pos hsign, BitVec.or_allOnes] at hkept
    exact hkept.symm
  · intro h f hne
    rw [field_apply]
    cases Field.lt_or_lt hne with
    | inl hbelow => rw [bits_below hbelow, BitVec.or_zero]
    | inr habove =>
      rw [bits_above habove, signBits]
      split
      · rename_i hsign
        rw [h hsign f habove, BitVec.or_allOnes]
      · exact BitVec.or_zero

end PropertyCall

/-! ## A sequence of calls -/

open PropertyCall

namespace Message

def applyAll (m : Message) (calls : List PropertyCall) : Message :=
  calls.foldl (fun m call => call.apply m) m

/-- No call changes a field other than its own. -/
def OwnFields (m : Message) (calls : List PropertyCall) : Prop :=
  ∀ earlier call later, calls = earlier ++ call :: later →
    ∀ f, f ≠ call.field → (call.apply (m.applyAll earlier)).field f = (m.applyAll earlier).field f

theorem ownFields_cons {m : Message} {call : PropertyCall} {calls : List PropertyCall} :
    OwnFields m (call :: calls) ↔ StaysInside m.field call ∧ OwnFields (call.apply m) calls := by
  constructor
  · intro h
    refine ⟨(field_apply_eq_iff m call).mp (h [] call calls rfl), ?_⟩
    intro earlier next later heq
    exact h (call :: earlier) next later (by rw [heq]; rfl)
  · rintro ⟨hcall, hcalls⟩ earlier next later heq
    cases earlier with
    | nil =>
      cases heq
      exact (field_apply_eq_iff m call).mpr hcall
    | cons first earlier =>
      cases heq
      exact hcalls earlier next later rfl

end Message

/-- The priorities that are set. -/
def priorities (calls : List PropertyCall) : List (BitVec 8) :=
  calls.filterMap fun
    | .setPriority priority => some priority
    | _ => none

/-- The modes that are added. -/
def addedModes (calls : List PropertyCall) : List (BitVec 8) :=
  calls.filterMap fun
    | .addProcessingMode mode => some mode
    | _ => none

/-- The arguments of `setBackgroundProcessing`. -/
def backgrounds (calls : List PropertyCall) : List (BitVec 8) :=
  calls.filterMap fun
    | .setBackgroundProcessing mode => some mode
    | _ => none

def orAll (bytes : List (BitVec 8)) : BitVec 8 := bytes.foldr (· ||| ·) 0

/-- The priority that was set last, or the one the word came with. -/
def lastPriority (m : Message) (calls : List PropertyCall) : BitVec 8 :=
  (priorities calls).getLastD m.priorityByte

/-- What independent registers give after the calls. -/
structure Independent (m : Message) (calls : List PropertyCall) : Prop where
  priority : (m.applyAll calls).getPriority = (lastPriority m calls).toInt
  modes : (m.applyAll calls).getProcessingModes = m.getProcessingModes ||| orAll (addedModes calls)
  own : m.OwnFields calls

/-- What independent registers hold after a call.  The priority is replaced, the other fields gather
what is added to them. -/
def PropertyCall.write (r : Registers) (call : PropertyCall) : Registers := fun f =>
  match call with
  | .setPriority priority => if f = .priority then priority.signExtend f.width else r f
  | _ => if f = call.field then r f ||| call.argument.signExtend f.width else r f

/-- Every call stays inside its field, on registers that hold what the calls before it wrote. -/
def AllInside : Registers → List PropertyCall → Prop
  | _, [] => True
  | r, call :: calls => StaysInside r call ∧ AllInside (call.write r) calls

/-- The condition on a word and the calls. -/
structure Compatible (m : Message) (calls : List PropertyCall) : Prop where
  /-- The last priority has every bit of the first one and of those set in between. -/
  priority : ∀ p ∈ m.priorityByte :: priorities calls,
    p ||| lastPriority m calls = lastPriority m calls
  /-- The modes have every bit of a background argument. -/
  background : ∀ b ∈ backgrounds calls,
    b ||| (m.getProcessingModes ||| orAll (addedModes calls)) =
      m.getProcessingModes ||| orAll (addedModes calls)
  inside : AllInside m.field calls

/-! ## Bytes ORed together -/

section Bytes

variable {a b y : BitVec 8} {bytes : List (BitVec 8)}

/-- Two numbers have no bit beyond those of a third exactly if each of them has none. -/
theorem or_or_eq_iff : a ||| b ||| y = y ↔ a ||| y = y ∧ b ||| y = y := by
  constructor
  · intro h
    constructor
    · calc a ||| y = a ||| (a ||| b ||| y) := by rw [h]
        _ = a ||| b ||| y := by rw [← BitVec.or_assoc, ← BitVec.or_assoc, BitVec.or_self]
        _ = y := h
    · calc b ||| y = b ||| (b ||| a ||| y) := by rw [BitVec.or_comm b a, h]
        _ = b ||| a ||| y := by rw [← BitVec.or_assoc, ← BitVec.or_assoc, BitVec.or_self]
        _ = y := by rw [BitVec.or_comm b a, h]
  · rintro ⟨ha, hb⟩
    rw [BitVec.or_assoc, hb, ha]

/-- So it is with any number of them. -/
theorem orAll_or_eq_iff : orAll bytes ||| y = y ↔ ∀ b ∈ bytes, b ||| y = y := by
  induction bytes with
  | nil => simp [orAll]
  | cons b bytes ih =>
    rw [List.forall_mem_cons, ← ih]
    exact or_or_eq_iff

/-- One of them has no bit that all together do not have. -/
theorem or_orAll_of_mem (h : b ∈ bytes) : b ||| orAll bytes = orAll bytes :=
  orAll_or_eq_iff.mp BitVec.or_self b h

/-- The bytes together are one of them exactly when that one has the bits of the others. -/
theorem orAll_eq_iff_of_mem (h : y ∈ bytes) : orAll bytes = y ↔ ∀ b ∈ bytes, b ||| y = y := by
  constructor
  · intro heq b hb
    rw [← heq]
    exact or_orAll_of_mem hb
  · intro hall
    calc orAll bytes = y ||| orAll bytes := (or_orAll_of_mem h).symm
      _ = orAll bytes ||| y := BitVec.or_comm _ _
      _ = y := orAll_or_eq_iff.mpr hall

end Bytes

/-! ## What the fields hold after the calls -/

section AfterCalls

variable {m : Message} {calls : List PropertyCall}

/-- A byte field gets the argument of its setter as it is. -/
theorem bits_setPriority (p : BitVec 8) : (setPriority p).bits.extractLsb' 0 8 = p :=
  (bits_at (setPriority p)).trans (BitVec.signExtend_eq p)

/-- A mode is set in its own byte. -/
theorem bits_addProcessingMode (mode : BitVec 8) :
    (addProcessingMode mode).bits.extractLsb' 8 8 = mode :=
  (bits_at (addProcessingMode mode)).trans (BitVec.signExtend_eq mode)

theorem bits_setBackgroundProcessing (mode : BitVec 8) :
    (setBackgroundProcessing mode).bits.extractLsb' 8 8 = mode :=
  (bits_at (setBackgroundProcessing mode)).trans (BitVec.signExtend_eq mode)

/-- Only `setPriority` reaches the lowest byte. -/
theorem priorityByte_apply (call : PropertyCall) :
    (call.apply m).priorityByte = m.priorityByte ||| orAll (priorities [call]) := by
  have hfield := field_apply m call .priority
  cases call with
  | setPriority p =>
    have hor : orAll (priorities [setPriority p]) = p := BitVec.or_zero
    rw [hor]
    exact hfield.trans (congrArg (m.priorityByte ||| ·) (bits_setPriority p))
  | addProcessingMode mode =>
    exact hfield.trans (congrArg (m.priorityByte ||| ·) (bits_below (show (0 : Nat) < 8 by decide)))
  | setBackgroundProcessing mode =>
    exact hfield.trans (congrArg (m.priorityByte ||| ·) (bits_below (show (0 : Nat) < 8 by decide)))
  | setUntuneProcessingOrder order =>
    exact hfield.trans
      (congrArg (m.priorityByte ||| ·) (bits_below (show (0 : Nat) < 16 by decide)))

theorem orAll_append (first second : List (BitVec 8)) :
    orAll (first ++ second) = orAll first ||| orAll second := by
  induction first with
  | nil => exact BitVec.zero_or.symm
  | cons b bytes ih =>
    calc orAll (b :: bytes ++ second) = b ||| orAll (bytes ++ second) := rfl
      _ = orAll (b :: bytes) ||| orAll second := by rw [ih, ← BitVec.or_assoc]; rfl

/-- After a sequence of calls the byte of the priority has the bits of all the priorities that were
set. -/
theorem priorityByte_applyAll (calls : List PropertyCall) (m : Message) :
    (m.applyAll calls).priorityByte = m.priorityByte ||| orAll (priorities calls) := by
  induction calls generalizing m with
  | nil => exact BitVec.or_zero.symm
  | cons call calls ih =>
    have hsplit : priorities (call :: calls) = priorities [call] ++ priorities calls :=
      List.filterMap_append (l := [call])
    rw [hsplit, orAll_append, ← BitVec.or_assoc, ← priorityByte_apply]
    exact ih (call.apply m)

/-- A call of another field that stays inside it keeps the modes. -/
theorem modes_apply_of_ne {call : PropertyCall} (h : StaysInside m.field call)
    (hne : Field.modes ≠ call.field) :
    (call.apply m).getProcessingModes = m.getProcessingModes := by
  rw [Message.getProcessingModes_eq_field, Message.getProcessingModes_eq_field]
  exact (field_apply_eq_iff m call).mpr h .modes hne

/-- The modes get what either of their setters is given. -/
theorem modes_apply {call : PropertyCall} (h : StaysInside m.field call) :
    (call.apply m).getProcessingModes =
      m.getProcessingModes ||| orAll (addedModes [call]) ||| orAll (backgrounds [call]) := by
  have hfield := field_apply m call .modes
  cases call with
  | setPriority p =>
    rw [modes_apply_of_ne h (fun heq => by cases heq)]
    simp [addedModes, backgrounds, orAll]
  | addProcessingMode mode =>
    rw [Message.getProcessingModes_eq_field]
    have hor : m.getProcessingModes ||| orAll (addedModes [addProcessingMode mode]) |||
        orAll (backgrounds [addProcessingMode mode]) = m.getProcessingModes ||| mode := by
      simp [addedModes, backgrounds, orAll]
    rw [hor, Message.getProcessingModes_eq_field]
    exact hfield.trans (congrArg (m.modesByte ||| ·) (bits_addProcessingMode mode))
  | setBackgroundProcessing mode =>
    rw [Message.getProcessingModes_eq_field]
    have hor : m.getProcessingModes ||| orAll (addedModes [setBackgroundProcessing mode]) |||
        orAll (backgrounds [setBackgroundProcessing mode]) = m.getProcessingModes ||| mode := by
      simp [addedModes, backgrounds, orAll]
    rw [hor, Message.getProcessingModes_eq_field]
    exact hfield.trans (congrArg (m.modesByte ||| ·) (bits_setBackgroundProcessing mode))
  | setUntuneProcessingOrder order =>
    rw [modes_apply_of_ne h (fun heq => by cases heq)]
    simp [addedModes, backgrounds, orAll]

/-- Calls that stay in their fields leave the modes with what was added and the backgrounds. -/
theorem modes_applyAll {calls : List PropertyCall} {m : Message} (h : m.OwnFields calls) :
    (m.applyAll calls).getProcessingModes =
      m.getProcessingModes ||| orAll (addedModes calls) ||| orAll (backgrounds calls) := by
  induction calls generalizing m with
  | nil => simp [Message.applyAll, addedModes, backgrounds, orAll]
  | cons call calls ih =>
    obtain ⟨hcall, hcalls⟩ := Message.ownFields_cons.mp h
    have hadded : addedModes (call :: calls) = addedModes [call] ++ addedModes calls :=
      List.filterMap_append (l := [call])
    have hbackgrounds : backgrounds (call :: calls) = backgrounds [call] ++ backgrounds calls :=
      List.filterMap_append (l := [call])
    have hrest := ih hcalls
    rw [modes_apply hcall] at hrest
    rw [hadded, hbackgrounds, orAll_append, orAll_append]
    calc (m.applyAll (call :: calls)).getProcessingModes
        = m.getProcessingModes ||| orAll (addedModes [call]) ||| orAll (backgrounds [call]) |||
            orAll (addedModes calls) ||| orAll (backgrounds calls) := hrest
      _ = _ := by ac_rfl

/-- The registers that the calls are compared with agree with the word above the priority. -/
theorem ownFields_iff {calls : List PropertyCall} {m : Message} {r : Registers}
    (hagree : ∀ f, f ≠ .priority → r f = m.field f) : m.OwnFields calls ↔ AllInside r calls := by
  induction calls generalizing m r with
  | nil =>
    refine iff_of_true (fun earlier call later heq => ?_) trivial
    cases earlier <;> cases heq
  | cons call calls ih =>
    have hinside : StaysInside m.field call ↔ StaysInside r call := by
      refine forall_congr' fun _ => forall_congr' fun f => forall_congr' fun habove => ?_
      have hne : f ≠ .priority := by
        rintro rfl
        exact Nat.not_lt_zero _ habove
      rw [hagree f hne]
    rw [Message.ownFields_cons, AllInside, hinside]
    refine and_congr_right fun hcall => ih fun f hf => ?_
    by_cases hfield : f = call.field
    · subst hfield
      rw [field_apply, bits_at, ← hagree _ hf]
      cases call with
      | setPriority p => exact absurd rfl hf
      | addProcessingMode mode => rfl
      | setBackgroundProcessing mode => rfl
      | setUntuneProcessingOrder order => rfl
    · rw [(field_apply_eq_iff m call).mpr (hinside.mpr hcall) f hfield, ← hagree f hf]
      cases call with
      | setPriority p => exact if_neg hf
      | addProcessingMode mode => exact if_neg hfield
      | setBackgroundProcessing mode => exact if_neg hfield
      | setUntuneProcessingOrder order => exact if_neg hfield

end AfterCalls

/-! ## Independence -/

/-- The last priority is one of those. -/
theorem lastPriority_mem (m : Message) (calls : List PropertyCall) :
    lastPriority m calls ∈ m.priorityByte :: priorities calls := List.getLastD_mem_cons

/-- So the last one is read back exactly if it has all the bits of those before it. -/
theorem getPriority_iff (m : Message) (calls : List PropertyCall) :
    (m.applyAll calls).getPriority = (lastPriority m calls).toInt ↔
      ∀ p ∈ m.priorityByte :: priorities calls,
        p ||| lastPriority m calls = lastPriority m calls := by
  rw [Message.getPriority_eq_field, BitVec.toInt_inj, priorityByte_applyAll]
  exact orAll_eq_iff_of_mem (lastPriority_mem m calls)

/-- The fields behave as independent registers exactly on these words and calls. -/
theorem independent_iff (m : Message) (calls : List PropertyCall) :
    Independent m calls ↔ Compatible m calls := by
  have hown : m.OwnFields calls ↔ AllInside m.field calls := ownFields_iff fun _ _ => rfl
  have hmodes (h : m.OwnFields calls) :
      (m.applyAll calls).getProcessingModes = m.getProcessingModes ||| orAll (addedModes calls) ↔
        ∀ b ∈ backgrounds calls, b ||| (m.getProcessingModes ||| orAll (addedModes calls)) =
          m.getProcessingModes ||| orAll (addedModes calls) := by
    rw [modes_applyAll h, BitVec.or_comm _ (orAll (backgrounds calls))]
    exact orAll_or_eq_iff
  constructor
  · intro h
    exact ⟨(getPriority_iff m calls).mp h.priority, (hmodes h.own).mp h.modes, hown.mp h.own⟩
  · intro h
    have hinside := hown.mpr h.inside
    exact ⟨(getPriority_iff m calls).mpr h.priority, (hmodes hinside).mpr h.background, hinside⟩

namespace Sample

/-- The untune of a request of a third party with low priority that runs while the display is on: its
properties are those of the request. -/
def copiedWord : Message where
  mReqType := .REQ_RESOURCE_UNTUNING
  mHandle := 1
  mDuration := -1
  mProperties := 0x0103
  mClientPID := 100
  mClientTID := 101

end Sample

/-- The priority of the suspend, `HIGH_TRANSFER_PRIORITY`, sets every mode, and the one of the garbage
collector, `REQ_PRIORITY_HIGH`, leaves the low priority in place. -/
theorem copied_word_keeps_bits :
    ((Sample.copiedWord.applyAll [.setPriority (-1)]).getPriority = -1 ∧
      (Sample.copiedWord.applyAll [.setPriority (-1)]).getProcessingModes = 0xff ∧
      (Sample.copiedWord.applyAll [.setPriority 0]).getPriority = 3) ∧
      ¬ Independent Sample.copiedWord [.setPriority (-1)] ∧
      ¬ Independent Sample.copiedWord [.setPriority 0] := by
  refine ⟨by decide, fun h => ?_, fun h => ?_⟩
  · exact absurd h.modes (by decide)
  · exact absurd h.priority (by decide)

end ResourceTuner
