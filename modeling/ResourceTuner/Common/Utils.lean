import Mathlib.Data.BitVec

/-!
# Shared enumerations and constants

The enumerations of `modula/Common/Include/Utils.h`, `UrmPlatformAL.h`, `RequestManager.h` and
`ResourceRegistry.h` that the modelled functions read.  A C++ `enum` whose values are compared
only by equality is an inductive type; one whose numeric values matter (the four priorities,
the display modes, the status bits) is a family of constants.
-/

namespace ResourceTuner

/-- `enum RequestType : int8_t`. -/
inductive RequestType where
  | REQ_RESOURCE_TUNING
  | REQ_RESOURCE_RETUNING
  | REQ_RESOURCE_UNTUNING
  | REQ_PROP_GET
  | REQ_SIGNAL_TUNING
  | REQ_SIGNAL_UNTUNING
  | REQ_SIGNAL_RELAY
  deriving DecidableEq, Repr

/-- `enum Permissions`. -/
inductive Permissions where
  | PERMISSION_SYSTEM
  | PERMISSION_THIRD_PARTY
  deriving DecidableEq, Repr

/-- `enum Policy`: how the requests of one list of a resource are ordered. -/
inductive Policy where
  | INSTANT_APPLY
  | HIGHER_BETTER
  | LOWER_BETTER
  | LAZY_APPLY
  | PASS_THROUGH
  deriving DecidableEq, Repr

/-- `enum ResourceApplyType`: the level at which a resource can hold different values. -/
inductive ResourceApplyType where
  | APPLY_CORE
  | APPLY_CLUSTER
  | APPLY_GLOBAL
  | APPLY_CGROUP
  deriving DecidableEq, Repr

/-- `enum TranslationUnit`.  Members of the source that share one value stay distinct here;
only `TranslationUnit.toInt` is ever used. -/
inductive TranslationUnit where
  | U_NA | U_BYTE | U_KB | U_MB | U_GB | U_Hz | U_KHz | U_MHz | U_GHz
  deriving DecidableEq, Repr

/-- The factor by which a configured value is multiplied before it is written. -/
def TranslationUnit.toInt : TranslationUnit → Int
  | .U_NA => 1
  | .U_BYTE => 1
  | .U_KB => 1024
  | .U_MB => 1024 * 1024
  | .U_GB => 1024 * 1024 * 1024
  | .U_Hz => 1
  | .U_KHz => 1000
  | .U_MHz => 1000 * 1000
  | .U_GHz => 1000 * 1000 * 1000

/-! ## Priorities

`enum PriorityLevel` is the internal priority, smaller meaning more important;
`enum RequestPriority` is the two-valued priority a client may ask for.  The two negative
priorities are reserved for the server. -/

def SYSTEM_HIGH : Int := 0
def SYSTEM_LOW : Int := 1
def THIRD_PARTY_HIGH : Int := 2
def THIRD_PARTY_LOW : Int := 3
def TOTAL_PRIORITIES : Nat := 4

def REQ_PRIORITY_HIGH : Int := 0
def REQ_PRIORITY_LOW : Int := 1

def HIGH_TRANSFER_PRIORITY : Int := -1
def SERVER_CLEANUP_TRIGGER_PRIORITY : Int := -2

/-! ## Display modes -/

def MODE_RESUME : BitVec 8 := 0x01
def MODE_SUSPEND : BitVec 8 := 0x02
def MODE_DOZE : BitVec 8 := 0x04

/-! ## Processing status

`enum RequestProcessingStatus : int8_t`, a set of bits kept with every active request. -/

def REQ_UNCHANGED : BitVec 8 := 0x01
def REQ_CANCELLED : BitVec 8 := 0x02
def REQ_COMPLETED : BitVec 8 := 0x04
def REQ_NOT_FOUND : BitVec 8 := 0x08

/-- `status & bit`, read as a truth value. -/
def hasBit (status bit : BitVec 8) : Bool := status &&& bit != 0

@[simp] theorem hasBit_or (status bit bit' : BitVec 8) :
    hasBit (status ||| bit) bit' = (hasBit status bit' || hasBit bit bit') := by
  rw [Bool.eq_iff_iff]
  simp only [hasBit, BitVec.and_or_distrib_right, bne_iff_ne, Bool.or_eq_true, ne_eq]
  rw [show (0 : BitVec 8) = 0#8 from rfl, BitVec.or_eq_zero_iff, not_and_or]

end ResourceTuner
