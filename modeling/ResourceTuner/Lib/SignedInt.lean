import Mathlib.Data.Int.Init
import Mathlib.Algebra.Order.Ring.Int
import Mathlib.Tactic.Ring

/-!
# Signed machine integers

Two's complement integers of any width whose arithmetic is undefined when the exact result is not in
range, as signed arithmetic is in C++.  An operation answers `none` there; everything is said about the
exact integers.

* **`SignedInt`**, **`SignedInt.ofInt?`** — the integers of a width;
* **`add?`** to **`div?`** — arithmetic;
* **`clamp`** — the nearest integer of the width;
* **`product_over_iff`**, **`product_under_iff`** — testing a product by dividing a limit.
-/

/-- Half the number of integers of a width. -/
def SignedInt.limit (w : Nat) : Int := 2 ^ (w - 1)

/-- The integers of `w` bits. -/
structure SignedInt (w : Nat) where
  toInt : Int
  neg_limit_le : -SignedInt.limit w ≤ toInt
  lt_limit : toInt < SignedInt.limit w
  deriving DecidableEq

namespace SignedInt

variable {w : Nat} {a b c : SignedInt w} {n : Int}

theorem limit_pos (w : Nat) : 0 < limit w := Int.pow_pos (by decide)

@[ext] theorem ext (h : a.toInt = b.toInt) : a = b := by
  cases a
  cases b
  simpa using h

/-- The largest and the smallest one. -/
def highest (w : Nat) : SignedInt w := ⟨limit w - 1, by have := limit_pos w; omega, by omega⟩

def lowest (w : Nat) : SignedInt w := ⟨-limit w, le_refl _, by have := limit_pos w; omega⟩

@[simp] theorem toInt_highest : (highest w).toInt = limit w - 1 := rfl

@[simp] theorem toInt_lowest : (lowest w).toInt = -limit w := rfl

/-- The integer, if it is one of the width. -/
def ofInt? (w : Nat) (n : Int) : Option (SignedInt w) :=
  if h : -limit w ≤ n ∧ n < limit w then some ⟨n, h.1, h.2⟩ else none

theorem ofInt?_eq_some_iff : ofInt? w n = some a ↔ a.toInt = n := by
  unfold ofInt?
  split
  · rw [Option.some.injEq]
    constructor
    · rintro rfl
      rfl
    · rintro rfl
      rfl
  · rename_i h
    constructor
    · rintro ⟨⟩
    · rintro rfl
      exact absurd ⟨a.neg_limit_le, a.lt_limit⟩ h

theorem ofInt?_eq_none_iff : ofInt? w n = none ↔ n < -limit w ∨ limit w ≤ n := by
  unfold ofInt?
  split <;> simp <;> omega

/-! ## Arithmetic -/

def add? (a b : SignedInt w) : Option (SignedInt w) := ofInt? w (a.toInt + b.toInt)

def sub? (a b : SignedInt w) : Option (SignedInt w) := ofInt? w (a.toInt - b.toInt)

def mul? (a b : SignedInt w) : Option (SignedInt w) := ofInt? w (a.toInt * b.toInt)

/-- Division truncates towards zero. -/
def div? (a b : SignedInt w) : Option (SignedInt w) :=
  if b.toInt = 0 then none else ofInt? w (a.toInt.tdiv b.toInt)

/-- The nearest integer of the width. -/
def clamp (w : Nat) (n : Int) : SignedInt w :=
  if hlow : n < -limit w then lowest w
  else if hhigh : limit w ≤ n then highest w
  else ⟨n, by omega, by omega⟩

theorem clamp_of_lt (h : n < -limit w) : clamp w n = lowest w := by
  rw [clamp, dif_pos h]

theorem clamp_of_ge (h : limit w ≤ n) : clamp w n = highest w := by
  have hpos := limit_pos w
  rw [clamp, dif_neg (by omega), dif_pos h]

/-- An integer of the width is its own nearest one. -/
theorem toInt_clamp (hlow : -limit w ≤ n) (hhigh : n < limit w) : (clamp w n).toInt = n := by
  rw [clamp, dif_neg (by omega), dif_neg (by omega)]

theorem ofInt?_eq_clamp (hlow : -limit w ≤ n) (hhigh : n < limit w) :
    ofInt? w n = some (clamp w n) :=
  ofInt?_eq_some_iff.mpr (toInt_clamp hlow hhigh)

/-! ## Dividing a limit

Whether a product passes a limit can be found out without computing it, by dividing the limit by one
factor and comparing with the other.  Truncation rounds up or down as the signs require. -/

section Quotients

variable {limit first second : Int}

theorem tdiv_lt_iff (hlimit : 0 ≤ limit) (hfirst : 0 < first) :
    limit.tdiv first < second ↔ limit < first * second := by
  rw [Int.tdiv_eq_ediv_of_nonneg hlimit, Int.ediv_lt_iff_lt_mul hfirst, mul_comm]

theorem lt_tdiv_iff (hlimit : 0 ≤ limit) (hfirst : first < 0) :
    second < limit.tdiv first ↔ limit < first * second := by
  have hpos := @tdiv_lt_iff limit (-first) (-second) hlimit (by omega)
  rw [Int.tdiv_neg, neg_mul_neg] at hpos
  omega

theorem lt_neg_tdiv_iff (hlimit : 0 ≤ limit) (hfirst : 0 < first) :
    second < (-limit).tdiv first ↔ first * second < -limit := by
  have hpos := @tdiv_lt_iff limit first (-second) hlimit hfirst
  rw [mul_neg] at hpos
  rw [Int.neg_tdiv]
  omega

theorem neg_tdiv_lt_iff (hlimit : 0 ≤ limit) (hfirst : first < 0) :
    (-limit).tdiv first < second ↔ first * second < -limit := by
  have hpos := @lt_neg_tdiv_iff limit (-first) (-second) hlimit (by omega)
  rw [Int.tdiv_neg, neg_mul_neg] at hpos
  omega

/-- The two tests for products above the limit, by the signs of the factors. -/
theorem product_over_iff (hlimit : 0 ≤ limit) :
    (0 < first ∧ 0 < second) ∧ limit.tdiv first < second ∨
        (first < 0 ∧ second < 0) ∧ second < limit.tdiv first ↔
      limit < first * second := by
  constructor
  · rintro (⟨⟨hfirst, hsecond⟩, h⟩ | ⟨⟨hfirst, hsecond⟩, h⟩)
    · exact (tdiv_lt_iff hlimit hfirst).mp h
    · exact (lt_tdiv_iff hlimit hfirst).mp h
  · intro h
    rcases mul_pos_iff.mp (hlimit.trans_lt h) with ⟨hfirst, hsecond⟩ | ⟨hfirst, hsecond⟩
    · exact Or.inl ⟨⟨hfirst, hsecond⟩, (tdiv_lt_iff hlimit hfirst).mpr h⟩
    · exact Or.inr ⟨⟨hfirst, hsecond⟩, (lt_tdiv_iff hlimit hfirst).mpr h⟩

/-- And the two for products below the negative one. -/
theorem product_under_iff (hlimit : 0 ≤ limit) :
    (0 < first ∧ second < 0) ∧ second < (-limit).tdiv first ∨
        (first < 0 ∧ 0 < second) ∧ (-limit).tdiv first < second ↔
      first * second < -limit := by
  constructor
  · rintro (⟨⟨hfirst, hsecond⟩, h⟩ | ⟨⟨hfirst, hsecond⟩, h⟩)
    · exact (lt_neg_tdiv_iff hlimit hfirst).mp h
    · exact (neg_tdiv_lt_iff hlimit hfirst).mp h
  · intro h
    rcases mul_neg_iff.mp (show first * second < 0 by omega) with
      ⟨hfirst, hsecond⟩ | ⟨hfirst, hsecond⟩
    · exact Or.inl ⟨⟨hfirst, hsecond⟩, (lt_neg_tdiv_iff hlimit hfirst).mpr h⟩
    · exact Or.inr ⟨⟨hfirst, hsecond⟩, (neg_tdiv_lt_iff hlimit hfirst).mpr h⟩

/-- A quotient is smaller than what is divided, unless the divisor is one or minus one. -/
theorem natAbs_tdiv_lt {a b : Int} (ha : a ≠ 0) (hone : b ≠ 1) (hminus : b ≠ -1) :
    (a.tdiv b).natAbs < a.natAbs := by
  rw [Int.natAbs_tdiv]
  show a.natAbs / b.natAbs < a.natAbs
  rcases Nat.lt_or_ge 1 b.natAbs with hb | hb
  · exact Nat.div_lt_self (by omega) hb
  · rw [show b.natAbs = 0 by omega, Nat.div_zero]
    omega

end Quotients

end SignedInt
