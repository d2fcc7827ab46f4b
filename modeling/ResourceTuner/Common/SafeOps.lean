import ResourceTuner.Lib.SignedInt

/-!
# Arithmetic that saturates

The four operations of `SafeOps.h` on a signed type at least as wide as `int`, so that no operand is
promoted.  Each tests by arithmetic of its own type whether the result fits, and that arithmetic is
undefined where it overflows: an operation is `none` there.

* **`Add`**, **`Subtract`**, **`Multiply`**, **`Divide`** — the operations;
* **`saturated`** — the exact result, clamped, and on which side;
* **`add_subtract_saturate`** — the first two are right for all operands;
* **`multiply_divide_iff`** — the other two, except where they divide by minus one.
-/

namespace ResourceTuner

/-- `enum OperationStatus`. -/
inductive OperationStatus where
  | SUCCESS
  | OVERFLOW
  | UNDERFLOW
  | DIVISION_BY_ZERO
  deriving DecidableEq, Repr

namespace SafeOps

open SignedInt

variable {w : Nat}

/-! ## The operations -/

/-- `signs && comparison`: the comparison is evaluated only when the signs are these. -/
def andAlso (signs : Prop) [Decidable signs] (comparison : Option Bool) : Option Bool :=
  if signs then comparison else some false

/-- `if(test) { yes } else { no }`. -/
def ifTest {β : Type} (test : Option Bool) (yes no : Option β) : Option β :=
  test.bind fun holds => if holds then yes else no

def Add (firstArg secondArg : SignedInt w) : Option (SignedInt w × OperationStatus) :=
  ifTest
    (andAlso (firstArg.toInt ≥ 0 ∧ secondArg.toInt ≥ 0)
      (((highest w).sub? firstArg).map fun limit => limit.toInt < secondArg.toInt))
    (some (highest w, .OVERFLOW))
    (ifTest
      (andAlso (firstArg.toInt < 0 ∧ secondArg.toInt < 0)
        (((lowest w).sub? firstArg).map fun limit => limit.toInt > secondArg.toInt))
      (some (lowest w, .UNDERFLOW))
      ((firstArg.add? secondArg).map fun sum => (sum, .SUCCESS)))

def Subtract (firstArg secondArg : SignedInt w) : Option (SignedInt w × OperationStatus) :=
  ifTest
    (andAlso (firstArg.toInt ≥ 0 ∧ secondArg.toInt < 0)
      ((firstArg.sub? (highest w)).map fun limit => limit.toInt > secondArg.toInt))
    (some (highest w, .OVERFLOW))
    (ifTest
      (andAlso (firstArg.toInt < 0 ∧ secondArg.toInt ≥ 0)
        ((firstArg.sub? (lowest w)).map fun limit => limit.toInt < secondArg.toInt))
      (some (lowest w, .UNDERFLOW))
      ((firstArg.sub? secondArg).map fun difference => (difference, .SUCCESS)))

def Multiply (firstArg secondArg : SignedInt w) : Option (SignedInt w × OperationStatus) :=
  ifTest
    (andAlso (firstArg.toInt > 0 ∧ secondArg.toInt > 0)
      (((highest w).div? firstArg).map fun limit => limit.toInt < secondArg.toInt))
    (some (highest w, .OVERFLOW))
    (ifTest
      (andAlso (firstArg.toInt < 0 ∧ secondArg.toInt < 0)
        (((highest w).div? firstArg).map fun limit => limit.toInt > secondArg.toInt))
      (some (highest w, .OVERFLOW))
      (ifTest
        (andAlso (firstArg.toInt > 0 ∧ secondArg.toInt < 0)
          (((lowest w).div? firstArg).map fun limit => limit.toInt > secondArg.toInt))
        (some (lowest w, .UNDERFLOW))
        (ifTest
          (andAlso (firstArg.toInt < 0 ∧ secondArg.toInt > 0)
            (((lowest w).div? firstArg).map fun limit => limit.toInt < secondArg.toInt))
          (some (lowest w, .UNDERFLOW))
          ((firstArg.mul? secondArg).map fun product => (product, .SUCCESS)))))

/-- The tests are for fractions between minus one and one. -/
def Divide (firstArg secondArg : SignedInt w) : Option (SignedInt w × OperationStatus) :=
  if secondArg.toInt = 0 then some (firstArg, .DIVISION_BY_ZERO)
  else
    ifTest
      (andAlso (secondArg.toInt > 0 ∧ secondArg.toInt < 1 ∧ firstArg.toInt > 0)
        (((highest w).mul? secondArg).map fun limit => limit.toInt < firstArg.toInt))
      (some (highest w, .OVERFLOW))
      (ifTest
        (andAlso (secondArg.toInt > 0 ∧ secondArg.toInt < 1 ∧ firstArg.toInt < 0)
          (((lowest w).mul? secondArg).map fun limit => limit.toInt > firstArg.toInt))
        (some (lowest w, .UNDERFLOW))
        (ifTest
          (andAlso (secondArg.toInt < 0 ∧ secondArg.toInt > -1 ∧ firstArg.toInt > 0)
            (((lowest w).mul? secondArg).map fun limit => limit.toInt < firstArg.toInt))
          (some (lowest w, .UNDERFLOW))
          (ifTest
            (andAlso (secondArg.toInt < 0 ∧ secondArg.toInt > -1 ∧ firstArg.toInt < 0)
              (((highest w).mul? secondArg).map fun limit => limit.toInt > firstArg.toInt))
            (some (highest w, .OVERFLOW))
            ((firstArg.div? secondArg).map fun quotient => (quotient, .SUCCESS)))))

/-! ## What they are for -/

/-- On which side of the range an integer is. -/
def statusOf (w : Nat) (n : Int) : OperationStatus :=
  if (highest w).toInt < n then .OVERFLOW else if n < (lowest w).toInt then .UNDERFLOW else .SUCCESS

/-- The exact result, clamped to the range. -/
def saturated (w : Nat) (n : Int) : SignedInt w × OperationStatus := (clamp w n, statusOf w n)

/-! ## Tests -/

section Tests

variable {β : Type} {signs tooHigh tooLow : Prop} [Decidable signs] [Decidable tooHigh]
  [Decidable tooLow] {comparison : Option Bool} {yes no : Option β} {n : Int}

/-- A test whose comparison is defined when it is reached. -/
theorem ifTest_andAlso (h : signs → comparison = some (decide tooHigh)) :
    ifTest (andAlso signs comparison) yes no = if signs ∧ tooHigh then yes else no := by
  unfold ifTest andAlso
  by_cases hsigns : signs
  · simp [h hsigns, hsigns]
  · simp [hsigns]

theorem ifTest_andAlso_neg (h : ¬ signs) : ifTest (andAlso signs comparison) yes no = no := by
  simp [ifTest, andAlso, h]

/-- A comparison that is not defined. -/
theorem ifTest_andAlso_none (h : signs) : ifTest (andAlso signs none) yes no = none := by
  simp [ifTest, andAlso, h]

/-- An exact result in range. -/
theorem saturates_of_mem (hlow : -limit w ≤ n) (hhigh : n < limit w) :
    ((ofInt? w n).map fun result => (result, OperationStatus.SUCCESS)) = some (saturated w n) := by
  rw [ofInt?_eq_clamp hlow hhigh, Option.map_some, saturated, statusOf, toInt_highest, toInt_lowest,
    if_neg (by omega), if_neg (by omega)]

/-- Tests that find out on which side the exact result is. -/
theorem saturates_of_tests (htooHigh : tooHigh ↔ limit w ≤ n) (htooLow : tooLow ↔ n < -limit w) :
    (if tooHigh then some (highest w, .OVERFLOW)
      else if tooLow then some (lowest w, .UNDERFLOW)
      else (ofInt? w n).map fun result => (result, OperationStatus.SUCCESS)) =
      some (saturated w n) := by
  have hpos := limit_pos w
  by_cases hhigh : limit w ≤ n
  · rw [if_pos (htooHigh.mpr hhigh), saturated, statusOf, toInt_highest, if_pos (by omega),
      clamp_of_ge hhigh]
  rw [if_neg (htooHigh.not.mpr hhigh)]
  by_cases hlow : n < -limit w
  · rw [if_pos (htooLow.mpr hlow), saturated, statusOf, toInt_highest, toInt_lowest,
      if_neg (by omega), if_pos hlow, clamp_of_lt hlow]
  · rw [if_neg (htooLow.not.mpr hlow)]
    exact saturates_of_mem (not_lt.mp hlow) (not_le.mp hhigh)

/-- A limit that can be computed. -/
theorem compare_ofInt? (hlow : -limit w ≤ n) (hhigh : n < limit w) (p : Int → Prop)
    [DecidablePred p] :
    ((ofInt? w n).map fun limit => decide (p limit.toInt)) = some (decide (p n)) := by
  unfold ofInt?
  rw [dif_pos ⟨hlow, hhigh⟩, Option.map_some]

end Tests

/-! ## Sums and differences -/

section Operands

variable (firstArg secondArg : SignedInt w)

theorem add_eq : Add firstArg secondArg = some (saturated w (firstArg.toInt + secondArg.toInt)) := by
  have hfirst := firstArg.neg_limit_le
  have hfirst' := firstArg.lt_limit
  have hsecond := secondArg.neg_limit_le
  have hsecond' := secondArg.lt_limit
  have hhighest : firstArg.toInt ≥ 0 ∧ secondArg.toInt ≥ 0 →
      (((highest w).sub? firstArg).map fun limit => decide (limit.toInt < secondArg.toInt)) =
        some (decide (limit w - 1 - firstArg.toInt < secondArg.toInt)) := fun _ =>
    compare_ofInt? (by rw [toInt_highest]; omega) (by rw [toInt_highest]; omega) (· < secondArg.toInt)
  have hlowest : firstArg.toInt < 0 ∧ secondArg.toInt < 0 →
      (((lowest w).sub? firstArg).map fun limit => decide (limit.toInt > secondArg.toInt)) =
        some (decide (-limit w - firstArg.toInt > secondArg.toInt)) := fun _ =>
    compare_ofInt? (by rw [toInt_lowest]; omega) (by rw [toInt_lowest]; omega) (· > secondArg.toInt)
  rw [Add, ifTest_andAlso hhighest, ifTest_andAlso hlowest]
  exact saturates_of_tests (by omega) (by omega)

theorem subtract_eq :
    Subtract firstArg secondArg = some (saturated w (firstArg.toInt - secondArg.toInt)) := by
  have hfirst := firstArg.neg_limit_le
  have hfirst' := firstArg.lt_limit
  have hsecond := secondArg.neg_limit_le
  have hsecond' := secondArg.lt_limit
  have hhighest : firstArg.toInt ≥ 0 ∧ secondArg.toInt < 0 →
      ((firstArg.sub? (highest w)).map fun limit => decide (limit.toInt > secondArg.toInt)) =
        some (decide (firstArg.toInt - (limit w - 1) > secondArg.toInt)) := fun _ =>
    compare_ofInt? (by rw [toInt_highest]; omega) (by rw [toInt_highest]; omega) (· > secondArg.toInt)
  have hlowest : firstArg.toInt < 0 ∧ secondArg.toInt ≥ 0 →
      ((firstArg.sub? (lowest w)).map fun limit => decide (limit.toInt < secondArg.toInt)) =
        some (decide (firstArg.toInt - -limit w < secondArg.toInt)) := fun _ =>
    compare_ofInt? (by rw [toInt_lowest]; omega) (by rw [toInt_lowest]; omega) (· < secondArg.toInt)
  rw [Subtract, ifTest_andAlso hhighest, ifTest_andAlso hlowest]
  exact saturates_of_tests (by omega) (by omega)

/-! ## Products -/

/-- The largest number can be divided by anything but zero. -/
theorem compare_highest_div? (hzero : firstArg.toInt ≠ 0) (p : Int → Prop) [DecidablePred p] :
    (((highest w).div? firstArg).map fun limit => decide (p limit.toInt)) =
      some (decide (p ((limit w - 1).tdiv firstArg.toInt))) := by
  have hpos := limit_pos w
  have habs := Int.natAbs_tdiv_le_natAbs (limit w - 1) firstArg.toInt
  unfold div?
  rw [if_neg hzero]
  exact compare_ofInt? (by rw [toInt_highest]; omega) (by rw [toInt_highest]; omega) p

/-- The smallest one not by minus one either. -/
theorem compare_lowest_div? (hzero : firstArg.toInt ≠ 0) (hminus : firstArg.toInt ≠ -1)
    (p : Int → Prop) [DecidablePred p] :
    (((lowest w).div? firstArg).map fun limit => decide (p limit.toInt)) =
      some (decide (p ((-limit w).tdiv firstArg.toInt))) := by
  have hpos := limit_pos w
  have hrange : -limit w ≤ (-limit w).tdiv firstArg.toInt ∧
      (-limit w).tdiv firstArg.toInt < limit w := by
    by_cases hone : firstArg.toInt = 1
    · rw [hone, Int.tdiv_one]
      omega
    · have hlt := natAbs_tdiv_lt (a := -limit w) (by omega) hone hminus
      omega
  unfold div?
  rw [if_neg hzero]
  exact compare_ofInt? (by rw [toInt_lowest]; exact hrange.1) (by rw [toInt_lowest]; exact hrange.2) p

theorem lowest_div?_minus (hminus : firstArg.toInt = -1) : (lowest w).div? firstArg = none := by
  have hpos := limit_pos w
  unfold div?
  rw [if_neg (by omega), hminus, ofInt?_eq_none_iff, toInt_lowest, Int.tdiv_neg, Int.tdiv_one]
  omega

/-- `Multiply` asks for the smallest number divided by minus one, or it saturates. -/
theorem multiply_eq :
    Multiply firstArg secondArg =
      if firstArg.toInt = -1 ∧ 0 < secondArg.toInt then none
      else some (saturated w (firstArg.toInt * secondArg.toInt)) := by
  split
  · rename_i hminus
    rw [Multiply, ifTest_andAlso_neg (by omega), ifTest_andAlso_neg (by omega),
      ifTest_andAlso_neg (by omega), lowest_div?_minus firstArg hminus.1]
    exact ifTest_andAlso_none (by omega)
  · rename_i hnot
    rw [Multiply,
      ifTest_andAlso fun hsigns => compare_highest_div? firstArg (by omega) (· < secondArg.toInt),
      ifTest_andAlso fun hsigns => compare_highest_div? firstArg (by omega) (· > secondArg.toInt),
      ifTest_andAlso fun hsigns => compare_lowest_div? firstArg (by omega) (by omega)
        (· > secondArg.toInt),
      ifTest_andAlso fun hsigns => compare_lowest_div? firstArg (by omega) (by omega)
        (· < secondArg.toInt), ← ite_or, ← ite_or]
    have hpos := limit_pos w
    exact saturates_of_tests
      ((product_over_iff (show 0 ≤ limit w - 1 by omega)).trans (by omega))
      (product_under_iff hpos.le)

/-! ## Quotients -/

/-- A quotient of two numbers is in range, unless it is the smallest number divided by minus one. -/
theorem tdiv_in_range (hnot : ¬ (firstArg = lowest w ∧ secondArg.toInt = -1)) :
    -limit w ≤ firstArg.toInt.tdiv secondArg.toInt ∧
      firstArg.toInt.tdiv secondArg.toInt < limit w := by
  have hfirst := firstArg.neg_limit_le
  have hfirst' := firstArg.lt_limit
  have habs := Int.natAbs_tdiv_le_natAbs firstArg.toInt secondArg.toInt
  by_cases hlowest : firstArg.toInt = -limit w
  · have hminus : secondArg.toInt ≠ -1 := fun h => hnot ⟨SignedInt.ext hlowest, h⟩
    have hpos := limit_pos w
    by_cases hone : secondArg.toInt = 1
    · rw [hone, Int.tdiv_one]
      omega
    · have hlt := natAbs_tdiv_lt (a := firstArg.toInt) (by omega) hone hminus
      omega
  · omega

/-- `Divide` never finds a fraction among integers. -/
theorem divide_eq :
    Divide firstArg secondArg =
      if secondArg.toInt = 0 then some (firstArg, .DIVISION_BY_ZERO)
      else if firstArg = lowest w ∧ secondArg.toInt = -1 then none
      else some (saturated w (firstArg.toInt.tdiv secondArg.toInt)) := by
  unfold Divide
  split
  · rfl
  · rename_i hzero
    rw [ifTest_andAlso_neg (by omega), ifTest_andAlso_neg (by omega), ifTest_andAlso_neg (by omega),
      ifTest_andAlso_neg (by omega), div?, if_neg hzero]
    split
    · rename_i hminus
      obtain ⟨rfl, hminus⟩ := hminus
      have hpos := limit_pos w
      have hnone : ofInt? w ((lowest w).toInt.tdiv secondArg.toInt) = none := by
        rw [ofInt?_eq_none_iff, toInt_lowest, hminus, Int.tdiv_neg, Int.tdiv_one]
        omega
      rw [hnone, Option.map_none]
    · rename_i hnot
      obtain ⟨hlow, hhigh⟩ := tdiv_in_range firstArg secondArg hnot
      exact saturates_of_mem hlow hhigh

end Operands

/-! ## All operands -/

/-- An operation is defined and answers the exact result, clamped to the range; the status says whether
the exact result is in range, or on which side it is not. -/
def Saturates (answer : Option (SignedInt w × OperationStatus)) (exact : Int) : Prop :=
  ∃ result status, answer = some (result, status) ∧
    result.toInt = max (lowest w).toInt (min exact (highest w).toInt) ∧
    (status = .SUCCESS ↔ (lowest w).toInt ≤ exact ∧ exact ≤ (highest w).toInt) ∧
    (status = .OVERFLOW ↔ (highest w).toInt < exact) ∧
    (status = .UNDERFLOW ↔ exact < (lowest w).toInt)

theorem saturates_saturated (w : Nat) (exact : Int) : Saturates (some (saturated w exact)) exact := by
  have hpos := limit_pos w
  refine ⟨_, _, rfl, ?_⟩
  rw [statusOf, toInt_highest, toInt_lowest]
  by_cases hhigh : limit w ≤ exact
  · rw [clamp_of_ge hhigh, toInt_highest, if_pos (by omega)]
    simp
    omega
  · by_cases hlow : exact < -limit w
    · rw [clamp_of_lt hlow, toInt_lowest, if_neg (by omega), if_pos hlow]
      simp
      omega
    · rw [toInt_clamp (not_lt.mp hlow) (not_le.mp hhigh), if_neg (by omega), if_neg hlow]
      simp
      omega

theorem not_saturates_none (exact : Int) :
    ¬ Saturates (none : Option (SignedInt w × OperationStatus)) exact := by
  rintro ⟨result, status, h, -⟩
  cases h

/-- **`Add` and `Subtract` saturate**, for all operands of every width, and nothing they compute on
the way overflows. -/
theorem add_subtract_saturate (firstArg secondArg : SignedInt w) :
    Saturates (Add firstArg secondArg) (firstArg.toInt + secondArg.toInt) ∧
      Saturates (Subtract firstArg secondArg) (firstArg.toInt - secondArg.toInt) := by
  rw [add_eq, subtract_eq]
  exact ⟨saturates_saturated w _, saturates_saturated w _⟩

/-- **`Multiply` and `Divide` saturate** unless they come to divide the smallest number by minus one:
`Multiply` in a test, for minus one times a positive number, and `Divide` as it is told to. -/
theorem multiply_divide_iff (firstArg secondArg : SignedInt w) :
    (Saturates (Multiply firstArg secondArg) (firstArg.toInt * secondArg.toInt) ↔
      ¬ (firstArg.toInt = -1 ∧ 0 < secondArg.toInt)) ∧
    ((if secondArg.toInt = 0 then Divide firstArg secondArg = some (firstArg, .DIVISION_BY_ZERO)
      else Saturates (Divide firstArg secondArg) (firstArg.toInt.tdiv secondArg.toInt)) ↔
      ¬ (firstArg = lowest w ∧ secondArg.toInt = -1)) := by
  rw [multiply_eq, divide_eq]
  constructor
  · split
    · rename_i hminus
      exact iff_of_false (not_saturates_none _) (not_not.mpr hminus)
    · rename_i hnot
      exact iff_of_true (saturates_saturated w _) hnot
  · split
    · rename_i hzero
      exact iff_of_true rfl (by omega)
    · split
      · rename_i hminus
        exact iff_of_false (not_saturates_none _) (not_not.mpr hminus)
      · rename_i hnot
        exact iff_of_true (saturates_saturated w _) hnot

/-- Minus one times one, and the smallest number divided by minus one. -/
theorem minus_one_overflows :
    (∃ firstArg secondArg : SignedInt 64, firstArg.toInt = -1 ∧ secondArg.toInt = 1 ∧
      Multiply firstArg secondArg = none ∧
      ¬ Saturates (Multiply firstArg secondArg) (firstArg.toInt * secondArg.toInt)) ∧
    ∃ firstArg secondArg : SignedInt 32, firstArg = lowest 32 ∧ secondArg.toInt = -1 ∧
      Divide firstArg secondArg = none ∧
      ¬ Saturates (Divide firstArg secondArg) (firstArg.toInt.tdiv secondArg.toInt) := by
  refine ⟨⟨⟨-1, by decide, by decide⟩, ⟨1, by decide, by decide⟩, rfl, rfl, ?_⟩,
    ⟨lowest 32, ⟨-1, by decide, by decide⟩, rfl, rfl, ?_⟩⟩
  · have hnone : Multiply (⟨-1, by decide, by decide⟩ : SignedInt 64) ⟨1, by decide, by decide⟩ =
        none := by decide
    rw [hnone]
    exact ⟨rfl, not_saturates_none _⟩
  · have hnone : Divide (lowest 32) ⟨-1, by decide, by decide⟩ = none := by decide
    rw [hnone]
    exact ⟨rfl, not_saturates_none _⟩

end SafeOps

end ResourceTuner
