import Mathlib.Algebra.Group.Int.Defs
import Mathlib.Algebra.Group.Nat.Defs
import Mathlib.Data.List.Basic
import Mathlib.Data.Option.Basic

/-!
# Numbers and tokens in texts

The conversions of the C++ standard library that read a number at the front of a text and ignore what
follows it, and the lines of a stream.

* **`strtol`, `stoi`, `stol`** — numbers;
* **`decimal`**, **`strtol_decimal`** — a number in decimal is read back, whatever follows it;
* **`getlines`** — what `std::getline` yields until the stream is empty.
-/

namespace Numerals

/-! ## Numbers -/

/-- The digit in a base, if it is one. -/
def digitValue (base : Nat) (c : Char) : Option Nat :=
  let value :=
    if '0' ≤ c ∧ c ≤ '9' then c.toNat - '0'.toNat
    else if 'a' ≤ c ∧ c ≤ 'z' then c.toNat - 'a'.toNat + 10
    else if 'A' ≤ c ∧ c ≤ 'Z' then c.toNat - 'A'.toNat + 10
    else base
  if value < base then some value else none

/-- The number at the front of a text, `none` without a digit. -/
def readDigits (base : Nat) (text : List Char) : Option Nat :=
  match (text.map (digitValue base)).takeWhile Option.isSome with
  | [] => none
  | digits => some (digits.foldl (fun n digit => base * n + digit.getD 0) 0)

def isSpace (c : Char) : Bool :=
  c = ' ' || c = '\t' || c = '\n' || c = '\x0b' || c = '\x0c' || c = '\r'

/-- `strtol` without its limits.  Base zero takes the base from the prefix; `0x` that no digit follows
is the number zero. -/
def strtol (base : Nat) (text : List Char) : Option Int :=
  let magnitude : List Char → Option Nat
    | '0' :: c :: rest =>
      if base = 0 then
        if c = 'x' ∨ c = 'X' then some ((readDigits 16 rest).getD 0)
        else readDigits 8 ('0' :: c :: rest)
      else readDigits base ('0' :: c :: rest)
    | text => readDigits (if base = 0 then 10 else base) text
  match text.dropWhile isSpace with
  | '-' :: rest => (magnitude rest).map fun n => -(n : Int)
  | '+' :: rest => (magnitude rest).map fun n => (n : Int)
  | rest => (magnitude rest).map fun n => (n : Int)

/-- `std::stoi`, `none` for either exception. -/
def stoi (base : Nat) (text : String) : Option Int :=
  (strtol base text.toList).filter fun n => -2 ^ 31 ≤ n ∧ n < 2 ^ 31

/-- `std::stol` of 64 bits. -/
def stol (base : Nat) (text : String) : Option Int :=
  (strtol base text.toList).filter fun n => -2 ^ 63 ≤ n ∧ n < 2 ^ 63

/-- A number in decimal. -/
def decimal (n : Nat) : List Char := Nat.toDigits 10 n

theorem isDigit_of_mem_decimal {n : Nat} {c : Char} (h : c ∈ decimal n) : c.isDigit = true :=
  Nat.isDigit_of_mem_toDigits (by decide) (by decide) h

theorem decimal_ne_nil (n : Nat) : decimal n ≠ [] := Nat.toDigits_ne_nil

theorem decimal_injective {m n : Nat} (h : decimal m = decimal n) : m = n := by
  rw [← Nat.ofDigitChars_ten_toDigits (n := m), ← Nat.ofDigitChars_ten_toDigits (n := n)]
  exact congrArg (Nat.ofDigitChars 10 · 0) h

/-- An integer is written as its digits, with a minus sign in front if it is negative. -/
theorem toList_repr (n : Int) :
    n.repr.toList = if 0 ≤ n then decimal n.toNat else '-' :: decimal (-n).toNat := by
  rw [Int.repr_eq_if]
  split
  · exact Nat.toList_repr
  · rw [String.toList_append, Nat.toList_repr]
    rfl

/-- Two integers are not written alike: no digit is a minus sign. -/
theorem repr_injective {m n : Int} (h : m.repr = n.repr) : m = n := by
  have hminus : ∀ {k l : Nat}, decimal k ≠ '-' :: decimal l := by
    intro k l heq
    have hdigit := isDigit_of_mem_decimal (heq ▸ List.mem_cons_self)
    exact absurd hdigit (by decide)
  have hlist := congrArg String.toList h
  rw [toList_repr, toList_repr] at hlist
  by_cases hm : 0 ≤ m
  · by_cases hn : 0 ≤ n
    · rw [if_pos hm, if_pos hn] at hlist
      have hsame := decimal_injective hlist
      omega
    · rw [if_pos hm, if_neg hn] at hlist
      exact absurd hlist hminus
  · by_cases hn : 0 ≤ n
    · rw [if_neg hm, if_pos hn] at hlist
      exact absurd hlist.symm hminus
    · rw [if_neg hm, if_neg hn] at hlist
      have hsame := decimal_injective (List.cons_inj_right _ |>.mp hlist)
      omega

theorem le_of_isDigit {c : Char} (h : c.isDigit = true) : '0' ≤ c ∧ c ≤ '9' := by
  simp only [Char.isDigit, Bool.and_eq_true, decide_eq_true_eq] at h
  exact h

theorem digitValue_of_isDigit {c : Char} (h : c.isDigit = true) :
    digitValue 10 c = some (c.toNat - '0'.toNat) := by
  have hrange := le_of_isDigit h
  have hnine : c.toNat ≤ '9'.toNat := hrange.2
  have hlt : c.toNat - '0'.toNat < 10 := by
    rw [show '9'.toNat = 57 by decide] at hnine
    rw [show '0'.toNat = 48 by decide]
    omega
  simp only [digitValue, if_pos hrange, if_pos hlt]

/-- What follows a number must not go on with a digit. -/
def EndsNumber (rest : List Char) : Prop := ∀ c tail, rest = c :: tail → digitValue 10 c = none

theorem endsNumber_nil : EndsNumber [] := fun _ _ h => by cases h

theorem endsNumber_cons {c : Char} (h : digitValue 10 c = none) (tail : List Char) :
    EndsNumber (c :: tail) := by
  intro c' tail' heq
  cases heq
  exact h

/-- The digits in front of what ends the number. -/
theorem takeWhile_digits {digits rest : List Char} (h : ∀ c ∈ digits, c.isDigit = true)
    (hrest : EndsNumber rest) :
    (((digits ++ rest).map (digitValue 10)).takeWhile Option.isSome) =
      digits.map fun c => some (c.toNat - '0'.toNat) := by
  induction digits with
  | nil =>
    cases rest with
    | nil => rfl
    | cons c tail => simp [hrest c tail rfl]
  | cons c digits ih =>
    rw [List.forall_mem_cons] at h
    simp only [List.cons_append, List.map_cons, digitValue_of_isDigit h.1]
    rw [List.takeWhile_cons_of_pos (by rfl), ih h.2]

theorem readDigits_decimal (n : Nat) {rest : List Char} (hrest : EndsNumber rest) :
    readDigits 10 (decimal n ++ rest) = some n := by
  have hvalue : (decimal n).foldl (fun sum c => 10 * sum + (c.toNat - '0'.toNat)) 0 = n := by
    rw [← Nat.ofDigitChars_eq_foldl]
    exact Nat.ofDigitChars_ten_toDigits
  rw [readDigits, takeWhile_digits (fun c => isDigit_of_mem_decimal) hrest]
  cases hdigits : decimal n with
  | nil => exact absurd hdigits (decimal_ne_nil n)
  | cons c digits =>
    rw [hdigits] at hvalue
    show some (((c :: digits).map fun c => some (c.toNat - '0'.toNat)).foldl
      (fun sum digit => 10 * sum + digit.getD 0) 0) = some n
    rw [List.foldl_map]
    exact congrArg some hvalue

/-- A text that starts with a digit is neither skipped nor signed. -/
theorem strtol_of_isDigit {c : Char} (h : c.isDigit = true) (text : List Char) :
    strtol 10 (c :: text) = (readDigits 10 (c :: text)).map fun n => (n : Int) := by
  have hne : ∀ c' : Char, c'.isDigit = false → c ≠ c' := by
    rintro c' hc' rfl
    rw [h] at hc'
    cases hc'
  have hspace : isSpace c = false := by
    simp [isSpace, hne ' ' rfl, hne '\t' rfl, hne '\n' rfl, hne '\x0b' rfl, hne '\x0c' rfl,
      hne '\r' rfl]
  have hdrop : (c :: text).dropWhile isSpace = c :: text := by
    simp [hspace]
  simp only [strtol, hdrop, show ¬ (10 = 0) by decide, if_false]
  split
  · rename_i heq
    cases heq
    exact absurd rfl (hne '-' rfl)
  · rename_i heq
    cases heq
    exact absurd rfl (hne '+' rfl)
  · -- in base ten both branches of the prefix test read the whole text
    split
    · rename_i heq
      rw [← heq]
    · rfl

/-- A number in decimal is read back, whatever follows it. -/
theorem strtol_decimal (n : Nat) {rest : List Char} (hrest : EndsNumber rest) :
    strtol 10 (decimal n ++ rest) = some (n : Int) := by
  have hread := readDigits_decimal n hrest
  cases hdigits : decimal n with
  | nil => exact absurd hdigits (decimal_ne_nil n)
  | cons c digits =>
    rw [hdigits] at hread
    have hc : c.isDigit = true := isDigit_of_mem_decimal (hdigits ▸ List.mem_cons_self)
    rw [List.cons_append, strtol_of_isDigit hc, ← List.cons_append, hread]
    rfl

/-- `stoi` reads it if it is in the range of an `int`. -/
theorem stoi_decimal (n : Nat) {rest : List Char} (hrest : EndsNumber rest) :
    stoi 10 (String.ofList (decimal n ++ rest)) = if n < 2 ^ 31 then some (n : Int) else none := by
  rw [stoi, String.toList_ofList, strtol_decimal n hrest, Option.filter_some]
  by_cases hlt : n < 2 ^ 31
  · rw [if_pos hlt, if_pos (by simp only [decide_eq_true_eq]; omega)]
  · rw [if_neg hlt, if_neg (by simp only [decide_eq_true_eq]; omega)]

/-! ## Lines -/

section Lines

variable {d : Char} {line text : List Char}

/-- What `std::getline(stream, line, d)` yields until it fails.  A delimiter at the very end is not
followed by an empty line. -/
def getlines (d : Char) : List Char → List (List Char)
  | [] => []
  | c :: text =>
    if c = d then [] :: getlines d text
    else
      match getlines d text with
      | [] => [[c]]
      | line :: lines => (c :: line) :: lines

/-- The first line of a file, empty where there is none. -/
def firstLine (text : String) : List Char := (getlines '\n' text.toList).head?.getD []

/-- A line that is followed by others comes first, without its delimiter. -/
theorem getlines_append_delimiter (h : d ∉ line) (text : List Char) :
    getlines d (line ++ d :: text) = line :: getlines d text := by
  induction line with
  | nil => simp [getlines]
  | cons c line ih =>
    simp only [List.mem_cons, not_or] at h
    rw [List.cons_append, getlines, if_neg (Ne.symm h.1), ih h.2]

theorem getlines_of_not_mem (h : d ∉ line) (hne : line ≠ []) : getlines d line = [line] := by
  induction line with
  | nil => exact absurd rfl hne
  | cons c line ih =>
    simp only [List.mem_cons, not_or] at h
    rw [getlines, if_neg (Ne.symm h.1)]
    cases line with
    | nil => rfl
    | cons c' line => rw [ih h.2 (List.cons_ne_nil _ _)]

end Lines

end Numerals
