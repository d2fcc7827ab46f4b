import ResourceTuner.Core.SlotIndices
import ResourceTuner.Lib.Numerals

/-!
# The list of online cpus

`getOnlineCpuCount` of `TargetRegistry.cpp` reads the kernel's list of online cpus, numbers and ranges
`a-b` between commas.  It cuts the line at the hyphens only and reads the number in front of each
piece, so it sees the first number of the line and the end of every range, and no other number.

* `CpuList`, `CpuList.text` — the kernel's format;
* `getOnlineCpuCount` — the reader;
* `read` — the numbers it sees;
* `CountsCpus` — every online core has its lists in the table.
-/

namespace ResourceTuner

open Numerals

/-- An entry of the list. -/
inductive CpuItem where
  | cpu (n : Nat)
  | range (first last : Nat)
  deriving DecidableEq, Repr

namespace CpuItem

def text : CpuItem → List Char
  | .cpu n => decimal n
  | .range first last => decimal first ++ '-' :: decimal last

/-- The numbers that are written. -/
def numbers : CpuItem → List Nat
  | .cpu n => [n]
  | .range first last => [first, last]

/-- The number in front. -/
def first : CpuItem → Nat
  | .cpu n => n
  | .range first _ => first

/-- The end of a range. -/
def ends : CpuItem → List Nat
  | .cpu _ => []
  | .range _ last => [last]

/-- The cpu is named, by itself or in a range. -/
def Names (cpu : Nat) : CpuItem → Prop
  | .cpu n => cpu = n
  | .range first last => first ≤ cpu ∧ cpu ≤ last

end CpuItem

/-- A list that is not empty. -/
structure CpuList where
  head : CpuItem
  tail : List CpuItem
  deriving DecidableEq, Repr

namespace CpuList

variable (list : CpuList)

def items : List CpuItem := list.head :: list.tail

/-- The items behind commas. -/
def tailText (items : List CpuItem) : List Char := items.flatMap fun item => ',' :: item.text

def text : String := String.ofList (list.head.text ++ tailText list.tail)

def numbers : List Nat := list.items.flatMap CpuItem.numbers

/-- The numbers that the reader sees. -/
def read : List Nat := list.head.first :: list.items.flatMap CpuItem.ends

end CpuList

/-- The largest of some numbers. -/
def largest (ns : List Nat) : Nat := ns.foldr max 0

/-- The body of the loop; `none` where `stoi` throws. -/
def maxToken (cpuIndex : Int) (token : List Char) : Option Int :=
  (stoi 10 (String.ofList token)).map (max cpuIndex)

/-- `getOnlineCpuCount`, with the first line of the file if there is one.  The sum is one of `int`s. -/
def getOnlineCpuCount (file : Option String) : Int :=
  match file with
  | none => 0
  | some line =>
    match (getlines '-' line.toList).foldlM maxToken 0 with
    | none => 0
    | some cpuIndex => (BitVec.ofInt 32 (cpuIndex + 1)).toInt

/-! ## The largest number -/

theorem le_largest {ns : List Nat} {n : Nat} (h : n ∈ ns) : n ≤ largest ns := by
  induction ns with
  | nil => cases h
  | cons m ns ih =>
    show n ≤ max m (largest ns)
    cases h with
    | head => exact le_max_left _ _
    | tail _ hmem => exact (ih hmem).trans (le_max_right _ _)

theorem largest_mem {ns : List Nat} (h : ns ≠ []) : largest ns ∈ ns := by
  induction ns with
  | nil => exact absurd rfl h
  | cons n ns ih =>
    show max n (largest ns) ∈ n :: ns
    cases ns with
    | nil => exact List.mem_singleton.mpr (Nat.max_zero n)
    | cons n' ns =>
      cases le_total n (largest (n' :: ns)) with
      | inl hle =>
        rw [max_eq_right hle]
        exact List.mem_cons_of_mem _ (ih (List.cons_ne_nil _ _))
      | inr hle =>
        rw [max_eq_left hle]
        exact List.mem_cons_self

/-! ## The pieces between the hyphens -/

section Pieces

/-- A number as the loop reads it. -/
def asInt (n : Nat) : Option Int := if n < 2 ^ 31 then some (n : Int) else none

theorem hyphen_notMem_decimal (n : Nat) : '-' ∉ decimal n := by
  intro h
  have hdigit := isDigit_of_mem_decimal h
  cases hdigit

/-- A piece of the line: a number, and what follows it up to the next hyphen. -/
structure Piece (n : Nat) (piece : List Char) : Prop where
  front : ∃ rest, piece = decimal n ++ rest ∧ EndsNumber rest
  noHyphen : '-' ∉ piece

theorem piece_decimal (n : Nat) : Piece n (decimal n) :=
  ⟨⟨[], (List.append_nil _).symm, endsNumber_nil⟩, hyphen_notMem_decimal n⟩

/-- A piece goes on behind a comma. -/
theorem Piece.append_comma {n m : Nat} {piece : List Char} (h : Piece n piece) :
    Piece n (piece ++ ',' :: decimal m) := by
  obtain ⟨rest, hpiece, hrest⟩ := h.front
  refine ⟨⟨rest ++ ',' :: decimal m, by rw [hpiece, List.append_assoc], ?_⟩, ?_⟩
  · cases rest with
    | nil => exact endsNumber_cons (by decide) _
    | cons c rest => exact endsNumber_cons (hrest c rest rfl) _
  · intro hmem
    cases List.mem_append.mp hmem with
    | inl hin => exact h.noHyphen hin
    | inr hin =>
      cases hin with
      | tail _ hin => exact hyphen_notMem_decimal m hin

theorem Piece.ne_nil {n : Nat} {piece : List Char} (h : Piece n piece) : piece ≠ [] := by
  obtain ⟨rest, hpiece, -⟩ := h.front
  rw [hpiece]
  intro hnil
  exact decimal_ne_nil n (List.append_eq_nil_iff.mp hnil).1

theorem Piece.stoi {n : Nat} {piece : List Char} (h : Piece n piece) :
    Numerals.stoi 10 (String.ofList piece) = asInt n := by
  obtain ⟨rest, hpiece, hrest⟩ := h.front
  rw [hpiece]
  exact stoi_decimal n hrest

/-- The numbers in front of the pieces: that of the piece which the line starts with, and the ends of
the ranges in the items that follow.  An item without a range only makes the piece longer. -/
theorem numbers_of_pieces {n : Nat} {piece : List Char} (h : Piece n piece)
    (items : List CpuItem) :
    (getlines '-' (piece ++ CpuList.tailText items)).map (fun token => stoi 10 (String.ofList token)) =
      (n :: items.flatMap CpuItem.ends).map asInt := by
  induction items generalizing n piece with
  | nil =>
    rw [CpuList.tailText, List.flatMap_nil, List.append_nil,
      getlines_of_not_mem h.noHyphen h.ne_nil, List.map_singleton, h.stoi]
    rfl
  | cons item items ih =>
    cases item with
    | cpu m =>
      have hlonger : piece ++ CpuList.tailText (.cpu m :: items) =
          (piece ++ ',' :: decimal m) ++ CpuList.tailText items := by
        simp [CpuList.tailText, CpuItem.text]
      rw [hlonger, ih h.append_comma]
      rfl
    | range first last =>
      have hcut : piece ++ CpuList.tailText (.range first last :: items) =
          (piece ++ ',' :: decimal first) ++ '-' :: (decimal last ++ CpuList.tailText items) := by
        simp [CpuList.tailText, CpuItem.text]
      rw [hcut, getlines_append_delimiter h.append_comma.noHyphen, List.map_cons,
        h.append_comma.stoi, ih (piece_decimal last)]
      rfl

theorem numbers_of_text (list : CpuList) :
    (getlines '-' list.text.toList).map (fun token => stoi 10 (String.ofList token)) =
      list.read.map asInt := by
  rw [CpuList.text, String.toList_ofList]
  cases hhead : list.head with
  | cpu n =>
    rw [CpuList.read, CpuList.items, hhead]
    exact numbers_of_pieces (piece_decimal n) list.tail
  | range first last =>
    rw [CpuList.read, CpuList.items, hhead, CpuItem.text, List.append_assoc, List.cons_append,
      getlines_append_delimiter (hyphen_notMem_decimal first), List.map_cons,
      (piece_decimal first).stoi, numbers_of_pieces (piece_decimal last) list.tail]
    rfl

end Pieces

/-! ## The count -/

theorem foldlM_maxToken (tokens : List (List Char)) (cpuIndex : Int) :
    tokens.foldlM maxToken cpuIndex =
      (tokens.map fun token => stoi 10 (String.ofList token)).foldlM
        (fun cpuIndex number => number.map (max cpuIndex)) cpuIndex := by
  rw [List.foldlM_map]
  rfl

/-- The loop ends with the largest number that it sees, unless one of them is no `int`. -/
theorem foldlM_asInt (ns : List Nat) (m : Nat) :
    (ns.map asInt).foldlM (fun cpuIndex number => number.map (max cpuIndex)) (m : Int) =
      if ∀ n ∈ ns, n < 2 ^ 31 then some ((max m (largest ns) : Nat) : Int) else none := by
  induction ns generalizing m with
  | nil => simp [largest]
  | cons n ns ih =>
    rw [List.map_cons, List.foldlM_cons]
    simp only [List.forall_mem_cons]
    by_cases hn : n < 2 ^ 31
    · have hmax : max (m : Int) (n : Int) = ((max m n : Nat) : Int) := by omega
      have hlargest : max (max m n) (largest ns) = max m (largest (n :: ns)) := by
        show max (max m n) (largest ns) = max m (max n (largest ns))
        exact max_assoc m n (largest ns)
      rw [asInt, if_pos hn, Option.map_some, hmax]
      show (ns.map asInt).foldlM _ ((max m n : Nat) : Int) = _
      rw [ih, hlargest]
      simp only [hn, true_and]
    · rw [asInt, if_neg hn, if_neg fun h => hn h.1]
      rfl

theorem getOnlineCpuCount_text (list : CpuList) :
    getOnlineCpuCount (some list.text) =
      if ∀ n ∈ list.read, n < 2 ^ 31 then (BitVec.ofInt 32 (largest list.read + 1)).toInt else 0 := by
  have hfold := foldlM_asInt list.read 0
  rw [Nat.zero_max] at hfold
  have hloop : (getlines '-' list.text.toList).foldlM maxToken 0 =
      if ∀ n ∈ list.read, n < 2 ^ 31 then some (largest list.read : Int) else none := by
    rw [foldlM_maxToken, numbers_of_text]
    exact hfold
  rw [getOnlineCpuCount, hloop]
  split
  · rename_i hnone
    split at hnone
    · cases hnone
    · rename_i hsmall
      rw [if_neg hsmall]
  · rename_i cpuIndex hsome
    split at hsome
    · rename_i hsmall
      cases hsome
      rw [if_pos hsmall]
    · cases hsome

theorem toInt_add_one {n : Nat} (h : n < 2 ^ 31) :
    (BitVec.ofInt 32 (n + 1)).toInt = if n + 1 < 2 ^ 31 then (n : Int) + 1 else -2 ^ 31 := by
  rw [BitVec.toInt_ofInt, Int.bmod_def]
  split <;> omega

/-- The numbers that the reader sees are written in the list. -/
theorem mem_numbers_of_read {list : CpuList} {n : Nat} (h : n ∈ list.read) : n ∈ list.numbers := by
  cases h with
  | head =>
    apply List.mem_flatMap.mpr
    refine ⟨list.head, List.mem_cons_self, ?_⟩
    cases list.head with
    | cpu m => exact List.mem_cons_self
    | range first last => exact List.mem_cons_self
  | tail _ hends =>
    obtain ⟨item, hitem, hn⟩ := List.mem_flatMap.mp hends
    apply List.mem_flatMap.mpr
    refine ⟨item, hitem, ?_⟩
    cases item with
    | cpu m => cases hn
    | range first last => exact List.mem_cons_of_mem _ hn

/-- The count is right exactly when the largest number is among those and its successor is an `int`. -/
theorem getOnlineCpuCount_eq_iff (list : CpuList) :
    getOnlineCpuCount (some list.text) = largest list.numbers + 1 ↔
      largest list.numbers ∈ list.read ∧ largest list.numbers + 1 < 2 ^ 31 := by
  have hread : largest list.read ∈ list.read := largest_mem (List.cons_ne_nil _ _)
  have hle : largest list.read ≤ largest list.numbers := le_largest (mem_numbers_of_read hread)
  rw [getOnlineCpuCount_text]
  constructor
  · intro h
    split at h
    · rename_i hsmall
      rw [toInt_add_one (hsmall _ hread)] at h
      split at h
      · have heq : largest list.numbers = largest list.read := by omega
        rw [heq]
        exact ⟨hread, by omega⟩
      · omega
    · omega
  · rintro ⟨hmem, hlt⟩
    have heq : largest list.read = largest list.numbers := le_antisymm hle (le_largest hmem)
    have hsmall : ∀ n ∈ list.read, n < 2 ^ 31 := by
      intro n hn
      have := le_largest hn
      omega
    rw [if_pos hsmall, heq, toInt_add_one (by omega), if_pos hlt]

/-! ## Lists for every online core -/

/-- A target whose core count was read from the list has lists in the table for every cpu that the
list names, under every resource that is kept by core. -/
def CoresHaveLists (list : CpuList) : Prop :=
  ∀ env code conf, env.getResConf code = some conf → conf.mApplyType = .APPLY_CORE →
    (env.targetConfigs.mTotalCoreCount : Int) = getOnlineCpuCount (some list.text) →
    ∀ r : Resource, r.mResCode = code → ∀ cpu : Nat, r.getCoreValue = cpu →
      (∃ item ∈ list.items, item.Names cpu) →
      ∀ p : Int, 0 ≤ p → p < TOTAL_PRIORITIES → ValidIndex env r p

/-- The count is one more than the largest number of the list, and every online core has its lists. -/
structure CountsCpus (list : CpuList) : Prop where
  count : getOnlineCpuCount (some list.text) = largest list.numbers + 1
  lists : CoresHaveLists list

theorem le_largest_of_names {list : CpuList} {item : CpuItem} {cpu : Nat} (hitem : item ∈ list.items)
    (h : item.Names cpu) : cpu ≤ largest list.numbers := by
  have hnumbers : ∀ n ∈ item.numbers, n ≤ largest list.numbers := fun n hn =>
    le_largest (List.mem_flatMap.mpr ⟨item, hitem, hn⟩)
  cases item with
  | cpu n =>
    cases h
    exact hnumbers cpu List.mem_cons_self
  | range first last => exact h.2.trans (hnumbers last (List.mem_cons_of_mem _ List.mem_cons_self))

theorem coresHaveLists_of_count {list : CpuList}
    (h : getOnlineCpuCount (some list.text) = largest list.numbers + 1) : CoresHaveLists list := by
  intro env code conf hconf htype htotal r hr cpu hcpu hnamed p hp0 hp
  obtain ⟨item, hitem, hnames⟩ := hnamed
  have hle := le_largest_of_names hitem hnames
  have hcount : CocoTable.slotCount env conf = env.targetConfigs.mTotalCoreCount := by
    simp only [CocoTable.slotCount, htype]
  have hindex : CocoTable.getCocoTableSecondaryIndex env r p = (cpu : Int) * 4 + p := by
    simp only [CocoTable.getCocoTableSecondaryIndex, hr, hconf, htype, hcpu, TOTAL_PRIORITIES]
    rfl
  rw [TOTAL_PRIORITIES] at hp
  rw [ValidIndex, hr, listCount_eq hconf, hcount, hindex]
  omega

/-- **The online cpus are counted right** exactly when the largest number of the list is its first one
or the end of a range. -/
theorem countsCpus_iff (list : CpuList) :
    CountsCpus list ↔ largest list.numbers ∈ list.read ∧ largest list.numbers + 1 < 2 ^ 31 :=
  ⟨fun h => (getOnlineCpuCount_eq_iff list).mp h.count, fun h =>
    have hcount := (getOnlineCpuCount_eq_iff list).mpr h
    ⟨hcount, coresHaveLists_of_count hcount⟩⟩

/-- With cpu 4 of six off line, the last one is not counted. -/
theorem last_cpu_not_counted :
    (CpuList.mk (.range 0 3) [.cpu 5]).text = "0-3,5" ∧ getOnlineCpuCount (some "0-3,5") = 4 ∧
      ¬ CountsCpus ⟨.range 0 3, [.cpu 5]⟩ := by
  refine ⟨by decide, by decide, fun h => ?_⟩
  exact absurd h.count (by decide)

end ResourceTuner
