import ResourceTuner.Core.TargetRegistry
import ResourceTuner.Lib.Numerals
import Mathlib.Data.List.Sort
import Mathlib.Data.String.Basic

/-!
# Discovery of the clusters

`generatePolicyBasedMapping` of `TargetRegistry.cpp`.  The policy directories are sorted by their
names, and a physical id is not taken from a name: it is the sum, in an `int8_t`, of the numbers of
cpus in the directories before.  The ids are right only as long as the order of the names is the order
of the cpus, which `policy10` and `policy4` show it need not be.

* `Topology`, `CpuRange`, `Policies` — the clusters, and the files that the kernel makes of them;
* `readRelatedCpus`, `readCpuCapacity`, `addPolicy`, `generatePolicyBasedMapping` — the code;
* `lookup_addPolicies` — where each info of a run of the loop comes from;
* `Discovered` — every cluster under its first cpu, and the logical ids by capacity.
-/

namespace ResourceTuner

open Numerals

def POLICY_DIR_PATH : String := "/sys/devices/system/cpu/cpufreq/"

/-! ## Clusters and their files -/

/-- The cpus of a cluster: the first one and how many there are. -/
structure CpuRange where
  first : Nat
  count : Nat
  deriving DecidableEq, Repr

namespace CpuRange

def cpus (range : CpuRange) : List Nat := List.range' range.first range.count

/-- The name of the cluster's policy directory. -/
def policyName (range : CpuRange) : String := String.ofList ("policy".toList ++ decimal range.first)

/-- Numbers between blanks, as the kernel writes `related_cpus`. -/
def numbersText : List Nat → List Char
  | [] => []
  | [n] => decimal n
  | n :: ns => decimal n ++ ' ' :: numbersText ns

def relatedCpus (range : CpuRange) : String := String.ofList (numbersText range.cpus)

end CpuRange

/-- The numbers of cpus of the clusters, in the order of their cpus. -/
structure Topology where
  counts : List Nat
  populated : ∀ count ∈ counts, 0 < count
  small : counts.sum < 256

namespace Topology

/-- Clusters side by side. -/
def rangesFrom : Nat → List Nat → List CpuRange
  | _, [] => []
  | first, count :: counts => ⟨first, count⟩ :: rangesFrom (first + count) counts

def ranges (topology : Topology) : List CpuRange := rangesFrom 0 topology.counts

end Topology

/-- The files that discovery reads: the first line of a `related_cpus`, and of the capacity of a cpu,
which is empty if there is no such file. -/
structure Sysfs where
  relatedCpus : String → Option String
  cpuCapacity : Int → String

/-- The policy directories of a target in the order in which they are found, any capacities. -/
structure Policies (topology : Topology) where
  files : Sysfs
  policyDirs : List String
  listed : policyDirs.Perm (topology.ranges.map CpuRange.policyName)
  related : ∀ range ∈ topology.ranges,
    files.relatedCpus (POLICY_DIR_PATH ++ range.policyName) = some range.relatedCpus

/-! ## The code -/

/-- The value of an `int8_t`. -/
def int8 (n : Int) : Int := (BitVec.ofInt 8 n).toInt

/-- The numbers of the tokens of a line, up to one that `stoi` rejects. -/
def readTokens : List (List Char) → List Int
  | [] => []
  | token :: tokens =>
    if token = [] then readTokens tokens
    else
      match stoi 10 (String.ofList token) with
      | none => []
      | some n => int8 n :: readTokens tokens

/-- `readRelatedCpus`; `none` where the file is not found. -/
def readRelatedCpus (files : Sysfs) (policyPath : String) : Option (List Int) :=
  (files.relatedCpus policyPath).map fun line => readTokens (getlines ' ' line.toList)

def readCpuCapacity (files : Sysfs) (cpuID : Int) : Int :=
  (stoi 10 (files.cpuCapacity cpuID)).getD 0

/-- `mStartCpu` and the capacity of the info for some cpus.  Without cpus the code leaves the first
one unset. -/
def startAndCapacity (files : Sysfs) : List Int → Int × Int
  | [] => (0, 0)
  | cpuID :: cpus => ((cpuID :: cpus).foldl min cpuID, readCpuCapacity files cpuID)

/-- `mPhysicalClusters[info->mPhysicalID] = info`. -/
def TargetRegistry.setPhysicalCluster (reg : TargetRegistry) (info : ClusterInfo) : TargetRegistry :=
  { reg with
    mPhysicalClusters := reg.mPhysicalClusters.insert info.mPhysicalID info
    mapped := by
      intro l p h
      simp [reg.mapped l p h] }

/-- The loop's state: the registry, the next id, and the pairs of a capacity and an id. -/
structure Discovery where
  registry : TargetRegistry
  physicalClusterId : Int
  clusterConfigs : List (Int × Int)
  known : ∀ config ∈ clusterConfigs, config.2 ∈ registry.mPhysicalClusters

/-- The body of the loop for a directory with these cpus. -/
def Discovery.addCpus (files : Sysfs) (d : Discovery) (cpuList : List Int) : Discovery :=
  let (start, capacity) := startAndCapacity files cpuList
  let info : ClusterInfo := ⟨d.physicalClusterId, start, cpuList.length⟩
  { registry := d.registry.setPhysicalCluster info
    physicalClusterId := int8 (d.physicalClusterId + cpuList.length)
    clusterConfigs := d.clusterConfigs ++ [(capacity, info.mPhysicalID)]
    known := by
      intro config hconfig
      cases List.mem_append.mp hconfig with
      | inl hold => simp [TargetRegistry.setPhysicalCluster, d.known config hold]
      | inr hnew =>
        cases List.mem_singleton.mp hnew
        simp [TargetRegistry.setPhysicalCluster] }

def addPolicy (files : Sysfs) (d : Discovery) (dirName : String) : Discovery :=
  match readRelatedCpus files (POLICY_DIR_PATH ++ dirName) with
  | none => d
  | some cpuList => d.addCpus files cpuList

/-- The order of pairs. -/
def ConfigLE (a b : Int × Int) : Prop := a.1 < b.1 ∨ a.1 = b.1 ∧ a.2 ≤ b.2

instance : DecidableRel ConfigLE := fun a b =>
  inferInstanceAs (Decidable (a.1 < b.1 ∨ a.1 = b.1 ∧ a.2 ≤ b.2))

/-- The loop over the sorted clusters: the ids under their places. -/
def mapLogical (mapping : UnorderedMap Int Int) : Nat → List Int → UnorderedMap Int Int
  | _, [] => mapping
  | i, id :: ids => mapLogical (mapping.insert i id) (i + 1) ids

/-- The loop gives the ids logical numbers from a start on. -/
theorem lookup_mapLogical (mapping : UnorderedMap Int Int) (i : Nat) (ids : List Int) (l : Int) :
    (mapLogical mapping i ids).lookup l =
      if i ≤ l ∧ l < i + ids.length then ids[(l - i).toNat]? else mapping.lookup l := by
  induction ids generalizing mapping i with
  | nil =>
    rw [if_neg (by simp only [List.length_nil]; omega)]
    rfl
  | cons id ids ih =>
    rw [mapLogical, ih, List.length_cons]
    by_cases hl : l = i
    · subst hl
      rw [if_neg (by omega), if_pos (by omega), AList.lookup_insert, Int.sub_self]
      rfl
    · rw [AList.lookup_insert_ne hl]
      by_cases hin : (i : Int) + 1 ≤ l ∧ l < i + 1 + ids.length
      · have hnext : (l - i).toNat = (l - (i + 1 : Nat)).toNat + 1 := by omega
        rw [if_pos (by omega), if_pos (by omega), hnext, List.getElem?_cons_succ]
      · rw [if_neg (by omega), if_neg (by omega)]

/-- `generatePolicyBasedMapping`, with the setting it writes. -/
def generatePolicyBasedMapping (files : Sysfs) (reg : TargetRegistry) (configs : TargetConfigs)
    (policyDirs : List String) : TargetRegistry × TargetConfigs :=
  let sorted := policyDirs.insertionSort (· ≤ ·)
  let d := sorted.foldl (addPolicy files) ⟨reg, 0, [], by simp⟩
  let clusterConfigs := d.clusterConfigs.insertionSort ConfigLE
  ({ d.registry with
      mLogicalToPhysicalClusterMapping :=
        mapLogical d.registry.mLogicalToPhysicalClusterMapping 0 (clusterConfigs.map (·.2))
      mapped := by
        intro l p h
        rw [lookup_mapLogical] at h
        split at h
        · obtain ⟨config, hconfig, rfl⟩ := List.mem_map.mp (List.mem_of_getElem? h)
          exact d.known config ((List.mem_insertionSort _).mp hconfig)
        · exact d.registry.mapped l p h },
    { configs with mTotalClusterCount := policyDirs.length })

/-! ## The files of a range -/

section Files

/-- A cpu below 128 is stored as it is. -/
theorem int8_of_lt {n : Nat} (h : n < 128) : int8 n = n := by
  rw [int8, BitVec.toInt_ofInt, Int.bmod_def]
  omega

/-- One from 128 on is stored as a negative number. -/
theorem int8_neg {n : Nat} (h : 128 ≤ n) (hlt : n < 256) : int8 n < 0 := by
  rw [int8, BitVec.toInt_ofInt, Int.bmod_def]
  omega

/-- Adding wraps around, whether or not the first summand has. -/
theorem int8_add (n m : Nat) : int8 (int8 n + m) = int8 (n + m : Nat) := by
  simp only [int8, BitVec.toInt_ofInt, Int.bmod_def]
  omega

/-- A number has no blanks in it. -/
theorem blank_notMem_decimal (n : Nat) : ' ' ∉ decimal n := by
  intro h
  have hdigit := isDigit_of_mem_decimal h
  cases hdigit

/-- A number that is read is stored in eight bits. -/
theorem readTokens_decimal {n : Nat} (h : n < 2 ^ 31) (tokens : List (List Char)) :
    readTokens (decimal n :: tokens) = int8 n :: readTokens tokens := by
  have hstoi := stoi_decimal n endsNumber_nil
  rw [List.append_nil, if_pos h] at hstoi
  rw [readTokens, if_neg (decimal_ne_nil n), hstoi]

/-- Numbers between blanks are read back, each as an `int8_t`. -/
theorem readTokens_numbersText {ns : List Nat} (h : ∀ n ∈ ns, n < 2 ^ 31) :
    readTokens (getlines ' ' (CpuRange.numbersText ns)) = ns.map fun n : Nat => int8 n := by
  induction ns with
  | nil => rfl
  | cons n ns ih =>
    rw [List.forall_mem_cons] at h
    cases ns with
    | nil =>
      rw [CpuRange.numbersText, getlines_of_not_mem (blank_notMem_decimal n) (decimal_ne_nil n),
        readTokens_decimal h.1]
      rfl
    | cons m ns =>
      rw [CpuRange.numbersText, getlines_append_delimiter (blank_notMem_decimal n),
        readTokens_decimal h.1, ih h.2]
      · rfl
      · exact List.cons_ne_nil m ns

/-- A bound of the minimum is a bound of all. -/
theorem le_foldl_min_iff {b a : Int} {ns : List Int} :
    b ≤ ns.foldl min a ↔ b ≤ a ∧ ∀ n ∈ ns, b ≤ n := by
  induction ns generalizing a with
  | nil => simp
  | cons n ns ih =>
    rw [List.foldl_cons, ih, le_min_iff, List.forall_mem_cons, and_assoc]

variable {files : Sysfs} {range : CpuRange}

/-- The first cpu of a range and the others. -/
theorem CpuRange.cpus_eq_cons (hpos : 0 < range.count) :
    range.cpus = range.first :: List.range' (range.first + 1) (range.count - 1) := by
  obtain ⟨count, hcount⟩ : ∃ count, range.count = count + 1 := ⟨range.count - 1, by omega⟩
  rw [CpuRange.cpus, hcount]
  rfl

/-- The first cpu that the code sees of a range. -/
def seenStart (range : CpuRange) : Int := (range.cpus.map fun n : Nat => int8 n).foldl min (int8 range.first)

/-- The smallest of the stored numbers. -/
theorem le_seenStart_iff {b : Int} (hpos : 0 < range.count) :
    b ≤ seenStart range ↔ ∀ cpu : Nat, range.first ≤ cpu → cpu < range.first + range.count →
      b ≤ int8 cpu := by
  rw [seenStart, le_foldl_min_iff, List.forall_mem_map]
  constructor
  · rintro ⟨-, hall⟩ cpu hle hlt
    exact hall cpu (List.mem_range'_1.mpr ⟨hle, hlt⟩)
  · intro hall
    refine ⟨hall range.first (Nat.le_refl _) (by omega), fun cpu hcpu => ?_⟩
    obtain ⟨hle, hlt⟩ := List.mem_range'_1.mp hcpu
    exact hall cpu hle hlt

/-- It is the first one as long as the last one is an `int8_t`. -/
theorem seenStart_of_le (hpos : 0 < range.count) (h : range.first + range.count ≤ 128) :
    seenStart range = range.first := by
  apply le_antisymm
  · have hfirst := (le_seenStart_iff hpos).mp le_rfl range.first (Nat.le_refl _) (by omega)
    rw [int8_of_lt (by omega)] at hfirst
    exact hfirst
  · apply (le_seenStart_iff hpos).mpr
    intro cpu hle hlt
    rw [int8_of_lt (by omega)]
    omega

/-- It is negative if the range goes beyond 127. -/
theorem seenStart_neg (hpos : 0 < range.count) (h : 128 < range.first + range.count)
    (hsmall : range.first + range.count ≤ 256) : seenStart range < 0 := by
  have hlast := (le_seenStart_iff hpos).mp le_rfl (range.first + range.count - 1) (by omega) (by omega)
  have hneg : int8 ((range.first + range.count - 1 : Nat) : Int) < 0 := int8_neg (by omega) (by omega)
  omega

/-- The file of a policy is read as the numbers of its cpus, in eight bits. -/
theorem readRelatedCpus_range {path : String} (h : files.relatedCpus path = some range.relatedCpus)
    (hsmall : range.first + range.count ≤ 256) :
    readRelatedCpus files path = some (range.cpus.map fun n : Nat => int8 n) := by
  have hcpus : ∀ n ∈ range.cpus, n < 2 ^ 31 := by
    intro n hn
    have hlt := (List.mem_range'_1.mp hn).2
    omega
  rw [readRelatedCpus, h, Option.map_some, CpuRange.relatedCpus, String.toList_ofList,
    readTokens_numbersText hcpus]

end Files

/-! ## The loop over the directories -/

section Loop

variable {files : Sysfs}

/-- The directory of the range has the range's cpus. -/
structure HasRange (files : Sysfs) (range : CpuRange) : Prop where
  related : files.relatedCpus (POLICY_DIR_PATH ++ range.policyName) = some range.relatedCpus
  populated : 0 < range.count
  small : range.first + range.count ≤ 256

/-- What the loop notes about a range under an id. -/
def seenInfo (id : Int) (range : CpuRange) : ClusterInfo := ⟨id, seenStart range, range.count⟩

/-- What one directory adds. -/
structure Adds (files : Sysfs) (range : CpuRange) (d d' : Discovery) : Prop where
  clusters : d'.registry.mPhysicalClusters =
    d.registry.mPhysicalClusters.insert d.physicalClusterId (seenInfo d.physicalClusterId range)
  mapping : d'.registry.mLogicalToPhysicalClusterMapping = d.registry.mLogicalToPhysicalClusterMapping
  next : d'.physicalClusterId = int8 (d.physicalClusterId + range.count)
  configs : d'.clusterConfigs =
    d.clusterConfigs ++ [(readCpuCapacity files (int8 range.first), d.physicalClusterId)]

/-- One policy adds one cluster: its id is the smallest number that was stored, its size the number
of them. -/
theorem adds_addPolicy {range : CpuRange} (h : HasRange files range) (d : Discovery) :
    Adds files range d (addPolicy files d range.policyName) := by
  have hread := readRelatedCpus_range h.related h.small
  have hlength : (range.cpus.map fun n : Nat => int8 n).length = range.count := by
    rw [List.length_map, CpuRange.cpus, List.length_range']
  have hseen : startAndCapacity files (range.cpus.map fun n : Nat => int8 n) =
      (seenStart range, readCpuCapacity files (int8 range.first)) := by
    rw [seenStart, CpuRange.cpus_eq_cons h.populated]
    rfl
  have hadd : addPolicy files d range.policyName =
      d.addCpus files (range.cpus.map fun n : Nat => int8 n) := by
    rw [addPolicy, hread]
  rw [hadd]
  constructor <;> simp only [Discovery.addCpus, TargetRegistry.setPhysicalCluster, hseen, hlength,
    seenInfo]

/-- The loop over the directories of some ranges. -/
def addRanges (files : Sysfs) (d : Discovery) (ranges : List CpuRange) : Discovery :=
  (ranges.map CpuRange.policyName).foldl (addPolicy files) d

def total (ranges : List CpuRange) : Nat := (ranges.map CpuRange.count).sum

/-- An info of the loop is that of a range, under the sum of the ranges before. -/
theorem origin_of_lookup {ranges : List CpuRange} (h : ∀ range ∈ ranges, HasRange files range)
    {d : Discovery} {n : Nat} (hid : d.physicalClusterId = int8 n) {p : Int} {info : ClusterInfo}
    (hlookup : (addRanges files d ranges).registry.mPhysicalClusters.lookup p = some info) :
    d.registry.mPhysicalClusters.lookup p = some info ∨
      ∃ before range after, ranges = before ++ range :: after ∧
        p = int8 (n + total before : Nat) ∧ info = seenInfo p range := by
  induction ranges generalizing d n with
  | nil => exact .inl hlookup
  | cons range ranges ih =>
    rw [List.forall_mem_cons] at h
    have hadds := adds_addPolicy h.1 d
    have hnext : (addPolicy files d range.policyName).physicalClusterId = int8 (n + range.count : Nat) := by
      rw [hadds.next, hid, int8_add]
    cases ih h.2 hnext hlookup with
    | inl hold =>
      rw [hadds.clusters] at hold
      by_cases hp : p = d.physicalClusterId
      · subst hp
        rw [AList.lookup_insert] at hold
        exact .inr ⟨[], range, ranges, rfl, hid, (Option.some.inj hold).symm⟩
      · rw [AList.lookup_insert_ne hp] at hold
        exact .inl hold
    | inr hlater =>
      obtain ⟨before, range', after, hsplit, hp, hinfo⟩ := hlater
      refine .inr ⟨range :: before, range', after, by rw [hsplit, List.cons_append], ?_, hinfo⟩
      rw [hp, total, total, List.map_cons, List.sum_cons, Nat.add_assoc]

/-- What the loop gathers when every range comes under its first cpu. -/
structure Gathers (files : Sysfs) (first : Nat) (ranges : List CpuRange) (d d' : Discovery) : Prop where
  configs : d'.clusterConfigs = d.clusterConfigs ++
    ranges.map fun range => (readCpuCapacity files range.first, (range.first : Int))
  clusters : ∀ range ∈ ranges, d'.registry.mPhysicalClusters.lookup (range.first : Int) =
    some ⟨range.first, range.first, range.count⟩
  earlier : ∀ p : Int, p < first →
    d'.registry.mPhysicalClusters.lookup p = d.registry.mPhysicalClusters.lookup p
  mapping : d'.registry.mLogicalToPhysicalClusterMapping = d.registry.mLogicalToPhysicalClusterMapping

/-- It does so in the order of the cpus, when all of them are `int8_t`s. -/
theorem gathers_rangesFrom {first : Nat} {counts : List Nat}
    (h : ∀ range ∈ Topology.rangesFrom first counts, HasRange files range)
    (hsmall : first + counts.sum ≤ 128) {d : Discovery} (hid : d.physicalClusterId = int8 first) :
    Gathers files first (Topology.rangesFrom first counts) d
      (addRanges files d (Topology.rangesFrom first counts)) := by
  induction counts generalizing first d with
  | nil =>
    exact ⟨(List.append_nil _).symm, fun _ h => absurd h List.not_mem_nil, fun _ _ => rfl, rfl⟩
  | cons count counts ih =>
    rw [Topology.rangesFrom, List.forall_mem_cons] at h
    rw [List.sum_cons] at hsmall
    have hpos : 0 < count := h.1.populated
    have hadds := adds_addPolicy h.1 d
    have hfirst : d.physicalClusterId = first := by
      rw [hid, int8_of_lt (by omega)]
    have hnext : (addPolicy files d (CpuRange.policyName ⟨first, count⟩)).physicalClusterId =
        int8 (first + count : Nat) := by
      rw [hadds.next, hfirst, Int.natCast_add]
    have hstart : seenStart ⟨first, count⟩ = first :=
      seenStart_of_le hpos (Nat.le_trans (by simp only; omega) hsmall)
    have ih := ih h.2 (by omega) hnext
    constructor
    · have hconfigs := ih.configs
      rw [hadds.configs, hfirst, int8_of_lt (by simp only; omega), List.append_assoc] at hconfigs
      exact hconfigs
    · intro range hrange
      cases hrange with
      | head =>
        have hearlier := ih.earlier first (by omega)
        rw [hadds.clusters, hfirst, AList.lookup_insert, seenInfo, hstart] at hearlier
        exact hearlier
      | tail _ hlater => exact ih.clusters range hlater
    · intro p hp
      have hearlier := ih.earlier p (by omega)
      rw [hadds.clusters, hfirst, AList.lookup_insert_ne (by omega)] at hearlier
      exact hearlier
    · exact ih.mapping.trans hadds.mapping

end Loop

/-! ## Discovery -/

section Discovery

namespace Topology

variable {first : Nat} {counts : List Nat} {range : CpuRange}

/-- A range lies between the first cpu and the last. -/
theorem bounds_of_mem_rangesFrom (h : range ∈ rangesFrom first counts) :
    range.count ∈ counts ∧ first ≤ range.first ∧ range.first + range.count ≤ first + counts.sum := by
  induction counts generalizing first with
  | nil => cases h
  | cons count counts ih =>
    rw [List.sum_cons]
    cases h with
    | head => exact ⟨List.mem_cons_self, by simp only; omega, by simp only; omega⟩
    | tail _ hlater =>
      obtain ⟨hmem, hle, hsum⟩ := ih hlater
      exact ⟨List.mem_cons_of_mem _ hmem, by omega, by omega⟩

/-- The ranges have all the cpus. -/
theorem total_rangesFrom (first : Nat) (counts : List Nat) :
    total (rangesFrom first counts) = counts.sum := by
  induction counts generalizing first with
  | nil => rfl
  | cons count counts ih =>
    have ih := ih (first + count)
    rw [total] at ih
    rw [rangesFrom, total, List.map_cons, List.sum_cons, List.sum_cons, ih]

/-- They follow each other. -/
theorem pairwise_rangesFrom (h : ∀ count ∈ counts, 0 < count) :
    (rangesFrom first counts).Pairwise fun a b => a.first < b.first := by
  induction counts generalizing first with
  | nil => exact .nil
  | cons count counts ih =>
    rw [List.forall_mem_cons] at h
    refine .cons (fun range hrange => ?_) (ih h.2)
    have hle := (bounds_of_mem_rangesFrom hrange).2.1
    simp only
    omega

end Topology

/-- What discovery is for: every cluster is under its first cpu with its number of cpus, and the
logical ids from zero on are the clusters by capacity. -/
structure Discovered (topology : Topology) (files : Sysfs) (reg : TargetRegistry) : Prop where
  clusters : ∀ range ∈ topology.ranges, reg.mPhysicalClusters.lookup (range.first : Int) =
    some ⟨range.first, range.first, range.count⟩
  logical : ∃ order : List CpuRange, order.Perm topology.ranges ∧
    (∀ l p, reg.mLogicalToPhysicalClusterMapping.lookup l = some p ↔
      ∃ (i : Nat) (range : CpuRange), order[i]? = some range ∧ l = i ∧ p = range.first) ∧
    order.Pairwise fun a b => readCpuCapacity files a.first ≤ readCpuCapacity files b.first

variable {topology : Topology} (policies : Policies topology)

/-- The ranges as the loop meets them. -/
def Topology.byName (topology : Topology) : List CpuRange :=
  topology.ranges.insertionSort fun a b => a.policyName ≤ b.policyName

/-- By name they are the same ranges in another order. -/
theorem Topology.byName_perm (topology : Topology) : topology.byName.Perm topology.ranges :=
  List.perm_insertionSort _ _

/-- That is in the order of the cpus when the names are in order. -/
theorem Topology.byName_eq_iff (topology : Topology) :
    topology.byName = topology.ranges ↔ (topology.ranges.map CpuRange.policyName).Pairwise (· ≤ ·) := by
  have hmap : topology.byName.map CpuRange.policyName =
      (topology.ranges.map CpuRange.policyName).insertionSort (· ≤ ·) :=
    List.map_insertionSort _ _ _ _ fun _ _ _ _ => Iff.rfl
  constructor
  · intro h
    rw [h] at hmap
    rw [hmap]
    exact List.pairwise_insertionSort _ _
  · intro h
    exact (List.pairwise_map.mp h).insertionSort_eq

/-- The directories are sorted as strings, so that `policy10` comes before `policy2`. -/
theorem Policies.sorted : policies.policyDirs.insertionSort (· ≤ ·) =
    topology.byName.map CpuRange.policyName := by
  have hmap : topology.byName.map CpuRange.policyName =
      (topology.ranges.map CpuRange.policyName).insertionSort (· ≤ ·) :=
    List.map_insertionSort _ _ _ _ fun _ _ _ _ => Iff.rfl
  have hperm := ((List.perm_insertionSort (· ≤ ·) policies.policyDirs).trans policies.listed).trans
    (List.perm_insertionSort (· ≤ ·) (topology.ranges.map CpuRange.policyName)).symm
  rw [hmap]
  exact hperm.eq_of_pairwise' (List.pairwise_insertionSort _ _) (List.pairwise_insertionSort _ _)

/-- Every range has its files. -/
theorem Policies.hasRange {range : CpuRange} (h : range ∈ topology.ranges) :
    HasRange policies.files range := by
  obtain ⟨hcount, -, hsum⟩ := Topology.bounds_of_mem_rangesFrom h
  have hsmall := topology.small
  exact ⟨policies.related range h, topology.populated _ hcount, by omega⟩

/-- The end of the loop. -/
def Policies.discovery : Discovery :=
  addRanges policies.files ⟨.empty, 0, [], by simp⟩ topology.byName

/-- What is found of the clusters is not changed when they get logical numbers. -/
theorem generatePolicyBasedMapping_clusters (configs : TargetConfigs) :
    (generatePolicyBasedMapping policies.files .empty configs policies.policyDirs).1.mPhysicalClusters =
      policies.discovery.registry.mPhysicalClusters := by
  rw [generatePolicyBasedMapping, Policies.discovery, addRanges]
  simp only [policies.sorted]

/-- The logical numbers are given in the order of the ids that were found. -/
theorem generatePolicyBasedMapping_mapping (configs : TargetConfigs) :
    (generatePolicyBasedMapping policies.files .empty configs
      policies.policyDirs).1.mLogicalToPhysicalClusterMapping =
      mapLogical policies.discovery.registry.mLogicalToPhysicalClusterMapping 0
        ((policies.discovery.clusterConfigs.insertionSort ConfigLE).map (·.2)) := by
  rw [generatePolicyBasedMapping, Policies.discovery, addRanges]
  simp only [policies.sorted]

/-! ### From the infos to the order -/

/-- Ranges that all start at the sum of those before come in the order of their cpus. -/
theorem pairwise_of_sums {ranges : List CpuRange} {n : Nat} (hpos : ∀ range ∈ ranges, 0 < range.count)
    (h : ∀ before range after, ranges = before ++ range :: after → range.first = n + total before) :
    ranges.Pairwise fun a b => a.first < b.first := by
  induction ranges generalizing n with
  | nil => exact .nil
  | cons range ranges ih =>
    rw [List.forall_mem_cons] at hpos
    have hfirst : range.first = n := h [] range ranges rfl
    have hlater : ∀ before range' after, ranges = before ++ range' :: after →
        range'.first = n + range.count + total before := by
      intro before range' after hsplit
      have hsum := h (range :: before) range' after (by rw [hsplit, List.cons_append])
      rw [total, List.map_cons, List.sum_cons] at hsum
      rw [hsum, total, Nat.add_assoc]
    refine .cons (fun range' hmem => ?_) (ih hpos.2 hlater)
    obtain ⟨before, after, hsplit⟩ := List.append_of_mem hmem
    have hsum := hlater before range' after hsplit
    omega

/-- If a cluster has the right info, its cpus are `int8_t`s, and the loop met it with its first cpu as
the sum. -/
theorem met_of_lookup {range : CpuRange} (h : policies.discovery.registry.mPhysicalClusters.lookup
      (range.first : Int) = some ⟨range.first, range.first, range.count⟩) :
    range.first + range.count ≤ 128 ∧ ∃ before after, topology.byName = before ++ range :: after ∧
      (range.first : Int) = int8 (total before) := by
  have hall : ∀ range ∈ topology.byName, HasRange policies.files range := fun range hrange =>
    policies.hasRange (topology.byName_perm.mem_iff.mp hrange)
  cases origin_of_lookup (d := ⟨.empty, 0, [], by simp⟩) (n := 0) hall rfl h with
  | inl hempty => simp [TargetRegistry.empty] at hempty
  | inr horigin =>
    obtain ⟨before, seen, after, hsplit, hid, hinfo⟩ := horigin
    rw [Nat.zero_add] at hid
    simp only [seenInfo, ClusterInfo.mk.injEq, true_and] at hinfo
    have hseen : HasRange policies.files seen := hall seen (by simp [hsplit])
    have hle : seen.first + seen.count ≤ 128 := by
      by_contra hlarge
      have hneg := seenStart_neg hseen.populated (by omega) hseen.small
      omega
    rw [seenStart_of_le hseen.populated hle] at hinfo
    have heq : range = seen := by
      cases range
      cases seen
      simp only [Nat.cast_inj] at hinfo
      simp only [CpuRange.mk.injEq]
      exact hinfo
    rw [heq] at hid ⊢
    exact ⟨hle, before, after, hsplit, hid⟩

/-- If every range ends early enough, so do all together. -/
theorem Topology.sum_le_of_forall {first m : Nat} {counts : List Nat} (hfirst : first ≤ m)
    (h : ∀ range ∈ rangesFrom first counts, range.first + range.count ≤ m) :
    first + counts.sum ≤ m := by
  induction counts generalizing first with
  | nil => exact hfirst
  | cons count counts ih =>
    rw [rangesFrom, List.forall_mem_cons] at h
    rw [List.sum_cons, ← Nat.add_assoc]
    exact ih h.1 h.2

/-- Cpus are counted range by range. -/
theorem total_append (before after : List CpuRange) :
    total (before ++ after) = total before + total after := by
  rw [total, List.map_append, List.sum_append]
  rfl

/-- A range more has its own. -/
theorem total_cons (range : CpuRange) (ranges : List CpuRange) :
    total (range :: ranges) = range.count + total ranges := by
  rw [total, List.map_cons, List.sum_cons]
  rfl

/-- If every cluster is found under its own id, then no cpu is beyond 127 and the names are in
order. -/
theorem inOrder_of_clusters (h : ∀ range ∈ topology.ranges,
      policies.discovery.registry.mPhysicalClusters.lookup (range.first : Int) =
        some ⟨range.first, range.first, range.count⟩) :
    topology.counts.sum ≤ 128 ∧ topology.byName = topology.ranges := by
  have hmet := fun range hrange => met_of_lookup policies (h range hrange)
  have hsum : topology.counts.sum ≤ 128 := by
    have hle := Topology.sum_le_of_forall (Nat.zero_le 128) fun range hrange => (hmet range hrange).1
    omega
  have hordered : topology.ranges.Pairwise fun a b => a.first < b.first :=
    Topology.pairwise_rangesFrom topology.populated
  have hnodup : topology.byName.Nodup := by
    apply topology.byName_perm.nodup_iff.mpr
    exact hordered.imp fun hlt heq => Nat.ne_of_lt hlt (congrArg CpuRange.first heq)
  have hpos : ∀ range ∈ topology.byName, 0 < range.count := fun range hrange =>
    (policies.hasRange (topology.byName_perm.mem_iff.mp hrange)).populated
  have htotal : total topology.byName = topology.counts.sum := by
    rw [← Topology.total_rangesFrom 0 topology.counts]
    exact (topology.byName_perm.map _).sum_nat
  have hsums : ∀ before range after, topology.byName = before ++ range :: after →
      range.first = 0 + total before := by
    intro before range after hsplit
    have hmem : range ∈ topology.byName := by simp [hsplit]
    obtain ⟨-, before', after', hsplit', hid⟩ := hmet range (topology.byName_perm.mem_iff.mp hmem)
    have hbefore : before = before' := by
      rw [hsplit] at hsplit' hnodup
      have hnotMem := (List.nodup_cons.mp (List.nodup_middle.mp hnodup)).1
      rw [List.mem_append, not_or] at hnotMem
      exact ((List.append_cons_inj_of_notMem hnotMem.1 hnotMem.2).mp hsplit').1
    subst hbefore
    have hcount := hpos range hmem
    rw [hsplit, total_append, total_cons] at htotal
    rw [int8_of_lt (by omega)] at hid
    omega
  refine ⟨hsum, ?_⟩
  refine List.Perm.eq_of_pairwise ?_ (pairwise_of_sums hpos hsums) hordered topology.byName_perm
  intro a b _ _ hab hba
  omega

/-! ### From the order to the mapping -/

instance : Std.Total ConfigLE where
  total a b := by
    rw [ConfigLE, ConfigLE]
    omega

instance : IsTrans (Int × Int) ConfigLE where
  trans a b c := by
    rw [ConfigLE, ConfigLE, ConfigLE]
    omega

/-- A logical cluster is mapped to the range at its place. -/
theorem lookup_mapLogical_iff {order : List CpuRange} {l p : Int} :
    (mapLogical ∅ 0 (order.map fun range => (range.first : Int))).lookup l = some p ↔
      ∃ (i : Nat) (range : CpuRange), order[i]? = some range ∧ l = i ∧ p = range.first := by
  rw [lookup_mapLogical, List.length_map]
  constructor
  · intro h
    split at h
    · rw [List.getElem?_map, Option.map_eq_some_iff] at h
      obtain ⟨range, hrange, hp⟩ := h
      exact ⟨(l - (0 : Nat)).toNat, range, hrange, by omega, hp.symm⟩
    · simp at h
  · rintro ⟨i, range, hrange, rfl, rfl⟩
    have hlt : i < order.length := (List.getElem?_eq_some_iff.mp hrange).1
    have hindex : ((i : Int) - (0 : Nat)).toNat = i := by omega
    rw [if_pos (by omega), hindex, List.getElem?_map, hrange]
    rfl

/-- The logical ids of infos that were gathered in the order of the cpus. -/
theorem logical_of_configs {files : Sysfs} {ranges : List CpuRange} {configs : List (Int × Int)}
    (h : configs = ranges.map fun range => (readCpuCapacity files range.first, (range.first : Int))) :
    ∃ order : List CpuRange, order.Perm ranges ∧
      ((configs.insertionSort ConfigLE).map (·.2) = order.map fun range => (range.first : Int)) ∧
      order.Pairwise fun a b => readCpuCapacity files a.first ≤ readCpuCapacity files b.first := by
  let config := fun range : CpuRange => (readCpuCapacity files range.first, (range.first : Int))
  have hsort : (ranges.insertionSort fun a b => ConfigLE (config a) (config b)).map config =
      configs.insertionSort ConfigLE := by
    rw [h]
    exact List.map_insertionSort _ _ _ _ fun _ _ _ _ => Iff.rfl
  have hpairwise := List.pairwise_insertionSort ConfigLE configs
  rw [← hsort, List.pairwise_map] at hpairwise
  refine ⟨_, List.perm_insertionSort _ ranges, ?_, hpairwise.imp fun hle => ?_⟩
  · rw [← hsort, List.map_map]
    rfl
  · cases hle with
    | inl hlt => exact Int.le_of_lt hlt
    | inr heq => exact Int.le_of_eq heq.1

/-- Conversely, with names in order and cpus below 128 everything is found as it is. -/
theorem discovered_of_inOrder (configs : TargetConfigs) (hsum : topology.counts.sum ≤ 128)
    (horder : topology.byName = topology.ranges) :
    Discovered topology policies.files
      (generatePolicyBasedMapping policies.files .empty configs policies.policyDirs).1 := by
  have hgathers : Gathers policies.files 0 topology.ranges ⟨.empty, 0, [], by simp⟩ policies.discovery := by
    rw [Policies.discovery, horder]
    exact gathers_rangesFrom (fun range => policies.hasRange) (by omega) rfl
  obtain ⟨order, hperm, hids, hsorted⟩ := logical_of_configs hgathers.configs
  constructor
  · rw [generatePolicyBasedMapping_clusters]
    exact hgathers.clusters
  · refine ⟨order, hperm, fun l p => ?_, hsorted⟩
    rw [generatePolicyBasedMapping_mapping, hgathers.mapping, hids]
    exact lookup_mapLogical_iff

/-- **The clusters are discovered** exactly when every cpu is an `int8_t` and the names of the policy
directories are in the order of the cpus. -/
theorem discovered_iff (configs : TargetConfigs) :
    Discovered topology policies.files
        (generatePolicyBasedMapping policies.files .empty configs policies.policyDirs).1 ↔
      topology.counts.sum ≤ 128 ∧ (topology.ranges.map CpuRange.policyName).Pairwise (· ≤ ·) := by
  rw [← topology.byName_eq_iff]
  constructor
  · intro h
    have hclusters := h.clusters
    rw [generatePolicyBasedMapping_clusters] at hclusters
    exact inOrder_of_clusters policies hclusters
  · rintro ⟨hsum, horder⟩
    exact discovered_of_inOrder policies configs hsum horder

/-- Twelve cpus in clusters of four, six and two. -/
def fourSixTwo : Topology := ⟨[4, 6, 2], by decide, by decide⟩

def fourSixTwoPolicies : Policies fourSixTwo where
  files := ⟨fun path =>
    if path = POLICY_DIR_PATH ++ "policy0" then some "0 1 2 3"
    else if path = POLICY_DIR_PATH ++ "policy4" then some "4 5 6 7 8 9"
    else if path = POLICY_DIR_PATH ++ "policy10" then some "10 11"
    else none, fun cpu => if cpu = 0 then "350" else if cpu = 4 then "800" else "1024"⟩
  policyDirs := ["policy0", "policy10", "policy4"]
  listed := by decide
  related := by decide

def fourSixTwoRegistry : TargetRegistry :=
  (generatePolicyBasedMapping fourSixTwoPolicies.files .empty ⟨12, 0, 0⟩
    fourSixTwoPolicies.policyDirs).1

/-- `policy10` is met before `policy4`, and takes its id. -/
theorem policy10_takes_id :
    fourSixTwoRegistry.mPhysicalClusters.lookup 4 = some ⟨4, 10, 2⟩ ∧
      fourSixTwoRegistry.mPhysicalClusters.lookup 6 = some ⟨6, 4, 6⟩ ∧
      fourSixTwoRegistry.mPhysicalClusters.lookup 10 = none ∧
      ¬ Discovered fourSixTwo fourSixTwoPolicies.files fourSixTwoRegistry := by
  have hfour : fourSixTwoRegistry.mPhysicalClusters.lookup 4 = some ⟨4, 10, 2⟩ := by decide
  refine ⟨hfour, by decide, by decide, fun h => ?_⟩
  have hcluster := h.clusters ⟨4, 6⟩ (by decide)
  rw [show (((⟨4, 6⟩ : CpuRange).first : Nat) : Int) = 4 from rfl, hfour] at hcluster
  exact absurd hcluster (by decide)

end Discovery

end ResourceTuner
