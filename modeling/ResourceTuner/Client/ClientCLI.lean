import Mathlib.Data.List.Nodup
import Mathlib.Data.List.Perm.Basic
import Mathlib.Data.List.TakeWhile
import ResourceTuner.Lib.Lists
import ResourceTuner.Lib.Numerals
import ResourceTuner.Lib.UnorderedMap

/-!
# The resource list of the command line

`parseResources` of `ClientCLI.cpp` reads `code[#info]:value,…;…`.  What it reads is collected in an
unordered map under the code alone and copied to the result in the order of that map, which the
language leaves open; entries of one code run together.  The values are read under a `try`, the info
is not.

* `parseResources` — the parser, with the order of the map as a parameter;
* `resourcesOf` — the list that the input spells, entry by entry;
* `Keeps` — the parser returns that list, or `-1` if there is none;
* `Handled` — the inputs on which it does under every order.
-/

namespace ResourceTuner.ClientCLI

open Numerals

/-! ## The parser -/

/-- The info and the values under a code. -/
abbrev ResourceMap := UnorderedMap (BitVec 32) (Int × List Int)

abbrev ResourceVec := List (BitVec 32 × Int × List Int)

/-- How an entry ends the loop. -/
inductive Escape where
  /-- `return -1` -/
  | rejected
  /-- an exception that nothing catches -/
  | threw
  deriving DecidableEq, Repr

/-- What a caller of the parser sees. -/
inductive Outcome where
  | returned (status : Int) (resourceVec : ResourceVec)
  | threw
  deriving DecidableEq, Repr

section Texts

variable (token : List Char)

/-- `token.substr(0, colonPos)`. -/
def opCode : List Char := token.takeWhile (· ≠ ':')

def valuesStr : List Char := (token.dropWhile (· ≠ ':')).drop 1

/-- The code, up to `#` if there is one. -/
def codeText : List Char := (opCode token).takeWhile (· ≠ '#')

/-- `resInfo`, empty without a `#`. -/
def resInfo : List Char := ((opCode token).dropWhile (· ≠ '#')).drop 1

/-- `stol(opCode, nullptr, 0)`. -/
def code? : Option Int := stol 0 (String.ofList (codeText token))

/-- `stoi(resInfo, nullptr, 0)`. -/
def info? : Option Int := stoi 0 (String.ofList (resInfo token))

/-- The texts of the values. -/
def valueTexts : List (List Char) := getlines ',' (valuesStr token)

end Texts

/-- `std::stoi(value)`. -/
def value? (value : List Char) : Option Int := stoi 10 (String.ofList value)

/-- An assignment through `resourceMap[code]`. -/
def update (map : ResourceMap) (code : Int) (change : Int × List Int → Int × List Int) :
    ResourceMap :=
  map.insert (BitVec.ofInt 32 code) (change ((map.lookup (BitVec.ofInt 32 code)).getD (0, [])))

/-- The assignment of the info, outside of the `try`. -/
def setInfo (map : ResourceMap) (token : List Char) : Except Escape ResourceMap :=
  if resInfo token = [] then .ok map
  else
    match info? token, code? token with
    | some info, some code => .ok (update map code fun entry => (info, entry.2))
    | _, _ => .error .threw

/-- The body of the inner loop. -/
def addValue (token : List Char) (map : ResourceMap) (value : List Char) :
    Except Escape ResourceMap :=
  match code? token, value? value with
  | some code, some v => .ok (update map code fun entry => (entry.1, entry.2 ++ [v]))
  | _, _ => .error .rejected

/-- The body of the outer loop. -/
def parseEntry (map : ResourceMap) (token : List Char) : Except Escape ResourceMap :=
  if ':' ∉ token then .error .rejected
  else do
    let map ← setInfo map token
    (valueTexts token).foldlM (addValue token) map

/-- `parseResources`; `iterate` is the order in which a map is traversed. -/
def parseResources (iterate : ResourceMap → ResourceVec) (input : String) : Outcome :=
  match (getlines ';' input.toList).foldlM parseEntry ∅ with
  | .error .rejected => .returned (-1) []
  | .error .threw => .threw
  | .ok map => .returned 0 (iterate map)

/-- The entries of a map in some order. -/
def entries (map : ResourceMap) : ResourceVec := map.entries.map fun entry => (entry.1, entry.2)

/-- A traversal meets every entry once. -/
def Lawful (iterate : ResourceMap → ResourceVec) : Prop := ∀ map, (iterate map).Perm (entries map)

/-! ## What the input spells -/

/-- The info that is spelled. -/
def infoOf (token : List Char) : Option Int :=
  if '#' ∈ opCode token then info? token else some 0

/-- The entry that a text spells.  A code or a number is malformed where the conversion finds none. -/
def entryOf (token : List Char) : Option (BitVec 32 × Int × List Int) :=
  if ':' ∉ token then none
  else do
    let code ← code? token
    let info ← infoOf token
    let values ← (valueTexts token).mapM value?
    some (BitVec.ofInt 32 code, info, values)

def resourcesOf (input : String) : Option ResourceVec := (getlines ';' input.toList).mapM entryOf

/-- Every entry comes back in its place, and a malformed input is refused. -/
def Keeps (iterate : ResourceMap → ResourceVec) (input : String) : Prop :=
  parseResources iterate input =
    match resourcesOf input with
    | some resources => .returned 0 resources
    | none => .returned (-1) []

/-! ## One entry -/

/-- The info is there, and it or the code is malformed. -/
def Throws (token : List Char) : Prop :=
  ':' ∈ token ∧ resInfo token ≠ [] ∧ (info? token = none ∨ code? token = none)

/-- There is no colon, or a value with a malformed code or a malformed value. -/
def Rejected (token : List Char) : Prop :=
  ':' ∉ token ∨ ¬ Throws token ∧ ∃ value ∈ valueTexts token, code? token = none ∨ value? value = none

/-- The entry leaves something in the map. -/
def Stored (token : List Char) : Prop := resInfo token ≠ [] ∨ valueTexts token ≠ []

instance (token : List Char) : Decidable (Throws token) :=
  inferInstanceAs (Decidable (_ ∧ _ ∧ (_ ∨ _)))

instance (token : List Char) : Decidable (Stored token) := inferInstanceAs (Decidable (_ ∨ _))

section Entry

variable {map : ResourceMap} {token : List Char}

theorem parseEntry_of_throws (h : Throws token) : parseEntry map token = .error .threw := by
  obtain ⟨hcolon, hinfo, hbad⟩ := h
  have hset : setInfo map token = .error .threw := by
    rw [setInfo, if_neg hinfo]
    cases hbad with
    | inl hinfo => rw [hinfo]
    | inr hcode =>
      rw [hcode]
      cases info? token <;> rfl
  rw [parseEntry, if_neg (not_not_intro hcolon), hset]
  rfl

/-- Without an exception the info is set or there is none. -/
theorem setInfo_of_not_throws (hcolon : ':' ∈ token) (h : ¬ Throws token) :
    ∃ map', setInfo map token = .ok map' := by
  by_cases hinfo : resInfo token = []
  · exact ⟨map, by rw [setInfo, if_pos hinfo]⟩
  · rw [setInfo, if_neg hinfo]
    cases hi : info? token with
    | none => exact absurd ⟨hcolon, hinfo, Or.inl hi⟩ h
    | some info =>
      cases hc : code? token with
      | none => exact absurd ⟨hcolon, hinfo, Or.inr hc⟩ h
      | some code => exact ⟨_, rfl⟩

/-- The inner loop fails on the first value that cannot be entered, and only there. -/
theorem foldlM_addValue (values : List (List Char)) (map : ResourceMap) :
    (if ∃ value ∈ values, code? token = none ∨ value? value = none then
      values.foldlM (addValue token) map = .error .rejected
    else ∃ map', values.foldlM (addValue token) map = .ok map') := by
  induction values generalizing map with
  | nil => exact ⟨map, rfl⟩
  | cons value values ih =>
    rw [List.foldlM_cons]
    by_cases hbad : code? token = none ∨ value? value = none
    · rw [if_pos ⟨value, List.mem_cons_self, hbad⟩]
      have hfail : addValue token map value = .error .rejected := by
        rw [addValue]
        cases hbad with
        | inl hcode => rw [hcode]
        | inr hvalue =>
          rw [hvalue]
          cases code? token <;> rfl
      rw [hfail]
      rfl
    · have hok : ∃ map', addValue token map value = .ok map' := by
        rw [addValue]
        cases hc : code? token with
        | none => exact absurd (Or.inl hc) hbad
        | some code =>
          cases hv : value? value with
          | none => exact absurd (Or.inr hv) hbad
          | some v => exact ⟨_, rfl⟩
      obtain ⟨map', hmap'⟩ := hok
      rw [hmap']
      simp only [List.exists_mem_cons_iff, hbad, false_or]
      exact ih map'

theorem parseEntry_of_rejected (h : Rejected token) : parseEntry map token = .error .rejected := by
  rw [parseEntry]
  cases h with
  | inl hcolon => rw [if_pos hcolon]
  | inr h =>
    by_cases hcolon : ':' ∉ token
    · rw [if_pos hcolon]
    · rw [if_neg hcolon]
      obtain ⟨map', hmap'⟩ : ∃ map', setInfo map token = .ok map' :=
        setInfo_of_not_throws (not_not.mp hcolon) h.1
      have hloop : if ∃ value ∈ valueTexts token, code? token = none ∨ value? value = none then _ else _ :=
        foldlM_addValue (valueTexts token) map'
      rw [if_pos h.2] at hloop
      rw [hmap']
      exact hloop

theorem parseEntry_ok (hthrows : ¬ Throws token) (hrejected : ¬ Rejected token) :
    ∃ map', parseEntry map token = .ok map' := by
  rw [Rejected, not_or, not_and] at hrejected
  obtain ⟨hcolon, hvalues⟩ := hrejected
  obtain ⟨map', hmap'⟩ : ∃ map', setInfo map token = .ok map' :=
    setInfo_of_not_throws (not_not.mp hcolon) hthrows
  have hloop : if ∃ value ∈ valueTexts token, code? token = none ∨ value? value = none then _ else _ :=
    foldlM_addValue (valueTexts token) map'
  rw [if_neg (hvalues hthrows)] at hloop
  rw [parseEntry, if_neg hcolon, hmap']
  exact hloop

end Entry

/-! ## The input as a whole -/

/-- Some entry is refused, and none before it throws. -/
def RefusedFirst (tokens : List (List Char)) : Prop :=
  ∃ earlier token later, tokens = earlier ++ token :: later ∧ Rejected token ∧
    ∀ t ∈ earlier, ¬ Throws t

theorem not_throws_of_rejected {token : List Char} (h : Rejected token) : ¬ Throws token := by
  cases h with
  | inl hcolon => exact fun hthrows => hcolon hthrows.1
  | inr h => exact h.1

theorem refusedFirst_cons {token : List Char} {tokens : List (List Char)} :
    RefusedFirst (token :: tokens) ↔ ¬ Throws token ∧ (Rejected token ∨ RefusedFirst tokens) := by
  constructor
  · rintro ⟨earlier, refused, later, heq, hrefused, hearlier⟩
    cases earlier with
    | nil =>
      cases heq
      exact ⟨not_throws_of_rejected hrefused, Or.inl hrefused⟩
    | cons first earlier =>
      cases heq
      rw [List.forall_mem_cons] at hearlier
      exact ⟨hearlier.1, Or.inr ⟨earlier, refused, later, rfl, hrefused, hearlier.2⟩⟩
  · rintro ⟨hthrows, hrefused | ⟨earlier, refused, later, rfl, hrefused, hearlier⟩⟩
    · exact ⟨[], token, tokens, rfl, hrefused, fun t ht => by cases ht⟩
    · exact ⟨token :: earlier, refused, later, rfl, hrefused,
        List.forall_mem_cons.mpr ⟨hthrows, hearlier⟩⟩

/-- The parser returns `-1` exactly when an entry is refused before one throws. -/
theorem foldlM_rejected_iff (tokens : List (List Char)) (map : ResourceMap) :
    tokens.foldlM parseEntry map = .error .rejected ↔ RefusedFirst tokens := by
  induction tokens generalizing map with
  | nil =>
    refine iff_of_false (fun h => by cases h) ?_
    rintro ⟨earlier, token, later, heq, -⟩
    cases earlier <;> cases heq
  | cons token tokens ih =>
    rw [List.foldlM_cons, refusedFirst_cons]
    by_cases hthrows : Throws token
    · rw [parseEntry_of_throws hthrows]
      exact iff_of_false (fun h => by cases h) fun h => h.1 hthrows
    · by_cases hrefused : Rejected token
      · rw [parseEntry_of_rejected hrefused]
        exact iff_of_true rfl ⟨hthrows, Or.inl hrefused⟩
      · obtain ⟨map', hmap'⟩ : ∃ map', parseEntry map token = .ok map' :=
          parseEntry_ok hthrows hrefused
        rw [hmap']
        simp only [hthrows, hrefused, not_false_eq_true, true_and, false_or]
        exact ih map'

/-! ## Well-formed entries -/

section WellFormed

variable {token : List Char} {code info : Int} {resource : BitVec 32 × Int × List Int}

/-- The parts of a well-formed entry. -/
structure Spells (token : List Char) (code info : Int) (values : List Int) : Prop where
  colon : ':' ∈ token
  code : code? token = some code
  info : infoOf token = some info
  values : (valueTexts token).mapM value? = some values

theorem spells_of_entryOf (h : entryOf token = some resource) :
    ∃ code info values, Spells token code info values ∧
      resource = (BitVec.ofInt 32 code, info, values) := by
  rw [entryOf] at h
  split at h
  · cases h
  · rename_i hcolon
    obtain ⟨code, hcode, h⟩ := Option.bind_eq_some_iff.mp h
    obtain ⟨info, hinfo, h⟩ := Option.bind_eq_some_iff.mp h
    obtain ⟨values, hvalues, h⟩ := Option.bind_eq_some_iff.mp h
    cases h
    exact ⟨code, info, values, ⟨not_not.mp hcolon, hcode, hinfo, hvalues⟩, rfl⟩

/-- An info text comes behind a `#`. -/
theorem hash_mem_of_resInfo (h : resInfo token ≠ []) : '#' ∈ opCode token := by
  by_contra hmem
  apply h
  have hdrop : (opCode token).dropWhile (· ≠ '#') = [] := by
    rw [List.dropWhile_eq_nil_iff]
    intro c hc
    have hne : c ≠ '#' := by
      rintro rfl
      exact hmem hc
    simp [hne]
  rw [resInfo, hdrop]
  rfl

/-- And a `#` of a well-formed entry has one behind it. -/
theorem resInfo_ne_nil {values : List Int} (h : Spells token code info values)
    (hhash : '#' ∈ opCode token) : resInfo token ≠ [] := by
  intro hnil
  have hinfo := h.info
  have hnone : stoi 0 (String.ofList []) = none := by decide
  rw [infoOf, if_pos hhash, info?, hnil, hnone] at hinfo
  cases hinfo

/-- A map with one code in it. -/
abbrev single (code : Int) (entry : Int × List Int) : ResourceMap :=
  AList.singleton (BitVec.ofInt 32 code) entry

theorem update_empty (code : Int) (change : Int × List Int → Int × List Int) :
    update ∅ code change = single code (change (0, [])) := by
  rw [update, AList.insert_empty]
  rfl

theorem update_single (code : Int) (entry : Int × List Int)
    (change : Int × List Int → Int × List Int) :
    update (single code entry) code change = single code (change entry) := by
  have hlookup : (single code entry).lookup (BitVec.ofInt 32 code) = some entry := by
    rw [single, AList.lookup, AList.singleton_entries, List.dlookup_cons_eq]
  rw [update, hlookup, AList.insert_singleton_eq]
  rfl

/-- The values are collected behind those that are there. -/
theorem addValues_single (hcode : code? token = some code) {texts : List (List Char)}
    {values : List Int} (h : List.Forall₂ (fun text v => value? text = some v) texts values)
    (i : Int) (done : List Int) :
    texts.foldlM (addValue token) (single code (i, done)) =
      .ok (single code (i, done ++ values)) := by
  induction h generalizing done with
  | nil =>
    rw [List.append_nil]
    rfl
  | @cons text v texts values hv _ ih =>
    have hadd : addValue token (single code (i, done)) text =
        .ok (single code (i, done ++ [v])) := by
      rw [addValue, hcode, hv]
      exact congrArg Except.ok (update_single code (i, done) _)
    rw [List.foldlM_cons, hadd]
    show texts.foldlM (addValue token) (single code (i, done ++ [v])) = _
    rw [ih, List.append_assoc]
    rfl

/-- A well-formed entry by itself is collected as it is, if it leaves anything. -/
theorem parseEntry_of_spells {values : List Int} (h : Spells token code info values) :
    parseEntry ∅ token = .ok (if Stored token then single code (info, values) else ∅) := by
  have hforall := Lists.forall₂_of_mapM h.values
  rw [parseEntry, if_neg (not_not_intro h.colon)]
  by_cases hinfo : resInfo token = []
  · -- no info: the code is entered with the first value
    have hzero : info = 0 := by
      have hhash : '#' ∉ opCode token := fun hmem => resInfo_ne_nil h hmem hinfo
      have hsome := h.info
      rw [infoOf, if_neg hhash] at hsome
      exact (Option.some.inj hsome).symm
    rw [setInfo, if_pos hinfo]
    show (valueTexts token).foldlM (addValue token) ∅ = _
    cases htexts : valueTexts token with
    | nil =>
      have hstored : ¬ Stored token := fun h => h.elim (fun h => h hinfo) fun h => h htexts
      rw [if_neg hstored]
      rfl
    | cons text texts =>
      rw [htexts] at hforall
      cases hforall with
      | @cons _ v _ values hv hrest =>
        have hadd : addValue token ∅ text = .ok (single code (0, [v])) := by
          rw [addValue, h.code, hv]
          exact congrArg Except.ok (update_empty code _)
        have hstored : Stored token := by
          refine Or.inr ?_
          rw [htexts]
          exact List.cons_ne_nil _ _
        rw [if_pos hstored, List.foldlM_cons, hadd, hzero]
        exact addValues_single h.code hrest 0 [v]
  · have hsome := h.info
    rw [infoOf, if_pos (hash_mem_of_resInfo hinfo)] at hsome
    have hset : setInfo ∅ token = .ok (single code (info, [])) := by
      rw [setInfo, if_neg hinfo, hsome, h.code]
      exact congrArg Except.ok (update_empty code _)
    have hstored : Stored token := Or.inl hinfo
    rw [if_pos hstored, hset]
    exact addValues_single h.code hforall info []

end WellFormed

/-! ## Which inputs come back -/

/-- The inputs that the parser handles as it should: with at most one entry, which leaves something in
the map, or with an entry that is refused before one throws. -/
def Handled (input : String) : Prop :=
  match resourcesOf input with
  | some resources => resources.length ≤ 1 ∧ ∀ token ∈ getlines ';' input.toList, Stored token
  | none => RefusedFirst (getlines ';' input.toList)

theorem lawful_entries : Lawful entries := fun _ => .refl _

theorem lawful_reverse : Lawful fun map => (entries map).reverse := fun map =>
  List.reverse_perm (entries map)

theorem nodup_codes (map : ResourceMap) : ((entries map).map (·.1)).Nodup := by
  have hkeys : (entries map).map (·.1) = map.keys := by
    rw [entries, List.map_map]
    rfl
  rw [hkeys]
  exact map.keys_nodup

/-- A list of different codes that reads the same backwards has one entry at most. -/
theorem length_le_one_of_reverse {resources : ResourceVec} (hnodup : (resources.map (·.1)).Nodup)
    (hreverse : resources.reverse = resources) : resources.length ≤ 1 := by
  by_contra hlong
  have hfirst : 0 < resources.length := by omega
  have hlast : resources.length - 1 < resources.length := by omega
  have heq : resources[0] = resources[resources.length - 1] := by
    have hpos : 0 < resources.reverse.length := by
      rw [List.length_reverse]
      exact hfirst
    have hget : resources.reverse[0] = resources[0] := by
      simp only [hreverse]
    rw [← hget, List.getElem_reverse]
    simp
  have hindex := (hnodup.of_map _).getElem_inj_iff.mp heq
  omega

section Inputs

variable {input : String} {resources : ResourceVec}

theorem not_bad_of_entryOf {token : List Char} {resource : BitVec 32 × Int × List Int}
    (h : entryOf token = some resource) : ¬ Throws token ∧ ¬ Rejected token := by
  obtain ⟨code, info, values, hspells, -⟩ := spells_of_entryOf h
  have hok := parseEntry_of_spells hspells
  constructor
  · intro hthrows
    rw [parseEntry_of_throws hthrows] at hok
    cases hok
  · intro hrejected
    rw [parseEntry_of_rejected hrejected] at hok
    cases hok

/-- Well-formed entries are all collected. -/
theorem foldlM_ok (tokens : List (List Char)) {resources : ResourceVec}
    (h : tokens.mapM entryOf = some resources) (map : ResourceMap) :
    ∃ map', tokens.foldlM parseEntry map = .ok map' := by
  have hforall := Lists.forall₂_of_mapM h
  clear h
  induction hforall generalizing map with
  | nil => exact ⟨map, rfl⟩
  | @cons token resource tokens resources htoken _ ih =>
    obtain ⟨hthrows, hrejected⟩ := not_bad_of_entryOf htoken
    obtain ⟨map', hmap'⟩ : ∃ map', parseEntry map token = .ok map' := parseEntry_ok hthrows hrejected
    rw [List.foldlM_cons, hmap']
    exact ih map'

/-- A malformed input is refused exactly when an entry is refused before one throws. -/
theorem keeps_of_malformed (h : resourcesOf input = none) (iterate : ResourceMap → ResourceVec) :
    Keeps iterate input ↔ RefusedFirst (getlines ';' input.toList) := by
  rw [← foldlM_rejected_iff _ ∅, Keeps, h, parseResources]
  constructor
  · intro hreturned
    split at hreturned
    · rename_i heq
      exact heq
    · cases hreturned
    · cases hreturned
  · intro hfold
    rw [hfold]

theorem keeps_iff_iterate (h : resourcesOf input = some resources)
    {map : ResourceMap} (hmap : (getlines ';' input.toList).foldlM parseEntry ∅ = .ok map)
    (iterate : ResourceMap → ResourceVec) : Keeps iterate input ↔ iterate map = resources := by
  rw [Keeps, h, parseResources, hmap]
  simp only [Outcome.returned.injEq, true_and]

/-- The entries of the map in either direction cannot both be the resources, unless there is one. -/
theorem length_le_one (h : resourcesOf input = some resources)
    (hkeeps : ∀ iterate, Lawful iterate → Keeps iterate input) : resources.length ≤ 1 := by
  obtain ⟨map, hmap⟩ := foldlM_ok _ h ∅
  have hforward := (keeps_iff_iterate h hmap _).mp (hkeeps _ lawful_entries)
  have hbackward := (keeps_iff_iterate h hmap _).mp (hkeeps _ lawful_reverse)
  rw [← hforward]
  apply length_le_one_of_reverse (nodup_codes map)
  rw [hforward] at hbackward ⊢
  exact hbackward

theorem keeps_of_wellFormed (h : resourcesOf input = some resources) :
    (∀ iterate, Lawful iterate → Keeps iterate input) ↔
      resources.length ≤ 1 ∧ ∀ token ∈ getlines ';' input.toList, Stored token := by
  have hforall := Lists.forall₂_of_mapM (show (getlines ';' input.toList).mapM entryOf = some resources from h)
  obtain ⟨map, hmap⟩ := foldlM_ok _ h ∅
  have hlength : (∀ iterate, Lawful iterate → Keeps iterate input) → resources.length ≤ 1 :=
    length_le_one h
  simp only [keeps_iff_iterate h hmap] at hlength ⊢
  cases htokens : getlines ';' input.toList with
  | nil =>
    rw [htokens] at hforall hmap
    cases hforall
    cases hmap
    refine iff_of_true (fun iterate hlawful => ?_) ⟨Nat.zero_le 1, fun token ht => by cases ht⟩
    exact List.perm_nil.mp (hlawful ∅)
  | cons token tokens =>
    rw [htokens] at hforall hmap
    cases hforall with
    | @cons _ resource _ others htoken hothers =>
      cases hothers with
      | cons _ _ =>
        refine iff_of_false (fun hkeeps => ?_) fun h => ?_
        · have := hlength hkeeps
          simp at this
        · have := h.1
          simp at this
      | nil =>
        -- one entry: the map holds it alone, or nothing
        obtain ⟨code, info, values, hspells, rfl⟩ := spells_of_entryOf htoken
        have hparse := parseEntry_of_spells hspells
        have hone : [token].foldlM parseEntry ∅ = parseEntry ∅ token := by
          rw [List.foldlM_cons]
          cases parseEntry ∅ token <;> rfl
        rw [hone, hparse] at hmap
        simp only [List.forall_mem_singleton, List.length_singleton, le_refl, true_and]
        by_cases hstored : Stored token
        · rw [if_pos hstored] at hmap
          cases hmap
          refine iff_of_true (fun iterate hlawful => ?_) hstored
          exact List.perm_singleton.mp (hlawful (single code (info, values)))
        · rw [if_neg hstored] at hmap
          cases hmap
          refine iff_of_false (fun hkeeps => ?_) hstored
          exact absurd (hkeeps entries lawful_entries) (List.cons_ne_nil _ _).symm

end Inputs

/-- **The list comes back entry by entry**, whatever the order of the map, exactly for the handled
inputs. -/
theorem keeps_iff_handled (input : String) :
    (∀ iterate, Lawful iterate → Keeps iterate input) ↔ Handled input := by
  unfold Handled
  cases h : resourcesOf input with
  | some resources => exact keeps_of_wellFormed h
  | none =>
    refine ⟨fun hkeeps => ?_, fun hrefused iterate _ => (keeps_of_malformed h iterate).mpr hrefused⟩
    exact (keeps_of_malformed h entries).mp (hkeeps entries lawful_entries)

/-- The same resource on two clusters comes back as one entry, under every order of the map. -/
theorem not_keeps_clusters {iterate : ResourceMap → ResourceVec} (hlawful : Lawful iterate) :
    ¬ Keeps iterate "0x00040000#0x100:5;0x00040000#0x101:7" := by
  intro hkeeps
  have hresources : resourcesOf "0x00040000#0x100:5;0x00040000#0x101:7" =
      some [(0x40000, 0x100, [5]), (0x40000, 0x101, [7])] := by decide
  obtain ⟨map, hmap⟩ := foldlM_ok _ hresources ∅
  have hone : ((getlines ';' "0x00040000#0x100:5;0x00040000#0x101:7".toList).foldlM parseEntry
      ∅).toOption.map (fun map => (entries map).length) = some 1 := by decide
  rw [hmap] at hone
  have hentries : (entries map).length = 1 := Option.some.inj hone
  have hlist := (keeps_iff_iterate hresources hmap iterate).mp hkeeps
  have hlength := (hlawful map).length_eq
  rw [hlist, hentries] at hlength
  cases hlength

/-- **Two clusters run together**, and a malformed info is an exception. -/
theorem clusters_run_together :
    (¬ ∀ iterate, Lawful iterate → Keeps iterate "0x00040000#0x100:5;0x00040000#0x101:7") ∧
      parseResources entries "1#x:5" = .threw ∧
      ¬ ∀ iterate, Lawful iterate → Keeps iterate "1#x:5" := by
  have hthrew : parseResources entries "1#x:5" = .threw := rfl
  refine ⟨fun hkeeps => ?_, hthrew, fun hkeeps => ?_⟩
  · exact not_keeps_clusters lawful_entries (hkeeps entries lawful_entries)
  · have hmalformed := hkeeps entries lawful_entries
    have hresources : resourcesOf "1#x:5" = none := by decide
    rw [Keeps, hthrew, hresources] at hmalformed
    cases hmalformed

end ResourceTuner.ClientCLI
