import ResourceTuner.Signals.SignalEntries

/-!
# The stack of keys

The parsers of `RestuneParser.cpp` keep the keys they are under on a stack.  A scalar that is a key goes
on it, any other belongs to the key on top, which it takes off unless the key has a list of values.

* **`hear`** — what a scalar is, and the stack after it;
* **`hearItems`** — what the elements of a list are.
-/

namespace ResourceTuner.RestuneParser

/-- What a scalar is to a parser. -/
inductive Heard where
  | key (keyTracker : List String)
  | data (topKey : String) (keyTracker : List String)
  | unexpected
  deriving DecidableEq, Repr

def hear (keyTracker : List String) (value : String) : Heard :=
  if isKey value then .key (value :: keyTracker)
  else
    match keyTracker with
    | [] => .unexpected
    | topKey :: rest => .data topKey (if isKeyTypeList topKey then topKey :: rest else rest)

/-- The data among some scalars, each with its key, and the stack that is left. -/
def hearItems : List String → List String → List (String × String) × List String
  | keyTracker, [] => ([], keyTracker)
  | keyTracker, item :: items =>
    match hear keyTracker item with
    | .key keyTracker => hearItems keyTracker items
    | .data topKey keyTracker =>
      ((topKey, item) :: (hearItems keyTracker items).1, (hearItems keyTracker items).2)
    | .unexpected => hearItems keyTracker items

section

variable {keyTracker base : List String} {key value : String}

theorem hear_key (h : isKey value = true) : hear keyTracker value = .key (value :: keyTracker) :=
  if_pos h

theorem hear_list (h : isKey value = false) (hlist : isKeyTypeList key = true) :
    hear (key :: keyTracker) value = .data key (key :: keyTracker) := by
  simp only [hear, h, hlist, Bool.false_eq_true, if_false, if_true]

theorem hear_value (h : isKey value = false) (hlist : isKeyTypeList key = false) :
    hear (key :: keyTracker) value = .data key keyTracker := by
  simp only [hear, h, hlist, Bool.false_eq_true, if_false]

/-- Under a list key nothing is unexpected, and the key stays where it is. -/
theorem hear_above (hlist : isKeyTypeList key = true) (above : List String) (value : String) :
    (∃ above', hear (above ++ key :: base) value = .key (above' ++ key :: base) ∧
        hear (above ++ [key]) value = .key (above' ++ [key])) ∨
      ∃ topKey above', hear (above ++ key :: base) value = .data topKey (above' ++ key :: base) ∧
        hear (above ++ [key]) value = .data topKey (above' ++ [key]) := by
  cases hkey : isKey value with
  | true => exact .inl ⟨value :: above, hear_key hkey, hear_key hkey⟩
  | false =>
    cases above with
    | nil => exact .inr ⟨key, [], hear_list hkey hlist, hear_list hkey hlist⟩
    | cons topKey above =>
      cases htop : isKeyTypeList topKey with
      | true => exact .inr ⟨topKey, topKey :: above, hear_list hkey htop, hear_list hkey htop⟩
      | false => exact .inr ⟨topKey, above, hear_value hkey htop, hear_value hkey htop⟩

/-- The elements of a list are heard alike, whatever is below its key. -/
theorem hearItems_above (hlist : isKeyTypeList key = true) (items above base : List String) :
    ∃ above', (hearItems (above ++ key :: base) items).2 = above' ++ key :: base ∧
      (hearItems (above ++ key :: base) items).1 = (hearItems (above ++ [key]) items).1 := by
  induction items generalizing above with
  | nil => exact ⟨above, rfl, rfl⟩
  | cons item items ih =>
    simp only [hearItems]
    rcases hear_above hlist above item with ⟨above', h, h'⟩ | ⟨topKey, above', h, h'⟩
    · rw [h, h']
      exact ih above'
    · rw [h, h']
      obtain ⟨above'', hleft, hheard⟩ := ih above'
      exact ⟨above'', hleft, congrArg ((topKey, item) :: ·) hheard⟩

end

end ResourceTuner.RestuneParser
