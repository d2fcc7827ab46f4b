import Mathlib.Data.List.Basic

/-!
# Loops with an error that nobody takes back

A loop makes something of every item.  From the first item that fails on it makes nothing any more,
because the error of that item is still there.

* **`kept`** — what the loop makes;
* **`kept_eq_filterMap_iff`** — when that is what it would make of every item by itself.
-/

namespace StickyError

variable {α β : Type} (fails : α → Prop) [DecidablePred fails] (made : α → Option β)

/-- What the loop makes of some items. -/
def kept : List α → List β
  | [] => []
  | item :: items => (made item).toList ++ if fails item then [] else kept items

variable {fails made}

theorem filterMap_eq_nil_iff_forall {items : List α} :
    items.filterMap made = [] ↔ ∀ item ∈ items, made item = none :=
  List.filterMap_eq_nil_iff

/-- The items are made as by themselves exactly when nothing is made of any behind one that fails. -/
theorem kept_eq_filterMap_iff (items : List α) :
    kept fails made items = items.filterMap made ↔
      items.Pairwise fun item later => fails item → made later = none := by
  induction items with
  | nil => exact iff_of_true rfl .nil
  | cons item items ih =>
    have hcons : (item :: items).filterMap made = (made item).toList ++ items.filterMap made := by
      rw [List.filterMap_cons]
      cases made item <;> rfl
    rw [kept, hcons, List.append_cancel_left_eq, List.pairwise_cons]
    by_cases hfails : fails item
    · rw [if_pos hfails, eq_comm, filterMap_eq_nil_iff_forall]
      constructor
      · intro hnone
        refine ⟨fun later hlater _ => hnone later hlater, List.pairwise_of_forall_mem_list ?_⟩
        exact fun _ _ later hlater _ => hnone later hlater
      · exact fun h later hlater => h.1 later hlater hfails
    · rw [if_neg hfails, ih]
      exact ⟨fun h => ⟨fun _ _ hitem => absurd hitem hfails, h⟩, fun h => h.2⟩

end StickyError
