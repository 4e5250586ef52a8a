import Mathlib.Data.List.Basic

/-!
# Removal from a dense array

The last item of a dense array takes the place of an item that is removed, so
that nothing else moves.
-/

variable {Item : Type*}

/-- The list without the item at an index, whose place the last item takes. -/
def swapRemove (items : List Item) (index : Nat) : List Item :=
  match items.getLast? with
  | none => items
  | some last => (items.set index last).dropLast

theorem swapRemove_of_getLast? {items : List Item} {last : Item}
    (lastEq : items.getLast? = some last) (index : Nat) :
    swapRemove items index = (items.set index last).dropLast := by
  rw [swapRemove, lastEq]

@[simp]
theorem length_swapRemove (items : List Item) (index : Nat) :
    (swapRemove items index).length = items.length - 1 := by
  unfold swapRemove
  split
  · rename_i empty
    simp [List.getLast?_eq_none_iff.mp empty]
  · simp

/-- The last item is just dropped. -/
theorem swapRemove_last {items : List Item} {index : Nat}
    (isLast : index = items.length - 1) : swapRemove items index = items.dropLast := by
  unfold swapRemove
  split
  · rename_i empty
    simp [List.getLast?_eq_none_iff.mp empty]
  · rename_i last lastEq
    obtain ⟨front, rfl⟩ := List.getLast?_eq_some_iff.mp lastEq
    simp [isLast]

/-- The last item is found at the index now. -/
theorem getElem?_swapRemove_self {items : List Item} {index : Nat}
    (inside : index + 1 < items.length) :
    (swapRemove items index)[index]? = items[items.length - 1]? := by
  cases lastEq : items.getLast? with
  | none =>
      rw [List.getLast?_eq_none_iff.mp lastEq] at inside
      simp at inside
  | some last =>
      rw [swapRemove_of_getLast? lastEq, List.getElem?_dropLast, ← List.getLast?_eq_getElem?,
        lastEq, List.length_set, if_pos (by omega), List.getElem?_set_self (by omega)]

theorem getElem?_swapRemove_of_ne {items : List Item} {index other : Nat}
    (differs : other ≠ index) (before : other + 1 < items.length) :
    (swapRemove items index)[other]? = items[other]? := by
  cases lastEq : items.getLast? with
  | none =>
      rw [List.getLast?_eq_none_iff.mp lastEq] at before
      simp at before
  | some last =>
      rw [swapRemove_of_getLast? lastEq, List.getElem?_dropLast, List.length_set,
        if_pos (by omega), List.getElem?_set_ne differs.symm]
