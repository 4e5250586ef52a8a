import Mathlib.Data.List.Basic

/-!
# Time wheels

A wheel is a list of slots, the oldest first.  A turn drops the oldest slot and
adds an empty one at the end, and between the turns only the newest slot changes.
So a slot that is not the newest reaches the front as it is, and the slots that
were there at the start are all gone after as many turns as there are slots.
-/

namespace TimeWheel

variable {Slot : Type*}

/-- The slots after a number of turns, when between them the newest slot changed
in the given way. -/
inductive Turned (empty : Slot) (change : Slot → Slot → Prop) (initial : List Slot) :
    Nat → List Slot → Prop
  | start : Turned empty change initial 0 initial
  | turn {turns : Nat} {oldest : Slot} {rest : List Slot} :
      Turned empty change initial turns (oldest :: rest) →
        Turned empty change initial (turns + 1) (rest ++ [empty])
  | touch {turns : Nat} {older : List Slot} {newest changed : Slot} :
      Turned empty change initial turns (older ++ [newest]) →
        change newest changed →
          Turned empty change initial turns (older ++ [changed])

namespace Turned

variable {empty : Slot} {change : Slot → Slot → Prop} {initial slots : List Slot}
  {turns : Nat}

theorem length_eq (turned : Turned empty change initial turns slots) :
    slots.length = initial.length := by
  induction turned with
  | start => rfl
  | turn _ ih =>
      rw [← ih]
      simp
  | touch _ _ ih =>
      rw [← ih]
      simp

/-- The slots older than the newest one move towards the front unchanged. -/
theorem getElem?_older (turned : Turned empty change initial turns slots)
    (index : Nat) (inside : turns + index + 1 < initial.length) :
    slots[index]? = initial[turns + index]? := by
  induction turned generalizing index with
  | start => simp
  | @turn turns oldest rest previous ih =>
      have lengthEq := previous.length_eq
      have inRest : index < rest.length := by
        rw [List.length_cons] at lengthEq
        omega
      have moved : (oldest :: rest)[index + 1]? = initial[turns + (index + 1)]? :=
        ih (index + 1) (by omega)
      rw [List.getElem?_cons_succ] at moved
      rw [List.getElem?_append_left inRest, moved]
      congr 1
      omega
  | @touch turns older newest changed previous _ ih =>
      have lengthEq := previous.length_eq
      have inOlder : index < older.length := by
        rw [List.length_append, List.length_singleton] at lengthEq
        omega
      have kept := ih index inside
      rw [List.getElem?_append_left inOlder] at kept ⊢
      exact kept

/-- What holds of empty slots and is kept by the changes holds of every slot
added since the start. -/
theorem of_added (turned : Turned empty change initial turns slots)
    {property : Slot → Prop} (ofEmpty : property empty)
    (kept : ∀ newest changed, change newest changed →
      property newest → property changed)
    {index : Nat} (added : initial.length ≤ turns + index) {slot : Slot}
    (slotAt : slots[index]? = some slot) : property slot := by
  induction turned generalizing index slot with
  | start =>
      have inside := (List.getElem?_eq_some_iff.mp slotAt).1
      omega
  | @turn turns oldest rest previous ih =>
      by_cases inRest : index < rest.length
      · rw [List.getElem?_append_left inRest] at slotAt
        have movedAt : (oldest :: rest)[index + 1]? = some slot := by
          rw [List.getElem?_cons_succ]
          exact slotAt
        exact ih (by omega) movedAt
      · rw [List.getElem?_append_right (by omega)] at slotAt
        have last := List.mem_of_getElem? slotAt
        rw [List.mem_singleton.mp last]
        exact ofEmpty
  | @touch turns older newest changed previous changes ih =>
      by_cases inOlder : index < older.length
      · rw [List.getElem?_append_left inOlder] at slotAt
        apply ih added
        rw [List.getElem?_append_left inOlder]
        exact slotAt
      · have inside := (List.getElem?_eq_some_iff.mp slotAt).1
        have atEnd : index = older.length := by
          rw [List.length_append, List.length_singleton] at inside
          omega
        subst atEnd
        have slotEq : changed = slot := by simpa using slotAt
        have ofNewest : property newest := ih added (by simp)
        exact slotEq ▸ kept newest changed changes ofNewest

theorem all_added (turned : Turned empty change initial turns slots)
    {property : Slot → Prop} (ofEmpty : property empty)
    (kept : ∀ newest changed, change newest changed →
      property newest → property changed)
    (enough : initial.length ≤ turns) :
    ∀ slot ∈ slots, property slot := by
  intro slot member
  obtain ⟨index, slotAt⟩ := List.getElem?_of_mem member
  exact turned.of_added ofEmpty kept (by omega) slotAt

end Turned

end TimeWheel
