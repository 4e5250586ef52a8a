import Mathlib.Data.List.Basic

/-!
# Bounded circular buffers

A circular buffer of fixed capacity overwrites its oldest element when one more
is pushed into a full buffer.  The buffer is a parameter: any container with the
operations below, of which no more is known than the laws stated with them.  They
are about the list of elements, which runs from the oldest, at the front, to the
newest, at the back.  Bounded lists are the simplest such container.
-/

/-- The operations of a circular buffer and their documented laws.  `front` and
`modifyBack`, a change made through the reference that `back` returns, may be
called only when there is an element. -/
class CircularBuffer (Container : Type → Type) where
  capacity {Value : Type} : Container Value → Nat
  elements {Value : Type} : Container Value → List Value
  withCapacity {Value : Type} : Nat → Container Value
  resize {Value : Type} : Container Value → Nat → Value → Container Value
  front {Value : Type} (buffer : Container Value) : elements buffer ≠ [] → Value
  modifyBack {Value : Type} (buffer : Container Value) :
    elements buffer ≠ [] → (Value → Value) → Container Value
  pushBack {Value : Type} : Container Value → Value → Container Value
  /-- A new buffer is empty. -/
  elements_withCapacity {Value : Type} (size : Nat) :
    elements (withCapacity size : Container Value) = []
  capacity_withCapacity {Value : Type} (size : Nat) :
    capacity (withCapacity size : Container Value) = size
  /-- Within the capacity, `resize` adds copies of the value at the back. -/
  elements_resize {Value : Type} (buffer : Container Value) (size : Nat) (value : Value) :
    (elements buffer).length ≤ size → size ≤ capacity buffer →
      elements (resize buffer size value) =
        elements buffer ++ List.replicate (size - (elements buffer).length) value
  capacity_resize {Value : Type} (buffer : Container Value) (size : Nat) (value : Value) :
    size ≤ capacity buffer → capacity (resize buffer size value) = capacity buffer
  /-- `front` is the oldest element. -/
  front_eq {Value : Type} (buffer : Container Value) (nonempty : elements buffer ≠ []) :
    front buffer nonempty = (elements buffer).head nonempty
  /-- `back` is the newest element, and a change made through it changes no other. -/
  elements_modifyBack {Value : Type} (buffer : Container Value)
    (nonempty : elements buffer ≠ []) (update : Value → Value) :
    elements (modifyBack buffer nonempty update) =
      (elements buffer).dropLast ++ [update ((elements buffer).getLast nonempty)]
  capacity_modifyBack {Value : Type} (buffer : Container Value)
    (nonempty : elements buffer ≠ []) (update : Value → Value) :
    capacity (modifyBack buffer nonempty update) = capacity buffer
  /-- `push_back` on a full buffer drops exactly the front. -/
  elements_pushBack {Value : Type} (buffer : Container Value) (value : Value) :
    elements buffer ≠ [] → (elements buffer).length = capacity buffer →
      elements (pushBack buffer value) = (elements buffer).tail ++ [value]
  capacity_pushBack {Value : Type} (buffer : Container Value) (value : Value) :
    capacity (pushBack buffer value) = capacity buffer

namespace CircularBuffer

variable {Container : Type → Type} [CircularBuffer Container] {Value : Type}
  {buffer : Container Value}

/-- As many elements as the capacity, and at least one. -/
structure Full (buffer : Container Value) : Prop where
  length_eq : (elements buffer).length = capacity buffer
  positive : 0 < capacity buffer

/-- A new buffer that is resized to its capacity holds that many copies. -/
theorem elements_filled (size : Nat) (value : Value) :
    elements (resize (withCapacity size : Container Value) size value) =
      List.replicate size value := by
  rw [elements_resize]
  · simp [elements_withCapacity]
  · simp [elements_withCapacity]
  · exact Nat.le_of_eq (capacity_withCapacity size).symm

theorem capacity_filled (size : Nat) (value : Value) :
    capacity (resize (withCapacity size : Container Value) size value) = size := by
  rw [capacity_resize]
  · exact capacity_withCapacity size
  · exact Nat.le_of_eq (capacity_withCapacity size).symm

theorem filled_full {size : Nat} (positive : 0 < size) (value : Value) :
    Full (resize (withCapacity size : Container Value) size value) := by
  refine ⟨?_, ?_⟩
  · rw [elements_filled, capacity_filled, List.length_replicate]
  · rw [capacity_filled]
    exact positive

theorem Full.ne_nil (full : Full buffer) : elements buffer ≠ [] := by
  apply List.ne_nil_of_length_pos
  rw [full.length_eq]
  exact full.positive

theorem Full.exists_front (full : Full buffer) :
    ∃ value rest, elements buffer = value :: rest ∧ front buffer full.ne_nil = value := by
  obtain ⟨value, rest, elementsEq⟩ := List.exists_cons_of_ne_nil full.ne_nil
  refine ⟨value, rest, elementsEq, ?_⟩
  rw [front_eq]
  simp [elementsEq]

/-- The newest element of a full buffer is the only one `modifyBack` changes. -/
theorem Full.modifyBack (full : Full buffer) (update : Value → Value) :
    ∃ older newest, elements buffer = older ++ [newest] ∧
      elements (modifyBack buffer full.ne_nil update) = older ++ [update newest] ∧
        Full (modifyBack buffer full.ne_nil update) := by
  have split := List.dropLast_append_getLast full.ne_nil
  have modified := elements_modifyBack buffer full.ne_nil update
  refine ⟨_, _, split.symm, modified, ?_, ?_⟩
  · have lengthEq := congrArg List.length split
    rw [modified, capacity_modifyBack, ← full.length_eq]
    simpa only [List.length_append, List.length_singleton] using lengthEq
  · rw [capacity_modifyBack]
    exact full.positive

theorem Full.elements_pushBack (full : Full buffer) {oldest : Value} {rest : List Value}
    (elementsEq : elements buffer = oldest :: rest) (value : Value) :
    elements (pushBack buffer value) = rest ++ [value] := by
  rw [CircularBuffer.elements_pushBack buffer value full.ne_nil full.length_eq, elementsEq,
    List.tail_cons]

theorem Full.pushBack (full : Full buffer) (value : Value) :
    Full (pushBack buffer value) := by
  obtain ⟨oldest, rest, elementsEq, -⟩ := full.exists_front
  refine ⟨?_, ?_⟩
  · rw [full.elements_pushBack elementsEq, capacity_pushBack, ← full.length_eq, elementsEq]
    simp
  · rw [capacity_pushBack]
    exact full.positive

end CircularBuffer

/-! ## Bounded lists -/

/-- At most `capacity` elements, oldest first. -/
structure BoundedList (Value : Type) where
  capacity : Nat
  items : List Value
  length_le : items.length ≤ capacity

namespace BoundedList

variable {Value : Type}

/-- Copies of the value are added, or elements are dropped, at the back; the
capacity grows when it has to. -/
def resize (list : BoundedList Value) (size : Nat) (value : Value) : BoundedList Value where
  capacity := max list.capacity size
  items := (list.items ++ List.replicate (size - list.items.length) value).take size
  length_le := by
    have bound := List.length_take_le size
      (list.items ++ List.replicate (size - list.items.length) value)
    omega

def modifyBack (list : BoundedList Value) (nonempty : list.items ≠ [])
    (update : Value → Value) : BoundedList Value where
  capacity := list.capacity
  items := list.items.dropLast ++ [update (list.items.getLast nonempty)]
  length_le := by
    have positive := List.length_pos_of_ne_nil nonempty
    have bound := list.length_le
    simp only [List.length_append, List.length_dropLast, List.length_singleton]
    omega

/-- Add a newest element.  A full list loses its oldest one, and a list without
capacity stays as it is. -/
def pushBack (list : BoundedList Value) (value : Value) : BoundedList Value :=
  if full : list.items.length = list.capacity then
    { capacity := list.capacity
      items := (list.items ++ [value]).tail
      length_le := by simp [full] }
  else
    { capacity := list.capacity
      items := list.items ++ [value]
      length_le := by
        have bound := list.length_le
        simp only [List.length_append, List.length_singleton]
        omega }

theorem items_pushBack_full (list : BoundedList Value) (value : Value)
    (nonempty : list.items ≠ []) (full : list.items.length = list.capacity) :
    (list.pushBack value).items = list.items.tail ++ [value] := by
  rw [pushBack, dif_pos full]
  exact List.tail_append_of_ne_nil nonempty

theorem capacity_pushBack (list : BoundedList Value) (value : Value) :
    (list.pushBack value).capacity = list.capacity := by
  unfold pushBack
  split <;> rfl

theorem items_resize (list : BoundedList Value) (size : Nat) (value : Value)
    (grows : list.items.length ≤ size) :
    (list.resize size value).items =
      list.items ++ List.replicate (size - list.items.length) value := by
  refine List.take_of_length_le ?_
  rw [List.length_append, List.length_replicate]
  omega

instance : CircularBuffer BoundedList where
  capacity := BoundedList.capacity
  elements := BoundedList.items
  withCapacity size := ⟨size, [], Nat.zero_le size⟩
  resize := resize
  front list nonempty := list.items.head nonempty
  modifyBack := modifyBack
  pushBack := pushBack
  elements_withCapacity _ := rfl
  capacity_withCapacity _ := rfl
  elements_resize list size value grows _ := items_resize list size value grows
  capacity_resize _ _ _ within := Nat.max_eq_left within
  front_eq _ _ := rfl
  elements_modifyBack _ _ _ := rfl
  capacity_modifyBack _ _ _ := rfl
  elements_pushBack := items_pushBack_full
  capacity_pushBack := capacity_pushBack

end BoundedList
