import Mathlib.Data.List.Sort

/-!
# Ordered sets

A set over a linear order, kept as the strictly increasing list of its elements,
with the operations of an ordered container: insertion, removal, the first
element, and the split of the elements at a lower bound.
-/

structure OrderedSet (Value : Type*) [LinearOrder Value] where
  items : List Value
  increasing : items.Pairwise (· < ·)

namespace OrderedSet

variable {Value : Type*} [LinearOrder Value]

instance : Membership Value (OrderedSet Value) :=
  ⟨fun set value => value ∈ set.items⟩

instance (value : Value) (set : OrderedSet Value) : Decidable (value ∈ set) :=
  inferInstanceAs (Decidable (value ∈ set.items))

def empty : OrderedSet Value where
  items := []
  increasing := .nil

def size (set : OrderedSet Value) : Nat :=
  set.items.length

def first? (set : OrderedSet Value) : Option Value :=
  set.items.head?

theorem nodup (set : OrderedSet Value) : set.items.Nodup :=
  set.increasing.imp fun less => less.ne

/-- Add an element; a set that has it already stays as it is. -/
def insert (set : OrderedSet Value) (value : Value) : OrderedSet Value :=
  if present : value ∈ set.items then set
  else
    { items := set.items.orderedInsert (· ≤ ·) value
      increasing := by
        have weakly : (set.items.orderedInsert (· ≤ ·) value).Pairwise (· ≤ ·) :=
          (set.increasing.imp fun less => less.le).orderedInsert value _
        have distinct : (set.items.orderedInsert (· ≤ ·) value).Nodup :=
          (List.perm_orderedInsert (· ≤ ·) value set.items).nodup_iff.mpr
            (List.nodup_cons.mpr ⟨present, set.nodup⟩)
        exact (weakly.and distinct).imp fun both => lt_of_le_of_ne both.1 both.2 }

def erase (set : OrderedSet Value) (value : Value) : OrderedSet Value where
  items := set.items.erase value
  increasing := set.increasing.sublist List.erase_sublist

/-- The elements in front of the lower bound of a value, in order. -/
def below (set : OrderedSet Value) (bound : Value) : List Value :=
  set.items.filter (· < bound)

/-- The elements from the lower bound of a value on. -/
def dropBelow (set : OrderedSet Value) (bound : Value) : OrderedSet Value where
  items := set.items.filter (¬ · < bound)
  increasing := set.increasing.filter _

@[simp]
theorem notMem_empty (value : Value) : value ∉ (empty : OrderedSet Value) :=
  List.not_mem_nil

@[simp]
theorem mem_insert {set : OrderedSet Value} {value other : Value} :
    other ∈ set.insert value ↔ other = value ∨ other ∈ set := by
  unfold insert
  split
  · rename_i present
    constructor
    · exact .inr
    · rintro (rfl | member)
      · exact present
      · exact member
  · exact List.mem_orderedInsert (· ≤ ·)

@[simp]
theorem mem_erase {set : OrderedSet Value} {value other : Value} :
    other ∈ set.erase value ↔ other ≠ value ∧ other ∈ set :=
  set.nodup.mem_erase_iff

@[simp]
theorem mem_below {set : OrderedSet Value} {bound value : Value} :
    value ∈ set.below bound ↔ value ∈ set ∧ value < bound := by
  rw [below, List.mem_filter, decide_eq_true_eq]
  rfl

@[simp]
theorem mem_dropBelow {set : OrderedSet Value} {bound value : Value} :
    value ∈ set.dropBelow bound ↔ value ∈ set ∧ bound ≤ value := by
  rw [← not_lt]
  exact List.mem_filter.trans (and_congr_right fun _ => decide_eq_true_iff)

theorem below_increasing (set : OrderedSet Value) (bound : Value) :
    (set.below bound).Pairwise (· < ·) :=
  set.increasing.filter _

theorem size_insert {set : OrderedSet Value} {value : Value}
    (absent : value ∉ set) : (set.insert value).size = set.size + 1 := by
  have absent' : value ∉ set.items := absent
  simp [insert, absent', size, List.orderedInsert_length]

theorem size_erase {set : OrderedSet Value} {value : Value}
    (present : value ∈ set) : (set.erase value).size + 1 = set.size := by
  have nonempty : 0 < set.items.length := List.length_pos_of_mem present
  have erased : (set.erase value).size = set.items.length - 1 :=
    List.length_erase_of_mem present
  rw [erased, size]
  omega

theorem size_dropBelow (set : OrderedSet Value) (bound : Value) :
    (set.dropBelow bound).size + (set.below bound).length = set.size := by
  have split := set.items.length_eq_length_filter_add (· < bound)
  simp only [size, dropBelow, below] at split ⊢
  simp only [decide_not]
  omega

theorem first?_mem {set : OrderedSet Value} {value : Value}
    (first : set.first? = some value) : value ∈ set :=
  List.mem_of_mem_head? first

theorem first?_le {set : OrderedSet Value} {value other : Value}
    (first : set.first? = some value) (member : other ∈ set) : value ≤ other := by
  have increasing := set.increasing
  have inItems : other ∈ set.items := member
  cases itemsEq : set.items with
  | nil => simp [itemsEq] at inItems
  | cons head tail =>
      rw [first?, itemsEq] at first
      obtain rfl := Option.some.inj first
      rw [itemsEq] at inItems increasing
      rcases List.mem_cons.mp inItems with rfl | later
      · exact le_rfl
      · exact (List.rel_of_pairwise_cons increasing later).le

theorem first?_eq_none {set : OrderedSet Value} :
    set.first? = none ↔ ∀ value, value ∉ set := by
  rw [first?, List.head?_eq_none_iff, List.eq_nil_iff_forall_not_mem]
  rfl

end OrderedSet
