import Mathlib.Data.List.Basic
import Mathlib.Data.List.Nodup
import Mathlib.Data.List.Perm.Subperm

/-!
# Linked lists with stable handles

A doubly linked list hands out handles to its nodes, and a handle stays good
until its own node is removed, however the other nodes move.  Here a handle is a
number that is never used twice, and the list is the sequence of its nodes from
front to back.
-/

/-- A list of nodes, front first.  Each node is a handle with its value; handles
are distinct and lie below the next handle to be given out. -/
structure StableList (Value : Type*) where
  nodes : List (Nat × Value)
  fresh : Nat
  handles_nodup : (nodes.map Prod.fst).Nodup
  handles_lt : ∀ node ∈ nodes, node.1 < fresh

namespace StableList

variable {Value : Type*}

def empty : StableList Value where
  nodes := []
  fresh := 0
  handles_nodup := List.nodup_nil
  handles_lt := by simp

def size (list : StableList Value) : Nat :=
  list.nodes.length

/-- The handle of the front node. -/
def begin (list : StableList Value) : Option Nat :=
  list.nodes.head?.map Prod.fst

/-- The value at the back. -/
def back (list : StableList Value) : Option Value :=
  list.nodes.getLast?.map Prod.snd

/-- Put a new node in front. -/
def pushFront (list : StableList Value) (value : Value) :
    StableList Value where
  nodes := (list.fresh, value) :: list.nodes
  fresh := list.fresh + 1
  handles_nodup := by
    simp only [List.map_cons, List.nodup_cons, List.mem_map, not_exists, not_and]
    refine ⟨?_, list.handles_nodup⟩
    intro node member equal
    exact Nat.ne_of_lt (list.handles_lt node member) equal
  handles_lt := by
    intro node member
    rcases List.mem_cons.mp member with rfl | older
    · exact Nat.lt_succ_self _
    · exact Nat.lt_succ_of_lt (list.handles_lt node older)

/-- Remove the back node. -/
def popBack (list : StableList Value) : StableList Value where
  nodes := list.nodes.dropLast
  fresh := list.fresh
  handles_nodup :=
    list.handles_nodup.sublist ((List.dropLast_sublist _).map Prod.fst)
  handles_lt := fun node member =>
    list.handles_lt node (List.dropLast_subset _ member)

/-- Move the node with the given handle to the front.  There is no such list
when the handle belongs to no node. -/
def moveToFront (list : StableList Value) (handle : Nat) :
    Option (StableList Value) :=
  match found : list.nodes.find? (fun node => node.1 == handle) with
  | none => none
  | some node =>
      some
        { nodes := node :: list.nodes.filter (fun other => other.1 != handle)
          fresh := list.fresh
          handles_nodup := by
            have handleEq : node.1 = handle := by
              simpa using List.find?_some found
            simp only [List.map_cons, List.nodup_cons]
            refine ⟨?_, list.handles_nodup.sublist (List.filter_sublist.map _)⟩
            simp [handleEq]
          handles_lt := by
            intro other member
            rcases List.mem_cons.mp member with rfl | rest
            · exact list.handles_lt _ (List.mem_of_find?_eq_some found)
            · exact list.handles_lt other (List.mem_filter.mp rest).1 }

@[simp]
theorem empty_nodes : (empty : StableList Value).nodes = [] :=
  rfl

@[simp]
theorem popBack_nodes (list : StableList Value) :
    list.popBack.nodes = list.nodes.dropLast :=
  rfl

theorem value_unique (list : StableList Value) {handle : Nat}
    {first second : Value} (firstMem : (handle, first) ∈ list.nodes)
    (secondMem : (handle, second) ∈ list.nodes) : first = second := by
  have equal := List.inj_on_of_nodup_map list.handles_nodup firstMem secondMem rfl
  exact congrArg Prod.snd equal

theorem exists_back {list : StableList Value} (nonempty : 0 < list.size) :
    ∃ value, list.back = some value := by
  have notNil : list.nodes ≠ [] := List.ne_nil_of_length_pos nonempty
  exact ⟨(list.nodes.getLast notNil).2, by simp [back, List.getLast?_eq_getLast_of_ne_nil notNil]⟩

theorem nodes_eq_popBack_append {list : StableList Value} {value : Value}
    (backEq : list.back = some value) :
    ∃ handle, list.nodes = list.popBack.nodes ++ [(handle, value)] := by
  obtain ⟨⟨handle, last⟩, lastEq, rfl⟩ := Option.map_eq_some_iff.mp backEq
  exact ⟨handle, (List.dropLast_append_getLast? _ lastEq).symm⟩

theorem back_mem {list : StableList Value} {value : Value}
    (backEq : list.back = some value) :
    ∃ handle, (handle, value) ∈ list.nodes := by
  obtain ⟨handle, split⟩ := nodes_eq_popBack_append backEq
  exact ⟨handle, by rw [split]; simp⟩

theorem mem_popBack_of_ne {list : StableList Value} {value : Value}
    {node : Nat × Value} (backEq : list.back = some value)
    (member : node ∈ list.nodes) (differs : node.2 ≠ value) :
    node ∈ list.popBack.nodes := by
  obtain ⟨handle, split⟩ := nodes_eq_popBack_append backEq
  rw [split, List.mem_append] at member
  rcases member with kept | last
  · exact kept
  · rw [List.mem_singleton] at last
    exact absurd (congrArg Prod.snd last) differs

theorem mem_of_mem_popBack {list : StableList Value} {node : Nat × Value}
    (member : node ∈ list.popBack.nodes) : node ∈ list.nodes :=
  List.dropLast_subset _ member

theorem popBack_size (list : StableList Value) :
    list.popBack.size = list.size - 1 := by
  simp [size]

theorem moveToFront_of_mem {list : StableList Value} {handle : Nat}
    {value : Value} (member : (handle, value) ∈ list.nodes) :
    ∃ moved, list.moveToFront handle = some moved := by
  unfold moveToFront
  split
  · rename_i absent
    have differs := List.find?_eq_none.mp absent _ member
    simp at differs
  · exact ⟨_, rfl⟩

/-- A successful move found the node, and only brought it to the front. -/
theorem moveToFront_eq_some {list moved : StableList Value} {handle : Nat}
    (movedEq : list.moveToFront handle = some moved) :
    ∃ value, (handle, value) ∈ list.nodes ∧
      moved.nodes = (handle, value) ::
        list.nodes.filter (fun other => other.1 != handle) := by
  unfold moveToFront at movedEq
  split at movedEq
  · simp at movedEq
  · rename_i node found
    have handleEq : node.1 = handle := by
      simpa using List.find?_some found
    subst handleEq
    obtain rfl := Option.some.inj movedEq
    exact ⟨node.2, List.mem_of_find?_eq_some found, rfl⟩

theorem moveToFront_begin {list moved : StableList Value} {handle : Nat}
    (movedEq : list.moveToFront handle = some moved) :
    moved.begin = some handle := by
  obtain ⟨value, -, nodesEq⟩ := moveToFront_eq_some movedEq
  simp [begin, nodesEq]

theorem mem_moveToFront {list moved : StableList Value} {handle : Nat}
    (movedEq : list.moveToFront handle = some moved) (node : Nat × Value) :
    node ∈ moved.nodes ↔ node ∈ list.nodes := by
  obtain ⟨value, member, nodesEq⟩ := moveToFront_eq_some movedEq
  rw [nodesEq, List.mem_cons, List.mem_filter]
  constructor
  · rintro (rfl | ⟨kept, -⟩)
    · exact member
    · exact kept
  · intro listed
    by_cases same : node.1 = handle
    · left
      subst same
      have valueEq : node.2 = value := list.value_unique listed member
      exact Prod.ext rfl valueEq
    · right
      exact ⟨listed, by simpa using same⟩

theorem moveToFront_size {list moved : StableList Value} {handle : Nat}
    (movedEq : list.moveToFront handle = some moved) :
    moved.size = list.size := by
  have movedNodup : moved.nodes.Nodup := moved.handles_nodup.of_map _
  have listNodup : list.nodes.Nodup := list.handles_nodup.of_map _
  apply Nat.le_antisymm
  · exact (List.subperm_of_subset movedNodup
      fun node => (mem_moveToFront movedEq node).mp).length_le
  · exact (List.subperm_of_subset listNodup
      fun node => (mem_moveToFront movedEq node).mpr).length_le

end StableList
