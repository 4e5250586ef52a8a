import Mathlib.Data.List.Basic

/-!
# Waiting on a condition variable

Threads take something from a shared store under a lock and wait on a condition variable
while there is nothing to take.  Whoever adds something notifies one thread.  A notified
thread does not get what was added: it has to look again, and another thread may have
been faster.  The rules of this file say that no wake-up is lost all the same: while a
thread waits, there are at least as many threads about to look as there are things to
take.
-/

/-- The list around one of its places. -/
theorem List.exists_split_of_getElem? {Thread : Type*} {threads : List Thread} {index : Nat}
    {old : Thread} (found : threads[index]? = some old) :
    ∃ before after, threads = before ++ old :: after ∧
      ∀ new, threads.set index new = before ++ new :: after := by
  obtain ⟨bound, oldEq⟩ := List.getElem?_eq_some_iff.mp found
  refine ⟨threads.take index, threads.drop (index + 1), ?_, ?_⟩
  · rw [← oldEq, List.getElem_cons_drop, List.take_append_drop]
  · intro new
    rw [List.set_eq_take_append_cons_drop, if_pos bound]

/-- A thread as the condition variable sees it: about to look, waiting, or doing something
else. -/
inductive Waiter
  | awake
  | waiting
  | away
  deriving DecidableEq, Repr

namespace Waiter

/-- Wake the chosen thread up. -/
def wake (threads : List Waiter) (index : Nat) : List Waiter :=
  if threads[index]? = some .waiting then threads.set index .awake else threads

/-- Wake all threads up. -/
def wakeAll (threads : List Waiter) : List Waiter :=
  threads.map fun thread => if thread = .waiting then .awake else thread

/-- `notify` wakes a thread that is waiting, if there is one. -/
def Notifies (threads : List Waiter) (index : Nat) : Prop :=
  .waiting ∈ threads → threads[index]? = some .waiting

instance (threads : List Waiter) (index : Nat) : Decidable (Notifies threads index) :=
  inferInstanceAs (Decidable (.waiting ∈ threads → threads[index]? = some .waiting))

def NoLostWakeup (available : Nat) (threads : List Waiter) : Prop :=
  .waiting ∈ threads → available ≤ threads.count .awake

/-- Counting after one thread has changed. -/
theorem count_set {threads : List Waiter} {index : Nat} {old : Waiter}
    (found : threads[index]? = some old) (new kind : Waiter) :
    (threads.set index new).count kind + (if old = kind then 1 else 0) =
      threads.count kind + if new = kind then 1 else 0 := by
  obtain ⟨before, after, split, replaced⟩ := List.exists_split_of_getElem? found
  rw [replaced, split]
  simp only [List.count_append, List.count_cons, beq_iff_eq]
  omega

section Rules

variable {available : Nat} {threads : List Waiter} {index : Nat}

theorem NoLostWakeup.of_none (nobody : .waiting ∉ threads) : NoLostWakeup available threads :=
  fun waits => absurd waits nobody

theorem NoLostWakeup.mono {fewer : Nat} (kept : NoLostWakeup available threads)
    (less : fewer ≤ available) : NoLostWakeup fewer threads :=
  fun waits => Nat.le_trans less (kept waits)

/-- A thread changes and does not start to wait. -/
theorem NoLostWakeup.set {old new : Waiter} {available' : Nat}
    (kept : NoLostWakeup available threads) (found : threads[index]? = some old)
    (notWaiting : new ≠ .waiting)
    (enough : available' + (if old = .awake then 1 else 0) ≤
      available + if new = .awake then 1 else 0) :
    NoLostWakeup available' (threads.set index new) := by
  intro waits
  have counted := count_set found new .awake
  rcases List.mem_or_eq_of_mem_set waits with before | equal
  · have lower := kept before
    omega
  · exact absurd equal.symm notWaiting

/-- A thread comes to look. -/
theorem NoLostWakeup.arrive (kept : NoLostWakeup available threads)
    (found : threads[index]? = some .away ∨ threads[index]? = some .waiting) :
    NoLostWakeup available (threads.set index .awake) := by
  rcases found with found | found <;>
    exact kept.set found (by decide) (Nat.le_add_right _ _)

/-- One more thread comes to look. -/
theorem NoLostWakeup.join (kept : NoLostWakeup available threads) :
    NoLostWakeup available (threads ++ [.awake]) := by
  intro waits
  rw [List.count_append]
  rcases List.mem_append.mp waits with before | new
  · exact Nat.le_add_right_of_le (kept before)
  · simp at new

/-- A thread wakes up for no reason. -/
theorem NoLostWakeup.spurious (kept : NoLostWakeup available threads) (index : Nat) :
    NoLostWakeup available (Waiter.wake threads index) := by
  unfold Waiter.wake
  split
  · rename_i found
    exact kept.arrive (.inr found)
  · exact kept

/-- A thread takes one thing. -/
theorem NoLostWakeup.take (kept : NoLostWakeup (available + 1) threads)
    (found : threads[index]? = some .awake) :
    NoLostWakeup available (threads.set index .away) :=
  kept.set found (by decide) (Nat.le_refl _)

/-- A thread finds nothing, and waits or goes away. -/
theorem NoLostWakeup.leave (new : Waiter) : NoLostWakeup 0 (threads.set index new) :=
  fun _ => Nat.zero_le _

/-- Something is added and a thread is notified. -/
theorem NoLostWakeup.notify (kept : NoLostWakeup available threads)
    (notifies : Notifies threads index) :
    NoLostWakeup (available + 1) (wake threads index) := by
  unfold wake
  by_cases found : threads[index]? = some .waiting
  · rw [if_pos found]
    exact kept.set found (by decide) (Nat.le_refl _)
  · rw [if_neg found]
    exact .of_none fun waits => found (notifies waits)

theorem waiting_notMem_set {new : Waiter} (nobody : .waiting ∉ threads)
    (notWaiting : new ≠ .waiting) : .waiting ∉ threads.set index new := by
  intro waits
  rcases List.mem_or_eq_of_mem_set waits with before | equal
  · exact nobody before
  · exact notWaiting equal.symm

theorem wake_of_none (nobody : .waiting ∉ threads) : wake threads index = threads :=
  if_neg fun found => nobody (List.mem_of_getElem? found)

theorem wakeAll_of_none (nobody : .waiting ∉ threads) : wakeAll threads = threads := by
  refine (List.map_congr_left fun thread member => ?_).trans (List.map_id threads)
  have notWaiting : thread ≠ .waiting := fun waiting => nobody (waiting ▸ member)
  exact if_neg notWaiting

theorem exists_notifies (threads : List Waiter) : ∃ index, Notifies threads index := by
  by_cases waits : .waiting ∈ threads
  · obtain ⟨index, found⟩ := List.mem_iff_getElem?.mp waits
    exact ⟨index, fun _ => found⟩
  · exact ⟨0, fun waiting => absurd waiting waits⟩

theorem waiting_notMem_wakeAll : .waiting ∉ wakeAll threads := by
  intro waits
  obtain ⟨thread, -, equal⟩ := List.mem_map.mp waits
  by_cases waiting : thread = .waiting
  · rw [if_pos waiting] at equal
    cases equal
  · rw [if_neg waiting] at equal
    exact waiting equal

end Rules

end Waiter
