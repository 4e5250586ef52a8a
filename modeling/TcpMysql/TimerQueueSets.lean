import TcpMysql.TimerQueue

/-!
# No timer is lost or used after it was deleted

Every allocated timer is in one place: it waits to be added, it is in both sets,
or `handleRead` has taken it out and will put it back or delete it.  The sets are
described by the timers that are kept apart from them, and each operation only
moves timers from one place to another.  So no assertion fails, in every order of
calls.
-/

namespace TcpMysql

namespace TimerQueue

theorem deref_of {queue : TimerQueue} {timer : TimerPtr} {value : Timer}
    (found : queue.heap timer = some value) : queue.deref timer = .ok value := by
  simp [deref, found]

theorem store_self (queue : TimerQueue) (timer : TimerPtr) (value : Option Timer) :
    (queue.store timer value).heap timer = value := by
  simp [store]

theorem store_of_ne (queue : TimerQueue) {timer other : TimerPtr}
    (value : Option Timer) (differs : other ≠ timer) :
    (queue.store timer value).heap other = queue.heap other := by
  simp [store, differs]

theorem delete_of {queue : TimerQueue} {timer : TimerPtr} {value : Timer}
    (found : queue.heap timer = some value) :
    queue.delete timer = .ok (queue.store timer none) := by
  rw [delete, deref_of found, Except.ok_bind]
  rfl

/-- The two sets hold the allocated timers, except for those that are kept
apart. -/
structure Holds (queue : TimerQueue) (apart : TimerPtr → Prop) : Prop where
  sizes : queue.timers_.size = queue.activeTimers_.size
  timers : ∀ when timer, toLex (when, timer) ∈ queue.timers_ ↔
    ∃ value, queue.heap timer = some value ∧ value.expiration_ = when ∧ ¬apart timer
  active : ∀ timer sequence, toLex (timer, sequence) ∈ queue.activeTimers_ ↔
    ∃ value, queue.heap timer = some value ∧ value.sequence_ = sequence ∧ ¬apart timer

namespace Holds

variable {queue : TimerQueue} {apart : TimerPtr → Prop} {timer : TimerPtr}
  {value : Timer}

theorem notMem_timers (holds : queue.Holds apart) (isApart : apart timer)
    (when : Int) : toLex (when, timer) ∉ queue.timers_ := by
  rw [holds.timers]
  rintro ⟨_, -, -, notApart⟩
  exact notApart isApart

theorem notMem_active (holds : queue.Holds apart) (isApart : apart timer)
    (sequence : Nat) : toLex (timer, sequence) ∉ queue.activeTimers_ := by
  rw [holds.active]
  rintro ⟨_, -, -, notApart⟩
  exact notApart isApart

/-- What happens to a timer that is kept apart does not concern the sets. -/
theorem store (holds : queue.Holds apart) (isApart : apart timer)
    (changed : Option Timer) : (queue.store timer changed).Holds apart := by
  refine ⟨holds.sizes, ?_, ?_⟩
  · intro when other
    by_cases same : other = timer
    · subst same
      simp [holds.notMem_timers isApart, isApart, TimerQueue.store]
    · rw [store_of_ne _ _ same]
      exact holds.timers when other
  · intro other sequence
    by_cases same : other = timer
    · subst same
      simp [holds.notMem_active isApart, isApart, TimerQueue.store]
    · rw [store_of_ne _ _ same]
      exact holds.active other sequence

/-- The sets depend on the heap only, and only allocated timers can be kept
apart. -/
theorem congr {other : TimerQueue} {apart' : TimerPtr → Prop}
    (holds : queue.Holds apart) (heapEq : other.heap = queue.heap)
    (timersEq : other.timers_ = queue.timers_)
    (activeEq : other.activeTimers_ = queue.activeTimers_)
    (apartIff : ∀ timer value, queue.heap timer = some value →
      (apart' timer ↔ apart timer)) : other.Holds apart' := by
  refine ⟨by rw [timersEq, activeEq, holds.sizes], ?_, ?_⟩
  · intro when timer
    rw [timersEq, heapEq, holds.timers]
    constructor <;> rintro ⟨value, found, expirationEq, notApart⟩
    · exact ⟨value, found, expirationEq, (apartIff timer value found).not.mpr notApart⟩
    · exact ⟨value, found, expirationEq, (apartIff timer value found).not.mp notApart⟩
  · intro timer sequence
    rw [activeEq, heapEq, holds.active]
    constructor <;> rintro ⟨value, found, sequenceEq, notApart⟩
    · exact ⟨value, found, sequenceEq, (apartIff timer value found).not.mpr notApart⟩
    · exact ⟨value, found, sequenceEq, (apartIff timer value found).not.mp notApart⟩

theorem inserted (holds : queue.Holds apart) (found : queue.heap timer = some value)
    (isApart : apart timer) :
    (queue.inserted timer value).Holds fun other => apart other ∧ other ≠ timer := by
  refine ⟨?_, ?_, ?_⟩
  · have fresh := holds.notMem_timers isApart value.expiration_
    have fresh' := holds.notMem_active isApart value.sequence_
    simp only [TimerQueue.inserted, OrderedSet.size_insert fresh,
      OrderedSet.size_insert fresh', holds.sizes]
  · intro when other
    have heapEq : (queue.inserted timer value).heap = queue.heap := rfl
    simp only [TimerQueue.inserted, OrderedSet.mem_insert, toLex_inj, Prod.mk.injEq,
      holds.timers when other]
    by_cases same : other = timer
    · subst same
      simp [found, isApart, eq_comm]
    · simp [same]
  · intro other sequence
    simp only [TimerQueue.inserted, OrderedSet.mem_insert, toLex_inj, Prod.mk.injEq,
      holds.active other sequence]
    by_cases same : other = timer
    · subst same
      simp [found, isApart, eq_comm]
    · simp [same]

/-- The assertions of `insert` hold for a timer that is kept apart. -/
theorem insert_eq (holds : queue.Holds apart) (found : queue.heap timer = some value)
    (isApart : apart timer) :
    queue.insert timer =
      .ok (queue.earliestChanged value.expiration_, queue.inserted timer value) := by
  unfold insert
  rw [check_of holds.sizes, Except.ok_bind, deref_of found, Except.ok_bind,
    check_of (holds.notMem_timers isApart _), Except.ok_bind,
    check_of (holds.notMem_active isApart _), Except.ok_bind]
  simp only [check_of (holds.inserted found isApart).sizes, Except.ok_bind]
  rfl

end Holds

/-- The entries that `handleRead` has taken out of the sets. -/
def expired (queue : TimerQueue) : List TimerEntry :=
  match queue.calling with
  | none => []
  | some call => call.expired

/-- A timer that is not in the sets: it waits to be added, or `handleRead` has
taken it out. -/
def Away (queue : TimerQueue) (timer : TimerPtr) : Prop :=
  timer ∈ queue.awaiting ∨ ∃ when, toLex (when, timer) ∈ queue.expired

structure Invariant (queue : TimerQueue) : Prop where
  holds : queue.Holds queue.Away
  address_lt : ∀ timer value, queue.heap timer = some value → timer < UINTPTR_MAX
  sequence_le : ∀ timer value, queue.heap timer = some value →
    value.sequence_ ≤ queue.s_numCreated_
  sequence_inj : ∀ timer timer' value value', queue.heap timer = some value →
    queue.heap timer' = some value' → value.sequence_ = value'.sequence_ →
      timer = timer'
  awaiting_nodup : queue.awaiting.Nodup
  awaiting_some : ∀ timer ∈ queue.awaiting, ∃ value, queue.heap timer = some value
  expired_some : ∀ when timer, toLex (when, timer) ∈ queue.expired →
    ∃ value, queue.heap timer = some value ∧ value.expiration_ = when
  expired_nodup : queue.expired.Nodup
  disjoint : ∀ when, ∀ timer ∈ queue.awaiting, toLex (when, timer) ∉ queue.expired
  flag : queue.callingExpiredTimers_ = queue.calling.isSome
  remaining : ∀ call ∈ queue.calling, call.remaining <:+ call.expired

theorem exists_entry (entry : TimerEntry) :
    ∃ when timer, entry = toLex (when, timer) :=
  ⟨(ofLex entry).1, (ofLex entry).2, rfl⟩

theorem Invariant.expired_unique {queue : TimerQueue} (invariant : queue.Invariant)
    {when when' : Int} {timer : TimerPtr}
    (first : toLex (when, timer) ∈ queue.expired)
    (second : toLex (when', timer) ∈ queue.expired) : when = when' := by
  obtain ⟨value, found, rfl⟩ := invariant.expired_some _ _ first
  obtain ⟨value', found', rfl⟩ := invariant.expired_some _ _ second
  rw [found] at found'
  rw [Option.some.inj found']

/-! ## Adding and canceling -/

theorem new_invariant (clock : Int) : (new clock).Invariant where
  holds := ⟨rfl, by simp [new], by simp [new]⟩
  address_lt := by simp [new]
  sequence_le := by simp [new]
  sequence_inj := by simp [new]
  awaiting_nodup := List.nodup_nil
  awaiting_some := by simp [new]
  expired_some := by simp [new, expired]
  expired_nodup := List.nodup_nil
  disjoint := by simp [new]
  flag := rfl
  remaining := by simp [new]

variable {queue : TimerQueue}

/-- Steps that change the clock, the descriptor or the history only. -/
theorem Invariant.of_same (invariant : queue.Invariant) {after : TimerQueue}
    (heapEq : after.heap = queue.heap)
    (createdEq : after.s_numCreated_ = queue.s_numCreated_)
    (awaitingEq : after.awaiting = queue.awaiting)
    (timersEq : after.timers_ = queue.timers_)
    (activeEq : after.activeTimers_ = queue.activeTimers_)
    (flagEq : after.callingExpiredTimers_ = queue.callingExpiredTimers_)
    (expiredEq : after.expired = queue.expired)
    (callingEq : after.calling.isSome = queue.calling.isSome)
    (remaining : ∀ call ∈ after.calling, call.remaining <:+ call.expired) :
    after.Invariant where
  holds := invariant.holds.congr heapEq timersEq activeEq fun timer _ _ => by
    rw [Away, Away, awaitingEq, expiredEq]
  address_lt := heapEq ▸ invariant.address_lt
  sequence_le := by
    rw [heapEq, createdEq]
    exact invariant.sequence_le
  sequence_inj := heapEq ▸ invariant.sequence_inj
  awaiting_nodup := awaitingEq ▸ invariant.awaiting_nodup
  awaiting_some := by
    rw [heapEq, awaitingEq]
    exact invariant.awaiting_some
  expired_some := by
    rw [heapEq, expiredEq]
    exact invariant.expired_some
  expired_nodup := expiredEq ▸ invariant.expired_nodup
  disjoint := by
    rw [awaitingEq, expiredEq]
    exact invariant.disjoint
  flag := by rw [flagEq, callingEq, invariant.flag]
  remaining := remaining

theorem Invariant.resetTimerfd (invariant : queue.Invariant) (when : Int) (delay : Nat) :
    (queue.resetTimerfd when delay).Invariant :=
  invariant.of_same rfl rfl rfl rfl rfl rfl rfl rfl invariant.remaining

theorem Invariant.newTimer (invariant : queue.Invariant) {timer : TimerPtr}
    (free : queue.heap timer = none) (bound : timer < UINTPTR_MAX)
    (when : Int) (interval : Nat) (again : Bool) :
    (queue.newTimer timer when interval again).Invariant := by
  have notAwaiting : timer ∉ queue.awaiting := by
    intro member
    obtain ⟨value, found⟩ := invariant.awaiting_some timer member
    simp [free] at found
  have notExpired (when' : Int) : toLex (when', timer) ∉ queue.expired := by
    intro member
    obtain ⟨value, found, -⟩ := invariant.expired_some when' timer member
    simp [free] at found
  have sequences : ∀ other value, queue.heap other = some value →
      value.sequence_ ≠ queue.s_numCreated_ + 1 := by
    intro other value found
    have le := invariant.sequence_le other value found
    omega
  have heapCases (other : TimerPtr) (value : Timer)
      (found : (queue.newTimer timer when interval again).heap other = some value) :
      (other = timer ∧ value.sequence_ = queue.s_numCreated_ + 1) ∨
        (other ≠ timer ∧ queue.heap other = some value) := by
    by_cases same : other = timer
    · subst same
      simp only [TimerQueue.newTimer, store, Function.update_self] at found
      obtain rfl := Option.some.inj found
      exact .inl ⟨rfl, rfl⟩
    · simp only [TimerQueue.newTimer, store, Function.update_of_ne same] at found
      exact .inr ⟨same, found⟩
  refine ⟨?_, ?_, ?_, ?_, ?_, ?_, ?_, ?_, ?_, invariant.flag, invariant.remaining⟩
  · have widened : queue.Holds fun other => queue.Away other ∨ other = timer := by
      apply invariant.holds.congr rfl rfl rfl
      intro other value found
      have differs : other ≠ timer := by
        rintro rfl
        simp [free] at found
      simp [differs]
    have stored := widened.store (.inr rfl)
      (some ⟨when, interval, again, queue.s_numCreated_ + 1⟩)
    refine stored.congr rfl rfl rfl fun other _ _ => ?_
    simp only [Away, TimerQueue.newTimer, List.mem_append, List.mem_singleton]
    tauto
  · intro other value found
    rcases heapCases other value found with ⟨rfl, -⟩ | ⟨-, old⟩
    · exact bound
    · exact invariant.address_lt other value old
  · intro other value found
    rcases heapCases other value found with ⟨-, sequenceEq⟩ | ⟨-, old⟩
    · exact sequenceEq.le
    · exact (invariant.sequence_le other value old).trans (Nat.le_succ _)
  · intro first second value value' found found' equal
    rcases heapCases first value found with ⟨rfl, isNew⟩ | ⟨-, old⟩ <;>
      rcases heapCases second value' found' with ⟨rfl, isNew'⟩ | ⟨-, old'⟩
    · rfl
    · exact absurd (equal.symm.trans isNew) (sequences _ _ old')
    · exact absurd (equal.trans isNew') (sequences _ _ old)
    · exact invariant.sequence_inj _ _ _ _ old old' equal
  · exact List.nodup_append.mpr ⟨invariant.awaiting_nodup, by simp, by
      rintro first inAwaiting second inNew rfl
      exact notAwaiting (List.mem_singleton.mp inNew ▸ inAwaiting)⟩
  · intro other member
    by_cases same : other = timer
    · subst same
      exact ⟨_, store_self _ _ _⟩
    · have old : other ∈ queue.awaiting := by
        simpa [TimerQueue.newTimer, same] using member
      obtain ⟨value, found⟩ := invariant.awaiting_some other old
      exact ⟨value, (store_of_ne _ _ same).trans found⟩
  · intro when' other member
    have differs : other ≠ timer := by
      rintro rfl
      exact notExpired when' member
    obtain ⟨value, found, expirationEq⟩ := invariant.expired_some when' other member
    exact ⟨value, (store_of_ne _ _ differs).trans found, expirationEq⟩
  · exact invariant.expired_nodup
  · intro when' other member
    by_cases same : other = timer
    · subst same
      exact notExpired when'
    · exact invariant.disjoint when' other (by
        simpa [TimerQueue.newTimer, same] using member)

/-- The queue when the loop has added a timer: it is in both sets, and the
descriptor is set for it when it is the first one. -/
def added (queue : TimerQueue) (timer : TimerPtr) (value : Timer) (delay : Nat) :
    TimerQueue :=
  let both := { queue with awaiting := queue.awaiting.erase timer }.inserted timer value
  if queue.earliestChanged value.expiration_ then both.resetTimerfd value.expiration_ delay
  else both

/-- Only the waiting timers, the sets and what belongs to the descriptor differ. -/
theorem added_eq (queue : TimerQueue) (timer : TimerPtr) (value : Timer) (delay : Nat) :
    queue.added timer value delay =
      { queue with
        awaiting := queue.awaiting.erase timer
        timers_ := queue.timers_.insert (toLex (value.expiration_, timer))
        activeTimers_ := queue.activeTimers_.insert (toLex (timer, value.sequence_))
        timerfd_ := (queue.added timer value delay).timerfd_
        clock := (queue.added timer value delay).clock
        monotonic := (queue.added timer value delay).monotonic } := by
  unfold added
  split <;> rfl

theorem Invariant.addTimerInLoop (invariant : queue.Invariant) {timer : TimerPtr}
    (waits : timer ∈ queue.awaiting) (delay : Nat) :
    ∃ value, queue.heap timer = some value ∧
      queue.addTimerInLoop timer delay = .ok (queue.added timer value delay) ∧
        (queue.added timer value delay).Invariant := by
  obtain ⟨value, found⟩ := invariant.awaiting_some timer waits
  have notExpired := fun when => invariant.disjoint when timer waits
  have detached : Holds { queue with awaiting := queue.awaiting.erase timer }
      queue.Away :=
    invariant.holds.congr rfl rfl rfl fun _ _ _ => Iff.rfl
  have added : ({ queue with awaiting := queue.awaiting.erase timer }.inserted timer
      value).Invariant := by
    refine ⟨?_, invariant.address_lt, invariant.sequence_le, invariant.sequence_inj,
      invariant.awaiting_nodup.erase timer, ?_, invariant.expired_some,
      invariant.expired_nodup, ?_, invariant.flag, invariant.remaining⟩
    · refine (detached.inserted found (.inl waits)).congr rfl rfl rfl fun other _ _ => ?_
      have expiredEq : ({ queue with awaiting := queue.awaiting.erase timer }.inserted
        timer value).expired = queue.expired := rfl
      have awaitingEq : ({ queue with awaiting := queue.awaiting.erase timer }.inserted
        timer value).awaiting = queue.awaiting.erase timer := rfl
      simp only [Away, expiredEq, awaitingEq, invariant.awaiting_nodup.mem_erase_iff]
      by_cases same : other = timer
      · subst same
        simp [notExpired]
      · simp [same]
    · intro other member
      exact invariant.awaiting_some other (List.mem_of_mem_erase member)
    · intro when other member
      exact invariant.disjoint when other (List.mem_of_mem_erase member)
  refine ⟨value, found, ?_, ?_⟩
  · unfold TimerQueue.addTimerInLoop
    rw [detached.insert_eq found (.inl waits), Except.ok_bind]
    have derefEq : ({ queue with awaiting := queue.awaiting.erase timer }.inserted timer
        value).deref timer = .ok value := deref_of found
    simp only [derefEq, Except.ok_bind]
    change (if queue.earliestChanged value.expiration_ = true then _ else _) = _
    unfold TimerQueue.added
    split <;> rfl
  · unfold TimerQueue.added
    split
    · exact added.resetTimerfd _ delay
    · exact added

theorem removed_heap {timer other : TimerPtr} {value value' : Timer}
    (found : (queue.removed timer value).heap other = some value') :
    other ≠ timer ∧ queue.heap other = some value' := by
  have stored : (queue.store timer none).heap other = some value' := found
  by_cases same : other = timer
  · subst same
    simp [store_self] at stored
  · exact ⟨same, (store_of_ne _ _ same).symm.trans stored⟩

theorem removed_heap_of_ne {timer other : TimerPtr} (value : Timer)
    (differs : other ≠ timer) :
    (queue.removed timer value).heap other = queue.heap other :=
  store_of_ne _ _ differs

theorem Holds.removed {apart : TimerPtr → Prop} (holds : queue.Holds apart)
    {timer : TimerPtr} {value : Timer} (found : queue.heap timer = some value)
    (notApart : ¬apart timer) : (queue.removed timer value).Holds apart := by
  have inTimers := (holds.timers value.expiration_ timer).mpr
    ⟨value, found, rfl, notApart⟩
  have inActive := (holds.active timer value.sequence_).mpr
    ⟨value, found, rfl, notApart⟩
  refine ⟨?_, ?_, ?_⟩
  · have left := OrderedSet.size_erase inTimers
    have right := OrderedSet.size_erase inActive
    have equal := holds.sizes
    simp only [TimerQueue.removed]
    omega
  · intro when other
    have erased : toLex (when, other) ∈ (queue.removed timer value).timers_ ↔
        toLex (when, other) ≠ toLex (value.expiration_, timer) ∧
          toLex (when, other) ∈ queue.timers_ := OrderedSet.mem_erase
    rw [erased, holds.timers, ne_eq, toLex_inj, Prod.mk.injEq]
    by_cases same : other = timer
    · subst same
      have freed : (queue.removed other value).heap other = none := store_self _ _ _
      simp only [freed, found]
      grind
    · simp [same, removed_heap_of_ne _ same]
  · intro other sequence
    have erased : toLex (other, sequence) ∈ (queue.removed timer value).activeTimers_ ↔
        toLex (other, sequence) ≠ toLex (timer, value.sequence_) ∧
          toLex (other, sequence) ∈ queue.activeTimers_ := OrderedSet.mem_erase
    rw [erased, holds.active, ne_eq, toLex_inj, Prod.mk.injEq]
    by_cases same : other = timer
    · subst same
      have freed : (queue.removed other value).heap other = none := store_self _ _ _
      simp only [freed, found]
      grind
    · simp [same, removed_heap_of_ne _ same]

theorem Invariant.removed (invariant : queue.Invariant) {timer : TimerPtr}
    {value : Timer} (found : queue.heap timer = some value)
    (notAway : ¬queue.Away timer) : (queue.removed timer value).Invariant where
  holds := (invariant.holds.removed found notAway).congr rfl rfl rfl
    fun _ _ _ => Iff.rfl
  address_lt _ _ found' := invariant.address_lt _ _ (removed_heap found').2
  sequence_le _ _ found' := invariant.sequence_le _ _ (removed_heap found').2
  sequence_inj _ _ _ _ found' found'' :=
    invariant.sequence_inj _ _ _ _ (removed_heap found').2 (removed_heap found'').2
  awaiting_nodup := invariant.awaiting_nodup
  awaiting_some other member := by
    have differs : other ≠ timer := by
      rintro rfl
      exact notAway (.inl member)
    rw [removed_heap_of_ne _ differs]
    exact invariant.awaiting_some other member
  expired_some when other member := by
    have differs : other ≠ timer := by
      rintro rfl
      exact notAway (.inr ⟨when, member⟩)
    rw [removed_heap_of_ne _ differs]
    exact invariant.expired_some when other member
  expired_nodup := invariant.expired_nodup
  disjoint := invariant.disjoint
  flag := invariant.flag
  remaining := invariant.remaining

/-- What `cancelInLoop` does: it deletes the timer when it is in the sets, and
takes note of the id while `handleRead` calls timers. -/
inductive Cancels (queue : TimerQueue) (timerId : TimerId) : TimerQueue → Prop
  | deletes {value : Timer} (found : queue.heap timerId.timer_ = some value)
      (sequenceEq : value.sequence_ = timerId.sequence_)
      (notAway : ¬queue.Away timerId.timer_) :
      Cancels queue timerId (queue.removed timerId.timer_ value)
  | notes
      (absent : toLex (timerId.timer_, timerId.sequence_) ∉ queue.activeTimers_)
      (calling : queue.callingExpiredTimers_ = true) :
      Cancels queue timerId
        { queue with
          cancelingTimers_ := queue.cancelingTimers_.insert
            (toLex (timerId.timer_, timerId.sequence_)) }
  | ignores
      (absent : toLex (timerId.timer_, timerId.sequence_) ∉ queue.activeTimers_)
      (idle : queue.callingExpiredTimers_ = false) : Cancels queue timerId queue

theorem Invariant.removeOrNote (invariant : queue.Invariant) (timerId : TimerId) :
    ∃ after, queue.removeOrNote timerId = .ok after ∧ after.Invariant ∧
      queue.Cancels timerId after := by
  unfold TimerQueue.removeOrNote
  by_cases present :
      toLex (timerId.timer_, timerId.sequence_) ∈ queue.activeTimers_
  · obtain ⟨value, found, sequenceEq, notAway⟩ :=
      (invariant.holds.active _ _).mp present
    have removeEq : queue.removeActive timerId =
        .ok (queue.removed timerId.timer_ value) := by
      unfold removeActive
      rw [Except.bind_of_ok (deref_of found), Except.bind_of_ok
        (check_of ((invariant.holds.timers _ _).mpr ⟨value, found, rfl, notAway⟩)),
        Except.bind_of_ok (delete_of found)]
      rfl
    exact ⟨_, (if_pos present).trans removeEq, invariant.removed found notAway,
      .deletes found sequenceEq notAway⟩
  · simp only [if_neg present]
    by_cases calling : queue.callingExpiredTimers_ = true
    · exact ⟨_, if_pos calling,
        invariant.of_same rfl rfl rfl rfl rfl rfl rfl rfl invariant.remaining,
        .notes present calling⟩
    · exact ⟨_, if_neg calling, invariant, .ignores present (by simpa using calling)⟩

theorem Invariant.cancelInLoop (invariant : queue.Invariant) (timerId : TimerId) :
    ∃ after, queue.cancelInLoop timerId = .ok after ∧ after.Invariant ∧
      queue.Cancels timerId after := by
  obtain ⟨after, branchEq, afterInvariant, cancels⟩ := invariant.removeOrNote timerId
  refine ⟨after, ?_, afterInvariant, cancels⟩
  unfold TimerQueue.cancelInLoop
  rw [Except.bind_of_ok (check_of invariant.holds.sizes), Except.bind_of_ok branchEq,
    Except.bind_of_ok (check_of afterInvariant.holds.sizes)]
  rfl

end TimerQueue

end TcpMysql
