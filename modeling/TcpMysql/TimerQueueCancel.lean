import TcpMysql.TimerQueueRuns

/-!
# Canceling a timer

A timer that was canceled is not called again once the `handleRead` under way has
returned.  The timer is followed from its creation, by address and sequence
number, until the loop has added it; from then on a cancel finds it, or finds it
taken out and leaves a note for `reset`.
-/

namespace TcpMysql

namespace TimerQueue

variable {queue : TimerQueue}

/-- The timer with the sequence number, as long as there is one, is at the
address; it waits to be added until the loop has added it. -/
structure Tracks (timerId : TimerId) (added : Prop) (queue : TimerQueue) : Prop where
  created : timerId.sequence_ ≤ queue.s_numCreated_
  address : ∀ timer value, queue.heap timer = some value →
    value.sequence_ = timerId.sequence_ →
      timer = timerId.timer_ ∧ (added → timer ∉ queue.awaiting)
  waits : ¬added → timerId.timer_ ∈ queue.awaiting ∧
    ∃ value, queue.heap timerId.timer_ = some value ∧
      value.sequence_ = timerId.sequence_

theorem Tracks.of_same {timerId : TimerId} {added : Prop}
    (tracks : Tracks timerId added queue) {after : TimerQueue}
    (heapEq : after.heap = queue.heap) (awaitingEq : after.awaiting = queue.awaiting)
    (createdEq : after.s_numCreated_ = queue.s_numCreated_) :
    Tracks timerId added after := by
  refine ⟨createdEq ▸ tracks.created, ?_, ?_⟩
  · rw [heapEq, awaitingEq]
    exact tracks.address
  · rw [heapEq, awaitingEq]
    exact tracks.waits

section Tracked

variable {timerId : TimerId} {added : Prop}

/-- The timers that were called are put back or deleted. -/
theorem Tracks.reset (tracks : Tracks timerId added queue) (invariant : queue.Invariant)
    {now : Int} {state : TimerQueue} (returning : queue.Returning now [] state)
    (delay : Nat) : Tracks timerId added (state.rearmed delay) := by
  have createdEq : (state.rearmed delay).s_numCreated_ = queue.s_numCreated_ := by
    rw [rearmed_eq, returning.stateEq]
    rfl
  have awaitingEq : (state.rearmed delay).awaiting = queue.awaiting := by
    rw [rearmed_eq, returning.stateEq]
    rfl
  have heapEq : (state.rearmed delay).heap = state.heap := by
    rw [rearmed_eq]
  refine ⟨createdEq ▸ tracks.created, fun timer value found sequenceEq => ?_,
    fun notAdded => ?_⟩
  · rw [heapEq] at found
    rw [awaitingEq]
    rcases returning.heap_cases found with ⟨old, -⟩ | ⟨old, found', -, -, -, rfl⟩
    · exact tracks.address timer value old sequenceEq
    · exact tracks.address timer old found' sequenceEq
  · obtain ⟨waits, value, found, sequenceEq⟩ := tracks.waits notAdded
    rw [awaitingEq, heapEq, returning.kept _ fun when member =>
      absurd member (invariant.disjoint when _ waits)]
    exact ⟨waits, value, found, sequenceEq⟩

/-- A new timer has another sequence number. -/
theorem Tracks.newTimer (tracks : Tracks timerId added queue) {timer : TimerPtr}
    (free : queue.heap timer = none) (when : Int) (interval : Nat) (again : Bool) :
    Tracks timerId added (queue.newTimer timer when interval again) := by
  have heapEq (other : TimerPtr) (differs : other ≠ timer) :
      (queue.newTimer timer when interval again).heap other = queue.heap other :=
    store_of_ne _ _ differs
  refine ⟨tracks.created.trans (Nat.le_succ _), fun other value found sequenceEq => ?_,
    fun notAdded => ?_⟩
  · have known := tracks.created
    by_cases same : other = timer
    · subst same
      obtain rfl := Option.some.inj ((store_self _ _ _).symm.trans found)
      simp only at sequenceEq
      omega
    · rw [heapEq other same] at found
      obtain ⟨addressEq, notWaiting⟩ := tracks.address other value found sequenceEq
      refine ⟨addressEq, fun wasAdded member => ?_⟩
      rcases List.mem_append.mp member with old | new
      · exact notWaiting wasAdded old
      · exact same (List.mem_singleton.mp new)
  · obtain ⟨waits, value, found, sequenceEq⟩ := tracks.waits notAdded
    have differs : timerId.timer_ ≠ timer := by
      intro same
      rw [same, free] at found
      simp at found
    exact ⟨List.mem_append_left _ waits, value, heapEq _ differs ▸ found, sequenceEq⟩

/-- The loop adds a timer, which may be the one. -/
theorem Tracks.addTimerInLoop (tracks : Tracks timerId added queue)
    (invariant : queue.Invariant) (timer : TimerPtr) (value : Timer) (delay : Nat) :
    Tracks timerId (added ∨ timer = timerId.timer_) (queue.added timer value delay) := by
  have heapEq : (queue.added timer value delay).heap = queue.heap := by
    rw [added_eq]
  have awaitingEq :
      (queue.added timer value delay).awaiting = queue.awaiting.erase timer := by
    rw [added_eq]
  have createdEq : (queue.added timer value delay).s_numCreated_ = queue.s_numCreated_ := by
    rw [added_eq]
  refine ⟨createdEq ▸ tracks.created, fun other value' found' sequenceEq => ?_,
    fun notAdded => ?_⟩
  · rw [heapEq] at found'
    obtain ⟨rfl, notWaiting⟩ := tracks.address other value' found' sequenceEq
    refine ⟨rfl, fun wasAdded member => ?_⟩
    rw [awaitingEq] at member
    rcases wasAdded with earlier | now
    · exact notWaiting earlier (List.mem_of_mem_erase member)
    · exact (List.Nodup.mem_erase_iff invariant.awaiting_nodup).mp member |>.1 now.symm
  · push Not at notAdded
    obtain ⟨waits', value', found', sequenceEq⟩ := tracks.waits notAdded.1
    rw [awaitingEq, heapEq]
    exact ⟨(List.mem_erase_of_ne notAdded.2.symm).mpr waits', value', found', sequenceEq⟩

/-- A timer that waits to be added is not deleted by a cancel. -/
theorem Tracks.cancelInLoop (tracks : Tracks timerId added queue) {other : TimerId}
    {after : TimerQueue} (cancels : queue.Cancels other after) :
    Tracks timerId added after := by
  cases cancels with
  | deletes found sequenceEq notAway =>
      refine ⟨tracks.created, fun timer value' found' =>
        tracks.address timer value' (removed_heap found').2, fun notAdded => ?_⟩
      obtain ⟨waits, value', found', sequenceEq'⟩ := tracks.waits notAdded
      have differs : timerId.timer_ ≠ other.timer_ := by
        intro same
        exact notAway (.inl (same ▸ waits))
      exact ⟨waits, value', (removed_heap_of_ne _ differs).trans found', sequenceEq'⟩
  | notes absent calling => exact tracks.of_same rfl rfl rfl
  | ignores absent idle => exact tracks

theorem Tracks.step (tracks : Tracks timerId added queue) (invariant : queue.Invariant)
    {event : TimerEvent} {after : TimerQueue} (steps : queue.Steps event after) :
    Tracks timerId (added ∨ ∃ delay, event = .addTimerInLoop timerId.timer_ delay) after := by
  cases steps with
  | @addTimerInLoop timer value delay waits found =>
      have sameEvent : (∃ delay', TimerEvent.addTimerInLoop timer delay =
          .addTimerInLoop timerId.timer_ delay') ↔ timer = timerId.timer_ := by
        simp
      rw [sameEvent]
      exact tracks.addTimerInLoop invariant timer value delay
  | passTime | poll idle | handleRead idle | runNext callEq found expirationEq =>
      simp only [reduceCtorEq, exists_false, or_false]
      exact tracks.of_same rfl rfl rfl
  | newTimer free bound =>
      simp only [reduceCtorEq, exists_false, or_false]
      exact tracks.newTimer free _ _ _
  | cancelInLoop cancels =>
      simp only [reduceCtorEq, exists_false, or_false]
      exact tracks.cancelInLoop cancels
  | reset callEq returning =>
      simp only [reduceCtorEq, exists_false, or_false]
      exact tracks.reset invariant returning _

end Tracked

theorem tracks_newTimer {timer : TimerPtr} {when : Int} {interval : Nat} {again : Bool}
    (invariant : (queue.newTimer timer when interval again).Invariant) :
    Tracks ⟨timer, queue.s_numCreated_ + 1⟩ False
      (queue.newTimer timer when interval again) := by
  have found : (queue.newTimer timer when interval again).heap timer =
      some ⟨when, interval, again, queue.s_numCreated_ + 1⟩ := store_self _ _ _
  refine ⟨le_rfl, fun other value found' sequenceEq => ?_, fun _ => ?_⟩
  · exact ⟨invariant.sequence_inj _ _ _ _ found' found sequenceEq, False.elim⟩
  · exact ⟨List.mem_append_right _ (List.mem_singleton_self _), _, found, rfl⟩

/-- A timer canceled at the start is gone, or the call of `handleRead` that has
taken it out will delete it. -/
structure Doomed (timerId : TimerId) (start queue : TimerQueue) : Prop where
  created : timerId.sequence_ ≤ queue.s_numCreated_
  gone : ∀ timer value, queue.heap timer = some value →
    value.sequence_ = timerId.sequence_ →
      start.calling.isSome ∧ queue.calling.isSome ∧ queue.rounds = start.rounds ∧
        (∃ when, toLex (when, timer) ∈ queue.expired) ∧
          toLex (timer, value.sequence_) ∈ queue.cancelingTimers_

theorem Cancels.doomed {timerId : TimerId} {after : TimerQueue}
    (cancels : queue.Cancels timerId after) (invariant : queue.Invariant)
    (tracks : Tracks timerId True queue) : Doomed timerId queue after := by
  -- A timer with this sequence number that is not in the sets was taken out.
  have isExpired (absent : toLex (timerId.timer_, timerId.sequence_) ∉ queue.activeTimers_)
      {timer : TimerPtr} {value : Timer} (found : queue.heap timer = some value)
      (sequenceEq : value.sequence_ = timerId.sequence_) :
      timer = timerId.timer_ ∧ ∃ when, toLex (when, timer) ∈ queue.expired := by
    obtain ⟨rfl, notWaiting⟩ := tracks.address timer value found sequenceEq
    refine ⟨rfl, ?_⟩
    by_contra notExpired
    refine absent ((invariant.holds.active _ _).mpr ⟨value, found, sequenceEq, ?_⟩)
    rintro (waits | taken)
    · exact notWaiting trivial waits
    · exact notExpired taken
  cases cancels with
  | deletes found sequenceEq notAway =>
      refine ⟨tracks.created, fun timer value found' sequenceEq' => ?_⟩
      obtain ⟨differs, old⟩ := removed_heap found'
      exact absurd (tracks.address timer value old sequenceEq').1 differs
  | notes absent calling =>
      refine ⟨tracks.created, fun timer value found sequenceEq => ?_⟩
      obtain ⟨rfl, taken⟩ := isExpired absent found sequenceEq
      have busy : queue.calling.isSome = true := invariant.flag ▸ calling
      refine ⟨busy, busy, rfl, taken, ?_⟩
      rw [sequenceEq]
      exact OrderedSet.mem_insert.mpr (.inl rfl)
  | ignores absent idle =>
      refine ⟨tracks.created, fun timer value found sequenceEq => ?_⟩
      obtain ⟨-, when, taken⟩ := isExpired absent found sequenceEq
      have notCalling : queue.calling = none := by
        rw [invariant.flag] at idle
        simpa using idle
      simp [expired, notCalling] at taken

theorem Doomed.of_quiet {timerId : TimerId} {start : TimerQueue}
    (doomed : Doomed timerId start queue) {after : TimerQueue}
    (quiet : queue.Quiet after) : Doomed timerId start after := by
  refine ⟨doomed.created.trans quiet.created, fun timer value found sequenceEq => ?_⟩
  have expiredEq : after.expired = queue.expired := by
    rw [expired, expired, quiet.callingEq]
  rcases quiet.heap timer value found with old | new
  · obtain ⟨busy, still, roundEq, taken, canceling⟩ :=
      doomed.gone timer value old sequenceEq
    rw [quiet.callingEq, quiet.roundsEq, expiredEq]
    exact ⟨busy, still, roundEq, taken, quiet.canceling _ canceling⟩
  · have known := doomed.created
    omega

/-- The calls that follow a cancel are of other timers, or belong to the call of
`handleRead` that was under way. -/
theorem Doomed.step {timerId : TimerId} {start : TimerQueue}
    (doomed : Doomed timerId start queue)
    {after : TimerQueue} (kind : queue.Kind after) :
    Doomed timerId start after ∧ ∃ more, after.runs = queue.runs ++ more ∧
      ∀ call ∈ more, call.timer.sequence_ = timerId.sequence_ →
        start.calling.isSome ∧ call.round = start.rounds := by
  cases kind with
  | quiet quiet =>
      exact ⟨doomed.of_quiet quiet, [], by simp [quiet.runsEq], by simp⟩
  | begins idle =>
      refine ⟨⟨doomed.created, fun timer value found sequenceEq => ?_⟩, [],
        by simp [begun], by simp⟩
      have busy := (doomed.gone timer value found sequenceEq).2.1
      simp [idle] at busy
  | calls callEq found expirationEq =>
      refine ⟨⟨doomed.created, fun timer value' found' sequenceEq => ?_⟩, _, rfl, ?_⟩
      · obtain ⟨busy, -, roundEq, taken, canceling⟩ :=
          doomed.gone timer value' found' sequenceEq
        rw [expired, callEq] at taken
        exact ⟨busy, rfl, roundEq, taken, canceling⟩
      · intro call isNew sequenceEq
        obtain rfl := List.mem_singleton.mp isNew
        obtain ⟨busy, -, roundEq, -⟩ := doomed.gone _ _ found sequenceEq
        exact ⟨busy, roundEq⟩
  | @ends now expired state delay callEq returning =>
      have runsEq : (state.rearmed delay).runs = queue.runs := by
        rw [rearmed_eq, returning.stateEq]
        rfl
      have createdEq : (state.rearmed delay).s_numCreated_ = queue.s_numCreated_ := by
        rw [rearmed_eq, returning.stateEq]
        rfl
      have heapEq : (state.rearmed delay).heap = state.heap := by
        rw [rearmed_eq]
      refine ⟨⟨createdEq ▸ doomed.created, fun timer value found sequenceEq => ?_⟩, [],
        by simp [runsEq], by simp⟩
      rw [heapEq] at found
      rcases returning.heap_cases found with
        ⟨old, notExpired⟩ | ⟨old, found', -, -, notCanceled, rfl⟩
      · obtain ⟨-, -, -, ⟨when, taken⟩, -⟩ := doomed.gone timer value old sequenceEq
        exact absurd taken (notExpired when)
      · obtain ⟨-, -, -, -, canceling⟩ := doomed.gone timer old found' sequenceEq
        exact absurd canceling notCanceled

/-- The address of the deleted timer is used again, and the new timer is called. -/
def addressReused : List TimerEvent :=
  [.newTimer 7 1500000 0 false, .addTimerInLoop 7 0, .passTime 900000 0, .poll, .handleRead,
    .runNext]

end TimerQueue

end TcpMysql
