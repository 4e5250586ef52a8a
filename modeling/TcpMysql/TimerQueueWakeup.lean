import TcpMysql.TimerQueueRuns

/-!
# Waking up for the first timer

As long as there are timers the descriptor is set, so that the loop wakes up for
the first of them.  `addTimerInLoop` sets it when the new timer is the first, and
`reset` sets it for whatever is first then.  The time until the expiration is
computed with the wall clock and counted with the monotonic clock, so this holds as
long as nobody sets the wall clock forward, and up to the time that passes between
reading the wall clock and setting the descriptor.
-/

namespace TcpMysql

namespace TimerQueue

variable {queue : TimerQueue} {slack : Nat}

/-- The wall clock is not set forward and stays after the epoch, and the descriptor
is set at most `slack` microseconds after the wall clock was read for it. -/
def Steady (slack : Nat) (queue : TimerQueue) : TimerEvent → Prop
  | .passTime elapsed adjusted => adjusted ≤ 0 ∧ 0 < queue.clock + elapsed + adjusted
  | .addTimerInLoop _ delay | .reset delay => delay ≤ slack
  | _ => True

instance (queue : TimerQueue) : DecidablePred (queue.Steady slack)
  | .passTime _ _ => inferInstanceAs (Decidable (_ ∧ _))
  | .addTimerInLoop _ _ | .reset _ => inferInstanceAs (Decidable (_ ≤ _))
  | .newTimer _ _ _ _ | .cancelInLoop _ | .poll | .handleRead | .runNext =>
      inferInstanceAs (Decidable True)

def steadySystem (slack : Nat) : EventSystem TimerQueue TimerEvent where
  next := system.next
  offered queue event := queue.Offered event ∧ queue.Steady slack event

instance (queue : TimerQueue) (event : TimerEvent) :
    Decidable ((steadySystem slack).offered queue event) :=
  inferInstanceAs (Decidable (queue.Offered event ∧ queue.Steady slack event))

/-- The time on the monotonic clock at which the wall clock shows the given time,
unless somebody sets it. -/
def onMonotonic (queue : TimerQueue) (when : Int) : Int :=
  when - queue.clock + queue.monotonic

/-- The descriptor is set for the first timer, or soon enough.  While timers are
called this is so only for an expiration that `reset` takes for invalid. -/
structure Armed (slack : Nat) (queue : TimerQueue) : Prop where
  positive : 0 < queue.clock
  callPositive : ∀ call ∈ queue.calling, 0 < call.now
  idle : queue.calling = none → ∀ when timer, toLex (when, timer) ∈ queue.timers_ →
    ∃ deadline, queue.timerfd_ = some deadline ∧
      deadline ≤ max (queue.onMonotonic when + slack) (queue.monotonic + 100)
  busy : queue.calling.isSome → ∀ when timer, toLex (when, timer) ∈ queue.timers_ →
    when ≤ 0 → ∃ deadline, queue.timerfd_ = some deadline ∧ deadline ≤ queue.monotonic + 100

theorem new_armed {clock : Int} (positive : 0 < clock) : (new clock).Armed slack := by
  constructor <;> simp [new, positive]

/-- Steps that leave the descriptor, the call and the clocks alone and add no
timer. -/
theorem Armed.of_subset (armed : queue.Armed slack) {after : TimerQueue}
    (timerfdEq : after.timerfd_ = queue.timerfd_)
    (callingEq : after.calling = queue.calling) (clockEq : after.clock = queue.clock)
    (monotonicEq : after.monotonic = queue.monotonic)
    (subset : ∀ entry ∈ after.timers_, entry ∈ queue.timers_) : after.Armed slack := by
  refine ⟨clockEq ▸ armed.positive, callingEq ▸ armed.callPositive, ?_, ?_⟩
  · simp only [onMonotonic, callingEq, timerfdEq, clockEq, monotonicEq]
    exact fun idle when timer member => armed.idle idle when timer (subset _ member)
  · rw [callingEq, timerfdEq, monotonicEq]
    exact fun calling when timer member => armed.busy calling when timer (subset _ member)

/-- Time passes, and a wall clock that is set back only makes the descriptor
readable earlier than necessary. -/
theorem Armed.passTime (armed : queue.Armed slack) {elapsed : Nat} {adjusted : Int}
    (steady : queue.Steady slack (.passTime elapsed adjusted)) :
    Armed slack { queue with
      clock := queue.clock + elapsed + adjusted
      monotonic := queue.monotonic + elapsed } := by
  obtain ⟨notForward, positive⟩ := steady
  refine ⟨positive, armed.callPositive, fun idle when timer member => ?_,
    fun calling when timer member invalid => ?_⟩
  · obtain ⟨deadline, deadlineEq, bound⟩ := armed.idle idle when timer member
    refine ⟨deadline, deadlineEq, ?_⟩
    simp only [onMonotonic] at bound ⊢
    omega
  · obtain ⟨deadline, deadlineEq, bound⟩ := armed.busy calling when timer member invalid
    refine ⟨deadline, deadlineEq, ?_⟩
    simp only
    omega

/-- The descriptor has just been set for an expiration. -/
theorem resetTimerfd_bound (queue : TimerQueue) (when : Int) {delay : Nat}
    (prompt : delay ≤ slack) :
    ∃ deadline, (queue.resetTimerfd when delay).timerfd_ = some deadline ∧
      deadline ≤ max ((queue.resetTimerfd when delay).onMonotonic when + slack)
        ((queue.resetTimerfd when delay).monotonic + 100) := by
  refine ⟨_, resetTimerfd_timerfd queue when delay, ?_⟩
  simp only [onMonotonic, resetTimerfd]
  omega

/-- The descriptor set for the first of all timers is set for each of them. -/
theorem Armed.resetTimerfd {least : Int} {delay : Nat} (positive : 0 < queue.clock)
    (callPositive : ∀ call ∈ queue.calling, 0 < call.now) (prompt : delay ≤ slack)
    (first : ∀ when timer, toLex (when, timer) ∈ queue.timers_ → least ≤ when) :
    (queue.resetTimerfd least delay).Armed slack := by
  obtain ⟨deadline, deadlineEq, bound⟩ := queue.resetTimerfd_bound least prompt
  have positive' : 0 < (queue.resetTimerfd least delay).clock :=
    Int.add_pos_of_pos_of_nonneg positive (Int.natCast_nonneg delay)
  refine ⟨positive', callPositive, fun idle when timer member => ?_,
    fun calling when timer member invalid => ?_⟩
  · have le := first when timer member
    refine ⟨deadline, deadlineEq, bound.trans ?_⟩
    simp only [onMonotonic]
    omega
  · have le := first when timer member
    rw [resetTimerfd_timerfd]
    refine ⟨_, rfl, ?_⟩
    simp only [TimerQueue.resetTimerfd]
    omega

theorem earliestChanged_iff {when : Int} :
    queue.earliestChanged when = true ↔
      ∀ entry ∈ queue.timers_.first?, when < (ofLex entry).1 := by
  unfold earliestChanged
  cases queue.timers_.first? <;> simp

theorem first_le {when when' : Int} {timer timer' : TimerPtr}
    (first : queue.timers_.first? = some (toLex (when, timer)))
    (member : toLex (when', timer') ∈ queue.timers_) : when ≤ when' := by
  have le := OrderedSet.first?_le first member
  rw [Prod.Lex.toLex_le_toLex] at le
  omega

/-- The set is empty, or the time is smaller than all expirations in it. -/
theorem lt_of_earliestChanged {when when' : Int} {timer' : TimerPtr}
    (changed : queue.earliestChanged when = true)
    (member : toLex (when', timer') ∈ queue.timers_) : when < when' := by
  cases first : queue.timers_.first? with
  | none => exact absurd member (OrderedSet.first?_eq_none.mp first _)
  | some entry =>
      obtain ⟨least, timer, rfl⟩ := exists_entry entry
      have before : when < least := earliestChanged_iff.mp changed _ first
      have le := first_le first member
      omega

theorem exists_le_of_not_earliestChanged {when : Int}
    (unchanged : queue.earliestChanged when ≠ true) :
    ∃ when' timer', toLex (when', timer') ∈ queue.timers_ ∧ when' ≤ when := by
  rw [ne_eq, earliestChanged_iff] at unchanged
  push Not at unchanged
  obtain ⟨entry, first, le⟩ := unchanged
  exact ⟨(ofLex entry).1, (ofLex entry).2, OrderedSet.first?_mem first, le⟩

theorem mem_inserted {timer other : TimerPtr} {value : Timer} {when : Int}
    (member : toLex (when, other) ∈ (queue.inserted timer value).timers_) :
    when = value.expiration_ ∨ toLex (when, other) ∈ queue.timers_ := by
  rcases OrderedSet.mem_insert.mp member with same | old
  · exact .inl (congrArg (fun entry : TimerEntry => (ofLex entry).1) same)
  · exact .inr old

theorem Armed.added (armed : queue.Armed slack) (timer : TimerPtr) (value : Timer)
    {delay : Nat} (prompt : delay ≤ slack) : (queue.added timer value delay).Armed slack := by
  unfold TimerQueue.added
  by_cases changed : queue.earliestChanged value.expiration_ = true
  · rw [if_pos changed]
    refine .resetTimerfd armed.positive armed.callPositive prompt fun when other member => ?_
    rcases mem_inserted member with same | old
    · exact same.ge
    · exact (lt_of_earliestChanged changed old).le
  · rw [if_neg changed]
    obtain ⟨when', timer', earlier, earlierLe⟩ := exists_le_of_not_earliestChanged changed
    refine ⟨armed.positive, armed.callPositive, fun idle when other member => ?_,
      fun calling when other member invalid => ?_⟩
    · rcases mem_inserted member with rfl | old
      · obtain ⟨deadline, deadlineEq, bound⟩ := armed.idle idle when' timer' earlier
        refine ⟨deadline, deadlineEq, bound.trans ?_⟩
        simp only [onMonotonic, inserted]
        omega
      · exact armed.idle idle when other old
    · rcases mem_inserted member with rfl | old
      · exact armed.busy calling when' timer' earlier (earlierLe.trans invalid)
      · exact armed.busy calling when other old invalid

theorem Armed.begun (armed : queue.Armed slack) (invariant : queue.Invariant)
    (active : OrderedSet ActiveTimer) : (queue.begun active).Armed slack := by
  refine ⟨armed.positive, fun call callEq => ?_, nofun, fun _ when timer member invalid => ?_⟩
  · obtain rfl := Option.some.inj callEq
    exact armed.positive
  · -- an expiration that is not positive is due, so the timer has been taken out
    obtain ⟨inTimers, beyond⟩ := OrderedSet.mem_dropBelow.mp member
    obtain ⟨value, found, -⟩ := (invariant.holds.timers _ _).mp inTimers
    have isDue : when ≤ queue.clock := by
      have positive := armed.positive
      omega
    have below := (lt_sentry (invariant.address_lt timer value found)).mpr isDue
    exact absurd beyond (not_le.mpr below)

/-- A timer in front of the call's time was in the set before: those that are put
back expire later. -/
theorem Returning.mem_timers_of_le (invariant : queue.Invariant) {now : Int}
    {state : TimerQueue} (returning : queue.Returning now [] state) {when : Int}
    {timer : TimerPtr} (member : toLex (when, timer) ∈ state.timers_)
    (early : when < now) : toLex (when, timer) ∈ queue.timers_ := by
  obtain ⟨value, found, rfl, notAway⟩ := (returning.holds.timers _ _).mp member
  rcases returning.heap_cases found with ⟨old, notExpired⟩ | ⟨old, found', -, -, -, rfl⟩
  · refine (invariant.holds.timers _ _).mpr ⟨value, old, rfl, ?_⟩
    rintro (waits | ⟨when, isExpired⟩)
    · exact notAway (.inl waits)
    · exact notExpired when isExpired
  · simp only at early
    omega

theorem Armed.reset (armed : queue.Armed slack) (invariant : queue.Invariant) {now : Int}
    {expired : List TimerEntry} {state : TimerQueue} {delay : Nat} (prompt : delay ≤ slack)
    (callEq : queue.calling = some ⟨now, expired, []⟩)
    (returning : queue.Returning now [] state) : (state.rearmed delay).Armed slack := by
  have positive : 0 < state.clock := by
    rw [returning.stateEq]
    exact armed.positive
  have nowPositive : 0 < now := armed.callPositive _ callEq
  have callingEq : state.calling = none := by
    rw [returning.stateEq]
    rfl
  have noCall : ∀ call ∈ state.calling, 0 < call.now := by
    simp [callingEq]
  unfold TimerQueue.rearmed
  cases first : state.timers_.first? with
  | none =>
      have empty := OrderedSet.first?_eq_none.mp first
      exact ⟨positive, noCall, fun _ when timer member => absurd member (empty _),
        fun _ when timer member => absurd member (empty _)⟩
  | some entry =>
      obtain ⟨least, firstTimer, rfl⟩ := exists_entry entry
      change Armed slack (if 0 < least then state.resetTimerfd least delay else state)
      by_cases valid : 0 < least
      · rw [if_pos valid]
        exact .resetTimerfd positive noCall prompt fun when timer member =>
          first_le first member
      · rw [if_neg valid]
        refine ⟨positive, noCall, fun _ when timer member => ?_, by simp [callingEq]⟩
        have old := returning.mem_timers_of_le invariant (OrderedSet.first?_mem first)
          (by omega)
        obtain ⟨deadline, deadlineEq, bound⟩ :=
          armed.busy (by simp [callEq]) _ _ old (by omega)
        rw [returning.stateEq]
        exact ⟨deadline, deadlineEq, bound.trans (le_max_right _ _)⟩

theorem Armed.step (armed : queue.Armed slack) (invariant : queue.Invariant)
    {event : TimerEvent} {after : TimerQueue} (steady : queue.Steady slack event)
    (steps : queue.Steps event after) : after.Armed slack := by
  cases steps with
  | handleRead idle => exact armed.begun invariant _
  | runNext callEq found expirationEq =>
      refine ⟨armed.positive, fun call callEq' => ?_, nofun, fun _ => ?_⟩
      · obtain rfl := Option.some.inj callEq'
        have before := armed.callPositive _ callEq
        exact before
      · exact armed.busy (by simp [callEq])
  | reset callEq returning => exact armed.reset invariant steady callEq returning
  | passTime => exact armed.passTime steady
  | newTimer free bound => exact armed.of_subset rfl rfl rfl rfl fun _ => id
  | addTimerInLoop waits found => exact armed.added _ _ steady
  | cancelInLoop cancels =>
      cases cancels with
      | deletes found sequenceEq notAway =>
          exact armed.of_subset rfl rfl rfl rfl fun _ member =>
            (OrderedSet.mem_erase.mp member).2
      | notes absent calling => exact armed.of_subset rfl rfl rfl rfl fun _ => id
      | ignores absent idle => exact armed
  | poll idle => exact armed.of_subset rfl rfl rfl rfl fun _ => id

/-- A wall clock that is set an hour forward: the timer is due, but the loop sleeps
on. -/
example : (system.play (new 1000) (firstCall.take 2 ++ [.passTime 500 3600000000])).any
    (fun queue => toLex (2000, 7) ∈ queue.due queue.clock ∧ ¬queue.Offered .poll) = true := by
  decide +kernel

end TimerQueue

end TcpMysql
