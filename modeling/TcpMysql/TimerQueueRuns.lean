import TcpMysql.TimerQueueInvariant

/-!
# What the timer queue does over whole runs

No call fails and no timer is lost, whatever the callbacks add and cancel and
however the wall clock is set.  No timer is called early, a timer that does not
repeat is called once, and the clock readings of the calls of `handleRead` that call
one that does are an interval apart.  Each call of `handleRead` calls the timers
that were due, once each and in order.
-/

namespace TcpMysql

/-- The wall clock is not set back, or not by more than the time that passes. -/
def TimerEvent.Forward : TimerEvent → Prop
  | .passTime elapsed adjusted => 0 ≤ elapsed + adjusted
  | _ => True

namespace TimerQueue

variable {queue : TimerQueue}

/-- A timer that repeats every second, and the first call of it. -/
def firstCall : List TimerEvent :=
  [.newTimer 7 2000 1000000 true, .addTimerInLoop 7 1, .passTime 1000 0, .poll, .handleRead,
    .passTime 5 0, .runNext]

/-- `handleRead` has called the timer already. -/
def Ran (queue : TimerQueue) (timer : TimerPtr) : Prop :=
  ∃ call ∈ queue.calling, ∃ when,
    toLex (when, timer) ∈ call.expired ∧ toLex (when, timer) ∉ call.remaining

/-- When a timer is called twice then it repeats, and `handleRead` read the clock
for the second call at least an interval after it read it for the first. -/
def Spaced (earlier later : TimerRun) : Prop :=
  earlier.timer.sequence_ = later.timer.sequence_ →
    earlier.timer.repeat_ = true ∧
      earlier.now + earlier.timer.interval_ ≤ later.now

structure RunsInvariant (queue : TimerQueue) : Prop where
  onTime : ∀ earlier ∈ queue.runs, earlier.timer.expiration_ ≤ earlier.now
  spaced : queue.runs.Pairwise Spaced
  created : ∀ earlier ∈ queue.runs, earlier.timer.sequence_ ≤ queue.s_numCreated_
  pastCall : ∀ call ∈ queue.calling, ∀ when timer, toLex (when, timer) ∈ call.expired →
    ∀ value, queue.heap timer = some value → ∀ earlier ∈ queue.runs,
      earlier.timer.sequence_ = value.sequence_ → earlier.now ≤ call.now
  due : ∀ call ∈ queue.calling, ∀ when timer,
    toLex (when, timer) ∈ call.expired → when ≤ call.now
  same : ∀ timer value, queue.heap timer = some value → ∀ earlier ∈ queue.runs,
    earlier.timer.sequence_ = value.sequence_ →
      earlier.timer.repeat_ = value.repeat_ ∧
        earlier.timer.interval_ = value.interval_
  next : ∀ timer value, queue.heap timer = some value → ¬queue.Ran timer →
    ∀ earlier ∈ queue.runs, earlier.timer.sequence_ = value.sequence_ →
      value.repeat_ = true ∧ earlier.now + value.interval_ ≤ value.expiration_

theorem new_runsInvariant (clock : Int) : (new clock).RunsInvariant := by
  constructor <;> simp [new]

/-- The steps between two calls: no timer that `handleRead` took out changes, and
a timer that was not there before has a new sequence number. -/
structure Quiet (queue after : TimerQueue) : Prop where
  runsEq : after.runs = queue.runs
  roundsEq : after.rounds = queue.rounds
  callingEq : after.calling = queue.calling
  created : queue.s_numCreated_ ≤ after.s_numCreated_
  canceling : ∀ timer ∈ queue.cancelingTimers_, timer ∈ after.cancelingTimers_
  expiredKept : ∀ when timer, toLex (when, timer) ∈ queue.expired →
    after.heap timer = queue.heap timer
  heap : ∀ timer value, after.heap timer = some value →
    queue.heap timer = some value ∨ queue.s_numCreated_ < value.sequence_

theorem Quiet.of_heap {after : TimerQueue} (heapEq : after.heap = queue.heap)
    (runsEq : after.runs = queue.runs) (roundsEq : after.rounds = queue.rounds)
    (callingEq : after.calling = queue.calling)
    (createdEq : after.s_numCreated_ = queue.s_numCreated_)
    (canceling : ∀ timer ∈ queue.cancelingTimers_, timer ∈ after.cancelingTimers_) :
    queue.Quiet after :=
  ⟨runsEq, roundsEq, callingEq, createdEq.ge, canceling,
    fun _ _ _ => congrFun heapEq _, fun _ _ found => .inl (heapEq ▸ found)⟩

theorem Invariant.quiet_newTimer (invariant : queue.Invariant) {timer : TimerPtr}
    (free : queue.heap timer = none) (when : Int) (interval : Nat) (again : Bool) :
    queue.Quiet (queue.newTimer timer when interval again) := by
  have heapEq (other : TimerPtr) (differs : other ≠ timer) :
      (queue.newTimer timer when interval again).heap other = queue.heap other :=
    store_of_ne _ _ differs
  refine ⟨rfl, rfl, rfl, Nat.le_succ _, fun _ => id, ?_, ?_⟩
  · intro when' other member
    apply heapEq
    rintro rfl
    obtain ⟨value, found, -⟩ := invariant.expired_some _ _ member
    simp [free] at found
  · intro other value found
    by_cases same : other = timer
    · subst same
      have created := (store_self _ _ _).symm.trans found
      rw [← Option.some.inj created]
      exact .inr (Nat.lt_succ_self _)
    · exact .inl (heapEq other same ▸ found)

theorem Cancels.quiet {timerId : TimerId} {after : TimerQueue}
    (cancels : queue.Cancels timerId after) : queue.Quiet after := by
  cases cancels with
  | deletes found sequenceEq notAway =>
      refine ⟨rfl, rfl, rfl, le_rfl, fun _ => id, fun when timer member => ?_,
        fun _ _ found => .inl (removed_heap found).2⟩
      apply removed_heap_of_ne
      rintro rfl
      exact notAway (.inr ⟨when, member⟩)
  | notes absent calling =>
      exact .of_heap rfl rfl rfl rfl rfl fun _ member =>
        OrderedSet.mem_insert.mpr (.inr member)
  | ignores absent idle => exact .of_heap rfl rfl rfl rfl rfl fun _ => id

theorem quiet_added (queue : TimerQueue) (timer : TimerPtr) (value : Timer) (delay : Nat) :
    queue.Quiet (queue.added timer value delay) := by
  rw [added_eq]
  exact .of_heap rfl rfl rfl rfl rfl fun _ => id

/-- The steps as far as calls are concerned: `handleRead` begins, calls a timer or
ends, and everything else is quiet. -/
inductive Kind (queue : TimerQueue) : TimerQueue → Prop
  | quiet {after : TimerQueue} (quiet : queue.Quiet after) : Kind queue after
  | begins {active : OrderedSet ActiveTimer} (idle : queue.calling = none) :
      Kind queue (queue.begun active)
  | calls {now : Int} {expired remaining : List TimerEntry} {entry : TimerEntry}
      {value : Timer}
      (callEq : queue.calling = some ⟨now, expired, entry :: remaining⟩)
      (found : queue.heap (ofLex entry).2 = some value)
      (expirationEq : value.expiration_ = (ofLex entry).1) :
      Kind queue (queue.called now expired remaining value)
  | ends {now : Int} {expired : List TimerEntry} {state : TimerQueue} {delay : Nat}
      (callEq : queue.calling = some ⟨now, expired, []⟩)
      (returning : queue.Returning now [] state) : Kind queue (state.rearmed delay)

theorem Invariant.kind (invariant : queue.Invariant) {event : TimerEvent}
    {after : TimerQueue} (steps : queue.Steps event after) : queue.Kind after := by
  cases steps with
  | passTime => exact .quiet (.of_heap rfl rfl rfl rfl rfl fun _ => id)
  | newTimer free bound => exact .quiet (invariant.quiet_newTimer free _ _ _)
  | addTimerInLoop waits found => exact .quiet (quiet_added ..)
  | cancelInLoop cancels => exact .quiet cancels.quiet
  | poll idle => exact .quiet (.of_heap rfl rfl rfl rfl rfl fun _ => id)
  | handleRead idle => exact .begins idle
  | runNext callEq found expirationEq => exact .calls callEq found expirationEq
  | reset callEq returning => exact .ends callEq returning

theorem RunsInvariant.of_quiet (runs : queue.RunsInvariant) {after : TimerQueue}
    (quiet : queue.Quiet after) : after.RunsInvariant := by
  have ranIff (timer : TimerPtr) : after.Ran timer ↔ queue.Ran timer := by
    rw [Ran, Ran, quiet.callingEq]
  have older {timer : TimerPtr} {value : Timer} (found : after.heap timer = some value)
      {earlier : TimerRun} (ran : earlier ∈ queue.runs)
      (sequenceEq : earlier.timer.sequence_ = value.sequence_) :
      queue.heap timer = some value := by
    rcases quiet.heap timer value found with old | new
    · exact old
    · have known := runs.created earlier ran
      omega
  constructor
  · rw [quiet.runsEq]
    exact runs.onTime
  · rw [quiet.runsEq]
    exact runs.spaced
  · rw [quiet.runsEq]
    exact fun earlier ran => (runs.created earlier ran).trans quiet.created
  · intro call callEq when timer member value found earlier ran sequenceEq
    rw [quiet.runsEq] at ran
    rw [quiet.callingEq] at callEq
    exact runs.pastCall call callEq when timer member value (older found ran sequenceEq)
      earlier ran sequenceEq
  · rw [quiet.callingEq]
    exact runs.due
  · intro timer value found earlier ran sequenceEq
    rw [quiet.runsEq] at ran
    exact runs.same timer value (older found ran sequenceEq) earlier ran sequenceEq
  · intro timer value found notRan earlier ran sequenceEq
    rw [quiet.runsEq] at ran
    rw [ranIff] at notRan
    exact runs.next timer value (older found ran sequenceEq) notRan earlier ran sequenceEq

theorem RunsInvariant.begun (runs : queue.RunsInvariant) (invariant : queue.Invariant)
    (idle : queue.calling = none) (active : OrderedSet ActiveTimer) :
    (queue.begun active).RunsInvariant := by
  have next (timer : TimerPtr) (value : Timer) (found : queue.heap timer = some value) :=
    runs.next timer value found (by simp [Ran, idle])
  refine ⟨runs.onTime, runs.spaced, runs.created, ?_, ?_, runs.same,
    fun timer value found _ => next timer value found⟩
  · intro call callEq when timer isDue value found earlier ran sequenceEq
    obtain rfl := Option.some.inj callEq
    -- the timer was put back after its last call, and it is due now
    obtain ⟨member, beforeNow⟩ := invariant.mem_due.mp isDue
    obtain ⟨value', found', expirationEq, -⟩ := (invariant.holds.timers _ _).mp member
    obtain rfl := Option.some.inj (found.symm.trans found')
    have intervalLe := (next timer value found earlier ran sequenceEq).2
    simp only
    omega
  · intro call callEq when timer isDue
    obtain rfl := Option.some.inj callEq
    exact (invariant.mem_due.mp isDue).2

theorem RunsInvariant.runNext (runs : queue.RunsInvariant) (invariant : queue.Invariant)
    {now : Int} {expired remaining : List TimerEntry} {when : Int} {timer : TimerPtr}
    {value : Timer}
    (callEq : queue.calling = some ⟨now, expired, toLex (when, timer) :: remaining⟩)
    (found : queue.heap timer = some value) (expirationEq : value.expiration_ = when) :
    (queue.called now expired remaining value).RunsInvariant := by
  have expiredEq : queue.expired = expired := by
    rw [TimerQueue.expired, callEq]
  have suffix : toLex (when, timer) :: remaining <:+ expired := invariant.remaining _ callEq
  have inExpired : toLex (when, timer) ∈ expired := suffix.subset (List.mem_cons_self ..)
  have isDue : when ≤ now := runs.due _ callEq when timer inExpired
  have notYet : ¬queue.Ran timer := by
    rintro ⟨call, callEq', when', member, gone⟩
    rw [callEq] at callEq'
    obtain rfl := Option.some.inj callEq'
    rw [← expiredEq] at member inExpired
    rw [invariant.expired_unique member inExpired] at gone
    exact gone (List.mem_cons_self ..)
  have ranNow : (queue.called now expired remaining value).Ran timer := by
    refine ⟨_, rfl, when, inExpired, ?_⟩
    exact (List.nodup_cons.mp
      ((expiredEq ▸ invariant.expired_nodup).sublist suffix.sublist)).1
  have notBefore {other : TimerPtr}
      (notRan : ¬(queue.called now expired remaining value).Ran other) :
      ¬queue.Ran other := by
    rintro ⟨call, callEq', when', member, gone⟩
    rw [callEq] at callEq'
    obtain rfl := Option.some.inj callEq'
    exact notRan ⟨_, rfl, when', member, fun later => gone (List.mem_cons_of_mem _ later)⟩
  constructor
  · intro earlier ran
    rcases List.mem_append.mp ran with old | new
    · exact runs.onTime earlier old
    · obtain rfl := List.mem_singleton.mp new
      simp only
      omega
  · refine List.pairwise_append.mpr
      ⟨runs.spaced, List.pairwise_singleton _ _, fun earlier ran later isNew sequenceEq => ?_⟩
    obtain rfl := List.mem_singleton.mp isNew
    obtain ⟨again, intervalLe⟩ := runs.next timer value found notYet earlier ran sequenceEq
    obtain ⟨repeatEq, intervalEq⟩ := runs.same timer value found earlier ran sequenceEq
    rw [repeatEq, intervalEq]
    refine ⟨again, ?_⟩
    simp only
    omega
  · intro earlier ran
    rcases List.mem_append.mp ran with old | new
    · exact runs.created earlier old
    · obtain rfl := List.mem_singleton.mp new
      exact invariant.sequence_le timer value found
  · intro call callEq' when' other member value' found' earlier ran sequenceEq
    obtain rfl := Option.some.inj callEq'
    rcases List.mem_append.mp ran with old | new
    · exact runs.pastCall _ callEq when' other member value' found' earlier old sequenceEq
    · obtain rfl := List.mem_singleton.mp new
      exact le_rfl
  · intro call callEq'
    obtain rfl := Option.some.inj callEq'
    exact fun when' other => runs.due _ callEq when' other
  · intro other value' found' earlier ran sequenceEq
    rcases List.mem_append.mp ran with old | new
    · exact runs.same other value' found' earlier old sequenceEq
    · obtain rfl := List.mem_singleton.mp new
      obtain rfl := invariant.sequence_inj _ _ _ _ found found' sequenceEq
      obtain rfl := Option.some.inj (found.symm.trans found')
      exact ⟨rfl, rfl⟩
  · intro other value' found' notRan earlier ran sequenceEq
    rcases List.mem_append.mp ran with old | new
    · exact runs.next other value' found' (notBefore notRan) earlier old sequenceEq
    · obtain rfl := List.mem_singleton.mp new
      obtain rfl := invariant.sequence_inj _ _ _ _ found found' sequenceEq
      exact absurd ranNow notRan

theorem rearmed_eq (queue : TimerQueue) (delay : Nat) :
    queue.rearmed delay =
      { queue with
        timerfd_ := (queue.rearmed delay).timerfd_
        clock := (queue.rearmed delay).clock
        monotonic := (queue.rearmed delay).monotonic } := by
  unfold rearmed
  split
  · rfl
  · split <;> rfl

theorem RunsInvariant.reset (runs : queue.RunsInvariant) {now : Int}
    {expired : List TimerEntry} {state : TimerQueue}
    (callEq : queue.calling = some ⟨now, expired, []⟩)
    (returning : queue.Returning now [] state) (delay : Nat) :
    (state.rearmed delay).RunsInvariant := by
  have expiredEq : queue.expired = expired := by
    rw [TimerQueue.expired, callEq]
  have runsEq : (state.rearmed delay).runs = queue.runs := by
    rw [rearmed_eq, returning.stateEq]
    rfl
  have callingEq : (state.rearmed delay).calling = none := by
    rw [rearmed_eq, returning.stateEq]
    rfl
  have createdEq : (state.rearmed delay).s_numCreated_ = queue.s_numCreated_ := by
    rw [rearmed_eq, returning.stateEq]
    rfl
  have heapEq : (state.rearmed delay).heap = state.heap := by
    rw [rearmed_eq]
  constructor
  · rw [runsEq]
    exact runs.onTime
  · rw [runsEq]
    exact runs.spaced
  · rw [runsEq, createdEq]
    exact runs.created
  · simp [callingEq]
  · simp [callingEq]
  · intro timer value found earlier ran sequenceEq
    rw [heapEq] at found
    rw [runsEq] at ran
    rcases returning.heap_cases found with ⟨old, -⟩ | ⟨old, found', -, -, -, rfl⟩
    · exact runs.same timer value old earlier ran sequenceEq
    · exact runs.same timer old found' earlier ran sequenceEq
  · intro timer value found _ earlier ran sequenceEq
    rw [heapEq] at found
    rw [runsEq] at ran
    rcases returning.heap_cases found with
      ⟨old, notExpired⟩ | ⟨old, found', ⟨when, member⟩, again, -, rfl⟩
    · refine runs.next timer value old ?_ earlier ran sequenceEq
      rintro ⟨call, callEq', when, member, -⟩
      rw [callEq] at callEq'
      obtain rfl := Option.some.inj callEq'
      exact notExpired when (expiredEq ▸ member)
    · have before := runs.pastCall _ callEq when timer (expiredEq ▸ member) old found'
        earlier ran sequenceEq
      exact ⟨again, Int.add_le_add_right before _⟩

theorem RunsInvariant.step (runs : queue.RunsInvariant) (invariant : queue.Invariant)
    {after : TimerQueue} (kind : queue.Kind after) : after.RunsInvariant := by
  cases kind with
  | quiet quiet => exact runs.of_quiet quiet
  | begins idle => exact runs.begun invariant idle _
  | @calls now expired remaining entry value callEq found expirationEq =>
      obtain ⟨when, timer, rfl⟩ := exists_entry entry
      exact runs.runNext invariant callEq found expirationEq
  | ends callEq returning => exact runs.reset callEq returning _

/-- The wall clock has not gone back behind what `handleRead` read from it. -/
structure ClockAhead (queue : TimerQueue) : Prop where
  runs : ∀ call ∈ queue.runs, call.now ≤ call.time
  calling : ∀ call ∈ queue.calling, call.now ≤ queue.clock

theorem ClockAhead.of_le {after : TimerQueue} (ahead : queue.ClockAhead)
    (runsEq : after.runs = queue.runs) (callingEq : after.calling = queue.calling)
    (clockLe : queue.clock ≤ after.clock) : after.ClockAhead := by
  refine ⟨runsEq ▸ ahead.runs, fun call callEq => ?_⟩
  rw [callingEq] at callEq
  exact (ahead.calling call callEq).trans clockLe

theorem clock_le_added (queue : TimerQueue) (timer : TimerPtr) (value : Timer) (delay : Nat) :
    queue.clock ≤ (queue.added timer value delay).clock := by
  unfold added
  split
  · exact Int.le_add_of_nonneg_right (Int.natCast_nonneg delay)
  · exact le_rfl

theorem ClockAhead.step {event : TimerEvent} {after : TimerQueue} (ahead : queue.ClockAhead)
    (forward : event.Forward) (steps : queue.Steps event after) : after.ClockAhead := by
  cases steps with
  | @passTime elapsed adjusted =>
      have forward : 0 ≤ (elapsed : Int) + adjusted := forward
      exact ahead.of_le rfl rfl (by simp only; omega)
  | newTimer free bound => exact ahead.of_le rfl rfl le_rfl
  | addTimerInLoop waits found =>
      refine ahead.of_le ?_ ?_ (clock_le_added ..) <;> rw [added_eq]
  | cancelInLoop cancels =>
      cases cancels <;> exact ahead.of_le rfl rfl le_rfl
  | poll idle => exact ahead.of_le rfl rfl le_rfl
  | handleRead idle =>
      refine ⟨ahead.runs, fun call callEq => ?_⟩
      obtain rfl := Option.some.inj callEq
      exact le_rfl
  | runNext callEq found expirationEq =>
      have nowLe := ahead.calling _ callEq
      refine ⟨fun call ran => ?_, fun call callEq' => ?_⟩
      · rcases List.mem_append.mp ran with old | new
        · exact ahead.runs call old
        · obtain rfl := List.mem_singleton.mp new
          exact nowLe
      · obtain rfl := Option.some.inj callEq'
        exact nowLe
  | reset callEq returning =>
      rw [rearmed_eq, returning.stateEq]
      exact ⟨ahead.runs, fun call callEq' => nomatch callEq'⟩

/-- The second call of the timer, and a cancel before it is put back. -/
def secondCall : List TimerEvent :=
  [.reset 1, .passTime 1000000 0, .poll, .handleRead, .passTime 300 (-300), .runNext,
    .cancelInLoop ⟨7, 1⟩, .reset 1]

/-- A call of `handleRead` that began in the given queue and has called some of
the timers. -/
structure Calling (start queue : TimerQueue) (finished remaining : List TimerEntry) :
    Prop where
  callEq : queue.calling = some ⟨start.clock, start.due start.clock, remaining⟩
  split : start.due start.clock = finished ++ remaining
  kept : ∀ when timer, toLex (when, timer) ∈ start.due start.clock →
    queue.heap timer = start.heap timer
  runs : ∃ added, queue.runs = start.runs ++ added ∧
    added.map (fun call => some call.timer) =
      finished.map fun entry => start.heap (ofLex entry).2

theorem Calling.of_quiet {start after : TimerQueue} {finished remaining : List TimerEntry}
    (calling : start.Calling queue finished remaining) (quiet : queue.Quiet after) :
    start.Calling after finished remaining := by
  have expiredEq : queue.expired = start.due start.clock := by
    rw [expired, calling.callEq]
  refine ⟨quiet.callingEq.trans calling.callEq, calling.split, fun when timer isDue => ?_,
    quiet.runsEq ▸ calling.runs⟩
  rw [quiet.expiredKept when timer (expiredEq ▸ isDue)]
  exact calling.kept when timer isDue

theorem Calling.runNext {start : TimerQueue} {finished remaining rest expired : List TimerEntry}
    {now : Int} {entry : TimerEntry} {value : Timer}
    (calling : start.Calling queue finished remaining)
    (callEq : queue.calling = some ⟨now, expired, entry :: rest⟩)
    (found : queue.heap (ofLex entry).2 = some value) :
    start.Calling (queue.called now expired rest value) (finished ++ [entry]) rest := by
  have same := calling.callEq
  rw [callEq, Option.some.injEq, HandleRead.mk.injEq] at same
  obtain ⟨rfl, rfl, rfl⟩ := same
  have isDue : entry ∈ start.due start.clock := by
    rw [calling.split]
    simp
  obtain ⟨added, runsEq, addedEq⟩ := calling.runs
  refine ⟨rfl, by simp [calling.split], calling.kept,
    added ++ [⟨value, start.clock, queue.clock, queue.rounds⟩],
    by simp [TimerQueue.called, runsEq], ?_⟩
  have startFound := calling.kept (ofLex entry).1 (ofLex entry).2 isDue
  rw [found] at startFound
  simp [addedEq, startFound]

theorem calling_of_reaches {start queue' : TimerQueue} {active : OrderedSet ActiveTimer}
    {events : List TimerEvent} (invariant : (start.begun active).Invariant)
    (run : system.Reaches (start.begun active) events queue') :
    queue'.Invariant ∧ start.rounds + 1 ≤ queue'.rounds ∧
      (queue'.rounds = start.rounds + 1 → queue'.calling.isSome →
        ∃ finished remaining, start.Calling queue' finished remaining) := by
  apply run.invariant fun _ queue => queue.Invariant ∧ start.rounds + 1 ≤ queue.rounds ∧
    (queue.rounds = start.rounds + 1 → queue.calling.isSome →
      ∃ finished remaining, start.Calling queue finished remaining)
  · exact ⟨invariant, le_rfl, fun _ _ =>
      ⟨[], start.due start.clock, rfl, rfl, fun _ _ _ => rfl, [], by simp [begun], rfl⟩⟩
  · intro _ before event after _ holds offered stepTo
    obtain ⟨invariant, later, calling⟩ := holds
    obtain ⟨afterInvariant, steps⟩ := invariant.steps_of_next offered stepTo
    refine ⟨afterInvariant, ?_⟩
    cases invariant.kind steps with
    | quiet quiet =>
        rw [quiet.roundsEq, quiet.callingEq]
        refine ⟨later, fun sameRound busy => ?_⟩
        obtain ⟨finished, remaining, holds⟩ := calling sameRound busy
        exact ⟨finished, remaining, holds.of_quiet quiet⟩
    | begins idle =>
        refine ⟨later.trans (Nat.le_succ _), fun sameRound => ?_⟩
        have nextRound : before.rounds + 1 = start.rounds + 1 := sameRound
        omega
    | calls callEq found expirationEq =>
        refine ⟨later, fun sameRound _ => ?_⟩
        obtain ⟨finished, remaining, holds⟩ := calling sameRound (by simp [callEq])
        exact ⟨_, _, holds.runNext callEq found⟩
    | @ends now expired state delay callEq returning =>
        have callingEq : (state.rearmed delay).calling = none := by
          rw [rearmed_eq, returning.stateEq]
          rfl
        have roundsEq : (state.rearmed delay).rounds = before.rounds := by
          rw [rearmed_eq, returning.stateEq]
          rfl
        simp [callingEq, roundsEq, later]

/-- A call of `handleRead` that has nothing left to call has called exactly the
timers that were due when it began, once each and in the order of the set. -/
theorem handleRead_calls_due_timers {clock : Int} {events later : List TimerEvent}
    {called after : TimerQueue} {call : HandleRead}
    (run : system.Reaches (new clock) events queue)
    (offered : queue.Offered .handleRead)
    (reads : system.next queue .handleRead = some called)
    (rest : system.Reaches called later after)
    (sameCall : after.rounds = called.rounds)
    (finished : after.calling = some call) (nothingLeft : call.remaining = []) :
    (∀ when timer, toLex (when, timer) ∈ queue.due queue.clock ↔
        toLex (when, timer) ∈ queue.timers_ ∧ when ≤ queue.clock) ∧
      (queue.due queue.clock).Pairwise (· < ·) ∧
        ∃ added, after.runs = queue.runs ++ added ∧
          added.map (fun call => some call.timer) =
            (queue.due queue.clock).map fun entry => queue.heap (ofLex entry).2 := by
  have invariant := invariant_of_reaches run
  refine ⟨fun when timer => invariant.mem_due, queue.timers_.below_increasing _, ?_⟩
  obtain ⟨calledInvariant, steps⟩ := invariant.steps_of_next offered reads
  cases steps with
  | handleRead idle =>
      obtain ⟨-, -, calling⟩ := calling_of_reaches calledInvariant rest
      obtain ⟨done, remaining, holds⟩ := calling sameCall (by simp [finished])
      have same := holds.callEq
      rw [finished, Option.some.injEq] at same
      subst same
      obtain rfl : remaining = [] := nothingLeft
      obtain ⟨added, runsEq, addedEq⟩ := holds.runs
      refine ⟨added, runsEq, ?_⟩
      rw [holds.split, List.append_nil]
      exact addedEq

/-- Two timers are due; after the first is called a third one is added, and the
second, which is still to be called, is cancelled. -/
theorem handleRead_calls_due_timers_first_call :
    ∃ queue after : TimerQueue,
      system.Reaches (new 1000)
        [.newTimer 7 2000 0 false, .addTimerInLoop 7 0, .newTimer 8 2500 1000 true,
          .addTimerInLoop 8 0, .passTime 3000 0, .poll] queue ∧
        queue.due queue.clock = [toLex (2000, 7), toLex (2500, 8)] ∧
          ∃ added, after.runs = queue.runs ++ added ∧
            added.map (fun call => some call.timer) =
              (queue.due queue.clock).map fun entry => queue.heap (ofLex entry).2 := by
  have played : (system.play (new 1000)
      [.newTimer 7 2000 0 false, .addTimerInLoop 7 0, .newTimer 8 2500 1000 true,
        .addTimerInLoop 8 0, .passTime 3000 0, .poll]).any (fun queue =>
      queue.due queue.clock = [toLex (2000, 7), toLex (2500, 8)] ∧
        queue.Offered .handleRead ∧ (system.next queue .handleRead).any (fun called =>
          (system.play called [.runNext, .newTimer 9 1500 0 false, .addTimerInLoop 9 0,
            .cancelInLoop ⟨8, 2⟩, .runNext]).any (fun after =>
              after.rounds = called.rounds ∧
                after.calling.any fun call => call.remaining.isEmpty))) = true := by
    decide +kernel
  simp only [Option.any_eq_true, decide_eq_true_eq, List.isEmpty_iff] at played
  obtain ⟨queue, playEq, dueEq, offered, called, reads, after, restEq, sameCall, call, callEq,
    nothingLeft⟩ := played
  exact ⟨queue, after, .append_play .start playEq, dueEq,
    (handleRead_calls_due_timers (.append_play .start playEq) offered reads
      (.append_play .start restEq) sameCall callEq nothingLeft).2.2⟩

end TimerQueue

end TcpMysql
