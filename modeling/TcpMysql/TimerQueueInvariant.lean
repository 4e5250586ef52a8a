import TcpMysql.TimerQueueSets

/-!
# Every step of the timer queue

`handleRead` takes the due timers out of both sets, and `reset` puts the
repeating ones back and deletes the others.  Both are loops over the expired
entries, and each is described by what it has done when some entries are still to
come.  Together with the steps that add and cancel timers this says what every
event does, and that none of them fails.
-/

namespace TcpMysql

namespace TimerQueue

variable {queue : TimerQueue}

/-! ## Taking the due timers out -/

theorem lt_sentry {when now : Int} {timer : TimerPtr}
    (bound : timer < UINTPTR_MAX) :
    toLex (when, timer) < sentry now ↔ when ≤ now := by
  rw [sentry, Prod.Lex.toLex_lt_toLex, le_iff_lt_or_eq]
  simp [bound]

theorem Invariant.entry_unique (invariant : queue.Invariant)
    {when when' : Int} {timer : TimerPtr}
    (first : toLex (when, timer) ∈ queue.timers_)
    (second : toLex (when', timer) ∈ queue.timers_) : when = when' := by
  obtain ⟨value, found, rfl, -⟩ := (invariant.holds.timers _ _).mp first
  obtain ⟨value', found', rfl, -⟩ := (invariant.holds.timers _ _).mp second
  rw [found] at found'
  rw [Option.some.inj found']

theorem Invariant.mem_due (invariant : queue.Invariant) {now when : Int}
    {timer : TimerPtr} :
    toLex (when, timer) ∈ queue.due now ↔
      toLex (when, timer) ∈ queue.timers_ ∧ when ≤ now := by
  rw [due, OrderedSet.mem_below]
  apply and_congr_right
  intro member
  obtain ⟨value, found, -⟩ := (invariant.holds.timers _ _).mp member
  exact lt_sentry (invariant.address_lt timer value found)

theorem due_nodup (queue : TimerQueue) (now : Int) : (queue.due now).Nodup :=
  (queue.timers_.below_increasing _).imp fun less => less.ne

theorem deactivate_of {entry : TimerEntry} {value : Timer}
    (found : queue.heap (ofLex entry).2 = some value)
    (present : toLex ((ofLex entry).2, value.sequence_) ∈ queue.activeTimers_) :
    queue.deactivate entry = .ok
      { queue with
        activeTimers_ :=
          queue.activeTimers_.erase (toLex ((ofLex entry).2, value.sequence_)) } := by
  unfold deactivate
  rw [Except.bind_of_ok (deref_of found), Except.bind_of_ok (check_of present)]
  rfl

/-- The loop of `getExpired`, when the entries of a list are still to come. -/
structure Deactivating (queue : TimerQueue) (now : Int)
    (coming : List TimerEntry) (state : TimerQueue) : Prop where
  suffix : coming <:+ queue.due now
  stateEq : state =
    { queue with
      timers_ := queue.timers_.dropBelow (sentry now)
      activeTimers_ := state.activeTimers_ }
  size : state.activeTimers_.size + (queue.due now).length =
    queue.activeTimers_.size + coming.length
  active : ∀ timer sequence, toLex (timer, sequence) ∈ state.activeTimers_ ↔
    toLex (timer, sequence) ∈ queue.activeTimers_ ∧
      ∀ when, toLex (when, timer) ∈ queue.due now → toLex (when, timer) ∈ coming

theorem Invariant.deactivating_step (invariant : queue.Invariant) {now : Int}
    {entry : TimerEntry} {coming : List TimerEntry} {state : TimerQueue}
    (deactivating : queue.Deactivating now (entry :: coming) state) :
    ∃ after, state.deactivate entry = .ok after ∧
      queue.Deactivating now coming after := by
  obtain ⟨when, timer, rfl⟩ := exists_entry entry
  have isDue : toLex (when, timer) ∈ queue.due now :=
    deactivating.suffix.subset (List.mem_cons_self ..)
  obtain ⟨inTimers, -⟩ := invariant.mem_due.mp isDue
  obtain ⟨value, found, rfl, notAway⟩ := (invariant.holds.timers _ _).mp inTimers
  have onlyEntry (when' : Int) (due' : toLex (when', timer) ∈ queue.due now) :
      when' = value.expiration_ :=
    invariant.entry_unique (invariant.mem_due.mp due').1 inTimers
  have found' : state.heap timer = some value := by
    rw [deactivating.stateEq]
    exact found
  have present : toLex (timer, value.sequence_) ∈ state.activeTimers_ := by
    refine (deactivating.active _ _).mpr ⟨?_, ?_⟩
    · exact (invariant.holds.active _ _).mpr ⟨value, found, rfl, notAway⟩
    · intro when' due'
      rw [onlyEntry when' due']
      exact List.mem_cons_self ..
  have gone : toLex (value.expiration_, timer) ∉ coming :=
    (List.nodup_cons.mp ((queue.due_nodup now).sublist deactivating.suffix.sublist)).1
  refine ⟨_, deactivate_of found' present, ?_, ?_, ?_, ?_⟩
  · exact (List.suffix_cons _ _).trans deactivating.suffix
  · rw [deactivating.stateEq]
  · have erased := OrderedSet.size_erase present
    have before := deactivating.size
    simp only [List.length_cons] at before
    simp only [ofLex_toLex]
    omega
  · intro other sequence
    simp only [ofLex_toLex, OrderedSet.mem_erase, deactivating.active other sequence,
      List.mem_cons, ne_eq, toLex_inj, Prod.mk.injEq]
    constructor
    · rintro ⟨differs, member, onlyComing⟩
      refine ⟨member, fun when' due' => ?_⟩
      rcases onlyComing when' due' with ⟨rfl, rfl⟩ | later
      · obtain ⟨value', found'', sequenceEq, -⟩ := (invariant.holds.active _ _).mp member
        rw [found] at found''
        rw [Option.some.inj found''] at differs
        exact absurd ⟨rfl, sequenceEq.symm⟩ differs
      · exact later
    · rintro ⟨member, onlyComing⟩
      refine ⟨?_, member, fun when' due' => .inr (onlyComing when' due')⟩
      rintro ⟨rfl, -⟩
      exact gone (onlyComing _ isDue)

theorem Invariant.getExpired (invariant : queue.Invariant) (now : Int) :
    ∃ after, queue.getExpired now = .ok (queue.due now, after) ∧
      queue.Deactivating now [] after := by
  have starts : queue.Deactivating now (queue.due now)
      { queue with timers_ := queue.timers_.dropBelow (sentry now) } :=
    ⟨List.suffix_rfl, rfl, rfl, fun _ _ => ⟨fun member => ⟨member, fun _ => id⟩, And.left⟩⟩
  obtain ⟨after, folded, done⟩ :=
    Except.foldlM_returns (fun coming state => queue.Deactivating now coming state)
      (fun _ _ _ => invariant.deactivating_step) starts
  have later : ∀ entry ∈ (queue.timers_.dropBelow (sentry now)).first?,
      now < (ofLex entry).1 := by
    intro entry first
    obtain ⟨when, timer, rfl⟩ := exists_entry entry
    obtain ⟨member, beyond⟩ := OrderedSet.mem_dropBelow.mp (OrderedSet.first?_mem first)
    obtain ⟨value, found, -⟩ := (invariant.holds.timers _ _).mp member
    have notDue := (lt_sentry (invariant.address_lt timer value found)).not.mp
      (not_lt.mpr beyond)
    exact not_le.mp notDue
  have sizes : after.timers_.size = after.activeTimers_.size := by
    have split := queue.timers_.size_dropBelow (sentry now)
    have active := done.size
    have equal := invariant.holds.sizes
    have timersEq : after.timers_ = queue.timers_.dropBelow (sentry now) := by
      rw [done.stateEq]
    rw [timersEq]
    simp only [due, List.length_nil] at active
    omega
  refine ⟨after, ?_, done⟩
  unfold TimerQueue.getExpired
  rw [Except.bind_of_ok (check_of invariant.holds.sizes),
    Except.bind_of_ok (check_of later), Except.bind_of_ok folded,
    Except.bind_of_ok (check_of sizes)]
  rfl

theorem readTimerfd_eq (queue : TimerQueue) :
    queue.readTimerfd = { queue with timerfd_ := queue.readTimerfd.timerfd_ } := by
  unfold readTimerfd
  split
  · rfl
  · split <;> rfl

theorem readTimerfd_due (queue : TimerQueue) (now : Int) :
    queue.readTimerfd.due now = queue.due now := by
  rw [readTimerfd_eq]
  rfl

theorem readTimerfd_active (queue : TimerQueue) :
    queue.readTimerfd.activeTimers_ = queue.activeTimers_ := by
  rw [readTimerfd_eq]

theorem Invariant.readTimerfd (invariant : queue.Invariant) :
    queue.readTimerfd.Invariant := by
  rw [readTimerfd_eq]
  exact invariant.of_same rfl rfl rfl rfl rfl rfl rfl rfl invariant.remaining

/-- The queue when `handleRead` has taken the due timers out and starts calling
them. -/
def begun (queue : TimerQueue) (active : OrderedSet ActiveTimer) : TimerQueue :=
  { queue with
    timers_ := queue.timers_.dropBelow (sentry queue.clock)
    activeTimers_ := active
    cancelingTimers_ := .empty
    callingExpiredTimers_ := true
    calling := some ⟨queue.clock, queue.due queue.clock, queue.due queue.clock⟩
    timerfd_ := queue.readTimerfd.timerfd_
    polled := false
    rounds := queue.rounds + 1 }

theorem handleRead_of {taken : TimerQueue}
    (takenEq : queue.readTimerfd.getExpired queue.clock =
      .ok (queue.readTimerfd.due queue.clock, taken))
    (done : queue.readTimerfd.Deactivating queue.clock [] taken) :
    queue.handleRead = .ok (queue.begun taken.activeTimers_) := by
  have stateEq := done.stateEq
  rw [readTimerfd_eq] at stateEq
  unfold handleRead
  rw [Except.bind_of_ok takenEq, readTimerfd_due]
  simp only [begun]
  rw [stateEq]
  rfl

theorem Invariant.handleRead (invariant : queue.Invariant)
    (idle : queue.calling = none) :
    ∃ active, queue.handleRead = .ok (queue.begun active) ∧
      (queue.begun active).Invariant := by
  obtain ⟨taken, takenEq, done⟩ := invariant.readTimerfd.getExpired queue.clock
  refine ⟨taken.activeTimers_, handleRead_of takenEq done, ?_⟩
  have activeIff := done.active
  have sizeEq := done.size
  simp only [readTimerfd_due, readTimerfd_active, List.not_mem_nil, List.length_nil]
    at activeIff sizeEq
  have away (timer : TimerPtr) : queue.Away timer ↔ timer ∈ queue.awaiting := by
    simp [Away, expired, idle]
  have expiredEq : (queue.begun taken.activeTimers_).expired = queue.due queue.clock := rfl
  have dueSome (when : Int) (timer : TimerPtr)
      (isDue : toLex (when, timer) ∈ queue.due queue.clock) :
      ∃ value, queue.heap timer = some value ∧ value.expiration_ = when ∧
        timer ∉ queue.awaiting := by
    obtain ⟨value, found, expirationEq, notAway⟩ :=
      (invariant.holds.timers _ _).mp (invariant.mem_due.mp isDue).1
    exact ⟨value, found, expirationEq, fun member => notAway (.inl member)⟩
  refine ⟨⟨?_, ?_, ?_⟩, invariant.address_lt, invariant.sequence_le,
    invariant.sequence_inj, invariant.awaiting_nodup, invariant.awaiting_some,
    ?_, queue.due_nodup _, ?_, rfl, ?_⟩
  · have split := queue.timers_.size_dropBelow (sentry queue.clock)
    have equal := invariant.holds.sizes
    simp only [due] at sizeEq
    simp only [begun]
    omega
  · intro when timer
    have member : toLex (when, timer) ∈ (queue.begun taken.activeTimers_).timers_ ↔
        toLex (when, timer) ∈ queue.timers_ ∧ ¬toLex (when, timer) < sentry queue.clock := by
      rw [not_lt]
      exact OrderedSet.mem_dropBelow
    rw [member, Away, expiredEq]
    constructor
    · rintro ⟨inTimers, notBelow⟩
      obtain ⟨value, found, rfl, notAway⟩ := (invariant.holds.timers _ _).mp inTimers
      refine ⟨value, found, rfl, ?_⟩
      rintro (waits | ⟨when', isDue⟩)
      · exact notAway (.inl waits)
      · have same := invariant.entry_unique (invariant.mem_due.mp isDue).1 inTimers
        subst same
        exact notBelow (OrderedSet.mem_below.mp isDue).2
    · rintro ⟨value, found, rfl, notAway⟩
      have inTimers : toLex (value.expiration_, timer) ∈ queue.timers_ :=
        (invariant.holds.timers _ _).mpr ⟨value, found, rfl, by
          rw [away]
          exact fun waits => notAway (.inl waits)⟩
      exact ⟨inTimers, fun below => notAway
        (.inr ⟨value.expiration_, OrderedSet.mem_below.mpr ⟨inTimers, below⟩⟩)⟩
  · intro timer sequence
    have member : toLex (timer, sequence) ∈ (queue.begun taken.activeTimers_).activeTimers_ ↔
        toLex (timer, sequence) ∈ queue.activeTimers_ ∧
          ∀ when, toLex (when, timer) ∉ queue.due queue.clock :=
      activeIff timer sequence
    rw [member, invariant.holds.active, away, Away, expiredEq]
    constructor
    · rintro ⟨⟨value, found, sequenceEq, notAwaiting⟩, notDue⟩
      refine ⟨value, found, sequenceEq, ?_⟩
      rintro (waits | ⟨when, isDue⟩)
      · exact notAwaiting waits
      · exact notDue when isDue
    · rintro ⟨value, found, sequenceEq, notAway⟩
      exact ⟨⟨value, found, sequenceEq, fun waits => notAway (.inl waits)⟩,
        fun when isDue => notAway (.inr ⟨when, isDue⟩)⟩
  · intro when timer isDue
    obtain ⟨value, found, expirationEq, -⟩ := dueSome when timer isDue
    exact ⟨value, found, expirationEq⟩
  · intro when timer waits isDue
    obtain ⟨-, -, -, notAwaiting⟩ := dueSome when timer isDue
    exact notAwaiting waits
  · intro call callEq
    obtain rfl := Option.some.inj callEq
    exact List.suffix_rfl

/-! ## Calling the timers and putting them back -/

theorem Invariant.runNext (invariant : queue.Invariant) {now : Int}
    {expired remaining : List TimerEntry} {entry : TimerEntry}
    (callEq : queue.calling = some ⟨now, expired, entry :: remaining⟩) :
    ∃ value, queue.heap (ofLex entry).2 = some value ∧
      value.expiration_ = (ofLex entry).1 ∧
        queue.runNext = .ok (queue.called now expired remaining value) ∧
          (queue.called now expired remaining value).Invariant := by
  have suffix : entry :: remaining <:+ expired := invariant.remaining _ callEq
  have expiredEq : queue.expired = expired := by
    rw [TimerQueue.expired, callEq]
  have member : toLex ((ofLex entry).1, (ofLex entry).2) ∈ queue.expired := by
    rw [expiredEq]
    exact suffix.subset (List.mem_cons_self ..)
  obtain ⟨value, found, expirationEq⟩ := invariant.expired_some _ _ member
  refine ⟨value, found, expirationEq, ?_, ?_⟩
  · unfold TimerQueue.runNext
    rw [callEq]
    exact Except.bind_of_ok (deref_of found) _
  · refine invariant.of_same rfl rfl rfl rfl rfl rfl expiredEq.symm ?_ ?_
    · rw [callEq]
      rfl
    · intro call called
      obtain rfl := Option.some.inj called
      exact (List.suffix_cons _ _).trans suffix

/-- What `reset` leaves of an expired timer. -/
def returned (queue : TimerQueue) (now : Int) (timer : TimerPtr) :
    Option Timer :=
  match queue.heap timer with
  | none => none
  | some value =>
      if value.repeat_ = true ∧
          toLex (timer, value.sequence_) ∉ queue.cancelingTimers_ then
        some (value.restart now)
      else none

/-- The queue while `reset` puts timers back. -/
def returning (queue : TimerQueue) (heap : TimerPtr → Option Timer)
    (timers : OrderedSet TimerEntry) (active : OrderedSet ActiveTimer) : TimerQueue :=
  { queue with
    heap := heap
    timers_ := timers
    activeTimers_ := active
    callingExpiredTimers_ := false
    calling := none }

/-- The loop of `reset`, when the entries of a list are still to come. -/
structure Returning (queue : TimerQueue) (now : Int)
    (coming : List TimerEntry) (state : TimerQueue) : Prop where
  suffix : coming <:+ queue.expired
  stateEq : state = queue.returning state.heap state.timers_ state.activeTimers_
  holds : state.Holds fun timer =>
    timer ∈ queue.awaiting ∨ ∃ when, toLex (when, timer) ∈ coming
  kept : ∀ timer, (∀ when, toLex (when, timer) ∈ queue.expired →
    toLex (when, timer) ∈ coming) → state.heap timer = queue.heap timer
  back : ∀ when timer, toLex (when, timer) ∈ queue.expired →
    toLex (when, timer) ∉ coming → state.heap timer = queue.returned now timer

theorem putBack_again {apart : TimerPtr → Prop} (holds : queue.Holds apart)
    (entry : TimerEntry) {value : Timer}
    (found : queue.heap (ofLex entry).2 = some value) (isApart : apart (ofLex entry).2)
    (again : value.repeat_ = true ∧
      toLex ((ofLex entry).2, value.sequence_) ∉ queue.cancelingTimers_)
    (now : Int) :
    queue.putBack now entry = .ok
      ((queue.store (ofLex entry).2 (some (value.restart now))).inserted (ofLex entry).2
        (value.restart now)) := by
  unfold putBack
  rw [Except.bind_of_ok (deref_of found), if_pos again, Except.bind_of_ok
    ((holds.store isApart _).insert_eq (store_self _ _ _) isApart)]
  rfl

theorem putBack_delete (entry : TimerEntry) {value : Timer}
    (found : queue.heap (ofLex entry).2 = some value)
    (notAgain : ¬(value.repeat_ = true ∧
      toLex ((ofLex entry).2, value.sequence_) ∉ queue.cancelingTimers_))
    (now : Int) :
    queue.putBack now entry = .ok (queue.store (ofLex entry).2 none) := by
  unfold putBack
  rw [Except.bind_of_ok (deref_of found), if_neg notAgain, delete_of found]

theorem Invariant.returning_step (invariant : queue.Invariant) {now : Int}
    {entry : TimerEntry} {coming : List TimerEntry} {state : TimerQueue}
    (returning : queue.Returning now (entry :: coming) state) :
    ∃ after, state.putBack now entry = .ok after ∧ queue.Returning now coming after := by
  obtain ⟨when, timer, rfl⟩ := exists_entry entry
  have inExpired : toLex (when, timer) ∈ queue.expired :=
    returning.suffix.subset (List.mem_cons_self ..)
  obtain ⟨value, found, rfl⟩ := invariant.expired_some _ _ inExpired
  have onlyEntry (when' : Int) (member : toLex (when', timer) ∈ queue.expired) :
      when' = value.expiration_ :=
    invariant.expired_unique member inExpired
  have found' : state.heap timer = some value := by
    rw [← found]
    apply returning.kept
    intro when' member
    rw [onlyEntry when' member]
    exact List.mem_cons_self ..
  have isApart : timer ∈ queue.awaiting ∨
      ∃ when', toLex (when', timer) ∈ toLex (value.expiration_, timer) :: coming :=
    .inr ⟨_, List.mem_cons_self ..⟩
  have gone (when' : Int) : toLex (when', timer) ∉ coming := by
    intro member
    rw [onlyEntry when' (returning.suffix.subset (List.mem_cons_of_mem _ member))] at member
    exact (List.nodup_cons.mp
      (invariant.expired_nodup.sublist returning.suffix.sublist)).1 member
  have apartIff (other : TimerPtr) :
      (other ∈ queue.awaiting ∨ ∃ when', toLex (when', other) ∈ coming) ↔
        (other ∈ queue.awaiting ∨ ∃ when',
          toLex (when', other) ∈ toLex (value.expiration_, timer) :: coming) ∧
            other ≠ timer := by
    by_cases same : other = timer
    · subst same
      have notAwaiting : other ∉ queue.awaiting := fun waits =>
        invariant.disjoint _ other waits inExpired
      simp [notAwaiting, gone]
    · simp [same]
  have suffix : coming <:+ queue.expired :=
    (List.suffix_cons _ _).trans returning.suffix
  have cancelingEq : state.cancelingTimers_ = queue.cancelingTimers_ := by
    rw [returning.stateEq]
    rfl
  have keptOther (changed : Option Timer) (other : TimerPtr)
      (notComing : ∀ when', toLex (when', other) ∈ queue.expired →
        toLex (when', other) ∈ coming) :
      (state.store timer changed).heap other = queue.heap other := by
    have differs : other ≠ timer := by
      rintro rfl
      exact gone _ (notComing _ inExpired)
    rw [store_of_ne _ _ differs]
    exact returning.kept other fun when' member =>
      List.mem_cons_of_mem _ (notComing when' member)
  have backOther {changed : Option Timer} (changedEq : changed = queue.returned now timer)
      (when' : Int) (other : TimerPtr)
      (member : toLex (when', other) ∈ queue.expired)
      (notComing : toLex (when', other) ∉ coming) :
      (state.store timer changed).heap other = queue.returned now other := by
    by_cases same : other = timer
    · subst same
      rw [store_self, changedEq]
    · rw [store_of_ne _ _ same]
      apply returning.back when' other member
      simp [same, notComing]
  by_cases again : value.repeat_ = true ∧
      toLex (timer, value.sequence_) ∉ queue.cancelingTimers_
  · have returnedEq : some (value.restart now) = queue.returned now timer := by
      simp [returned, found, again]
    have again' : value.repeat_ = true ∧
        toLex (timer, value.sequence_) ∉ state.cancelingTimers_ := by
      rw [cancelingEq]
      exact again
    refine ⟨_, putBack_again returning.holds (toLex (value.expiration_, timer)) found'
      isApart again' now, suffix, ?_, ?_, ?_, ?_⟩
    · rw [returning.stateEq]
      rfl
    · refine ((returning.holds.store isApart _).inserted (store_self _ _ _) isApart).congr
        rfl rfl rfl fun other _ _ => apartIff other
    · exact keptOther _
    · exact backOther returnedEq
  · have returnedEq : none = queue.returned now timer := by
      simp only [returned, found]
      rw [if_neg again]
    have notAgain : ¬(value.repeat_ = true ∧
        toLex (timer, value.sequence_) ∉ state.cancelingTimers_) := by
      rw [cancelingEq]
      exact again
    refine ⟨_, putBack_delete (toLex (value.expiration_, timer)) found' notAgain now,
      suffix, ?_, ?_, ?_, ?_⟩
    · rw [returning.stateEq]
      rfl
    · refine (returning.holds.store isApart none).congr rfl rfl rfl
        fun other value' found'' => ?_
      rw [apartIff]
      have differs : other ≠ timer := by
        rintro rfl
        simp [store_self] at found''
      exact and_iff_left differs
    · exact keptOther _
    · exact backOther returnedEq

theorem returned_fields {now : Int} {timer : TimerPtr} {value : Timer}
    (returnedEq : queue.returned now timer = some value) :
    ∃ old, queue.heap timer = some old ∧ old.repeat_ = true ∧
      toLex (timer, old.sequence_) ∉ queue.cancelingTimers_ ∧
        value = { old with expiration_ := now + old.interval_ } := by
  unfold returned at returnedEq
  split at returnedEq
  · simp at returnedEq
  · rename_i old found
    split at returnedEq
    · rename_i again
      refine ⟨old, found, again.1, again.2, ?_⟩
      rw [← Option.some.inj returnedEq, Timer.restart, if_pos again.1]
    · simp at returnedEq

/-- A timer that is there when `reset` has put all timers back was there
before, or was put back now. -/
theorem Returning.heap_cases {now : Int} {state : TimerQueue}
    (returning : queue.Returning now [] state) {timer : TimerPtr} {value : Timer}
    (found : state.heap timer = some value) :
    (queue.heap timer = some value ∧ ∀ when, toLex (when, timer) ∉ queue.expired) ∨
      ∃ old, queue.heap timer = some old ∧
        (∃ when, toLex (when, timer) ∈ queue.expired) ∧ old.repeat_ = true ∧
          toLex (timer, old.sequence_) ∉ queue.cancelingTimers_ ∧
            value = { old with expiration_ := now + old.interval_ } := by
  by_cases member : ∃ when, toLex (when, timer) ∈ queue.expired
  · obtain ⟨when, inExpired⟩ := member
    rw [returning.back when timer inExpired List.not_mem_nil] at found
    obtain ⟨old, oldFound, again, notCanceled, valueEq⟩ := returned_fields found
    exact .inr ⟨old, oldFound, ⟨when, inExpired⟩, again, notCanceled, valueEq⟩
  · have notExpired : ∀ when, toLex (when, timer) ∉ queue.expired := by
      simpa using member
    rw [returning.kept timer fun when inExpired => absurd inExpired (notExpired when)]
      at found
    exact .inl ⟨found, notExpired⟩

theorem Invariant.of_returning (invariant : queue.Invariant) {now : Int}
    {state : TimerQueue} (returning : queue.Returning now [] state) :
    state.Invariant := by
  have before {timer : TimerPtr} {value : Timer} (found : state.heap timer = some value) :
      ∃ old, queue.heap timer = some old ∧ old.sequence_ = value.sequence_ := by
    rcases returning.heap_cases found with ⟨old, -⟩ | ⟨old, found', -, -, -, rfl⟩
    · exact ⟨value, old, rfl⟩
    · exact ⟨old, found', rfl⟩
  have awaitingEq : state.awaiting = queue.awaiting := by
    rw [returning.stateEq]
    rfl
  have createdEq : state.s_numCreated_ = queue.s_numCreated_ := by
    rw [returning.stateEq]
    rfl
  have callingEq : state.calling = none := by
    rw [returning.stateEq]
    rfl
  have flagEq : state.callingExpiredTimers_ = false := by
    rw [returning.stateEq]
    rfl
  have expiredEq : state.expired = [] := by
    rw [expired, callingEq]
  refine ⟨?_, ?_, ?_, ?_, ?_, ?_, ?_, ?_, ?_, ?_, ?_⟩
  · refine returning.holds.congr rfl rfl rfl fun timer _ _ => ?_
    simp [Away, awaitingEq, expiredEq]
  · intro timer value found
    obtain ⟨old, found', -⟩ := before found
    exact invariant.address_lt timer old found'
  · intro timer value found
    obtain ⟨old, found', sequenceEq⟩ := before found
    rw [createdEq, ← sequenceEq]
    exact invariant.sequence_le timer old found'
  · intro first second value value' found found' equal
    obtain ⟨old, oldFound, sequenceEq⟩ := before found
    obtain ⟨old', oldFound', sequenceEq'⟩ := before found'
    apply invariant.sequence_inj _ _ _ _ oldFound oldFound'
    rw [sequenceEq, sequenceEq', equal]
  · rw [awaitingEq]
    exact invariant.awaiting_nodup
  · intro timer waits
    rw [awaitingEq] at waits
    rw [returning.kept timer fun when member =>
      absurd member (invariant.disjoint when timer waits)]
    exact invariant.awaiting_some timer waits
  · simp [expiredEq]
  · simp [expiredEq]
  · simp [expiredEq]
  · rw [flagEq, callingEq]
    rfl
  · simp [callingEq]

/-- The deadline set for an expiration, which is at least 100 microseconds
away when it is set. -/
theorem resetTimerfd_timerfd (queue : TimerQueue) (when : Int) (delay : Nat) :
    (queue.resetTimerfd when delay).timerfd_ =
      some (queue.monotonic + delay + max (when - queue.clock) 100) := by
  have splits (microseconds : Int) (positive : 0 ≤ microseconds) :
      microseconds.tdiv 1000000 * 1000000 + (microseconds.tmod 1000000 * 1000).tdiv 1000 =
        microseconds := by
    rw [Int.tdiv_eq_ediv_of_nonneg positive, Int.tmod_eq_emod_of_nonneg positive,
      Int.mul_tdiv_cancel _ (by decide)]
    omega
  simp only [resetTimerfd, howMuchTimeFromNow, Timestamp.kMicroSecondsPerSecond,
    show (1000 * 1000 : Int) = 1000000 from rfl]
  split
  · rename_i soon
    rw [max_eq_right (by omega)]
    rfl
  · rename_i later
    rw [max_eq_left (by omega)]
    have sum := splits (when - queue.clock) (by omega)
    simp only [Option.some.injEq]
    omega

/-- The queue when the descriptor is set for the first timer, if that has a valid
expiration. -/
def rearmed (queue : TimerQueue) (delay : Nat) : TimerQueue :=
  match queue.timers_.first? with
  | none => queue
  | some entry =>
      if 0 < (ofLex entry).1 then queue.resetTimerfd (ofLex entry).1 delay else queue

theorem Invariant.rearm (invariant : queue.Invariant) (delay : Nat) :
    queue.rearm delay = .ok (queue.rearmed delay) := by
  unfold TimerQueue.rearm rearmed
  cases first : queue.timers_.first? with
  | none => rfl
  | some entry =>
      obtain ⟨when, timer, rfl⟩ := exists_entry entry
      obtain ⟨value, found, rfl, -⟩ :=
        (invariant.holds.timers _ _).mp (OrderedSet.first?_mem first)
      have found' : queue.heap (ofLex (toLex (value.expiration_, timer))).2 = some value :=
        found
      simp only
      rw [Except.bind_of_ok (deref_of found'), Timestamp.valid]
      by_cases positive : 0 < value.expiration_
      · rw [if_pos (decide_eq_true positive)]
        exact congrArg Except.ok (if_pos positive).symm
      · rw [if_neg (by simpa using positive)]
        exact congrArg Except.ok (if_neg positive).symm

theorem Invariant.rearmed (invariant : queue.Invariant) (delay : Nat) :
    (queue.rearmed delay).Invariant := by
  unfold TimerQueue.rearmed
  split
  · exact invariant
  · split
    · exact invariant.resetTimerfd _ delay
    · exact invariant

theorem Invariant.reset (invariant : queue.Invariant) {call : HandleRead}
    (callEq : queue.calling = some call) (delay : Nat) :
    ∃ state, queue.Returning call.now [] state ∧
      queue.reset delay = .ok (state.rearmed delay) := by
  have expiredEq : queue.expired = call.expired := by
    rw [expired, callEq]
  have starts : queue.Returning call.now call.expired
      { queue with callingExpiredTimers_ := false, calling := none } := by
    refine ⟨expiredEq ▸ List.suffix_rfl, rfl, ?_, fun _ _ => rfl, ?_⟩
    · refine invariant.holds.congr rfl rfl rfl fun timer _ _ => ?_
      rw [Away, expiredEq]
    · intro when timer member notMember
      rw [expiredEq] at member
      exact absurd member notMember
  obtain ⟨state, folded, returning⟩ :=
    Except.foldlM_returns (fun coming state => queue.Returning call.now coming state)
      (fun _ _ _ => invariant.returning_step) starts
  refine ⟨state, returning, ?_⟩
  unfold TimerQueue.reset
  rw [callEq]
  exact (Except.bind_of_ok folded _).trans ((invariant.of_returning returning).rearm delay)

/-! ## All steps -/

/-- What each event does to the queue. -/
inductive Steps (queue : TimerQueue) : TimerEvent → TimerQueue → Prop
  | passTime {elapsed : Nat} {adjusted : Int} :
      Steps queue (.passTime elapsed adjusted)
        { queue with
          clock := queue.clock + elapsed + adjusted
          monotonic := queue.monotonic + elapsed }
  | newTimer {timer : TimerPtr} {when : Int} {interval : Nat} {again : Bool}
      (free : queue.heap timer = none) (bound : timer < UINTPTR_MAX) :
      Steps queue (.newTimer timer when interval again)
        (queue.newTimer timer when interval again)
  | addTimerInLoop {timer : TimerPtr} {value : Timer} {delay : Nat}
      (waits : timer ∈ queue.awaiting) (found : queue.heap timer = some value) :
      Steps queue (.addTimerInLoop timer delay) (queue.added timer value delay)
  | cancelInLoop {timerId : TimerId} {after : TimerQueue}
      (cancels : queue.Cancels timerId after) :
      Steps queue (.cancelInLoop timerId) after
  | poll (idle : queue.calling = none) : Steps queue .poll { queue with polled := true }
  | handleRead {active : OrderedSet ActiveTimer} (idle : queue.calling = none) :
      Steps queue .handleRead (queue.begun active)
  | runNext {now : Int} {expired remaining : List TimerEntry} {entry : TimerEntry}
      {value : Timer}
      (callEq : queue.calling = some ⟨now, expired, entry :: remaining⟩)
      (found : queue.heap (ofLex entry).2 = some value)
      (expirationEq : value.expiration_ = (ofLex entry).1) :
      Steps queue .runNext (queue.called now expired remaining value)
  | reset {now : Int} {expired : List TimerEntry} {state : TimerQueue} {delay : Nat}
      (callEq : queue.calling = some ⟨now, expired, []⟩)
      (returning : queue.Returning now [] state) :
      Steps queue (.reset delay) (state.rearmed delay)

theorem Invariant.step (invariant : queue.Invariant) {event : TimerEvent}
    (offered : queue.Offered event) :
    ∃ after, queue.step event = .ok after ∧ after.Invariant ∧ queue.Steps event after := by
  cases event with
  | passTime elapsed adjusted =>
      exact ⟨_, rfl,
        invariant.of_same rfl rfl rfl rfl rfl rfl rfl rfl invariant.remaining, .passTime⟩
  | newTimer timer when interval again =>
      exact ⟨_, rfl, invariant.newTimer offered.1 offered.2 when interval again,
        .newTimer offered.1 offered.2⟩
  | addTimerInLoop timer delay =>
      obtain ⟨value, found, addEq, afterInvariant⟩ :=
        invariant.addTimerInLoop offered delay
      exact ⟨_, addEq, afterInvariant, .addTimerInLoop offered found⟩
  | cancelInLoop timerId =>
      obtain ⟨after, cancelEq, afterInvariant, cancels⟩ := invariant.cancelInLoop timerId
      exact ⟨after, cancelEq, afterInvariant, .cancelInLoop cancels⟩
  | poll =>
      exact ⟨_, rfl,
        invariant.of_same rfl rfl rfl rfl rfl rfl rfl rfl invariant.remaining,
        .poll (Option.isNone_iff_eq_none.mp offered.1)⟩
  | handleRead =>
      have idle := Option.isNone_iff_eq_none.mp offered.1
      obtain ⟨active, readEq, afterInvariant⟩ := invariant.handleRead idle
      exact ⟨_, readEq, afterInvariant, .handleRead idle⟩
  | runNext =>
      obtain ⟨⟨now, expired, remaining⟩, callEq, notDone⟩ := offered
      cases remaining with
      | nil => exact absurd rfl notDone
      | cons entry remaining =>
          obtain ⟨value, found, expirationEq, runEq, afterInvariant⟩ :=
            invariant.runNext callEq
          exact ⟨_, runEq, afterInvariant, .runNext callEq found expirationEq⟩
  | reset delay =>
      obtain ⟨⟨now, expired, remaining⟩, callEq, done⟩ := offered
      obtain rfl : remaining = [] := done
      obtain ⟨state, returning, resetEq⟩ := invariant.reset callEq delay
      exact ⟨_, resetEq, (invariant.of_returning returning).rearmed delay,
        .reset callEq returning⟩

theorem Invariant.steps_of_next (invariant : queue.Invariant) {event : TimerEvent}
    {after : TimerQueue} (offered : queue.Offered event)
    (stepTo : system.next queue event = some after) :
    after.Invariant ∧ queue.Steps event after := by
  obtain ⟨after', stepEq, afterInvariant, steps⟩ := invariant.step offered
  rw [Except.toOption_eq_some_iff.mp stepTo] at stepEq
  obtain rfl := Except.ok.inj stepEq
  exact ⟨afterInvariant, steps⟩

theorem invariant_of_reaches {clock : Int} {events : List TimerEvent}
    (run : system.Reaches (new clock) events queue) : queue.Invariant := by
  apply run.invariant fun _ queue => queue.Invariant
  · exact new_invariant clock
  · intro _ before event after _ invariant offered stepTo
    exact (invariant.steps_of_next offered stepTo).1

end TimerQueue

end TcpMysql
