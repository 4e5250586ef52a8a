import TcpMysql.EventRuns
import TcpMysql.Fallible
import TcpMysql.OrderedSet
import Mathlib.Data.Prod.Lex
import Mathlib.Algebra.Group.Int.Defs
import Mathlib.Algebra.Group.Nat.Defs

/-!
# The timer queue

`muduo::net::TimerQueue`, which calls `onTimer` of the server.  The timers are
objects on a heap that hands out any free address, so the address of a deleted
timer may come back; a `TimerId` pairs the address with a sequence number.  The
set `timers_` is sorted by expiration, and `activeTimers_` holds the same timers
for `cancel`.

`handleRead` takes all due timers out of both sets, calls them one after the
other, and then puts the repeating ones back.  A callback may add and cancel
timers, so the calls are separate steps here, and whatever happens between two of
them was done by a callback.  An assertion that fails, or a pointer to a deleted
timer that is used, is a fault.

There are two clocks.  Expirations are compared with the wall clock, which somebody
may set; the descriptor is set to a time on the monotonic clock, some time after
the wall clock was read for it.
-/

namespace TcpMysql

/-! A `Timestamp` is the number of microseconds since the epoch. -/

namespace Timestamp

def kMicroSecondsPerSecond : Int := 1000 * 1000

def valid (time : Int) : Bool :=
  0 < time

def invalid : Int := 0

end Timestamp

/-- The address of a timer. -/
abbrev TimerPtr := Nat

def UINTPTR_MAX : Nat := 2 ^ 64 - 1

/-- `Timer`, without its callback.  `repeat_` stands for `interval > 0.0`, and
`interval_` for the interval in whole microseconds, as `addTime` truncates it. -/
structure Timer where
  expiration_ : Int
  interval_ : Nat
  repeat_ : Bool
  sequence_ : Nat
  deriving DecidableEq, Repr

def Timer.restart (timer : Timer) (now : Int) : Timer :=
  if timer.repeat_ then { timer with expiration_ := now + timer.interval_ }
  else { timer with expiration_ := Timestamp.invalid }

/-- `TimerQueue::Entry`. -/
abbrev TimerEntry := Int ×ₗ TimerPtr

/-- `TimerQueue::ActiveTimer`. -/
abbrev ActiveTimer := TimerPtr ×ₗ Nat

/-- What `addTimer` returns. -/
structure TimerId where
  timer_ : TimerPtr
  sequence_ : Nat
  deriving DecidableEq, Repr

/-- The ways a call can go wrong. -/
inductive TimerFault
  | assertion
  | deletedTimer
  deriving DecidableEq, Repr

/-- A call of a timer's callback: the timer as it was, what `handleRead` read from
the wall clock before its first call, the wall clock at this call, and how many
calls of `handleRead` there had been. -/
structure TimerRun where
  timer : Timer
  now : Int
  time : Int
  round : Nat
  deriving DecidableEq, Repr

/-- The local variables of `handleRead` while it calls the expired timers. -/
structure HandleRead where
  now : Int
  expired : List TimerEntry
  remaining : List TimerEntry

/-- The queue, the heap, the wall clock and the monotonic clock, in microseconds.
`awaiting` are the calls of `addTimerInLoop` that the loop has yet to make;
`timerfd_` is the time on the monotonic clock at which the descriptor becomes
readable, and `polled` says that the loop has seen it readable and will call
`handleRead`. -/
structure TimerQueue where
  heap : TimerPtr → Option Timer
  s_numCreated_ : Nat
  awaiting : List TimerPtr
  timers_ : OrderedSet TimerEntry
  activeTimers_ : OrderedSet ActiveTimer
  cancelingTimers_ : OrderedSet ActiveTimer
  callingExpiredTimers_ : Bool
  calling : Option HandleRead
  timerfd_ : Option Int
  clock : Int
  monotonic : Int
  polled : Bool
  rounds : Nat
  runs : List TimerRun

/-- What happens to a timer queue.  While time passes the wall clock may be set,
forward or back.  A `delay` is the time between reading the wall clock for the
descriptor and `timerfd_settime`. -/
inductive TimerEvent
  | passTime (elapsed : Nat) (adjusted : Int)
  | newTimer (timer : TimerPtr) (when : Int) (interval : Nat) (again : Bool)
  | addTimerInLoop (timer : TimerPtr) (delay : Nat)
  | cancelInLoop (timerId : TimerId)
  | poll
  | handleRead
  | runNext
  | reset (delay : Nat)
  deriving DecidableEq, Repr

namespace TimerQueue

def new (clock : Int) : TimerQueue where
  heap _ := none
  s_numCreated_ := 0
  awaiting := []
  timers_ := .empty
  activeTimers_ := .empty
  cancelingTimers_ := .empty
  callingExpiredTimers_ := false
  calling := none
  timerfd_ := none
  clock := clock
  monotonic := 0
  polled := false
  rounds := 0
  runs := []

def deref (queue : TimerQueue) (timer : TimerPtr) : Except TimerFault Timer :=
  match queue.heap timer with
  | none => .error .deletedTimer
  | some value => .ok value

def store (queue : TimerQueue) (timer : TimerPtr) (value : Option Timer) :
    TimerQueue :=
  { queue with heap := Function.update queue.heap timer value }

/-- `delete`. -/
def delete (queue : TimerQueue) (timer : TimerPtr) : Except TimerFault TimerQueue := do
  let _ ← queue.deref timer
  return queue.store timer none

/-- `new Timer` at a free address, and the call of `addTimerInLoop` it is made
for. -/
def newTimer (queue : TimerQueue) (timer : TimerPtr) (when : Int)
    (interval : Nat) (again : Bool) : TimerQueue :=
  { queue.store timer (some ⟨when, interval, again, queue.s_numCreated_ + 1⟩) with
    s_numCreated_ := queue.s_numCreated_ + 1
    awaiting := queue.awaiting ++ [timer] }

/-- `struct timespec`. -/
structure Timespec where
  tv_sec : Int
  tv_nsec : Int

def howMuchTimeFromNow (now when : Int) : Timespec :=
  let microseconds := if when - now < 100 then 100 else when - now
  ⟨microseconds.tdiv Timestamp.kMicroSecondsPerSecond,
    microseconds.tmod Timestamp.kMicroSecondsPerSecond * 1000⟩

/-- The time until the expiration is computed with the wall clock, and then the
descriptor is set to become readable after this time on the monotonic clock. -/
def resetTimerfd (queue : TimerQueue) (expiration : Int) (delay : Nat) : TimerQueue :=
  let value := howMuchTimeFromNow queue.clock expiration
  { queue with
    clock := queue.clock + delay
    monotonic := queue.monotonic + delay
    timerfd_ := some (queue.monotonic + delay +
      (value.tv_sec * Timestamp.kMicroSecondsPerSecond + value.tv_nsec.tdiv 1000)) }

/-- A one-shot descriptor is no longer readable after it was read; a `read` that
comes too early leaves it alone. -/
def readTimerfd (queue : TimerQueue) : TimerQueue :=
  match queue.timerfd_ with
  | none => queue
  | some deadline =>
      if deadline ≤ queue.monotonic then { queue with timerfd_ := none } else queue

/-- `it == timers_.end() || when < it->first`. -/
def earliestChanged (queue : TimerQueue) (when : Int) : Bool :=
  match queue.timers_.first? with
  | none => true
  | some entry => when < (ofLex entry).1

/-- Both sets with one more timer. -/
def inserted (queue : TimerQueue) (timer : TimerPtr) (value : Timer) : TimerQueue :=
  { queue with
    timers_ := queue.timers_.insert (toLex (value.expiration_, timer))
    activeTimers_ := queue.activeTimers_.insert (toLex (timer, value.sequence_)) }

def insert (queue : TimerQueue) (timer : TimerPtr) :
    Except TimerFault (Bool × TimerQueue) := do
  check .assertion (queue.timers_.size = queue.activeTimers_.size)
  let value ← queue.deref timer
  check .assertion (toLex (value.expiration_, timer) ∉ queue.timers_)
  check .assertion (toLex (timer, value.sequence_) ∉ queue.activeTimers_)
  let after := queue.inserted timer value
  check .assertion (after.timers_.size = after.activeTimers_.size)
  return (queue.earliestChanged value.expiration_, after)

def addTimerInLoop (queue : TimerQueue) (timer : TimerPtr) (delay : Nat) :
    Except TimerFault TimerQueue := do
  let inserted ← { queue with awaiting := queue.awaiting.erase timer }.insert timer
  let value ← inserted.2.deref timer
  if inserted.1 then return inserted.2.resetTimerfd value.expiration_ delay
  else return inserted.2

/-- Both sets without a timer, which is deleted. -/
def removed (queue : TimerQueue) (timer : TimerPtr) (value : Timer) : TimerQueue :=
  { queue.store timer none with
    timers_ := queue.timers_.erase (toLex (value.expiration_, timer))
    activeTimers_ := queue.activeTimers_.erase (toLex (timer, value.sequence_)) }

/-- The branch of `cancelInLoop` for a timer that is in the sets. -/
def removeActive (queue : TimerQueue) (timerId : TimerId) :
    Except TimerFault TimerQueue := do
  let value ← queue.deref timerId.timer_
  check .assertion (toLex (value.expiration_, timerId.timer_) ∈ queue.timers_)
  let _ ← queue.delete timerId.timer_
  return queue.removed timerId.timer_ value

/-- What `cancelInLoop` does between its assertions. -/
def removeOrNote (queue : TimerQueue) (timerId : TimerId) :
    Except TimerFault TimerQueue :=
  let timer : ActiveTimer := toLex (timerId.timer_, timerId.sequence_)
  if timer ∈ queue.activeTimers_ then queue.removeActive timerId
  else if queue.callingExpiredTimers_ then
    .ok { queue with cancelingTimers_ := queue.cancelingTimers_.insert timer }
  else
    .ok queue

def cancelInLoop (queue : TimerQueue) (timerId : TimerId) :
    Except TimerFault TimerQueue := do
  check .assertion (queue.timers_.size = queue.activeTimers_.size)
  let after ← queue.removeOrNote timerId
  check .assertion (after.timers_.size = after.activeTimers_.size)
  return after

/-- One turn of the loop in `getExpired`. -/
def deactivate (queue : TimerQueue) (entry : TimerEntry) :
    Except TimerFault TimerQueue := do
  let timer := (ofLex entry).2
  let value ← queue.deref timer
  let active : ActiveTimer := toLex (timer, value.sequence_)
  check .assertion (active ∈ queue.activeTimers_)
  return { queue with activeTimers_ := queue.activeTimers_.erase active }

/-- The entry that all entries due at the time are smaller than. -/
def sentry (now : Int) : TimerEntry :=
  toLex (now, UINTPTR_MAX)

/-- The entries in front of the sentry. -/
def due (queue : TimerQueue) (now : Int) : List TimerEntry :=
  queue.timers_.below (sentry now)

/-- The due entries leave both sets. -/
def getExpired (queue : TimerQueue) (now : Int) :
    Except TimerFault (List TimerEntry × TimerQueue) := do
  check .assertion (queue.timers_.size = queue.activeTimers_.size)
  let rest := queue.timers_.dropBelow (sentry now)
  check .assertion (∀ entry ∈ rest.first?, now < (ofLex entry).1)
  let taken ← (queue.due now).foldlM deactivate { queue with timers_ := rest }
  check .assertion (taken.timers_.size = taken.activeTimers_.size)
  return (queue.due now, taken)

/-- `handleRead` up to its first call of a timer. -/
def handleRead (queue : TimerQueue) : Except TimerFault TimerQueue := do
  let now := queue.clock
  let (expired, taken) ← queue.readTimerfd.getExpired now
  return { taken with
    polled := false
    callingExpiredTimers_ := true
    cancelingTimers_ := .empty
    calling := some ⟨now, expired, expired⟩
    rounds := queue.rounds + 1 }

/-- The queue when one more timer has been called. -/
def called (queue : TimerQueue) (now : Int) (expired remaining : List TimerEntry)
    (value : Timer) : TimerQueue :=
  { queue with
    calling := some ⟨now, expired, remaining⟩
    runs := queue.runs ++ [⟨value, now, queue.clock, queue.rounds⟩] }

/-- The next `it.second->run()`. -/
def runNext (queue : TimerQueue) : Except TimerFault TimerQueue :=
  match queue.calling with
  | some ⟨now, expired, entry :: remaining⟩ => do
      let value ← queue.deref (ofLex entry).2
      return queue.called now expired remaining value
  | _ => return queue

/-- One turn of the loop in `reset`. -/
def putBack (now : Int) (queue : TimerQueue) (entry : TimerEntry) :
    Except TimerFault TimerQueue := do
  let timer := (ofLex entry).2
  let value ← queue.deref timer
  let active : ActiveTimer := toLex (timer, value.sequence_)
  if value.repeat_ ∧ active ∉ queue.cancelingTimers_ then
    let inserted ← (queue.store timer (some (value.restart now))).insert timer
    return inserted.2
  else
    queue.delete timer

/-- The end of `reset`: the descriptor is set for the first timer. -/
def rearm (queue : TimerQueue) (delay : Nat) : Except TimerFault TimerQueue :=
  match queue.timers_.first? with
  | none => return queue
  | some entry => do
      let value ← queue.deref (ofLex entry).2
      if Timestamp.valid value.expiration_ then
        return queue.resetTimerfd value.expiration_ delay
      else return queue

/-- `handleRead` after its last call of a timer. -/
def reset (queue : TimerQueue) (delay : Nat) : Except TimerFault TimerQueue :=
  match queue.calling with
  | some ⟨now, expired, _⟩ => do
      let returned ← expired.foldlM (putBack now)
        { queue with callingExpiredTimers_ := false, calling := none }
      returned.rearm delay
  | none => return queue

def step (queue : TimerQueue) : TimerEvent → Except TimerFault TimerQueue
  | .passTime elapsed adjusted =>
      .ok { queue with
        clock := queue.clock + elapsed + adjusted
        monotonic := queue.monotonic + elapsed }
  | .newTimer timer when interval again =>
      .ok (queue.newTimer timer when interval again)
  | .addTimerInLoop timer delay => queue.addTimerInLoop timer delay
  | .cancelInLoop timerId => queue.cancelInLoop timerId
  | .poll => .ok { queue with polled := true }
  | .handleRead => queue.handleRead
  | .runNext => queue.runNext
  | .reset delay => queue.reset delay

/-- What the environment and the loop can do.  The allocator hands out free
addresses, the loop makes the calls it was asked for, and it polls and handles the
descriptor between two calls of `handleRead`. -/
def Offered (queue : TimerQueue) : TimerEvent → Prop
  | .passTime _ _ => True
  | .newTimer timer _ _ _ => queue.heap timer = none ∧ timer < UINTPTR_MAX
  | .addTimerInLoop timer _ => timer ∈ queue.awaiting
  | .cancelInLoop _ => True
  | .poll =>
      queue.calling.isNone ∧ ∃ deadline ∈ queue.timerfd_, deadline ≤ queue.monotonic
  | .handleRead => queue.calling.isNone ∧ queue.polled
  | .runNext => ∃ call ∈ queue.calling, call.remaining ≠ []
  | .reset _ => ∃ call ∈ queue.calling, call.remaining = []

instance (queue : TimerQueue) (event : TimerEvent) :
    Decidable (queue.Offered event) :=
  match event with
  | .passTime _ _ => inferInstanceAs (Decidable True)
  | .newTimer _ _ _ _ => inferInstanceAs (Decidable (_ ∧ _))
  | .addTimerInLoop _ _ => inferInstanceAs (Decidable (_ ∈ _))
  | .cancelInLoop _ => inferInstanceAs (Decidable True)
  | .poll => inferInstanceAs (Decidable (_ ∧ _))
  | .handleRead => inferInstanceAs (Decidable (_ ∧ _))
  | .runNext => inferInstanceAs (Decidable (∃ _ ∈ _, _))
  | .reset _ => inferInstanceAs (Decidable (∃ _ ∈ _, _))

def system : EventSystem TimerQueue TimerEvent where
  next queue event := (queue.step event).toOption
  offered := Offered

instance (queue : TimerQueue) (event : TimerEvent) :
    Decidable (system.offered queue event) :=
  inferInstanceAs (Decidable (queue.Offered event))

end TimerQueue

end TcpMysql
