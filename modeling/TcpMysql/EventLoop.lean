import TcpMysql.EventRuns
import Mathlib.Algebra.Group.Nat.Defs

/-!
# The event loop

`muduo::net::EventLoop`, with the threads that queue functors in it.  The loop
polls, handles the active channels, and then calls the functors that were queued.
Another thread that queues a functor pushes it under the mutex and wakes the loop
up in a second step, and whatever else happens may come between the two.  A
thread that has yet to call `wakeup` is in `waking`.

The descriptor `wakeupFd_` is a counter: `wakeup` adds one, and `handleRead`
clears it.
-/

namespace TcpMysql

/-- The channels that `poll` reports: the one of the wakeup descriptor, and all
others. -/
inductive ActiveChannel
  | wakeup
  | other
  deriving DecidableEq, Repr

/-- Where the loop's own thread is.  User code runs outside of `loop`, in the
handlers of the channels, and in the functors. -/
inductive LoopPoint (Functor : Type*)
  | outside
  | checking
  | polling
  | handling (activeChannels_ : List ActiveChannel)
  | calling (functors : List Functor)
  deriving DecidableEq, Repr

/-- The functors taken out of the queue that are not called yet. -/
def LoopPoint.batch {Functor : Type*} : LoopPoint Functor → List Functor
  | .calling functors => functors
  | _ => []

/-- The active channels that are not handled yet. -/
def LoopPoint.active {Functor : Type*} : LoopPoint Functor → List ActiveChannel
  | .handling activeChannels_ => activeChannels_
  | _ => []

/-- User code may be running. -/
def LoopPoint.inUserCode {Functor : Type*} : LoopPoint Functor → Bool
  | .checking | .polling => false
  | .outside | .handling _ | .calling _ => true

def LoopPoint.isHandling {Functor : Type*} : LoopPoint Functor → Bool
  | .handling _ => true
  | _ => false

def LoopPoint.isCalling {Functor : Type*} : LoopPoint Functor → Bool
  | .calling _ => true
  | _ => false

def LoopPoint.isOutside {Functor : Type*} : LoopPoint Functor → Bool
  | .outside => true
  | _ => false

/-- The loop.  `queued` and `executed` are histories, and `early` is the number of
functors in the queue that the loop's own thread queued outside of `loop`. -/
structure EventLoop (Functor : Type*) where
  threadId_ : Nat
  looping_ : Bool
  quit_ : Bool
  eventHandling_ : Bool
  callingPendingFunctors_ : Bool
  iteration_ : Nat
  wakeupFd_ : Nat
  pendingFunctors_ : List Functor
  point : LoopPoint Functor
  waking : List Nat
  early : Nat
  queued : List Functor
  executed : List Functor
  deriving DecidableEq, Repr

/-- The steps of the loop's thread, and the calls that any thread can make. -/
inductive LoopEvent (Functor : Type*)
  | loop
  | check
  | poll (activeChannels_ : List ActiveChannel)
  | handleEvent
  | doPendingFunctors
  | callFunctor
  | callsDone
  | queueInLoop (thread : Nat) (cb : Functor)
  | runInLoop (thread : Nat) (cb : Functor)
  | quit (thread : Nat)
  | wakeup (thread : Nat)
  deriving DecidableEq, Repr

namespace EventLoop

variable {Functor : Type*}

def new (threadId : Nat) : EventLoop Functor where
  threadId_ := threadId
  looping_ := false
  quit_ := false
  eventHandling_ := false
  callingPendingFunctors_ := false
  iteration_ := 0
  wakeupFd_ := 0
  pendingFunctors_ := []
  point := .outside
  waking := []
  early := 0
  queued := []
  executed := []

def isInLoopThread (loop : EventLoop Functor) (thread : Nat) : Bool :=
  loop.threadId_ == thread

/-- The largest value of the counter; a `write` that would exceed it fails. -/
def eventfdMax : Nat := 2 ^ 64 - 2

/-- `write` to the descriptor. -/
def wakeup (loop : EventLoop Functor) : EventLoop Functor :=
  if loop.wakeupFd_ < eventfdMax then { loop with wakeupFd_ := loop.wakeupFd_ + 1 }
  else loop

/-- `read` from the descriptor. -/
def handleRead (loop : EventLoop Functor) : EventLoop Functor :=
  { loop with wakeupFd_ := 0 }

def quit (loop : EventLoop Functor) (thread : Nat) : EventLoop Functor :=
  let stopped := { loop with quit_ := true }
  if loop.isInLoopThread thread then stopped
  else { stopped with waking := thread :: stopped.waking }

/-- The critical section, and the decision to call `wakeup`. -/
def queueInLoop (loop : EventLoop Functor) (thread : Nat) (cb : Functor) :
    EventLoop Functor :=
  let pushed := { loop with
    pendingFunctors_ := loop.pendingFunctors_ ++ [cb]
    queued := loop.queued ++ [cb] }
  if !loop.isInLoopThread thread || loop.callingPendingFunctors_ then
    { pushed with waking := thread :: pushed.waking }
  else
    { pushed with early := pushed.early + if pushed.point.isOutside then 1 else 0 }

/-- In the loop's own thread the functor is called at once, and whatever it does to
the loop are further events. -/
def runInLoop (loop : EventLoop Functor) (thread : Nat) (cb : Functor) :
    EventLoop Functor :=
  if loop.isInLoopThread thread then loop
  else loop.queueInLoop thread cb

/-- The next `handleEvent` of the loop over `activeChannels_`. -/
def handleEvent (loop : EventLoop Functor) : EventLoop Functor :=
  match loop.point with
  | .handling (.wakeup :: rest) => { loop.handleRead with point := .handling rest }
  | .handling (.other :: rest) => { loop with point := .handling rest }
  | _ => loop

/-- The functors are swapped out of the queue. -/
def doPendingFunctors (loop : EventLoop Functor) : EventLoop Functor :=
  { loop with
    eventHandling_ := false
    callingPendingFunctors_ := true
    pendingFunctors_ := []
    early := 0
    point := .calling loop.pendingFunctors_ }

def callFunctor (loop : EventLoop Functor) : EventLoop Functor :=
  match loop.point with
  | .calling (functor :: rest) =>
      { loop with executed := loop.executed ++ [functor], point := .calling rest }
  | _ => loop

def step (loop : EventLoop Functor) : LoopEvent Functor → Option (EventLoop Functor)
  | .loop =>
      if loop.looping_ then none
      else some { loop with looping_ := true, quit_ := false, point := .checking }
  | .check =>
      if loop.quit_ then some { loop with looping_ := false, point := .outside }
      else some { loop with point := .polling }
  | .poll activeChannels_ =>
      some { loop with
        iteration_ := loop.iteration_ + 1
        eventHandling_ := true
        point := .handling activeChannels_ }
  | .handleEvent => some loop.handleEvent
  | .doPendingFunctors => some loop.doPendingFunctors
  | .callFunctor => some loop.callFunctor
  | .callsDone => some { loop with callingPendingFunctors_ := false, point := .checking }
  | .queueInLoop thread cb => some (loop.queueInLoop thread cb)
  | .runInLoop thread cb => some (loop.runInLoop thread cb)
  | .quit thread => some (loop.quit thread)
  | .wakeup thread => some { loop.wakeup with waking := loop.waking.erase thread }

/-- The thread runs user code: it is not in the middle of a call, and the loop's
own thread is not busy with the loop. -/
def CanCall (loop : EventLoop Functor) (thread : Nat) : Prop :=
  thread ∉ loop.waking ∧ (thread = loop.threadId_ → loop.point.inUserCode = true)

/-- The loop's thread is free and at the given point. -/
def At (loop : EventLoop Functor) (point : LoopPoint Functor) : Prop :=
  loop.threadId_ ∉ loop.waking ∧ loop.point = point

/-- What the threads can do next.  `poll` may return without an active channel,
and it reports the wakeup channel only if the counter is not zero. -/
def Offered (loop : EventLoop Functor) : LoopEvent Functor → Prop
  | .loop => loop.At .outside
  | .check => loop.At .checking
  | .poll activeChannels_ =>
      loop.At .polling ∧ (.wakeup ∈ activeChannels_ → 0 < loop.wakeupFd_)
  | .handleEvent => loop.threadId_ ∉ loop.waking ∧ loop.point.active ≠ []
  | .doPendingFunctors => loop.At (.handling [])
  | .callFunctor => loop.threadId_ ∉ loop.waking ∧ loop.point.batch ≠ []
  | .callsDone => loop.At (.calling [])
  | .queueInLoop thread _ => loop.CanCall thread
  | .runInLoop thread _ => loop.CanCall thread
  | .quit thread => loop.CanCall thread
  | .wakeup thread => thread ∈ loop.waking

instance (loop : EventLoop Functor) (thread : Nat) : Decidable (loop.CanCall thread) :=
  inferInstanceAs (Decidable (_ ∧ _))

instance [DecidableEq Functor] (loop : EventLoop Functor) (point : LoopPoint Functor) :
    Decidable (loop.At point) :=
  inferInstanceAs (Decidable (_ ∧ _))

instance [DecidableEq Functor] (loop : EventLoop Functor) (event : LoopEvent Functor) :
    Decidable (loop.Offered event) :=
  match event with
  | .loop => inferInstanceAs (Decidable (loop.At _))
  | .check => inferInstanceAs (Decidable (loop.At _))
  | .poll _ => inferInstanceAs (Decidable (_ ∧ _))
  | .handleEvent => inferInstanceAs (Decidable (_ ∧ _))
  | .doPendingFunctors => inferInstanceAs (Decidable (loop.At _))
  | .callFunctor => inferInstanceAs (Decidable (_ ∧ _))
  | .callsDone => inferInstanceAs (Decidable (loop.At _))
  | .queueInLoop thread _ => inferInstanceAs (Decidable (loop.CanCall thread))
  | .runInLoop thread _ => inferInstanceAs (Decidable (loop.CanCall thread))
  | .quit thread => inferInstanceAs (Decidable (loop.CanCall thread))
  | .wakeup _ => inferInstanceAs (Decidable (_ ∈ _))

def system (Functor : Type*) : EventSystem (EventLoop Functor) (LoopEvent Functor) where
  next := step
  offered := Offered

instance [DecidableEq Functor] (loop : EventLoop Functor) (event : LoopEvent Functor) :
    Decidable ((system Functor).offered loop event) :=
  inferInstanceAs (Decidable (loop.Offered event))

variable {loop : EventLoop Functor}

/-! ## What the queue and the counter say -/

/-- The descriptor is readable, or a thread is about to write to it. -/
def WakeupComing (loop : EventLoop Functor) : Prop :=
  0 < loop.wakeupFd_ ∨ loop.waking ≠ []

theorem wakeup_positive (loop : EventLoop Functor) : 0 < loop.wakeup.wakeupFd_ := by
  unfold wakeup
  split
  · exact Nat.succ_pos _
  · rename_i full
    exact Nat.lt_of_lt_of_le (by decide) (Nat.not_lt.mp full)

theorem isInLoopThread_iff {thread : Nat} :
    loop.isInLoopThread thread = true ↔ thread = loop.threadId_ :=
  beq_iff_eq.trans eq_comm

/-- Everything queued was executed, is about to be, or is in the queue.  Outside
of the handlers every functor in the queue has its wakeup coming, the early ones
apart, and so has a `quit` that the loop has not seen. -/
structure Invariant (loop : EventLoop Functor) : Prop where
  fifo : loop.queued = loop.executed ++ loop.point.batch ++ loop.pendingFunctors_
  calling : loop.callingPendingFunctors_ = loop.point.isCalling
  wakes : loop.point.isHandling = false → loop.early < loop.pendingFunctors_.length →
    loop.WakeupComing
  quits : loop.point = .polling → loop.quit_ = true → loop.WakeupComing

theorem new_invariant (threadId : Nat) : (new threadId : EventLoop Functor).Invariant := by
  constructor <;> simp [new, LoopPoint.batch, LoopPoint.isCalling]

theorem Invariant.queueInLoop (invariant : loop.Invariant) {thread : Nat} (cb : Functor)
    (canCall : loop.CanCall thread) : (loop.queueInLoop thread cb).Invariant := by
  unfold EventLoop.queueInLoop
  simp only
  split
  · refine ⟨?_, invariant.calling, fun _ _ => ?_, fun _ _ => ?_⟩
    · simp [invariant.fifo]
    · exact .inr (List.cons_ne_nil _ _)
    · exact .inr (List.cons_ne_nil _ _)
  · rename_i silent
    simp only [Bool.or_eq_true, Bool.not_eq_true', not_or, Bool.not_eq_false,
      Bool.not_eq_true] at silent
    have userCode := canCall.2 (isInLoopThread_iff.mp silent.1)
    have notCalling := invariant.calling ▸ silent.2
    refine ⟨by simp [invariant.fifo], invariant.calling, fun notHandling more => ?_,
      fun polling => ?_⟩
    · -- The loop's thread is in user code, and neither in a handler nor in a functor.
      have outside : loop.point.isOutside = true := by
        cases pointEq : loop.point <;>
          simp [pointEq, LoopPoint.inUserCode, LoopPoint.isHandling, LoopPoint.isCalling,
            LoopPoint.isOutside] at *
      simp only [outside, if_true, List.length_append, List.length_singleton,
        Nat.add_lt_add_iff_right] at more
      exact invariant.wakes notHandling more
    · simp only at polling
      simp [polling, LoopPoint.inUserCode] at userCode

theorem Invariant.quit (invariant : loop.Invariant) {thread : Nat}
    (canCall : loop.CanCall thread) : (loop.quit thread).Invariant := by
  unfold EventLoop.quit
  simp only
  split
  · rename_i own
    refine ⟨invariant.fifo, invariant.calling, invariant.wakes, fun polling => ?_⟩
    have userCode := canCall.2 (isInLoopThread_iff.mp own)
    simp only at polling
    simp [polling, LoopPoint.inUserCode] at userCode
  · exact ⟨invariant.fifo, invariant.calling,
      fun _ _ => .inr (List.cons_ne_nil _ _),
      fun _ _ => .inr (List.cons_ne_nil _ _)⟩

theorem Invariant.handleEvent (invariant : loop.Invariant) : loop.handleEvent.Invariant := by
  unfold EventLoop.handleEvent
  split
  · rename_i rest pointEq
    have fifo := invariant.fifo
    have calling := invariant.calling
    rw [pointEq] at fifo calling
    exact ⟨fifo, calling, nofun, nofun⟩
  · rename_i rest pointEq
    have fifo := invariant.fifo
    have calling := invariant.calling
    rw [pointEq] at fifo calling
    exact ⟨fifo, calling, nofun, nofun⟩
  · exact invariant

theorem Invariant.callFunctor (invariant : loop.Invariant) : loop.callFunctor.Invariant := by
  unfold EventLoop.callFunctor
  split
  · rename_i functor rest pointEq
    have fifo := invariant.fifo
    have calling := invariant.calling
    have wakes := invariant.wakes
    rw [pointEq] at fifo calling wakes
    refine ⟨?_, calling, wakes, nofun⟩
    simpa [LoopPoint.batch] using fifo
  · exact invariant

theorem Invariant.step (invariant : loop.Invariant) {event : LoopEvent Functor}
    {after : EventLoop Functor} (offered : loop.Offered event)
    (stepTo : loop.step event = some after) : after.Invariant := by
  have fifo := invariant.fifo
  have calling := invariant.calling
  have wakes := invariant.wakes
  cases event with
  | loop =>
      have pointEq := offered.2
      rw [pointEq] at fifo calling wakes
      simp only [EventLoop.step] at stepTo
      split at stepTo
      · simp at stepTo
      · obtain rfl := Option.some.inj stepTo
        exact ⟨fifo, calling, wakes, nofun⟩
  | check =>
      have pointEq := offered.2
      rw [pointEq] at fifo calling wakes
      simp only [EventLoop.step] at stepTo
      split at stepTo
      · obtain rfl := Option.some.inj stepTo
        exact ⟨fifo, calling, wakes, nofun⟩
      · rename_i running
        obtain rfl := Option.some.inj stepTo
        exact ⟨fifo, calling, wakes, fun _ stopped => absurd stopped running⟩
  | poll activeChannels_ =>
      have pointEq := offered.1.2
      rw [pointEq] at fifo calling
      obtain rfl := Option.some.inj stepTo
      exact ⟨fifo, calling, nofun, nofun⟩
  | handleEvent =>
      obtain rfl := Option.some.inj stepTo
      exact invariant.handleEvent
  | doPendingFunctors =>
      have pointEq := offered.2
      rw [pointEq] at fifo
      obtain rfl := Option.some.inj stepTo
      refine ⟨?_, rfl, fun _ more => absurd more (Nat.lt_irrefl 0), nofun⟩
      simpa [EventLoop.doPendingFunctors, LoopPoint.batch] using fifo
  | callFunctor =>
      obtain rfl := Option.some.inj stepTo
      exact invariant.callFunctor
  | callsDone =>
      have pointEq := offered.2
      rw [pointEq] at fifo calling wakes
      obtain rfl := Option.some.inj stepTo
      exact ⟨fifo, rfl, wakes, nofun⟩
  | queueInLoop thread cb =>
      obtain rfl := Option.some.inj stepTo
      exact invariant.queueInLoop cb offered
  | runInLoop thread cb =>
      obtain rfl := Option.some.inj stepTo
      unfold runInLoop
      split
      · exact invariant
      · exact invariant.queueInLoop cb offered
  | quit thread =>
      obtain rfl := Option.some.inj stepTo
      exact invariant.quit offered
  | wakeup thread =>
      obtain rfl := Option.some.inj stepTo
      have positive := loop.wakeup_positive
      have same : loop.wakeup = { loop with wakeupFd_ := loop.wakeup.wakeupFd_ } := by
        unfold wakeup
        split <;> rfl
      rw [same]
      exact ⟨fifo, calling, fun _ _ => .inl positive, fun _ _ => .inl positive⟩

theorem invariant_of_reaches {threadId : Nat} {events : List (LoopEvent Functor)}
    (run : (system Functor).Reaches (new threadId) events loop) : loop.Invariant := by
  apply run.invariant fun _ loop => loop.Invariant
  · exact new_invariant threadId
  · intro _ before event after _ invariant offered stepTo
    exact invariant.step offered stepTo

/-- Functors are executed in the order in which they were queued, none is lost
and none is executed twice, however the threads interleave. -/
theorem functors_executed_in_order {threadId : Nat} {events : List (LoopEvent Functor)}
    (run : (system Functor).Reaches (new threadId) events loop) :
    loop.queued = loop.executed ++ loop.point.batch ++ loop.pendingFunctors_ :=
  (invariant_of_reaches run).fifo

/-- While the loop polls, another thread queues a functor and has yet to write to
the descriptor. -/
def pushed : List (LoopEvent Nat) :=
  [.loop, .check, .queueInLoop 2 7]

/-- The iteration that follows, with a second functor queued by the first. -/
def wentRound : List (LoopEvent Nat) :=
  [.wakeup 2, .poll [.wakeup], .handleEvent, .doPendingFunctors, .callFunctor,
    .queueInLoop 1 8, .wakeup 1, .callsDone]

theorem functors_executed_in_order_two :
    ∃ loop, (system Nat).Reaches (new 1) (pushed ++ wentRound) loop ∧
      loop.queued = [7, 8] ∧
        loop.queued = loop.executed ++ loop.point.batch ++ loop.pendingFunctors_ := by
  obtain ⟨loop, run, queuedEq⟩ :=
    (system Nat).exists_reaches_of_play (new 1) (pushed ++ wentRound)
      (fun loop => loop.queued = [7, 8]) (by decide +kernel)
  exact ⟨loop, run, queuedEq, functors_executed_in_order run⟩

/-- Outside of the handlers, everything queued at the start has left the queue
once the loop has polled again. -/
structure Drains (start loop : EventLoop Functor) : Prop where
  queued : start.queued <+: loop.queued
  iteration : start.iteration_ ≤ loop.iteration_
  drained : start.iteration_ < loop.iteration_ → loop.point.isHandling = false →
    start.queued <+: loop.executed ++ loop.point.batch

theorem Drains.of_same {start after : EventLoop Functor} (drains : start.Drains loop)
    (queued : loop.queued <+: after.queued)
    (iterationEq : after.iteration_ = loop.iteration_)
    (handling : after.point.isHandling = loop.point.isHandling)
    (taken : after.executed ++ after.point.batch = loop.executed ++ loop.point.batch) :
    start.Drains after := by
  refine ⟨drains.queued.trans queued, iterationEq ▸ drains.iteration, ?_⟩
  rw [iterationEq, handling, taken]
  exact drains.drained

theorem Drains.queueInLoop {start : EventLoop Functor} (drains : start.Drains loop)
    (thread : Nat) (cb : Functor) : start.Drains (loop.queueInLoop thread cb) := by
  unfold EventLoop.queueInLoop
  simp only
  split <;> exact drains.of_same (List.prefix_append _ _) rfl rfl rfl

theorem Drains.step {start : EventLoop Functor} (drains : start.Drains loop)
    (invariant : loop.Invariant) {event : LoopEvent Functor} {after : EventLoop Functor}
    (offered : loop.Offered event) (stepTo : loop.step event = some after) :
    start.Drains after := by
  cases event with
  | loop =>
      have pointEq := offered.2
      simp only [EventLoop.step] at stepTo
      split at stepTo
      · simp at stepTo
      · obtain rfl := Option.some.inj stepTo
        refine drains.of_same List.prefix_rfl rfl ?_ ?_ <;> rw [pointEq] <;> rfl
  | check =>
      have pointEq := offered.2
      simp only [EventLoop.step] at stepTo
      split at stepTo
      · obtain rfl := Option.some.inj stepTo
        refine drains.of_same List.prefix_rfl rfl ?_ ?_ <;> rw [pointEq] <;> rfl
      · obtain rfl := Option.some.inj stepTo
        refine drains.of_same List.prefix_rfl rfl ?_ ?_ <;> rw [pointEq] <;> rfl
  | poll activeChannels_ =>
      obtain rfl := Option.some.inj stepTo
      exact ⟨drains.queued, Nat.le_succ_of_le drains.iteration, nofun⟩
  | handleEvent =>
      obtain rfl := Option.some.inj stepTo
      unfold EventLoop.handleEvent
      split
      · rename_i rest pointEq
        refine drains.of_same List.prefix_rfl rfl ?_ ?_ <;> rw [pointEq] <;> rfl
      · rename_i rest pointEq
        refine drains.of_same List.prefix_rfl rfl ?_ ?_ <;> rw [pointEq] <;> rfl
      · exact drains
  | doPendingFunctors =>
      have pointEq := offered.2
      have fifo := invariant.fifo
      rw [pointEq] at fifo
      obtain rfl := Option.some.inj stepTo
      refine ⟨drains.queued, drains.iteration, fun _ _ => ?_⟩
      have all : loop.queued = loop.executed ++ loop.pendingFunctors_ := by
        simpa [LoopPoint.batch] using fifo
      exact all ▸ drains.queued
  | callFunctor =>
      obtain rfl := Option.some.inj stepTo
      unfold EventLoop.callFunctor
      split
      · rename_i functor rest pointEq
        refine drains.of_same List.prefix_rfl rfl ?_ ?_
        · rw [pointEq]
          rfl
        · simp [pointEq, LoopPoint.batch]
      · exact drains
  | callsDone =>
      have pointEq := offered.2
      obtain rfl := Option.some.inj stepTo
      refine drains.of_same List.prefix_rfl rfl ?_ ?_ <;> rw [pointEq] <;> rfl
  | queueInLoop thread cb =>
      obtain rfl := Option.some.inj stepTo
      exact drains.queueInLoop thread cb
  | runInLoop thread cb =>
      obtain rfl := Option.some.inj stepTo
      unfold runInLoop
      split
      · exact drains
      · exact drains.queueInLoop thread cb
  | quit thread =>
      obtain rfl := Option.some.inj stepTo
      unfold EventLoop.quit
      simp only
      split <;> exact drains.of_same List.prefix_rfl rfl rfl rfl
  | wakeup thread =>
      obtain rfl := Option.some.inj stepTo
      unfold wakeup
      split <;> exact drains.of_same List.prefix_rfl rfl rfl rfl

/-- Once the loop has gone round after a functor was queued, the functor has been
executed: an iteration that begins after the push ends with it executed. -/
theorem iteration_executes_queued_functors {threadId : Nat}
    {events later : List (LoopEvent Functor)} {after : EventLoop Functor}
    (run : (system Functor).Reaches (new threadId) events loop)
    (rest : (system Functor).Reaches loop later after)
    (wentRound : loop.iteration_ < after.iteration_) (finished : after.point = .checking) :
    loop.queued <+: after.executed := by
  have holds : after.Invariant ∧ loop.Drains after := by
    apply rest.invariant fun _ after => after.Invariant ∧ loop.Drains after
    · exact ⟨invariant_of_reaches run, List.prefix_rfl, Nat.le_refl _,
        fun later => absurd later (Nat.lt_irrefl _)⟩
    · intro _ before event after _ holds offered stepTo
      exact ⟨holds.1.step offered stepTo, holds.2.step holds.1 offered stepTo⟩
  have drained := holds.2.drained wentRound (by rw [finished]; rfl)
  simpa [finished, LoopPoint.batch] using drained

theorem iteration_executes_queued_functors_one :
    ∃ loop after : EventLoop Nat, (system Nat).Reaches (new 1) pushed loop ∧
      loop.queued = [7] ∧ loop.queued <+: after.executed := by
  obtain ⟨loop, run, queuedEq, after, restEq, wentRound, finished⟩ :=
    (system Nat).exists_reaches_of_play (new 1) pushed
      (fun loop => loop.queued = [7] ∧ ∃ after ∈ (system Nat).play loop wentRound,
        loop.iteration_ < after.iteration_ ∧ after.point = .checking) (by decide +kernel)
  exact ⟨loop, after, run, queuedEq, iteration_executes_queued_functors run
    (.append_play .start restEq) wentRound finished⟩

end EventLoop

end TcpMysql
