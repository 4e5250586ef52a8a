import TcpMysql.EventRuns
import TcpMysql.Fallible
import TcpMysql.Monitor

/-!
# The thread pool

Threads that call `run` put tasks into a queue, which may be bounded, and the threads of
the pool take them out.  Both sides wait on condition variables.  A critical section is
one step; `wait` gives up the lock, and a thread that is woken up looks again before it
goes on.  Threads may also wake up for no reason.
-/

namespace TcpMysql

/-- A thread of the pool: before `while (running_)`, before it looks into the queue, in
`notEmpty_.wait()`, running a task, or at its end. -/
inductive PoolWorker (Task : Type)
  | checking
  | taking
  | waiting
  | executing (task : Task)
  | exited
  deriving DecidableEq, Repr

/-- A thread in `run`: before it looks at the queue, in `notFull_.wait()`, or back. -/
inductive PoolCaller (Task : Type)
  | entering (task : Task)
  | waiting (task : Task)
  | returned
  deriving DecidableEq, Repr

def PoolWorker.waiter {Task : Type} : PoolWorker Task → Waiter
  | .taking => .awake
  | .waiting => .waiting
  | .checking | .executing _ | .exited => .away

def PoolCaller.waiter {Task : Type} : PoolCaller Task → Waiter
  | .entering _ => .awake
  | .waiting _ => .waiting
  | .returned => .away

def PoolWorker.isChecking {Task : Type} : PoolWorker Task → Bool
  | .checking => true
  | .taking | .waiting | .executing _ | .exited => false

def PoolWorker.isExecuting {Task : Type} : PoolWorker Task → Bool
  | .executing _ => true
  | .checking | .taking | .waiting | .exited => false

/-- `notify` and a thread that wakes up for no reason. -/
def PoolWorker.wake {Task : Type} (workers : List (PoolWorker Task)) (index : Nat) :
    List (PoolWorker Task) :=
  match workers[index]? with
  | some .waiting => workers.set index .taking
  | _ => workers

def PoolCaller.wake {Task : Type} (callers : List (PoolCaller Task)) (index : Nat) :
    List (PoolCaller Task) :=
  match callers[index]? with
  | some (.waiting task) => callers.set index (.entering task)
  | _ => callers

def PoolWorker.wakeAll {Task : Type} (workers : List (PoolWorker Task)) :
    List (PoolWorker Task) :=
  workers.map fun worker =>
    match worker with
    | .waiting => .taking
    | other => other

inductive PoolFault
  | assertion
  deriving DecidableEq, Repr

/-- The pool after `start`.  `accepted` are the tasks for which `run` went on, and
`started` those that a thread has begun, both in order. -/
structure ThreadPool (Task : Type) where
  maxQueueSize_ : Nat
  running_ : Bool
  queue_ : List Task
  workers : List (PoolWorker Task)
  callers : List (PoolCaller Task)
  accepted : List Task
  started : List Task
  deriving DecidableEq, Repr

/-- The second number of `take` and `put` is the thread that is notified. -/
inductive PoolEvent (Task : Type)
  | run (task : Task)
  | put (caller notified : Nat)
  | wakeCaller (caller : Nat)
  | check (worker : Nat)
  | take (worker notified : Nat)
  | wakeWorker (worker : Nat)
  | finish (worker : Nat)
  | stop

namespace ThreadPool

variable {Task : Type}

def new (maxQueueSize numThreads : Nat) : ThreadPool Task where
  maxQueueSize_ := maxQueueSize
  running_ := true
  queue_ := []
  workers := List.replicate numThreads .checking
  callers := []
  accepted := []
  started := []

def isFull (pool : ThreadPool Task) : Prop :=
  0 < pool.maxQueueSize_ ∧ pool.maxQueueSize_ ≤ pool.queue_.length

instance (pool : ThreadPool Task) : Decidable pool.isFull :=
  inferInstanceAs (Decidable (_ ∧ _))

/-- `run`, each time it has the lock.  Without threads the task is called at once. -/
def put (pool : ThreadPool Task) (caller notified : Nat) (task : Task) :
    Except PoolFault (ThreadPool Task) :=
  if pool.workers.isEmpty then
    .ok { pool with
      callers := pool.callers.set caller .returned
      accepted := pool.accepted ++ [task]
      started := pool.started ++ [task] }
  else if pool.isFull then
    .ok { pool with callers := pool.callers.set caller (.waiting task) }
  else do
    check .assertion (¬pool.isFull)
    return { pool with
      queue_ := pool.queue_ ++ [task]
      callers := pool.callers.set caller .returned
      workers := PoolWorker.wake pool.workers notified
      accepted := pool.accepted ++ [task] }

/-- `take`, each time it has the lock. -/
def take (pool : ThreadPool Task) (worker notified : Nat) : ThreadPool Task :=
  match pool.queue_ with
  | [] =>
      { pool with
        workers := pool.workers.set worker (if pool.running_ then .waiting else .checking) }
  | task :: rest =>
      { pool with
        queue_ := rest
        workers := pool.workers.set worker (.executing task)
        callers :=
          if 0 < pool.maxQueueSize_ then PoolCaller.wake pool.callers notified
          else pool.callers
        started := pool.started ++ [task] }

def step (pool : ThreadPool Task) : PoolEvent Task → Except PoolFault (ThreadPool Task)
  | .run task => .ok { pool with callers := pool.callers ++ [.entering task] }
  | .put caller notified =>
      match pool.callers[caller]? with
      | some (.entering task) => pool.put caller notified task
      | _ => .ok pool
  | .wakeCaller caller => .ok { pool with callers := PoolCaller.wake pool.callers caller }
  | .check worker =>
      .ok { pool with
        workers := pool.workers.set worker (if pool.running_ then .taking else .exited) }
  | .take worker notified => .ok (pool.take worker notified)
  | .wakeWorker worker => .ok { pool with workers := PoolWorker.wake pool.workers worker }
  | .finish worker => .ok { pool with workers := pool.workers.set worker .checking }
  | .stop => .ok { pool with running_ := false, workers := PoolWorker.wakeAll pool.workers }

/-- Which events can happen.  A condition variable notifies a waiting thread if there is
one. -/
def Offered (pool : ThreadPool Task) : PoolEvent Task → Prop
  | .run _ | .wakeCaller _ | .wakeWorker _ | .stop => True
  | .put caller notified =>
      (pool.callers.map PoolCaller.waiter)[caller]? = some .awake ∧
        Waiter.Notifies (pool.workers.map PoolWorker.waiter) notified
  | .check worker => (pool.workers[worker]?).any PoolWorker.isChecking = true
  | .take worker notified =>
      (pool.workers.map PoolWorker.waiter)[worker]? = some .awake ∧
        Waiter.Notifies (pool.callers.map PoolCaller.waiter) notified
  | .finish worker => (pool.workers[worker]?).any PoolWorker.isExecuting = true

instance (pool : ThreadPool Task) (event : PoolEvent Task) :
    Decidable (pool.Offered event) := by
  cases event <;> unfold Offered <;> infer_instance

def system (Task : Type) : EventSystem (ThreadPool Task) (PoolEvent Task) where
  next pool event := (pool.step event).toOption
  offered := Offered

instance (pool : ThreadPool Task) (event : PoolEvent Task) :
    Decidable ((system Task).offered pool event) :=
  inferInstanceAs (Decidable (pool.Offered event))

/-! ## The threads as the condition variables see them -/

/-- The threads of the pool. -/
abbrev waitingWorkers (pool : ThreadPool Task) : List Waiter :=
  pool.workers.map PoolWorker.waiter

/-- The threads in `run`. -/
abbrev waitingCallers (pool : ThreadPool Task) : List Waiter :=
  pool.callers.map PoolCaller.waiter

theorem waiter_wakeWorker (workers : List (PoolWorker Task)) (index : Nat) :
    (PoolWorker.wake workers index).map PoolWorker.waiter =
      Waiter.wake (workers.map PoolWorker.waiter) index := by
  unfold PoolWorker.wake Waiter.wake
  rw [List.getElem?_map]
  cases workers[index]? with
  | none => rfl
  | some worker =>
      cases worker <;> simp [PoolWorker.waiter, List.map_set]

theorem waiter_wakeCaller (callers : List (PoolCaller Task)) (index : Nat) :
    (PoolCaller.wake callers index).map PoolCaller.waiter =
      Waiter.wake (callers.map PoolCaller.waiter) index := by
  unfold PoolCaller.wake Waiter.wake
  rw [List.getElem?_map]
  cases callers[index]? with
  | none => rfl
  | some caller =>
      cases caller <;> simp [PoolCaller.waiter, List.map_set]

theorem waiter_wakeAll (workers : List (PoolWorker Task)) :
    (PoolWorker.wakeAll workers).map PoolWorker.waiter =
      Waiter.wakeAll (workers.map PoolWorker.waiter) := by
  unfold PoolWorker.wakeAll Waiter.wakeAll
  rw [List.map_map, List.map_map]
  refine List.map_congr_left fun worker _ => ?_
  cases worker <;> rfl

theorem checking_of_isChecking {workers : List (PoolWorker Task)} {index : Nat}
    (checking : (workers[index]?).any PoolWorker.isChecking = true) :
    workers[index]? = some .checking := by
  obtain ⟨worker, found, isChecking⟩ := (Option.any_eq_true _ _).mp checking
  cases worker <;> first | exact found | exact absurd isChecking Bool.false_ne_true

theorem executing_of_isExecuting {workers : List (PoolWorker Task)} {index : Nat}
    (executing : (workers[index]?).any PoolWorker.isExecuting = true) :
    ∃ task, workers[index]? = some (.executing task) := by
  obtain ⟨worker, found, isExecuting⟩ := (Option.any_eq_true _ _).mp executing
  cases worker <;> first | exact ⟨_, found⟩ | exact absurd isExecuting Bool.false_ne_true

theorem taking_of_awake {workers : List (PoolWorker Task)} {index : Nat}
    (awake : (workers.map PoolWorker.waiter)[index]? = some .awake) :
    workers[index]? = some .taking := by
  rw [List.getElem?_map] at awake
  obtain ⟨worker, found, isAwake⟩ := Option.map_eq_some_iff.mp awake
  cases worker <;> first | exact found | cases isAwake

theorem entering_of_awake {callers : List (PoolCaller Task)} {index : Nat}
    (awake : (callers.map PoolCaller.waiter)[index]? = some .awake) :
    ∃ task, callers[index]? = some (.entering task) := by
  rw [List.getElem?_map] at awake
  obtain ⟨caller, found, isAwake⟩ := Option.map_eq_some_iff.mp awake
  cases caller <;> first | exact ⟨_, found⟩ | cases isAwake

theorem away_of_isChecking {workers : List (PoolWorker Task)} {index : Nat}
    (checking : (workers[index]?).any PoolWorker.isChecking = true) :
    (workers.map PoolWorker.waiter)[index]? = some .away := by
  rw [List.getElem?_map, checking_of_isChecking checking]
  rfl

theorem away_of_isExecuting {workers : List (PoolWorker Task)} {index : Nat}
    (executing : (workers[index]?).any PoolWorker.isExecuting = true) :
    (workers.map PoolWorker.waiter)[index]? = some .away := by
  obtain ⟨task, found⟩ := executing_of_isExecuting executing
  rw [List.getElem?_map, found]
  rfl

/-! ## The invariant -/

structure Invariant (pool : ThreadPool Task) : Prop where
  tasks : Waiter.NoLostWakeup pool.queue_.length pool.waitingWorkers
  room : Waiter.NoLostWakeup (pool.maxQueueSize_ - pool.queue_.length) pool.waitingCallers
  unbounded : pool.maxQueueSize_ = 0 → .waiting ∉ pool.waitingCallers
  bounded : 0 < pool.maxQueueSize_ → pool.queue_.length ≤ pool.maxQueueSize_
  order : pool.started ++ pool.queue_ = pool.accepted
  alive : pool.running_ = true → .exited ∉ pool.workers
  inline : pool.workers = [] → pool.queue_ = [] ∧ .waiting ∉ pool.waitingCallers

variable {pool after : ThreadPool Task}

theorem new_invariant (maxQueueSize numThreads : Nat) :
    (new maxQueueSize numThreads : ThreadPool Task).Invariant where
  tasks := fun _ => Nat.zero_le _
  room := .of_none List.not_mem_nil
  unbounded := fun _ => List.not_mem_nil
  bounded := fun _ => Nat.zero_le _
  order := rfl
  alive := by
    intro _ member
    cases List.eq_of_mem_replicate member
  inline := fun _ => ⟨rfl, List.not_mem_nil⟩

/-- Only the threads of the pool change, and none exits while the pool runs. -/
theorem Invariant.withWorkers (invariant : pool.Invariant) {workers : List (PoolWorker Task)}
    (tasks : Waiter.NoLostWakeup pool.queue_.length (workers.map PoolWorker.waiter))
    (alive : pool.running_ = true → .exited ∉ workers)
    (sameLength : workers.length = pool.workers.length) :
    Invariant { pool with workers := workers } where
  tasks := tasks
  room := invariant.room
  unbounded := invariant.unbounded
  bounded := invariant.bounded
  order := invariant.order
  alive := alive
  inline := by
    intro none
    refine invariant.inline (List.length_eq_zero_iff.mp ?_)
    rw [← sameLength]
    exact List.length_eq_zero_iff.mpr none

/-- Only the threads in `run` change, and none of them starts to wait. -/
theorem Invariant.withCallers (invariant : pool.Invariant) {callers : List (PoolCaller Task)}
    (room : Waiter.NoLostWakeup (pool.maxQueueSize_ - pool.queue_.length)
      (callers.map PoolCaller.waiter))
    (noneWaits : .waiting ∉ pool.waitingCallers → .waiting ∉ callers.map PoolCaller.waiter) :
    Invariant { pool with callers := callers } where
  tasks := invariant.tasks
  room := room
  unbounded := fun unlimited => noneWaits (invariant.unbounded unlimited)
  bounded := invariant.bounded
  order := invariant.order
  alive := invariant.alive
  inline := fun none => ⟨(invariant.inline none).1, noneWaits (invariant.inline none).2⟩

theorem Invariant.run (invariant : pool.Invariant) (task : Task) :
    Invariant { pool with callers := pool.callers ++ [.entering task] } := by
  have mapped : (pool.callers ++ [PoolCaller.entering task]).map PoolCaller.waiter =
      pool.waitingCallers ++ [.awake] := List.map_append
  refine invariant.withCallers ?_ ?_
  · rw [mapped]
    exact invariant.room.join
  · intro nobody
    rw [mapped]
    simp [nobody]

theorem Invariant.wakeCaller (invariant : pool.Invariant) (caller : Nat) :
    Invariant { pool with callers := PoolCaller.wake pool.callers caller } := by
  refine invariant.withCallers ?_ ?_
  · rw [waiter_wakeCaller]
    exact invariant.room.spurious caller
  · intro nobody
    rw [waiter_wakeCaller, Waiter.wake_of_none nobody]
    exact nobody

theorem exited_notMem_set {workers : List (PoolWorker Task)} {index : Nat}
    {worker : PoolWorker Task} (none : .exited ∉ workers) (stays : worker ≠ .exited) :
    .exited ∉ workers.set index worker := by
  intro member
  rcases List.mem_or_eq_of_mem_set member with before | equal
  · exact none before
  · exact stays equal.symm

theorem exited_notMem_wake {workers : List (PoolWorker Task)} {index : Nat}
    (none : .exited ∉ workers) : .exited ∉ PoolWorker.wake workers index := by
  unfold PoolWorker.wake
  split
  · exact exited_notMem_set none (by simp)
  · exact none

theorem length_wake (workers : List (PoolWorker Task)) (index : Nat) :
    (PoolWorker.wake workers index).length = workers.length := by
  unfold PoolWorker.wake
  split
  · exact List.length_set
  · rfl

theorem Invariant.wakeWorker (invariant : pool.Invariant) (worker : Nat) :
    Invariant { pool with workers := PoolWorker.wake pool.workers worker } := by
  refine invariant.withWorkers ?_ ?_ (length_wake _ _)
  · rw [waiter_wakeWorker]
    exact invariant.tasks.spurious worker
  · exact fun running => exited_notMem_wake (invariant.alive running)

theorem Invariant.check (invariant : pool.Invariant) {worker : Nat}
    (checking : (pool.workers[worker]?).any PoolWorker.isChecking = true) :
    Invariant { pool with
      workers := pool.workers.set worker (if pool.running_ then .taking else .exited) } := by
  have found := away_of_isChecking checking
  refine invariant.withWorkers ?_ ?_ List.length_set
  · rw [List.map_set]
    split
    · exact invariant.tasks.arrive (.inl found)
    · exact invariant.tasks.set found (by simp [PoolWorker.waiter]) (Nat.le_refl _)
  · intro running
    rw [if_pos running]
    exact exited_notMem_set (invariant.alive running) (by simp)

theorem Invariant.finish (invariant : pool.Invariant) {worker : Nat}
    (executing : (pool.workers[worker]?).any PoolWorker.isExecuting = true) :
    Invariant { pool with workers := pool.workers.set worker .checking } := by
  refine invariant.withWorkers ?_ ?_ List.length_set
  · rw [List.map_set]
    exact invariant.tasks.set (away_of_isExecuting executing) (by simp [PoolWorker.waiter])
      (Nat.le_refl _)
  · exact fun running => exited_notMem_set (invariant.alive running) (by simp)

theorem Invariant.stop (invariant : pool.Invariant) :
    Invariant { pool with running_ := false, workers := PoolWorker.wakeAll pool.workers } where
  tasks := by
    simp only [waitingWorkers, waiter_wakeAll]
    exact .of_none Waiter.waiting_notMem_wakeAll
  room := invariant.room
  unbounded := invariant.unbounded
  bounded := invariant.bounded
  order := invariant.order
  alive := fun running => absurd running Bool.false_ne_true
  inline := fun none => invariant.inline (List.map_eq_nil_iff.mp none)

/-- A thread of the pool looks into the queue. -/
theorem Invariant.take (invariant : pool.Invariant) {worker notified : Nat}
    (found : pool.waitingWorkers[worker]? = some .awake)
    (notifies : Waiter.Notifies pool.waitingCallers notified) :
    (pool.take worker notified).Invariant := by
  unfold ThreadPool.take
  split
  case h_1 queueEq =>
      refine invariant.withWorkers ?_ ?_ List.length_set
      · rw [List.map_set, queueEq]
        exact .leave _
      · intro running
        rw [if_pos running]
        exact exited_notMem_set (invariant.alive running) (by simp)
  case h_2 task rest queueEq =>
      have tasks := invariant.tasks
      have room := invariant.room
      have bounded := invariant.bounded
      have order := invariant.order
      rw [queueEq] at tasks room bounded order
      refine ⟨?_, ?_, ?_, ?_, ?_, ?_, ?_⟩
      · simp only [waitingWorkers, List.map_set]
        exact tasks.take found
      · by_cases limited : 0 < pool.maxQueueSize_
        · simp only [waitingCallers, if_pos limited, waiter_wakeCaller]
          have fits := bounded limited
          refine (room.notify notifies).mono ?_
          rw [List.length_cons] at fits ⊢
          omega
        · simp only [waitingCallers, if_neg limited]
          refine room.mono ?_
          omega
      · intro unlimited
        have unlimitedPool : ¬0 < pool.maxQueueSize_ := Nat.not_lt_of_le (Nat.le_of_eq unlimited)
        simp only [waitingCallers, if_neg unlimitedPool]
        exact invariant.unbounded unlimited
      · exact fun limited => Nat.le_of_succ_le (bounded limited)
      · rw [← order]
        simp
      · exact fun running => exited_notMem_set (invariant.alive running) (by simp)
      · intro none
        have noWorkers : pool.workers = [] := by simpa using none
        rw [(invariant.inline noWorkers).1] at queueEq
        cases queueEq

/-- A thread in `run` looks at the queue. -/
theorem Invariant.put (invariant : pool.Invariant) {caller notified : Nat} {task : Task}
    (found : pool.waitingCallers[caller]? = some .awake)
    (notifies : Waiter.Notifies pool.waitingWorkers notified) :
    ∃ after, pool.put caller notified task = .ok after ∧ after.Invariant := by
  unfold ThreadPool.put
  by_cases none : pool.workers.isEmpty = true
  · rw [if_pos none]
    obtain ⟨noTasks, nobody⟩ := invariant.inline (List.isEmpty_iff.mp none)
    have stillNobody : .waiting ∉ (pool.callers.set caller .returned).map PoolCaller.waiter := by
      rw [List.map_set]
      exact Waiter.waiting_notMem_set nobody (by simp [PoolCaller.waiter])
    refine ⟨_, rfl, ⟨invariant.tasks, .of_none stillNobody, fun _ => stillNobody,
      invariant.bounded, ?_, invariant.alive, fun _ => ⟨noTasks, stillNobody⟩⟩⟩
    rw [← invariant.order, noTasks]
    simp
  · rw [if_neg none]
    have workersExist : pool.workers ≠ [] := fun empty => none (List.isEmpty_iff.mpr empty)
    by_cases full : pool.isFull
    · rw [if_pos full]
      refine ⟨_, rfl, ⟨invariant.tasks, ?_, ?_, invariant.bounded, invariant.order,
        invariant.alive, fun empty => absurd empty workersExist⟩⟩
      · simp only [waitingCallers, List.map_set, Nat.sub_eq_zero_of_le full.2]
        exact .leave _
      · intro unlimited
        exact absurd unlimited (Nat.ne_of_gt full.1)
    · rw [if_neg full, Except.bind_of_ok (check_of full)]
      refine ⟨_, rfl, ⟨?_, ?_, ?_, ?_, ?_, ?_, ?_⟩⟩
      · simp only [waitingWorkers, waiter_wakeWorker, List.length_append, List.length_singleton]
        exact invariant.tasks.notify notifies
      · simp only [waitingCallers, List.map_set, List.length_append, List.length_singleton]
        by_cases limited : 0 < pool.maxQueueSize_
        · have notFull : pool.queue_.length < pool.maxQueueSize_ :=
            Nat.lt_of_not_le fun long => full ⟨limited, long⟩
          refine Waiter.NoLostWakeup.take ?_ found
          refine invariant.room.mono ?_
          omega
        · refine .of_none (Waiter.waiting_notMem_set ?_ (by simp [PoolCaller.waiter]))
          exact invariant.unbounded (by omega)
      · intro unlimited
        simp only [waitingCallers, List.map_set]
        exact Waiter.waiting_notMem_set (invariant.unbounded unlimited)
          (by simp [PoolCaller.waiter])
      · intro limited
        have notFull : pool.queue_.length < pool.maxQueueSize_ :=
          Nat.lt_of_not_le fun long => full ⟨limited, long⟩
        rw [List.length_append]
        exact notFull
      · rw [← invariant.order, List.append_assoc]
      · exact fun running => exited_notMem_wake (invariant.alive running)
      · intro empty
        have sameLength := length_wake pool.workers notified
        rw [show PoolWorker.wake pool.workers notified = [] from empty] at sameLength
        exact absurd (List.length_eq_zero_iff.mp sameLength.symm) workersExist

/-- No event fails, and each one keeps the invariant. -/
theorem Invariant.step (invariant : pool.Invariant) {event : PoolEvent Task}
    (offered : pool.Offered event) :
    ∃ after, pool.step event = .ok after ∧ after.Invariant := by
  cases event with
  | run task => exact ⟨_, rfl, invariant.run task⟩
  | put caller notified =>
      simp only [ThreadPool.step]
      split
      · exact invariant.put offered.1 offered.2
      · exact ⟨_, rfl, invariant⟩
  | wakeCaller caller => exact ⟨_, rfl, invariant.wakeCaller caller⟩
  | check worker => exact ⟨_, rfl, invariant.check offered⟩
  | take worker notified => exact ⟨_, rfl, invariant.take offered.1 offered.2⟩
  | wakeWorker worker => exact ⟨_, rfl, invariant.wakeWorker worker⟩
  | finish worker => exact ⟨_, rfl, invariant.finish offered⟩
  | stop => exact ⟨_, rfl, invariant.stop⟩

theorem Invariant.reaches (invariant : pool.Invariant) {events : List (PoolEvent Task)}
    (run : (system Task).Reaches pool events after) : after.Invariant := by
  refine run.invariant (fun _ pool => pool.Invariant) invariant ?_
  intro _ before event next _ kept offered stepped
  obtain ⟨result, ran, resultInvariant⟩ := kept.step offered
  have same := Except.toOption_eq_some_iff.mp stepped
  rw [ran] at same
  cases same
  exact resultInvariant

end ThreadPool

end TcpMysql
