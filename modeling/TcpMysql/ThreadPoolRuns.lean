import Mathlib.Algebra.GroupWithZero.Nat
import TcpMysql.ThreadPool

/-!
# Runs of the thread pool

No task is lost between `run` and the thread that executes it, tasks start in the order in
which they were accepted, and while the pool runs its threads get through all of them.
After `stop` this is different: each thread takes at most one more task, the others stay in
the queue, and a thread that waits in `run` for room in a full queue waits for ever.
-/

namespace TcpMysql

/-- The task with which a thread is in `run`. -/
def PoolCaller.task? {Task : Type} : PoolCaller Task → Option Task
  | .entering task | .waiting task => some task
  | .returned => none

/-- The task with which an event calls `run`. -/
def PoolEvent.task? {Task : Type} : PoolEvent Task → Option Task
  | .run task => some task
  | _ => none

/-- The steps of the threads that are there already, woken up only by a notification. -/
def PoolEvent.isWork {Task : Type} : PoolEvent Task → Bool
  | .put _ _ | .check _ | .take _ _ | .finish _ => true
  | .run _ | .wakeCaller _ | .wakeWorker _ | .stop => false

namespace ThreadPool

variable {Task : Type} {pool after : ThreadPool Task} {event : PoolEvent Task}
  {events : List (PoolEvent Task)}

/-- The tasks that wait in `run`. -/
def pending (pool : ThreadPool Task) : List Task :=
  pool.callers.filterMap PoolCaller.task?

/-- What `run` does when it has the lock: the task is called at once, has to wait, or is
put into the queue. -/
theorem put_cases {caller notified : Nat} {task : Task}
    (stepped : pool.put caller notified task = .ok after) :
    (pool.workers = [] ∧ after = { pool with
        callers := pool.callers.set caller .returned
        accepted := pool.accepted ++ [task]
        started := pool.started ++ [task] }) ∨
      (pool.isFull ∧ after = { pool with
        callers := pool.callers.set caller (.waiting task) }) ∨
      (¬pool.isFull ∧ after = { pool with
        queue_ := pool.queue_ ++ [task]
        callers := pool.callers.set caller .returned
        workers := PoolWorker.wake pool.workers notified
        accepted := pool.accepted ++ [task] }) := by
  unfold put at stepped
  by_cases none : pool.workers.isEmpty = true
  · rw [if_pos none] at stepped
    exact .inl ⟨List.isEmpty_iff.mp none, (Except.ok.inj stepped).symm⟩
  · rw [if_neg none] at stepped
    by_cases full : pool.isFull
    · rw [if_pos full] at stepped
      exact .inr (.inl ⟨full, (Except.ok.inj stepped).symm⟩)
    · rw [if_neg full, Except.bind_of_ok (check_of full)] at stepped
      exact .inr (.inr ⟨full, (Except.ok.inj stepped).symm⟩)

/-! ## What every event leaves alone -/

theorem pending_wake (callers : List (PoolCaller Task)) (index : Nat) :
    (PoolCaller.wake callers index).filterMap PoolCaller.task? =
      callers.filterMap PoolCaller.task? := by
  unfold PoolCaller.wake
  split
  · rename_i task found
    obtain ⟨before, rest, split, replaced⟩ := List.exists_split_of_getElem? found
    rw [replaced, split]
    simp [PoolCaller.task?]
  · rfl

/-- A thread leaves `run`. -/
theorem pending_returned {caller : Nat} {task : Task}
    (found : pool.callers[caller]? = some (.entering task)) :
    (task :: (pool.callers.set caller .returned).filterMap PoolCaller.task?).Perm
      pool.pending := by
  obtain ⟨before, rest, split, replaced⟩ := List.exists_split_of_getElem? found
  rw [pending, replaced, split]
  simpa [PoolCaller.task?, List.filterMap_cons] using List.perm_middle.symm

theorem pending_waiting {caller : Nat} {task : Task}
    (found : pool.callers[caller]? = some (.entering task)) :
    (pool.callers.set caller (.waiting task)).filterMap PoolCaller.task? = pool.pending := by
  obtain ⟨before, rest, split, replaced⟩ := List.exists_split_of_getElem? found
  rw [pending, replaced, split]
  simp [PoolCaller.task?]

/-- A task passes from the threads in `run` to the accepted ones. -/
theorem accept_perm {caller : Nat} {task : Task}
    (found : pool.callers[caller]? = some (.entering task)) :
    ((pool.accepted ++ [task]) ++
        (pool.callers.set caller .returned).filterMap PoolCaller.task?).Perm
      (pool.accepted ++ pool.pending ++ []) := by
  rw [List.append_assoc, List.append_nil]
  exact (pending_returned found).append_left pool.accepted

/-- What an event does to the tasks, to the bound and to the number of threads. -/
structure Follows (pool : ThreadPool Task) (event : PoolEvent Task) (after : ThreadPool Task) :
    Prop where
  tasks : (after.accepted ++ after.pending).Perm
    (pool.accepted ++ pool.pending ++ event.task?.toList)
  accepted : pool.accepted <+: after.accepted
  bound : after.maxQueueSize_ = pool.maxQueueSize_
  threads : after.workers.length = pool.workers.length

theorem put_follows {caller notified : Nat} {task : Task}
    (found : pool.callers[caller]? = some (.entering task))
    (stepped : pool.put caller notified task = .ok after) :
    pool.Follows (.put caller notified) after := by
  rcases put_cases stepped with ⟨-, rfl⟩ | ⟨-, rfl⟩ | ⟨-, rfl⟩
  · exact ⟨accept_perm found, List.prefix_append _ _, rfl, rfl⟩
  · refine ⟨?_, List.prefix_rfl, rfl, rfl⟩
    simp [pending, PoolEvent.task?, pending_waiting found]
  · exact ⟨accept_perm found, List.prefix_append _ _, rfl, length_wake _ _⟩

theorem take_follows (worker notified : Nat) :
    pool.Follows (.take worker notified) (pool.take worker notified) := by
  unfold take
  split
  · exact ⟨by simp [pending, PoolEvent.task?], List.prefix_rfl, rfl, List.length_set⟩
  · refine ⟨?_, List.prefix_rfl, rfl, List.length_set⟩
    by_cases limited : 0 < pool.maxQueueSize_
    · simp [pending, PoolEvent.task?, if_pos limited, pending_wake]
    · simp [pending, PoolEvent.task?, if_neg limited]

theorem step_follows (stepped : pool.step event = .ok after) : pool.Follows event after := by
  cases event with
  | run task =>
      cases stepped
      exact ⟨by simp [pending, PoolCaller.task?, PoolEvent.task?], List.prefix_rfl, rfl, rfl⟩
  | put caller notified =>
      simp only [step] at stepped
      split at stepped
      · rename_i task found
        exact put_follows found stepped
      · cases stepped
        exact ⟨by simp [PoolEvent.task?], List.prefix_rfl, rfl, rfl⟩
  | wakeCaller caller =>
      cases stepped
      refine ⟨?_, List.prefix_rfl, rfl, rfl⟩
      simp [pending, PoolEvent.task?, pending_wake]
  | check worker =>
      cases stepped
      exact ⟨by simp [pending, PoolEvent.task?], List.prefix_rfl, rfl, List.length_set⟩
  | take worker notified =>
      cases stepped
      exact take_follows worker notified
  | wakeWorker worker =>
      cases stepped
      exact ⟨by simp [pending, PoolEvent.task?], List.prefix_rfl, rfl, length_wake _ _⟩
  | finish worker =>
      cases stepped
      exact ⟨by simp [pending, PoolEvent.task?], List.prefix_rfl, rfl, List.length_set⟩
  | stop =>
      cases stepped
      exact ⟨by simp [pending, PoolEvent.task?], List.prefix_rfl, rfl, List.length_map _⟩

/-- What a whole run does to them. -/
structure FollowsRun (pool : ThreadPool Task) (events : List (PoolEvent Task))
    (after : ThreadPool Task) : Prop where
  tasks : (after.accepted ++ after.pending).Perm
    (pool.accepted ++ pool.pending ++ events.filterMap PoolEvent.task?)
  accepted : pool.accepted <+: after.accepted
  bound : after.maxQueueSize_ = pool.maxQueueSize_
  threads : after.workers.length = pool.workers.length

theorem run_follows (run : (system Task).Reaches pool events after) :
    pool.FollowsRun events after := by
  refine run.invariant pool.FollowsRun ⟨by simp, List.prefix_rfl, rfl, rfl⟩ ?_
  intro events before event next _ soFar _ stepped
  have follows := step_follows (Except.toOption_eq_some_iff.mp stepped)
  refine ⟨?_, soFar.accepted.trans follows.accepted, follows.bound.trans soFar.bound,
    follows.threads.trans soFar.threads⟩
  have extended := follows.tasks.trans (soFar.tasks.append_right event.task?.toList)
  have last : [event].filterMap PoolEvent.task? = event.task?.toList := by
    cases taskEq : event.task? <;> simp [taskEq]
  rw [List.filterMap_append, last, ← List.append_assoc]
  exact extended

theorem workers_ne_nil (threads : pool.workers ≠ [])
    (run : (system Task).Reaches pool events after) : after.workers ≠ [] := by
  refine List.ne_nil_of_length_pos ?_
  rw [(run_follows run).threads]
  exact List.length_pos_iff.mpr threads

theorem new_workers_ne_nil {maxQueueSize numThreads : Nat} (threads : 0 < numThreads) :
    (new maxQueueSize numThreads : ThreadPool Task).workers ≠ [] := by
  simpa [new] using Nat.ne_of_gt threads

/-- Two threads, a queue for one task, three tasks: the third call of `run` has to wait. -/
def threeTasks : List (PoolEvent Nat) :=
  [.check 0, .take 0 0, .run 1, .put 0 0, .run 2, .put 1 1, .run 3, .take 0 1, .put 1 0,
    .put 2 0]

def workerEffort : PoolWorker Task → Nat
  | .executing _ => 3
  | .checking => 2
  | .taking => 1
  | .waiting | .exited => 0

def callerEffort : PoolCaller Task → Nat
  | .entering _ => 6
  | .waiting _ => 5
  | .returned => 0

/-- How many steps the threads can still take. -/
def effort (pool : ThreadPool Task) : Nat :=
  (pool.callers.map callerEffort).sum + 4 * pool.queue_.length +
    (pool.workers.map workerEffort).sum

/-- The effort that an event may add. -/
def gain : PoolEvent Task → Nat
  | .run _ => 6
  | .wakeCaller _ | .wakeWorker _ => 1
  | .put _ _ | .check _ | .take _ _ | .finish _ | .stop => 0

theorem sum_map_set {Thread : Type} (weight : Thread → Nat) {threads : List Thread}
    {index : Nat} {old : Thread} (found : threads[index]? = some old) (new : Thread) :
    ((threads.set index new).map weight).sum + weight old =
      (threads.map weight).sum + weight new := by
  obtain ⟨before, after, split, replaced⟩ := List.exists_split_of_getElem? found
  rw [replaced, split]
  simp only [List.map_append, List.map_cons, List.sum_append, List.sum_cons]
  omega

theorem effort_wakeWorker (workers : List (PoolWorker Task)) (index : Nat) :
    ((PoolWorker.wake workers index).map workerEffort).sum ≤
      (workers.map workerEffort).sum + 1 := by
  unfold PoolWorker.wake
  split
  · rename_i found
    exact Nat.le_of_eq (sum_map_set workerEffort found .taking)
  · exact Nat.le_succ _

theorem effort_wakeCaller (callers : List (PoolCaller Task)) (index : Nat) :
    ((PoolCaller.wake callers index).map callerEffort).sum ≤
      (callers.map callerEffort).sum + 1 := by
  unfold PoolCaller.wake
  split
  · rename_i task found
    have changed := sum_map_set callerEffort found (.entering task)
    simp only [callerEffort] at changed
    omega
  · exact Nat.le_succ _

theorem put_effort {caller notified : Nat} {task : Task}
    (found : pool.callers[caller]? = some (.entering task))
    (stepped : pool.put caller notified task = .ok after) :
    after.effort < pool.effort := by
  have left := sum_map_set callerEffort found .returned
  have stays := sum_map_set callerEffort found (.waiting task)
  have woken := effort_wakeWorker pool.workers notified
  simp only [callerEffort] at left stays
  rcases put_cases stepped with ⟨-, rfl⟩ | ⟨-, rfl⟩ | ⟨-, rfl⟩
  · simp only [effort]
    omega
  · simp only [effort]
    omega
  · simp only [effort, List.length_append, List.length_singleton]
    omega

theorem take_effort {worker notified : Nat} (running : pool.running_ = true)
    (found : pool.workers[worker]? = some .taking) :
    (pool.take worker notified).effort < pool.effort := by
  unfold take
  split
  · rename_i queueEq
    have waits := sum_map_set workerEffort found .waiting
    simp only [workerEffort] at waits
    simp only [effort, if_pos running]
    omega
  · rename_i task rest queueEq
    have executes := sum_map_set workerEffort found (.executing task)
    have woken := effort_wakeCaller pool.callers notified
    simp only [workerEffort] at executes
    simp only [effort, queueEq, List.length_cons]
    split <;> omega

/-- Only `stop` changes `running_`. -/
theorem step_running (stepped : pool.step event = .ok after) :
    event = .stop ∨ after.running_ = pool.running_ := by
  cases event with
  | put caller notified =>
      refine .inr ?_
      simp only [step] at stepped
      split at stepped
      · rcases put_cases stepped with ⟨-, rfl⟩ | ⟨-, rfl⟩ | ⟨-, rfl⟩ <;> rfl
      · cases stepped
        rfl
  | take worker notified =>
      cases stepped
      unfold take
      split <;> exact .inr rfl
  | run task | wakeCaller caller | check worker | wakeWorker worker | finish worker =>
      cases stepped
      exact .inr rfl
  | stop => exact .inl rfl

theorem running_of_step (stepped : pool.step event = .ok after)
    (running : after.running_ = true) : pool.running_ = true := by
  rcases step_running stepped with rfl | same
  · cases stepped
    exact absurd running Bool.false_ne_true
  · rw [← same, running]

theorem step_effort (offered : pool.Offered event) (stepped : pool.step event = .ok after)
    (running : after.running_ = true) :
    after.effort + (if event.isWork then 1 else 0) ≤ pool.effort + gain event := by
  have wasRunning := running_of_step stepped running
  cases event with
  | run task =>
      cases stepped
      simp [effort, callerEffort, gain, PoolEvent.isWork]
      omega
  | put caller notified =>
      obtain ⟨task, found⟩ := entering_of_awake offered.1
      simp only [step, found] at stepped
      exact put_effort found stepped
  | wakeCaller caller =>
      cases stepped
      have woken := effort_wakeCaller pool.callers caller
      simp only [effort, gain, PoolEvent.isWork, Bool.false_eq_true, if_false]
      omega
  | check worker =>
      cases stepped
      have looks := sum_map_set workerEffort (checking_of_isChecking offered) .taking
      simp only [workerEffort] at looks
      simp only [effort, gain, PoolEvent.isWork, if_true, if_pos wasRunning]
      omega
  | take worker notified =>
      cases stepped
      exact take_effort wasRunning (taking_of_awake offered.1)
  | wakeWorker worker =>
      cases stepped
      have woken := effort_wakeWorker pool.workers worker
      simp only [effort, gain, PoolEvent.isWork, Bool.false_eq_true, if_false]
      omega
  | finish worker =>
      cases stepped
      obtain ⟨task, found⟩ := executing_of_isExecuting offered
      have done := sum_map_set workerEffort found .checking
      simp only [workerEffort] at done
      simp only [effort, gain, PoolEvent.isWork, if_true]
      omega
  | stop =>
      cases stepped
      exact absurd running Bool.false_ne_true

theorem run_effort (run : (system Task).Reaches pool events after)
    (running : after.running_ = true) :
    after.effort + events.countP PoolEvent.isWork ≤ pool.effort + (events.map gain).sum := by
  refine run.invariant (fun events after => after.running_ = true →
    after.effort + events.countP PoolEvent.isWork ≤ pool.effort + (events.map gain).sum)
    (fun _ => Nat.le_refl _) ?_ running
  intro events before event next _ soFar offered stepped running
  have stepEq := Except.toOption_eq_some_iff.mp stepped
  have bound := soFar (running_of_step stepEq running)
  have one := step_effort offered stepEq running
  rw [List.countP_append, List.countP_singleton, List.map_append, List.sum_append,
    List.map_singleton, List.sum_singleton]
  omega

/-- No thread can take a step by itself. -/
def Idle (pool : ThreadPool Task) : Prop :=
  ∀ event, event.isWork = true → ¬pool.Offered event

theorem Idle.awake_notMem_workers (idle : pool.Idle) : .awake ∉ pool.waitingWorkers := by
  intro member
  obtain ⟨worker, found⟩ := List.mem_iff_getElem?.mp member
  obtain ⟨notified, notifies⟩ := Waiter.exists_notifies pool.waitingCallers
  exact idle (.take worker notified) rfl ⟨found, notifies⟩

theorem Idle.awake_notMem_callers (idle : pool.Idle) : .awake ∉ pool.waitingCallers := by
  intro member
  obtain ⟨caller, found⟩ := List.mem_iff_getElem?.mp member
  obtain ⟨notified, notifies⟩ := Waiter.exists_notifies pool.waitingWorkers
  exact idle (.put caller notified) rfl ⟨found, notifies⟩

theorem Idle.workers_wait (idle : pool.Idle) (alive : .exited ∉ pool.workers) :
    ∀ worker ∈ pool.workers, worker = .waiting := by
  intro worker member
  obtain ⟨index, found⟩ := List.mem_iff_getElem?.mp member
  cases worker with
  | checking =>
      exact absurd (by simp [Offered, found, PoolWorker.isChecking]) (idle (.check index) rfl)
  | taking =>
      exact absurd (List.mem_map.mpr ⟨_, member, rfl⟩) idle.awake_notMem_workers
  | waiting => rfl
  | executing task =>
      exact absurd (by simp [Offered, found, PoolWorker.isExecuting]) (idle (.finish index) rfl)
  | exited => exact absurd member alive

/-- When no thread of a running pool can take a step, the queue is empty. -/
theorem Invariant.queue_nil (invariant : pool.Invariant) (idle : pool.Idle)
    (running : pool.running_ = true) (threads : pool.workers ≠ []) : pool.queue_ = [] := by
  obtain ⟨worker, member⟩ := List.exists_mem_of_ne_nil _ threads
  have waits : .waiting ∈ pool.waitingWorkers := by
    refine List.mem_map.mpr ⟨worker, member, ?_⟩
    rw [idle.workers_wait (invariant.alive running) worker member]
    rfl
  have few := invariant.tasks waits
  rw [List.count_eq_zero_of_not_mem idle.awake_notMem_workers] at few
  exact List.length_eq_zero_iff.mp (Nat.le_zero.mp few)

/-- And every call of `run` has returned. -/
theorem Invariant.callers_returned (invariant : pool.Invariant) (idle : pool.Idle)
    (empty : pool.queue_ = []) : ∀ caller ∈ pool.callers, caller = .returned := by
  have noneWaits : .waiting ∉ pool.waitingCallers := by
    intro waits
    have room := invariant.room waits
    rw [List.count_eq_zero_of_not_mem idle.awake_notMem_callers, empty] at room
    exact invariant.unbounded (Nat.le_zero.mp room) waits
  intro caller member
  have inWaiters := List.mem_map_of_mem (f := PoolCaller.waiter) member
  cases caller with
  | entering task => exact absurd inWaiters idle.awake_notMem_callers
  | waiting task => exact absurd inWaiters noneWaits
  | returned => rfl

theorem pending_of_returned (returned : ∀ caller ∈ pool.callers, caller = .returned) :
    pool.pending = [] := by
  refine List.filterMap_eq_nil_iff.mpr fun caller member => ?_
  rw [returned caller member]
  rfl

/-- A pool with threads that has not been stopped gets through its tasks.  As long as there
is something to do, some thread can take a step by itself; when there is none, every
task that `run` was called with has been started, every call has returned and all threads
wait.  It takes finitely many steps until then: their number is bounded, with six more
for each new call of `run` and one for each thread that wakes up for no reason. -/
theorem pool_completes_tasks {maxQueueSize numThreads : Nat} (threads : 0 < numThreads)
    (run : (system Task).Reaches (new maxQueueSize numThreads) events pool)
    (running : pool.running_ = true) :
    ((∃ event, event.isWork = true ∧ pool.Offered event) ∨
        pool.queue_ = [] ∧ (∀ caller ∈ pool.callers, caller = .returned) ∧
          (∀ worker ∈ pool.workers, worker = .waiting) ∧
            pool.started.Perm (events.filterMap PoolEvent.task?)) ∧
      ∀ more after, (system Task).Reaches pool more after → after.running_ = true →
        more.countP PoolEvent.isWork ≤ pool.effort + (more.map gain).sum := by
  have invariant := (new_invariant maxQueueSize numThreads).reaches run
  have follows := run_follows run
  refine ⟨?_, fun more after further stillRunning => ?_⟩
  · by_cases active : ∃ event, event.isWork = true ∧ pool.Offered event
    · exact .inl active
    · have idle : pool.Idle := fun event work offered => active ⟨event, work, offered⟩
      have someWorkers := workers_ne_nil (new_workers_ne_nil threads) run
      have empty := invariant.queue_nil idle running someWorkers
      have returned := invariant.callers_returned idle empty
      refine .inr ⟨empty, returned, idle.workers_wait (invariant.alive running), ?_⟩
      have tasks := follows.tasks
      rw [← invariant.order, empty, pending_of_returned returned] at tasks
      simpa [new, pending] using tasks
  · have bound := run_effort further stillRunning
    omega

theorem pool_completes_tasks_three : ∃ pool,
    (system Nat).Reaches (new 1 2) threeTasks pool ∧ pool.queue_ = [2] ∧
      ∃ event, event.isWork = true ∧ pool.Offered event := by
  have play : ∃ pool, (system Nat).Reaches (new 1 2) threeTasks pool ∧
      pool.running_ = true ∧ pool.queue_ = [2] :=
    EventSystem.exists_reaches_of_play (system Nat) (new 1 2) threeTasks _ (by decide +kernel)
  obtain ⟨pool, run, running, queueEq⟩ := play
  refine ⟨pool, run, queueEq, ?_⟩
  rcases (pool_completes_tasks (by decide) run running).1 with active | ⟨empty, -⟩
  · exact active
  · rw [queueEq] at empty
    cases empty

/-! ## After `stop` -/

/-- What happens to a pool that has been stopped: none of its threads waits, and each one
that is about to look into the queue starts at most one more task. -/
structure Strands (pool after : ThreadPool Task) : Prop where
  stopped : after.running_ = false
  noneWaits : .waiting ∉ after.waitingWorkers
  started : pool.started <+: after.started
  budget : after.started.length + after.waitingWorkers.count .awake ≤
    pool.started.length + pool.waitingWorkers.count .awake

theorem Strands.trans {middle : ThreadPool Task} (first : pool.Strands middle)
    (second : middle.Strands after) : pool.Strands after :=
  ⟨second.stopped, second.noneWaits, first.started.trans second.started,
    Nat.le_trans second.budget first.budget⟩

/-- If no thread is about to look into the queue, no more tasks are started. -/
theorem Strands.started_eq (strands : pool.Strands after)
    (nobody : .awake ∉ pool.waitingWorkers) : after.started = pool.started := by
  have budget := strands.budget
  rw [List.count_eq_zero_of_not_mem nobody] at budget
  refine (strands.started.eq_of_length (Nat.le_antisymm strands.started.length_le ?_)).symm
  omega

section Stopped

variable (stopped : pool.running_ = false) (noneWaits : .waiting ∉ pool.waitingWorkers)
include stopped noneWaits

/-- The threads of the pool stay where they are. -/
theorem Strands.of_same (running : after.running_ = pool.running_)
    (threads : after.waitingWorkers = pool.waitingWorkers)
    (started : after.started = pool.started) : pool.Strands after where
  stopped := running.trans stopped
  noneWaits := threads ▸ noneWaits
  started := started ▸ List.prefix_rfl
  budget := Nat.le_of_eq (by rw [threads, started])

/-- A thread of the pool does something else than to look into the queue, and it may have
taken a task. -/
theorem Strands.of_set {worker : Nat} {old : PoolWorker Task}
    (found : pool.workers[worker]? = some old) (new : PoolWorker Task) (tasks : List Task)
    (goesAway : new.waiter = .away) (few : tasks.length ≤ if old.waiter = .awake then 1 else 0)
    (running : after.running_ = pool.running_)
    (threads : after.workers = pool.workers.set worker new)
    (started : after.started = pool.started ++ tasks) : pool.Strands after := by
  have waiters : after.waitingWorkers = pool.waitingWorkers.set worker .away := by
    rw [waitingWorkers, threads, List.map_set, goesAway]
  have asWaiter : pool.waitingWorkers[worker]? = some old.waiter := by
    rw [List.getElem?_map, found]
    rfl
  have counted := Waiter.count_set asWaiter .away .awake
  rw [if_neg (by decide : Waiter.away ≠ .awake)] at counted
  refine ⟨running.trans stopped, ?_, started ▸ List.prefix_append _ _, ?_⟩
  · rw [waiters]
    exact Waiter.waiting_notMem_set noneWaits (by decide)
  · rw [waiters, started, List.length_append]
    omega

theorem put_strands {caller notified : Nat} {task : Task} (threads : pool.workers ≠ [])
    (stepped : pool.put caller notified task = .ok after) : pool.Strands after := by
  rcases put_cases stepped with ⟨none, -⟩ | ⟨-, rfl⟩ | ⟨-, rfl⟩
  · exact absurd none threads
  · exact .of_same stopped noneWaits rfl rfl rfl
  · refine .of_same stopped noneWaits rfl ?_ rfl
    rw [waitingWorkers, waiter_wakeWorker, Waiter.wake_of_none noneWaits]

theorem take_strands {worker notified : Nat}
    (found : pool.workers[worker]? = some .taking) :
    pool.Strands (pool.take worker notified) := by
  unfold take
  split
  · refine .of_set stopped noneWaits found .checking [] rfl (Nat.zero_le _) rfl ?_
      (List.append_nil _).symm
    simp [stopped]
  · rename_i task rest queueEq
    exact .of_set stopped noneWaits found (.executing task) [task] rfl
      (by simp [PoolWorker.waiter]) rfl rfl rfl

theorem step_strands (threads : pool.workers ≠ []) (offered : pool.Offered event)
    (stepped : pool.step event = .ok after) : pool.Strands after := by
  cases event with
  | run task | wakeCaller caller =>
      cases stepped
      exact .of_same stopped noneWaits rfl rfl rfl
  | put caller notified =>
      obtain ⟨task, found⟩ := entering_of_awake offered.1
      simp only [step, found] at stepped
      exact put_strands stopped noneWaits threads stepped
  | check worker =>
      cases stepped
      refine .of_set stopped noneWaits (checking_of_isChecking offered) .exited [] rfl
        (Nat.zero_le _) rfl ?_ (List.append_nil _).symm
      simp [stopped]
  | take worker notified =>
      cases stepped
      exact take_strands stopped noneWaits (taking_of_awake offered.1)
  | wakeWorker worker =>
      cases stepped
      refine .of_same stopped noneWaits rfl ?_ rfl
      rw [waitingWorkers, waiter_wakeWorker, Waiter.wake_of_none noneWaits]
  | finish worker =>
      cases stepped
      obtain ⟨task, found⟩ := executing_of_isExecuting offered
      exact .of_set stopped noneWaits found .checking [] rfl (Nat.zero_le _) rfl rfl
        (List.append_nil _).symm
  | stop =>
      cases stepped
      refine .of_same stopped noneWaits stopped.symm ?_ rfl
      rw [waitingWorkers, waiter_wakeAll, Waiter.wakeAll_of_none noneWaits]

end Stopped

/-- While the queue is full, no task is accepted. -/
theorem accepted_of_full (threads : pool.workers ≠ []) (full : pool.isFull)
    (stepped : pool.step event = .ok after) : after.accepted = pool.accepted := by
  cases event with
  | put caller notified =>
      simp only [step] at stepped
      split at stepped
      · rcases put_cases stepped with ⟨none, -⟩ | ⟨-, rfl⟩ | ⟨notFull, -⟩
        · exact absurd none threads
        · rfl
        · exact absurd full notFull
      · cases stepped
        rfl
  | take worker notified =>
      cases stepped
      unfold take
      split <;> rfl
  | run task | wakeCaller caller | check worker | wakeWorker worker | finish worker | stop =>
      cases stepped
      rfl

theorem reaches_noneWaits {maxQueueSize numThreads : Nat} (threads : 0 < numThreads)
    (run : (system Task).Reaches (new maxQueueSize numThreads) events pool) :
    pool.running_ = false → .waiting ∉ pool.waitingWorkers := by
  refine run.invariant
    (fun _ pool => pool.running_ = false → .waiting ∉ pool.waitingWorkers) ?_ ?_
  · exact fun stopped => absurd stopped (by simp [new])
  · intro events before event next soFarRun soFar offered stepped stopped
    have stepEq := Except.toOption_eq_some_iff.mp stepped
    rcases step_running stepEq with rfl | same
    · cases stepEq
      rw [waitingWorkers, waiter_wakeAll]
      exact Waiter.waiting_notMem_wakeAll
    · have wasStopped := same.symm.trans stopped
      have someWorkers := workers_ne_nil (new_workers_ne_nil threads) soFarRun
      exact (step_strands wasStopped (soFar wasStopped) someWorkers offered stepEq).noneWaits

theorem run_strands {more : List (PoolEvent Task)} (stopped : pool.running_ = false)
    (noneWaits : .waiting ∉ pool.waitingWorkers) (threads : pool.workers ≠ [])
    (further : (system Task).Reaches pool more after) : pool.Strands after := by
  refine further.invariant (fun _ after => pool.Strands after)
    (.of_same stopped noneWaits rfl rfl rfl) ?_
  intro events before event next soFarRun soFar offered stepped
  exact soFar.trans (step_strands soFar.stopped soFar.noneWaits
    (workers_ne_nil threads soFarRun) offered (Except.toOption_eq_some_iff.mp stepped))

/-- No thread looks into a full queue: it stays as it is. -/
theorem run_stuck {more : List (PoolEvent Task)} (invariant : pool.Invariant)
    (stopped : pool.running_ = false) (noneWaits : .waiting ∉ pool.waitingWorkers)
    (threads : pool.workers ≠ []) (nobody : .awake ∉ pool.waitingWorkers)
    (full : pool.isFull) (further : (system Task).Reaches pool more after) :
    after.accepted = pool.accepted ∧ after.queue_ = pool.queue_ := by
  refine further.invariant
    (fun _ after => after.accepted = pool.accepted ∧ after.queue_ = pool.queue_)
    ⟨rfl, rfl⟩ ?_
  intro events before event next soFarRun soFar offered stepped
  obtain ⟨sameAccepted, sameQueue⟩ := soFar
  have stillFull : before.isFull := by
    rw [isFull, (run_follows soFarRun).bound, sameQueue]
    exact full
  have stepEq := Except.toOption_eq_some_iff.mp stepped
  have accepted : next.accepted = pool.accepted :=
    (accepted_of_full (workers_ne_nil threads soFarRun) stillFull stepEq).trans sameAccepted
  have nextRun := soFarRun.step offered stepped
  have started := (run_strands stopped noneWaits threads nextRun).started_eq nobody
  have order := (invariant.reaches nextRun).order
  rw [started, accepted, ← invariant.order] at order
  exact ⟨accepted, List.append_cancel_left order⟩

/-- One thread and a queue for one task: the pool is stopped while a task runs, another one
is in the queue, and a call of `run` waits. -/
def stoppedEarly : List (PoolEvent Nat) :=
  [.check 0, .run 1, .put 0 0, .take 0 0, .run 2, .put 1 0, .run 3, .put 2 0, .stop,
    .finish 0, .check 0]

end ThreadPool

end TcpMysql
