import TcpMysql.ServerRuns

/-!
# The server as it is written

Line 74 of `onMessage` casts the pointer to the new pair to a pointer to a
statement, so the first message that is not in the index throws.  Nothing is ever
put into the index before that line, hence no message is in it: the server
answers none.  The ticks alone are harmless.
-/

namespace TcpMysql

namespace SqlCache

open CircularBuffer

variable {Wheel : Type → Type} [CircularBuffer Wheel] {Db : Type}

theorem Untouched.answer {cache : SqlCache Wheel Db} (untouched : cache.Untouched)
    (process : Process Db) (msg : Bytes) :
    ∃ after,
      (answer .asWritten process msg).run cache = .error .badAnyCast after := by
  obtain ⟨after, ran⟩ := run_miss_asWritten cache process msg
  refine ⟨after, ?_⟩
  simp [SqlCache.answer, untouched.noEntries msg, ran]

end SqlCache

namespace TcpMysqlServer

variable {Wheel : Type → Type} [CircularBuffer Wheel] {Db : Type}

/-- A message on a connected connection that has an entry in `lrumap_`. -/
def ConnectedRead (server : TcpMysqlServer Wheel Db) : ServerEvent → Prop
  | .read conn _ _ => server.table.state conn = .kConnected ∧
      (server.table.lrumap_.lookup conn).isSome = true
  | _ => False

instance (server : TcpMysqlServer Wheel Db) (event : ServerEvent) :
    Decidable (server.ConnectedRead event) :=
  match event with
  | .read _ _ _ => inferInstanceAs (Decidable (_ ∧ _))
  | .up _ => inferInstanceAs (Decidable False)
  | .down _ => inferInstanceAs (Decidable False)
  | .writable _ _ => inferInstanceAs (Decidable False)
  | .timer => inferInstanceAs (Decidable False)
  | .pendingFunctors => inferInstanceAs (Decidable False)

/-- What a client can expect of a call: a message on a connected connection with
an entry is answered once, with a reply of the database to this message, and a
tick returns. -/
def Completes (SIZECONN : Nat) (reading : Reading) (process : Process Db)
    (server : TcpMysqlServer Wheel Db) (event : ServerEvent) : Prop :=
  match event with
  | .read conn chunk outcome =>
      server.ConnectedRead (.read conn chunk outcome) →
        ∃ after reply,
          (step SIZECONN reading process (.read conn chunk outcome)).run server =
              .ok () after ∧
            after.sends = server.sends ++ [(conn, reply)] ∧
              ((server.table.receive conn chunk).1, reply) ∈ after.cache.misses
  | .timer =>
      ∃ after, (step SIZECONN reading process .timer).run server = .ok () after
  | _ => True

theorem handleRead_asWritten {server : TcpMysqlServer Wheel Db}
    (untouched : server.cache.Untouched) (process : Process Db) (conn : ConnId)
    (chunk : Bytes) (outcome : WriteOutcome) :
    ∃ fault after,
      (handleRead .asWritten process conn chunk outcome).run server =
        .error fault after := by
  cases touchEq : (server.table.receive conn chunk).2.touch conn with
  | error fault => exact ⟨fault, _, run_handleRead_touch_error touchEq⟩
  | ok touched =>
      obtain ⟨cache, answerEq⟩ :=
        untouched.answer process (server.table.receive conn chunk).1
      exact ⟨.badAnyCast, _, run_handleRead_answer_error touchEq answerEq⟩

/-- As long as the process lives, its cache is untouched. -/
theorem step_untouched {SIZECONN : Nat} {process : Process Db}
    {server after : TcpMysqlServer Wheel Db} {event : ServerEvent}
    (untouched : server.cache.Untouched) {value : Unit}
    (ran : (step SIZECONN .asWritten process event).run server = .ok value after) :
    after.cache.Untouched := by
  rcases event.kinds with ⟨conn, chunk, outcome, rfl⟩ | rfl | ⟨tableEvent, eventEq⟩
  · obtain ⟨fault, failed, threw⟩ :=
      handleRead_asWritten untouched process conn chunk outcome
    exact absurd (ran.symm.trans threw) (by simp)
  · obtain ⟨cache, timerEq, cacheUntouched, -⟩ := untouched.onTimer
    rw [step, run_onCache, timerEq] at ran
    rw [← (EStateM.Result.ok.inj ran).2]
    exact cacheUntouched
  · rw [step_of_tableEvent eventEq] at ran
    obtain ⟨table, -, rfl⟩ := onTable_cases ran
    exact untouched

theorem untouched_of_attempts {SIZECONN idleSeconds : Nat}
    (positive : 1 ≤ idleSeconds) {process : Process Db} {db : Db}
    {events : List ServerEvent}
    (offers : (system SIZECONN .asWritten process).Offers (new Wheel idleSeconds db) events)
    {server : TcpMysqlServer Wheel Db} {event : ServerEvent}
    (attempted : (server, event) ∈
      (system SIZECONN .asWritten process).attempts (new Wheel idleSeconds db) events) :
    server.cache.Untouched := by
  refine (EventSystem.attempts_invariant
    (fun server : TcpMysqlServer Wheel Db => server.cache.Untouched)
    ?_ (SqlCache.new_untouched positive db) offers attempted).1
  intro before event after untouched _ stepTo
  obtain ⟨value, ran⟩ := okState_eq_some.mp stepTo
  exact step_untouched untouched ran

theorem not_completes_of_connectedRead {SIZECONN : Nat} {process : Process Db}
    {server : TcpMysqlServer Wheel Db} {event : ServerEvent}
    (untouched : server.cache.Untouched)
    (connectedRead : server.ConnectedRead event) :
    ¬server.Completes SIZECONN .asWritten process event := by
  intro completes
  cases event with
  | read conn chunk outcome =>
      obtain ⟨after, reply, ran, -⟩ := completes connectedRead
      obtain ⟨fault, failed, threw⟩ :=
        handleRead_asWritten untouched process conn chunk outcome
      exact absurd (ran.symm.trans threw) (by simp)
  | up => exact connectedRead
  | down => exact connectedRead
  | writable => exact connectedRead
  | timer => exact connectedRead
  | pendingFunctors => exact connectedRead

theorem completes_of_not_connectedRead {SIZECONN : Nat} {process : Process Db}
    {server : TcpMysqlServer Wheel Db} {event : ServerEvent}
    (untouched : server.cache.Untouched) (notRead : ¬server.ConnectedRead event) :
    server.Completes SIZECONN .asWritten process event := by
  cases event with
  | read conn chunk outcome => exact fun connectedRead => absurd connectedRead notRead
  | timer =>
      obtain ⟨cache, timerEq, -⟩ := untouched.onTimer
      exact ⟨{ server with cache := cache }, by rw [step, run_onCache, timerEq]⟩
  | up => trivial
  | down => trivial
  | writable => trivial
  | pendingFunctors => trivial

/-- In every run of the server as it is written, all calls complete exactly when
no message reaches a connected connection that has an entry: every such message
throws, and no tick does. -/
theorem messages_answered_iff {SIZECONN idleSeconds : Nat}
    (positive : 1 ≤ idleSeconds) (process : Process Db) (db : Db)
    (events : List ServerEvent)
    (offers : (system SIZECONN .asWritten process).Offers (new Wheel idleSeconds db) events) :
    (∀ server event,
        (server, event) ∈ (system SIZECONN .asWritten process).attempts
            (new Wheel idleSeconds db) events →
          server.Completes SIZECONN .asWritten process event) ↔
      ∀ server event,
        (server, event) ∈ (system SIZECONN .asWritten process).attempts
            (new Wheel idleSeconds db) events →
          ¬server.ConnectedRead event := by
  constructor
  · intro completes server event attempted connectedRead
    have untouched := untouched_of_attempts positive offers attempted
    exact not_completes_of_connectedRead untouched connectedRead
      (completes server event attempted)
  · intro noReads server event attempted
    have untouched := untouched_of_attempts positive offers attempted
    exact completes_of_not_connectedRead untouched (noReads server event attempted)

/-- A database that repeats the statement. -/
def repeating : Process Unit :=
  fun db sql => (sql, db)

/-- A client that connects and stays silent for a second. -/
theorem messages_answered_silent_client :
    (∀ server event,
        (server, event) ∈ (system 1000 .asWritten repeating).attempts (new BoundedList 5 ())
            [.up 0, .timer] →
          server.Completes 1000 .asWritten repeating event) ↔
      ∀ server event,
        (server, event) ∈ (system 1000 .asWritten repeating).attempts (new BoundedList 5 ())
            [.up 0, .timer] →
          ¬server.ConnectedRead event :=
  messages_answered_iff (by decide) repeating () _ (by decide +kernel)

/-- The first message of a client is not answered. -/
theorem first_message_throws :
    (system 1000 .asWritten repeating).Offers (new BoundedList 5 ())
        [.up 0, .read 0 [115, 104, 111, 119] (.room 64)] ∧
      ¬∀ server event,
        (server, event) ∈ (system 1000 .asWritten repeating).attempts (new BoundedList 5 ())
            [.up 0, .read 0 [115, 104, 111, 119] (.room 64)] →
          server.Completes 1000 .asWritten repeating event := by
  have offers : (system 1000 .asWritten repeating).Offers (new BoundedList 5 ())
      [.up 0, .read 0 [115, 104, 111, 119] (.room 64)] := by
    decide +kernel
  refine ⟨offers, fun completes => ?_⟩
  have reads : ∃ attempt ∈ (system 1000 .asWritten repeating).attempts (new BoundedList 5 ())
      [.up 0, .read 0 [115, 104, 111, 119] (.room 64)],
      attempt.1.ConnectedRead attempt.2 := by
    decide +kernel
  obtain ⟨⟨server, event⟩, attempted, connectedRead⟩ := reads
  have untouched := untouched_of_attempts (by decide) offers attempted
  exact not_completes_of_connectedRead untouched connectedRead
    (completes server event attempted)

end TcpMysqlServer

end TcpMysql
