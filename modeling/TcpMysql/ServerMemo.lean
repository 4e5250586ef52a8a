import TcpMysql.MemoServer
import TcpMysql.ServerRuns
import TcpMysql.SqlCacheMemo
import TcpMysql.TcpConnectionOutput

/-!
# The server answers from memory

Read line 74 as making a statement for the new pair, and take the pairs as kept.
Then the server is the memoizing server of the library: a text in the index is
answered with the reply of its latest execution and is not executed, every other
text is executed once.  Which texts are in the index is up to the ticks.  A
server that executes everything sends the same replies only as long as the
answers from memory are transparent.
-/

namespace TcpMysql

/-- A lookup as a request to a memoizing server. -/
def Lookup.request (lookup : Lookup) : MemoRequest ConnId Bytes where
  client := lookup.conn
  key := lookup.msg
  found := lookup.found

/-- What a message makes the database do. -/
def statement {Db : Type} (process : Process Db) (db : Db) (msg : Bytes) :
    Bytes × Db :=
  process db (cStr msg)

namespace SqlCache

open CircularBuffer

variable {Wheel : Type → Type} [CircularBuffer Wheel] {Db : Type}

/-- The cache answers as a memoizing server does. -/
theorem Remembers.answer_serves {idleSeconds : Nat} {cache : SqlCache Wheel Db}
    (remembers : cache.Remembers idleSeconds) (process : Process Db) (msg : Bytes)
    (conn : ConnId) (sends : List (ConnId × Bytes)) :
    ∃ echo after,
      (answer (.freshStmt true) process msg).run cache = .ok echo after ∧
        after.Remembers idleSeconds ∧
          MemoServer.serve (statement process)
              ⟨sends, cache.mysqlserver_, cache.misses⟩
              ⟨conn, msg, cache.contains msg⟩ =
            some ⟨sends ++ [(conn, echo)], after.mysqlserver_, after.misses⟩ := by
  cases found : cache.sqlchecklist_.lookup msg with
  | some weak =>
      obtain ⟨reply, list, ran, inserted, pairEq, latest⟩ :=
        remembers.answer_hit (.freshStmt true) process found
      have present : cache.contains msg = true := by simp [contains, found]
      have known : cache.misses.lookup msg = some reply := latest
      refine ⟨reply, _, ran, remembers.of_inserted inserted pairEq, ?_⟩
      simp [MemoServer.serve, present, known]
  | none =>
      obtain ⟨list, ran, afterRemembers⟩ := remembers.answer_miss process found
      have absent : cache.contains msg = false := by simp [contains, found]
      refine ⟨_, _, ran, afterRemembers, ?_⟩
      simp [MemoServer.serve, absent, statement, SqlCache.stored]

end SqlCache

namespace ConnectionTable

theorem send_of_short (table : ConnectionTable) (conn : ConnId) {echo : Bytes}
    (short : echo.length < 2 ^ 31) (outcome : WriteOutcome) :
    ∃ after, table.send conn echo outcome = .ok after := by
  obtain ⟨sent, sendEq⟩ := TcpConnection.send_of_short (table.conns conn) short outcome
  exact ⟨table.setConn conn sent, by simp [send, sendEq]⟩

theorem connectDestroyed_returns {SIZECONN : Nat} (roomy : 1 ≤ SIZECONN)
    (table : ConnectionTable) (conn : ConnId) :
    ∃ after, table.connectDestroyed SIZECONN conn = .ok after := by
  obtain ⟨called, returns⟩ := onConnection_returns roomy (table.closing conn) conn
  unfold connectDestroyed
  split
  · exact ⟨called.removeChannel conn, by simp [returns]⟩
  · exact ⟨_, rfl⟩

theorem foldlM_connectDestroyed_returns {SIZECONN : Nat} (roomy : 1 ≤ SIZECONN)
    (table : ConnectionTable) (conns : List ConnId) :
    ∃ after, conns.foldlM (connectDestroyed SIZECONN) table = .ok after := by
  induction conns generalizing table with
  | nil => exact ⟨table, rfl⟩
  | cons conn conns ih =>
      obtain ⟨middle, destroyed⟩ := connectDestroyed_returns roomy table conn
      obtain ⟨after, rest⟩ := ih middle
      refine ⟨after, ?_⟩
      rw [List.foldlM_cons, destroyed]
      exact rest

theorem step_of_tableEvent_returns {SIZECONN : Nat} (roomy : 1 ≤ SIZECONN)
    (table : ConnectionTable) {event : ServerEvent} {tableEvent : TableEvent}
    (eventEq : event.tableEvent = some tableEvent) :
    ∃ after, table.step SIZECONN tableEvent = .ok after := by
  cases event with
  | up conn =>
      obtain rfl := Option.some.inj eventEq
      exact onConnection_returns roomy _ conn
  | down conn =>
      obtain rfl := Option.some.inj eventEq
      obtain ⟨called, returns⟩ := onConnection_returns roomy (table.closing conn) conn
      exact ⟨called.removeConnectionInLoop conn, by simp [step, handleClose, returns]⟩
  | writable conn outcome =>
      obtain rfl := Option.some.inj eventEq
      exact ⟨_, rfl⟩
  | pendingFunctors =>
      obtain rfl := Option.some.inj eventEq
      exact foldlM_connectDestroyed_returns roomy _ _
  | read => simp [ServerEvent.tableEvent] at eventEq
  | timer => simp [ServerEvent.tableEvent] at eventEq

end ConnectionTable

namespace TcpMysqlServer

variable {Wheel : Type → Type} [CircularBuffer Wheel] {Db : Type}

/-- A message comes from a connected connection. -/
def ReadsConnected (server : TcpMysqlServer Wheel Db) : ServerEvent → Prop
  | .read conn _ _ => server.table.state conn = .kConnected
  | _ => True

instance (server : TcpMysqlServer Wheel Db) (event : ServerEvent) :
    Decidable (server.ReadsConnected event) :=
  match event with
  | .read _ _ _ => inferInstanceAs (Decidable (_ = _))
  | .up _ => inferInstanceAs (Decidable True)
  | .down _ => inferInstanceAs (Decidable True)
  | .writable _ _ => inferInstanceAs (Decidable True)
  | .timer => inferInstanceAs (Decidable True)
  | .pendingFunctors => inferInstanceAs (Decidable True)

/-- The server as a memoizing server. -/
def memo (server : TcpMysqlServer Wheel Db) : MemoServer ConnId Bytes Bytes Db where
  replies := server.sends
  backend := server.cache.mysqlserver_
  executed := server.cache.misses

/-- What the server has sent and executed is what a memoizing server has sent and
executed for the same lookups. -/
def Served (process : Process Db) (db : Db) (server : TcpMysqlServer Wheel Db) : Prop :=
  MemoServer.serveAll (statement process) ⟨[], db, []⟩
    (server.lookups.map Lookup.request) = some server.memo

/-- What holds between two events when the pairs are kept. -/
structure Memoizes (SIZECONN idleSeconds : Nat) (process : Process Db) (db : Db)
    (server : TcpMysqlServer Wheel Db) : Prop extends server.Invariant SIZECONN where
  remembers : server.cache.Remembers idleSeconds
  served : server.Served process db

variable {SIZECONN idleSeconds : Nat} {process : Process Db} {db : Db}
  {server : TcpMysqlServer Wheel Db}

theorem new_memoizes (positive : 1 ≤ idleSeconds) (SIZECONN : Nat)
    (process : Process Db) (db : Db) :
    (new Wheel idleSeconds db).Memoizes SIZECONN idleSeconds process db :=
  ⟨new_invariant SIZECONN idleSeconds db, SqlCache.new_remembers positive db, rfl⟩

/-- A read that reaches the cache is served there, and then sent. -/
theorem Memoizes.handleRead_served
    (memoizes : server.Memoizes SIZECONN idleSeconds process db)
    {conn : ConnId} {chunk : Bytes} {touched : ConnectionTable}
    (touchEq : (server.table.receive conn chunk).2.touch conn = .ok touched)
    (outcome : WriteOutcome) :
    ∃ echo cache,
      (handleRead (.freshStmt true) process conn chunk outcome).run server =
          (onTable (·.send conn echo outcome)).run
            ((server.lookedUp touched conn
              (server.table.receive conn chunk).1).replying cache conn echo) ∧
        cache.Remembers idleSeconds ∧
          ((server.lookedUp touched conn
            (server.table.receive conn chunk).1).replying cache conn echo).Served
              process db := by
  obtain ⟨echo, cache, answerEq, remembers, serves⟩ :=
    memoizes.remembers.answer_serves process (server.table.receive conn chunk).1
      conn server.sends
  refine ⟨echo, cache, run_handleRead_answered touchEq answerEq, remembers, ?_⟩
  have appended := MemoServer.serveAll_append_singleton memoizes.served
    ⟨conn, (server.table.receive conn chunk).1,
      server.cache.contains (server.table.receive conn chunk).1⟩
  have servedNow := appended.trans serves
  simpa [Served, memo, lookedUp, replying, Lookup.request] using servedNow

omit [CircularBuffer Wheel] in
theorem Served.of_onTable (served : server.Served process db)
    (change : ConnectionTable → Except Fault ConnectionTable) :
    (endState ((onTable change).run server)).Served process db := by
  rw [run_onTable]
  cases change server.table <;> exact served

theorem Memoizes.step_served
    (memoizes : server.Memoizes SIZECONN idleSeconds process db)
    (event : ServerEvent) :
    (endState ((step SIZECONN (.freshStmt true) process event).run server)).Served
      process db := by
  rcases event.kinds with ⟨conn, chunk, outcome, rfl⟩ | rfl | ⟨tableEvent, eventEq⟩
  · rw [step]
    cases touchEq : (server.table.receive conn chunk).2.touch conn with
    | error fault =>
        rw [run_handleRead_touch_error touchEq]
        exact memoizes.served
    | ok touched =>
        obtain ⟨echo, cache, ran, -, served⟩ :=
          memoizes.handleRead_served touchEq outcome
        rw [ran]
        exact served.of_onTable _
  · obtain ⟨index, list, ran, -⟩ := memoizes.remembers.onTimer
    rw [step, run_onCache, ran]
    exact memoizes.served
  · rw [step_of_tableEvent eventEq]
    exact memoizes.served.of_onTable _

theorem Memoizes.step_remembers
    (memoizes : server.Memoizes SIZECONN idleSeconds process db)
    {event : ServerEvent} {after : TcpMysqlServer Wheel Db} {value : Unit}
    (ran : (step SIZECONN (.freshStmt true) process event).run server =
      .ok value after) :
    after.cache.Remembers idleSeconds := by
  rcases step_cache ran with same | ⟨cacheEvent, stepTo⟩
  · rw [same]
    exact memoizes.remembers
  · exact SqlCache.step_remembers process memoizes.remembers stepTo

theorem Memoizes.step (roomy : 1 ≤ SIZECONN)
    (memoizes : server.Memoizes SIZECONN idleSeconds process db)
    {event : ServerEvent} (offered : server.Offered event)
    {after : TcpMysqlServer Wheel Db} {value : Unit}
    (ran : (step SIZECONN (.freshStmt true) process event).run server =
      .ok value after) :
    after.Memoizes SIZECONN idleSeconds process db := by
  have served := memoizes.step_served event
  rw [ran] at served
  exact ⟨step_invariant roomy memoizes.toInvariant offered ran,
    memoizes.step_remembers ran, served⟩

/-- Whatever events are played, and wherever the run ends, the server has
answered as a memoizing server. -/
theorem Memoizes.runAll_served (roomy : 1 ≤ SIZECONN)
    (memoizes : server.Memoizes SIZECONN idleSeconds process db)
    {events : List ServerEvent}
    (offers : (system SIZECONN (.freshStmt true) process).Offers server events) :
    (runAll SIZECONN (.freshStmt true) process server events).Served process db := by
  apply runAll_ends (Memoizes SIZECONN idleSeconds process db) (Served process db) _ _ _
    memoizes offers
  · intro before event value after beforeMemoizes offered ran
    exact beforeMemoizes.step roomy offered ran
  · intro before beforeMemoizes
    exact beforeMemoizes.served
  · intro before event beforeMemoizes
    exact beforeMemoizes.step_served event

/-! ## Runs that are handled to their end -/

omit [CircularBuffer Wheel] in
theorem lookup_of_connected (invariant : server.Invariant SIZECONN) {conn : ConnId}
    (connected : server.table.state conn = .kConnected) :
    ∃ iter, server.table.lrumap_.lookup conn = some iter := by
  obtain ⟨node, found, -⟩ := invariant.table.tracked conn connected
  exact ⟨some node, found⟩

/-- Only a reply of two gigabytes or more keeps the server from completing an
event. -/
theorem Memoizes.long_of_error (roomy : 1 ≤ SIZECONN)
    (memoizes : server.Memoizes SIZECONN idleSeconds process db)
    {event : ServerEvent} (connected : server.ReadsConnected event)
    {fault : Fault} {after : TcpMysqlServer Wheel Db}
    (ran : (TcpMysqlServer.step SIZECONN (.freshStmt true) process event).run server =
      .error fault after) :
    ∃ sent ∈ after.sends, 2 ^ 31 ≤ sent.2.length := by
  rcases event.kinds with ⟨conn, chunk, outcome, rfl⟩ | rfl | ⟨tableEvent, eventEq⟩
  · obtain ⟨iter, found⟩ := lookup_of_connected memoizes.toInvariant connected
    obtain ⟨touched, touchEq⟩ := memoizes.toInvariant.touch found chunk
    obtain ⟨echo, cache, ran', -, -⟩ := memoizes.handleRead_served touchEq outcome
    have sendRan := ran'.symm.trans ran
    rw [run_onTable] at sendRan
    by_cases short : echo.length < 2 ^ 31
    · obtain ⟨table, sendEq⟩ := ConnectionTable.send_of_short touched conn short outcome
      exact absurd sendRan (by simp [lookedUp, replying, sendEq])
    · refine ⟨(conn, echo), ?_, Nat.le_of_not_lt short⟩
      split at sendRan
      · rw [← (EStateM.Result.error.inj sendRan).2]
        simp [lookedUp, replying]
      · simp at sendRan
  · obtain ⟨index, list, timerEq, -⟩ := memoizes.remembers.onTimer
    rw [TcpMysqlServer.step, run_onCache, timerEq] at ran
    simp at ran
  · obtain ⟨table, stepEq⟩ :=
      ConnectionTable.step_of_tableEvent_returns roomy server.table eventEq
    rw [step_of_tableEvent eventEq, run_onTable, stepEq] at ran
    simp at ran

theorem Memoizes.attempts_all (roomy : 1 ≤ SIZECONN)
    (memoizes : server.Memoizes SIZECONN idleSeconds process db)
    {events : List ServerEvent}
    (offers : (system SIZECONN (.freshStmt true) process).Offers server events)
    (connected : ∀ before event,
      (before, event) ∈
          (system SIZECONN (.freshStmt true) process).attempts server events →
        before.ReadsConnected event)
    (short : ∀ sent ∈ (runAll SIZECONN (.freshStmt true) process server events).sends,
      sent.2.length < 2 ^ 31) :
    ((system SIZECONN (.freshStmt true) process).attempts server events).map Prod.snd =
      events := by
  induction events generalizing server with
  | nil => rfl
  | cons event events ih =>
      cases ran : (TcpMysqlServer.step SIZECONN (.freshStmt true) process event).run
          server with
      | ok value after =>
          have nextEq := next_eq_some ran
          simp only [EventSystem.attempts, nextEq] at connected ⊢
          simp only [runAll, ran] at short
          have rest := ih (memoizes.step roomy offers.1 ran) (offers.2 after nextEq)
            (fun before other member => connected before other (by simp [member])) short
          simp [rest]
      | error fault after =>
          have connectedFirst := connected server event (by simp [EventSystem.attempts])
          obtain ⟨sent, member, long⟩ :=
            memoizes.long_of_error roomy connectedFirst ran
          simp only [runAll, ran] at short
          exact absurd (short sent member) (Nat.not_lt.mpr long)

/-! ## Comparison with a server that executes everything -/

/-- What the clients and the database see of a run with these reads.  The reads
are looked up in order and answered as by a memoizing server; when all answers
from memory are transparent, they are answered as by a server that hands every
message to the database. -/
structure AnswersReads (process : Process Db) (db : Db)
    (reads : List (ConnId × Bytes)) (final : TcpMysqlServer Wheel Db) : Prop where
  requests : final.lookups.map (fun lookup => (lookup.conn, lookup.msg)) = reads
  served : MemoServer.serveAll (statement process) ⟨[], db, []⟩
    (final.lookups.map Lookup.request) =
      some ⟨final.sends, final.cache.mysqlserver_, final.cache.misses⟩
  transparent :
    MemoServer.Transparent (statement process) ⟨[], db, []⟩
        (final.lookups.map Lookup.request) →
      final.sends = (MemoServer.executeAll (statement process) db reads).1 ∧
        final.cache.mysqlserver_ =
          (MemoServer.executeAll (statement process) db reads).2

omit [CircularBuffer Wheel] in
theorem lookupMade_of_connected (invariant : server.Invariant SIZECONN)
    {event : ServerEvent}
    (connected : server.ReadsConnected event) :
    (server.lookupMade event).map (fun lookup => (lookup.conn, lookup.msg)) =
      event.readOf := by
  rcases event.kinds with ⟨conn, chunk, outcome, rfl⟩ | rfl | ⟨tableEvent, eventEq⟩
  · obtain ⟨iter, found⟩ := lookup_of_connected invariant connected
    simp [lookupMade, ServerEvent.readOf, found]
  · rfl
  · rw [lookupMade_of_tableEvent eventEq]
    cases event <;> cases eventEq <;> rfl

theorem runAll_lookups_of_connected (roomy : 1 ≤ SIZECONN) {reading : Reading}
    (process : Process Db) (db : Db) {events : List ServerEvent}
    (offers : (system SIZECONN reading process).Offers (new Wheel idleSeconds db) events)
    (connected : ∀ before event,
      (before, event) ∈
          (system SIZECONN reading process).attempts (new Wheel idleSeconds db) events →
        before.ReadsConnected event) :
    (runAll SIZECONN reading process (new Wheel idleSeconds db) events).lookups.map
        (fun lookup => (lookup.conn, lookup.msg)) =
      ((system SIZECONN reading process).attempts (new Wheel idleSeconds db) events).filterMap
        fun attempt => attempt.2.readOf := by
  rw [runAll_lookups roomy reading process (new_invariant SIZECONN idleSeconds db) offers]
  rw [List.map_append, List.map_filterMap]
  refine List.filterMap_congr ?_
  rintro ⟨before, event⟩ attempted
  obtain ⟨invariant, -⟩ := EventSystem.attempts_invariant (Invariant SIZECONN)
    (fun _ _ _ invariant offered stepTo => by
      obtain ⟨value, ran⟩ := okState_eq_some.mp stepTo
      exact step_invariant roomy invariant offered ran)
    (new_invariant SIZECONN idleSeconds db) offers attempted
  exact lookupMade_of_connected invariant (connected before event attempted)

/-- For every database, every interleaving of messages from connected connections
and every placement of ticks, the server answers each message once, from memory
if its text is in the index and by executing it otherwise; where the answers from
memory are transparent it cannot be told from a server that executes every
message.  All events are handled unless a reply has two gigabytes. -/
theorem replies_from_memory (roomy : 1 ≤ SIZECONN) (positive : 1 ≤ idleSeconds)
    (process : Process Db) (db : Db) (events : List ServerEvent)
    (offers : (system SIZECONN (.freshStmt true) process).Offers
      (new Wheel idleSeconds db) events)
    (connected : ∀ before event,
      (before, event) ∈ (system SIZECONN (.freshStmt true) process).attempts
          (new Wheel idleSeconds db) events →
        before.ReadsConnected event) :
    AnswersReads process db
        (((system SIZECONN (.freshStmt true) process).attempts
          (new Wheel idleSeconds db) events).filterMap fun attempt => attempt.2.readOf)
        (runAll SIZECONN (.freshStmt true) process (new Wheel idleSeconds db) events) ∧
      ((∀ sent ∈ (runAll SIZECONN (.freshStmt true) process
            (new Wheel idleSeconds db) events).sends, sent.2.length < 2 ^ 31) →
        ((system SIZECONN (.freshStmt true) process).attempts
          (new Wheel idleSeconds db) events).map Prod.snd = events) := by
  have memoizes : (new Wheel idleSeconds db).Memoizes SIZECONN idleSeconds process db :=
    new_memoizes positive SIZECONN process db
  have requests := runAll_lookups_of_connected roomy process db offers connected
  have served := memoizes.runAll_served roomy offers
  refine ⟨⟨requests, served, ?_⟩, memoizes.attempts_all roomy offers connected⟩
  intro transparent
  have compared := MemoServer.serveAll_eq_executeAll served transparent
  have requestsEq :
      ((runAll SIZECONN (.freshStmt true) process (new Wheel idleSeconds db) events).lookups.map
        Lookup.request).map (fun request => (request.client, request.key)) = _ :=
    (List.map_map ..).trans requests
  rw [requestsEq] at compared
  simpa [memo] using compared

/-- One statement, received twice within a second. -/
def receivedTwice : List ServerEvent :=
  [.up 0, .read 0 [97] (.room 64), .timer, .read 0 [97] (.room 64)]

theorem receivedTwice_connected :
    ∀ before event,
      (before, event) ∈ (system 1000 (.freshStmt true) SqlCache.numbering).attempts
          (new BoundedList 5 0) receivedTwice →
        before.ReadsConnected event := by
  have connected : ∀ attempt ∈
      (system 1000 (.freshStmt true) SqlCache.numbering).attempts (new BoundedList 5 0)
        receivedTwice, attempt.1.ReadsConnected attempt.2 := by
    decide +kernel
  intro before event attempted
  exact connected (before, event) attempted

theorem replies_from_memory_received_twice :
    AnswersReads SqlCache.numbering 0
        (((system 1000 (.freshStmt true) SqlCache.numbering).attempts (new BoundedList 5 0)
          receivedTwice).filterMap fun attempt => attempt.2.readOf)
        (runAll 1000 (.freshStmt true) SqlCache.numbering (new BoundedList 5 0) receivedTwice) ∧
      ((system 1000 (.freshStmt true) SqlCache.numbering).attempts (new BoundedList 5 0)
        receivedTwice).map Prod.snd = receivedTwice := by
  have answered := replies_from_memory (by decide : 1 ≤ 1000) (by decide : 1 ≤ 5)
    SqlCache.numbering 0 receivedTwice (by decide +kernel) receivedTwice_connected
  exact ⟨answered.1, answered.2 (by decide +kernel)⟩

/-- The statement is executed once, and the second reply is the first one again. -/
theorem received_twice_executed_once :
    (system 1000 (.freshStmt true) SqlCache.numbering).Offers (new BoundedList 5 0) receivedTwice ∧
      (∀ before event,
        (before, event) ∈ (system 1000 (.freshStmt true) SqlCache.numbering).attempts
            (new BoundedList 5 0) receivedTwice →
          before.ReadsConnected event) ∧
      ¬((runAll 1000 (.freshStmt true) SqlCache.numbering (new BoundedList 5 0)
              receivedTwice).sends =
            (MemoServer.executeAll (statement SqlCache.numbering) 0
              [(0, [97]), (0, [97])]).1 ∧
          (runAll 1000 (.freshStmt true) SqlCache.numbering (new BoundedList 5 0)
              receivedTwice).cache.mysqlserver_ =
            (MemoServer.executeAll (statement SqlCache.numbering) 0
              [((0 : ConnId), [97]), (0, [97])]).2) := by
  refine ⟨by decide +kernel, receivedTwice_connected, ?_⟩
  decide +kernel

end TcpMysqlServer

end TcpMysql
