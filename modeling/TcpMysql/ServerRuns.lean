import TcpMysql.TcpMysqlServer

/-!
# Runs of the server

Every step of the server is, for the connection table, a step of the table or
none, whatever the cache does; so the table's invariant holds along all runs.
Between two events no input is left in any buffer, since `onMessage` takes all of
it.  Hence each read looks up exactly the chunk that has arrived.
-/

namespace TcpMysql

namespace ConnectionTable

/-- No connection has unread input. -/
def InputEmpty (table : ConnectionTable) : Prop :=
  ∀ conn, (table.conns conn).inputBuffer_.contents = []

theorem setConn_inputEmpty {table : ConnectionTable} (empty : table.InputEmpty)
    {conn : ConnId} {value : TcpConnection}
    (valueEmpty : value.inputBuffer_.contents = []) :
    (table.setConn conn value).InputEmpty := by
  intro other
  by_cases same : other = conn
  · subst same
    simpa using valueEmpty
  · rw [setConn_of_ne _ _ same]
    exact empty other

theorem receive_text {table : ConnectionTable} (empty : table.InputEmpty)
    (conn : ConnId) (chunk : Bytes) : (table.receive conn chunk).1 = chunk := by
  have received := (table.conns conn).receive_fst chunk
  rw [empty conn, List.nil_append] at received
  exact received

theorem accepted_inputEmpty {table : ConnectionTable} (empty : table.InputEmpty)
    (conn : ConnId) : (table.accepted conn).InputEmpty := by
  have established :
      (table.setConn conn (table.conns conn).established).InputEmpty :=
    setConn_inputEmpty empty (empty conn)
  exact established

theorem closing_inputEmpty {table : ConnectionTable} (empty : table.InputEmpty)
    (conn : ConnId) : (table.closing conn).InputEmpty :=
  setConn_inputEmpty empty (empty conn)

theorem onConnection_inputEmpty {SIZECONN : Nat} {called returned : ConnectionTable}
    {caller : ConnId} (empty : called.InputEmpty)
    (returns : called.onConnection SIZECONN caller = .ok returned) :
    returned.InputEmpty := by
  rcases onConnection_cases returns with ⟨-, rfl⟩ | ⟨-, back, -, rfl⟩
  · exact empty
  · exact setConn_inputEmpty empty (by simpa using empty back)

theorem connectDestroyed_inputEmpty {SIZECONN : Nat} {table after : ConnectionTable}
    {conn : ConnId} (empty : table.InputEmpty)
    (destroyed : table.connectDestroyed SIZECONN conn = .ok after) :
    after.InputEmpty := by
  unfold connectDestroyed at destroyed
  split at destroyed
  · obtain ⟨called, returns, rest⟩ := Except.bind_eq_ok.mp destroyed
    obtain rfl := Except.ok.inj rest
    have calledEmpty := onConnection_inputEmpty (closing_inputEmpty empty conn) returns
    exact setConn_inputEmpty calledEmpty (calledEmpty conn)
  · obtain rfl := Except.ok.inj destroyed
    exact setConn_inputEmpty empty (empty conn)

theorem foldlM_inputEmpty {SIZECONN : Nat} {conns : List ConnId}
    {table after : ConnectionTable} (empty : table.InputEmpty)
    (folded : conns.foldlM (connectDestroyed SIZECONN) table = .ok after) :
    after.InputEmpty := by
  induction conns generalizing table with
  | nil =>
      obtain rfl := Except.ok.inj folded
      exact empty
  | cons conn conns ih =>
      obtain ⟨middle, destroyed, rest⟩ := Except.bind_eq_ok.mp folded
      exact ih (connectDestroyed_inputEmpty empty destroyed) rest

theorem step_inputEmpty {SIZECONN : Nat} {table after : ConnectionTable}
    {event : TableEvent} (empty : table.InputEmpty)
    (stepTo : table.step SIZECONN event = .ok after) : after.InputEmpty := by
  cases event with
  | up conn => exact onConnection_inputEmpty (accepted_inputEmpty empty conn) stepTo
  | message conn chunk echo outcome =>
      obtain ⟨touched, touchEq, sendEq⟩ := Except.bind_eq_ok.mp stepTo
      obtain ⟨node, list, -, -, rfl⟩ := touch_cases touchEq
      obtain ⟨sent, connSend, rfl⟩ := send_cases sendEq
      have received : (table.receive conn chunk).2.InputEmpty :=
        setConn_inputEmpty empty (TcpConnection.receive_input _ chunk)
      apply setConn_inputEmpty received
      rw [(TcpConnection.send_sameInput connSend).input]
      exact received conn
  | down conn =>
      obtain ⟨called, returns, rfl⟩ := step_down_cases stepTo
      have calledEmpty := onConnection_inputEmpty (closing_inputEmpty empty conn) returns
      exact calledEmpty
  | writable conn outcome =>
      obtain rfl := Except.ok.inj stepTo
      apply setConn_inputEmpty empty
      rw [(TcpConnection.handleWrite_sameInput _ outcome).input]
      exact empty conn
  | pendingFunctors =>
      have detached : InputEmpty { table with pendingFunctors_ := [] } := empty
      exact foldlM_inputEmpty detached stepTo

end ConnectionTable

namespace TcpMysqlServer

variable {Wheel : Type → Type} [CircularBuffer Wheel] {Db : Type}

/-- What holds of the connections between two events. -/
structure Invariant (SIZECONN : Nat) (server : TcpMysqlServer Wheel Db) : Prop where
  table : server.table.Invariant SIZECONN
  input : server.table.InputEmpty

theorem new_invariant (SIZECONN idleSeconds : Nat) (db : Db) :
    (new Wheel idleSeconds db).Invariant SIZECONN :=
  ⟨ConnectionTable.new_invariant SIZECONN, fun _ => Buffer.contents_new⟩

/-- A completed step of the server is an offered step of the table, or leaves the
table alone. -/
theorem step_table {SIZECONN : Nat} {reading : Reading} {process : Process Db}
    {server after : TcpMysqlServer Wheel Db} {event : ServerEvent}
    (offered : server.Offered event) {value : Unit}
    (ran : (step SIZECONN reading process event).run server = .ok value after) :
    after.table = server.table ∨
      ∃ tableEvent, server.table.Offered tableEvent ∧
        server.table.step SIZECONN tableEvent = .ok after.table := by
  rcases event.kinds with ⟨conn, chunk, outcome, rfl⟩ | rfl | ⟨tableEvent, eventEq⟩
  · obtain ⟨touched, echo, cache, table, touchEq, -, sendEq, rfl⟩ :=
      handleRead_cases ran
    refine .inr ⟨.message conn chunk echo outcome, offered, ?_⟩
    simp only [ConnectionTable.step, touchEq]
    exact sendEq
  · left
    rw [step, run_onCache] at ran
    cases timerEq : SqlCache.onTimer.run server.cache with
    | ok value cache =>
        rw [timerEq] at ran
        rw [← (EStateM.Result.ok.inj ran).2]
    | error fault cache =>
        rw [timerEq] at ran
        simp at ran
  · rw [step_of_tableEvent eventEq] at ran
    obtain ⟨table, changed, rfl⟩ := onTable_cases ran
    exact .inr ⟨tableEvent, (offered_of_tableEvent eventEq server).mp offered, changed⟩

theorem step_invariant {SIZECONN : Nat} (positive : 1 ≤ SIZECONN) {reading : Reading}
    {process : Process Db} {server after : TcpMysqlServer Wheel Db} {event : ServerEvent}
    (invariant : server.Invariant SIZECONN) (offered : server.Offered event)
    {value : Unit}
    (ran : (step SIZECONN reading process event).run server = .ok value after) :
    after.Invariant SIZECONN := by
  rcases step_table offered ran with same | ⟨tableEvent, tableOffered, stepTo⟩
  · exact ⟨same ▸ invariant.table, same ▸ invariant.input⟩
  · exact ⟨ConnectionTable.step_invariant positive invariant.table tableOffered stepTo,
      ConnectionTable.step_inputEmpty invariant.input stepTo⟩

theorem step_cache {SIZECONN : Nat} {reading : Reading} {process : Process Db}
    {server after : TcpMysqlServer Wheel Db} {event : ServerEvent} {value : Unit}
    (ran : (step SIZECONN reading process event).run server = .ok value after) :
    after.cache = server.cache ∨
      ∃ cacheEvent, (SqlCache.system reading process).next server.cache cacheEvent =
        some after.cache := by
  rcases event.kinds with ⟨conn, chunk, outcome, rfl⟩ | rfl | ⟨tableEvent, eventEq⟩
  · obtain ⟨touched, echo, cache, table, -, answerEq, -, rfl⟩ := handleRead_cases ran
    exact .inr ⟨.message _, okState_eq_some.mpr ⟨echo, answerEq⟩⟩
  · rw [step, run_onCache] at ran
    cases timerEq : SqlCache.onTimer.run server.cache with
    | ok value cache =>
        rw [timerEq] at ran
        rw [← (EStateM.Result.ok.inj ran).2]
        exact .inr ⟨.timer, okState_eq_some.mpr ⟨value, timerEq⟩⟩
    | error fault cache =>
        rw [timerEq] at ran
        simp at ran
  · rw [step_of_tableEvent eventEq] at ran
    obtain ⟨table, -, rfl⟩ := onTable_cases ran
    exact .inl rfl

/-- A step sends nothing, or the reply the cache gave. -/
theorem step_sends {SIZECONN : Nat} {reading : Reading} {process : Process Db}
    {server after : TcpMysqlServer Wheel Db} {event : ServerEvent} {value : Unit}
    (ran : (step SIZECONN reading process event).run server = .ok value after) :
    after.sends = server.sends ∨
      ∃ conn msg echo cache,
        (SqlCache.answer reading process msg).run server.cache = .ok echo cache ∧
          after.sends = server.sends ++ [(conn, echo)] := by
  rcases event.kinds with ⟨conn, chunk, outcome, rfl⟩ | rfl | ⟨tableEvent, eventEq⟩
  · obtain ⟨touched, echo, cache, table, -, answerEq, -, rfl⟩ := handleRead_cases ran
    exact .inr ⟨conn, _, echo, cache, answerEq, rfl⟩
  · rw [step, run_onCache] at ran
    cases timerEq : SqlCache.onTimer.run server.cache with
    | ok value cache =>
        rw [timerEq] at ran
        rw [← (EStateM.Result.ok.inj ran).2]
        exact .inl rfl
    | error fault cache =>
        rw [timerEq] at ran
        simp at ran
  · rw [step_of_tableEvent eventEq] at ran
    obtain ⟨table, -, rfl⟩ := onTable_cases ran
    exact .inl rfl

/-- A run of the server is a run of its connection table. -/
theorem table_reaches {SIZECONN idleSeconds : Nat} {reading : Reading}
    {process : Process Db} {db : Db} {events : List ServerEvent}
    {server : TcpMysqlServer Wheel Db}
    (run : (system SIZECONN reading process).Reaches (new Wheel idleSeconds db) events
      server) :
    ∃ tableEvents,
      (ConnectionTable.system SIZECONN).Reaches .new tableEvents server.table := by
  apply run.project table
  intro before event after offered stepTo
  obtain ⟨value, ran⟩ := okState_eq_some.mp stepTo
  rcases step_table offered ran with same | ⟨tableEvent, tableOffered, tableStep⟩
  · exact .inl same
  · exact .inr ⟨tableEvent, tableOffered, Except.toOption_eq_some_iff.mpr tableStep⟩

/-- A run of the server is a run of its cache. -/
theorem cache_reaches {SIZECONN idleSeconds : Nat} {reading : Reading}
    {process : Process Db} {db : Db} {events : List ServerEvent}
    {server : TcpMysqlServer Wheel Db}
    (run : (system SIZECONN reading process).Reaches (new Wheel idleSeconds db) events
      server) :
    ∃ cacheEvents,
      (SqlCache.system reading process).Reaches (.new Wheel idleSeconds db) cacheEvents
        server.cache := by
  apply run.project cache
  intro before event after _ stepTo
  obtain ⟨value, ran⟩ := okState_eq_some.mp stepTo
  rcases step_cache ran with same | ⟨cacheEvent, cacheStep⟩
  · exact .inl same
  · exact .inr ⟨cacheEvent, trivial, cacheStep⟩

/-! ## Runs to their end -/

theorem next_eq_some {SIZECONN : Nat} {reading : Reading} {process : Process Db}
    {server after : TcpMysqlServer Wheel Db} {event : ServerEvent} {value : Unit}
    (ran : (step SIZECONN reading process event).run server = .ok value after) :
    (system SIZECONN reading process).next server event = some after := by
  simp [system, okState, ran]

theorem next_eq_none {SIZECONN : Nat} {reading : Reading} {process : Process Db}
    {server after : TcpMysqlServer Wheel Db} {event : ServerEvent} {fault : Fault}
    (ran : (step SIZECONN reading process event).run server = .error fault after) :
    (system SIZECONN reading process).next server event = none := by
  simp [system, okState, ran]

/-- What every completed event keeps, and every event leaves behind, holds when a
run has ended. -/
theorem runAll_ends {SIZECONN : Nat} {reading : Reading} {process : Process Db}
    (between ended : TcpMysqlServer Wheel Db → Prop)
    (kept : ∀ server event value after, between server → server.Offered event →
      (step SIZECONN reading process event).run server = .ok value after →
        between after)
    (left : ∀ server, between server → ended server)
    (leaves : ∀ server event, between server →
      ended (endState ((step SIZECONN reading process event).run server)))
    {server : TcpMysqlServer Wheel Db} {events : List ServerEvent} (starts : between server)
    (offers : (system SIZECONN reading process).Offers server events) :
    ended (runAll SIZECONN reading process server events) := by
  induction events generalizing server with
  | nil => exact left server starts
  | cons event events ih =>
      cases ran : (step SIZECONN reading process event).run server with
      | ok value after =>
          simp only [runAll, ran]
          exact ih (kept server event value after starts offers.1 ran)
            (offers.2 after (next_eq_some ran))
      | error fault after =>
          have ends := leaves server event starts
          rw [ran] at ends
          simp only [runAll, ran]
          exact ends

/-! ## The texts that are looked up -/

/-- The lookup that an event leads to: that of the chunk that was read, when the
connection has an entry. -/
def lookupMade (server : TcpMysqlServer Wheel Db) : ServerEvent → Option Lookup
  | .read conn chunk _ =>
      if (server.table.lrumap_.lookup conn).isSome then
        some ⟨conn, chunk, server.cache.contains chunk⟩
      else
        none
  | _ => none

omit [CircularBuffer Wheel] in
theorem lookupMade_of_tableEvent {event : ServerEvent} {tableEvent : TableEvent}
    (eventEq : event.tableEvent = some tableEvent) (server : TcpMysqlServer Wheel Db) :
    server.lookupMade event = none := by
  cases event <;> cases eventEq <;> rfl

omit [CircularBuffer Wheel] in
theorem endState_onTable_lookups (server : TcpMysqlServer Wheel Db)
    (change : ConnectionTable → Except Fault ConnectionTable) :
    (endState ((onTable change).run server)).lookups = server.lookups := by
  rw [run_onTable]
  cases change server.table <;> rfl

omit [CircularBuffer Wheel] in
theorem endState_onCache_lookups {Value : Type} (server : TcpMysqlServer Wheel Db)
    (computation : SqlCache.CacheM Wheel Db Value) :
    (endState ((onCache computation).run server)).lookups = server.lookups := by
  rw [run_onCache]
  cases computation.run server.cache <;> rfl

omit [CircularBuffer Wheel] in
theorem Invariant.touch {SIZECONN : Nat} {server : TcpMysqlServer Wheel Db}
    (invariant : server.Invariant SIZECONN) {conn : ConnId} {iter : Iter}
    (found : server.table.lrumap_.lookup conn = some iter) (chunk : Bytes) :
    ∃ touched, (server.table.receive conn chunk).2.touch conn = .ok touched := by
  obtain ⟨node, rfl, member⟩ := invariant.table.mapValid conn iter found
  exact ConnectionTable.touch_returns found member

theorem handleRead_lookups {SIZECONN : Nat} {server : TcpMysqlServer Wheel Db}
    (invariant : server.Invariant SIZECONN) (reading : Reading)
    (process : Process Db) (conn : ConnId) (chunk : Bytes) (outcome : WriteOutcome) :
    (endState ((handleRead reading process conn chunk outcome).run server)).lookups =
      server.lookups ++
        (server.lookupMade (.read conn chunk outcome)).toList := by
  cases found : server.table.lrumap_.lookup conn with
  | none =>
      have touchEq : (server.table.receive conn chunk).2.touch conn =
          .error .singularIterator := by
        have absent : (server.table.receive conn chunk).2.lrumap_.lookup conn = none :=
          found
        simp [ConnectionTable.touch, absent]
      rw [run_handleRead_touch_error touchEq]
      simp [endState, lookupMade, found]
  | some iter =>
      obtain ⟨touched, touchEq⟩ := invariant.touch found chunk
      have textEq := ConnectionTable.receive_text invariant.input conn chunk
      cases answerEq : (SqlCache.answer reading process
          (server.table.receive conn chunk).1).run server.cache with
      | error fault cache =>
          rw [run_handleRead_answer_error touchEq answerEq]
          simp [endState, lookedUp, lookupMade, found, textEq]
      | ok echo cache =>
          rw [run_handleRead_answered touchEq answerEq, endState_onTable_lookups]
          simp [replying, lookedUp, lookupMade, found, textEq]

theorem step_lookups {SIZECONN : Nat} {server : TcpMysqlServer Wheel Db}
    (invariant : server.Invariant SIZECONN) (reading : Reading)
    (process : Process Db) (event : ServerEvent) :
    (endState ((step SIZECONN reading process event).run server)).lookups =
      server.lookups ++ (server.lookupMade event).toList := by
  rcases event.kinds with ⟨conn, chunk, outcome, rfl⟩ | rfl | ⟨tableEvent, eventEq⟩
  · exact handleRead_lookups invariant reading process conn chunk outcome
  · rw [step, endState_onCache_lookups]
    simp [lookupMade]
  · rw [step_of_tableEvent eventEq, endState_onTable_lookups,
      lookupMade_of_tableEvent eventEq]
    simp

/-- The texts looked up in a run are those of the calls made in it. -/
theorem runAll_lookups {SIZECONN : Nat} (positive : 1 ≤ SIZECONN) (reading : Reading)
    (process : Process Db) {server : TcpMysqlServer Wheel Db} {events : List ServerEvent}
    (invariant : server.Invariant SIZECONN)
    (offers : (system SIZECONN reading process).Offers server events) :
    (runAll SIZECONN reading process server events).lookups =
      server.lookups ++
        ((system SIZECONN reading process).attempts server events).filterMap
          fun attempt => attempt.1.lookupMade attempt.2 := by
  induction events generalizing server with
  | nil => simp [runAll, EventSystem.attempts]
  | cons event events ih =>
      have stepEq := step_lookups invariant reading process event
      cases ran : (step SIZECONN reading process event).run server with
      | ok value after =>
          have nextEq := next_eq_some ran
          rw [ran] at stepEq
          have afterLookups := ih (step_invariant positive invariant offers.1 ran)
            (offers.2 after nextEq)
          have addedLookups : after.lookups = _ := stepEq
          simp only [runAll, ran, EventSystem.attempts, nextEq, afterLookups,
            addedLookups]
          cases made : server.lookupMade event <;> simp [made]
      | error fault after =>
          have nextEq := next_eq_none ran
          rw [ran] at stepEq
          have addedLookups : after.lookups = _ := stepEq
          simp only [runAll, ran, EventSystem.attempts, nextEq, addedLookups]
          cases made : server.lookupMade event <;> simp [made]

end TcpMysqlServer

end TcpMysql
