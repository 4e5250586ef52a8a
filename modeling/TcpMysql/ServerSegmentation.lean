import TcpMysql.ServerAsWritten

/-!
# Statements and the chunks of the stream

The server has no notion of where a statement ends: `onMessage` takes whatever
one `handleRead` has delivered as one text.  So the texts that are looked up for
a connection are the chunks of its stream, whichever way the stream is cut, and
the database is handed those that are not in the index, up to their first zero
byte.
-/

namespace TcpMysql

namespace SqlCache

open CircularBuffer

variable {Wheel : Type → Type} [CircularBuffer Wheel] {Db : Type}

/-- The end of both branches of `onMessage`. -/
theorem insertBack_processed (cache : SqlCache Wheel Db) (stmt : StmtId) (echo : Bytes) :
    (endState ((do insertBack stmt; return echo : CacheM Wheel Db Bytes).run
      cache)).processed = cache.processed := by
  by_cases nonempty : elements cache.sqlstmtlist_ = []
  · simp [insertBack, nonempty, endState, -bind_pure_comp]
  · simp [insertBack, nonempty, endState, -bind_pure_comp]

theorem hit_processed (cache : SqlCache Wheel Db) (weak : StmtId) :
    (endState ((hit weak).run cache)).processed = cache.processed := by
  simp only [hit, EStateM.run_bind, EStateM.run_get]
  cases cache.lockStmt weak with
  | none => rfl
  | some sqlstmt =>
      simp only [deref, EStateM.run_pure]
      cases cache.lockPair sqlstmt.weaksql_ with
      | none => rfl
      | some sql => exact insertBack_processed cache weak sql.2

theorem miss_processed (cache : SqlCache Wheel Db) (reading : Reading)
    (process : Process Db) (msg : Bytes) :
    (endState ((miss reading process msg).run cache)).processed =
      cache.processed ++ [cStr msg] := by
  cases reading with
  | asWritten => rfl
  | freshStmt keepPairs => exact insertBack_processed _ cache.stmts.length _

/-- The database is asked exactly for the texts that are not in the index. -/
theorem answer_processed (cache : SqlCache Wheel Db) (reading : Reading)
    (process : Process Db) (msg : Bytes) :
    (endState ((answer reading process msg).run cache)).processed =
      if cache.contains msg then cache.processed else cache.processed ++ [cStr msg] := by
  cases found : cache.sqlchecklist_.lookup msg with
  | some weak =>
      have hitEq : (answer reading process msg).run cache = (hit weak).run cache := by
        simp [answer, found]
      rw [hitEq, hit_processed]
      simp [contains, found]
  | none =>
      have missEq : (answer reading process msg).run cache =
          (miss reading process msg).run cache := by
        simp [answer, found]
      rw [missEq, miss_processed]
      simp [contains, found]

omit [CircularBuffer Wheel] in
theorem expire_processed (cache : SqlCache Wheel Db) (stmt : StmtId) :
    (endState ((expire stmt).run cache)).processed = cache.processed := by
  simp only [expire, EStateM.run_bind, EStateM.run_get]
  cases cache.stmts[stmt]? with
  | none => rfl
  | some sqlstmt =>
      simp only [deref, EStateM.run_pure]
      cases cache.lockPair sqlstmt.weaksql_ <;> rfl

omit [CircularBuffer Wheel] in
theorem forM_expire_processed (cache : SqlCache Wheel Db) (bucket : Bucket) :
    (endState ((forM bucket expire : CacheM Wheel Db PUnit).run cache)).processed =
      cache.processed := by
  induction bucket generalizing cache with
  | nil => rfl
  | cons stmt bucket ih =>
      have first := expire_processed cache stmt
      rw [List.forM_cons, EStateM.run_bind]
      cases ran : (expire stmt).run cache with
      | ok value after =>
          rw [ran] at first
          exact (ih after).trans first
      | error fault after =>
          rw [ran] at first
          exact first

theorem onTimer_processed (cache : SqlCache Wheel Db) :
    (endState (onTimer.run cache)).processed = cache.processed := by
  simp only [onTimer, EStateM.run_bind, EStateM.run_get]
  split
  · rename_i nonempty
    have looped := forM_expire_processed cache (front cache.sqlstmtlist_ nonempty)
    simp only [EStateM.run_bind]
    cases ran : (forM (front cache.sqlstmtlist_ nonempty) expire :
        CacheM Wheel Db PUnit).run cache with
    | ok value after =>
        rw [ran] at looped
        exact looped
    | error fault after =>
        rw [ran] at looped
        exact looped
  · rfl

end SqlCache

namespace TcpMysqlServer

variable {Wheel : Type → Type} [CircularBuffer Wheel] {Db : Type}

/-- The texts looked up for a connection, in order. -/
def textsLookedUp (server : TcpMysqlServer Wheel Db) (conn : ConnId) : List Bytes :=
  server.lookups.filterMap fun lookup =>
    if lookup.conn = conn then some lookup.msg else none

/-- The texts handed to `process`, for all connections, in order. -/
def textsProcessed (server : TcpMysqlServer Wheel Db) : List Bytes :=
  server.cache.processed

/-- The chunk that a call of `handleRead` received for a connection, if the
connection has an entry in `lrumap_`. -/
def chunkRead (conn : ConnId) (server : TcpMysqlServer Wheel Db) :
    ServerEvent → Option Bytes
  | .read other chunk _ =>
      if other = conn ∧ (server.table.lrumap_.lookup other).isSome then some chunk
      else none
  | _ => none

/-- The chunks that the calls of a run received for a connection. -/
def chunksRead (conn : ConnId) (attempts : List (TcpMysqlServer Wheel Db × ServerEvent)) :
    List Bytes :=
  attempts.filterMap fun attempt => chunkRead conn attempt.1 attempt.2

/-- The texts that were looked up and not found, for all connections. -/
def textsNotFound (server : TcpMysqlServer Wheel Db) : List Bytes :=
  server.lookups.filterMap fun lookup =>
    if lookup.found then none else some lookup.msg

/-- The database has been handed the texts that were not in the index, each up to
its first zero byte. -/
def MissesAreLookups (server : TcpMysqlServer Wheel Db) : Prop :=
  server.textsProcessed = server.textsNotFound.map cStr

omit [CircularBuffer Wheel] in
theorem MissesAreLookups.of_onTable {server : TcpMysqlServer Wheel Db}
    (holds : server.MissesAreLookups)
    (change : ConnectionTable → Except Fault ConnectionTable) :
    (endState ((onTable change).run server)).MissesAreLookups := by
  rw [run_onTable]
  cases change server.table <;> exact holds

omit [CircularBuffer Wheel] in
theorem MissesAreLookups.lookedUp {server : TcpMysqlServer Wheel Db}
    (holds : server.MissesAreLookups) (touched : ConnectionTable) (conn : ConnId)
    (msg : Bytes) {cache : SqlCache Wheel Db}
    (processedEq : cache.processed =
      if server.cache.contains msg then server.cache.processed
      else server.cache.processed ++ [cStr msg]) :
    MissesAreLookups { server.lookedUp touched conn msg with cache := cache } := by
  unfold MissesAreLookups textsProcessed textsNotFound at holds ⊢
  simp only [TcpMysqlServer.lookedUp, processedEq, List.filterMap_append, List.map_append,
    ← holds]
  split
  · rename_i present
    simp [present]
  · rename_i absent
    simp [absent]

theorem handleRead_missesAreLookups {server : TcpMysqlServer Wheel Db}
    (holds : server.MissesAreLookups) (reading : Reading) (process : Process Db)
    (conn : ConnId) (chunk : Bytes) (outcome : WriteOutcome) :
    (endState ((handleRead reading process conn chunk outcome).run
      server)).MissesAreLookups := by
  cases touchEq : (server.table.receive conn chunk).2.touch conn with
  | error fault =>
      rw [run_handleRead_touch_error touchEq]
      exact holds
  | ok touched =>
      have processedEq := server.cache.answer_processed reading process
        (server.table.receive conn chunk).1
      cases answerEq : (SqlCache.answer reading process
          (server.table.receive conn chunk).1).run server.cache with
      | error fault cache =>
          rw [answerEq] at processedEq
          rw [run_handleRead_answer_error touchEq answerEq]
          exact holds.lookedUp touched conn _ processedEq
      | ok echo cache =>
          rw [answerEq] at processedEq
          have recorded := holds.lookedUp touched conn _ processedEq
          rw [run_handleRead_answered touchEq answerEq]
          apply MissesAreLookups.of_onTable
          exact recorded

theorem step_missesAreLookups {server : TcpMysqlServer Wheel Db}
    (holds : server.MissesAreLookups) (SIZECONN : Nat) (reading : Reading)
    (process : Process Db) (event : ServerEvent) :
    (endState ((step SIZECONN reading process event).run server)).MissesAreLookups := by
  rcases event.kinds with ⟨conn, chunk, outcome, rfl⟩ | rfl | ⟨tableEvent, eventEq⟩
  · exact handleRead_missesAreLookups holds reading process conn chunk outcome
  · have processedEq := server.cache.onTimer_processed
    rw [step, run_onCache]
    unfold MissesAreLookups textsProcessed textsNotFound at holds ⊢
    cases timerEq : SqlCache.onTimer.run server.cache with
    | ok value cache =>
        rw [timerEq] at processedEq
        simpa [endState, show cache.processed = _ from processedEq] using holds
    | error fault cache =>
        rw [timerEq] at processedEq
        simpa [endState, show cache.processed = _ from processedEq] using holds
  · rw [step_of_tableEvent eventEq]
    exact holds.of_onTable _

theorem runAll_missesAreLookups {SIZECONN : Nat} {reading : Reading}
    {process : Process Db} {server : TcpMysqlServer Wheel Db} {events : List ServerEvent}
    (holds : server.MissesAreLookups)
    (offers : (system SIZECONN reading process).Offers server events) :
    (runAll SIZECONN reading process server events).MissesAreLookups := by
  apply runAll_ends MissesAreLookups MissesAreLookups _ _ _ holds offers
  · intro before event value after beforeHolds _ ran
    have stepped := step_missesAreLookups beforeHolds SIZECONN reading process event
    rw [ran] at stepped
    exact stepped
  · intro before beforeHolds
    exact beforeHolds
  · intro before event beforeHolds
    exact step_missesAreLookups beforeHolds SIZECONN reading process event

omit [CircularBuffer Wheel] in
theorem lookupMade_chunkRead (server : TcpMysqlServer Wheel Db) (conn : ConnId)
    (event : ServerEvent) :
    ((server.lookupMade event).bind fun lookup =>
        if lookup.conn = conn then some lookup.msg else none) =
      chunkRead conn server event := by
  cases event with
  | read other chunk outcome =>
      by_cases entry : (server.table.lrumap_.lookup other).isSome
      · simp [lookupMade, chunkRead, entry]
      · simp [lookupMade, chunkRead, entry]
  | up => rfl
  | down => rfl
  | writable => rfl
  | timer => rfl
  | pendingFunctors => rfl

theorem textsLookedUp_eq_chunksRead {SIZECONN idleSeconds : Nat}
    (roomy : 1 ≤ SIZECONN) (reading : Reading) (process : Process Db) (db : Db)
    {events : List ServerEvent}
    (offers : (system SIZECONN reading process).Offers (new Wheel idleSeconds db) events)
    (conn : ConnId) :
    (runAll SIZECONN reading process (new Wheel idleSeconds db) events).textsLookedUp conn =
      chunksRead conn
        ((system SIZECONN reading process).attempts (new Wheel idleSeconds db) events) := by
  have lookupsEq := runAll_lookups roomy reading process
    (new_invariant SIZECONN idleSeconds db) offers
  rw [textsLookedUp, lookupsEq, List.filterMap_append, List.filterMap_filterMap]
  exact List.filterMap_congr fun attempt _ =>
    lookupMade_chunkRead attempt.1 conn attempt.2

/-- In every run, under every reading of line 74, the texts looked up for a
connection are the chunks that its reads received, and the database is handed
those not in the index, up to their first zero byte.  So two ways of cutting a
stream give the same texts exactly when they are the same. -/
theorem texts_are_chunks {SIZECONN idleSeconds : Nat} (roomy : 1 ≤ SIZECONN)
    (reading : Reading) (process : Process Db) (db : Db)
    (first second : List ServerEvent)
    (firstOffers : (system SIZECONN reading process).Offers (new Wheel idleSeconds db) first)
    (secondOffers :
      (system SIZECONN reading process).Offers (new Wheel idleSeconds db) second)
    (conn : ConnId) :
    (∀ events ∈ [first, second],
      (runAll SIZECONN reading process (new Wheel idleSeconds db) events).textsLookedUp conn =
          chunksRead conn
            ((system SIZECONN reading process).attempts (new Wheel idleSeconds db) events) ∧
        (runAll SIZECONN reading process (new Wheel idleSeconds db) events).textsProcessed =
          (runAll SIZECONN reading process
            (new Wheel idleSeconds db) events).textsNotFound.map cStr) ∧
      ((runAll SIZECONN reading process (new Wheel idleSeconds db) first).textsLookedUp conn =
          (runAll SIZECONN reading process
            (new Wheel idleSeconds db) second).textsLookedUp conn ↔
        chunksRead conn
            ((system SIZECONN reading process).attempts (new Wheel idleSeconds db) first) =
          chunksRead conn
            ((system SIZECONN reading process).attempts (new Wheel idleSeconds db) second)) := by
  have firstTexts := textsLookedUp_eq_chunksRead roomy reading process db firstOffers conn
  have secondTexts :=
    textsLookedUp_eq_chunksRead roomy reading process db secondOffers conn
  have noMisses : (new Wheel idleSeconds db).MissesAreLookups := rfl
  constructor
  · intro events member
    rcases List.mem_pair.mp member with rfl | rfl
    · exact ⟨firstTexts, runAll_missesAreLookups noMisses firstOffers⟩
    · exact ⟨secondTexts, runAll_missesAreLookups noMisses secondOffers⟩
  · rw [firstTexts, secondTexts]

/-- A stream of two bytes that arrives in one piece. -/
def arrivesWhole : List ServerEvent :=
  [.up 0, .read 0 [97, 98] (.room 64)]

/-- The same stream in two pieces. -/
def arrivesCut : List ServerEvent :=
  [.up 0, .read 0 [97] (.room 64), .read 0 [98] (.room 64)]

theorem texts_are_chunks_two_ways :
    (runAll 1000 (.freshStmt true) repeating (new BoundedList 5 ())
          arrivesWhole).textsLookedUp 0 =
        (runAll 1000 (.freshStmt true) repeating (new BoundedList 5 ())
          arrivesCut).textsLookedUp 0 ↔
      chunksRead 0
          ((system 1000 (.freshStmt true) repeating).attempts (new BoundedList 5 ()) arrivesWhole) =
        chunksRead 0
          ((system 1000 (.freshStmt true) repeating).attempts (new BoundedList 5 ()) arrivesCut) :=
  (texts_are_chunks (by decide : 1 ≤ 1000) (.freshStmt true) repeating () arrivesWhole
    arrivesCut (by decide +kernel) (by decide +kernel) 0).2

/-- The same stream gives other texts when it is cut. -/
def CutMatters (reading : Reading) : Prop :=
  (system 1000 reading repeating).Offers (new BoundedList 5 ()) arrivesWhole ∧
    (system 1000 reading repeating).Offers (new BoundedList 5 ()) arrivesCut ∧
      ((arrivesWhole.filterMap ServerEvent.readOf).map Prod.snd).flatten =
          ((arrivesCut.filterMap ServerEvent.readOf).map Prod.snd).flatten ∧
        (runAll 1000 reading repeating (new BoundedList 5 ()) arrivesWhole).textsLookedUp 0 ≠
          (runAll 1000 reading repeating (new BoundedList 5 ()) arrivesCut).textsLookedUp 0

instance (reading : Reading) : Decidable (CutMatters reading) :=
  inferInstanceAs (Decidable (_ ∧ _))

/-- The texts depend on how the stream is cut, whether or not the first message
throws. -/
theorem texts_depend_on_cut :
    CutMatters .asWritten ∧ CutMatters (.freshStmt true) := by
  decide +kernel

end TcpMysqlServer

end TcpMysql
