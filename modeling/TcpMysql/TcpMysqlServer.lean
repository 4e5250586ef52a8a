import TcpMysql.ConnectionTableInvariant
import TcpMysql.SqlCache

/-!
# The server

The connection table and the cache together, as the callbacks of one event loop
use them.  `onMessage` first brings the connection to the front of the LRU list,
then finds the reply, then sends it; a fault on the way ends the process, with
everything before it done.

The server also records the texts it looked up and the replies it handed to
`send`.
-/

namespace TcpMysql

/-- A text that `onMessage` looked up in `sqlchecklist_`, and whether it was
there. -/
structure Lookup where
  conn : ConnId
  msg : Bytes
  found : Bool
  deriving DecidableEq

structure TcpMysqlServer (Wheel : Type → Type) (Db : Type) where
  table : ConnectionTable
  cache : SqlCache Wheel Db
  lookups : List Lookup
  sends : List (ConnId × Bytes)

/-- What the loop calls the server for.  A `read` is a `handleRead` that received
a chunk. -/
inductive ServerEvent
  | up (conn : ConnId)
  | read (conn : ConnId) (chunk : Bytes) (outcome : WriteOutcome)
  | down (conn : ConnId)
  | writable (conn : ConnId) (outcome : WriteOutcome)
  | timer
  | pendingFunctors

/-- The events that concern the connection table only. -/
def ServerEvent.tableEvent : ServerEvent → Option TableEvent
  | .up conn => some (.up conn)
  | .read _ _ _ => none
  | .down conn => some (.down conn)
  | .writable conn outcome => some (.writable conn outcome)
  | .timer => none
  | .pendingFunctors => some .pendingFunctors

/-- The connection and the chunk of a read. -/
def ServerEvent.readOf : ServerEvent → Option (ConnId × Bytes)
  | .read conn chunk _ => some (conn, chunk)
  | _ => none

theorem ServerEvent.kinds (event : ServerEvent) :
    (∃ conn chunk outcome, event = .read conn chunk outcome) ∨ event = .timer ∨
      ∃ tableEvent, event.tableEvent = some tableEvent := by
  cases event <;> simp [tableEvent]

namespace TcpMysqlServer

variable {Wheel : Type → Type} [CircularBuffer Wheel] {Db : Type}

/-- Computations that change the server.  The changes made before a fault stay. -/
abbrev ServerM (Wheel : Type → Type) (Db : Type) :=
  EStateM Fault (TcpMysqlServer Wheel Db)

def new (Wheel : Type → Type) [CircularBuffer Wheel] (idleSeconds : Nat) (db : Db) :
    TcpMysqlServer Wheel Db where
  table := .new
  cache := .new Wheel idleSeconds db
  lookups := []
  sends := []

def onTable (change : ConnectionTable → Except Fault ConnectionTable) :
    ServerM Wheel Db Unit := do
  match change (← get).table with
  | .error fault => throw fault
  | .ok table => modify fun server => { server with table := table }

def onCache {Value : Type} (computation : SqlCache.CacheM Wheel Db Value) :
    ServerM Wheel Db Value :=
  fun server =>
    match computation.run server.cache with
    | .ok value cache => .ok value { server with cache := cache }
    | .error fault cache => .error fault { server with cache := cache }

/-- Record the lookup of a text. -/
def recordLookup (conn : ConnId) (msg : Bytes) : ServerM Wheel Db Unit :=
  modify fun server =>
    { server with
      lookups := server.lookups ++
        [⟨conn, msg, server.cache.contains msg⟩] }

/-- `TcpMysqlServer::onMessage`, after the text has been taken from the
buffer. -/
def onMessage (reading : Reading) (process : Process Db) (conn : ConnId)
    (msg : Bytes) (outcome : WriteOutcome) : ServerM Wheel Db Unit := do
  onTable (·.touch conn)
  recordLookup conn msg
  let echo ← onCache (SqlCache.answer reading process msg)
  modify fun server => { server with sends := server.sends ++ [(conn, echo)] }
  onTable (·.send conn echo outcome)

/-- `TcpConnection::handleRead` with data, which calls `onMessage`. -/
def handleRead (reading : Reading) (process : Process Db) (conn : ConnId)
    (chunk : Bytes) (outcome : WriteOutcome) : ServerM Wheel Db Unit := do
  let msg ← modifyGet fun server =>
    ((server.table.receive conn chunk).1,
      { server with table := (server.table.receive conn chunk).2 })
  onMessage reading process conn msg outcome

def step (SIZECONN : Nat) (reading : Reading) (process : Process Db) :
    ServerEvent → ServerM Wheel Db Unit
  | .up conn => onTable (·.newConnection SIZECONN conn)
  | .read conn chunk outcome => handleRead reading process conn chunk outcome
  | .down conn => onTable (·.handleClose SIZECONN conn)
  | .writable conn outcome => onTable (·.step SIZECONN (.writable conn outcome))
  | .timer => onCache SqlCache.onTimer
  | .pendingFunctors => onTable (·.doPendingFunctors SIZECONN)

def Offered (server : TcpMysqlServer Wheel Db) : ServerEvent → Prop
  | .up conn => server.table.state conn = .kConnecting
  | .read conn chunk _ => server.table.CanDeliver conn ∧ chunk ≠ []
  | .down conn => server.table.Live conn
  | .writable conn _ => (server.table.conns conn).channel_.writing = true
  | .timer => True
  | .pendingFunctors => True

instance (server : TcpMysqlServer Wheel Db) (event : ServerEvent) :
    Decidable (server.Offered event) :=
  match event with
  | .up _ => inferInstanceAs (Decidable (_ = _))
  | .read _ _ _ => inferInstanceAs (Decidable (_ ∧ _))
  | .down conn => inferInstanceAs (Decidable (server.table.Live conn))
  | .writable _ _ => inferInstanceAs (Decidable (_ = _))
  | .timer => inferInstanceAs (Decidable True)
  | .pendingFunctors => inferInstanceAs (Decidable True)

def system (SIZECONN : Nat) (reading : Reading) (process : Process Db) :
    EventSystem (TcpMysqlServer Wheel Db) ServerEvent where
  next server event :=
    okState ((step SIZECONN reading process event).run server)
  offered := Offered

instance (SIZECONN : Nat) (reading : Reading) (process : Process Db)
    (server : TcpMysqlServer Wheel Db) (event : ServerEvent) :
    Decidable ((system SIZECONN reading process).offered server event) :=
  inferInstanceAs (Decidable (server.Offered event))

/-- The server after a list of events, or at the first fault. -/
def runAll (SIZECONN : Nat) (reading : Reading) (process : Process Db) :
    TcpMysqlServer Wheel Db → List ServerEvent → TcpMysqlServer Wheel Db
  | server, [] => server
  | server, event :: events =>
      match (step SIZECONN reading process event).run server with
      | .ok _ after => runAll SIZECONN reading process after events
      | .error _ after => after

/-! ## How the parts run -/

omit [CircularBuffer Wheel] in
@[simp]
theorem run_onTable (server : TcpMysqlServer Wheel Db)
    (change : ConnectionTable → Except Fault ConnectionTable) :
    (onTable change).run server =
      match change server.table with
      | .error fault => .error fault server
      | .ok table => .ok () { server with table := table } := by
  cases changeEq : change server.table <;> simp [onTable, changeEq]

omit [CircularBuffer Wheel] in
@[simp]
theorem run_onCache {Value : Type} (server : TcpMysqlServer Wheel Db)
    (computation : SqlCache.CacheM Wheel Db Value) :
    (onCache computation).run server =
      match computation.run server.cache with
      | .ok value cache => .ok value { server with cache := cache }
      | .error fault cache => .error fault { server with cache := cache } :=
  rfl

omit [CircularBuffer Wheel] in
theorem onTable_cases {server after : TcpMysqlServer Wheel Db}
    {change : ConnectionTable → Except Fault ConnectionTable} {value : Unit}
    (ran : (onTable change).run server = .ok value after) :
    ∃ table, change server.table = .ok table ∧
      after = { server with table := table } := by
  cases changeEq : change server.table with
  | error fault => simp [changeEq] at ran
  | ok table =>
      simp only [run_onTable, changeEq] at ran
      exact ⟨table, rfl, (EStateM.Result.ok.inj ran).2.symm⟩

/-- The server when `onMessage` turns to the cache: the connection is in front,
and the text is being looked up. -/
def lookedUp (server : TcpMysqlServer Wheel Db) (touched : ConnectionTable)
    (conn : ConnId) (msg : Bytes) : TcpMysqlServer Wheel Db :=
  { server with
    table := touched
    lookups := server.lookups ++
      [⟨conn, msg, server.cache.contains msg⟩] }

/-- The server when `onMessage` calls `send`. -/
def replying (server : TcpMysqlServer Wheel Db) (cache : SqlCache Wheel Db) (conn : ConnId)
    (echo : Bytes) : TcpMysqlServer Wheel Db :=
  { server with cache := cache, sends := server.sends ++ [(conn, echo)] }

theorem step_of_tableEvent {event : ServerEvent} {tableEvent : TableEvent}
    (eventEq : event.tableEvent = some tableEvent) (SIZECONN : Nat)
    (reading : Reading) (process : Process Db) :
    (step SIZECONN reading process event : ServerM Wheel Db Unit) =
      onTable (·.step SIZECONN tableEvent) := by
  cases event <;> cases eventEq <;> rfl

omit [CircularBuffer Wheel] in
theorem offered_of_tableEvent {event : ServerEvent} {tableEvent : TableEvent}
    (eventEq : event.tableEvent = some tableEvent) (server : TcpMysqlServer Wheel Db) :
    server.Offered event ↔ server.table.Offered tableEvent := by
  cases event <;> cases eventEq <;> rfl

section Read

variable {server : TcpMysqlServer Wheel Db} {reading : Reading} {process : Process Db}
  {conn : ConnId} {chunk : Bytes} {outcome : WriteOutcome}
  {touched : ConnectionTable} {cache : SqlCache Wheel Db}

/-- Without a good iterator nothing is looked up. -/
theorem run_handleRead_touch_error {fault : Fault}
    (touchEq : (server.table.receive conn chunk).2.touch conn = .error fault) :
    (handleRead reading process conn chunk outcome).run server =
      .error fault { server with table := (server.table.receive conn chunk).2 } := by
  simp [handleRead, onMessage, touchEq]

theorem run_handleRead_answer_error {fault : Fault}
    (touchEq : (server.table.receive conn chunk).2.touch conn = .ok touched)
    (answerEq : (SqlCache.answer reading process
      (server.table.receive conn chunk).1).run server.cache = .error fault cache) :
    (handleRead reading process conn chunk outcome).run server =
      .error fault
        { server.lookedUp touched conn (server.table.receive conn chunk).1 with
          cache := cache } := by
  simp [handleRead, onMessage, recordLookup, lookedUp, touchEq, answerEq]

theorem run_handleRead_answered {echo : Bytes}
    (touchEq : (server.table.receive conn chunk).2.touch conn = .ok touched)
    (answerEq : (SqlCache.answer reading process
      (server.table.receive conn chunk).1).run server.cache = .ok echo cache) :
    (handleRead reading process conn chunk outcome).run server =
      (onTable (·.send conn echo outcome)).run
        ((server.lookedUp touched conn (server.table.receive conn chunk).1).replying
          cache conn echo) := by
  simp [handleRead, onMessage, recordLookup, lookedUp, replying, touchEq, answerEq]

/-- Everything a completed read has done. -/
theorem handleRead_cases {after : TcpMysqlServer Wheel Db} {value : Unit}
    (ran : (handleRead reading process conn chunk outcome).run server =
      .ok value after) :
    ∃ touched echo cache table,
      (server.table.receive conn chunk).2.touch conn = .ok touched ∧
        (SqlCache.answer reading process
            (server.table.receive conn chunk).1).run server.cache = .ok echo cache ∧
          touched.send conn echo outcome = .ok table ∧
            after =
              { (server.lookedUp touched conn
                  (server.table.receive conn chunk).1).replying cache conn echo with
                table := table } := by
  cases touchEq : (server.table.receive conn chunk).2.touch conn with
  | error fault =>
      rw [run_handleRead_touch_error touchEq] at ran
      simp at ran
  | ok touched =>
      cases answerEq : (SqlCache.answer reading process
          (server.table.receive conn chunk).1).run server.cache with
      | error fault cache =>
          rw [run_handleRead_answer_error touchEq answerEq] at ran
          simp at ran
      | ok echo cache =>
          rw [run_handleRead_answered touchEq answerEq] at ran
          obtain ⟨table, sendEq, afterEq⟩ := onTable_cases ran
          exact ⟨touched, echo, cache, table, rfl, rfl, sendEq, afterEq⟩

end Read

end TcpMysqlServer

end TcpMysql
