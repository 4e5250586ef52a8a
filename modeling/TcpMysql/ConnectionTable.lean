import TcpMysql.EventRuns
import TcpMysql.StableList
import TcpMysql.TcpConnection
import Mathlib.Data.List.AList

/-!
# The connection table and its LRU list

The part of the server that decides who may stay connected: the connections
themselves, the map `connections_` of `TcpServer`, the functors its loop still
has to run, and the two LRU structures of `TcpMysqlServer`.  `onConnection` is
one callback for both ends of a connection's life, so it appears inside
`newConnection` and inside `handleClose`.

A connection is named by a number, which stands for the address of its
`TcpConnection`; an iterator into the LRU list is the handle of a node, and
`none` is a default-constructed iterator.
-/

namespace TcpMysql

abbrev ConnId := Nat

/-- `std::list<TcpConnectionPtr>::iterator`. -/
abbrev Iter := Option Nat

structure ConnectionTable where
  conns : ConnId → TcpConnection
  connections_ : List ConnId
  pendingFunctors_ : List ConnId
  lrulist_ : StableList ConnId
  lrumap_ : AList (fun _ : ConnId => Iter)

/-- What the loop does with the table.  A `message` carries the bytes that were
read and the reply that the rest of `onMessage` found for them. -/
inductive TableEvent
  | up (conn : ConnId)
  | message (conn : ConnId) (chunk echo : Bytes) (outcome : WriteOutcome)
  | down (conn : ConnId)
  | writable (conn : ConnId) (outcome : WriteOutcome)
  | pendingFunctors

namespace ConnectionTable

def new : ConnectionTable where
  conns _ := .new
  connections_ := []
  pendingFunctors_ := []
  lrulist_ := .empty
  lrumap_ := ∅

/-- The state of a connection. -/
def state (table : ConnectionTable) (conn : ConnId) : StateE :=
  (table.conns conn).state_

def setConn (table : ConnectionTable) (conn : ConnId) (value : TcpConnection) :
    ConnectionTable :=
  { table with conns := Function.update table.conns conn value }

/-- `push_front` of a connection, with its map entry. -/
def enlist (table : ConnectionTable) (conn : ConnId) : ConnectionTable :=
  let list := table.lrulist_.pushFront conn
  { table with
    lrulist_ := list
    lrumap_ := table.lrumap_.insert conn list.begin }

/-- Shut the connection at the back down and drop it from the map and the
list. -/
def evictBack (table : ConnectionTable) (back : ConnId) : ConnectionTable :=
  { table.setConn back (table.conns back).shutdown with
    lrumap_ := table.lrumap_.erase back
    lrulist_ := table.lrulist_.popBack }

/-- `TcpMysqlServer::onConnection`. -/
def onConnection (SIZECONN : Nat) (table : ConnectionTable) (conn : ConnId) :
    Except Fault ConnectionTable :=
  if SIZECONN ≤ table.lrulist_.size then
    match table.lrulist_.back with
    | none => .error .emptyContainer
    | some back => .ok ((table.evictBack back).enlist conn)
  else
    .ok (table.enlist conn)

/-- `TcpServer::newConnection` and `connectEstablished`, up to the connection
callback. -/
def accepted (table : ConnectionTable) (conn : ConnId) : ConnectionTable :=
  { table.setConn conn (table.conns conn).established with
    connections_ := conn :: table.connections_ }

def newConnection (SIZECONN : Nat) (table : ConnectionTable) (conn : ConnId) :
    Except Fault ConnectionTable :=
  (table.accepted conn).onConnection SIZECONN conn

/-- `TcpConnection::handleClose`, up to the connection callback. -/
def closing (table : ConnectionTable) (conn : ConnId) : ConnectionTable :=
  table.setConn conn (table.conns conn).closed

/-- `TcpServer::removeConnectionInLoop`: `connectDestroyed` is queued. -/
def removeConnectionInLoop (table : ConnectionTable) (conn : ConnId) :
    ConnectionTable :=
  { table with
    connections_ := table.connections_.erase conn
    pendingFunctors_ := table.pendingFunctors_ ++ [conn] }

def handleClose (SIZECONN : Nat) (table : ConnectionTable) (conn : ConnId) :
    Except Fault ConnectionTable := do
  let called ← (table.closing conn).onConnection SIZECONN conn
  return called.removeConnectionInLoop conn

/-- The last line of `connectDestroyed`. -/
def removeChannel (table : ConnectionTable) (conn : ConnId) : ConnectionTable :=
  table.setConn conn
    { table.conns conn with channel_ := (table.conns conn).channel_.remove }

def connectDestroyed (SIZECONN : Nat) (table : ConnectionTable)
    (conn : ConnId) : Except Fault ConnectionTable :=
  if table.state conn = .kConnected then do
    let called ← (table.closing conn).onConnection SIZECONN conn
    return called.removeChannel conn
  else
    return table.removeChannel conn

def doPendingFunctors (SIZECONN : Nat) (table : ConnectionTable) :
    Except Fault ConnectionTable :=
  table.pendingFunctors_.foldlM (connectDestroyed SIZECONN)
    { table with pendingFunctors_ := [] }

/-- Read from a connection and take all its input. -/
def receive (table : ConnectionTable) (conn : ConnId) (chunk : Bytes) :
    Bytes × ConnectionTable :=
  let received := (table.conns conn).receive chunk
  (received.1, table.setConn conn received.2)

/-- The two LRU lines of `onMessage`.  The subscript of the map gives a
default-constructed iterator for a connection without an entry. -/
def touch (table : ConnectionTable) (conn : ConnId) :
    Except Fault ConnectionTable :=
  match (table.lrumap_.lookup conn).getD none with
  | none => .error .singularIterator
  | some node =>
      match table.lrulist_.moveToFront node with
      | none => .error .danglingIterator
      | some list =>
          .ok
            { table with
              lrulist_ := list
              lrumap_ := table.lrumap_.insert conn list.begin }

def send (table : ConnectionTable) (conn : ConnId) (echo : Bytes)
    (outcome : WriteOutcome) : Except Fault ConnectionTable := do
  let sent ← (table.conns conn).send echo outcome
  return table.setConn conn sent

def step (SIZECONN : Nat) (table : ConnectionTable) :
    TableEvent → Except Fault ConnectionTable
  | .up conn => table.newConnection SIZECONN conn
  | .message conn chunk echo outcome => do
      let touched ← (table.receive conn chunk).2.touch conn
      touched.send conn echo outcome
  | .down conn => table.handleClose SIZECONN conn
  | .writable conn outcome =>
      .ok (table.setConn conn ((table.conns conn).handleWrite outcome))
  | .pendingFunctors => table.doPendingFunctors SIZECONN

/-- A connection that has been UP and not yet DOWN. -/
def Live (table : ConnectionTable) (conn : ConnId) : Prop :=
  table.state conn = .kConnected ∨ table.state conn = .kDisconnecting

/-- A connection that can still deliver messages. -/
def CanDeliver (table : ConnectionTable) (conn : ConnId) : Prop :=
  table.Live conn ∧ (table.conns conn).channel_.reading = true

/-- The events the loop can produce: each connection comes UP once, then
delivers messages, then goes DOWN once. -/
def Offered (table : ConnectionTable) : TableEvent → Prop
  | .up conn => table.state conn = .kConnecting
  | .message conn chunk _ _ => table.CanDeliver conn ∧ chunk ≠ []
  | .down conn => table.Live conn
  | .writable conn _ => (table.conns conn).channel_.writing = true
  | .pendingFunctors => True

instance (table : ConnectionTable) (conn : ConnId) : Decidable (table.Live conn) :=
  inferInstanceAs (Decidable (_ ∨ _))

instance (table : ConnectionTable) (conn : ConnId) :
    Decidable (table.CanDeliver conn) :=
  inferInstanceAs (Decidable (_ ∧ _))

instance (table : ConnectionTable) (event : TableEvent) :
    Decidable (table.Offered event) :=
  match event with
  | .up _ => inferInstanceAs (Decidable (_ = _))
  | .message _ _ _ _ => inferInstanceAs (Decidable (_ ∧ _))
  | .down conn => inferInstanceAs (Decidable (table.Live conn))
  | .writable _ _ => inferInstanceAs (Decidable (_ = _))
  | .pendingFunctors => inferInstanceAs (Decidable True)

def system (SIZECONN : Nat) : EventSystem ConnectionTable TableEvent where
  next table event := (table.step SIZECONN event).toOption
  offered := Offered

instance (SIZECONN : Nat) (table : ConnectionTable) (event : TableEvent) :
    Decidable ((system SIZECONN).offered table event) :=
  inferInstanceAs (Decidable (table.Offered event))

/-- The call of `onConnection` that an event leads to: the connection it is made
for, and the table at that moment. -/
def connectionCall (table : ConnectionTable) :
    TableEvent → Option (ConnId × ConnectionTable)
  | .up conn => some (conn, table.accepted conn)
  | .down conn => some (conn, table.closing conn)
  | _ => none

/-! ## What each operation does to the parts of the table -/

@[simp]
theorem setConn_self (table : ConnectionTable) (conn : ConnId)
    (value : TcpConnection) : (table.setConn conn value).conns conn = value := by
  simp [setConn]

theorem setConn_of_ne (table : ConnectionTable) {conn other : ConnId}
    (value : TcpConnection) (differs : other ≠ conn) :
    (table.setConn conn value).conns other = table.conns other := by
  simp [setConn, differs]

theorem setConn_state (table : ConnectionTable) (conn other : ConnId)
    (value : TcpConnection) :
    (table.setConn conn value).state other =
      if other = conn then value.state_ else table.state other := by
  by_cases same : other = conn
  · subst same
    simp [state]
  · simp [state, setConn_of_ne _ _ same, same]

@[simp]
theorem enlist_state (table : ConnectionTable) (conn other : ConnId) :
    (table.enlist conn).state other = table.state other :=
  rfl

@[simp]
theorem enlist_nodes (table : ConnectionTable) (conn : ConnId) :
    (table.enlist conn).lrulist_.nodes =
      (table.lrulist_.fresh, conn) :: table.lrulist_.nodes :=
  rfl

@[simp]
theorem enlist_lrumap (table : ConnectionTable) (conn : ConnId) :
    (table.enlist conn).lrumap_ =
      table.lrumap_.insert conn (some table.lrulist_.fresh) :=
  rfl

@[simp]
theorem evictBack_lrumap (table : ConnectionTable) (back : ConnId) :
    (table.evictBack back).lrumap_ = table.lrumap_.erase back :=
  rfl

@[simp]
theorem evictBack_lrulist (table : ConnectionTable) (back : ConnId) :
    (table.evictBack back).lrulist_ = table.lrulist_.popBack :=
  rfl

/-- Eviction changes one state, and only from `kConnected` to
`kDisconnecting`. -/
theorem evictBack_state (table : ConnectionTable) (back conn : ConnId) :
    (table.evictBack back).state conn =
      if conn = back ∧ table.state back = .kConnected then .kDisconnecting
      else table.state conn := by
  have stateEq : (table.evictBack back).state conn =
      (table.setConn back (table.conns back).shutdown).state conn := rfl
  rw [stateEq, setConn_state]
  by_cases same : conn = back
  · subst same
    simp [TcpConnection.shutdown_state, state]
  · simp [same]

theorem evictBack_reading (table : ConnectionTable) (back conn : ConnId) :
    ((table.evictBack back).conns conn).channel_.reading =
      (table.conns conn).channel_.reading := by
  by_cases same : conn = back
  · subst same
    simp [evictBack]
  · simp [evictBack, setConn_of_ne _ _ same]

theorem accepted_state (table : ConnectionTable) (conn other : ConnId) :
    (table.accepted conn).state other =
      if other = conn then .kConnected else table.state other :=
  table.setConn_state conn other (table.conns conn).established

theorem closing_state (table : ConnectionTable) (conn other : ConnId) :
    (table.closing conn).state other =
      if other = conn then .kDisconnected else table.state other :=
  table.setConn_state conn other (table.conns conn).closed

theorem onConnection_cases {SIZECONN : Nat} {table after : ConnectionTable}
    {conn : ConnId} (called : table.onConnection SIZECONN conn = .ok after) :
    (table.lrulist_.size < SIZECONN ∧ after = table.enlist conn) ∨
      SIZECONN ≤ table.lrulist_.size ∧
        ∃ back, table.lrulist_.back = some back ∧
          after = (table.evictBack back).enlist conn := by
  unfold onConnection at called
  split at called
  · rename_i full
    split at called
    · simp at called
    · rename_i back backEq
      exact .inr ⟨full, back, backEq, (Except.ok.inj called).symm⟩
  · rename_i notFull
    exact .inl ⟨Nat.lt_of_not_le notFull, (Except.ok.inj called).symm⟩

theorem onConnection_returns {SIZECONN : Nat} (positive : 1 ≤ SIZECONN)
    (table : ConnectionTable) (conn : ConnId) :
    ∃ after, table.onConnection SIZECONN conn = .ok after := by
  unfold onConnection
  split
  · rename_i full
    obtain ⟨back, backEq⟩ :=
      StableList.exists_back (Nat.lt_of_lt_of_le positive full)
    simp [backEq]
  · exact ⟨_, rfl⟩

theorem connectionCall_cases {table called : ConnectionTable} {event : TableEvent}
    {caller : ConnId}
    (callEq : table.connectionCall event = some (caller, called)) :
    (event = .up caller ∧ called = table.accepted caller) ∨
      (event = .down caller ∧ called = table.closing caller) := by
  cases event with
  | up conn =>
      obtain ⟨rfl, rfl⟩ := Prod.mk.inj (Option.some.inj callEq)
      exact .inl ⟨rfl, rfl⟩
  | down conn =>
      obtain ⟨rfl, rfl⟩ := Prod.mk.inj (Option.some.inj callEq)
      exact .inr ⟨rfl, rfl⟩
  | message => simp [connectionCall] at callEq
  | writable => simp [connectionCall] at callEq
  | pendingFunctors => simp [connectionCall] at callEq

/-- What the callbacks other than `onConnection` leave alone. -/
structure SameConnections (before after : ConnectionTable) : Prop where
  state : ∀ conn, after.state conn = before.state conn
  reading : ∀ conn, (after.conns conn).channel_.reading =
    (before.conns conn).channel_.reading
  connections : after.connections_ = before.connections_

namespace SameConnections

theorem refl (table : ConnectionTable) : SameConnections table table :=
  ⟨fun _ => rfl, fun _ => rfl, rfl⟩

theorem trans {first second third : ConnectionTable}
    (left : SameConnections first second) (right : SameConnections second third) :
    SameConnections first third :=
  ⟨fun conn => (right.state conn).trans (left.state conn),
    fun conn => (right.reading conn).trans (left.reading conn),
    right.connections.trans left.connections⟩

theorem of_setConn (table : ConnectionTable) (conn : ConnId)
    {value : TcpConnection} (stateEq : value.state_ = table.state conn)
    (readingEq : value.channel_.reading =
      (table.conns conn).channel_.reading) :
    SameConnections table (table.setConn conn value) := by
  refine ⟨fun other => ?_, fun other => ?_, rfl⟩
  · rw [setConn_state]
    split
    · rename_i same
      rw [same, stateEq]
    · rfl
  · by_cases same : other = conn
    · subst same
      simpa using readingEq
    · rw [setConn_of_ne _ _ same]

end SameConnections

/-- The LRU structures are the same. -/
structure SameLru (before after : ConnectionTable) : Prop where
  list : after.lrulist_ = before.lrulist_
  map : after.lrumap_ = before.lrumap_

theorem touch_cases {table after : ConnectionTable} {conn : ConnId}
    (touched : table.touch conn = .ok after) :
    ∃ node list, table.lrumap_.lookup conn = some (some node) ∧
      table.lrulist_.moveToFront node = some list ∧
        after =
          { table with
            lrulist_ := list
            lrumap_ := table.lrumap_.insert conn (some node) } := by
  unfold touch at touched
  cases found : table.lrumap_.lookup conn with
  | none => simp [found] at touched
  | some iter =>
      cases iter with
      | none => simp [found] at touched
      | some node =>
          simp only [found, Option.getD_some] at touched
          cases moved : table.lrulist_.moveToFront node with
          | none => simp [moved] at touched
          | some list =>
              simp only [moved, StableList.moveToFront_begin moved] at touched
              exact ⟨node, list, rfl, moved, (Except.ok.inj touched).symm⟩

theorem touch_returns {table : ConnectionTable} {conn other : ConnId} {node : Nat}
    (found : table.lrumap_.lookup conn = some (some node))
    (member : (node, other) ∈ table.lrulist_.nodes) :
    ∃ after, table.touch conn = .ok after := by
  obtain ⟨list, moved⟩ := StableList.moveToFront_of_mem member
  simp [touch, found, moved]

theorem receive_sameConnections (table : ConnectionTable) (conn : ConnId)
    (chunk : Bytes) : SameConnections table (table.receive conn chunk).2 :=
  SameConnections.of_setConn table conn rfl rfl

theorem send_cases {table after : ConnectionTable} {conn : ConnId}
    {echo : Bytes} {outcome : WriteOutcome}
    (sendEq : table.send conn echo outcome = .ok after) :
    ∃ sent, (table.conns conn).send echo outcome = .ok sent ∧
      after = table.setConn conn sent := by
  obtain ⟨sent, connSend, rest⟩ := Except.bind_eq_ok.mp sendEq
  exact ⟨sent, connSend, (Except.ok.inj rest).symm⟩

/-- A message that is handled found its node and brought it to the front. -/
theorem step_message_cases {SIZECONN : Nat} {table after : ConnectionTable}
    {conn : ConnId} {chunk echo : Bytes} {outcome : WriteOutcome}
    (stepTo : table.step SIZECONN (.message conn chunk echo outcome) = .ok after) :
    ∃ node, table.lrumap_.lookup conn = some (some node) ∧
      table.lrulist_.moveToFront node = some after.lrulist_ ∧
        after.lrumap_ = table.lrumap_.insert conn (some node) ∧
          after.pendingFunctors_ = table.pendingFunctors_ ∧
            SameConnections table after := by
  obtain ⟨touched, touchEq, sendEq⟩ := Except.bind_eq_ok.mp stepTo
  obtain ⟨node, list, found, moved, rfl⟩ := touch_cases touchEq
  obtain ⟨sent, connSend, rfl⟩ := send_cases sendEq
  refine ⟨node, found, moved, rfl, rfl, ?_⟩
  have sent := SameConnections.of_setConn _ conn (TcpConnection.send_state connSend)
    (TcpConnection.send_sameInput connSend).reading
  exact (receive_sameConnections table conn chunk).trans
    ⟨sent.state, sent.reading, sent.connections⟩

theorem step_writable_cases {SIZECONN : Nat} {table after : ConnectionTable}
    {conn : ConnId} {outcome : WriteOutcome}
    (stepTo : table.step SIZECONN (.writable conn outcome) = .ok after) :
    SameLru table after ∧ after.pendingFunctors_ = table.pendingFunctors_ ∧
      SameConnections table after := by
  obtain rfl := Except.ok.inj stepTo
  exact ⟨⟨rfl, rfl⟩, rfl,
    SameConnections.of_setConn table conn (TcpConnection.handleWrite_state _ _)
      (TcpConnection.handleWrite_sameInput _ _).reading⟩

theorem step_down_cases {SIZECONN : Nat} {table after : ConnectionTable}
    {conn : ConnId} (stepTo : table.step SIZECONN (.down conn) = .ok after) :
    ∃ called, (table.closing conn).onConnection SIZECONN conn = .ok called ∧
      after = called.removeConnectionInLoop conn := by
  obtain ⟨called, callEq, rest⟩ := Except.bind_eq_ok.mp stepTo
  exact ⟨called, callEq, (Except.ok.inj rest).symm⟩

theorem removeChannel_same (table : ConnectionTable) (conn : ConnId) :
    SameLru table (table.removeChannel conn) ∧
      (table.removeChannel conn).pendingFunctors_ = table.pendingFunctors_ ∧
        SameConnections table (table.removeChannel conn) :=
  ⟨⟨rfl, rfl⟩, rfl, SameConnections.of_setConn table conn rfl rfl⟩

/-- `connectDestroyed` of connections that are no longer connected only takes
their channels out of the loop. -/
theorem foldlM_connectDestroyed {SIZECONN : Nat} {conns : List ConnId}
    {table after : ConnectionTable}
    (folded : conns.foldlM (connectDestroyed SIZECONN) table = .ok after)
    (notConnected : ∀ conn ∈ conns, table.state conn ≠ .kConnected) :
    SameLru table after ∧ after.pendingFunctors_ = table.pendingFunctors_ ∧
      SameConnections table after := by
  induction conns generalizing table with
  | nil =>
      obtain rfl := Except.ok.inj folded
      exact ⟨⟨rfl, rfl⟩, rfl, .refl table⟩
  | cons conn conns ih =>
      rw [List.foldlM_cons, connectDestroyed,
        if_neg (notConnected conn (by simp))] at folded
      obtain ⟨sameLru, samePending, same⟩ := table.removeChannel_same conn
      obtain ⟨lru, pending, connections⟩ := ih folded
        (fun other member => by
          rw [same.state]
          exact notConnected other (by simp [member]))
      exact ⟨⟨lru.list.trans sameLru.list, lru.map.trans sameLru.map⟩,
        pending.trans samePending, same.trans connections⟩

theorem step_pendingFunctors_cases {SIZECONN : Nat}
    {table after : ConnectionTable}
    (notConnected : ∀ conn ∈ table.pendingFunctors_,
      table.state conn ≠ .kConnected)
    (stepTo : table.step SIZECONN .pendingFunctors = .ok after) :
    SameLru table after ∧ after.pendingFunctors_ = [] ∧
      SameConnections table after := by
  have folded : table.pendingFunctors_.foldlM (connectDestroyed SIZECONN)
      { table with pendingFunctors_ := [] } = .ok after := stepTo
  obtain ⟨lru, pending, connections⟩ := foldlM_connectDestroyed folded notConnected
  exact ⟨⟨lru.list, lru.map⟩, pending,
    ⟨connections.state, connections.reading, connections.connections⟩⟩

end ConnectionTable

end TcpMysql
