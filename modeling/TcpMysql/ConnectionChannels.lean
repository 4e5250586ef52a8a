import TcpMysql.ConnectionTableInvariant
import TcpMysql.TcpConnectionOutput

/-!
# The channels of the connections

What a connection asks of its channel follows its state.  It waits for input from
`connectEstablished` to `handleClose`, for room while its output buffer holds
bytes, and the loop knows its channel until `connectDestroyed` has been called.
-/

namespace TcpMysql

namespace TcpConnection

/-- The channel of a connection, by its state.  `pending` says that
`connectDestroyed` is still to be called. -/
def WellChannelled (conn : TcpConnection) (pending : Prop) : Prop :=
  match conn.state_ with
  | .kConnecting => conn = .new ∧ ¬pending
  | .kConnected | .kDisconnecting =>
      conn.channel_.reading = true ∧ conn.channel_.addedToLoop_ = true ∧
        conn.Synced ∧ ¬pending
  | .kDisconnected =>
      conn.channel_.reading = false ∧ conn.channel_.writing = false ∧
        (conn.channel_.addedToLoop_ = true ↔ pending)

/-- Established and not closed. -/
def Open (conn : TcpConnection) : Prop :=
  conn.state_ = .kConnected ∨ conn.state_ = .kDisconnecting

namespace WellChannelled

variable {conn : TcpConnection} {pending : Prop}

theorem connecting (well : conn.WellChannelled pending)
    (state : conn.state_ = .kConnecting) : conn = .new ∧ ¬pending := by
  simpa only [WellChannelled, state] using well

theorem opened (well : conn.WellChannelled pending) (isOpen : conn.Open) :
    conn.channel_.reading = true ∧ conn.channel_.addedToLoop_ = true ∧
      conn.Synced ∧ ¬pending := by
  rcases isOpen with state | state <;> simpa only [WellChannelled, state] using well

theorem of_open (isOpen : conn.Open) (reading : conn.channel_.reading = true)
    (added : conn.channel_.addedToLoop_ = true) (synced : conn.Synced)
    (notPending : ¬pending) : conn.WellChannelled pending := by
  rcases isOpen with state | state <;>
    simpa only [WellChannelled, state] using ⟨reading, added, synced, notPending⟩

theorem disconnected (well : conn.WellChannelled pending)
    (state : conn.state_ = .kDisconnected) :
    conn.channel_.reading = false ∧ conn.channel_.writing = false ∧
      (conn.channel_.addedToLoop_ = true ↔ pending) := by
  simpa only [WellChannelled, state] using well

theorem of_disconnected (state : conn.state_ = .kDisconnected)
    (reading : conn.channel_.reading = false) (writing : conn.channel_.writing = false)
    (added : conn.channel_.addedToLoop_ = true ↔ pending) :
    conn.WellChannelled pending := by
  simpa only [WellChannelled, state] using ⟨reading, writing, added⟩

theorem congr {pending' : Prop} (well : conn.WellChannelled pending)
    (same : pending' ↔ pending) : conn.WellChannelled pending' :=
  propext same ▸ well

end WellChannelled

variable {conn : TcpConnection} {pending : Prop}

theorem new_wellChannelled (notPending : ¬pending) :
    TcpConnection.new.WellChannelled pending :=
  ⟨rfl, notPending⟩

theorem WellChannelled.established (well : conn.WellChannelled pending)
    (state : conn.state_ = .kConnecting) : conn.established.WellChannelled pending := by
  obtain ⟨rfl, notPending⟩ := well.connecting state
  exact .of_open (.inl rfl) rfl rfl (by simp [Synced, TcpConnection.established, new,
    Channel.enableReading, Channel.new]) notPending

theorem Open.shutdown (isOpen : conn.Open) : conn.shutdown.Open := by
  unfold Open
  rw [shutdown_state]
  split
  · exact .inr rfl
  · exact isOpen

/-- `shutdown` has no effect on a connection that is not established. -/
theorem shutdown_of_not_connected (state : conn.state_ ≠ .kConnected) :
    conn.shutdown = conn :=
  if_neg state

theorem shutdown_output (conn : TcpConnection) :
    conn.shutdown.outputBuffer_ = conn.outputBuffer_ := by
  unfold TcpConnection.shutdown
  split <;> simp

theorem WellChannelled.shutdown (well : conn.WellChannelled pending) :
    conn.shutdown.WellChannelled pending := by
  by_cases state : conn.state_ = .kConnected
  · have isOpen : conn.Open := .inl state
    obtain ⟨reading, added, synced, notPending⟩ := well.opened isOpen
    refine .of_open isOpen.shutdown ?_ ?_ ?_ notPending
    · simpa using reading
    · simpa using added
    · simpa [Synced, shutdown_output] using synced
  · rwa [shutdown_of_not_connected state]

theorem closed_wellChannelled (conn : TcpConnection) :
    conn.closed.WellChannelled True :=
  .of_disconnected rfl rfl rfl (by simp [TcpConnection.closed, Channel.disableAll])

/-- The channel after `connectDestroyed`. -/
theorem WellChannelled.removed (well : conn.WellChannelled pending)
    (state : conn.state_ = .kDisconnected) :
    { conn with channel_ := conn.channel_.remove }.WellChannelled False := by
  obtain ⟨reading, writing, -⟩ := well.disconnected state
  exact .of_disconnected state reading writing (by simp [Channel.remove])

/-- Sending waits for room when it leaves something in the buffer of a channel that
does not wait for it yet. -/
theorem queueOutput_channel (conn : TcpConnection) (rest : Bytes) :
    (conn.queueOutput rest).channel_ = conn.channel_ ∨
      conn.channel_.writing = false ∧
        (conn.queueOutput rest).channel_ = conn.channel_.enableWriting := by
  unfold queueOutput
  split
  · cases writing : conn.channel_.writing <;> simp
  · exact .inl rfl

theorem deliver_channel (conn : TcpConnection) (message : Bytes)
    (outcome : WriteOutcome) :
    (conn.deliver message outcome).channel_ = conn.channel_ ∨
      conn.channel_.writing = false ∧
        (conn.deliver message outcome).channel_ = conn.channel_.enableWriting := by
  unfold deliver
  split
  · split
    · exact queueOutput_channel _ _
    · split
      · exact .inl rfl
      · exact queueOutput_channel _ _
  · exact queueOutput_channel _ _

theorem send_channel {sent : TcpConnection} {message : Bytes} {outcome : WriteOutcome}
    (sendEq : conn.send message outcome = .ok sent) :
    sent.channel_ = conn.channel_ ∨
      conn.channel_.writing = false ∧ sent.channel_ = conn.channel_.enableWriting := by
  rcases send_cases sendEq with rfl | ⟨len, rfl⟩
  · exact .inl rfl
  · exact deliver_channel _ _ _

theorem WellChannelled.send (well : conn.WellChannelled pending) (isOpen : conn.Open)
    {sent : TcpConnection} {message : Bytes} {outcome : WriteOutcome}
    (sendEq : conn.send message outcome = .ok sent) : sent.WellChannelled pending := by
  obtain ⟨reading, added, synced, notPending⟩ := well.opened isOpen
  refine .of_open ?_ ((send_sameInput sendEq).reading.trans reading) ?_ ?_ notPending
  · unfold Open
    rwa [send_state sendEq]
  · rcases send_channel sendEq with same | ⟨-, waits⟩
    · rw [same, added]
    · rw [waits]
      rfl
  · rcases send_cases sendEq with rfl | ⟨len, rfl⟩
    · exact synced
    · exact deliver_synced synced _ _

theorem advanceOutput_channel (conn : TcpConnection) (n : Nat) :
    (conn.advanceOutput n).channel_ = conn.channel_ ∨
      (conn.advanceOutput n).channel_ = conn.channel_.disableWriting := by
  simp only [advanceOutput]
  split
  · right
    split <;> simp
  · exact .inl rfl

/-- Draining stops waiting for room when the buffer has become empty. -/
theorem handleWrite_channel (conn : TcpConnection) (outcome : WriteOutcome) :
    (conn.handleWrite outcome).channel_ = conn.channel_ ∨
      conn.channel_.writing = true ∧
        (conn.handleWrite outcome).channel_ = conn.channel_.disableWriting := by
  rcases conn.handleWrite_cases outcome with same | ⟨n, writing, -, -, advanced⟩
  · exact .inl (by rw [same])
  · rw [advanced]
    exact (conn.advanceOutput_channel n).imp_right fun stops => ⟨writing, stops⟩

theorem WellChannelled.open_of_writing (well : conn.WellChannelled pending)
    (writing : conn.channel_.writing = true) : conn.Open := by
  cases state : conn.state_ with
  | kConnected => exact .inl state
  | kDisconnecting => exact .inr state
  | kConnecting =>
      rw [(well.connecting state).1] at writing
      simp [new, Channel.new] at writing
  | kDisconnected =>
      rw [(well.disconnected state).2.1] at writing
      simp at writing

theorem WellChannelled.handleWrite (well : conn.WellChannelled pending)
    (writing : conn.channel_.writing = true) (outcome : WriteOutcome) :
    (conn.handleWrite outcome).WellChannelled pending := by
  rcases conn.handleWrite_cases outcome with same | ⟨n, -, -, -, advanced⟩
  · rwa [same]
  · have isOpen := well.open_of_writing writing
    obtain ⟨reading, added, -, notPending⟩ := well.opened isOpen
    rw [advanced]
    refine .of_open ?_ ((advanceOutput_sameInput conn n).reading.trans reading) ?_
      (advanceOutput_synced n writing) notPending
    · unfold Open
      rwa [advanceOutput_state]
    · rcases conn.advanceOutput_channel n with same | stops
      · rw [same, added]
      · rw [stops]
        rfl

end TcpConnection

namespace ConnectionTable

/-- The server or the loop still refers to the connection. -/
def Held (table : ConnectionTable) (conn : ConnId) : Prop :=
  conn ∈ table.connections_ ∨ conn ∈ table.pendingFunctors_ ∨
    conn ∈ table.lrulist_.nodes.map Prod.snd ∨ conn ∈ table.lrumap_

instance (table : ConnectionTable) (conn : ConnId) : Decidable (table.Held conn) :=
  inferInstanceAs (Decidable (_ ∨ _ ∨ _ ∨ _))

/-- What holds of the channels between two events. -/
structure ChannelInvariant (table : ConnectionTable) : Prop where
  well : ∀ conn, (table.conns conn).WellChannelled (conn ∈ table.pendingFunctors_)
  pending_nodup : table.pendingFunctors_.Nodup

theorem new_channelInvariant : new.ChannelInvariant where
  well _ := TcpConnection.new_wellChannelled (by simp [new])
  pending_nodup := List.nodup_nil

theorem ChannelInvariant.live_of_writing {table : ConnectionTable}
    (invariant : table.ChannelInvariant) {conn : ConnId}
    (writing : (table.conns conn).channel_.writing = true) : table.Live conn :=
  (invariant.well conn).open_of_writing writing

/-! ## What each event does to the connections -/

/-- `onConnection` may shut a connection down, and does nothing else to the
connections. -/
theorem onConnection_conns {SIZECONN : Nat} {table after : ConnectionTable}
    {caller : ConnId} (called : table.onConnection SIZECONN caller = .ok after)
    (conn : ConnId) :
    after.conns conn = table.conns conn ∨
      after.conns conn = (table.conns conn).shutdown := by
  rcases onConnection_cases called with ⟨-, rfl⟩ | ⟨-, back, -, rfl⟩
  · exact .inl rfl
  · by_cases same : conn = back
    · subst same
      exact .inr (table.setConn_self conn _)
    · exact .inl (table.setConn_of_ne _ same)

theorem onConnection_channel {SIZECONN : Nat} {table after : ConnectionTable}
    {caller : ConnId} (called : table.onConnection SIZECONN caller = .ok after)
    (conn : ConnId) : (after.conns conn).channel_ = (table.conns conn).channel_ := by
  rcases onConnection_conns called conn with same | shut
  · rw [same]
  · rw [shut, TcpConnection.shutdown_channel]

theorem onConnection_well {SIZECONN : Nat} {table after : ConnectionTable}
    {caller : ConnId} (called : table.onConnection SIZECONN caller = .ok after)
    {conn : ConnId} {pending : Prop} (well : (table.conns conn).WellChannelled pending) :
    (after.conns conn).WellChannelled pending := by
  rcases onConnection_conns called conn with same | shut
  · rwa [same]
  · rw [shut]
    exact well.shutdown

/-- A message changes one connection, which receives and sends. -/
theorem step_message_conns {SIZECONN : Nat} {table after : ConnectionTable}
    {conn : ConnId} {chunk echo : Bytes} {outcome : WriteOutcome}
    (stepTo : table.step SIZECONN (.message conn chunk echo outcome) = .ok after) :
    ((table.conns conn).receive chunk).2.send echo outcome = .ok (after.conns conn) ∧
      (∀ other, other ≠ conn → after.conns other = table.conns other) ∧
        after.pendingFunctors_ = table.pendingFunctors_ := by
  obtain ⟨touched, touchEq, sendEq⟩ := Except.bind_eq_ok.mp stepTo
  obtain ⟨node, list, -, -, rfl⟩ := touch_cases touchEq
  obtain ⟨sent, connSend, rfl⟩ := send_cases sendEq
  refine ⟨?_, fun other differs => ?_, rfl⟩
  · rw [setConn_self]
    simpa [receive] using connSend
  · rw [setConn_of_ne _ _ differs]
    exact setConn_of_ne _ _ differs

/-- The pending functors take the channels of their connections out of the loop. -/
theorem foldlM_connectDestroyed_conns {SIZECONN : Nat} {conns : List ConnId}
    {table after : ConnectionTable}
    (folded : conns.foldlM (connectDestroyed SIZECONN) table = .ok after)
    (nodup : conns.Nodup)
    (notConnected : ∀ conn ∈ conns, table.state conn ≠ .kConnected) (conn : ConnId) :
    after.conns conn =
      if conn ∈ conns then
        { table.conns conn with channel_ := (table.conns conn).channel_.remove }
      else table.conns conn := by
  induction conns generalizing table with
  | nil =>
      obtain rfl := Except.ok.inj folded
      simp
  | cons first conns ih =>
      rw [List.foldlM_cons, connectDestroyed,
        if_neg (notConnected first List.mem_cons_self)] at folded
      obtain ⟨notMem, restNodup⟩ := List.nodup_cons.mp nodup
      have same := (table.removeChannel_same first).2.2
      have restEq := ih folded restNodup (fun other member => by
        rw [same.state]
        exact notConnected other (List.mem_cons_of_mem _ member))
      rw [restEq]
      by_cases isFirst : conn = first
      · subst isFirst
        rw [if_neg notMem, if_pos List.mem_cons_self]
        exact setConn_self _ _ _
      · have unchanged : (table.removeChannel first).conns conn = table.conns conn :=
          setConn_of_ne _ _ isFirst
        simp only [unchanged, List.mem_cons, isFirst, false_or]

theorem step_pendingFunctors_conns {SIZECONN : Nat} {table after : ConnectionTable}
    (nodup : table.pendingFunctors_.Nodup)
    (notConnected : ∀ conn ∈ table.pendingFunctors_, table.state conn ≠ .kConnected)
    (stepTo : table.step SIZECONN .pendingFunctors = .ok after) (conn : ConnId) :
    after.conns conn =
      if conn ∈ table.pendingFunctors_ then
        { table.conns conn with channel_ := (table.conns conn).channel_.remove }
      else table.conns conn := by
  have folded : table.pendingFunctors_.foldlM (connectDestroyed SIZECONN)
      { table with pendingFunctors_ := [] } = .ok after := stepTo
  exact foldlM_connectDestroyed_conns folded nodup notConnected conn

/-! ## One event -/

section Step

variable {SIZECONN : Nat} {table after : ConnectionTable}

theorem ChannelInvariant.up (invariant : table.ChannelInvariant) {conn : ConnId}
    (connecting : table.state conn = .kConnecting)
    (stepTo : table.step SIZECONN (.up conn) = .ok after) : after.ChannelInvariant := by
  have pendingEq : after.pendingFunctors_ = table.pendingFunctors_ :=
    (onConnection_sameRegistry stepTo).pending
  refine ⟨fun other => ?_, pendingEq ▸ invariant.pending_nodup⟩
  rw [pendingEq]
  apply onConnection_well stepTo
  by_cases same : other = conn
  · subst same
    have accepted : (table.accepted other).conns other = (table.conns other).established :=
      setConn_self _ _ _
    rw [accepted]
    exact (invariant.well other).established connecting
  · have accepted : (table.accepted conn).conns other = table.conns other :=
      setConn_of_ne _ _ same
    rw [accepted]
    exact invariant.well other

theorem ChannelInvariant.message (invariant : table.ChannelInvariant) {conn : ConnId}
    {chunk echo : Bytes} {outcome : WriteOutcome} (live : table.Live conn)
    (stepTo : table.step SIZECONN (.message conn chunk echo outcome) = .ok after) :
    after.ChannelInvariant := by
  obtain ⟨sendEq, others, pendingEq⟩ := step_message_conns stepTo
  refine ⟨fun other => ?_, pendingEq ▸ invariant.pending_nodup⟩
  rw [pendingEq]
  by_cases same : other = conn
  · subst same
    obtain ⟨reading, added, synced, notPending⟩ := (invariant.well other).opened live
    have received : ((table.conns other).receive chunk).2.WellChannelled
        (other ∈ table.pendingFunctors_) :=
      .of_open live reading added synced notPending
    exact received.send live sendEq
  · rw [others other same]
    exact invariant.well other

theorem ChannelInvariant.writable (invariant : table.ChannelInvariant) {conn : ConnId}
    {outcome : WriteOutcome} (writing : (table.conns conn).channel_.writing = true)
    (stepTo : table.step SIZECONN (.writable conn outcome) = .ok after) :
    after.ChannelInvariant := by
  obtain rfl := Except.ok.inj stepTo
  refine ⟨fun other => ?_, invariant.pending_nodup⟩
  by_cases same : other = conn
  · subst same
    rw [setConn_self]
    exact (invariant.well other).handleWrite writing outcome
  · rw [setConn_of_ne _ _ same]
    exact invariant.well other

theorem ChannelInvariant.down (invariant : table.ChannelInvariant) {conn : ConnId}
    (live : table.Live conn) (stepTo : table.step SIZECONN (.down conn) = .ok after) :
    after.ChannelInvariant := by
  obtain ⟨called, callEq, rfl⟩ := step_down_cases stepTo
  have pendingEq : called.pendingFunctors_ = table.pendingFunctors_ :=
    (onConnection_sameRegistry callEq).pending
  have notPending := ((invariant.well conn).opened live).2.2.2
  constructor
  · intro other
    simp only [removeConnectionInLoop, pendingEq]
    by_cases same : other = conn
    · subst same
      have closed : (table.closing other).conns other = (table.conns other).closed :=
        setConn_self _ _ _
      apply onConnection_well callEq
      rw [closed]
      exact (TcpConnection.closed_wellChannelled _).congr (by simp)
    · have unchanged : (table.closing conn).conns other = table.conns other :=
        setConn_of_ne _ _ same
      apply onConnection_well callEq
      rw [unchanged]
      exact (invariant.well other).congr (by simp [same])
  · simp only [removeConnectionInLoop, pendingEq]
    exact invariant.pending_nodup.append (List.nodup_singleton conn)
      (by simpa using notPending)

theorem ChannelInvariant.pendingFunctors (invariant : table.ChannelInvariant)
    (registry : table.RegistryInvariant)
    (stepTo : table.step SIZECONN .pendingFunctors = .ok after) :
    after.ChannelInvariant := by
  have emptied := (step_pendingFunctors_cases registry.pending_ne_kConnected stepTo).2.1
  refine ⟨fun conn => ?_, by rw [emptied]; exact List.nodup_nil⟩
  rw [emptied, step_pendingFunctors_conns invariant.pending_nodup
    registry.pending_ne_kConnected stepTo]
  split
  · rename_i pending
    exact ((invariant.well conn).removed (registry.pending conn pending)).congr (by simp)
  · rename_i notPending
    exact (invariant.well conn).congr (by simp [notPending])

theorem ChannelInvariant.step (invariant : table.ChannelInvariant)
    (registry : table.RegistryInvariant) {event : TableEvent} (offered : table.Offered event)
    (stepTo : table.step SIZECONN event = .ok after) : after.ChannelInvariant := by
  cases event with
  | up conn => exact invariant.up offered stepTo
  | message conn chunk echo outcome => exact invariant.message offered.1.1 stepTo
  | down conn => exact invariant.down offered stepTo
  | writable conn outcome => exact invariant.writable offered stepTo
  | pendingFunctors => exact invariant.pendingFunctors registry stepTo

end Step

/-! ## Who refers to a connection -/

theorem onConnection_connecting {SIZECONN : Nat} {table after : ConnectionTable}
    {caller conn : ConnId} (called : table.onConnection SIZECONN caller = .ok after)
    (connecting : after.state conn = .kConnecting) : table.state conn = .kConnecting := by
  unfold state at connecting ⊢
  rcases onConnection_conns called conn with same | shut
  · rwa [same] at connecting
  · rw [shut, TcpConnection.shutdown_state] at connecting
    split at connecting
    · simp at connecting
    · exact connecting

/-- No connection becomes new again. -/
theorem step_connecting {SIZECONN : Nat} {table after : ConnectionTable}
    {event : TableEvent} (registry : table.RegistryInvariant)
    (stepTo : table.step SIZECONN event = .ok after) {conn : ConnId}
    (connecting : after.state conn = .kConnecting) :
    event ≠ .up conn ∧ table.state conn = .kConnecting := by
  cases event with
  | up caller =>
      have before := onConnection_connecting stepTo connecting
      rw [accepted_state] at before
      split at before
      · simp at before
      · rename_i differs
        exact ⟨fun same => differs (TableEvent.up.inj same).symm, before⟩
  | message caller chunk echo outcome =>
      obtain ⟨-, -, -, -, -, same⟩ := step_message_cases stepTo
      exact ⟨by simp, (same.state conn).symm.trans connecting⟩
  | down caller =>
      obtain ⟨called, callEq, rfl⟩ := step_down_cases stepTo
      have before := onConnection_connecting callEq connecting
      rw [closing_state] at before
      split at before
      · simp at before
      · exact ⟨by simp, before⟩
  | writable caller outcome =>
      obtain ⟨-, -, same⟩ := step_writable_cases stepTo
      exact ⟨by simp, (same.state conn).symm.trans connecting⟩
  | pendingFunctors =>
      obtain ⟨-, -, same⟩ := step_pendingFunctors_cases registry.pending_ne_kConnected stepTo
      exact ⟨by simp, (same.state conn).symm.trans connecting⟩

theorem evictBack_held {table : ConnectionTable} {back conn : ConnId}
    (held : (table.evictBack back).Held conn) : table.Held conn := by
  rcases held with registered | pending | listed | mapped
  · exact .inl registered
  · exact .inr (.inl pending)
  · obtain ⟨node, member, rfl⟩ := List.mem_map.mp listed
    exact .inr (.inr (.inl (List.mem_map_of_mem (StableList.mem_of_mem_popBack member))))
  · exact .inr (.inr (.inr (AList.mem_erase.mp mapped).2))

theorem enlist_held {table : ConnectionTable} {caller conn : ConnId}
    (held : (table.enlist caller).Held conn) : conn = caller ∨ table.Held conn := by
  rcases held with registered | pending | listed | mapped
  · exact .inr (.inl registered)
  · exact .inr (.inr (.inl pending))
  · rw [enlist_nodes, List.map_cons, List.mem_cons] at listed
    exact listed.imp_right fun older => .inr (.inr (.inl older))
  · rw [enlist_lrumap, AList.mem_insert] at mapped
    exact mapped.imp_right fun older => .inr (.inr (.inr older))

theorem onConnection_held {SIZECONN : Nat} {table after : ConnectionTable}
    {caller conn : ConnId} (called : table.onConnection SIZECONN caller = .ok after)
    (held : after.Held conn) : conn = caller ∨ table.Held conn := by
  rcases onConnection_cases called with ⟨-, rfl⟩ | ⟨-, back, -, rfl⟩
  · exact enlist_held held
  · exact (enlist_held held).imp_right evictBack_held

/-- A new reference is made only to a connection that comes up. -/
theorem step_held {SIZECONN : Nat} {table after : ConnectionTable} {event : TableEvent}
    (registry : table.RegistryInvariant) (offered : table.Offered event)
    (stepTo : table.step SIZECONN event = .ok after) {conn : ConnId}
    (held : after.Held conn) : event = .up conn ∨ table.Held conn := by
  cases event with
  | up caller =>
      rcases onConnection_held stepTo held with rfl | registered | others
      · exact .inl rfl
      · rcases List.mem_cons.mp registered with rfl | older
        · exact .inl rfl
        · exact .inr (.inl older)
      · exact .inr (.inr others)
  | message caller chunk echo outcome =>
      obtain ⟨node, found, moved, mapEq, pendingEq, same⟩ := step_message_cases stepTo
      refine .inr ?_
      rcases held with registered | pending | listed | mapped
      · exact .inl (same.connections ▸ registered)
      · exact .inr (.inl (pendingEq ▸ pending))
      · obtain ⟨other, member, rfl⟩ := List.mem_map.mp listed
        exact .inr (.inr (.inl (List.mem_map_of_mem
          ((StableList.mem_moveToFront moved other).mp member))))
      · rw [mapEq, AList.mem_insert] at mapped
        refine .inr (.inr (.inr ?_))
        rcases mapped with rfl | older
        · exact AList.lookup_isSome.mp (by simp [found])
        · exact older
  | down caller =>
      obtain ⟨called, callEq, rfl⟩ := step_down_cases stepTo
      have callerHeld : table.Held caller := .inl ((registry.connections caller).mpr offered)
      have calledHeld (heldThen : called.Held conn) : table.Held conn := by
        rcases onConnection_held callEq heldThen with rfl | older
        · exact callerHeld
        · exact older
      refine .inr ?_
      rcases held with registered | pending | others
      · exact calledHeld (.inl (List.mem_of_mem_erase registered))
      · rcases List.mem_append.mp pending with older | last
        · exact calledHeld (.inr (.inl older))
        · exact List.mem_singleton.mp last ▸ callerHeld
      · exact calledHeld (.inr (.inr others))
  | writable caller outcome =>
      obtain rfl := Except.ok.inj stepTo
      exact .inr held
  | pendingFunctors =>
      obtain ⟨lru, emptied, same⟩ :=
        step_pendingFunctors_cases registry.pending_ne_kConnected stepTo
      refine .inr ?_
      rcases held with registered | pending | listed | mapped
      · exact .inl (same.connections ▸ registered)
      · simp [emptied] at pending
      · exact .inr (.inr (.inl (lru.list ▸ listed)))
      · exact .inr (.inr (.inr (lru.map ▸ mapped)))

/-- A connection that nothing refers to has not come up yet, or it is closed and its
channel is out of the loop. -/
theorem ChannelInvariant.not_held {table : ConnectionTable}
    (invariant : table.ChannelInvariant) (registry : table.RegistryInvariant)
    {conn : ConnId} (notHeld : ¬table.Held conn) :
    table.state conn = .kConnecting ∨ table.state conn = .kDisconnected ∧
      (table.conns conn).channel_.addedToLoop_ = false := by
  have notLive : ¬table.Live conn :=
    fun live => notHeld (.inl ((registry.connections conn).mpr live))
  have notPending : conn ∉ table.pendingFunctors_ := fun pending =>
    notHeld (.inr (.inl pending))
  cases state : table.state conn with
  | kConnecting => exact .inl rfl
  | kConnected => exact absurd (.inl state) notLive
  | kDisconnecting => exact absurd (.inr state) notLive
  | kDisconnected =>
      have added := ((invariant.well conn).disconnected state).2.2
      exact .inr ⟨rfl, Bool.eq_false_iff.mpr fun known => notPending (added.mp known)⟩

end ConnectionTable

end TcpMysql
