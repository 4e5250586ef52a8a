import TcpMysql.ConnectionChannels
import TcpMysql.PollersAgree
import TcpMysql.ServerRuns

/-!
# The server and its poller

Every callback of the server that changes what a connection waits for calls the
poller of the loop, and a connection that nothing refers to any more is destroyed
with its channel, after which its descriptor is used again.  This file runs the
server and the poller together.  No call on the poller fails, and the set of the
kernel is at every moment what the states of the connections say.
-/

namespace TcpMysql

/-- The ways the loop can end other than by returning. -/
inductive ReactorFault
  | callback (fault : Fault)
  | poller (fault : PollFault)
  | assertion
  deriving DecidableEq, Repr

/-- The server and the channels of its connections.  A connection and its channel
have the same name. -/
structure PolledServer (Wheel : Type → Type) (Db Poller : Type) where
  server : TcpMysqlServer Wheel Db
  world : PollWorld Poller

/-- A connection is accepted on a descriptor, a callback is called, or the last
reference to a connection is gone. -/
inductive PolledEvent
  | accept (conn : ConnId) (fd : Nat)
  | callback (event : ServerEvent)
  | release (conn : ConnId)

/-- The calls that a callback makes on the channels.  `enableWriting` is called only
on a channel that does not wait for room, and `disableWriting` only on one that
does, so that the flag tells whether they were called. -/
def ServerEvent.channelCalls (before after : ConnectionTable) :
    ServerEvent → List ChannelEvent
  | .up conn => [.update conn .enableReading]
  | .read conn _ _ =>
      if (after.conns conn).channel_.writing = (before.conns conn).channel_.writing then []
      else [.update conn .enableWriting]
  | .down conn => [.update conn .disableAll]
  | .writable conn _ =>
      if (after.conns conn).channel_.writing = (before.conns conn).channel_.writing then []
      else [.update conn .disableWriting]
  | .timer => []
  | .pendingFunctors => before.pendingFunctors_.flatMap fun conn =>
      if before.state conn = .kConnected then [.update conn .disableAll, .remove conn]
      else [.remove conn]

namespace PolledServer

variable {Wheel : Type → Type} [CircularBuffer Wheel] {Db Poller : Type}

def new (Wheel : Type → Type) [CircularBuffer Wheel] (idleSeconds : Nat) (db : Db)
    (poller : Poller) : PolledServer Wheel Db Poller where
  server := .new Wheel idleSeconds db
  world := .new poller

/-- Make calls on the channels, one after the other. -/
def callChannels (ops : PollerOps Poller) (world : PollWorld Poller)
    (calls : List ChannelEvent) : Except ReactorFault (PollWorld Poller) :=
  (calls.foldlM (PollWorld.step ops) world).mapError .poller

/-- Run a callback of the server with its calls on the channels. -/
def call (ops : PollerOps Poller) (SIZECONN : Nat) (reading : Reading)
    (process : Process Db) (state : PolledServer Wheel Db Poller) (event : ServerEvent) :
    Except ReactorFault (PolledServer Wheel Db Poller) :=
  match (TcpMysqlServer.step SIZECONN reading process event).run state.server with
  | .error fault _ => .error (.callback fault)
  | .ok _ server => do
      let world ← callChannels ops state.world
        (event.channelCalls state.server.table server.table)
      return ⟨server, world⟩

/-- `~TcpConnection`, which destroys the channel. -/
def destroy (ops : PollerOps Poller) (state : PolledServer Wheel Db Poller) (conn : ConnId) :
    Except ReactorFault (PolledServer Wheel Db Poller) := do
  check .assertion (state.server.table.state conn = .kDisconnected)
  let world ← callChannels ops state.world [.destroy conn]
  return { state with world := world }

def step (ops : PollerOps Poller) (SIZECONN : Nat) (reading : Reading)
    (process : Process Db) (state : PolledServer Wheel Db Poller) :
    PolledEvent → Except ReactorFault (PolledServer Wheel Db Poller)
  | .accept conn fd =>
      { state with world := state.world.create ops conn fd }.call ops SIZECONN reading
        process (.up conn)
  | .callback event => state.call ops SIZECONN reading process event
  | .release conn => state.destroy ops conn

/-- Descriptors are handed out when they are free, and a connection is destroyed when
nothing refers to it. -/
def Offered (state : PolledServer Wheel Db Poller) : PolledEvent → Prop
  | .accept conn fd => state.server.Offered (.up conn) ∧ fd ∉ state.world.opened
  | .callback (.up _) => False
  | .callback event => state.server.Offered event
  | .release conn => ¬state.server.table.Held conn ∧ (state.world.heap conn).isSome = true

instance (state : PolledServer Wheel Db Poller) (event : PolledEvent) :
    Decidable (state.Offered event) :=
  match event with
  | .accept _ _ => inferInstanceAs (Decidable (_ ∧ _))
  | .callback (.up _) => inferInstanceAs (Decidable False)
  | .callback (.read conn chunk outcome) =>
      inferInstanceAs (Decidable (state.server.Offered (.read conn chunk outcome)))
  | .callback (.down conn) =>
      inferInstanceAs (Decidable (state.server.Offered (.down conn)))
  | .callback (.writable conn outcome) =>
      inferInstanceAs (Decidable (state.server.Offered (.writable conn outcome)))
  | .callback .timer => inferInstanceAs (Decidable (state.server.Offered .timer))
  | .callback .pendingFunctors =>
      inferInstanceAs (Decidable (state.server.Offered .pendingFunctors))
  | .release _ => inferInstanceAs (Decidable (_ ∧ _))

def system (ops : PollerOps Poller) (SIZECONN : Nat) (reading : Reading)
    (process : Process Db) : EventSystem (PolledServer Wheel Db Poller) PolledEvent where
  next state event := (state.step ops SIZECONN reading process event).toOption
  offered := Offered

instance (ops : PollerOps Poller) (SIZECONN : Nat) (reading : Reading)
    (process : Process Db) (state : PolledServer Wheel Db Poller) (event : PolledEvent) :
    Decidable ((system ops SIZECONN reading process).offered state event) :=
  inferInstanceAs (Decidable (state.Offered event))

end PolledServer

/-! ## What the server needs of a poller -/

namespace PollWorld

variable {Poller : Type} {ops : PollerOps Poller} {world after : PollWorld Poller}
  {channel : ChannelPtr} {value : FdChannel}

theorem heap_of_update {op : ChannelOp} (found : world.heap channel = some value)
    (stepTo : world.step ops (.update channel op) = .ok after) :
    after.heap = (world.store channel (some (value.update op))).heap := by
  obtain ⟨value', derefEq, rest⟩ := Except.bind_eq_ok.mp stepTo
  rw [deref_of found] at derefEq
  obtain rfl := Except.ok.inj derefEq
  obtain ⟨poller, -, rest⟩ := Except.bind_eq_ok.mp rest
  rw [← Except.ok.inj rest]

theorem heap_of_remove (found : world.heap channel = some value)
    (stepTo : world.step ops (.remove channel) = .ok after) :
    after.heap = (world.store channel (some value.remove)).heap := by
  obtain ⟨value', derefEq, rest⟩ := Except.bind_eq_ok.mp stepTo
  rw [deref_of found] at derefEq
  obtain rfl := Except.ok.inj derefEq
  obtain ⟨-, -, rest⟩ := Except.bind_eq_ok.mp rest
  obtain ⟨poller, -, rest⟩ := Except.bind_eq_ok.mp rest
  rw [← Except.ok.inj rest]

theorem heap_of_destroy (stepTo : world.step ops (.destroy channel) = .ok after) :
    after.heap = (world.store channel none).heap := by
  obtain ⟨value', -, rest⟩ := Except.bind_eq_ok.mp stepTo
  obtain ⟨-, -, rest⟩ := Except.bind_eq_ok.mp rest
  obtain ⟨-, -, rest⟩ := Except.bind_eq_ok.mp rest
  rw [← Except.ok.inj rest]

end PollWorld

/-- The poller does not fail when the channels are used as the server uses them;
`keeps` is its invariant. -/
def PollerOps.Serves {Poller : Type} (ops : PollerOps Poller)
    (keeps : PollWorld Poller → Prop) : Prop :=
  ∀ world event, keeps world → world.Offered event → EPollPoller.Proper world event →
    ∃ after, world.step ops event = .ok after ∧ keeps after

theorem EPollPoller.serves :
    EPollPoller.ops.Serves fun world => Invariant world ∧ Idle world := by
  rintro world event ⟨invariant, idle⟩ offered proper
  obtain ⟨after, stepEq, afterInvariant, steps⟩ := invariant.step offered
  exact ⟨after, stepEq, afterInvariant, idle.step invariant proper steps⟩

namespace PolledServer

variable {Wheel : Type → Type} [CircularBuffer Wheel] {Db Poller : Type}
  {ops : PollerOps Poller} {keeps : PollWorld Poller → Prop} {world : PollWorld Poller}

/-- The channels on the heap are those of the connections that have come up and have
not been destroyed. -/
structure Mirrors (table : ConnectionTable) (world : PollWorld Poller) : Prop where
  fresh : ∀ conn, table.state conn = .kConnecting → world.heap conn = none
  channel : ∀ conn value, world.heap conn = some value →
    value.channel = (table.conns conn).channel_ ∧
      (value.retired = true → value.channel.addedToLoop_ = false)
  held : ∀ conn, table.Held conn → (world.heap conn).isSome = true

theorem new_mirrors (poller : Poller) :
    Mirrors ConnectionTable.new (PollWorld.new poller) where
  fresh _ _ := rfl
  channel := by simp [PollWorld.new]
  held conn held := by simp [ConnectionTable.Held, ConnectionTable.new] at held

/-- What a callback other than `newConnection` does not do: no connection is new, and
none is referred to again. -/
structure NoneComesUp (table after : ConnectionTable) : Prop where
  connecting : ∀ conn, after.state conn = .kConnecting → table.state conn = .kConnecting
  held : ∀ conn, after.Held conn → table.Held conn

theorem callChannels_singleton {event : ChannelEvent} {world' : PollWorld Poller}
    (stepEq : world.step ops event = .ok world') :
    callChannels ops world [event] = .ok world' := by
  simp only [callChannels, List.foldlM_cons, List.foldlM_nil]
  rw [Except.bind_of_ok stepEq]
  rfl

section Mirrors

variable {table after : ConnectionTable} {conn : ConnId}

theorem Mirrors.of_same (mirrors : Mirrors table world) (none : NoneComesUp table after)
    (channels : ∀ other, (after.conns other).channel_ = (table.conns other).channel_) :
    Mirrors after world where
  fresh other connecting := mirrors.fresh other (none.connecting other connecting)
  channel other value found := by
    rw [channels]
    exact mirrors.channel other value found
  held other held := mirrors.held other (none.held other held)

/-- One channel changes with its connection. -/
theorem Mirrors.of_change (mirrors : Mirrors table world) (none : NoneComesUp table after)
    {value changed : FdChannel} {world' : PollWorld Poller}
    (found : world.heap conn = some value)
    (heapEq : world'.heap = (world.store conn (some changed)).heap)
    (channelEq : changed.channel = (after.conns conn).channel_)
    (retired : changed.retired = true → changed.channel.addedToLoop_ = false)
    (others : ∀ other, other ≠ conn →
      (after.conns other).channel_ = (table.conns other).channel_) :
    Mirrors after world' := by
  have changedAt : world'.heap conn = some changed := by
    rw [heapEq, PollWorld.store_self]
  have sameAt (other : ConnId) (differs : other ≠ conn) :
      world'.heap other = world.heap other := by
    rw [heapEq, PollWorld.store_of_ne _ _ differs]
  refine ⟨fun other connecting => ?_, fun other value' found' => ?_, fun other held => ?_⟩
  · have before := mirrors.fresh other (none.connecting other connecting)
    have differs : other ≠ conn := by
      rintro rfl
      simp [found] at before
    rw [sameAt other differs, before]
  · by_cases same : other = conn
    · subst same
      rw [changedAt] at found'
      obtain rfl := Option.some.inj found'
      exact ⟨channelEq, retired⟩
    · rw [sameAt other same] at found'
      rw [others other same]
      exact mirrors.channel other value' found'
  · by_cases same : other = conn
    · simp [same, changedAt]
    · rw [sameAt other same]
      exact mirrors.held other (none.held other held)

/-- A call on the channel of a live connection. -/
theorem Mirrors.update (mirrors : Mirrors table world) (serves : ops.Serves keeps)
    (kept : keeps world) (none : NoneComesUp table after) {op : ChannelOp}
    (held : table.Held conn) (reads : (table.conns conn).channel_.reading = true)
    (added : (table.conns conn).channel_.addedToLoop_ = true)
    (channelEq : (after.conns conn).channel_ = op.apply (table.conns conn).channel_)
    (others : ∀ other, other ≠ conn →
      (after.conns other).channel_ = (table.conns other).channel_) :
    ∃ world', callChannels ops world [.update conn op] = .ok world' ∧ keeps world' ∧
      Mirrors after world' := by
  have offered := mirrors.held conn held
  obtain ⟨value, found⟩ := Option.isSome_iff_exists.mp offered
  obtain ⟨sameChannel, retired⟩ := mirrors.channel conn value found
  have known : value.channel.addedToLoop_ = true := by rw [sameChannel, added]
  have proper : EPollPoller.Proper world (.update conn op) := by
    intro value' found'
    rw [Option.mem_def, found] at found'
    obtain rfl := Option.some.inj found'
    refine ⟨?_, fun _ => ⟨known, ?_⟩⟩
    · exact Bool.eq_false_iff.mpr fun isRetired => by simp [retired isRetired] at known
    · rw [Channel.isNoneEvent_eq, sameChannel, reads]
      rfl
  obtain ⟨world', stepEq, kept'⟩ := serves world (.update conn op) kept offered proper
  refine ⟨world', ?_, kept', mirrors.of_change none found
    (PollWorld.heap_of_update found stepEq) ?_ ?_ others⟩
  · exact callChannels_singleton stepEq
  · rw [channelEq, ← sameChannel]
    rfl
  · intro isRetired
    simp [retired isRetired] at known

/-- The constructor of a connection and its `connectEstablished`. -/
theorem Mirrors.up (mirrors : Mirrors table world) (serves : ops.Serves keeps)
    (kept : keeps world) {SIZECONN fd : Nat} (channels : table.ChannelInvariant)
    (registry : table.RegistryInvariant) (connecting : table.state conn = .kConnecting)
    (unopened : fd ∉ world.opened) (stepTo : table.step SIZECONN (.up conn) = .ok after) :
    ∃ world', callChannels ops (world.create ops conn fd) [.update conn .enableReading] =
      .ok world' ∧ keeps world' ∧ Mirrors after world' := by
  obtain ⟨created, createEq, keptCreated⟩ := serves world (.create conn fd) kept
    ⟨mirrors.fresh conn connecting, unopened⟩ trivial
  obtain rfl := Except.ok.inj createEq
  have found : (world.create ops conn fd).heap conn = some ⟨fd, .new, false⟩ :=
    PollWorld.store_self _ _ _
  have offered : (world.create ops conn fd).Offered (.update conn .enableReading) :=
    Option.isSome_iff_exists.mpr ⟨_, found⟩
  have proper : EPollPoller.Proper (world.create ops conn fd)
      (.update conn .enableReading) := by
    intro value' found'
    rw [Option.mem_def, found] at found'
    obtain rfl := Option.some.inj found'
    refine ⟨rfl, fun isNone => ?_⟩
    simp [FdChannel.update, ChannelOp.apply, Channel.isNoneEvent_eq,
      Channel.enableReading] at isNone
  obtain ⟨world', stepEq, kept'⟩ := serves _ _ keptCreated offered proper
  refine ⟨world', callChannels_singleton stepEq, kept', ?_⟩
  have heapEq := PollWorld.heap_of_update found stepEq
  have upAt : world'.heap conn = some ⟨fd, Channel.new.enableReading, false⟩ := by
    rw [heapEq, PollWorld.store_self]
    rfl
  have sameAt (other : ConnId) (differs : other ≠ conn) :
      world'.heap other = world.heap other := by
    rw [heapEq, PollWorld.store_of_ne _ _ differs]
    exact PollWorld.store_of_ne _ _ differs
  have sameChannel (other : ConnId) : (after.conns other).channel_ =
      ((table.accepted conn).conns other).channel_ :=
    ConnectionTable.onConnection_channel stepTo other
  refine ⟨fun other isConnecting => ?_, fun other value found' => ?_, fun other held => ?_⟩
  · obtain ⟨notUp, before⟩ := ConnectionTable.step_connecting registry stepTo isConnecting
    rw [sameAt other fun same => notUp (same ▸ rfl)]
    exact mirrors.fresh other before
  · rw [sameChannel]
    by_cases same : other = conn
    · subst same
      rw [upAt] at found'
      obtain rfl := Option.some.inj found'
      have newConn := ((channels.well other).connecting connecting).1
      have accepted : (table.accepted other).conns other = TcpConnection.new.established := by
        rw [← newConn]
        exact ConnectionTable.setConn_self _ _ _
      exact ⟨by rw [accepted]; rfl, by simp⟩
    · have accepted : (table.accepted conn).conns other = table.conns other :=
        ConnectionTable.setConn_of_ne _ _ same
      rw [sameAt other same] at found'
      rw [accepted]
      exact mirrors.channel other value found'
  · by_cases same : other = conn
    · simp [same, upAt]
    · rw [sameAt other same]
      apply mirrors.held
      have offered : table.Offered (.up conn) := connecting
      rcases ConnectionTable.step_held registry offered stepTo held with isUp | older
      · exact absurd (TableEvent.up.inj isUp).symm same
      · exact older

theorem noneComesUp {SIZECONN : Nat} {event : TableEvent}
    (registry : table.RegistryInvariant) (offered : table.Offered event)
    (notUp : ∀ conn, event ≠ .up conn) (stepTo : table.step SIZECONN event = .ok after) :
    NoneComesUp table after where
  connecting _ connecting :=
    (ConnectionTable.step_connecting registry stepTo connecting).2
  held conn held := (ConnectionTable.step_held registry offered stepTo held).resolve_left
    (notUp conn)

/-- A call that is made when the flag has changed, and is not needed when it has
not. -/
theorem Mirrors.updateOrSkip (mirrors : Mirrors table world) (serves : ops.Serves keeps)
    (kept : keeps world) (none : NoneComesUp table after) {op : ChannelOp}
    (registry : table.RegistryInvariant) (channels : table.ChannelInvariant)
    (live : table.Live conn)
    (channelEq : (after.conns conn).channel_ = (table.conns conn).channel_ ∨
      (after.conns conn).channel_.writing ≠ (table.conns conn).channel_.writing ∧
        (after.conns conn).channel_ = op.apply (table.conns conn).channel_)
    (others : ∀ other, other ≠ conn →
      (after.conns other).channel_ = (table.conns other).channel_) :
    ∃ world', callChannels ops world
        (if (after.conns conn).channel_.writing = (table.conns conn).channel_.writing then []
          else [.update conn op]) = .ok world' ∧ keeps world' ∧ Mirrors after world' := by
  rcases channelEq with same | ⟨changed, applied⟩
  · rw [if_pos (by rw [same])]
    refine ⟨world, rfl, kept, mirrors.of_same none fun other => ?_⟩
    by_cases isConn : other = conn
    · rw [isConn, same]
    · exact others other isConn
  · rw [if_neg changed]
    obtain ⟨reads, added, -, -⟩ := (channels.well conn).opened live
    exact mirrors.update serves kept none (.inl ((registry.connections conn).mpr live))
      reads added applied others

theorem Mirrors.message (mirrors : Mirrors table world) (serves : ops.Serves keeps)
    (kept : keeps world) (registry : table.RegistryInvariant)
    (channels : table.ChannelInvariant) {SIZECONN : Nat} {chunk echo : Bytes}
    {outcome : WriteOutcome} (offered : table.Offered (.message conn chunk echo outcome))
    (stepTo : table.step SIZECONN (.message conn chunk echo outcome) = .ok after) :
    ∃ world', callChannels ops world
        ((ServerEvent.read conn chunk outcome).channelCalls table after) = .ok world' ∧
      keeps world' ∧ Mirrors after world' := by
  obtain ⟨sendEq, others, -⟩ := ConnectionTable.step_message_conns stepTo
  refine mirrors.updateOrSkip serves kept (noneComesUp registry offered (by simp) stepTo)
    registry channels offered.1.1 ?_ fun other differs => by rw [others other differs]
  apply (TcpConnection.send_channel sendEq).imp_right
  rintro ⟨idle, waits⟩
  refine ⟨?_, waits⟩
  rw [waits]
  exact fun same => absurd (same.trans idle) (by simp [Channel.enableWriting])

theorem Mirrors.writable (mirrors : Mirrors table world) (serves : ops.Serves keeps)
    (kept : keeps world) (registry : table.RegistryInvariant)
    (channels : table.ChannelInvariant) {SIZECONN : Nat} {outcome : WriteOutcome}
    (offered : table.Offered (.writable conn outcome))
    (stepTo : table.step SIZECONN (.writable conn outcome) = .ok after) :
    ∃ world', callChannels ops world
        ((ServerEvent.writable conn outcome).channelCalls table after) = .ok world' ∧
      keeps world' ∧ Mirrors after world' := by
  have none := noneComesUp registry offered (by simp) stepTo
  obtain rfl := Except.ok.inj stepTo
  refine mirrors.updateOrSkip serves kept none registry channels
    (channels.live_of_writing offered) ?_
    fun other differs => by rw [ConnectionTable.setConn_of_ne _ _ differs]
  rw [ConnectionTable.setConn_self]
  apply ((table.conns conn).handleWrite_channel outcome).imp_right
  rintro ⟨writing, stops⟩
  refine ⟨?_, stops⟩
  rw [stops]
  exact fun same => absurd (same.trans writing) (by simp [Channel.disableWriting])

theorem Mirrors.down (mirrors : Mirrors table world) (serves : ops.Serves keeps)
    (kept : keeps world) (registry : table.RegistryInvariant)
    (channels : table.ChannelInvariant) {SIZECONN : Nat}
    (offered : table.Offered (.down conn))
    (stepTo : table.step SIZECONN (.down conn) = .ok after) :
    ∃ world', callChannels ops world [.update conn .disableAll] = .ok world' ∧
      keeps world' ∧ Mirrors after world' := by
  have live : table.Live conn := offered
  obtain ⟨reads, added, -, -⟩ := (channels.well conn).opened live
  have none := noneComesUp registry offered (by simp) stepTo
  obtain ⟨called, callEq, rfl⟩ := ConnectionTable.step_down_cases stepTo
  refine mirrors.update serves kept none (.inl ((registry.connections conn).mpr live))
    reads added ?_ fun other differs => ?_
  · refine (ConnectionTable.onConnection_channel callEq conn).trans ?_
    exact congrArg TcpConnection.channel_ (ConnectionTable.setConn_self _ _ _)
  · refine (ConnectionTable.onConnection_channel callEq other).trans ?_
    exact congrArg TcpConnection.channel_ (ConnectionTable.setConn_of_ne _ _ differs)

/-- `connectDestroyed` of a closed connection. -/
theorem Mirrors.removeChannel (mirrors : Mirrors table world) (serves : ops.Serves keeps)
    (kept : keeps world) (exists_ : (world.heap conn).isSome = true)
    (added : (table.conns conn).channel_.addedToLoop_ = true)
    (isNone : (table.conns conn).channel_.isNoneEvent = true) :
    ∃ world', world.step ops (.remove conn) = .ok world' ∧ keeps world' ∧
      Mirrors (table.removeChannel conn) world' ∧
        ∀ other, (world.heap other).isSome = true → (world'.heap other).isSome = true := by
  obtain ⟨value, found⟩ := Option.isSome_iff_exists.mp exists_
  obtain ⟨sameChannel, -⟩ := mirrors.channel conn value found
  obtain ⟨world', stepEq, kept'⟩ := serves world (.remove conn) kept
    ⟨value, found, by rw [sameChannel, added], by rw [sameChannel, isNone]⟩ trivial
  have heapEq := PollWorld.heap_of_remove found stepEq
  have none : NoneComesUp table (table.removeChannel conn) :=
    ⟨fun other connecting =>
      ((table.removeChannel_same conn).2.2.state other).symm.trans connecting,
      fun other held => held⟩
  refine ⟨world', stepEq, kept', mirrors.of_change none found heapEq ?_ (fun _ => rfl)
    fun other differs => ?_, fun other isSome => ?_⟩
  · have removed : (table.removeChannel conn).conns conn =
        { table.conns conn with channel_ := (table.conns conn).channel_.remove } :=
      ConnectionTable.setConn_self _ _ _
    rw [removed, ← sameChannel]
    rfl
  · exact congrArg TcpConnection.channel_ (ConnectionTable.setConn_of_ne _ _ differs)
  · rw [heapEq]
    by_cases same : other = conn
    · simp [same]
    · rw [PollWorld.store_of_ne _ _ same, isSome]

/-- The batch of `connectDestroyed`: each call on the table goes with one on the
poller. -/
theorem Mirrors.removeAll (serves : ops.Serves keeps) {SIZECONN : Nat}
    {conns : List ConnId} (mirrors : Mirrors table world) (kept : keeps world)
    (nodup : conns.Nodup)
    (closed : ∀ conn ∈ conns, table.state conn = .kDisconnected ∧
      (table.conns conn).channel_.addedToLoop_ = true ∧
        (table.conns conn).channel_.isNoneEvent = true ∧ (world.heap conn).isSome = true)
    (folded : conns.foldlM (ConnectionTable.connectDestroyed SIZECONN) table = .ok after) :
    ∃ world', (conns.map ChannelEvent.remove).foldlM (PollWorld.step ops) world =
      .ok world' ∧ keeps world' ∧ Mirrors after world' := by
  induction conns generalizing table world with
  | nil =>
      obtain rfl := Except.ok.inj folded
      exact ⟨world, rfl, kept, mirrors⟩
  | cons first conns ih =>
      obtain ⟨notMem, restNodup⟩ := List.nodup_cons.mp nodup
      obtain ⟨disconnected, added, isNone, isSome⟩ := closed first List.mem_cons_self
      rw [List.foldlM_cons, ConnectionTable.connectDestroyed,
        if_neg (by simp [disconnected])] at folded
      obtain ⟨world', stepEq, kept', mirrors', stays⟩ :=
        mirrors.removeChannel serves kept isSome added isNone
      have sameAt (other : ConnId) (member : other ∈ conns) :
          (table.removeChannel first).conns other = table.conns other :=
        ConnectionTable.setConn_of_ne _ _ fun same => notMem (same ▸ member)
      obtain ⟨final, finalEq, finalKept, finalMirrors⟩ := ih mirrors' kept' restNodup
        (fun other member => by
          obtain ⟨state, added, isNone, isSome⟩ := closed other (List.mem_cons_of_mem _ member)
          rw [ConnectionTable.state, sameAt other member]
          exact ⟨state, added, isNone, stays other isSome⟩) folded
      refine ⟨final, ?_, finalKept, finalMirrors⟩
      rw [List.map_cons, List.foldlM_cons, Except.bind_of_ok stepEq, finalEq]

theorem Mirrors.pendingFunctors (mirrors : Mirrors table world)
    (serves : ops.Serves keeps) (kept : keeps world) (registry : table.RegistryInvariant)
    (channels : table.ChannelInvariant) {SIZECONN : Nat}
    (stepTo : table.step SIZECONN .pendingFunctors = .ok after) :
    ∃ world', callChannels ops world
        (ServerEvent.pendingFunctors.channelCalls table after) = .ok world' ∧
      keeps world' ∧ Mirrors after world' := by
  have callsEq : ServerEvent.pendingFunctors.channelCalls table after =
      table.pendingFunctors_.map .remove := by
    rw [List.map_eq_flatMap]
    apply List.flatMap_congr
    intro conn member
    rw [if_neg (registry.pending_ne_kConnected conn member)]
  have detached : Mirrors { table with pendingFunctors_ := [] } world := by
    refine mirrors.of_same ⟨fun _ connecting => connecting, fun conn held => ?_⟩ fun _ => rfl
    rcases held with registered | pending | others
    · exact .inl registered
    · simp at pending
    · exact .inr (.inr others)
  obtain ⟨world', calledEq, kept', mirrors'⟩ := Mirrors.removeAll serves detached kept
    channels.pending_nodup (fun conn member => by
      have state := registry.pending conn member
      obtain ⟨reading, writing, added⟩ := (channels.well conn).disconnected state
      exact ⟨state, added.mpr member, by rw [Channel.isNoneEvent_eq, reading, writing]; rfl,
        mirrors.held conn (.inr (.inl member))⟩) stepTo
  refine ⟨world', ?_, kept', mirrors'⟩
  rw [callsEq, callChannels, calledEq]
  rfl

end Mirrors

/-! ## Whole runs -/

/-- What holds between two events of the loop. -/
structure Invariant (SIZECONN : Nat) (keeps : PollWorld Poller → Prop)
    (state : PolledServer Wheel Db Poller) : Prop where
  server : state.server.Invariant SIZECONN
  channels : state.server.table.ChannelInvariant
  mirrors : Mirrors state.server.table state.world
  kept : keeps state.world

theorem new_invariant (SIZECONN idleSeconds : Nat) (db : Db) {poller : Poller}
    (kept : keeps (.new poller)) :
    (new Wheel idleSeconds db poller).Invariant SIZECONN keeps where
  server := TcpMysqlServer.new_invariant SIZECONN idleSeconds db
  channels := ConnectionTable.new_channelInvariant
  mirrors := new_mirrors poller
  kept := kept

section Step

variable {SIZECONN : Nat} {reading : Reading} {process : Process Db}
  {state : PolledServer Wheel Db Poller}

/-! The step of the table that a callback makes. -/

theorem table_of_tableEvent {server after : TcpMysqlServer Wheel Db} {event : ServerEvent}
    {tableEvent : TableEvent} (eventEq : event.tableEvent = some tableEvent) {value : Unit}
    (ran : (TcpMysqlServer.step SIZECONN reading process event).run server =
      .ok value after) :
    server.table.step SIZECONN tableEvent = .ok after.table := by
  rw [TcpMysqlServer.step_of_tableEvent eventEq] at ran
  obtain ⟨table, stepTo, rfl⟩ := TcpMysqlServer.onTable_cases ran
  exact stepTo

theorem table_of_timer {server after : TcpMysqlServer Wheel Db} {value : Unit}
    (ran : (TcpMysqlServer.step SIZECONN reading process .timer).run server =
      .ok value after) : after.table = server.table := by
  rw [TcpMysqlServer.step, TcpMysqlServer.run_onCache] at ran
  cases timerEq : SqlCache.onTimer.run server.cache with
  | ok value cache =>
      rw [timerEq] at ran
      rw [← (EStateM.Result.ok.inj ran).2]
  | error fault cache =>
      rw [timerEq] at ran
      simp at ran

theorem table_of_read {server after : TcpMysqlServer Wheel Db} {conn : ConnId} {chunk : Bytes}
    {outcome : WriteOutcome} {value : Unit}
    (ran : (TcpMysqlServer.step SIZECONN reading process (.read conn chunk outcome)).run
      server = .ok value after) :
    ∃ echo, server.table.step SIZECONN (.message conn chunk echo outcome) =
      .ok after.table := by
  obtain ⟨touched, echo, cache, table, touchEq, -, sendEq, rfl⟩ :=
    TcpMysqlServer.handleRead_cases ran
  refine ⟨echo, ?_⟩
  simp only [ConnectionTable.step, touchEq]
  exact sendEq

/-- The calls that a callback makes on the poller succeed. -/
theorem Invariant.callChannels (invariant : state.Invariant SIZECONN keeps)
    (serves : ops.Serves keeps) {event : ServerEvent} (notUp : ∀ conn, event ≠ .up conn)
    (offered : state.server.Offered event) {after : TcpMysqlServer Wheel Db} {value : Unit}
    (ran : (TcpMysqlServer.step SIZECONN reading process event).run state.server =
      .ok value after) :
    ∃ world', PolledServer.callChannels ops state.world
        (event.channelCalls state.server.table after.table) = .ok world' ∧
      keeps world' ∧ Mirrors after.table world' := by
  have registry := invariant.server.table.toRegistryInvariant
  cases event with
  | up conn => exact absurd rfl (notUp conn)
  | read conn chunk outcome =>
      obtain ⟨echo, stepTo⟩ := table_of_read ran
      exact invariant.mirrors.message serves invariant.kept registry invariant.channels
        offered stepTo
  | down conn =>
      exact invariant.mirrors.down serves invariant.kept registry invariant.channels
        offered (table_of_tableEvent rfl ran)
  | writable conn outcome =>
      exact invariant.mirrors.writable serves invariant.kept registry invariant.channels
        offered (table_of_tableEvent rfl ran)
  | timer =>
      rw [table_of_timer ran]
      exact ⟨state.world, rfl, invariant.kept, invariant.mirrors⟩
  | pendingFunctors =>
      exact invariant.mirrors.pendingFunctors serves invariant.kept registry
        invariant.channels (table_of_tableEvent rfl ran)

/-- A callback that returns keeps what is known of the server and its channels. -/
theorem Invariant.ran (invariant : state.Invariant SIZECONN keeps)
    (positive : 1 ≤ SIZECONN) {event : ServerEvent} (offered : state.server.Offered event)
    {after : TcpMysqlServer Wheel Db} {value : Unit}
    (ran : (TcpMysqlServer.step SIZECONN reading process event).run state.server =
      .ok value after) {world' : PollWorld Poller} (kept : keeps world')
    (mirrors : Mirrors after.table world') :
    Invariant SIZECONN keeps (⟨after, world'⟩ : PolledServer Wheel Db Poller) := by
  refine ⟨TcpMysqlServer.step_invariant positive invariant.server offered ran, ?_, mirrors,
    kept⟩
  rcases TcpMysqlServer.step_table offered ran with same | ⟨tableEvent, tableOffered, stepTo⟩
  · exact same ▸ invariant.channels
  · exact invariant.channels.step invariant.server.table.toRegistryInvariant tableOffered
      stepTo

/-- What a callback does: it ends in a fault of its own, or it returns and so do its
calls on the poller. -/
theorem call_cases (ops : PollerOps Poller) (start : PolledServer Wheel Db Poller)
    (event : ServerEvent) :
    (∃ fault, start.call ops SIZECONN reading process event = .error (.callback fault)) ∨
      ∃ value after, (TcpMysqlServer.step SIZECONN reading process event).run start.server =
          .ok value after ∧
        ∀ world', PolledServer.callChannels ops start.world
            (event.channelCalls start.server.table after.table) = .ok world' →
          start.call ops SIZECONN reading process event = .ok ⟨after, world'⟩ := by
  unfold call
  cases ran : (TcpMysqlServer.step SIZECONN reading process event).run start.server with
  | error fault _ => exact .inl ⟨fault, rfl⟩
  | ok value after =>
      exact .inr ⟨value, after, rfl, fun world' called => Except.bind_of_ok called _⟩

theorem Invariant.call (invariant : state.Invariant SIZECONN keeps)
    (serves : ops.Serves keeps) (positive : 1 ≤ SIZECONN) {event : ServerEvent}
    (notUp : ∀ conn, event ≠ .up conn) (offered : state.server.Offered event) :
    (∃ fault, state.call ops SIZECONN reading process event = .error (.callback fault)) ∨
      ∃ value after, state.call ops SIZECONN reading process event = .ok after ∧
        after.Invariant SIZECONN keeps ∧
          (TcpMysqlServer.step SIZECONN reading process event).run state.server =
            .ok value after.server := by
  apply (call_cases ops state event).imp_right
  rintro ⟨value, after, ran, returns⟩
  obtain ⟨world', called, kept, mirrors⟩ := invariant.callChannels serves notUp offered ran
  exact ⟨value, ⟨after, world'⟩, returns world' called,
    invariant.ran positive offered ran kept mirrors, ran⟩

theorem Invariant.accept (invariant : state.Invariant SIZECONN keeps)
    (serves : ops.Serves keeps) (positive : 1 ≤ SIZECONN) {conn : ConnId} {fd : Nat}
    (offered : state.Offered (.accept conn fd)) :
    (∃ fault, state.step ops SIZECONN reading process (.accept conn fd) =
        .error (.callback fault)) ∨
      ∃ value after, state.step ops SIZECONN reading process (.accept conn fd) = .ok after ∧
        after.Invariant SIZECONN keeps ∧
          (TcpMysqlServer.step SIZECONN reading process (.up conn)).run state.server =
            .ok value after.server := by
  apply (call_cases ops { state with world := state.world.create ops conn fd }
    (.up conn)).imp_right
  rintro ⟨value, after, ran, returns⟩
  obtain ⟨world', called, kept, mirrors⟩ := invariant.mirrors.up serves invariant.kept
    invariant.channels invariant.server.table.toRegistryInvariant offered.1 offered.2
    (table_of_tableEvent rfl ran)
  exact ⟨value, ⟨after, world'⟩, returns world' called,
    invariant.ran positive offered.1 ran kept mirrors, ran⟩

omit [CircularBuffer Wheel] in
/-- The destructors find what they assert. -/
theorem Invariant.destroy (invariant : state.Invariant SIZECONN keeps)
    (serves : ops.Serves keeps) {conn : ConnId} (offered : state.Offered (.release conn)) :
    ∃ after, state.destroy ops conn = .ok after ∧ after.Invariant SIZECONN keeps ∧
      after.server = state.server := by
  obtain ⟨notHeld, isSome⟩ := offered
  obtain ⟨value, found⟩ := Option.isSome_iff_exists.mp isSome
  obtain ⟨disconnected, unknown⟩ : state.server.table.state conn = .kDisconnected ∧
      (state.server.table.conns conn).channel_.addedToLoop_ = false := by
    refine (invariant.channels.not_held invariant.server.table.toRegistryInvariant
      notHeld).resolve_left fun connecting => ?_
    simp [invariant.mirrors.fresh conn connecting] at found
  have sameChannel := (invariant.mirrors.channel conn value found).1
  obtain ⟨world', stepEq, kept⟩ := serves state.world (.destroy conn) invariant.kept
    ⟨value, found, by rw [sameChannel, unknown]⟩ trivial
  have heapEq := PollWorld.heap_of_destroy stepEq
  refine ⟨{ state with world := world' }, ?_, ⟨invariant.server, invariant.channels, ?_,
    kept⟩, rfl⟩
  · rw [PolledServer.destroy, Except.bind_of_ok (check_of disconnected),
      Except.bind_of_ok (callChannels_singleton stepEq)]
    rfl
  · have cases_ (other : ConnId) : world'.heap other = none ∨
        world'.heap other = state.world.heap other := by
      rw [heapEq]
      by_cases same : other = conn
      · exact .inl (by rw [same, PollWorld.store_self])
      · exact .inr (PollWorld.store_of_ne _ _ same)
    refine ⟨fun other connecting => ?_, fun other value' found' => ?_, fun other held => ?_⟩
    · rcases cases_ other with gone | same
      · exact gone
      · rw [same, invariant.mirrors.fresh other connecting]
    · rcases cases_ other with gone | same
      · simp [gone] at found'
      · exact invariant.mirrors.channel other value' (same ▸ found')
    · have differs : other ≠ conn := fun same => notHeld (same ▸ held)
      rw [heapEq, PollWorld.store_of_ne _ _ differs]
      exact invariant.mirrors.held other held

omit [CircularBuffer Wheel] in
theorem offered_callback (state : PolledServer Wheel Db Poller) {event : ServerEvent}
    (offered : state.Offered (.callback event)) :
    (∀ conn, event ≠ .up conn) ∧ state.server.Offered event := by
  cases event with
  | up conn => exact offered.elim
  | read conn chunk outcome => exact ⟨by simp, offered⟩
  | down conn => exact ⟨by simp, offered⟩
  | writable conn outcome => exact ⟨by simp, offered⟩
  | timer => exact ⟨by simp, offered⟩
  | pendingFunctors => exact ⟨by simp, offered⟩

/-- What an event of the loop does: a callback ends in a fault of its own, or
everything is as it should be and the server made a step of its own or none. -/
theorem Invariant.step (invariant : state.Invariant SIZECONN keeps)
    (serves : ops.Serves keeps) (positive : 1 ≤ SIZECONN) {event : PolledEvent}
    (offered : state.Offered event) :
    (∃ fault, state.step ops SIZECONN reading process event = .error (.callback fault)) ∨
      ∃ after, state.step ops SIZECONN reading process event = .ok after ∧
        after.Invariant SIZECONN keeps ∧
          (after.server = state.server ∨ ∃ serverEvent, state.server.Offered serverEvent ∧
            (TcpMysqlServer.system SIZECONN reading process).next state.server serverEvent =
              some after.server) := by
  cases event with
  | accept conn fd =>
      apply (invariant.accept serves positive offered).imp_right
      rintro ⟨value, after, stepEq, afterInvariant, ran⟩
      exact ⟨after, stepEq, afterInvariant,
        .inr ⟨.up conn, offered.1, TcpMysqlServer.next_eq_some ran⟩⟩
  | callback serverEvent =>
      obtain ⟨notUp, serverOffered⟩ := state.offered_callback offered
      apply (invariant.call serves positive notUp serverOffered).imp_right
      rintro ⟨value, after, stepEq, afterInvariant, ran⟩
      exact ⟨after, stepEq, afterInvariant,
        .inr ⟨serverEvent, serverOffered, TcpMysqlServer.next_eq_some ran⟩⟩
  | release conn =>
      obtain ⟨after, stepEq, afterInvariant, same⟩ := invariant.destroy serves offered
      exact .inr ⟨after, stepEq, afterInvariant, .inl same⟩

/-- A step that returned is one of these. -/
theorem Invariant.of_next (invariant : state.Invariant SIZECONN keeps)
    (serves : ops.Serves keeps) (positive : 1 ≤ SIZECONN) {event : PolledEvent}
    (offered : state.Offered event) {after : PolledServer Wheel Db Poller}
    (stepTo : (system ops SIZECONN reading process).next state event = some after) :
    after.Invariant SIZECONN keeps ∧
      (after.server = state.server ∨ ∃ serverEvent, state.server.Offered serverEvent ∧
        (TcpMysqlServer.system SIZECONN reading process).next state.server serverEvent =
          some after.server) := by
  have stepEq := Except.toOption_eq_some_iff.mp stepTo
  rcases invariant.step serves positive offered with
    ⟨fault, failed⟩ | ⟨after', stepEq', afterInvariant, server⟩
  · rw [failed] at stepEq
    simp at stepEq
  · rw [stepEq'] at stepEq
    obtain rfl := Except.ok.inj stepEq
    exact ⟨afterInvariant, server⟩

theorem invariant_of_reaches (serves : ops.Serves keeps) (positive : 1 ≤ SIZECONN)
    {idleSeconds : Nat} {db : Db} {poller : Poller} (kept : keeps (.new poller))
    {events : List PolledEvent}
    (run : (system ops SIZECONN reading process).Reaches (new Wheel idleSeconds db poller) events
      state) :
    state.Invariant SIZECONN keeps ∧
      ∃ serverEvents, (TcpMysqlServer.system SIZECONN reading process).Reaches
        (.new Wheel idleSeconds db) serverEvents state.server := by
  apply run.invariant fun _ state => state.Invariant SIZECONN keeps ∧
    ∃ serverEvents, (TcpMysqlServer.system SIZECONN reading process).Reaches
      (.new Wheel idleSeconds db) serverEvents state.server
  · exact ⟨new_invariant SIZECONN idleSeconds db kept, [], .start⟩
  · rintro - before event after - ⟨invariant, serverEvents, serverRun⟩ offered stepTo
    obtain ⟨afterInvariant, server⟩ := invariant.of_next serves positive offered stepTo
    refine ⟨afterInvariant, ?_⟩
    rcases server with same | ⟨serverEvent, serverOffered, serverStep⟩
    · exact ⟨serverEvents, same ▸ serverRun⟩
    · exact ⟨_, serverRun.step serverOffered serverStep⟩

end Step

/-! ## The set of the kernel -/

section EPoll

variable {SIZECONN : Nat} {state : PolledServer Wheel Db EPollPoller}

omit [CircularBuffer Wheel] in
/-- The connections that `epoll_wait` looks at. -/
theorem Invariant.epoll_iff
    (invariant : state.Invariant SIZECONN fun world =>
      EPollPoller.Invariant world ∧ EPollPoller.Idle world)
    (fd : Nat) (mask : BitVec 32) (conn : ConnId) :
    state.world.poller.epollfd_ fd = some (mask, conn) ↔
      state.server.table.Live conn ∧
        (∃ value, state.world.heap conn = some value ∧ value.fd_ = fd) ∧
          mask = (state.server.table.conns conn).channel_.events_ := by
  obtain ⟨epoll, idle⟩ := invariant.kept
  rw [epoll.epoll]
  constructor
  · rintro ⟨value, found, fdEq, added, rfl⟩
    have sameChannel := (invariant.mirrors.channel conn value found).1
    refine ⟨?_, ⟨value, found, fdEq⟩, by rw [sameChannel]⟩
    cases stateEq : (state.server.table.conns conn).state_ with
    | kConnected => exact .inl stateEq
    | kDisconnecting => exact .inr stateEq
    | kConnecting => simp [invariant.mirrors.fresh conn stateEq] at found
    | kDisconnected =>
        obtain ⟨reading, writing, -⟩ := (invariant.channels.well conn).disconnected stateEq
        have isNone : value.channel.isNoneEvent = true := by
          rw [sameChannel, Channel.isNoneEvent_eq, reading, writing]
          rfl
        rw [idle conn value found (epoll.known_of_added found added) isNone] at added
        exact absurd added (by decide)
  · rintro ⟨live, ⟨value, found, fdEq⟩, rfl⟩
    have sameChannel := (invariant.mirrors.channel conn value found).1
    obtain ⟨reading, known, -, -⟩ := (invariant.channels.well conn).opened live
    refine ⟨value, found, fdEq, ?_, by rw [sameChannel]⟩
    rcases epoll.index conn value found with ⟨unknown, -⟩ | ⟨-, added⟩ | ⟨-, -, isNone⟩
    · simp [sameChannel, known] at unknown
    · exact added
    · simp [sameChannel, Channel.isNoneEvent_eq, reading] at isNone

omit [CircularBuffer Wheel] in
/-- The mask of a live connection: input always, room while there is output. -/
theorem Invariant.events_of_live {keeps : PollWorld EPollPoller → Prop}
    (invariant : state.Invariant SIZECONN keeps) {conn : ConnId}
    (live : state.server.table.Live conn) :
    (state.server.table.conns conn).channel_.events_ =
      if (state.server.table.conns conn).outputBuffer_.contents = [] then Channel.kReadEvent
      else Channel.kReadEvent ||| Channel.kWriteEvent := by
  obtain ⟨reading, -, synced, -⟩ := (invariant.channels.well conn).opened live
  rw [Channel.events_, if_pos reading]
  by_cases empty : (state.server.table.conns conn).outputBuffer_.contents = []
  · rw [if_pos empty, if_neg fun writing => synced.mp writing empty]
    rfl
  · rw [if_neg empty, if_pos (synced.mpr empty)]

end EPoll

end PolledServer

end TcpMysql
