import TcpMysql.PolledServer

/-!
# The loop of the server

One iteration of `EventLoop::loop`: `poll` fills `activeChannels_`, each channel in
it gets its `handleEvent`, and the pending functors are called.  `revents_` decides
which handlers of a connection are called, and two of them may close it; later
entries of the list were filled in before that.  The listening socket and the timer
have channels of their own, whose handlers run somewhere among the others.

The file shows that the events of the loop are those that the server was modelled
with, so that what holds of the runs of `TcpMysqlServer` holds of the loop, and that
no assertion on the way fails.
-/

namespace TcpMysql

/-- What `readFd` returns: a positive number of bytes, zero or an error. -/
inductive ReadResult
  | data (chunk : Bytes)
  | eof
  | error
  deriving DecidableEq, Repr

def ReadResult.Valid : ReadResult → Prop
  | .data chunk => chunk ≠ []
  | _ => True

instance (result : ReadResult) : Decidable result.Valid :=
  match result with
  | .data _ => inferInstanceAs (Decidable (_ ≠ _))
  | .eof => inferInstanceAs (Decidable True)
  | .error => inferInstanceAs (Decidable True)

/-- What the socket does while one channel is handled. -/
structure SocketResults where
  read : ReadResult
  sent : WriteOutcome
  written : WriteOutcome

structure Reactor (Wheel : Type → Type) (Db : Type) where
  polled : PolledServer Wheel Db EPollPoller
  /-- The channels that are still to be handled, with their `revents_`. -/
  activeChannels_ : List (ConnId × BitVec 32)
  eventHandling_ : Bool

inductive ReactorEvent
  | poll (reports : List (BitVec 32 × ChannelPtr))
  | handleEvent (results : SocketResults)
  | accept (conn : ConnId) (fd : Nat)
  | timer
  | pendingFunctors
  | release (conn : ConnId)

namespace PolledServer

variable {Wheel : Type → Type} [CircularBuffer Wheel] {Db : Type}

section Handlers

variable (SIZECONN : Nat) (reading : Reading) (process : Process Db)
  (state : PolledServer Wheel Db EPollPoller) (conn : ConnId)

/-- `TcpConnection::handleClose`.  The second assertion is the one of
`removeConnectionInLoop`; the connection callback between the two leaves
`connections_` alone. -/
def handleClose : Except ReactorFault (PolledServer Wheel Db EPollPoller) := do
  check .assertion (state.server.table.Live conn)
  check .assertion (conn ∈ state.server.table.connections_)
  state.call EPollPoller.ops SIZECONN reading process (.down conn)

/-- `TcpConnection::handleRead`; `handleError` only logs. -/
def handleRead (results : SocketResults) :
    Except ReactorFault (PolledServer Wheel Db EPollPoller) :=
  match results.read with
  | .data chunk =>
      state.call EPollPoller.ops SIZECONN reading process (.read conn chunk results.sent)
  | .eof => state.handleClose SIZECONN reading process conn
  | .error => .ok state

def handleWrite (results : SocketResults) :
    Except ReactorFault (PolledServer Wheel Db EPollPoller) :=
  if (state.server.table.conns conn).channel_.writing = true then
    state.call EPollPoller.ops SIZECONN reading process (.writable conn results.written)
  else
    .ok state

/-- Call a handler if its bits are set. -/
def callIf (condition : Prop) [Decidable condition]
    (handler : PolledServer Wheel Db EPollPoller →
      Except ReactorFault (PolledServer Wheel Db EPollPoller)) :
    Except ReactorFault (PolledServer Wheel Db EPollPoller) :=
  if condition then handler state else .ok state

/-- `Channel::handleEventWithGuard`, with the callbacks of a connection.  The error
callback only logs. -/
def handleEventWithGuard (revents : BitVec 32) (results : SocketResults) :
    Except ReactorFault (PolledServer Wheel Db EPollPoller) := do
  let hungUp ← state.callIf (revents &&& POLLHUP ≠ 0 ∧ revents &&& POLLIN = 0)
    (·.handleClose SIZECONN reading process conn)
  let received ← hungUp.callIf (revents &&& (POLLIN ||| POLLPRI ||| POLLRDHUP) ≠ 0)
    (·.handleRead SIZECONN reading process conn results)
  received.callIf (revents &&& POLLOUT ≠ 0)
    (·.handleWrite SIZECONN reading process conn results)

/-- `Channel::handleEvent`, called through a pointer. -/
def handleEvent (revents : BitVec 32) (results : SocketResults) :
    Except ReactorFault (PolledServer Wheel Db EPollPoller) :=
  match state.world.heap conn with
  | none => .error (.poller .deletedChannel)
  | some _ => state.handleEventWithGuard SIZECONN reading process conn revents results

end Handlers

end PolledServer

namespace Reactor

variable {Wheel : Type → Type} [CircularBuffer Wheel] {Db : Type}

def new (Wheel : Type → Type) [CircularBuffer Wheel] (idleSeconds : Nat) (db : Db) :
    Reactor Wheel Db where
  polled := .new Wheel idleSeconds db .new
  activeChannels_ := []
  eventHandling_ := false

/-- Put the result of a handler in its place. -/
def withPolled (state : Reactor Wheel Db)
    (result : Except ReactorFault (PolledServer Wheel Db EPollPoller)) :
    Except ReactorFault (Reactor Wheel Db) := do
  let polled ← result
  return { state with polled := polled }

def poll (state : Reactor Wheel Db) (reports : List (BitVec 32 × ChannelPtr)) :
    Except ReactorFault (Reactor Wheel Db) := do
  let (activeChannels, world) ←
    (EPollPoller.poll state.polled.world reports).mapError .poller
  return {
    polled := { state.polled with world := world }
    activeChannels_ := activeChannels
    eventHandling_ := true }

/-- Handle the next active channel. -/
def handleNext (SIZECONN : Nat) (reading : Reading) (process : Process Db)
    (state : Reactor Wheel Db) (results : SocketResults) : Except ReactorFault (Reactor Wheel Db) :=
  match state.activeChannels_ with
  | [] => .ok state
  | (conn, revents) :: rest =>
      { state with activeChannels_ := rest }.withPolled
        (state.polled.handleEvent SIZECONN reading process conn revents results)

def step (SIZECONN : Nat) (reading : Reading) (process : Process Db) (state : Reactor Wheel Db) :
    ReactorEvent → Except ReactorFault (Reactor Wheel Db)
  | .poll reports => state.poll reports
  | .handleEvent results => state.handleNext SIZECONN reading process results
  | .accept conn fd => state.withPolled
      (state.polled.step EPollPoller.ops SIZECONN reading process (.accept conn fd))
  | .timer => state.withPolled
      (state.polled.step EPollPoller.ops SIZECONN reading process (.callback .timer))
  | .pendingFunctors => { state with eventHandling_ := false }.withPolled
      (state.polled.step EPollPoller.ops SIZECONN reading process
        (.callback .pendingFunctors))
  | .release conn => state.withPolled
      (state.polled.step EPollPoller.ops SIZECONN reading process (.release conn))

/-- The events that a hung-up TCP socket does not have: urgent data without input. -/
def Odd (revents : BitVec 32) : Prop :=
  revents &&& POLLHUP ≠ 0 ∧ revents &&& POLLIN = 0 ∧ revents &&& POLLPRI ≠ 0

instance (revents : BitVec 32) : Decidable (Odd revents) :=
  inferInstanceAs (Decidable (_ ∧ _))

/-- What `epoll_wait` may report: channels of its set, each once, with events that
they wait for, an error or a hang-up. -/
def Reports (world : PollWorld EPollPoller) (reports : List (BitVec 32 × ChannelPtr)) :
    Prop :=
  reports.length ≤ world.poller.events_ ∧ (reports.map Prod.snd).Nodup ∧
    ∀ report ∈ reports, ¬Odd report.1 ∧ ∃ value ∈ world.heap report.2,
      ∃ entry ∈ world.poller.epollfd_ value.fd_, entry.2 = report.2 ∧
        report.1 &&& ~~~(entry.1 ||| POLLERR ||| POLLHUP) = 0

instance (world : PollWorld EPollPoller) (reports : List (BitVec 32 × ChannelPtr)) :
    Decidable (Reports world reports) :=
  inferInstanceAs (Decidable (_ ∧ _ ∧ ∀ _ ∈ _, _))

def Offered (state : Reactor Wheel Db) : ReactorEvent → Prop
  | .poll reports => state.eventHandling_ = false ∧ Reports state.polled.world reports
  | .handleEvent results => state.activeChannels_ ≠ [] ∧ results.read.Valid
  | .accept conn fd => state.eventHandling_ = true ∧ state.polled.Offered (.accept conn fd)
  | .timer => state.eventHandling_ = true
  | .pendingFunctors => state.eventHandling_ = true ∧ state.activeChannels_ = []
  | .release conn => state.polled.Offered (.release conn)

instance (state : Reactor Wheel Db) (event : ReactorEvent) : Decidable (state.Offered event) :=
  match event with
  | .poll _ => inferInstanceAs (Decidable (_ ∧ _))
  | .handleEvent _ => inferInstanceAs (Decidable (_ ∧ _))
  | .accept _ _ => inferInstanceAs (Decidable (_ ∧ _))
  | .timer => inferInstanceAs (Decidable (_ = _))
  | .pendingFunctors => inferInstanceAs (Decidable (_ ∧ _))
  | .release conn => inferInstanceAs (Decidable (state.polled.Offered (.release conn)))

def system (SIZECONN : Nat) (reading : Reading) (process : Process Db) :
    EventSystem (Reactor Wheel Db) ReactorEvent where
  next state event := (state.step SIZECONN reading process event).toOption
  offered := Offered

instance (SIZECONN : Nat) (reading : Reading) (process : Process Db) (state : Reactor Wheel Db)
    (event : ReactorEvent) :
    Decidable ((system SIZECONN reading process).offered state event) :=
  inferInstanceAs (Decidable (state.Offered event))

end Reactor

/-! ## What stays up -/

/-- Only its own close takes a connection down. -/
theorem ConnectionTable.step_live {SIZECONN : Nat} {table after : ConnectionTable}
    {event : TableEvent} (registry : table.RegistryInvariant)
    (stepTo : table.step SIZECONN event = .ok after) {conn : ConnId}
    (live : table.Live conn) (notDown : event ≠ .down conn) : after.Live conn := by
  have of_same (same : SameConnections table after) : after.Live conn := by
    rwa [Live, same.state]
  cases event with
  | up caller =>
      exact ((onConnection_sameRegistry stepTo).live conn).mpr
        ((table.accepted_live caller conn).mpr (.inr live))
  | message caller chunk echo outcome =>
      obtain ⟨-, -, -, -, -, same⟩ := step_message_cases stepTo
      exact of_same same
  | down caller =>
      obtain ⟨called, callEq, rfl⟩ := step_down_cases stepTo
      have differs : conn ≠ caller := fun same => notDown (same ▸ rfl)
      exact ((onConnection_sameRegistry callEq).live conn).mpr
        ((table.closing_live caller conn).mpr ⟨differs, live⟩)
  | writable caller outcome => exact of_same (step_writable_cases stepTo).2.2
  | pendingFunctors =>
      exact of_same (step_pendingFunctors_cases registry.pending_ne_kConnected stepTo).2.2

namespace PolledServer

variable {Wheel : Type → Type} [CircularBuffer Wheel] {Db : Type} {SIZECONN : Nat}
  {reading : Reading} {process : Process Db}

theorem live_of_ran {server after : TcpMysqlServer Wheel Db} {event : ServerEvent} {value : Unit}
    (registry : server.table.RegistryInvariant)
    (ran : (TcpMysqlServer.step SIZECONN reading process event).run server =
      .ok value after) {conn : ConnId} (live : server.table.Live conn)
    (notDown : event ≠ .down conn) : after.table.Live conn := by
  cases event with
  | read caller chunk outcome =>
      obtain ⟨echo, stepTo⟩ := table_of_read ran
      exact ConnectionTable.step_live registry stepTo live (by simp)
  | timer => rwa [table_of_timer ran]
  | up caller =>
      exact ConnectionTable.step_live registry (table_of_tableEvent rfl ran) live (by simp)
  | down caller =>
      refine ConnectionTable.step_live registry (table_of_tableEvent rfl ran) live ?_
      exact fun same => notDown (by rw [TableEvent.down.inj same])
  | writable caller outcome =>
      exact ConnectionTable.step_live registry (table_of_tableEvent rfl ran) live (by simp)
  | pendingFunctors =>
      exact ConnectionTable.step_live registry (table_of_tableEvent rfl ran) live (by simp)

/-! ## The handlers -/

/-- A fault of the server itself. -/
def IsCallback (fault : ReactorFault) : Prop :=
  ∃ cause, fault = .callback cause

/-- Everything is as it should be, and the server is in a state of one of its runs. -/
structure Sound (SIZECONN : Nat) (reading : Reading) (process : Process Db)
    (start : TcpMysqlServer Wheel Db) (state : PolledServer Wheel Db EPollPoller) : Prop
    extends state.Invariant SIZECONN fun world =>
      EPollPoller.Invariant world ∧ EPollPoller.Idle world where
  reachable : ∃ events, (TcpMysqlServer.system SIZECONN reading process).Reaches start
    events state.server

/-- What a handler of a connection does: at most it takes that connection down. -/
structure Handled (SIZECONN : Nat) (reading : Reading) (process : Process Db)
    (start : TcpMysqlServer Wheel Db) (conn : ConnId)
    (before after : PolledServer Wheel Db EPollPoller) : Prop where
  sound : after.Sound SIZECONN reading process start
  others : ∀ other, other ≠ conn → before.server.table.Live other →
    after.server.table.Live other

variable {start : TcpMysqlServer Wheel Db} {state : PolledServer Wheel Db EPollPoller}
  {conn : ConnId}

theorem Sound.handled (sound : state.Sound SIZECONN reading process start) :
    Handled SIZECONN reading process start conn state state :=
  ⟨sound, fun _ _ live => live⟩

theorem Handled.trans {first second third : PolledServer Wheel Db EPollPoller}
    (left : Handled SIZECONN reading process start conn first second)
    (right : Handled SIZECONN reading process start conn second third) :
    Handled SIZECONN reading process start conn first third :=
  ⟨right.sound, fun other differs live =>
    right.others other differs (left.others other differs live)⟩

/-- A callback of the server. -/
theorem Sound.call (sound : state.Sound SIZECONN reading process start)
    (positive : 1 ≤ SIZECONN) {event : ServerEvent} (notUp : ∀ conn, event ≠ .up conn)
    (offered : state.server.Offered event) :
    (state.call EPollPoller.ops SIZECONN reading process event).Ends IsCallback fun after =>
      after.Sound SIZECONN reading process start ∧
        ∀ other, event ≠ .down other → state.server.table.Live other →
          after.server.table.Live other := by
  rcases sound.toInvariant.call EPollPoller.serves positive notUp offered with
    ⟨fault, failed⟩ | ⟨value, after, returned, invariant, ran⟩
  · rw [failed]
    exact ⟨fault, rfl⟩
  · rw [returned]
    obtain ⟨events, run⟩ := sound.reachable
    exact ⟨⟨invariant, _, run.step offered (TcpMysqlServer.next_eq_some ran)⟩,
      fun other notDown live =>
        live_of_ran sound.server.table.toRegistryInvariant ran live notDown⟩

theorem Sound.handleClose (sound : state.Sound SIZECONN reading process start)
    (positive : 1 ≤ SIZECONN) (live : state.server.table.Live conn) :
    (state.handleClose SIZECONN reading process conn).Ends IsCallback
      (Handled SIZECONN reading process start conn state) := by
  have registered := (sound.server.table.connections conn).mpr live
  have offered : state.server.Offered (.down conn) := live
  unfold PolledServer.handleClose
  rw [Except.bind_of_ok (check_of live), Except.bind_of_ok (check_of registered)]
  apply (sound.call positive (by simp) offered).mono
  rintro after ⟨afterSound, others⟩
  exact ⟨afterSound, fun other differs => others other
    fun same => differs (ServerEvent.down.inj same).symm⟩

theorem Sound.handleRead (sound : state.Sound SIZECONN reading process start)
    (positive : 1 ≤ SIZECONN) (live : state.server.table.Live conn)
    {results : SocketResults} (valid : results.read.Valid) :
    (state.handleRead SIZECONN reading process conn results).Ends IsCallback
      (Handled SIZECONN reading process start conn state) := by
  unfold PolledServer.handleRead
  cases readEq : results.read with
  | data chunk =>
      rw [readEq] at valid
      have offered : state.server.Offered (.read conn chunk results.sent) :=
        ⟨⟨live, ((sound.channels.well conn).opened live).1⟩, valid⟩
      apply (sound.call positive (by simp) offered).mono
      rintro after ⟨afterSound, others⟩
      exact ⟨afterSound, fun other _ => others other (by simp)⟩
  | eof => exact sound.handleClose positive live
  | error => exact sound.handled

/-- A connection that was closed before is left alone. -/
theorem Sound.handleWrite (sound : state.Sound SIZECONN reading process start)
    (positive : 1 ≤ SIZECONN) (conn : ConnId) (results : SocketResults) :
    (state.handleWrite SIZECONN reading process conn results).Ends IsCallback
      (Handled SIZECONN reading process start conn state) := by
  unfold PolledServer.handleWrite
  split
  · rename_i writing
    have offered : state.server.Offered (.writable conn results.written) := writing
    apply (sound.call positive (by simp) offered).mono
    rintro after ⟨afterSound, others⟩
    exact ⟨afterSound, fun other _ => others other (by simp)⟩
  · exact sound.handled

theorem Handled.callIf {before : PolledServer Wheel Db EPollPoller}
    (handled : Handled SIZECONN reading process start conn state before)
    {condition : Prop} [Decidable condition]
    {handler : PolledServer Wheel Db EPollPoller →
      Except ReactorFault (PolledServer Wheel Db EPollPoller)}
    (handles : condition → (handler before).Ends IsCallback
      (Handled SIZECONN reading process start conn before)) :
    (before.callIf condition handler).Ends IsCallback
      (Handled SIZECONN reading process start conn state) := by
  unfold PolledServer.callIf
  split
  · rename_i called
    exact (handles called).mono fun _ next => handled.trans next
  · exact handled

/-- After a hang-up without input there is nothing to read, so that a connection is
closed at most once. -/
theorem Sound.handleEventWithGuard (sound : state.Sound SIZECONN reading process start)
    (positive : 1 ≤ SIZECONN) (live : state.server.table.Live conn)
    {revents : BitVec 32} (notOdd : ¬Reactor.Odd revents)
    (noRdhup : revents &&& POLLRDHUP = 0) {results : SocketResults}
    (valid : results.read.Valid) :
    (state.handleEventWithGuard SIZECONN reading process conn revents results).Ends
      IsCallback (Handled SIZECONN reading process start conn state) := by
  have write (received : PolledServer Wheel Db EPollPoller)
      (handled : Handled SIZECONN reading process start conn state received) :
      (received.callIf (revents &&& POLLOUT ≠ 0)
        (·.handleWrite SIZECONN reading process conn results)).Ends IsCallback
          (Handled SIZECONN reading process start conn state) :=
    handled.callIf fun _ => handled.sound.handleWrite positive conn results
  unfold PolledServer.handleEventWithGuard
  by_cases hangUp : revents &&& POLLHUP ≠ 0 ∧ revents &&& POLLIN = 0
  · have noInput : revents &&& (POLLIN ||| POLLPRI ||| POLLRDHUP) = 0 := by
      have noPri : revents &&& POLLPRI = 0 := by
        by_contra urgent
        exact notOdd ⟨hangUp.1, hangUp.2, urgent⟩
      rw [BitVec.and_or_distrib_left, BitVec.and_or_distrib_left, hangUp.2, noPri, noRdhup]
      rfl
    apply (sound.handled.callIf fun _ => sound.handleClose positive live).bind
    intro closed handled
    apply Except.Ends.bind _ write
    exact handled.callIf fun input => absurd noInput input
  · have stays : state.callIf (revents &&& POLLHUP ≠ 0 ∧ revents &&& POLLIN = 0)
        (·.handleClose SIZECONN reading process conn) = .ok state := if_neg hangUp
    rw [Except.bind_of_ok stays]
    apply Except.Ends.bind _ write
    exact sound.handled.callIf fun _ => sound.handleRead positive live valid

theorem Sound.handleEvent (sound : state.Sound SIZECONN reading process start)
    (positive : 1 ≤ SIZECONN) (live : state.server.table.Live conn)
    {revents : BitVec 32} (notOdd : ¬Reactor.Odd revents)
    (noRdhup : revents &&& POLLRDHUP = 0) {results : SocketResults}
    (valid : results.read.Valid) :
    (state.handleEvent SIZECONN reading process conn revents results).Ends
      IsCallback (Handled SIZECONN reading process start conn state) := by
  have held : state.server.table.Held conn :=
    .inl ((sound.server.table.connections conn).mpr live)
  obtain ⟨value, found⟩ := Option.isSome_iff_exists.mp (sound.mirrors.held conn held)
  unfold PolledServer.handleEvent
  rw [found]
  exact sound.handleEventWithGuard positive live notOdd noRdhup valid

/-- An event that is not a handler of a connection. -/
theorem Sound.step (sound : state.Sound SIZECONN reading process start)
    (positive : 1 ≤ SIZECONN) {event : PolledEvent} (offered : state.Offered event)
    (notDown : ∀ conn, event ≠ .callback (.down conn)) :
    (state.step EPollPoller.ops SIZECONN reading process event).Ends IsCallback
      fun after => after.Sound SIZECONN reading process start ∧
        ∀ other, state.server.table.Live other → after.server.table.Live other := by
  have registry := sound.server.table.toRegistryInvariant
  obtain ⟨events, run⟩ := sound.reachable
  cases event with
  | accept conn fd =>
      rcases sound.toInvariant.accept EPollPoller.serves positive offered with
        ⟨fault, failed⟩ | ⟨value, after, returned, invariant, ran⟩
      · rw [failed]
        exact ⟨fault, rfl⟩
      · have cameUp : (TcpMysqlServer.system SIZECONN reading process).Reaches start
            (events ++ [.up conn]) after.server :=
          run.step offered.1 (TcpMysqlServer.next_eq_some ran)
        rw [returned]
        exact ⟨⟨invariant, _, cameUp⟩,
          fun other live => live_of_ran registry ran live (by simp)⟩
  | callback serverEvent =>
      obtain ⟨notUp, serverOffered⟩ := state.offered_callback offered
      apply (sound.call positive notUp serverOffered).mono
      rintro after ⟨afterSound, others⟩
      refine ⟨afterSound, fun other => others other ?_⟩
      exact fun same => notDown other (by rw [same])
  | release conn =>
      obtain ⟨after, returned, invariant, same⟩ :=
        sound.toInvariant.destroy EPollPoller.serves offered
      have stepEq : state.step EPollPoller.ops SIZECONN reading process (.release conn) =
        .ok after := returned
      rw [stepEq]
      exact ⟨⟨invariant, events, same ▸ run⟩, fun other live => same ▸ live⟩

end PolledServer

/-! ## The list of active channels -/

namespace Reactor

open PolledServer (IsCallback Sound)

variable {Wheel : Type → Type} [CircularBuffer Wheel] {Db : Type} {SIZECONN : Nat}
  {reading : Reading} {process : Process Db}
  {start : TcpMysqlServer Wheel Db} {state : Reactor Wheel Db}

/-- What holds between two events: the channels that are still to be handled belong
to connections that are up, and `poll` has not reported what it cannot. -/
structure Invariant (SIZECONN : Nat) (reading : Reading) (process : Process Db)
    (start : TcpMysqlServer Wheel Db) (state : Reactor Wheel Db) : Prop where
  sound : state.polled.Sound SIZECONN reading process start
  active : ∀ entry ∈ state.activeChannels_, state.polled.server.table.Live entry.1 ∧
    ¬Odd entry.2 ∧ entry.2 &&& POLLRDHUP = 0
  nodup : (state.activeChannels_.map Prod.fst).Nodup

theorem Reports.entry {world : PollWorld EPollPoller}
    {reports : List (BitVec 32 × ChannelPtr)} (reported : Reports world reports)
    {report : BitVec 32 × ChannelPtr} (member : report ∈ reports) :
    ∃ fd mask, world.poller.epollfd_ fd = some (mask, report.2) ∧
      report.1 &&& ~~~(mask ||| POLLERR ||| POLLHUP) = 0 := by
  obtain ⟨-, value, -, ⟨mask, channel⟩, entry, rfl, bits⟩ := reported.2.2 report member
  exact ⟨value.fd_, mask, entry, bits⟩

/-- No connection waits for `POLLRDHUP`. -/
theorem and_rdhup_eq_zero (channel : Channel) {revents : BitVec 32}
    (bits : revents &&& ~~~(channel.events_ ||| POLLERR ||| POLLHUP) = 0) :
    revents &&& POLLRDHUP = 0 := by
  have outside : ~~~(channel.events_ ||| POLLERR ||| POLLHUP) &&& POLLRDHUP = POLLRDHUP := by
    obtain ⟨reading, writing, added⟩ := channel
    cases reading <;> cases writing <;> cases added <;> decide
  rw [← outside, ← BitVec.and_assoc, bits]
  exact BitVec.zero_and

theorem Invariant.poll (invariant : state.Invariant SIZECONN reading process start)
    {reports : List (BitVec 32 × ChannelPtr)}
    (reported : Reports state.polled.world reports) :
    (state.poll reports).Ends IsCallback (Invariant SIZECONN reading process start) := by
  have sound := invariant.sound
  have pollEq := sound.kept.1.poll reported.1 fun report member => by
    obtain ⟨fd, mask, entry, -⟩ := reported.entry member
    exact ⟨fd, mask, entry⟩
  obtain ⟨after, stepEq, kept⟩ :=
    EPollPoller.serves _ (.poll reports.length) sound.kept trivial trivial
  obtain rfl := Except.ok.inj stepEq
  unfold Reactor.poll
  rw [pollEq]
  refine ⟨⟨⟨sound.server, sound.channels, ?_, kept⟩, sound.reachable⟩,
    fun entry member => ?_, ?_⟩
  · exact ⟨sound.mirrors.fresh, sound.mirrors.channel, sound.mirrors.held⟩
  · obtain ⟨report, reportMember, rfl⟩ := List.mem_map.mp member
    obtain ⟨fd, mask, entry, bits⟩ := reported.entry reportMember
    obtain ⟨live, -, rfl⟩ := (sound.epoll_iff fd mask report.2).mp entry
    exact ⟨live, (reported.2.2 report reportMember).1, and_rdhup_eq_zero _ bits⟩
  · have namesEq : (reports.map fun report => (report.2, report.1)).map Prod.fst =
        reports.map Prod.snd := by
      rw [List.map_map]
      rfl
    simp only [namesEq]
    exact reported.2.1

theorem Invariant.handleNext (invariant : state.Invariant SIZECONN reading process start)
    (positive : 1 ≤ SIZECONN) {results : SocketResults} (valid : results.read.Valid) :
    (state.handleNext SIZECONN reading process results).Ends IsCallback
      (Invariant SIZECONN reading process start) := by
  unfold Reactor.handleNext
  split
  · exact invariant
  · rename_i conn revents rest activeEq
    have nodup := invariant.nodup
    have active := invariant.active
    rw [activeEq] at nodup active
    obtain ⟨notLater, restNodup⟩ := List.nodup_cons.mp nodup
    obtain ⟨live, notOdd, noRdhup⟩ := active _ List.mem_cons_self
    apply (invariant.sound.handleEvent positive live notOdd noRdhup valid).bind
    intro after handled
    refine ⟨handled.sound, fun entry member => ?_, restNodup⟩
    obtain ⟨live, bits⟩ := active entry (List.mem_cons_of_mem _ member)
    have listed : entry.1 ∈ rest.map Prod.fst := List.mem_map_of_mem member
    have differs : entry.1 ≠ conn := fun same => notLater (same ▸ listed)
    exact ⟨handled.others entry.1 differs live, bits⟩

/-- An event that closes no connection keeps the rest of the list as good as it was. -/
theorem Invariant.withPolled (invariant : state.Invariant SIZECONN reading process start)
    {result : Except ReactorFault (PolledServer Wheel Db EPollPoller)} {handling : Bool}
    (ends : result.Ends IsCallback fun after => after.Sound SIZECONN reading process start ∧
      ∀ other, state.polled.server.table.Live other → after.server.table.Live other) :
    ({ state with eventHandling_ := handling }.withPolled result).Ends IsCallback
      (Invariant SIZECONN reading process start) := by
  apply ends.bind
  rintro after ⟨sound, stays⟩
  refine ⟨sound, fun entry member => ?_, invariant.nodup⟩
  obtain ⟨live, bits⟩ := invariant.active entry member
  exact ⟨stays entry.1 live, bits⟩

theorem Invariant.step (invariant : state.Invariant SIZECONN reading process start)
    (positive : 1 ≤ SIZECONN) {event : ReactorEvent} (offered : state.Offered event) :
    (state.step SIZECONN reading process event).Ends IsCallback
      (Invariant SIZECONN reading process start) := by
  cases event with
  | poll reports => exact invariant.poll offered.2
  | handleEvent results => exact invariant.handleNext positive offered.2
  | accept conn fd =>
      exact invariant.withPolled (invariant.sound.step positive offered.2 (by simp))
  | timer =>
      have timerOffered : state.polled.Offered (.callback .timer) := trivial
      exact invariant.withPolled (invariant.sound.step positive timerOffered (by simp))
  | pendingFunctors =>
      have functorsOffered : state.polled.Offered (.callback .pendingFunctors) := trivial
      exact invariant.withPolled (invariant.sound.step positive functorsOffered (by simp))
  | release conn =>
      exact invariant.withPolled (invariant.sound.step positive offered (by simp))

theorem new_invariant (SIZECONN : Nat) (reading : Reading) (process : Process Db)
    (idleSeconds : Nat) (db : Db) :
    (new Wheel idleSeconds db).Invariant SIZECONN reading process (.new Wheel idleSeconds db) where
  sound := ⟨PolledServer.new_invariant SIZECONN idleSeconds db
    ⟨EPollPoller.new_invariant, by simp [EPollPoller.Idle, PollWorld.new]⟩, [], .start⟩
  active := by simp [new]
  nodup := List.nodup_nil

theorem invariant_of_reaches (positive : 1 ≤ SIZECONN) {idleSeconds : Nat} {db : Db}
    {events : List ReactorEvent}
    (run : (system SIZECONN reading process).Reaches (new Wheel idleSeconds db) events state) :
    state.Invariant SIZECONN reading process (.new Wheel idleSeconds db) := by
  apply run.invariant fun _ state =>
    state.Invariant SIZECONN reading process (.new Wheel idleSeconds db)
  · exact new_invariant SIZECONN reading process idleSeconds db
  · intro _ before event after _ invariant offered stepTo
    exact (invariant.step positive offered).of_ok (Except.toOption_eq_some_iff.mp stepTo)

/-- Whatever the kernel reports can be handled, except for the odd events. -/
theorem reports_of_waits {world : PollWorld EPollPoller}
    (invariant : EPollPoller.Invariant world) {ready : Nat → BitVec 32}
    {reports : List (BitVec 32 × ChannelPtr)}
    (waits : EPollPoller.Waits world ready reports)
    (notOdd : ∀ report ∈ reports, ¬Odd report.1) : Reports world reports := by
  refine ⟨waits.fits, waits.nodup, fun report member => ⟨notOdd report member, ?_⟩⟩
  obtain ⟨fd, mask, entry, reportEq, -⟩ := waits.sound report member
  obtain ⟨value, found, rfl, -, -⟩ := (invariant.epoll _ _ _).mp entry
  refine ⟨value, found, (mask, report.2), entry, rfl, ?_⟩
  rw [reportEq, PollWorld.reported, BitVec.and_assoc, BitVec.and_not_self]
  exact BitVec.and_zero

end Reactor

end TcpMysql
