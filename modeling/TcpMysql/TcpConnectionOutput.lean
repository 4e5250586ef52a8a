import TcpMysql.EventRuns
import TcpMysql.TcpConnection
import Mathlib.Data.List.Induction

/-!
# Replies and the deferred shutdown

Between its establishment and its close a connection sees only three things: a
reply handed to `send`, the `shutdown` with which the server evicts it, and the
write events of its channel.  The invariant below ties the calls made on the
socket, the output buffer, the writing flag and the connection state together,
for every order of the three and every behaviour of the socket.

`send` takes a `StringPiece`, whose length is an `int`.  The invariant therefore
speaks of the part of each reply that survives this conversion.
-/

namespace TcpMysql

/-- A `std::string`: its size is below the greatest `ptrdiff_t`. -/
structure StdString where
  text : Bytes
  size_lt : text.length < 2 ^ 63

namespace TcpConnection

/-- What the server and the loop do with a connection before it closes. -/
inductive Operation
  | send (reply : StdString) (outcome : WriteOutcome)
  | shutdown
  | handleWrite (outcome : WriteOutcome)

def perform (conn : TcpConnection) : Operation → Except Fault TcpConnection
  | .send reply outcome => conn.send reply.text outcome
  | .shutdown => .ok conn.shutdown
  | .handleWrite outcome => .ok (conn.handleWrite outcome)

/-- The peer has not reset the connection. -/
def WriteOutcome.Undisturbed (outcome : WriteOutcome) : Prop :=
  outcome ≠ .error .EPIPE ∧ outcome ≠ .error .ECONNRESET

def Operation.Undisturbed : Operation → Prop
  | .send _ outcome => WriteOutcome.Undisturbed outcome
  | .shutdown => True
  | .handleWrite outcome => WriteOutcome.Undisturbed outcome

/-- A connection under operations that meet no reset by the peer. -/
def outputSystem : EventSystem TcpConnection Operation where
  next conn operation := (conn.perform operation).toOption
  offered _ operation := operation.Undisturbed

/-- The replies handed to `send` while the connection is `kConnected`: those
before the first `shutdown`. -/
def repliesSent : List Operation → List StdString
  | [] => []
  | .send reply _ :: rest => reply :: repliesSent rest
  | .shutdown :: _ => []
  | .handleWrite _ :: rest => repliesSent rest

/-- The bytes that have been written to the socket. -/
def written (conn : TcpConnection) : Bytes :=
  conn.socket_.flatMap SocketCall.bytes

/-- No reply has lost a byte: what was written followed by what is still in the
output buffer is all that was sent, in order, and the writing half is closed at
most once, after all of it was written and before nothing else. -/
structure Intact (replies : List StdString) (conn : TcpConnection) : Prop where
  bytes : conn.written ++ conn.outputBuffer_.contents =
    (replies.map StdString.text).flatten
  shutdown_once : conn.socket_.count .shutdownWrite ≤ 1
  shutdown_last : ∀ before after,
    conn.socket_ = before ++ .shutdownWrite :: after →
      before.flatMap SocketCall.bytes = (replies.map StdString.text).flatten ∧
        ∀ accepted, .write accepted ∉ after

/-! ## The length of a string piece -/

theorem sentLength_of_lt {message : Bytes} (short : message.length < 2 ^ 31) :
    sentLength message = message.length :=
  toSizeT_toInt_of_lt short

theorem sentLength_ne {message : Bytes} (long : 2 ^ 31 ≤ message.length)
    (bounded : message.length < 2 ^ 63) :
    sentLength message ≠ message.length :=
  toSizeT_toInt_ne long bounded

theorem send_of_short (conn : TcpConnection) {message : Bytes}
    (short : message.length < 2 ^ 31) (outcome : WriteOutcome) :
    ∃ sent, conn.send message outcome = .ok sent := by
  by_cases connected : conn.state_ = .kConnected
  · refine ⟨conn.deliver (message.take message.length) outcome, ?_⟩
    rw [send_of_connected _ _ connected, sentLength_of_lt short,
      if_neg (Nat.lt_irrefl _)]
  · exact ⟨conn, send_of_not_connected _ _ connected⟩

/-- The part of a reply that `send` delivers. -/
def transmitted (reply : StdString) : Bytes :=
  reply.text.take (sentLength reply.text)

theorem transmitted_of_lt {reply : StdString}
    (short : reply.text.length < 2 ^ 31) : transmitted reply = reply.text := by
  rw [transmitted, sentLength_of_lt short, List.take_length]

theorem flatten_transmitted_length_le (replies : List StdString) :
    (replies.map transmitted).flatten.length ≤
      (replies.map StdString.text).flatten.length := by
  induction replies with
  | nil => simp
  | cons reply replies ih =>
      simp only [List.map_cons, List.flatten_cons, List.length_append]
      have prefixLe : (transmitted reply).length ≤ reply.text.length :=
        List.length_take_le' _ _
      omega

/-- If nothing is missing from the concatenation, nothing is missing from any of
the replies. -/
theorem transmitted_length_of_flatten_eq {replies : List StdString}
    (equal : (replies.map transmitted).flatten =
      (replies.map StdString.text).flatten)
    {reply : StdString} (member : reply ∈ replies) :
    (transmitted reply).length = reply.text.length := by
  have lengths := congrArg List.length equal
  clear equal
  induction replies with
  | nil => simp at member
  | cons first rest ih =>
      simp only [List.map_cons, List.flatten_cons, List.length_append] at lengths
      have firstLe : (transmitted first).length ≤ first.text.length :=
        List.length_take_le' _ _
      have restLe := flatten_transmitted_length_le rest
      rcases List.mem_cons.mp member with rfl | later
      · omega
      · exact ih later (by omega)

/-! ## Histories of operations -/

theorem repliesSent_append_of_shutdown {operations : List Operation}
    (shut : .shutdown ∈ operations) (more : List Operation) :
    repliesSent (operations ++ more) = repliesSent operations := by
  induction operations with
  | nil => simp at shut
  | cons operation operations ih =>
      cases operation with
      | send reply outcome =>
          simp only [List.cons_append, repliesSent]
          rw [ih (by simpa using shut)]
      | shutdown => rfl
      | handleWrite outcome =>
          simp only [List.cons_append, repliesSent]
          exact ih (by simpa using shut)

theorem repliesSent_append_of_not_shutdown {operations : List Operation}
    (absent : .shutdown ∉ operations) (more : List Operation) :
    repliesSent (operations ++ more) =
      repliesSent operations ++ repliesSent more := by
  induction operations with
  | nil => rfl
  | cons operation operations ih =>
      cases operation with
      | send reply outcome =>
          simp only [List.cons_append, repliesSent, List.cons.injEq, true_and]
          exact ih (by simpa using absent)
      | shutdown => simp at absent
      | handleWrite outcome =>
          simp only [List.cons_append, repliesSent]
          exact ih (by simpa using absent)

theorem repliesSent_append_other (operations : List Operation)
    {operation : Operation} (silent : repliesSent [operation] = []) :
    repliesSent (operations ++ [operation]) = repliesSent operations := by
  by_cases shut : .shutdown ∈ operations
  · exact repliesSent_append_of_shutdown shut _
  · rw [repliesSent_append_of_not_shutdown shut, silent, List.append_nil]

/-! ## The invariant -/

/-- The channel waits for room exactly while the output buffer holds bytes. -/
def Synced (conn : TcpConnection) : Prop :=
  conn.channel_.writing = true ↔ conn.outputBuffer_.contents ≠ []

theorem readableBytes_eq_zero_iff (buffer : Buffer) :
    buffer.readableBytes = 0 ↔ buffer.contents = [] := by
  rw [← Buffer.length_contents, List.length_eq_zero_iff]

theorem queueOutput_synced {conn : TcpConnection} (synced : conn.Synced)
    (rest : Bytes) : (conn.queueOutput rest).Synced := by
  by_cases something : 0 < rest.length
  · have restNe : rest ≠ [] := List.ne_nil_of_length_pos something
    have writing : (conn.queueOutput rest).channel_.writing = true := by
      simp only [queueOutput, if_pos something]
      split <;> simp_all [Channel.enableWriting]
    simp [Synced, writing, queueOutput_contents, restNe]
  · rw [queueOutput, if_neg something]
    exact synced

theorem callSocket_synced {conn : TcpConnection} (synced : conn.Synced)
    (call : SocketCall) : (conn.callSocket call).Synced :=
  synced

theorem deliver_synced {conn : TcpConnection} (synced : conn.Synced)
    (message : Bytes) (outcome : WriteOutcome) :
    (conn.deliver message outcome).Synced := by
  unfold deliver
  split
  · split
    · exact queueOutput_synced (callSocket_synced synced _) _
    · split
      · exact synced
      · exact queueOutput_synced synced _
  · exact queueOutput_synced synced _

/-- Delivering adds the message to what was written or is still queued, and the
only call it makes on the socket is a `write`. -/
theorem deliver_bytes (conn : TcpConnection) (message : Bytes)
    {outcome : WriteOutcome}
    (undisturbed : WriteOutcome.Undisturbed outcome) :
    (conn.deliver message outcome).written ++
        (conn.deliver message outcome).outputBuffer_.contents =
      conn.written ++ conn.outputBuffer_.contents ++ message := by
  unfold deliver
  split
  · rename_i idle
    have empty := (readableBytes_eq_zero_iff _).mp idle.2
    cases outcome with
    | room count =>
        simp [WriteOutcome.write, written, queueOutput_contents, empty, SocketCall.bytes]
    | error errno =>
        simp only [WriteOutcome.write]
        rw [if_neg]
        · simp [written, queueOutput_contents]
        · rintro (rfl | rfl)
          · exact undisturbed.1 rfl
          · exact undisturbed.2 rfl
  · simp [written, queueOutput_contents]

theorem deliver_socket (conn : TcpConnection) (message : Bytes)
    (outcome : WriteOutcome) :
    (conn.deliver message outcome).socket_ = conn.socket_ ∨
      ∃ accepted, (conn.deliver message outcome).socket_ =
        conn.socket_ ++ [.write accepted] := by
  unfold deliver
  split
  · split
    · exact .inr ⟨_, queueOutput_socket _ _⟩
    · split
      · exact .inl rfl
      · exact .inl (queueOutput_socket _ _)
  · exact .inl (queueOutput_socket _ _)

/-- The writing half is open. -/
def WritingOpen (conn : TcpConnection) : Prop :=
  .shutdownWrite ∉ conn.socket_

/-- The writing half was closed by the last call on the socket. -/
def WritingClosed (conn : TcpConnection) : Prop :=
  ∃ calls, conn.socket_ = calls ++ [.shutdownWrite] ∧ .shutdownWrite ∉ calls

theorem deliver_writingOpen {conn : TcpConnection} (writingOpen : conn.WritingOpen)
    (message : Bytes) (outcome : WriteOutcome) :
    (conn.deliver message outcome).WritingOpen := by
  unfold WritingOpen at *
  rcases conn.deliver_socket message outcome with same | ⟨accepted, more⟩
  · rwa [same]
  · simpa [more] using writingOpen

/-- The phases of a connection between its establishment and its close. -/
inductive Phase (operations : List Operation) (conn : TcpConnection) : Prop
  | connected (state : conn.state_ = .kConnected)
      (noShutdown : .shutdown ∉ operations) (writingOpen : conn.WritingOpen)
  | draining (state : conn.state_ = .kDisconnecting)
      (shut : .shutdown ∈ operations) (writing : conn.channel_.writing = true)
      (writingOpen : conn.WritingOpen)
  | finished (state : conn.state_ = .kDisconnecting)
      (shut : .shutdown ∈ operations) (idle : conn.channel_.writing = false)
      (writingClosed : conn.WritingClosed)

/-- The invariant of the output side. -/
structure OutputInvariant (operations : List Operation) (conn : TcpConnection) :
    Prop where
  bytes : conn.written ++ conn.outputBuffer_.contents =
    ((repliesSent operations).map transmitted).flatten
  sizes : ∀ reply ∈ repliesSent operations,
    sentLength reply.text ≤ reply.text.length
  synced : conn.Synced
  phase : conn.Phase operations

theorem established_invariant : OutputInvariant [] new.established where
  bytes := by simp [established, new, written, repliesSent]
  sizes := by simp [repliesSent]
  synced := by simp [Synced, established, new, Channel.enableReading, Channel.new]
  phase := .connected rfl (by simp) (by simp [WritingOpen, established, new])

/-- An operation other than `shutdown` that leaves the connection alone leaves
its phase alone. -/
theorem Phase.append {operations : List Operation} {conn : TcpConnection}
    (phase : conn.Phase operations) {operation : Operation}
    (notShutdown : operation ≠ .shutdown) :
    conn.Phase (operations ++ [operation]) := by
  cases phase with
  | connected state noShutdown writingOpen =>
      refine .connected state ?_ writingOpen
      simp [noShutdown, notShutdown.symm]
  | draining state shut writing writingOpen =>
      exact .draining state (by simp [shut]) writing writingOpen
  | finished state shut idle writingClosed =>
      exact .finished state (by simp [shut]) idle writingClosed

theorem shutdownInLoop_bytes (conn : TcpConnection) :
    conn.shutdownInLoop.written = conn.written := by
  unfold shutdownInLoop
  split
  · rfl
  · simp [written, SocketCall.bytes]

theorem shutdownInLoop_writingClosed {conn : TcpConnection}
    (writingOpen : conn.WritingOpen) (idle : conn.channel_.writing = false) :
    conn.shutdownInLoop.WritingClosed :=
  ⟨conn.socket_, by simp [shutdownInLoop, idle], writingOpen⟩

theorem send_invariant {operations : List Operation}
    {conn sent : TcpConnection} (invariant : OutputInvariant operations conn)
    {reply : StdString} {outcome : WriteOutcome}
    (undisturbed : WriteOutcome.Undisturbed outcome)
    (sendEq : conn.send reply.text outcome = .ok sent) :
    OutputInvariant (operations ++ [.send reply outcome]) sent := by
  have closedCase (notConnected : conn.state_ ≠ .kConnected)
      (shut : .shutdown ∈ operations) :
      OutputInvariant (operations ++ [.send reply outcome]) sent := by
    rw [send_of_not_connected _ _ notConnected] at sendEq
    obtain rfl := Except.ok.inj sendEq
    have repliesEq := repliesSent_append_of_shutdown shut [.send reply outcome]
    exact ⟨repliesEq ▸ invariant.bytes, repliesEq ▸ invariant.sizes,
      invariant.synced, invariant.phase.append (by simp)⟩
  cases invariant.phase with
  | connected state noShutdown writingOpen =>
      rw [send_of_connected _ _ state] at sendEq
      by_cases beyond : reply.text.length < sentLength reply.text
      · rw [if_pos beyond] at sendEq
        exact absurd sendEq (by simp)
      · rw [if_neg beyond] at sendEq
        obtain rfl := Except.ok.inj sendEq
        have repliesEq : repliesSent (operations ++ [.send reply outcome]) =
            repliesSent operations ++ [reply] :=
          repliesSent_append_of_not_shutdown noShutdown _
        refine ⟨?_, ?_, deliver_synced invariant.synced _ _, ?_⟩
        · rw [deliver_bytes _ _ undisturbed, invariant.bytes, repliesEq]
          simp [transmitted]
        · rw [repliesEq]
          intro other member
          rcases List.mem_append.mp member with earlier | last
          · exact invariant.sizes other earlier
          · rw [List.mem_singleton.mp last]
            exact Nat.le_of_not_lt beyond
        · refine .connected ?_ (by simp [noShutdown])
            (deliver_writingOpen writingOpen _ _)
          rw [deliver_state, state]
  | draining state shut => exact closedCase (by simp [state]) shut
  | finished state shut => exact closedCase (by simp [state]) shut

theorem shutdown_invariant {operations : List Operation}
    {conn : TcpConnection} (invariant : OutputInvariant operations conn) :
    OutputInvariant (operations ++ [.shutdown]) conn.shutdown := by
  have repliesEq : repliesSent (operations ++ [.shutdown]) =
      repliesSent operations := repliesSent_append_other operations rfl
  cases invariant.phase with
  | connected state noShutdown writingOpen =>
      have shutdownEq : conn.shutdown =
          { conn with state_ := .kDisconnecting }.shutdownInLoop := by
        rw [shutdown, if_pos state]
      refine ⟨?_, repliesEq ▸ invariant.sizes, ?_, ?_⟩
      · rw [shutdownEq, shutdownInLoop_bytes, repliesEq]
        simpa [written] using invariant.bytes
      · rw [shutdownEq]
        simpa [Synced] using invariant.synced
      · rw [shutdownEq]
        cases writing : conn.channel_.writing with
        | true =>
            refine .draining (by simp) (by simp) (by simpa using writing) ?_
            simpa [WritingOpen, shutdownInLoop, writing] using writingOpen
        | false =>
            exact .finished (by simp) (by simp) (by simpa using writing)
              (shutdownInLoop_writingClosed writingOpen writing)
  | draining state shut writing writingOpen =>
      rw [shutdown, if_neg (by simp [state])]
      exact ⟨repliesEq ▸ invariant.bytes, repliesEq ▸ invariant.sizes,
        invariant.synced, .draining state (by simp) writing writingOpen⟩
  | finished state shut idle writingClosed =>
      rw [shutdown, if_neg (by simp [state])]
      exact ⟨repliesEq ▸ invariant.bytes, repliesEq ▸ invariant.sizes,
        invariant.synced, .finished state (by simp) idle writingClosed⟩

theorem advanceOutput_bytes (conn : TcpConnection) (n : Nat) :
    (conn.advanceOutput n).written ++
        (conn.advanceOutput n).outputBuffer_.contents =
      conn.written ++ conn.outputBuffer_.contents := by
  have progress : ({ conn.callSocket (.write (conn.outputBuffer_.contents.take n)) with
      outputBuffer_ := conn.outputBuffer_.retrieve n } : TcpConnection).written ++
        (conn.outputBuffer_.retrieve n).contents =
      conn.written ++ conn.outputBuffer_.contents := by
    simp [written, SocketCall.bytes, Buffer.contents_retrieve]
  simp only [advanceOutput]
  split
  · split
    · rw [shutdownInLoop_bytes, shutdownInLoop_output]
      exact progress
    · exact progress
  · exact progress

theorem advanceOutput_synced {conn : TcpConnection} (n : Nat)
    (writing : conn.channel_.writing = true) : (conn.advanceOutput n).Synced := by
  simp only [advanceOutput, Synced]
  split
  · rename_i empty
    rw [readableBytes_eq_zero_iff] at empty
    split <;> simp [Channel.disableWriting, empty]
  · rename_i rest
    rw [readableBytes_eq_zero_iff] at rest
    simp [writing, rest]

/-- Draining the buffer of a connection that was shut down closes its writing
half; in every other case the phase stays what it is. -/
theorem advanceOutput_phase {operations : List Operation}
    {conn : TcpConnection} (phase : conn.Phase operations) (n : Nat)
    (writing : conn.channel_.writing = true) (outcome : WriteOutcome) :
    (conn.advanceOutput n).Phase (operations ++ [.handleWrite outcome]) := by
  have stillOpen (writingOpen : conn.WritingOpen) :
      (conn.callSocket (.write (conn.outputBuffer_.contents.take n))).WritingOpen := by
    simpa [WritingOpen] using writingOpen
  cases phase with
  | connected state noShutdown writingOpen =>
      refine .connected ?_ (by simp [noShutdown]) ?_
      · rw [advanceOutput_state, state]
      · simp only [advanceOutput, callSocket_state, state]
        split
        · exact stillOpen writingOpen
        · exact stillOpen writingOpen
  | draining state shut _ writingOpen =>
      have stateEq := (conn.advanceOutput_state n).trans state
      by_cases empty : (conn.outputBuffer_.retrieve n).readableBytes = 0
      · refine .finished stateEq (by simp [shut]) ?_ ?_
        · simp [advanceOutput, empty, state, Channel.disableWriting]
        · simp only [advanceOutput, callSocket_state, state, if_pos empty, if_true]
          exact shutdownInLoop_writingClosed (stillOpen writingOpen) rfl
      · refine .draining stateEq (by simp [shut]) ?_ ?_
        · simp [advanceOutput, empty, writing]
        · simp only [advanceOutput, if_neg empty]
          exact stillOpen writingOpen
  | finished state shut idle =>
      simp [writing] at idle

theorem handleWrite_invariant {operations : List Operation}
    {conn : TcpConnection} (invariant : OutputInvariant operations conn)
    (outcome : WriteOutcome) :
    OutputInvariant (operations ++ [.handleWrite outcome])
      (conn.handleWrite outcome) := by
  have repliesEq : repliesSent (operations ++ [.handleWrite outcome]) =
      repliesSent operations := repliesSent_append_other operations rfl
  rcases conn.handleWrite_cases outcome with same | ⟨n, writing, -, -, advanced⟩
  · rw [same]
    exact ⟨repliesEq ▸ invariant.bytes, repliesEq ▸ invariant.sizes,
      invariant.synced, invariant.phase.append (by simp)⟩
  · rw [advanced]
    refine ⟨?_, repliesEq ▸ invariant.sizes, advanceOutput_synced n writing,
      advanceOutput_phase invariant.phase n writing outcome⟩
    rw [advanceOutput_bytes, invariant.bytes, repliesEq]

theorem outputInvariant_of_reaches {operations : List Operation}
    {conn : TcpConnection}
    (run : outputSystem.Reaches new.established operations conn) :
    OutputInvariant operations conn := by
  apply run.invariant OutputInvariant established_invariant
  intro operations before operation after _ invariant undisturbed stepTo
  have performed := Except.toOption_eq_some_iff.mp stepTo
  cases operation with
  | send reply outcome => exact send_invariant invariant undisturbed performed
  | shutdown =>
      obtain rfl := Except.ok.inj performed
      exact shutdown_invariant invariant
  | handleWrite outcome =>
      obtain rfl := Except.ok.inj performed
      exact handleWrite_invariant invariant outcome

/-! ## Replies survive exactly when their length fits an `int` -/

theorem repliesSent_isPrefix_append (operations more : List Operation) :
    repliesSent operations <+: repliesSent (operations ++ more) := by
  by_cases shut : .shutdown ∈ operations
  · have same := repliesSent_append_of_shutdown shut more
    simp [same]
  · have extended := repliesSent_append_of_not_shutdown shut more
    simp [extended]

theorem perform_of_short {operations : List Operation} {conn : TcpConnection}
    (invariant : OutputInvariant operations conn) {operation : Operation}
    (short : ∀ reply ∈ repliesSent (operations ++ [operation]),
      reply.text.length < 2 ^ 31) :
    ∃ after, conn.perform operation = .ok after := by
  cases operation with
  | send reply outcome =>
      by_cases connected : conn.state_ = .kConnected
      · have replyShort : reply.text.length < 2 ^ 31 := by
          apply short
          cases invariant.phase with
          | connected _ noShutdown =>
              rw [repliesSent_append_of_not_shutdown noShutdown]
              simp [repliesSent]
          | draining state => simp [state] at connected
          | finished state => simp [state] at connected
        exact send_of_short conn replyShort outcome
      · exact ⟨conn, send_of_not_connected _ _ connected⟩
  | shutdown => exact ⟨_, rfl⟩
  | handleWrite outcome => exact ⟨_, rfl⟩

theorem exists_reaches_of_short {operations : List Operation}
    (undisturbed : ∀ operation ∈ operations, operation.Undisturbed)
    (short : ∀ reply ∈ repliesSent operations, reply.text.length < 2 ^ 31) :
    ∃ conn, outputSystem.Reaches new.established operations conn := by
  induction operations using List.reverseRecOn with
  | nil => exact ⟨_, .start⟩
  | append_singleton operations operation ih =>
      obtain ⟨conn, run⟩ := ih
        (fun earlier member => undisturbed earlier (by simp [member]))
        (fun reply member =>
          short reply ((repliesSent_isPrefix_append operations _).subset member))
      obtain ⟨after, performed⟩ :=
        perform_of_short (outputInvariant_of_reaches run) short
      exact ⟨after, run.step (undisturbed operation (by simp))
        (Except.toOption_eq_some_iff.mpr performed)⟩

/-- The first occurrence of the last element of a list, when it occurs nowhere
else, is at the end. -/
theorem split_at_last {Value : Type*} {calls before after : List Value}
    {last : Value} (absent : last ∉ calls)
    (splitEq : calls ++ [last] = before ++ last :: after) :
    before = calls ∧ after = [] := by
  rcases List.eq_nil_or_concat after with rfl | ⟨init, final, rfl⟩
  · exact ⟨(List.append_inj_left' splitEq rfl).symm, rfl⟩
  · have regrouped : calls ++ [last] = (before ++ last :: init) ++ [final] := by
      simpa using splitEq
    have callsEq : calls = before ++ last :: init :=
      List.append_inj_left' regrouped rfl
    simp [callsEq] at absent

theorem intact_of_short {operations : List Operation} {conn : TcpConnection}
    (invariant : OutputInvariant operations conn)
    (short : ∀ reply ∈ repliesSent operations, reply.text.length < 2 ^ 31) :
    Intact (repliesSent operations) conn := by
  have bytes := invariant.bytes
  rw [List.map_congr_left fun reply member => transmitted_of_lt (short reply member)]
    at bytes
  have openCase (writingOpen : conn.WritingOpen) :
      Intact (repliesSent operations) conn := by
    refine ⟨bytes, ?_, ?_⟩
    · rw [List.count_eq_zero_of_not_mem writingOpen]
      exact Nat.zero_le 1
    · intro before after splitEq
      exact absurd (splitEq ▸ by simp) writingOpen
  cases invariant.phase with
  | connected _ _ writingOpen => exact openCase writingOpen
  | draining _ _ _ writingOpen => exact openCase writingOpen
  | finished _ _ idle writingClosed =>
      obtain ⟨calls, socketEq, absent⟩ := writingClosed
      have empty : conn.outputBuffer_.contents = [] := by
        by_contra nonempty
        simp [invariant.synced.mpr nonempty] at idle
      refine ⟨bytes, ?_, ?_⟩
      · rw [socketEq, List.count_append, List.count_eq_zero_of_not_mem absent]
        simp
      · intro before after splitEq
        obtain ⟨rfl, rfl⟩ := split_at_last absent (socketEq.symm.trans splitEq)
        rw [← bytes, empty]
        simp [written, socketEq, SocketCall.bytes]

theorem short_of_intact {operations : List Operation} {conn : TcpConnection}
    (invariant : OutputInvariant operations conn)
    (intact : Intact (repliesSent operations) conn)
    {reply : StdString} (member : reply ∈ repliesSent operations) :
    reply.text.length < 2 ^ 31 := by
  by_contra long
  have complete := transmitted_length_of_flatten_eq
    (invariant.bytes.symm.trans intact.bytes) member
  have notBeyond := invariant.sizes reply member
  rw [transmitted, List.length_take] at complete
  apply sentLength_ne (Nat.le_of_not_lt long) reply.size_lt
  omega

/-- Whatever the order of sends, write events and the eviction, and whatever the
socket accepts short of a reset by the peer: no reply loses a byte and the
shutdown comes once and last, exactly when the length of every reply sent fits
the `int` of a `StringPiece`. -/
theorem replies_intact_iff (operations : List Operation)
    (undisturbed : ∀ operation ∈ operations, operation.Undisturbed) :
    (∀ done, done <+: operations →
        ∃ conn, outputSystem.Reaches new.established done conn ∧
          Intact (repliesSent done) conn) ↔
      ∀ reply ∈ repliesSent operations, reply.text.length < 2 ^ 31 := by
  constructor
  · intro intact reply member
    obtain ⟨conn, run, all⟩ := intact operations (List.prefix_refl _)
    exact short_of_intact (outputInvariant_of_reaches run) all member
  · rintro short done ⟨more, rfl⟩
    have shortDone : ∀ reply ∈ repliesSent done, reply.text.length < 2 ^ 31 :=
      fun reply member => short reply ((repliesSent_isPrefix_append done more).subset member)
    obtain ⟨conn, run⟩ := exists_reaches_of_short
      (fun operation member => undisturbed operation (by simp [member])) shortDone
    exact ⟨conn, run, intact_of_short (outputInvariant_of_reaches run) shortDone⟩

/-- A reply that waits in the output buffer when the connection is evicted. -/
def evictedReply : List Operation :=
  [.send ⟨[79, 75], by decide⟩ (.room 1), .shutdown, .handleWrite (.room 5)]

theorem evicted_reply_intact :
    ∃ conn, outputSystem.Reaches new.established evictedReply conn ∧
      Intact (repliesSent evictedReply) conn := by
  have undisturbed : ∀ operation ∈ evictedReply, operation.Undisturbed := by
    simp [evictedReply, Operation.Undisturbed, WriteOutcome.Undisturbed]
  have short : ∀ reply ∈ repliesSent evictedReply, reply.text.length < 2 ^ 31 := by
    simp [evictedReply, repliesSent]
  exact (replies_intact_iff evictedReply undisturbed).mpr short evictedReply
    (List.prefix_refl _)

/-- A reply of four gigabytes. -/
def giantReply : StdString where
  text := List.replicate (2 ^ 32) 65
  size_lt := by
    rw [List.length_replicate]
    decide

theorem giantReply_not_short : ¬giantReply.text.length < 2 ^ 31 := by
  rw [giantReply, List.length_replicate]
  decide

/-- The length of this reply is zero as an `int`, so none of it is sent. -/
theorem giant_reply_not_intact :
    giantReply.text ≠ [] ∧ Operation.Undisturbed (.send giantReply (.room 5)) ∧
      ¬∀ done, done <+: [.send giantReply (.room 5)] →
        ∃ conn, outputSystem.Reaches new.established done conn ∧
          Intact (repliesSent done) conn := by
  refine ⟨?_, by simp [Operation.Undisturbed, WriteOutcome.Undisturbed], ?_⟩
  · intro empty
    apply giantReply_not_short
    rw [empty]
    decide
  · intro intact
    obtain ⟨conn, run, all⟩ := intact _ (List.prefix_refl _)
    exact giantReply_not_short
      (short_of_intact (outputInvariant_of_reaches run) all (by simp [repliesSent]))

end TcpConnection

end TcpMysql
