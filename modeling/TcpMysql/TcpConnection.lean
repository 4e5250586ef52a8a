import TcpMysql.Buffer
import TcpMysql.Fallible
import Mathlib.Algebra.Group.Int.Defs
import Mathlib.Algebra.Group.Nat.Defs

/-!
# One TCP connection

`muduo::net::TcpConnection` as the server drives it on its single loop thread.
`send` tries to write at once and keeps what the socket did not take in the
output buffer; `handleWrite` drains that buffer; `shutdown` closes the writing
half, at once or as soon as the buffer is empty.  The calls made on the socket
are recorded in order.  No write-complete or high-water-mark callback is ever
installed, so those branches are left out.
-/

namespace TcpMysql

/-- The ways a callback can end other than by returning: an exception that
nothing catches, or undefined behaviour. -/
inductive Fault
  | badAnyCast
  | nullPointer
  | singularIterator
  | danglingIterator
  | emptyContainer
  | outOfBounds
  deriving DecidableEq, Repr

/-- `TcpConnection::StateE`. -/
inductive StateE
  | kDisconnected
  | kConnecting
  | kConnected
  | kDisconnecting
  deriving DecidableEq, Repr

/-- The error numbers that `sendInLoop` tells apart. -/
inductive Errno
  | EWOULDBLOCK
  | EPIPE
  | ECONNRESET
  | other
  deriving DecidableEq, Repr

/-- What the socket does with the next `write`: it has room for so many bytes,
or it fails. -/
inductive WriteOutcome
  | room (count : Nat)
  | error (errno : Errno)
  deriving DecidableEq, Repr

/-- `sockets::write`: a prefix of the data is accepted. -/
def WriteOutcome.write (outcome : WriteOutcome) (data : Bytes) :
    Except Errno Nat :=
  match outcome with
  | .room count => .ok (min count data.length)
  | .error errno => .error errno

/-- A call on the socket; a `write` carries the bytes it accepted. -/
inductive SocketCall
  | write (accepted : Bytes)
  | shutdownWrite
  deriving DecidableEq, Repr

/-- The bytes a call puts on the wire. -/
def SocketCall.bytes : SocketCall → Bytes
  | .write accepted => accepted
  | .shutdownWrite => []

/-- The events a `Channel` waits for, and whether the loop knows it. -/
structure Channel where
  reading : Bool
  writing : Bool
  addedToLoop_ : Bool
  deriving DecidableEq, Repr

namespace Channel

def new : Channel := ⟨false, false, false⟩

def enableReading (channel : Channel) : Channel :=
  { channel with reading := true, addedToLoop_ := true }

def enableWriting (channel : Channel) : Channel :=
  { channel with writing := true, addedToLoop_ := true }

def disableWriting (channel : Channel) : Channel :=
  { channel with writing := false, addedToLoop_ := true }

def disableAll (channel : Channel) : Channel :=
  { channel with reading := false, writing := false, addedToLoop_ := true }

def remove (channel : Channel) : Channel :=
  { channel with addedToLoop_ := false }

end Channel

/-- `static_cast<int>` of a `size_t`. -/
def toInt (size : Nat) : Int :=
  if size % 2 ^ 32 < 2 ^ 31 then (size % 2 ^ 32 : Nat)
  else (size % 2 ^ 32 : Nat) - 2 ^ 32

theorem toInt_eq_iff (size : Nat) : toInt size = size ↔ size < 2 ^ 31 := by
  unfold toInt
  split <;> omega

/-- The conversion of an `int` to `size_t`. -/
def toSizeT (value : Int) : Nat :=
  (value % 2 ^ 64).toNat

theorem toSizeT_toInt_of_lt {size : Nat} (short : size < 2 ^ 31) :
    toSizeT (toInt size) = size := by
  unfold toInt toSizeT
  split <;> omega

theorem toSizeT_toInt_ne {size : Nat} (long : 2 ^ 31 ≤ size)
    (bounded : size < 2 ^ 63) : toSizeT (toInt size) ≠ size := by
  unfold toInt toSizeT
  split <;> omega

/-- A view of a string; its length is an `int`. -/
structure StringPiece where
  ptr_ : Bytes
  length_ : Int

def StringPiece.ofString (str : Bytes) : StringPiece :=
  ⟨str, toInt str.length⟩

structure TcpConnection where
  state_ : StateE
  channel_ : Channel
  socket_ : List SocketCall
  inputBuffer_ : Buffer
  outputBuffer_ : Buffer

namespace TcpConnection

/-- A connection as its constructor leaves it. -/
def new : TcpConnection where
  state_ := .kConnecting
  channel_ := .new
  socket_ := []
  inputBuffer_ := .new
  outputBuffer_ := .new

def connected (conn : TcpConnection) : Bool :=
  conn.state_ = .kConnected

/-- The state change of `connectEstablished`, before it calls the connection
callback. -/
def established (conn : TcpConnection) : TcpConnection :=
  { conn with
    state_ := .kConnected
    channel_ := conn.channel_.enableReading }

/-- The state change of `handleClose`, before it calls the connection
callback. -/
def closed (conn : TcpConnection) : TcpConnection :=
  { conn with
    state_ := .kDisconnected
    channel_ := conn.channel_.disableAll }

/-- Make a call on the socket. -/
def callSocket (conn : TcpConnection) (call : SocketCall) : TcpConnection :=
  { conn with socket_ := conn.socket_ ++ [call] }

/-- Append what was not written to the output buffer and wait for room. -/
def queueOutput (conn : TcpConnection) (rest : Bytes) : TcpConnection :=
  if 0 < rest.length then
    { conn with
      outputBuffer_ := conn.outputBuffer_.append rest
      channel_ :=
        if conn.channel_.writing then conn.channel_
        else conn.channel_.enableWriting }
  else
    conn

/-- The body of `sendInLoop` for a connection that is not disconnected. -/
def deliver (conn : TcpConnection) (message : Bytes) (outcome : WriteOutcome) :
    TcpConnection :=
  if conn.channel_.writing = false ∧ conn.outputBuffer_.readableBytes = 0 then
    match outcome.write message with
    | .ok nwrote =>
        (conn.callSocket (.write (message.take nwrote))).queueOutput
          (message.drop nwrote)
    | .error errno =>
        -- a fault of the peer drops the message
        if errno = .EPIPE ∨ errno = .ECONNRESET then conn
        else conn.queueOutput message
  else
    conn.queueOutput message

/-- `sendInLoop(data, len)`.  A length beyond the string reads past its end. -/
def sendInLoop (conn : TcpConnection) (data : Bytes) (len : Nat)
    (outcome : WriteOutcome) : Except Fault TcpConnection :=
  if conn.state_ = .kDisconnected then .ok conn
  else if data.length < len then .error .outOfBounds
  else .ok (conn.deliver (data.take len) outcome)

/-- `send(const StringPiece&)`, called with a string. -/
def send (conn : TcpConnection) (message : Bytes) (outcome : WriteOutcome) :
    Except Fault TcpConnection :=
  if conn.state_ = .kConnected then
    let piece := StringPiece.ofString message
    conn.sendInLoop piece.ptr_ (toSizeT piece.length_) outcome
  else
    .ok conn

def shutdownInLoop (conn : TcpConnection) : TcpConnection :=
  if conn.channel_.writing then conn
  else conn.callSocket .shutdownWrite

def shutdown (conn : TcpConnection) : TcpConnection :=
  if conn.state_ = .kConnected then
    { conn with state_ := .kDisconnecting }.shutdownInLoop
  else
    conn

/-- The branch of `handleWrite` for a `write` that accepted `n > 0` bytes. -/
def advanceOutput (conn : TcpConnection) (n : Nat) : TcpConnection :=
  let written : TcpConnection :=
    { conn.callSocket (.write (conn.outputBuffer_.contents.take n)) with
      outputBuffer_ := conn.outputBuffer_.retrieve n }
  if written.outputBuffer_.readableBytes = 0 then
    let drained : TcpConnection :=
      { written with channel_ := written.channel_.disableWriting }
    if drained.state_ = .kDisconnecting then drained.shutdownInLoop else drained
  else
    written

def handleWrite (conn : TcpConnection) (outcome : WriteOutcome) :
    TcpConnection :=
  if conn.channel_.writing then
    match outcome.write conn.outputBuffer_.contents with
    | .ok n => if 0 < n then conn.advanceOutput n else conn
    | .error _ => conn
  else
    conn

/-- The first half of `handleRead`, when `readv` delivers the chunk, and the
`retrieveAllAsString` with which the message callback begins. -/
def receive (conn : TcpConnection) (chunk : Bytes) : Bytes × TcpConnection :=
  let taken := (conn.inputBuffer_.readFd chunk).retrieveAllAsString
  (taken.1, { conn with inputBuffer_ := taken.2 })

@[simp]
theorem callSocket_state (conn : TcpConnection) (call : SocketCall) :
    (conn.callSocket call).state_ = conn.state_ :=
  rfl

@[simp]
theorem callSocket_channel (conn : TcpConnection) (call : SocketCall) :
    (conn.callSocket call).channel_ = conn.channel_ :=
  rfl

@[simp]
theorem callSocket_input (conn : TcpConnection) (call : SocketCall) :
    (conn.callSocket call).inputBuffer_ = conn.inputBuffer_ :=
  rfl

@[simp]
theorem callSocket_output (conn : TcpConnection) (call : SocketCall) :
    (conn.callSocket call).outputBuffer_ = conn.outputBuffer_ :=
  rfl

@[simp]
theorem callSocket_socket (conn : TcpConnection) (call : SocketCall) :
    (conn.callSocket call).socket_ = conn.socket_ ++ [call] :=
  rfl

/-- The message callback takes everything that has arrived. -/
theorem receive_fst (conn : TcpConnection) (chunk : Bytes) :
    (conn.receive chunk).1 = conn.inputBuffer_.contents ++ chunk := by
  rw [receive, Buffer.retrieveAllAsString_fst, Buffer.contents_readFd]

@[simp]
theorem receive_input (conn : TcpConnection) (chunk : Bytes) :
    (conn.receive chunk).2.inputBuffer_.contents = [] :=
  Buffer.contents_retrieveAllAsString _

/-- What sending, shutting down and draining leave alone: the input side. -/
structure SameInput (before after : TcpConnection) : Prop where
  reading : after.channel_.reading = before.channel_.reading
  input : after.inputBuffer_ = before.inputBuffer_

theorem queueOutput_sameInput (conn : TcpConnection) (rest : Bytes) :
    SameInput conn (conn.queueOutput rest) := by
  unfold queueOutput
  split
  · refine ⟨?_, rfl⟩
    simp only
    split <;> rfl
  · exact ⟨rfl, rfl⟩

@[simp]
theorem queueOutput_state (conn : TcpConnection) (rest : Bytes) :
    (conn.queueOutput rest).state_ = conn.state_ := by
  unfold queueOutput
  split <;> rfl

@[simp]
theorem queueOutput_socket (conn : TcpConnection) (rest : Bytes) :
    (conn.queueOutput rest).socket_ = conn.socket_ := by
  unfold queueOutput
  split <;> rfl

theorem queueOutput_contents (conn : TcpConnection) (rest : Bytes) :
    (conn.queueOutput rest).outputBuffer_.contents =
      conn.outputBuffer_.contents ++ rest := by
  unfold queueOutput
  split
  · exact Buffer.contents_append _ _
  · rename_i nothing
    have empty : rest = [] := List.eq_nil_of_length_eq_zero (by omega)
    simp [empty]

theorem deliver_state (conn : TcpConnection) (message : Bytes)
    (outcome : WriteOutcome) :
    (conn.deliver message outcome).state_ = conn.state_ := by
  unfold deliver
  split
  · split
    · exact queueOutput_state _ _
    · split
      · rfl
      · exact queueOutput_state _ _
  · exact queueOutput_state _ _

theorem deliver_sameInput (conn : TcpConnection) (message : Bytes)
    (outcome : WriteOutcome) :
    SameInput conn (conn.deliver message outcome) := by
  unfold deliver
  split
  · split
    · rename_i nwrote _
      have queued := queueOutput_sameInput
        (conn.callSocket (.write (message.take nwrote))) (message.drop nwrote)
      exact ⟨queued.reading, queued.input⟩
    · split
      · exact ⟨rfl, rfl⟩
      · exact queueOutput_sameInput _ _
  · exact queueOutput_sameInput _ _

/-- The number of bytes `send` believes a message has. -/
def sentLength (message : Bytes) : Nat :=
  toSizeT (StringPiece.ofString message).length_

/-- On an established connection `send` delivers a prefix of the message, or
reads past its end. -/
theorem send_of_connected {conn : TcpConnection} (message : Bytes)
    (outcome : WriteOutcome) (connected : conn.state_ = .kConnected) :
    conn.send message outcome =
      if message.length < sentLength message then .error .outOfBounds
      else .ok (conn.deliver (message.take (sentLength message)) outcome) := by
  rw [send, if_pos connected, sendInLoop, if_neg (by simp [connected])]
  rfl

theorem send_of_not_connected {conn : TcpConnection} (message : Bytes)
    (outcome : WriteOutcome) (notConnected : conn.state_ ≠ .kConnected) :
    conn.send message outcome = .ok conn := by
  rw [send, if_neg notConnected]

theorem send_cases {conn sent : TcpConnection} {message : Bytes}
    {outcome : WriteOutcome} (sendEq : conn.send message outcome = .ok sent) :
    sent = conn ∨ ∃ len, sent = conn.deliver (message.take len) outcome := by
  by_cases connected : conn.state_ = .kConnected
  · rw [send_of_connected message outcome connected] at sendEq
    by_cases beyond : message.length < sentLength message
    · rw [if_pos beyond] at sendEq
      exact absurd sendEq (by simp)
    · rw [if_neg beyond] at sendEq
      exact .inr ⟨_, (Except.ok.inj sendEq).symm⟩
  · rw [send_of_not_connected message outcome connected] at sendEq
    exact .inl (Except.ok.inj sendEq).symm

theorem send_state {conn sent : TcpConnection} {message : Bytes}
    {outcome : WriteOutcome} (sendEq : conn.send message outcome = .ok sent) :
    sent.state_ = conn.state_ := by
  rcases send_cases sendEq with rfl | ⟨len, rfl⟩
  · rfl
  · exact deliver_state _ _ _

theorem send_sameInput {conn sent : TcpConnection} {message : Bytes}
    {outcome : WriteOutcome} (sendEq : conn.send message outcome = .ok sent) :
    SameInput conn sent := by
  rcases send_cases sendEq with rfl | ⟨len, rfl⟩
  · exact ⟨rfl, rfl⟩
  · exact deliver_sameInput _ _ _

@[simp]
theorem shutdownInLoop_state (conn : TcpConnection) :
    conn.shutdownInLoop.state_ = conn.state_ := by
  unfold shutdownInLoop
  split <;> rfl

@[simp]
theorem shutdownInLoop_channel (conn : TcpConnection) :
    conn.shutdownInLoop.channel_ = conn.channel_ := by
  unfold shutdownInLoop
  split <;> rfl

@[simp]
theorem shutdownInLoop_input (conn : TcpConnection) :
    conn.shutdownInLoop.inputBuffer_ = conn.inputBuffer_ := by
  unfold shutdownInLoop
  split <;> rfl

@[simp]
theorem shutdownInLoop_output (conn : TcpConnection) :
    conn.shutdownInLoop.outputBuffer_ = conn.outputBuffer_ := by
  unfold shutdownInLoop
  split <;> rfl

theorem shutdown_state (conn : TcpConnection) :
    conn.shutdown.state_ =
      if conn.state_ = .kConnected then .kDisconnecting else conn.state_ := by
  unfold shutdown
  split <;> simp

@[simp]
theorem shutdown_channel (conn : TcpConnection) :
    conn.shutdown.channel_ = conn.channel_ := by
  unfold shutdown
  split <;> simp

@[simp]
theorem shutdown_input (conn : TcpConnection) :
    conn.shutdown.inputBuffer_ = conn.inputBuffer_ := by
  unfold shutdown
  split <;> simp

/-- What `handleWrite` does: nothing, or it advances the output by a positive
number of bytes. -/
theorem handleWrite_cases (conn : TcpConnection) (outcome : WriteOutcome) :
    conn.handleWrite outcome = conn ∨
      ∃ n, conn.channel_.writing = true ∧ 0 < n ∧
        n ≤ conn.outputBuffer_.contents.length ∧
          conn.handleWrite outcome = conn.advanceOutput n := by
  unfold handleWrite
  by_cases writing : conn.channel_.writing = true
  · rw [if_pos writing]
    cases outcome with
    | error errno => exact .inl rfl
    | room count =>
        simp only [WriteOutcome.write]
        by_cases accepted : 0 < min count conn.outputBuffer_.contents.length
        · rw [if_pos accepted]
          exact .inr ⟨_, writing, accepted, Nat.min_le_right _ _, rfl⟩
        · rw [if_neg accepted]
          exact .inl rfl
  · rw [if_neg writing]
    exact .inl rfl

theorem advanceOutput_state (conn : TcpConnection) (n : Nat) :
    (conn.advanceOutput n).state_ = conn.state_ := by
  simp only [advanceOutput]
  split
  · split <;> simp
  · rfl

theorem advanceOutput_sameInput (conn : TcpConnection) (n : Nat) :
    SameInput conn (conn.advanceOutput n) := by
  simp only [advanceOutput]
  split
  · split <;> exact ⟨by simp [Channel.disableWriting], by simp⟩
  · exact ⟨rfl, rfl⟩

theorem handleWrite_state (conn : TcpConnection) (outcome : WriteOutcome) :
    (conn.handleWrite outcome).state_ = conn.state_ := by
  rcases conn.handleWrite_cases outcome with same | ⟨n, -, -, -, advanced⟩
  · rw [same]
  · rw [advanced, advanceOutput_state]

theorem handleWrite_sameInput (conn : TcpConnection) (outcome : WriteOutcome) :
    SameInput conn (conn.handleWrite outcome) := by
  rcases conn.handleWrite_cases outcome with same | ⟨n, -, -, -, advanced⟩
  · rw [same]
    exact ⟨rfl, rfl⟩
  · rw [advanced]
    exact advanceOutput_sameInput conn n

end TcpConnection

end TcpMysql
