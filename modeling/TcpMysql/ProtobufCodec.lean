import TcpMysql.Adler32
import TcpMysql.NetBuffer
import TcpMysql.StreamDecoder

/-!
# Messages on a byte stream

`ProtobufCodecLite` sends a message as its length, a tag, the serialized message and a
checksum, and takes messages out of the input buffer as the bytes arrive.  How a
message is serialized and parsed is left to the protobuf library, and the checksum to
zlib; all three are fields of the codec here.  The raw callback may keep a state of its
own; the error callback leaves the buffer alone, as the default one does.

The receiver is first modelled as it works on its buffer, with the assertions of the
buffer, and then shown to be a decoder of the byte stream when the answers of the raw
callback depend on the frame only.
-/

namespace TcpMysql

def kHeaderLen : Nat := 4

def kChecksumLen : Nat := 4

def kMaxMessageLen : Nat := 64 * 1024 * 1024

inductive ErrorCode
  | kNoError
  | kInvalidLength
  | kCheckSumError
  | kInvalidNameLen
  | kUnknownMessageType
  | kParseError
  deriving DecidableEq, Repr

/-- What is done with a frame: the raw callback takes it, or a message is delivered. -/
inductive Delivery (Message : Type)
  | raw (frame : Bytes)
  | message (message : Message)
  deriving DecidableEq, Repr

inductive CodecFault
  | buffer (fault : BufferFault)
  | outOfFuel
  deriving DecidableEq, Repr

/-- What `onMessage` has done: what it delivered, the error that it reported, what it
left in the buffer, and the state of the raw callback. -/
structure Handled (Message Raw : Type) where
  delivered : List (Delivery Message)
  error : Option ErrorCode
  buffer : NetBuffer
  raw : Raw

/-- A codec with its tag and callbacks.  `rawCb_` returns false for a frame that it
takes, and may change its state. -/
structure ProtobufCodecLite (Message Raw : Type) where
  tag_ : Bytes
  serialize : Message → Bytes
  parseFromBuffer : Bytes → Option Message
  rawCb_ : Option (Raw → Bytes → Bool × Raw)
  adler32 : Adler32
  /-- The length of the tag is an `int`, and so are its sums with the other two. -/
  tag_short : tag_.length + kChecksumLen + kHeaderLen < 2 ^ 31

namespace ProtobufCodecLite

variable {Message Raw : Type} (codec : ProtobufCodecLite Message Raw)

def kMinMessageLen : Nat :=
  codec.tag_.length + kChecksumLen

/-- The checksum of the first bytes; zlib takes their number as a `uInt`. -/
def checksum (data : Bytes) (len : Int) : BitVec (8 * 4) :=
  codec.adler32.sum 1 (data.take (len % 2 ^ 32).toNat)

def asInt32 (data : Bytes) : BitVec (8 * 4) :=
  BigEndian.toWord 4 (data.take 4)

/-! ## Sending -/

/-- `ByteSize()` is an `int`.  When it is not the number of bytes that are then written,
the program is aborted. -/
def serializeToBuffer (message : Message) (buffer : NetBuffer) :
    Except BufferFault (Int × NetBuffer) := do
  let byte_size := toInt (codec.serialize message).length
  let written ← buffer.fill (toSizeT (byte_size + kChecksumLen)) (codec.serialize message)
  check .assertion (((codec.serialize message).length : Int) = byte_size)
  return (byte_size, written)

def fillEmptyBuffer (buffer : NetBuffer) (message : Message) :
    Except BufferFault NetBuffer := do
  check .assertion (buffer.readableBytes = 0)
  let tagged ← buffer.append codec.tag_
  let (byte_size, written) ← codec.serializeToBuffer message tagged
  let summed ←
    written.appendInt (codec.checksum written.contents (toInt written.readableBytes))
  check .assertion (summed.readableBytes =
    addSizeT (addSizeT codec.tag_.length (toSizeT byte_size)) kChecksumLen)
  summed.prependInt (BitVec.ofNat (8 * 4) summed.readableBytes)

/-- The bytes that `send` hands to the connection. -/
def send (message : Message) : Except BufferFault Bytes := do
  let buffer ← codec.fillEmptyBuffer .new message
  return buffer.contents

/-- The bytes of some messages that are sent one after the other. -/
def sendAll : List Message → Except BufferFault Bytes
  | [] => .ok []
  | message :: messages => do
      let bytes ← codec.send message
      let later ← sendAll messages
      return bytes ++ later

/-! ## Receiving -/

def validateChecksum (data : Bytes) : Bool :=
  codec.checksum data ((data.length : Int) - kChecksumLen) =
    asInt32 (data.drop (data.length - kChecksumLen))

def parse (data : Bytes) : Except ErrorCode Message :=
  if codec.validateChecksum data then
    if data.take codec.tag_.length = codec.tag_ then
      let dataLen := data.length - kChecksumLen - codec.tag_.length
      match codec.parseFromBuffer ((data.drop codec.tag_.length).take dataLen) with
      | some message => .ok message
      | none => .error .kParseError
    else
      .error .kUnknownMessageType
  else
    .error .kCheckSumError

/-- Whether the raw callback, if there is one, takes the frame. -/
def callRaw (raw : Raw) (frame : Bytes) : Bool × Raw :=
  match codec.rawCb_ with
  | none => (false, raw)
  | some rawCb => (!(rawCb raw frame).1, (rawCb raw frame).2)

/-- How one iteration of the loop in `onMessage` ends: the loop is left, it is left with
an error, or the frame is retrieved and the loop goes on. -/
inductive Iteration (Message : Type)
  | stop
  | failed (code : ErrorCode)
  | delivered (delivery : Delivery Message) (after : NetBuffer)

def iteration (raw : Raw) (buffer : NetBuffer) :
    Except BufferFault (Iteration Message × Raw) :=
  if codec.kMinMessageLen + kHeaderLen ≤ buffer.readableBytes then do
    let word ← buffer.peekInt 4
    let len := word.toInt
    if (kMaxMessageLen : Int) < len ∨ len < codec.kMinMessageLen then
      return (.failed .kInvalidLength, raw)
    else if kHeaderLen + len.toNat ≤ buffer.readableBytes then
      let frame ← buffer.peek (kHeaderLen + len.toNat)
      let answer := codec.callRaw raw frame
      if answer.1 then
        let after ← buffer.retrieve (kHeaderLen + len.toNat)
        return (.delivered (.raw frame) after, answer.2)
      else
        match codec.parse (frame.drop kHeaderLen) with
        | .ok message =>
            let after ← buffer.retrieve (kHeaderLen + len.toNat)
            return (.delivered (.message message) after, answer.2)
        | .error code => return (.failed code, answer.2)
    else
      return (.stop, raw)
  else
    .ok (.stop, raw)

def loop : Nat → Raw → NetBuffer → Except CodecFault (Handled Message Raw)
  | 0, _, _ => .error .outOfFuel
  | fuel + 1, raw, buffer => do
      match ← (codec.iteration raw buffer).mapError .buffer with
      | (.stop, raw) => return ⟨[], none, buffer, raw⟩
      | (.failed code, raw) => return ⟨[], some code, buffer, raw⟩
      | (.delivered delivery after, raw) =>
          let later ← loop fuel raw after
          return { later with delivered := delivery :: later.delivered }

def onMessage (raw : Raw) (buffer : NetBuffer) : Except CodecFault (Handled Message Raw) :=
  codec.loop (buffer.readableBytes + 1) raw buffer

/-- `TcpConnection::handleRead` with the codec as the message callback. -/
def handleRead (before : Handled Message Raw) (chunk : Bytes) :
    Except CodecFault (Handled Message Raw) := do
  let filled ← (before.buffer.readFd chunk).mapError .buffer
  let now ← codec.onMessage before.raw filled
  return { now with delivered := before.delivered ++ now.delivered }

/-- A connection whose bytes are read in the given pieces. -/
def receive (raw : Raw) (chunks : List Bytes) : Except CodecFault (Handled Message Raw) :=
  chunks.foldlM codec.handleRead ⟨[], none, .new, raw⟩

/-! ## The wire format -/

/-- The checksum of all bytes. -/
def sumOf (body : Bytes) : BitVec (8 * 4) :=
  codec.adler32.sum 1 body

/-- A message on the wire, without its length. -/
def frame (message : Message) : Bytes :=
  let body := codec.tag_ ++ codec.serialize message
  body ++ BigEndian.ofWord (codec.sumOf body)

def withLength (data : Bytes) : Bytes :=
  BigEndian.ofWord (BitVec.ofNat (8 * 4) data.length) ++ data

def encode (message : Message) : Bytes :=
  withLength (codec.frame message)

theorem length_frame (message : Message) : (codec.frame message).length =
    codec.tag_.length + (codec.serialize message).length + kChecksumLen := by
  simp [frame, kChecksumLen, Nat.add_assoc]

theorem checksum_of_lt {data : Bytes} {len : Nat} (short : len < 2 ^ 31) :
    codec.checksum data len = codec.sumOf (data.take len) := by
  have same : ((len : Int) % 2 ^ 32).toNat = len := by omega
  rw [checksum, same, sumOf]

/-- The sizes that `send` computes with when a frame is shorter than two gigabytes. -/
structure Sizes (message : Message) : Prop where
  byte_size : toInt (codec.serialize message).length = (codec.serialize message).length
  reserve : toSizeT ((codec.serialize message).length + kChecksumLen) =
    (codec.serialize message).length + kChecksumLen
  total : addSizeT (addSizeT codec.tag_.length (toSizeT (codec.serialize message).length))
    kChecksumLen = (codec.frame message).length

theorem sizes_of_lt {message : Message} (short : (codec.frame message).length < 2 ^ 31) :
    codec.Sizes message := by
  have lengthEq := codec.length_frame message
  have serialized : toSizeT ((codec.serialize message).length : Int) =
      (codec.serialize message).length := by
    unfold toSizeT
    omega
  refine ⟨(toInt_eq_iff _).mpr (by omega), ?_, ?_⟩
  · unfold toSizeT kChecksumLen
    omega
  · unfold addSizeT
    rw [serialized]
    omega

/-- No assertion fails while a message is put together, and the buffer has room for the
length. -/
theorem send_returns {message : Message} (short : (codec.frame message).length < 2 ^ 31) :
    codec.send message = .ok (codec.encode message) := by
  have lengthEq := codec.length_frame message
  have sizes := codec.sizes_of_lt short
  have empty : NetBuffer.new.contents = [] := by simp [NetBuffer.contents, NetBuffer.new]
  have emptyCheck : NetBuffer.new.readableBytes = 0 := rfl
  obtain ⟨tagged, taggedEq, taggedGrows⟩ := NetBuffer.new.append_returns
    (show Fits NetBuffer.new.contents codec.tag_.length by
      unfold Fits maxSize kCheapPrepend
      rw [empty, List.length_nil]
      omega)
  have taggedContents : tagged.contents = codec.tag_ := by
    rw [taggedGrows.contents, empty, List.nil_append]
  obtain ⟨written, writtenEq, writtenGrows⟩ := tagged.fill_returns
    (Nat.le_add_right (codec.serialize message).length kChecksumLen)
    (by
      unfold Fits maxSize kCheapPrepend kChecksumLen
      rw [taggedContents]
      omega)
  have writtenContents : written.contents = codec.tag_ ++ codec.serialize message := by
    rw [writtenGrows.contents, taggedContents]
  have serialized : codec.serializeToBuffer message tagged =
      .ok (((codec.serialize message).length : Int), written) := by
    unfold serializeToBuffer
    simp only [sizes.byte_size, sizes.reserve]
    refine (Except.bind_of_ok writtenEq _).trans ?_
    exact Except.bind_of_ok (check_of trivial) _
  have writtenLength : written.readableBytes =
      (codec.tag_ ++ codec.serialize message).length := by
    rw [← NetBuffer.length_contents, writtenContents]
  have sum : codec.checksum written.contents (toInt written.readableBytes) =
      codec.sumOf (codec.tag_ ++ codec.serialize message) := by
    have shortBody : (codec.tag_ ++ codec.serialize message).length < 2 ^ 31 := by
      rw [List.length_append]
      omega
    rw [writtenLength, (toInt_eq_iff _).mpr shortBody, codec.checksum_of_lt shortBody,
      writtenContents, List.take_length]
  obtain ⟨summed, summedEq, summedGrows⟩ := written.append_returns
    (show Fits written.contents (BigEndian.ofWord (codec.checksum written.contents
        (toInt written.readableBytes))).length by
      unfold Fits maxSize kCheapPrepend
      rw [BigEndian.length_ofWord, writtenContents, List.length_append]
      omega)
  have summedContents : summed.contents = codec.frame message := by
    rw [summedGrows.contents, sum, writtenContents, frame]
  have summedLength : summed.readableBytes = (codec.frame message).length := by
    rw [← NetBuffer.length_contents, summedContents]
  have room : kHeaderLen ≤ summed.readerIndex_ := by
    have reader := ((taggedGrows.trans writtenGrows).trans summedGrows).reader
    have cheap : min NetBuffer.new.readerIndex_ kCheapPrepend = 8 := rfl
    unfold kHeaderLen
    omega
  obtain ⟨final, finalEq, finalContents, -⟩ := NetBuffer.prepend_returns
    (show (BigEndian.ofWord (BitVec.ofNat (8 * 4) summed.readableBytes)).length ≤
      summed.readerIndex_ by rw [BigEndian.length_ofWord]; exact room)
  have filled : codec.fillEmptyBuffer .new message = .ok final := by
    rw [fillEmptyBuffer, Except.bind_of_ok (check_of emptyCheck), Except.bind_of_ok taggedEq]
    refine (Except.bind_of_ok serialized _).trans ?_
    refine (Except.bind_of_ok summedEq _).trans ?_
    refine (Except.bind_of_ok (check_of ?_) _).trans finalEq
    rw [summedLength, sizes.total]
  rw [send, Except.bind_of_ok filled, finalContents, summedContents, summedLength]
  rfl

theorem sendAll_returns {messages : List Message}
    (short : ∀ message ∈ messages, (codec.frame message).length < 2 ^ 31) :
    codec.sendAll messages = .ok (messages.flatMap codec.encode) := by
  induction messages with
  | nil => rfl
  | cons message messages ih =>
      rw [List.forall_mem_cons] at short
      rw [sendAll, Except.bind_of_ok (codec.send_returns short.1)]
      exact Except.bind_of_ok (ih short.2) _

/-! ## The receiver as a decoder of the stream -/

/-- The raw callback takes the given frames, whatever it has seen before. -/
def Answers (takes : Bytes → Bool) : Prop :=
  ∀ raw frame, (codec.callRaw raw frame).1 = takes frame

theorem answers_of_none (noRaw : codec.rawCb_ = none) : codec.Answers fun _ => false := by
  intro raw frame
  rw [callRaw, noRaw]

variable (takes : Bytes → Bool)

/-- What is at the front of the bytes that have arrived. -/
def next (input : Bytes) : Decoded UInt8 (Delivery Message) ErrorCode :=
  if codec.kMinMessageLen + kHeaderLen ≤ input.length then
    let len := (asInt32 input).toInt
    if (kMaxMessageLen : Int) < len ∨ len < codec.kMinMessageLen then
      .failed .kInvalidLength
    else if kHeaderLen + len.toNat ≤ input.length then
      let frame := input.take (kHeaderLen + len.toNat)
      let rest := input.drop (kHeaderLen + len.toNat)
      if takes frame then
        .item (.raw frame) rest
      else
        match codec.parse (frame.drop kHeaderLen) with
        | .ok message => .item (.message message) rest
        | .error code => .failed code
    else
      .incomplete
  else
    .incomplete

theorem asInt32_append {input : Bytes} (long : 4 ≤ input.length) (more : Bytes) :
    asInt32 (input ++ more) = asInt32 input := by
  rw [asInt32, asInt32, List.take_append_of_le_length long]

theorem next_nil : codec.next takes [] = .incomplete := by
  rw [next, if_neg]
  simp [kHeaderLen]

theorem next_append (input more : Bytes) (decided : codec.next takes input ≠ .incomplete) :
    codec.next takes (input ++ more) = (codec.next takes input).append more := by
  unfold next at decided ⊢
  by_cases long : codec.kMinMessageLen + kHeaderLen ≤ input.length
  · have header : kHeaderLen ≤ input.length := Nat.le_trans (Nat.le_add_left _ _) long
    have longer : codec.kMinMessageLen + kHeaderLen ≤ (input ++ more).length := by
      rw [List.length_append]
      omega
    rw [if_pos long] at decided ⊢
    rw [if_pos longer, asInt32_append header]
    generalize (asInt32 input).toInt = len at decided ⊢
    by_cases invalid : (kMaxMessageLen : Int) < len ∨ len < codec.kMinMessageLen
    · simp only [if_pos invalid, Decoded.append]
    · simp only [if_neg invalid] at decided ⊢
      by_cases whole : kHeaderLen + len.toNat ≤ input.length
      · have whole' : kHeaderLen + len.toNat ≤ (input ++ more).length := by
          rw [List.length_append]
          omega
        rw [if_pos whole, if_pos whole', List.take_append_of_le_length whole,
          List.drop_append_of_le_length whole]
        split
        · rfl
        · split <;> rfl
      · simp [if_neg whole] at decided
  · simp [if_neg long] at decided

theorem next_rest_lt {input rest : Bytes} {delivery : Delivery Message}
    (nextEq : codec.next takes input = .item delivery rest) : rest.length < input.length := by
  unfold next at nextEq
  have dropped : ∀ len, kHeaderLen + len ≤ input.length →
      (input.drop (kHeaderLen + len)).length < input.length := by
    intro len whole
    unfold kHeaderLen at *
    rw [List.length_drop]
    omega
  split at nextEq
  · dsimp only at nextEq
    split at nextEq
    · cases nextEq
    · split at nextEq
      · rename_i whole
        split at nextEq
        · cases nextEq
          exact dropped _ whole
        · split at nextEq
          · cases nextEq
            exact dropped _ whole
          · cases nextEq
      · cases nextEq
  · cases nextEq

def decoder : StreamDecoder UInt8 (Delivery Message) ErrorCode where
  next := codec.next takes
  next_nil := codec.next_nil takes
  next_append := codec.next_append takes
  rest_lt := codec.next_rest_lt takes

theorem decoder_next (input : Bytes) :
    (codec.decoder takes).next input = codec.next takes input :=
  rfl

/-- What an iteration has found, in terms of the bytes. -/
def Iteration.toDecoded : Iteration Message → Decoded UInt8 (Delivery Message) ErrorCode
  | .stop => .incomplete
  | .failed code => .failed code
  | .delivered delivery after => .item delivery after.contents

variable {takes}

theorem iteration_returns (answers : codec.Answers takes) (raw : Raw) (buffer : NetBuffer) :
    ∃ result raw', codec.iteration raw buffer = .ok (result, raw') ∧
      result.toDecoded = codec.next takes buffer.contents := by
  unfold iteration next
  rw [← NetBuffer.length_contents]
  by_cases long : codec.kMinMessageLen + kHeaderLen ≤ buffer.contents.length
  · have header : kHeaderLen ≤ buffer.contents.length :=
      Nat.le_trans (Nat.le_add_left _ _) long
    have peeked : buffer.peekInt 4 = .ok (asInt32 buffer.contents) :=
      NetBuffer.peekInt_of_le header
    rw [if_pos long, if_pos long, Except.bind_of_ok peeked]
    generalize (asInt32 buffer.contents).toInt = len
    by_cases invalid : (kMaxMessageLen : Int) < len ∨ len < codec.kMinMessageLen
    · simp only [if_pos invalid]
      exact ⟨_, _, rfl, rfl⟩
    · simp only [if_neg invalid]
      by_cases whole : kHeaderLen + len.toNat ≤ buffer.contents.length
      · rw [if_pos whole, if_pos whole, Except.bind_of_ok (NetBuffer.peek_of_le whole)]
        have retrieved := NetBuffer.retrieve_of_le whole
        have rest := buffer.contents_advance (kHeaderLen + len.toNat)
        simp only [answers raw]
        split
        · refine ⟨_, _, Except.bind_of_ok retrieved _, ?_⟩
          simp only [Iteration.toDecoded, rest]
        · split
          · refine ⟨_, _, Except.bind_of_ok retrieved _, ?_⟩
            simp only [Iteration.toDecoded, rest]
          · exact ⟨_, _, rfl, rfl⟩
      · rw [if_neg whole, if_neg whole]
        exact ⟨_, _, rfl, rfl⟩
  · rw [if_neg long, if_neg long]
    exact ⟨_, _, rfl, rfl⟩

end ProtobufCodecLite

/-- What `onMessage` has done, in terms of the bytes. -/
def Handled.toDrained {Message Raw : Type} (handled : Handled Message Raw) :
    StreamDecoder.Drained UInt8 (Delivery Message) ErrorCode :=
  ⟨handled.delivered, handled.error, handled.buffer.contents⟩

namespace ProtobufCodecLite

variable {Message Raw : Type} (codec : ProtobufCodecLite Message Raw)
  {takes : Bytes → Bool}

/-- The loop of `onMessage` ends, no assertion of the buffer fails in it, and it takes
all messages out of the buffer. -/
theorem loop_returns (answers : codec.Answers takes) {fuel : Nat} {raw : Raw}
    {buffer : NetBuffer} (enough : buffer.contents.length < fuel) :
    ∃ handled, codec.loop fuel raw buffer = .ok handled ∧
      handled.toDrained = (codec.decoder takes).drain buffer.contents := by
  induction fuel generalizing raw buffer with
  | zero => omega
  | succ fuel ih =>
      obtain ⟨result, raw', iterationEq, decoded⟩ :=
        codec.iteration_returns answers raw buffer
      rw [← decoder_next] at decoded
      have ran : (codec.iteration raw buffer).mapError CodecFault.buffer =
          .ok (result, raw') := by
        rw [iterationEq]
        rfl
      unfold loop
      rw [Except.bind_of_ok ran]
      cases result with
      | stop => exact ⟨_, rfl, (StreamDecoder.drain_incomplete decoded.symm).symm⟩
      | failed code => exact ⟨_, rfl, (StreamDecoder.drain_failed decoded.symm).symm⟩
      | delivered delivery after =>
          have shorter : after.contents.length < buffer.contents.length :=
            (codec.decoder takes).rest_lt decoded.symm
          obtain ⟨later, laterEq, drained⟩ := ih (Nat.lt_of_lt_of_le shorter
            (Nat.le_of_lt_succ enough))
          refine ⟨_, Except.bind_of_ok laterEq _, ?_⟩
          rw [StreamDecoder.drain_item decoded.symm, ← drained]
          rfl

theorem onMessage_returns (answers : codec.Answers takes) (raw : Raw) (buffer : NetBuffer) :
    ∃ handled, codec.onMessage raw buffer = .ok handled ∧
      handled.toDrained = (codec.decoder takes).drain buffer.contents :=
  codec.loop_returns answers (by rw [NetBuffer.length_contents]; exact Nat.lt_succ_self _)

theorem handleRead_returns (answers : codec.Answers takes) (before : Handled Message Raw)
    {chunk : Bytes} (fits : Fits before.buffer.contents chunk.length) :
    ∃ handled, codec.handleRead before chunk = .ok handled ∧
      handled.toDrained = (codec.decoder takes).feed before.toDrained chunk := by
  obtain ⟨filled, readEq, grows⟩ := before.buffer.readFd_returns fits
  obtain ⟨now, nowEq, drained⟩ := codec.onMessage_returns answers before.raw filled
  have ran : (before.buffer.readFd chunk).mapError CodecFault.buffer = .ok filled := by
    rw [readEq]
    rfl
  refine ⟨{ now with delivered := before.delivered ++ now.delivered }, ?_, ?_⟩
  · rw [handleRead, Except.bind_of_ok ran]
    exact Except.bind_of_ok nowEq _
  · rw [grows.contents] at drained
    rw [StreamDecoder.feed]
    change _ = (⟨_ ++ ((codec.decoder takes).drain (before.buffer.contents ++ chunk)).items,
      _, _⟩ : StreamDecoder.Drained UInt8 (Delivery Message) ErrorCode)
    rw [show before.toDrained.rest = before.buffer.contents from rfl, ← drained]
    rfl

/-- Reading from a connection never fails, as long as the bytes fit into a vector, and
what it does depends on the bytes only. -/
theorem receive_returns (answers : codec.Answers takes) (raw : Raw) {chunks : List Bytes}
    (fits : Fits [] chunks.flatten.length) :
    ∃ handled, codec.receive raw chunks = .ok handled ∧
      handled.toDrained = (codec.decoder takes).drain chunks.flatten := by
  have empty : NetBuffer.new.contents = [] := by simp [NetBuffer.contents, NetBuffer.new]
  suffices general : ∀ before : Handled Message Raw,
      Fits before.buffer.contents chunks.flatten.length → ∃ handled,
        chunks.foldlM codec.handleRead before = .ok handled ∧
          handled.toDrained = chunks.foldl (codec.decoder takes).feed before.toDrained by
    obtain ⟨handled, receiveEq, drained⟩ := general ⟨[], none, .new, raw⟩ (empty ▸ fits)
    refine ⟨handled, receiveEq, ?_⟩
    rw [drained, ← StreamDecoder.feedAll_eq_drain]
    rw [StreamDecoder.feedAll, Handled.toDrained, empty]
  clear fits
  induction chunks with
  | nil => exact fun before _ => ⟨before, rfl, rfl⟩
  | cons chunk chunks ih =>
      intro before fits
      rw [List.flatten_cons, List.length_append] at fits
      have fitsNow : Fits before.buffer.contents chunk.length := by
        unfold Fits at *
        omega
      obtain ⟨after, afterEq, fed⟩ := codec.handleRead_returns answers before fitsNow
      have left : after.buffer.contents.length ≤
          before.buffer.contents.length + chunk.length := by
        have rest := (codec.decoder takes).rest_feed_le before.toDrained chunk
        rw [← fed] at rest
        exact rest
      have fitsLater : Fits after.buffer.contents chunks.flatten.length := by
        unfold Fits at *
        omega
      obtain ⟨handled, handledEq, drained⟩ := ih after fitsLater
      refine ⟨handled, ?_, ?_⟩
      · rw [List.foldlM_cons, Except.bind_of_ok afterEq, handledEq]
      · rw [drained, fed, List.foldl_cons]

/-! ## Frames -/

theorem toInt_ofNat_of_lt {length : Nat} (short : length < 2 ^ 31) :
    (BitVec.ofNat (8 * 4) length).toInt = length := by
  rw [BitVec.toInt_eq_toNat_bmod, BitVec.toNat_ofNat]
  simp only [Int.bmod]
  omega

theorem asInt32_withLength (data more : Bytes) :
    asInt32 (withLength data ++ more) = BitVec.ofNat (8 * 4) data.length := by
  rw [asInt32, withLength, List.append_assoc,
    List.take_left' (BigEndian.length_ofWord _), BigEndian.toWord_ofWord]

theorem length_withLength (data : Bytes) :
    (withLength data).length = kHeaderLen + data.length := by
  rw [withLength, List.length_append, BigEndian.length_ofWord]
  rfl

theorem drop_withLength (data : Bytes) : (withLength data).drop kHeaderLen = data :=
  List.drop_left' (BigEndian.length_ofWord _)

/-- A frame of a length that is allowed. -/
theorem next_withLength {data : Bytes} (long : codec.kMinMessageLen ≤ data.length)
    (short : data.length ≤ kMaxMessageLen) (more : Bytes) :
    codec.next (fun _ => false) (withLength data ++ more) =
      match codec.parse data with
      | .ok message => .item (.message message) more
      | .error code => .failed code := by
  have lengthEq := length_withLength data
  have small : data.length < 2 ^ 31 := by
    unfold kMaxMessageLen at short
    omega
  have longInput : codec.kMinMessageLen + kHeaderLen ≤ (withLength data ++ more).length := by
    rw [List.length_append, lengthEq]
    omega
  have valid : ¬((kMaxMessageLen : Int) < (data.length : Int) ∨
      (data.length : Int) < codec.kMinMessageLen) := by omega
  have whole : kHeaderLen + (data.length : Int).toNat ≤ (withLength data ++ more).length := by
    rw [List.length_append, lengthEq, Int.toNat_natCast]
    exact Nat.le_add_right _ _
  rw [next, if_pos longInput, asInt32_withLength, toInt_ofNat_of_lt small, if_neg valid,
    if_pos whole]
  simp only [Bool.false_eq_true, if_false]
  rw [Int.toNat_natCast, List.take_left' lengthEq, List.drop_left' lengthEq,
    drop_withLength]

/-- A frame that is too long is refused as soon as its first bytes have arrived. -/
theorem next_tooLong {data : Bytes} (long : kMaxMessageLen < data.length)
    (representable : data.length < 2 ^ 31)
    (tag : codec.kMinMessageLen ≤ data.length) (more : Bytes) :
    codec.next takes (withLength data ++ more) = .failed .kInvalidLength := by
  have longInput : codec.kMinMessageLen + kHeaderLen ≤ (withLength data ++ more).length := by
    rw [List.length_append, length_withLength]
    omega
  have invalid : (kMaxMessageLen : Int) < (BitVec.ofNat (8 * 4) data.length).toInt ∨
      (BitVec.ofNat (8 * 4) data.length).toInt < codec.kMinMessageLen := by
    rw [BitVec.toInt_eq_toNat_bmod, BitVec.toNat_ofNat]
    simp only [Int.bmod]
    omega
  rw [next, if_pos longInput, asInt32_withLength, if_pos invalid]

theorem validateChecksum_append {body word : Bytes} (lengthEq : word.length = 4)
    (short : body.length < 2 ^ 31) :
    codec.validateChecksum (body ++ word) =
      decide (codec.sumOf body = BigEndian.toWord 4 word) := by
  have bodyLength : (body ++ word).length - kChecksumLen = body.length := by
    rw [List.length_append, lengthEq]
    exact Nat.add_sub_cancel _ _
  have bodyInt : ((body ++ word).length : Int) - kChecksumLen = body.length := by
    rw [List.length_append, lengthEq]
    unfold kChecksumLen
    omega
  rw [validateChecksum, bodyLength, bodyInt, codec.checksum_of_lt short, List.take_left,
    List.drop_left, asInt32, List.take_of_length_le (Nat.le_of_eq lengthEq)]

/-- A message that was serialized is parsed. -/
theorem parse_frame {message : Message} (short : (codec.frame message).length < 2 ^ 31)
    (parses : codec.parseFromBuffer (codec.serialize message) = some message) :
    codec.parse (codec.frame message) = .ok message := by
  have lengthEq := codec.length_frame message
  have valid : codec.validateChecksum (codec.frame message) = true := by
    rw [frame, codec.validateChecksum_append (BigEndian.length_ofWord _)
      (by rw [List.length_append]; omega), BigEndian.toWord_ofWord]
    exact decide_eq_true rfl
  have tagEq : (codec.frame message).take codec.tag_.length = codec.tag_ := by
    rw [frame, List.append_assoc, List.take_left]
  have dataLen : (codec.frame message).length - kChecksumLen - codec.tag_.length =
      (codec.serialize message).length := by
    rw [lengthEq]
    omega
  have data : ((codec.frame message).drop codec.tag_.length).take
      (codec.serialize message).length = codec.serialize message := by
    rw [frame, List.append_assoc, List.drop_left, List.take_left]
  rw [parse, if_pos valid, if_pos tagEq, dataLen]
  simp only [data, parses]

theorem sumOf_ne_of_changed {front back : Bytes} {byte other : UInt8} (changed : other ≠ byte) :
    codec.sumOf (front ++ other :: back) ≠ codec.sumOf (front ++ byte :: back) :=
  codec.adler32.sum_ne_of_changed (by decide) changed

/-- The checksum of a message finds a change in it. -/
theorem validateChecksum_body {front back word : Bytes} {byte other : UInt8}
    (changed : other ≠ byte) (lengthEq : word.length = 4)
    (short : (front ++ other :: back).length < 2 ^ 31)
    (wordEq : BigEndian.toWord 4 word = codec.sumOf (front ++ byte :: back)) :
    codec.validateChecksum ((front ++ other :: back) ++ word) = false := by
  rw [codec.validateChecksum_append lengthEq short, decide_eq_false_iff_not, wordEq]
  exact codec.sumOf_ne_of_changed changed

/-- A change in the checksum is found, too. -/
theorem validateChecksum_word {body front back : Bytes} {byte other : UInt8}
    (changed : other ≠ byte) (lengthEq : (front ++ byte :: back).length = 4)
    (short : body.length < 2 ^ 31)
    (wordEq : BigEndian.toWord 4 (front ++ byte :: back) = codec.sumOf body) :
    codec.validateChecksum (body ++ (front ++ other :: back)) = false := by
  have otherLength : (front ++ other :: back).length = 4 := by
    rw [← lengthEq]
    simp
  rw [codec.validateChecksum_append otherLength short, decide_eq_false_iff_not, ← wordEq]
  exact (BigEndian.toWord_ne_of_changed changed lengthEq).symm

/-- A frame with one byte changed is refused. -/
theorem parse_changed {message : Message} {front back : Bytes} {byte other : UInt8}
    (short : (codec.frame message).length < 2 ^ 31) (changed : other ≠ byte)
    (frameEq : codec.frame message = front ++ byte :: back) :
    codec.parse (front ++ other :: back) = .error .kCheckSumError := by
  suffices invalid : codec.validateChecksum (front ++ other :: back) = false by
    rw [parse, if_neg (by rw [invalid]; exact Bool.false_ne_true)]
  have bodyShort : (codec.tag_ ++ codec.serialize message).length < 2 ^ 31 := by
    rw [length_frame] at short
    rw [List.length_append]
    omega
  have wordLength := BigEndian.length_ofWord
    (codec.sumOf (codec.tag_ ++ codec.serialize message))
  have wordEq := BigEndian.toWord_ofWord
    (codec.sumOf (codec.tag_ ++ codec.serialize message))
  rw [frame] at frameEq
  generalize codec.tag_ ++ codec.serialize message = body at frameEq wordLength wordEq bodyShort
  generalize BigEndian.ofWord (codec.sumOf body) = word at frameEq wordLength wordEq
  -- the byte is one of the checksum, or one of the tag and the message
  obtain ⟨middle, rfl, rfl⟩ | ⟨middle, rfl, backEq⟩ := List.append_eq_append_iff.mp frameEq
  · rw [List.append_assoc]
    exact codec.validateChecksum_word changed wordLength bodyShort wordEq
  · cases middle with
    | nil =>
        rw [List.nil_append] at backEq
        subst backEq
        rw [List.append_nil] at wordEq bodyShort
        have invalid : codec.validateChecksum (front ++ ([] ++ other :: back)) = false :=
          codec.validateChecksum_word changed wordLength bodyShort wordEq
        exact invalid
    | cons head middle =>
        obtain ⟨rfl, rfl⟩ := List.cons.inj backEq
        have changedShort : (front ++ other :: middle).length < 2 ^ 31 := by
          rw [List.length_append, List.length_cons] at bodyShort ⊢
          exact bodyShort
        have invalid := codec.validateChecksum_body changed wordLength changedShort wordEq
        rwa [List.append_assoc] at invalid

/-! ## Sender and receiver -/

/-- The messages that a receiver understands. -/
structure Understands (message : Message) : Prop where
  parses : codec.parseFromBuffer (codec.serialize message) = some message
  short : (codec.frame message).length ≤ kMaxMessageLen

variable {codec}

theorem kMinMessageLen_le (message : Message) :
    codec.kMinMessageLen ≤ (codec.frame message).length := by
  rw [length_frame, kMinMessageLen]
  omega

theorem lt_of_le_kMaxMessageLen {length : Nat} (short : length ≤ kMaxMessageLen) :
    length < 2 ^ 31 :=
  Nat.lt_of_le_of_lt short (by decide)

theorem Understands.next {message : Message} (understands : codec.Understands message)
    (more : Bytes) :
    codec.next (fun _ => false) (codec.encode message ++ more) =
      .item (.message message) more := by
  rw [encode, codec.next_withLength (kMinMessageLen_le message) understands.short,
    codec.parse_frame (lt_of_le_kMaxMessageLen understands.short) understands.parses]

theorem drain_messages {messages : List Message}
    (understood : ∀ message ∈ messages, codec.Understands message) (more : Bytes) :
    let decoder := codec.decoder fun _ => false
    decoder.drain (messages.flatMap codec.encode ++ more) =
      ⟨messages.map .message ++ (decoder.drain more).items, (decoder.drain more).error,
        (decoder.drain more).rest⟩ := by
  refine StreamDecoder.drain_encoded (fun message member rest => ?_) more
  rw [decoder_next, (understood message member).next rest]

/-- A receiver that gets some messages and then bytes that it refuses. -/
theorem receive_refused {messages : List Message} {more : Bytes} {chunks : List Bytes}
    {code : ErrorCode} (noRaw : codec.rawCb_ = none)
    (understood : ∀ message ∈ messages, codec.Understands message)
    (refused : codec.next (fun _ => false) more = .failed code)
    (arrived : chunks.flatten = messages.flatMap codec.encode ++ more)
    (fits : Fits [] chunks.flatten.length) (raw : Raw) :
    ∃ handled, codec.receive raw chunks = .ok handled ∧
      handled.delivered = messages.map .message ∧ handled.error = some code := by
  obtain ⟨handled, receiveEq, drained⟩ :=
    codec.receive_returns (codec.answers_of_none noRaw) raw fits
  rw [← decoder_next] at refused
  rw [arrived, drain_messages understood, StreamDecoder.drain_failed refused,
    List.append_nil] at drained
  exact ⟨handled, receiveEq, congrArg (·.items) drained, congrArg (·.error) drained⟩

/-- Without a raw callback, messages whose frames are not too long arrive, all of them
and in order, however the network cuts the stream into pieces; no assertion fails at
the sender or the receiver, and nothing is left in the input buffer. -/
theorem messages_arrive {messages : List Message} (noRaw : codec.rawCb_ = none)
    (understood : ∀ message ∈ messages, codec.Understands message) :
    ∃ stream, codec.sendAll messages = .ok stream ∧
      ∀ raw chunks, chunks.flatten = stream → Fits [] stream.length →
        ∃ handled, codec.receive raw chunks = .ok handled ∧
          handled.delivered = messages.map .message ∧ handled.error = none ∧
            handled.buffer.contents = [] := by
  refine ⟨_, codec.sendAll_returns fun message member =>
    lt_of_le_kMaxMessageLen (understood message member).short, ?_⟩
  intro raw chunks arrived fits
  obtain ⟨handled, receiveEq, drained⟩ :=
    codec.receive_returns (codec.answers_of_none noRaw) raw (arrived ▸ fits)
  have nothing : (codec.decoder fun _ => false).drain [] = ⟨[], none, []⟩ :=
    StreamDecoder.drain_incomplete (codec.decoder _).next_nil
  rw [arrived, ← List.append_nil (messages.flatMap codec.encode),
    drain_messages understood, nothing, List.append_nil] at drained
  exact ⟨handled, receiveEq, congrArg (·.items) drained, congrArg (·.error) drained,
    congrArg (·.rest) drained⟩

/-- A codec whose messages are byte strings. -/
def ofBytes : ProtobufCodecLite Bytes Unit where
  tag_ := [82, 80, 67, 48]
  serialize := id
  parseFromBuffer := some
  rawCb_ := none
  adler32 := .standard
  tag_short := by decide

theorem length_frame_ofBytes (message : Bytes) :
    (ofBytes.frame message).length = message.length + 8 := by
  rw [length_frame]
  change 4 + message.length + 4 = message.length + 8
  omega

theorem ofBytes_understands {message : Bytes} (short : message.length ≤ 1000) :
    ofBytes.Understands message := by
  refine ⟨rfl, ?_⟩
  rw [length_frame_ofBytes, kMaxMessageLen]
  omega

theorem messages_arrive_two :
    ∃ stream, ofBytes.sendAll [[1, 2], []] = .ok stream ∧
      ∀ raw chunks, chunks.flatten = stream → Fits [] stream.length →
        ∃ handled, ofBytes.receive raw chunks = .ok handled ∧
          handled.delivered = [.message [1, 2], .message []] ∧ handled.error = none ∧
            handled.buffer.contents = [] := by
  refine messages_arrive rfl fun message member => ofBytes_understands ?_
  obtain rfl | rfl : message = [1, 2] ∨ message = [] := by simpa using member
  · decide
  · decide

/-- When the answers of the raw callback depend on the frame only, what a receiver
delivers, the error that it reports last and what it keeps depend only on the bytes that
it has got, whatever they are, and not on how they came. -/
theorem receive_ignores_pieces {takes : Bytes → Bool} (answers : codec.Answers takes)
    {first second : List Bytes} (sameBytes : first.flatten = second.flatten)
    (fits : Fits [] first.flatten.length) (raw raw' : Raw) :
    ∃ handled handled', codec.receive raw first = .ok handled ∧
      codec.receive raw' second = .ok handled' ∧ handled.delivered = handled'.delivered ∧
        handled.error = handled'.error ∧
          handled.buffer.contents = handled'.buffer.contents := by
  obtain ⟨handled, receiveEq, drained⟩ := codec.receive_returns answers raw fits
  obtain ⟨handled', receiveEq', drained'⟩ :=
    codec.receive_returns answers raw' (sameBytes ▸ fits)
  rw [sameBytes, ← drained'] at drained
  exact ⟨handled, handled', receiveEq, receiveEq', congrArg (·.items) drained,
    congrArg (·.error) drained, congrArg (·.rest) drained⟩

/-- A raw callback that counts the frames it is shown and takes the short ones. -/
def countingFrames : ProtobufCodecLite Bytes Nat :=
  { ofBytes with rawCb_ := some fun count frame => (16 < frame.length, count + 1) }

theorem receive_ignores_pieces_header :
    ∃ handled handled', countingFrames.receive 0 [[0, 0], [], [0, 9, 82]] = .ok handled ∧
      countingFrames.receive 5 [[0, 0, 0, 9, 82]] = .ok handled' ∧
        handled.delivered = handled'.delivered ∧ handled.error = handled'.error ∧
          handled.buffer.contents = handled'.buffer.contents := by
  have answers : countingFrames.Answers fun frame => !decide (16 < frame.length) := by
    intro raw frame
    simp [callRaw, countingFrames]
  have sameBytes : ([[0, 0], [], [0, 9, 82]] : List Bytes).flatten =
      ([[0, 0, 0, 9, 82]] : List Bytes).flatten := rfl
  have fits : Fits [] ([[0, 0], [], [0, 9, 82]] : List Bytes).flatten.length := by
    decide +kernel
  exact receive_ignores_pieces answers sameBytes fits 0 5

/-- A callback that takes the second frame that it is shown.  A frame with a wrong
checksum is shown to it again when one more byte is read. -/
example :
    let codec : ProtobufCodecLite Bytes Nat :=
      { ofBytes with rawCb_ := some fun count _ => (count = 0, count + 1) }
    let frame : Bytes := [0, 0, 0, 8, 82, 80, 67, 48, 0, 0, 0, 0]
    (codec.receive 0 [frame ++ [1]]).toOption.map (·.delivered.length) = some 0 ∧
      (codec.receive 0 [frame, [1]]).toOption.map (·.delivered.length) = some 1 := by
  decide +kernel

end ProtobufCodecLite

end TcpMysql
