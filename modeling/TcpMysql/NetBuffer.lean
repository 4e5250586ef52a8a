import TcpMysql.BigEndian
import TcpMysql.Fallible
import TcpMysql.TcpConnection

/-!
# The network buffer with all its members

The server only appends to its buffers and retrieves from them, and `Buffer` is the
class as far as that goes: its reader index never falls below `kCheapPrepend`.
With `prepend` it does, and the assertion of `makeSpace` is no longer obvious.

The members are modelled with their assertions and with the arithmetic of `size_t`.
What they are for is a queue of bytes that also takes a few bytes in front; `room` is
how many it is sure to take, however the bytes are moved around in the vector.
-/

namespace TcpMysql

/-- The ways a member can fail: an assertion, an access outside of the vector, or the
exception that `resize` throws for a size that is too large. -/
inductive BufferFault
  | assertion
  | outOfBounds
  | lengthError
  deriving DecidableEq, Repr

/-- The sum of two values of `size_t`. -/
def addSizeT (left right : Nat) : Nat :=
  (left + right) % 2 ^ 64

/-- The largest size of a vector of bytes. -/
def maxSize : Nat := 2 ^ 63 - 1

theorem addSizeT_of_le {left right : Nat} (small : left + right ≤ maxSize) :
    addSizeT left right = left + right := by
  unfold maxSize at small
  exact Nat.mod_eq_of_lt (by omega)

/-- So many bytes are sure to fit into the vector behind the contents, wherever in it
these are. -/
def Fits (contents : Bytes) (len : Nat) : Prop :=
  contents.length + 2 * len + kCheapPrepend ≤ maxSize

instance (contents : Bytes) (len : Nat) : Decidable (Fits contents len) :=
  inferInstanceAs (Decidable (_ ≤ _))

/-- The vector with its two indices. -/
structure NetBuffer where
  buffer_ : Bytes
  readerIndex_ : Nat
  writerIndex_ : Nat
  reader_le_writer : readerIndex_ ≤ writerIndex_
  writer_le_size : writerIndex_ ≤ buffer_.length
  cheap_le_size : kCheapPrepend ≤ buffer_.length
  size_le_max : buffer_.length ≤ maxSize

/-- The members that change a buffer or read from it.  `fill` stands for
`ensureWritableBytes`, bytes that the caller puts at `beginWrite()`, and
`hasWritten`. -/
inductive BufferOp
  | append (data : Bytes)
  | fill (reserve : Nat) (data : Bytes)
  | readFd (chunk : Bytes)
  | peek (len : Nat)
  | retrieveAsString (len : Nat)
  | retrieveAll
  | unwrite (len : Nat)
  | prepend (data : Bytes)
  | shrink (reserve : Nat)

namespace NetBuffer

theorem cheap_le_initial :
    kCheapPrepend ≤ (List.replicate (kCheapPrepend + kInitialSize) (0 : UInt8)).length := by
  rw [List.length_replicate]
  exact Nat.le_add_right _ _

theorem initial_le_max :
    (List.replicate (kCheapPrepend + kInitialSize) (0 : UInt8)).length ≤ maxSize := by
  rw [List.length_replicate]
  decide

def new : NetBuffer where
  buffer_ := List.replicate (kCheapPrepend + kInitialSize) 0
  readerIndex_ := kCheapPrepend
  writerIndex_ := kCheapPrepend
  reader_le_writer := Nat.le_refl _
  writer_le_size := cheap_le_initial
  cheap_le_size := cheap_le_initial
  size_le_max := initial_le_max

def readableBytes (buffer : NetBuffer) : Nat :=
  buffer.writerIndex_ - buffer.readerIndex_

def writableBytes (buffer : NetBuffer) : Nat :=
  buffer.buffer_.length - buffer.writerIndex_

def prependableBytes (buffer : NetBuffer) : Nat :=
  buffer.readerIndex_

/-- The readable bytes. -/
def contents (buffer : NetBuffer) : Bytes :=
  (buffer.buffer_.take buffer.writerIndex_).drop buffer.readerIndex_

theorem length_contents (buffer : NetBuffer) :
    buffer.contents.length = buffer.readableBytes := by
  have bound := buffer.writer_le_size
  simp only [contents, readableBytes, List.length_drop, List.length_take]
  omega

def peek (buffer : NetBuffer) (len : Nat) : Except BufferFault Bytes := do
  check .assertion (len ≤ buffer.readableBytes)
  return buffer.contents.take len

def retrieveAll (buffer : NetBuffer) : NetBuffer where
  buffer_ := buffer.buffer_
  readerIndex_ := kCheapPrepend
  writerIndex_ := kCheapPrepend
  reader_le_writer := Nat.le_refl _
  writer_le_size := buffer.cheap_le_size
  cheap_le_size := buffer.cheap_le_size
  size_le_max := buffer.size_le_max

/-- `retrieve`, after its assertion. -/
def advance (buffer : NetBuffer) (len : Nat) : NetBuffer :=
  if partially : len < buffer.readableBytes then
    { buffer_ := buffer.buffer_
      readerIndex_ := buffer.readerIndex_ + len
      writerIndex_ := buffer.writerIndex_
      reader_le_writer := by
        unfold readableBytes at partially
        omega
      writer_le_size := buffer.writer_le_size
      cheap_le_size := buffer.cheap_le_size
      size_le_max := buffer.size_le_max }
  else
    buffer.retrieveAll

def retrieve (buffer : NetBuffer) (len : Nat) : Except BufferFault NetBuffer := do
  check .assertion (len ≤ buffer.readableBytes)
  return buffer.advance len

def retrieveAsString (buffer : NetBuffer) (len : Nat) :
    Except BufferFault (Bytes × NetBuffer) := do
  check .assertion (len ≤ buffer.readableBytes)
  let result := buffer.contents.take len
  let rest ← buffer.retrieve len
  return (result, rest)

/-- `buffer_.resize(size)`.  A sum that has wrapped around would leave a vector that
does not hold its own indices. -/
def resizeTo (buffer : NetBuffer) (size : Nat) : Except BufferFault NetBuffer :=
  if fits : size ≤ maxSize then
    if holds : buffer.writerIndex_ ≤ size ∧ kCheapPrepend ≤ size then
      .ok
        { buffer_ := resize buffer.buffer_ size
          readerIndex_ := buffer.readerIndex_
          writerIndex_ := buffer.writerIndex_
          reader_le_writer := buffer.reader_le_writer
          writer_le_size := by
            rw [length_resize]
            exact holds.1
          cheap_le_size := by
            rw [length_resize]
            exact holds.2
          size_le_max := by rwa [length_resize] }
    else
      .error .outOfBounds
  else
    .error .lengthError

theorem length_moved (buffer : NetBuffer) (cheap : kCheapPrepend < buffer.readerIndex_) :
    (overwrite buffer.buffer_ kCheapPrepend buffer.contents).length =
      buffer.buffer_.length := by
  have reader := buffer.reader_le_writer
  have writer := buffer.writer_le_size
  apply length_overwrite
  rw [length_contents]
  unfold readableBytes
  omega

/-- The readable bytes move to the front of the vector. -/
def moveToFront (buffer : NetBuffer) (cheap : kCheapPrepend < buffer.readerIndex_) :
    NetBuffer where
  buffer_ := overwrite buffer.buffer_ kCheapPrepend buffer.contents
  readerIndex_ := kCheapPrepend
  writerIndex_ := kCheapPrepend + buffer.readableBytes
  reader_le_writer := Nat.le_add_right _ _
  writer_le_size := by
    have reader := buffer.reader_le_writer
    have writer := buffer.writer_le_size
    rw [buffer.length_moved cheap]
    unfold readableBytes
    omega
  cheap_le_size := by
    rw [buffer.length_moved cheap]
    exact buffer.cheap_le_size
  size_le_max := by
    rw [buffer.length_moved cheap]
    exact buffer.size_le_max

/-- `makeSpace`, which is called when the writable part is too short: the vector
grows, or the readable bytes move to the front of it. -/
def makeSpace (buffer : NetBuffer) (len : Nat) : Except BufferFault NetBuffer :=
  if addSizeT buffer.writableBytes buffer.prependableBytes < addSizeT len kCheapPrepend then
    buffer.resizeTo (addSizeT buffer.writerIndex_ len)
  else if cheap : kCheapPrepend < buffer.readerIndex_ then
    .ok (buffer.moveToFront cheap)
  else
    .error .assertion

def ensureWritableBytes (buffer : NetBuffer) (len : Nat) : Except BufferFault NetBuffer := do
  let spaced ← if buffer.writableBytes < len then buffer.makeSpace len else .ok buffer
  check .assertion (len ≤ spaced.writableBytes)
  return spaced

/-- `std::copy` to `beginWrite()` followed by `hasWritten`. -/
def write (buffer : NetBuffer) (data : Bytes) : Except BufferFault NetBuffer :=
  if fits : data.length ≤ buffer.writableBytes then
    have sameSize : (overwrite buffer.buffer_ buffer.writerIndex_ data).length =
        buffer.buffer_.length := by
      have bound := buffer.writer_le_size
      unfold writableBytes at fits
      exact length_overwrite (by omega)
    .ok
      { buffer_ := overwrite buffer.buffer_ buffer.writerIndex_ data
        readerIndex_ := buffer.readerIndex_
        writerIndex_ := buffer.writerIndex_ + data.length
        reader_le_writer := Nat.le_add_right_of_le buffer.reader_le_writer
        writer_le_size := by
          have bound := buffer.writer_le_size
          unfold writableBytes at fits
          rw [sameSize]
          omega
        cheap_le_size := by
          rw [sameSize]
          exact buffer.cheap_le_size
        size_le_max := by
          rw [sameSize]
          exact buffer.size_le_max }
  else
    .error .outOfBounds

def fill (buffer : NetBuffer) (reserve : Nat) (data : Bytes) :
    Except BufferFault NetBuffer := do
  let spaced ← buffer.ensureWritableBytes reserve
  spaced.write data

def append (buffer : NetBuffer) (data : Bytes) : Except BufferFault NetBuffer :=
  buffer.fill data.length data

/-- `readFd` when `readv` delivers the given bytes. -/
def readFd (buffer : NetBuffer) (chunk : Bytes) : Except BufferFault NetBuffer :=
  if chunk.length ≤ buffer.writableBytes then
    buffer.write chunk
  else do
    let full ← buffer.write (chunk.take buffer.writableBytes)
    full.append (chunk.drop buffer.writableBytes)

def unwrite (buffer : NetBuffer) (len : Nat) : Except BufferFault NetBuffer :=
  if fits : len ≤ buffer.readableBytes then
    .ok
      { buffer_ := buffer.buffer_
        readerIndex_ := buffer.readerIndex_
        writerIndex_ := buffer.writerIndex_ - len
        reader_le_writer := by
          have bound := buffer.reader_le_writer
          unfold readableBytes at fits
          omega
        writer_le_size := Nat.le_trans (Nat.sub_le _ _) buffer.writer_le_size
        cheap_le_size := buffer.cheap_le_size
        size_le_max := buffer.size_le_max }
  else
    .error .assertion

def prepend (buffer : NetBuffer) (data : Bytes) : Except BufferFault NetBuffer :=
  if fits : data.length ≤ buffer.prependableBytes then
    have sameSize : (overwrite buffer.buffer_ (buffer.readerIndex_ - data.length)
        data).length = buffer.buffer_.length := by
      have reader := buffer.reader_le_writer
      have writer := buffer.writer_le_size
      unfold prependableBytes at fits
      exact length_overwrite (by omega)
    .ok
      { buffer_ := overwrite buffer.buffer_ (buffer.readerIndex_ - data.length) data
        readerIndex_ := buffer.readerIndex_ - data.length
        writerIndex_ := buffer.writerIndex_
        reader_le_writer := Nat.le_trans (Nat.sub_le _ _) buffer.reader_le_writer
        writer_le_size := by
          rw [sameSize]
          exact buffer.writer_le_size
        cheap_le_size := by
          rw [sameSize]
          exact buffer.cheap_le_size
        size_le_max := by
          rw [sameSize]
          exact buffer.size_le_max }
  else
    .error .assertion

/-- `shrink`: the contents go through a `StringPiece`, whose length is an `int`. -/
def shrink (buffer : NetBuffer) (reserve : Nat) : Except BufferFault NetBuffer := do
  let other ← new.ensureWritableBytes (addSizeT buffer.readableBytes reserve)
  let piece := StringPiece.ofString buffer.contents
  check .outOfBounds (toSizeT piece.length_ ≤ piece.ptr_.length)
  other.append (piece.ptr_.take (toSizeT piece.length_))

/-- A member and what it returns. -/
def step (buffer : NetBuffer) : BufferOp → Except BufferFault (Bytes × NetBuffer)
  | .append data => return ([], ← buffer.append data)
  | .fill reserve data => return ([], ← buffer.fill reserve data)
  | .readFd chunk => return ([], ← buffer.readFd chunk)
  | .peek len => return (← buffer.peek len, buffer)
  | .retrieveAsString len => buffer.retrieveAsString len
  | .retrieveAll => return ([], buffer.retrieveAll)
  | .unwrite len => return ([], ← buffer.unwrite len)
  | .prepend data => return ([], ← buffer.prepend data)
  | .shrink reserve => return ([], ← buffer.shrink reserve)

/-- A sequence of calls and what they return. -/
def run : NetBuffer → List BufferOp → Except BufferFault (List Bytes × NetBuffer)
  | buffer, [] => .ok ([], buffer)
  | buffer, op :: ops => do
      let (output, after) ← buffer.step op
      let (outputs, final) ← run after ops
      return (output :: outputs, final)

end NetBuffer

/-! ## What the buffer is for -/

/-- A queue of bytes that is sure to take `room` bytes in front. -/
structure ByteQueue where
  contents : Bytes
  room : Nat
  deriving DecidableEq, Repr

namespace ByteQueue

def new : ByteQueue := ⟨[], kCheapPrepend⟩

/-- Taking from the front makes room there, but no more than `kCheapPrepend` bytes of
it are sure to stay. -/
def takeFront (queue : ByteQueue) (len : Nat) : ByteQueue where
  contents := queue.contents.drop len
  room :=
    if len < queue.contents.length then min (queue.room + len) kCheapPrepend
    else kCheapPrepend

/-- A call, if it is allowed. -/
def step (queue : ByteQueue) : BufferOp → Option (Bytes × ByteQueue)
  | .append data | .readFd data =>
      if Fits queue.contents data.length then
        some ([], { queue with contents := queue.contents ++ data })
      else none
  | .fill reserve data =>
      if data.length ≤ reserve ∧ Fits queue.contents reserve then
        some ([], { queue with contents := queue.contents ++ data })
      else none
  | .peek len =>
      if len ≤ queue.contents.length then some (queue.contents.take len, queue) else none
  | .retrieveAsString len =>
      if len ≤ queue.contents.length then
        some (queue.contents.take len, queue.takeFront len)
      else none
  | .retrieveAll => some ([], new)
  | .unwrite len =>
      if len ≤ queue.contents.length then
        some ([], { queue with
          contents := queue.contents.take (queue.contents.length - len) })
      else none
  | .prepend data =>
      if data.length ≤ queue.room then
        some ([], ⟨data ++ queue.contents, queue.room - data.length⟩)
      else none
  | .shrink reserve =>
      if queue.contents.length < 2 ^ 31 ∧ Fits [] (queue.contents.length + reserve) then
        some ([], { queue with room := kCheapPrepend })
      else none

def run : ByteQueue → List BufferOp → Option (List Bytes × ByteQueue)
  | queue, [] => some ([], queue)
  | queue, op :: ops => do
      let (output, after) ← queue.step op
      let (outputs, final) ← run after ops
      return (output :: outputs, final)

end ByteQueue

/-! ## The members one by one -/

namespace NetBuffer

variable {buffer after : NetBuffer}

/-- Bytes were added at the end, and what can be prepended has not become less than
`kCheapPrepend` bytes or than it was. -/
structure Grows (buffer after : NetBuffer) (data : Bytes) : Prop where
  contents : after.contents = buffer.contents ++ data
  reader : min buffer.readerIndex_ kCheapPrepend ≤ after.readerIndex_

theorem Grows.trans {first second third : NetBuffer} {data more : Bytes}
    (left : Grows first second data) (right : Grows second third more) :
    Grows first third (data ++ more) := by
  refine ⟨by rw [right.contents, left.contents, List.append_assoc], ?_⟩
  have leftReader := left.reader
  have rightReader := right.reader
  omega

/-- A larger vector. -/
theorem resizeTo_returns (buffer : NetBuffer) {size : Nat} (fits : size ≤ maxSize)
    (holds : buffer.writerIndex_ ≤ size ∧ kCheapPrepend ≤ size) :
    ∃ after, buffer.resizeTo size = .ok after ∧ after.buffer_ = resize buffer.buffer_ size ∧
      after.readerIndex_ = buffer.readerIndex_ ∧ after.writerIndex_ = buffer.writerIndex_ := by
  unfold resizeTo
  rw [dif_pos fits, dif_pos holds]
  exact ⟨_, rfl, rfl, rfl, rfl⟩

theorem contents_moveToFront (buffer : NetBuffer) (cheap : kCheapPrepend < buffer.readerIndex_) :
    (buffer.moveToFront cheap).contents = buffer.contents := by
  have size := buffer.cheap_le_size
  change ((overwrite buffer.buffer_ kCheapPrepend buffer.contents).take
    (kCheapPrepend + buffer.readableBytes)).drop kCheapPrepend = buffer.contents
  rw [← length_contents, take_overwrite size]
  apply List.drop_left'
  rw [List.length_take, Nat.min_eq_left size]

/-- As long as everything fits no sum wraps around, so `makeSpace` decides as it
should. -/
theorem makeSpace_of_fits (buffer : NetBuffer) {len : Nat} (fits : Fits buffer.contents len) :
    buffer.makeSpace len =
      if buffer.writableBytes + buffer.prependableBytes < len + kCheapPrepend then
        buffer.resizeTo (buffer.writerIndex_ + len)
      else if cheap : kCheapPrepend < buffer.readerIndex_ then
        .ok (buffer.moveToFront cheap)
      else
        .error .assertion := by
  have reader := buffer.reader_le_writer
  have writer := buffer.writer_le_size
  have max := buffer.size_le_max
  unfold Fits at fits
  rw [length_contents] at fits
  unfold makeSpace
  unfold readableBytes at fits
  unfold writableBytes prependableBytes
  rw [addSizeT_of_le (by omega), addSizeT_of_le (by omega)]
  by_cases grow : buffer.buffer_.length - buffer.writerIndex_ + buffer.readerIndex_ <
      len + kCheapPrepend
  · rw [if_pos grow, if_pos grow, addSizeT_of_le (by omega)]
  · rw [if_neg grow, if_neg grow]

/-- The assertion of `makeSpace` holds whatever was prepended: when the bytes are
moved there was more than `kCheapPrepend` in front of them. -/
theorem makeSpace_returns (buffer : NetBuffer) {len : Nat}
    (short : buffer.writableBytes < len) (fits : Fits buffer.contents len) :
    ∃ after, buffer.makeSpace len = .ok after ∧ Grows buffer after [] ∧
      len ≤ after.writableBytes := by
  have reader := buffer.reader_le_writer
  have writer := buffer.writer_le_size
  have size := buffer.cheap_le_size
  rw [buffer.makeSpace_of_fits fits]
  unfold Fits at fits
  rw [length_contents] at fits
  unfold writableBytes prependableBytes readableBytes at *
  split
  · rename_i grow
    obtain ⟨after, resizeEq, bufferEq, readerEq, writerEq⟩ :=
      buffer.resizeTo_returns (show buffer.writerIndex_ + len ≤ maxSize by omega)
        ⟨Nat.le_add_right _ _, by omega⟩
    refine ⟨after, resizeEq, ⟨?_, ?_⟩, ?_⟩
    · rw [contents, bufferEq, readerEq, writerEq, contents, List.append_nil,
        take_resize buffer.writer_le_size (Nat.le_add_right _ _)]
    · rw [readerEq]
      exact Nat.min_le_left _ _
    · rw [bufferEq, writerEq, length_resize]
      omega
  · rename_i enough
    have cheap : kCheapPrepend < buffer.readerIndex_ := by omega
    rw [dif_pos cheap]
    refine ⟨_, rfl, ⟨?_, Nat.min_le_right _ _⟩, ?_⟩
    · rw [contents_moveToFront, List.append_nil]
    · change len ≤ (overwrite buffer.buffer_ kCheapPrepend buffer.contents).length -
        (kCheapPrepend + buffer.readableBytes)
      rw [buffer.length_moved cheap]
      unfold readableBytes
      omega

theorem ensureWritableBytes_returns (buffer : NetBuffer) {len : Nat}
    (fits : Fits buffer.contents len) :
    ∃ after, buffer.ensureWritableBytes len = .ok after ∧ Grows buffer after [] ∧
      len ≤ after.writableBytes := by
  unfold ensureWritableBytes
  by_cases short : buffer.writableBytes < len
  · obtain ⟨after, spaceEq, grows, enough⟩ := buffer.makeSpace_returns short fits
    refine ⟨after, ?_, grows, enough⟩
    rw [if_pos short]
    exact (Except.bind_of_ok spaceEq _).trans (Except.bind_of_ok (check_of enough) _)
  · have enough := Nat.le_of_not_lt short
    refine ⟨buffer, ?_, ⟨by simp, Nat.min_le_left _ _⟩, enough⟩
    rw [if_neg short]
    exact Except.bind_of_ok (check_of enough) _

theorem write_returns (buffer : NetBuffer) {data : Bytes}
    (fits : data.length ≤ buffer.writableBytes) :
    ∃ after, buffer.write data = .ok after ∧ Grows buffer after data := by
  unfold write
  rw [dif_pos fits]
  refine ⟨_, rfl, ?_, Nat.min_le_left _ _⟩
  have readerLe : buffer.readerIndex_ ≤
      (buffer.buffer_.take buffer.writerIndex_).length := by
    rw [List.length_take, Nat.min_eq_left buffer.writer_le_size]
    exact buffer.reader_le_writer
  simp only [contents]
  rw [take_overwrite buffer.writer_le_size, List.drop_append_of_le_length readerLe]

theorem fill_returns (buffer : NetBuffer) {reserve : Nat} {data : Bytes}
    (enough : data.length ≤ reserve) (fits : Fits buffer.contents reserve) :
    ∃ after, buffer.fill reserve data = .ok after ∧ Grows buffer after data := by
  obtain ⟨spaced, spacedEq, grows, writable⟩ := buffer.ensureWritableBytes_returns fits
  obtain ⟨after, writeEq, written⟩ := spaced.write_returns (Nat.le_trans enough writable)
  exact ⟨after, (Except.bind_of_ok spacedEq _).trans writeEq, grows.trans written⟩

theorem append_returns (buffer : NetBuffer) {data : Bytes}
    (fits : Fits buffer.contents data.length) :
    ∃ after, buffer.append data = .ok after ∧ Grows buffer after data :=
  buffer.fill_returns (Nat.le_refl _) fits

theorem readFd_returns (buffer : NetBuffer) {chunk : Bytes}
    (fits : Fits buffer.contents chunk.length) :
    ∃ after, buffer.readFd chunk = .ok after ∧ Grows buffer after chunk := by
  unfold readFd
  split
  · rename_i short
    exact buffer.write_returns short
  · obtain ⟨full, fullEq, grows⟩ :=
      buffer.write_returns (List.length_take_le buffer.writableBytes chunk)
    have stillFits : Fits full.contents (chunk.drop buffer.writableBytes).length := by
      unfold Fits at *
      rw [grows.contents, List.length_append, List.length_take, List.length_drop]
      omega
    obtain ⟨after, appendEq, appended⟩ := full.append_returns stillFits
    refine ⟨after, (Except.bind_of_ok fullEq _).trans appendEq, ?_⟩
    have both := grows.trans appended
    rwa [List.take_append_drop] at both

@[simp]
theorem contents_retrieveAll (buffer : NetBuffer) : buffer.retrieveAll.contents = [] := by
  simp [contents, retrieveAll]

theorem contents_advance (buffer : NetBuffer) (len : Nat) :
    (buffer.advance len).contents = buffer.contents.drop len := by
  unfold advance
  split
  · simp [contents, List.drop_drop]
  · rename_i everything
    rw [contents_retrieveAll, List.drop_eq_nil_of_le]
    rw [length_contents]
    exact Nat.le_of_not_lt everything

theorem reader_advance (buffer : NetBuffer) (len : Nat) :
    (buffer.advance len).readerIndex_ =
      if len < buffer.contents.length then buffer.readerIndex_ + len else kCheapPrepend := by
  unfold advance
  rw [length_contents]
  split <;> rfl

theorem retrieve_of_le {len : Nat} (fits : len ≤ buffer.contents.length) :
    buffer.retrieve len = .ok (buffer.advance len) := by
  rw [length_contents] at fits
  rw [retrieve, Except.bind_of_ok (check_of fits)]
  rfl

theorem retrieveAsString_of_le {len : Nat} (fits : len ≤ buffer.contents.length) :
    buffer.retrieveAsString len = .ok (buffer.contents.take len, buffer.advance len) := by
  have fits' := fits
  rw [length_contents] at fits'
  rw [retrieveAsString, Except.bind_of_ok (check_of fits')]
  exact Except.bind_of_ok (retrieve_of_le fits) _

theorem peek_of_le {len : Nat} (fits : len ≤ buffer.contents.length) :
    buffer.peek len = .ok (buffer.contents.take len) := by
  rw [length_contents] at fits
  rw [peek, Except.bind_of_ok (check_of fits)]
  rfl

theorem unwrite_returns {len : Nat} (fits : len ≤ buffer.contents.length) :
    ∃ after, buffer.unwrite len = .ok after ∧
      after.contents = buffer.contents.take (buffer.contents.length - len) ∧
        after.readerIndex_ = buffer.readerIndex_ := by
  rw [length_contents] at fits
  unfold unwrite
  rw [dif_pos fits]
  refine ⟨_, rfl, ?_, rfl⟩
  have reader := buffer.reader_le_writer
  have unread : buffer.readerIndex_ + (buffer.readableBytes - len) =
      buffer.writerIndex_ - len := by
    unfold readableBytes at *
    omega
  rw [length_contents]
  change (buffer.buffer_.take (buffer.writerIndex_ - len)).drop buffer.readerIndex_ = _
  rw [contents, List.take_drop, List.take_take, unread, Nat.min_eq_left (Nat.sub_le _ _)]

theorem prepend_returns {data : Bytes} (fits : data.length ≤ buffer.readerIndex_) :
    ∃ after, buffer.prepend data = .ok after ∧ after.contents = data ++ buffer.contents ∧
      after.readerIndex_ = buffer.readerIndex_ - data.length := by
  have reader := buffer.reader_le_writer
  have writer := buffer.writer_le_size
  unfold prepend
  rw [dif_pos (show data.length ≤ buffer.prependableBytes from fits)]
  refine ⟨_, rfl, ?_, rfl⟩
  -- the bytes go right before the readable ones, which stay where they are
  have gap : buffer.readerIndex_ - data.length + data.length = buffer.readerIndex_ :=
    Nat.sub_add_cancel fits
  have front : (buffer.buffer_.take (buffer.readerIndex_ - data.length)).length =
      buffer.readerIndex_ - data.length := by
    rw [List.length_take]
    omega
  have inFront : buffer.readerIndex_ - data.length ≤ buffer.writerIndex_ := by omega
  have readable : buffer.writerIndex_ - (buffer.readerIndex_ - data.length) - data.length =
      buffer.writerIndex_ - buffer.readerIndex_ := by omega
  have whole : data.length ≤
      buffer.writerIndex_ - (buffer.readerIndex_ - data.length) := by omega
  simp only [contents, overwrite]
  rw [gap, List.append_assoc, List.take_append, front,
    List.take_of_length_le (by rw [front]; exact inFront), List.drop_left' front,
    List.take_append, List.take_of_length_le whole, readable, List.drop_take]

theorem shrink_returns (short : buffer.contents.length < 2 ^ 31) {reserve : Nat}
    (fits : Fits [] (buffer.contents.length + reserve)) :
    ∃ after, buffer.shrink reserve = .ok after ∧ after.contents = buffer.contents ∧
      kCheapPrepend ≤ after.readerIndex_ := by
  have sumEq : addSizeT buffer.readableBytes reserve = buffer.contents.length + reserve := by
    rw [length_contents] at fits ⊢
    exact addSizeT_of_le (by unfold Fits at fits; omega)
  have empty : new.contents = [] := by simp [contents, new]
  obtain ⟨other, otherEq, otherGrows, -⟩ := new.ensureWritableBytes_returns (empty ▸ fits)
  rw [← sumEq] at otherEq
  have stillFits : Fits other.contents buffer.contents.length := by
    unfold Fits at *
    rw [otherGrows.contents, empty]
    simp only [List.nil_append, List.length_nil] at fits ⊢
    omega
  obtain ⟨after, appendEq, grows⟩ := other.append_returns stillFits
  have lengthEq : toSizeT (StringPiece.ofString buffer.contents).length_ =
      buffer.contents.length := toSizeT_toInt_of_lt short
  have inside : toSizeT (StringPiece.ofString buffer.contents).length_ ≤
      (StringPiece.ofString buffer.contents).ptr_.length := Nat.le_of_eq lengthEq
  have taken : (StringPiece.ofString buffer.contents).ptr_.take
      (toSizeT (StringPiece.ofString buffer.contents).length_) = buffer.contents := by
    rw [lengthEq]
    exact List.take_length
  have both := otherGrows.trans grows
  refine ⟨after, ?_, ?_, ?_⟩
  · rw [shrink, Except.bind_of_ok otherEq]
    refine (Except.bind_of_ok (check_of inside) _).trans ?_
    rw [taken, appendEq]
  · rw [both.contents, empty, List.nil_append, List.nil_append]
  · have reader := both.reader
    simpa [new] using reader

/-! ## All members together -/

/-- The buffer does what the queue says. -/
structure Refines (buffer : NetBuffer) (queue : ByteQueue) : Prop where
  contents : buffer.contents = queue.contents
  room_le_reader : queue.room ≤ buffer.readerIndex_
  room_le_cheap : queue.room ≤ kCheapPrepend

theorem new_refines : Refines new .new :=
  ⟨by simp [contents, new, ByteQueue.new], Nat.le_refl _, Nat.le_refl _⟩

theorem Refines.grows {queue : ByteQueue} (refines : Refines buffer queue) {data : Bytes}
    (grows : Grows buffer after data) :
    Refines after { queue with contents := queue.contents ++ data } := by
  have reader := grows.reader
  have room := refines.room_le_reader
  have cheap := refines.room_le_cheap
  exact ⟨by rw [grows.contents, refines.contents], by simp only; omega, cheap⟩

theorem Refines.takeFront {queue : ByteQueue} (refines : Refines buffer queue) (len : Nat) :
    Refines (buffer.advance len) (queue.takeFront len) := by
  have room := refines.room_le_reader
  refine ⟨?_, ?_, ?_⟩
  · rw [contents_advance, refines.contents]
    rfl
  · rw [reader_advance, refines.contents]
    simp only [ByteQueue.takeFront]
    split <;> omega
  · simp only [ByteQueue.takeFront]
    split <;> omega

/-- A call that the queue allows returns, with what the queue says. -/
theorem Refines.step {queue queue' : ByteQueue} (refines : Refines buffer queue)
    {op : BufferOp} {output : Bytes} (stepTo : queue.step op = some (output, queue')) :
    ∃ after, buffer.step op = .ok (output, after) ∧ Refines after queue' := by
  cases op with
  | append data =>
      obtain ⟨fits, stepEq⟩ := Option.ite_none_right_eq_some.mp stepTo
      obtain ⟨rfl, rfl⟩ := Prod.mk.inj (Option.some.inj stepEq)
      obtain ⟨after, appendEq, grows⟩ := buffer.append_returns (refines.contents ▸ fits)
      exact ⟨after, Except.bind_of_ok appendEq _, refines.grows grows⟩
  | readFd chunk =>
      obtain ⟨fits, stepEq⟩ := Option.ite_none_right_eq_some.mp stepTo
      obtain ⟨rfl, rfl⟩ := Prod.mk.inj (Option.some.inj stepEq)
      obtain ⟨after, readEq, grows⟩ := buffer.readFd_returns (refines.contents ▸ fits)
      exact ⟨after, Except.bind_of_ok readEq _, refines.grows grows⟩
  | fill reserve data =>
      obtain ⟨⟨enough, fits⟩, stepEq⟩ := Option.ite_none_right_eq_some.mp stepTo
      obtain ⟨rfl, rfl⟩ := Prod.mk.inj (Option.some.inj stepEq)
      obtain ⟨after, fillEq, grows⟩ := buffer.fill_returns enough (refines.contents ▸ fits)
      exact ⟨after, Except.bind_of_ok fillEq _, refines.grows grows⟩
  | peek len =>
      obtain ⟨fits, stepEq⟩ := Option.ite_none_right_eq_some.mp stepTo
      obtain ⟨rfl, rfl⟩ := Prod.mk.inj (Option.some.inj stepEq)
      rw [← refines.contents] at fits ⊢
      exact ⟨buffer, Except.bind_of_ok (peek_of_le fits) _, refines⟩
  | retrieveAsString len =>
      obtain ⟨fits, stepEq⟩ := Option.ite_none_right_eq_some.mp stepTo
      obtain ⟨rfl, rfl⟩ := Prod.mk.inj (Option.some.inj stepEq)
      rw [← refines.contents] at fits ⊢
      exact ⟨_, retrieveAsString_of_le fits, refines.takeFront len⟩
  | retrieveAll =>
      obtain ⟨rfl, rfl⟩ := Prod.mk.inj (Option.some.inj stepTo)
      exact ⟨_, rfl, buffer.contents_retrieveAll, Nat.le_refl _, Nat.le_refl _⟩
  | unwrite len =>
      obtain ⟨fits, stepEq⟩ := Option.ite_none_right_eq_some.mp stepTo
      obtain ⟨rfl, rfl⟩ := Prod.mk.inj (Option.some.inj stepEq)
      rw [← refines.contents] at fits ⊢
      obtain ⟨after, unwriteEq, contentsEq, readerEq⟩ := unwrite_returns fits
      exact ⟨after, Except.bind_of_ok unwriteEq _, contentsEq,
        readerEq ▸ refines.room_le_reader, refines.room_le_cheap⟩
  | prepend data =>
      obtain ⟨fits, stepEq⟩ := Option.ite_none_right_eq_some.mp stepTo
      obtain ⟨rfl, rfl⟩ := Prod.mk.inj (Option.some.inj stepEq)
      have room := refines.room_le_reader
      have cheap := refines.room_le_cheap
      obtain ⟨after, prependEq, contentsEq, readerEq⟩ :=
        prepend_returns (Nat.le_trans fits room)
      refine ⟨after, Except.bind_of_ok prependEq _, ?_, ?_, ?_⟩
      · rw [contentsEq, refines.contents]
      · rw [readerEq]
        exact Nat.sub_le_sub_right room _
      · exact Nat.le_trans (Nat.sub_le _ _) cheap
  | shrink reserve =>
      obtain ⟨⟨short, fits⟩, stepEq⟩ := Option.ite_none_right_eq_some.mp stepTo
      obtain ⟨rfl, rfl⟩ := Prod.mk.inj (Option.some.inj stepEq)
      rw [← refines.contents] at short fits
      obtain ⟨after, shrinkEq, contentsEq, cheap⟩ := shrink_returns short fits
      exact ⟨after, Except.bind_of_ok shrinkEq _, contentsEq.trans refines.contents, cheap,
        Nat.le_refl _⟩

/-- A sum that wraps around, so that `makeSpace` takes the wrong branch and fails. -/
example : (new.ensureWritableBytes (2 ^ 64 - 1)).toOption.isNone = true := by
  decide +kernel

/-! ## Integers in network byte order -/

def appendInt {width : Nat} (buffer : NetBuffer) (word : BitVec (8 * width)) :
    Except BufferFault NetBuffer :=
  buffer.append (BigEndian.ofWord word)

def prependInt {width : Nat} (buffer : NetBuffer) (word : BitVec (8 * width)) :
    Except BufferFault NetBuffer :=
  buffer.prepend (BigEndian.ofWord word)

def peekInt (width : Nat) (buffer : NetBuffer) :
    Except BufferFault (BitVec (8 * width)) := do
  let bytes ← buffer.peek width
  return BigEndian.toWord width bytes

theorem peekInt_of_le {width : Nat} (fits : width ≤ buffer.contents.length) :
    peekInt width buffer = .ok (BigEndian.toWord width (buffer.contents.take width)) :=
  Except.bind_of_ok (peek_of_le fits) _

end NetBuffer

/-! ## The buffers of the server -/

namespace Buffer

/-- A buffer of the server and one of the class that hold the same. -/
structure Same (buffer : Buffer) (net : NetBuffer) : Prop where
  storage : net.buffer_ = buffer.buffer_
  reader : net.readerIndex_ = buffer.readerIndex_
  writer : net.writerIndex_ = buffer.writerIndex_

variable {buffer : Buffer} {net : NetBuffer}

theorem Same.contents (same : buffer.Same net) : net.contents = buffer.contents := by
  rw [NetBuffer.contents, same.storage, same.reader, same.writer]
  rfl

theorem Same.writableBytes (same : buffer.Same net) :
    net.writableBytes = buffer.writableBytes := by
  rw [NetBuffer.writableBytes, same.storage, same.writer]
  rfl

theorem Same.readableBytes (same : buffer.Same net) :
    net.readableBytes = buffer.readableBytes := by
  rw [NetBuffer.readableBytes, same.reader, same.writer]
  rfl

/-- As long as everything fits, the class does not see the end of `size_t`. -/
theorem Same.makeSpace (same : buffer.Same net) {len : Nat}
    (short : net.writableBytes < len) (fits : Fits net.contents len) :
    ∃ after, net.makeSpace len = .ok after ∧ (buffer.makeSpace len).Same after := by
  obtain ⟨after, spaceEq, -, -⟩ := net.makeSpace_returns short fits
  refine ⟨after, spaceEq, ?_⟩
  rw [net.makeSpace_of_fits fits] at spaceEq
  have prependable : net.prependableBytes = buffer.prependableBytes := same.reader
  rw [same.writableBytes, prependable] at spaceEq
  unfold Buffer.makeSpace
  by_cases grow : buffer.writableBytes + buffer.prependableBytes < len + kCheapPrepend
  · rw [if_pos grow] at spaceEq ⊢
    unfold NetBuffer.resizeTo at spaceEq
    split at spaceEq
    · split at spaceEq
      · obtain rfl := Except.ok.inj spaceEq
        exact ⟨by simp only [same.storage, same.writer], same.reader, same.writer⟩
      · cases spaceEq
    · cases spaceEq
  · rw [if_neg grow] at spaceEq ⊢
    split at spaceEq
    · obtain rfl := Except.ok.inj spaceEq
      refine ⟨?_, rfl, ?_⟩
      · simp only [NetBuffer.moveToFront, same.storage, same.contents]
      · simp only [NetBuffer.moveToFront, same.readableBytes]
    · cases spaceEq

theorem Same.write (same : buffer.Same net) {data : Bytes}
    (fits : data.length ≤ buffer.writableBytes) :
    ∃ after, net.write data = .ok after ∧ (buffer.write data fits).Same after := by
  unfold NetBuffer.write
  rw [dif_pos (same.writableBytes ▸ fits)]
  refine ⟨_, rfl, ?_, same.reader, ?_⟩
  · simp only [same.storage, same.writer]
    rfl
  · simp only [same.writer]
    rfl

theorem Same.ensureWritableBytes (same : buffer.Same net) {len : Nat}
    (fits : Fits net.contents len) :
    ∃ after, net.ensureWritableBytes len = .ok after ∧
      (buffer.ensureWritableBytes len).Same after := by
  obtain ⟨after, ensureEq, -, enough⟩ := net.ensureWritableBytes_returns fits
  refine ⟨after, ensureEq, ?_⟩
  unfold NetBuffer.ensureWritableBytes at ensureEq
  unfold Buffer.ensureWritableBytes
  rw [← same.writableBytes]
  by_cases short : net.writableBytes < len
  · obtain ⟨spaced, spaceEq, spacedSame⟩ := same.makeSpace short fits
    rw [if_pos short] at ensureEq ⊢
    obtain ⟨spaced', spaceEq', rest⟩ := Except.bind_eq_ok.mp ensureEq
    obtain ⟨-, -, rest⟩ := Except.bind_eq_ok.mp rest
    rw [spaceEq] at spaceEq'
    obtain rfl := Except.ok.inj spaceEq'
    obtain rfl := Except.ok.inj rest
    exact spacedSame
  · rw [if_neg short] at ensureEq ⊢
    obtain ⟨spaced, spacedEq, rest⟩ := Except.bind_eq_ok.mp ensureEq
    obtain ⟨-, -, rest⟩ := Except.bind_eq_ok.mp rest
    obtain rfl := Except.ok.inj spacedEq
    obtain rfl := Except.ok.inj rest
    exact same

theorem Same.append (same : buffer.Same net) {data : Bytes}
    (fits : Fits net.contents data.length) :
    ∃ after, net.append data = .ok after ∧ (buffer.append data).Same after := by
  obtain ⟨spaced, ensureEq, spacedSame⟩ := same.ensureWritableBytes fits
  obtain ⟨after, writeEq, afterSame⟩ :=
    spacedSame.write (buffer.ensureWritableBytes_writable data.length)
  exact ⟨after, (Except.bind_of_ok ensureEq _).trans writeEq, afterSame⟩

/-- What the server's buffers do is what the class does. -/
theorem Same.readFd (same : buffer.Same net) {chunk : Bytes}
    (fits : Fits net.contents chunk.length) :
    ∃ after, net.readFd chunk = .ok after ∧ (buffer.readFd chunk).Same after := by
  unfold NetBuffer.readFd Buffer.readFd
  rw [same.writableBytes]
  by_cases short : chunk.length ≤ buffer.writableBytes
  · rw [if_pos short, dif_pos short]
    exact same.write short
  · rw [if_neg short, dif_neg short]
    obtain ⟨full, writeEq, fullSame⟩ := same.write (List.length_take_le _ chunk)
    have fullContents : full.contents = net.contents ++ chunk.take buffer.writableBytes := by
      rw [fullSame.contents, contents_write, same.contents]
    have stillFits : Fits full.contents (chunk.drop buffer.writableBytes).length := by
      unfold Fits at *
      rw [fullContents, List.length_append, List.length_take, List.length_drop]
      omega
    obtain ⟨after, appendEq, afterSame⟩ := fullSame.append stillFits
    exact ⟨after, (Except.bind_of_ok writeEq _).trans appendEq, afterSame⟩

theorem Same.retrieve (same : buffer.Same net) {len : Nat} (fits : len ≤ buffer.readableBytes) :
    ∃ after, net.retrieve len = .ok after ∧ (buffer.retrieve len).Same after := by
  have readable := same.readableBytes
  refine ⟨net.advance len, Except.bind_of_ok (check_of (by omega)) _, ?_⟩
  unfold NetBuffer.advance Buffer.retrieve
  by_cases partially : len < buffer.readableBytes
  · rw [dif_pos partially, dif_pos (show len < net.readableBytes by omega)]
    exact ⟨same.storage, by simp only [same.reader], same.writer⟩
  · rw [dif_neg partially, dif_neg (show ¬len < net.readableBytes by omega)]
    exact ⟨same.storage, rfl, rfl⟩

end Buffer

end TcpMysql
