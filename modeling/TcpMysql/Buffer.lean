import Mathlib.Data.List.Basic

/-!
# The network buffer

`muduo::net::Buffer` keeps its readable bytes between two indices of a vector:

    prependable | readable | writable
    0   ≤   readerIndex_   ≤   writerIndex_   ≤   size

The operations below move the indices, and the vector grows or its readable part
moves to the front when an append does not fit.  What the rest of the program
sees is a queue of bytes, and each operation is proved to act on that queue.
-/

namespace TcpMysql

/-- The bytes of a `std::string` or of a stretch of memory. -/
abbrev Bytes := List UInt8

/-- `std::copy` into the storage, starting at an index. -/
def overwrite (storage : Bytes) (index : Nat) (data : Bytes) : Bytes :=
  storage.take index ++ data ++ storage.drop (index + data.length)

/-- `std::vector::resize`. -/
def resize (storage : Bytes) (size : Nat) : Bytes :=
  storage.take size ++ List.replicate (size - storage.length) 0

theorem length_overwrite {storage data : Bytes} {index : Nat}
    (fits : index + data.length ≤ storage.length) :
    (overwrite storage index data).length = storage.length := by
  simp only [overwrite, List.length_append, List.length_take, List.length_drop]
  omega

@[simp]
theorem length_resize (storage : Bytes) (size : Nat) :
    (resize storage size).length = size := by
  simp only [resize, List.length_append, List.length_take, List.length_replicate]
  omega

theorem take_overwrite {storage data : Bytes} {index : Nat}
    (fits : index ≤ storage.length) :
    (overwrite storage index data).take (index + data.length) =
      storage.take index ++ data := by
  rw [overwrite]
  apply List.take_left'
  simp [Nat.min_eq_left fits]

theorem take_resize {storage : Bytes} {count size : Nat}
    (inStorage : count ≤ storage.length) (inSize : count ≤ size) :
    (resize storage size).take count = storage.take count := by
  rw [resize, List.take_append_of_le_length]
  · rw [List.take_take, Nat.min_eq_left inSize]
  · rw [List.length_take]
    exact Nat.le_min.mpr ⟨inSize, inStorage⟩

/-- `static const size_t kCheapPrepend`. -/
def kCheapPrepend : Nat := 8

/-- `static const size_t kInitialSize`. -/
def kInitialSize : Nat := 1024

/-- The vector with its two indices. -/
structure Buffer where
  buffer_ : Bytes
  readerIndex_ : Nat
  writerIndex_ : Nat
  cheap_le_reader : kCheapPrepend ≤ readerIndex_
  reader_le_writer : readerIndex_ ≤ writerIndex_
  writer_le_size : writerIndex_ ≤ buffer_.length

namespace Buffer

/-- A buffer as its constructor leaves it. -/
def new : Buffer where
  buffer_ := List.replicate (kCheapPrepend + kInitialSize) 0
  readerIndex_ := kCheapPrepend
  writerIndex_ := kCheapPrepend
  cheap_le_reader := Nat.le_refl _
  reader_le_writer := Nat.le_refl _
  writer_le_size := by simp

def readableBytes (buffer : Buffer) : Nat :=
  buffer.writerIndex_ - buffer.readerIndex_

def writableBytes (buffer : Buffer) : Nat :=
  buffer.buffer_.length - buffer.writerIndex_

def prependableBytes (buffer : Buffer) : Nat :=
  buffer.readerIndex_

/-- The readable bytes, that is `readableBytes()` bytes from `peek()` on. -/
def contents (buffer : Buffer) : Bytes :=
  (buffer.buffer_.take buffer.writerIndex_).drop buffer.readerIndex_

theorem length_contents (buffer : Buffer) :
    buffer.contents.length = buffer.readableBytes := by
  have bound := buffer.writer_le_size
  simp only [contents, readableBytes, List.length_drop, List.length_take]
  omega

theorem cheap_le_size (buffer : Buffer) :
    kCheapPrepend ≤ buffer.buffer_.length :=
  Nat.le_trans (Nat.le_trans buffer.cheap_le_reader buffer.reader_le_writer)
    buffer.writer_le_size

theorem moved_le_size (buffer : Buffer) :
    kCheapPrepend + buffer.readableBytes ≤ buffer.buffer_.length := by
  have cheap := buffer.cheap_le_reader
  have reader := buffer.reader_le_writer
  have writer := buffer.writer_le_size
  unfold readableBytes
  omega

def retrieveAll (buffer : Buffer) : Buffer where
  buffer_ := buffer.buffer_
  readerIndex_ := kCheapPrepend
  writerIndex_ := kCheapPrepend
  cheap_le_reader := Nat.le_refl _
  reader_le_writer := Nat.le_refl _
  writer_le_size := buffer.cheap_le_size

def retrieve (buffer : Buffer) (len : Nat) : Buffer :=
  if partially : len < buffer.readableBytes then
    { buffer_ := buffer.buffer_
      readerIndex_ := buffer.readerIndex_ + len
      writerIndex_ := buffer.writerIndex_
      cheap_le_reader := Nat.le_add_right_of_le buffer.cheap_le_reader
      reader_le_writer := by
        unfold readableBytes at partially
        omega
      writer_le_size := buffer.writer_le_size }
  else
    buffer.retrieveAll

def retrieveAsString (buffer : Buffer) (len : Nat) : Bytes × Buffer :=
  (buffer.contents.take len, buffer.retrieve len)

def retrieveAllAsString (buffer : Buffer) : Bytes × Buffer :=
  buffer.retrieveAsString buffer.readableBytes

/-- Make room for `len` more bytes: the vector grows, or the readable bytes move
to the front of it. -/
def makeSpace (buffer : Buffer) (len : Nat) : Buffer :=
  if buffer.writableBytes + buffer.prependableBytes < len + kCheapPrepend then
    { buffer_ := resize buffer.buffer_ (buffer.writerIndex_ + len)
      readerIndex_ := buffer.readerIndex_
      writerIndex_ := buffer.writerIndex_
      cheap_le_reader := buffer.cheap_le_reader
      reader_le_writer := buffer.reader_le_writer
      writer_le_size := by simp }
  else
    { buffer_ := overwrite buffer.buffer_ kCheapPrepend buffer.contents
      readerIndex_ := kCheapPrepend
      writerIndex_ := kCheapPrepend + buffer.readableBytes
      cheap_le_reader := Nat.le_refl _
      reader_le_writer := Nat.le_add_right _ _
      writer_le_size := by
        rw [length_overwrite]
        · exact buffer.moved_le_size
        · rw [length_contents]
          exact buffer.moved_le_size }

def ensureWritableBytes (buffer : Buffer) (len : Nat) : Buffer :=
  if buffer.writableBytes < len then buffer.makeSpace len else buffer

/-- `std::copy` to `beginWrite()` followed by `hasWritten`. -/
def write (buffer : Buffer) (data : Bytes)
    (fits : data.length ≤ buffer.writableBytes) : Buffer where
  buffer_ := overwrite buffer.buffer_ buffer.writerIndex_ data
  readerIndex_ := buffer.readerIndex_
  writerIndex_ := buffer.writerIndex_ + data.length
  cheap_le_reader := buffer.cheap_le_reader
  reader_le_writer := Nat.le_add_right_of_le buffer.reader_le_writer
  writer_le_size := by
    have bound := buffer.writer_le_size
    unfold writableBytes at fits
    rw [length_overwrite] <;> omega

theorem makeSpace_writable (buffer : Buffer) (len : Nat) :
    len ≤ (buffer.makeSpace len).writableBytes := by
  unfold makeSpace
  split
  · simp [writableBytes]
  · rename_i enough
    have writer := buffer.writer_le_size
    have reader := buffer.reader_le_writer
    have moved := buffer.moved_le_size
    unfold writableBytes prependableBytes at enough
    simp only [writableBytes]
    rw [length_overwrite (by rw [length_contents]; exact moved)]
    unfold readableBytes
    omega

/-- The assertion at the end of `ensureWritableBytes`. -/
theorem ensureWritableBytes_writable (buffer : Buffer) (len : Nat) :
    len ≤ (buffer.ensureWritableBytes len).writableBytes := by
  unfold ensureWritableBytes
  split
  · exact buffer.makeSpace_writable len
  · rename_i enough
    exact Nat.le_of_not_lt enough

def append (buffer : Buffer) (data : Bytes) : Buffer :=
  (buffer.ensureWritableBytes data.length).write data
    (buffer.ensureWritableBytes_writable data.length)

/-- `readFd` when `readv` delivers the given bytes: they go to the writable part
of the vector first, and the rest is appended from the stack buffer. -/
def readFd (buffer : Buffer) (chunk : Bytes) : Buffer :=
  if fits : chunk.length ≤ buffer.writableBytes then
    buffer.write chunk fits
  else
    (buffer.write (chunk.take buffer.writableBytes)
      (List.length_take_le _ _)).append (chunk.drop buffer.writableBytes)

@[simp]
theorem contents_new : new.contents = [] := by
  simp [contents, new]

@[simp]
theorem contents_retrieveAll (buffer : Buffer) :
    buffer.retrieveAll.contents = [] := by
  simp [contents, retrieveAll]

/-- Retrieving removes bytes from the front of the queue. -/
theorem contents_retrieve (buffer : Buffer) (len : Nat) :
    (buffer.retrieve len).contents = buffer.contents.drop len := by
  unfold retrieve
  split
  · simp [contents, List.drop_drop]
  · rename_i everything
    rw [contents_retrieveAll, List.drop_eq_nil_of_le]
    rw [length_contents]
    exact Nat.le_of_not_lt everything

theorem retrieveAllAsString_fst (buffer : Buffer) :
    buffer.retrieveAllAsString.1 = buffer.contents := by
  rw [retrieveAllAsString, retrieveAsString, ← length_contents, List.take_length]

@[simp]
theorem contents_retrieveAllAsString (buffer : Buffer) :
    buffer.retrieveAllAsString.2.contents = [] := by
  rw [retrieveAllAsString, retrieveAsString, contents_retrieve, ← length_contents,
    List.drop_length]

theorem contents_write (buffer : Buffer) (data : Bytes)
    (fits : data.length ≤ buffer.writableBytes) :
    (buffer.write data fits).contents = buffer.contents ++ data := by
  have readerLe : buffer.readerIndex_ ≤
      (buffer.buffer_.take buffer.writerIndex_).length := by
    rw [List.length_take, Nat.min_eq_left buffer.writer_le_size]
    exact buffer.reader_le_writer
  simp only [contents, write]
  rw [take_overwrite buffer.writer_le_size,
    List.drop_append_of_le_length readerLe]

theorem contents_makeSpace (buffer : Buffer) (len : Nat) :
    (buffer.makeSpace len).contents = buffer.contents := by
  unfold makeSpace
  split
  · simp only [contents]
    rw [take_resize buffer.writer_le_size (Nat.le_add_right _ _)]
  · change ((overwrite buffer.buffer_ kCheapPrepend buffer.contents).take
        (kCheapPrepend + buffer.readableBytes)).drop kCheapPrepend = buffer.contents
    rw [← length_contents, take_overwrite buffer.cheap_le_size]
    apply List.drop_left'
    rw [List.length_take, Nat.min_eq_left buffer.cheap_le_size]

theorem contents_append (buffer : Buffer) (data : Bytes) :
    (buffer.append data).contents = buffer.contents ++ data := by
  rw [append, contents_write]
  congr 1
  unfold ensureWritableBytes
  split
  · exact buffer.contents_makeSpace _
  · rfl

/-- Reading adds what `readv` delivered at the end of the queue, whether or not
the vector had room for it. -/
theorem contents_readFd (buffer : Buffer) (chunk : Bytes) :
    (buffer.readFd chunk).contents = buffer.contents ++ chunk := by
  unfold readFd
  split
  · exact contents_write _ _ _
  · rw [contents_append, contents_write, List.append_assoc, List.take_append_drop]

end Buffer

end TcpMysql
