import LightningServer.Net.Bytes

/-!
# The application-level byte buffer

`Buffer` keeps one block of storage and two indices.  The readable bytes lie
between the indices, the bytes before `readIndex` are already consumed and the
bytes from `writeIndex` on are free.

The index order is a field of the structure, so an operation can only be
written down together with the reason why it keeps that order.  Lengths are
natural numbers, as the program only asks for the sizes of objects in memory;
`LightningServer.Net.MachineBuffer` has the class with its `size_t` members.
-/

namespace LightningServer.Net

/-- `class Buffer`, with its three members. -/
structure Buffer where
  /-- `buffer_` -/
  storage : Bytes
  /-- `readIndex_` -/
  readIndex : Nat
  /-- `writeIndex_` -/
  writeIndex : Nat
  read_le_write : readIndex ≤ writeIndex
  write_le_size : writeIndex ≤ storage.length

namespace Buffer

def kInitialSize : Nat := 1024

def kMaxSize : Nat := 64 * 1024 * 1024

/-- The constructor. -/
def empty : Buffer where
  storage := List.replicate kInitialSize 0
  readIndex := 0
  writeIndex := 0
  read_le_write := Nat.le_refl 0
  write_le_size := Nat.zero_le _

def readableBytes (buf : Buffer) : Nat :=
  buf.writeIndex - buf.readIndex

def writableBytes (buf : Buffer) : Nat :=
  buf.storage.length - buf.writeIndex

def prependableBytes (buf : Buffer) : Nat :=
  buf.readIndex

/-- The bytes from `peek()` to `peek() + readableBytes()`. -/
def readable (buf : Buffer) : Bytes :=
  (buf.storage.drop buf.readIndex).take buf.readableBytes

def retrieveAll (buf : Buffer) : Buffer where
  storage := buf.storage
  readIndex := 0
  writeIndex := 0
  read_le_write := Nat.le_refl 0
  write_le_size := Nat.zero_le _

def retrieve (buf : Buffer) (len : Nat) : Buffer :=
  if within : len < buf.readableBytes then
    { buf with
      readIndex := buf.readIndex + len
      read_le_write := by
        have := buf.read_le_write
        unfold readableBytes at within
        omega }
  else
    buf.retrieveAll

/-- The string of `len` bytes from `peek()`, which are then retrieved. -/
def retrieveAsString (buf : Buffer) (len : Nat) : Bytes × Buffer :=
  ((buf.storage.drop buf.readIndex).take len, buf.retrieve len)

def retrieveAllAsString (buf : Buffer) : Bytes × Buffer :=
  buf.retrieveAsString buf.readableBytes

/-- `std::vector::resize`: new elements are zero. -/
def resize (storage : Bytes) (size : Nat) : Bytes :=
  storage.take size ++ List.replicate (size - storage.length) 0

@[simp]
theorem length_resize (storage : Bytes) (size : Nat) :
    (resize storage size).length = size := by
  simp only [resize, List.length_append, List.length_take,
    List.length_replicate]
  omega

theorem length_readable (buf : Buffer) :
    buf.readable.length = buf.readableBytes := by
  have := buf.read_le_write
  have := buf.write_le_size
  simp only [readable, readableBytes, List.length_take, List.length_drop]
  omega

def makeSpace (buf : Buffer) (len : Nat) : Buffer :=
  if buf.writableBytes + buf.prependableBytes < len then
    { buf with
      storage := resize buf.storage (buf.writeIndex + len)
      write_le_size := by simp }
  else
    { storage := buf.readable ++ buf.storage.drop buf.readableBytes
      readIndex := 0
      writeIndex := buf.readableBytes
      read_le_write := Nat.zero_le _
      write_le_size := by simp [length_readable] }

def ensureWritableBytes (buf : Buffer) (len : Nat) : Buffer :=
  if buf.writableBytes < len then buf.makeSpace len else buf

/-- `memcpy(beginWrite(), data, len)`. -/
def copyToWrite (buf : Buffer) (data : Bytes)
    (_fits : data.length ≤ buf.writableBytes) : Buffer :=
  { buf with
    storage :=
      buf.storage.take buf.writeIndex ++ data ++
        buf.storage.drop (buf.writeIndex + data.length)
    write_le_size := by
      have := buf.write_le_size
      simp only [List.length_append, List.length_take]
      omega }

def hasWritten (buf : Buffer) (len : Nat)
    (fits : len ≤ buf.writableBytes) : Buffer :=
  { buf with
    writeIndex := buf.writeIndex + len
    read_le_write := Nat.le_trans buf.read_le_write (Nat.le_add_right _ _)
    write_le_size := by
      have := buf.write_le_size
      unfold writableBytes at fits
      omega }

theorem length_makeSpace_storage (buf : Buffer) (len : Nat) :
    (buf.makeSpace len).storage.length =
      if buf.writableBytes + buf.prependableBytes < len then
        buf.writeIndex + len
      else buf.storage.length := by
  unfold makeSpace
  split
  · simp
  · have := buf.read_le_write
    have := buf.write_le_size
    simp only [List.length_append, length_readable, List.length_drop,
      readableBytes]
    omega

/-- `ensureWritableBytes` does what its name says. -/
theorem le_writableBytes_ensureWritableBytes (buf : Buffer) (len : Nat) :
    len ≤ (buf.ensureWritableBytes len).writableBytes := by
  unfold ensureWritableBytes
  split
  · rw [writableBytes, length_makeSpace_storage]
    have := buf.read_le_write
    have := buf.write_le_size
    split
    · next grown => simp [makeSpace, grown]
    · next kept =>
        simp only [makeSpace, kept, if_false]
        simp only [writableBytes, prependableBytes, readableBytes] at *
        omega
  · omega

@[simp]
theorem length_copyToWrite_storage (buf : Buffer) (data : Bytes)
    (fits : data.length ≤ buf.writableBytes) :
    (buf.copyToWrite data fits).storage.length = buf.storage.length := by
  have := buf.write_le_size
  simp only [writableBytes] at fits
  simp only [copyToWrite, List.length_append, List.length_take,
    List.length_drop]
  omega

@[simp]
theorem writableBytes_copyToWrite (buf : Buffer) (data : Bytes)
    (fits : data.length ≤ buf.writableBytes) :
    (buf.copyToWrite data fits).writableBytes = buf.writableBytes := by
  rw [writableBytes, length_copyToWrite_storage]
  rfl

def append (buf : Buffer) (data : Bytes) : Buffer :=
  let roomy := buf.ensureWritableBytes data.length
  let fits := le_writableBytes_ensureWritableBytes buf data.length
  (roomy.copyToWrite data fits).hasWritten data.length
    (by simpa using fits)

/-! ## What the operations do to the readable bytes -/

@[simp]
theorem readable_empty : empty.readable = [] :=
  rfl

@[simp]
theorem readable_retrieveAll (buf : Buffer) :
    buf.retrieveAll.readable = [] := by
  simp [readable, readableBytes, retrieveAll]

@[simp]
theorem readable_retrieve (buf : Buffer) (len : Nat) :
    (buf.retrieve len).readable = buf.readable.drop len := by
  unfold retrieve
  split
  · next within =>
      simp only [readable, readableBytes, List.drop_take, List.drop_drop]
      congr 1
      omega
  · next beyond =>
      rw [readable_retrieveAll, List.drop_eq_nil_of_le]
      rw [length_readable]
      omega

theorem retrieveAsString_fst (buf : Buffer) {len : Nat}
    (within : len ≤ buf.readableBytes) :
    (buf.retrieveAsString len).1 = buf.readable.take len := by
  simp [retrieveAsString, readable, List.take_take, within]

@[simp]
theorem readable_retrieveAsString (buf : Buffer) (len : Nat) :
    (buf.retrieveAsString len).2.readable = buf.readable.drop len :=
  readable_retrieve buf len

@[simp]
theorem readable_makeSpace (buf : Buffer) (len : Nat) :
    (buf.makeSpace len).readable = buf.readable := by
  have ordered := buf.read_le_write
  have bounded := buf.write_le_size
  unfold makeSpace
  split
  · next grows =>
      -- the growth branch keeps both indices, so only storage past them moves
      simp only [writableBytes, prependableBytes] at grows
      have keep : buf.storage.take (buf.writeIndex + len) = buf.storage :=
        List.take_of_length_le (by omega)
      simp only [readable, readableBytes, resize, keep]
      rw [List.drop_append_of_le_length (by omega),
        List.take_append_of_le_length (by simp; omega)]
  · have length := buf.length_readable
    simp only [readable, readableBytes] at length ⊢
    rw [List.drop_zero, Nat.sub_zero,
      List.take_append_of_le_length (by omega),
      List.take_of_length_le (by omega)]

@[simp]
theorem readable_ensureWritableBytes (buf : Buffer) (len : Nat) :
    (buf.ensureWritableBytes len).readable = buf.readable := by
  unfold ensureWritableBytes
  split
  · exact readable_makeSpace buf len
  · rfl

/-- Bytes stored at the write position become readable at the end. -/
theorem readable_hasWritten_copyToWrite (buf : Buffer) (data : Bytes)
    (fits : data.length ≤ buf.writableBytes)
    (announced :
      data.length ≤ (buf.copyToWrite data fits).writableBytes) :
    ((buf.copyToWrite data fits).hasWritten data.length
        announced).readable =
      buf.readable ++ data := by
  have ordered := buf.read_le_write
  have bounded := buf.write_le_size
  have front :
      ((buf.storage.take buf.writeIndex).drop buf.readIndex).length =
        buf.writeIndex - buf.readIndex := by
    simp only [List.length_drop, List.length_take]
    omega
  simp only [readable, readableBytes, hasWritten, copyToWrite,
    List.append_assoc]
  rw [List.drop_append_of_le_length
      (by simp only [List.length_take]; omega),
    ← List.drop_take, ← List.append_assoc, List.take_append_of_le_length
      (by simp only [List.length_append, front]; omega),
    List.take_of_length_le
      (by simp only [List.length_append, front]; omega)]

@[simp]
theorem readable_append (buf : Buffer) (data : Bytes) :
    (buf.append data).readable = buf.readable ++ data := by
  simp only [append, readable_hasWritten_copyToWrite,
    readable_ensureWritableBytes]

/-! ## What the operations do to the storage -/

@[simp]
theorem storage_retrieve (buf : Buffer) (len : Nat) :
    (buf.retrieve len).storage = buf.storage := by
  rw [retrieve]
  split
  · rfl
  · rfl

/-- Only a request that does not fit grows the storage. -/
theorem length_ensureWritableBytes_storage (buf : Buffer) (len : Nat) :
    (buf.ensureWritableBytes len).storage.length =
      if buf.writableBytes + buf.prependableBytes < len then
        buf.writeIndex + len
      else buf.storage.length := by
  rw [ensureWritableBytes]
  by_cases narrow : buf.writableBytes < len
  · rw [if_pos narrow, length_makeSpace_storage]
  · rw [if_neg narrow, if_neg (by omega)]

theorem length_append_storage (buf : Buffer) (data : Bytes) :
    (buf.append data).storage.length =
      (buf.ensureWritableBytes data.length).storage.length :=
  length_copyToWrite_storage (buf.ensureWritableBytes data.length) data
    (le_writableBytes_ensureWritableBytes buf data.length)

/--
What lies in front of the readable bytes when the storage grows is shorter
than the request, so the new size is less than the readable bytes and two
requests.
-/
theorem length_ensureWritableBytes_storage_le (buf : Buffer) (len : Nat) :
    (buf.ensureWritableBytes len).storage.length ≤
      max buf.storage.length (buf.readableBytes + 2 * len) := by
  have ordered := buf.read_le_write
  have bounded := buf.write_le_size
  rw [length_ensureWritableBytes_storage]
  by_cases grows : buf.writableBytes + buf.prependableBytes < len
  · have front : buf.readIndex < len := by
      rw [prependableBytes] at grows
      omega
    rw [if_pos grows, readableBytes]
    omega
  · rw [if_neg grows]
    exact le_max_left _ _

theorem writeIndex_retrieve_le (buf : Buffer) (len : Nat) :
    (buf.retrieve len).writeIndex ≤ buf.writeIndex := by
  rw [retrieve]
  split
  · exact Nat.le_refl _
  · exact Nat.zero_le _

/-- Moving the readable bytes to the front only lowers the write index. -/
theorem writeIndex_append_le (buf : Buffer) (data : Bytes) :
    (buf.append data).writeIndex ≤ buf.writeIndex + data.length := by
  have lowered :
      (buf.ensureWritableBytes data.length).writeIndex ≤
        buf.writeIndex := by
    rw [ensureWritableBytes]
    split
    · rw [makeSpace]
      split
      · exact Nat.le_refl _
      · exact Nat.sub_le _ _
    · exact Nat.le_refl _
  exact Nat.add_le_add_right lowered data.length

/-- The storage never shrinks. -/
theorem length_le_length_ensureWritableBytes_storage
    (buf : Buffer) (len : Nat) :
    buf.storage.length ≤
      (buf.ensureWritableBytes len).storage.length := by
  have bounded := buf.write_le_size
  rw [length_ensureWritableBytes_storage]
  by_cases grows : buf.writableBytes + buf.prependableBytes < len
  · rw [if_pos grows]
    rw [writableBytes] at grows
    omega
  · rw [if_neg grows]

end Buffer

end LightningServer.Net
