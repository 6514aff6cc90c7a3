import LightningServer.Foundation.Numerals
import LightningServer.Foundation.Transition
import LightningServer.Net.Buffer

/-!
# The buffer as a byte queue

`MachineBuffer` is `class Buffer` with its `size_t` members as they are: sums
wrap, and `resize` throws when the allocator does not grant the size.  While
no sum wraps it is represented by a `Buffer`, and the readable bytes are a
FIFO queue under any sequence of operations.

`makeSpace` adds the requested length to the write index without looking at
`kMaxSize` or at the range of `size_t`.  A request that wraps shrinks the
storage under the write index, so the queue property holds along a run
exactly when no request does.
-/

namespace LightningServer.Net

open LightningServer.Foundation
open LightningServer.Foundation.Numerals

/-! ## Translation of the source -/

structure MachineBuffer where
  /-- `buffer_` -/
  storage : Bytes
  /-- `readIndex_` -/
  readIndex : UInt64
  /-- `writeIndex_` -/
  writeIndex : UInt64
deriving DecidableEq

namespace MachineBuffer

/-- The constructor. -/
def empty : MachineBuffer where
  storage := List.replicate Buffer.kInitialSize 0
  readIndex := 0
  writeIndex := 0

/-- `buffer_.size()`. -/
def size (raw : MachineBuffer) : UInt64 :=
  UInt64.ofNat raw.storage.length

def readableBytes (raw : MachineBuffer) : UInt64 :=
  raw.writeIndex - raw.readIndex

def writableBytes (raw : MachineBuffer) : UInt64 :=
  raw.size - raw.writeIndex

def prependableBytes (raw : MachineBuffer) : UInt64 :=
  raw.readIndex

/-- The bytes from `peek()` to `peek() + len`. -/
def peek (raw : MachineBuffer) (len : UInt64) : Bytes :=
  (raw.storage.drop raw.readIndex.toNat).take len.toNat

def retrieveAll (raw : MachineBuffer) : MachineBuffer :=
  { raw with readIndex := 0, writeIndex := 0 }

def retrieve (raw : MachineBuffer) (len : UInt64) : MachineBuffer :=
  if len < raw.readableBytes then
    { raw with readIndex := raw.readIndex + len }
  else raw.retrieveAll

def retrieveAsString (raw : MachineBuffer) (len : UInt64) :
    Bytes × MachineBuffer :=
  (raw.peek len, raw.retrieve len)

def retrieveAllAsString (raw : MachineBuffer) : Bytes × MachineBuffer :=
  raw.retrieveAsString raw.readableBytes

/-- `memcpy(beginWrite(), data, len)`, which does not write past the end. -/
def copyToWrite (raw : MachineBuffer) (data : Bytes) : MachineBuffer :=
  { raw with
    storage :=
      raw.storage.take raw.writeIndex.toNat ++ data ++
        raw.storage.drop (raw.writeIndex.toNat + data.length) }

def hasWritten (raw : MachineBuffer) (len : UInt64) : MachineBuffer :=
  { raw with writeIndex := raw.writeIndex + len }

section Allocation

-- the largest size that the allocator grants
variable (limit : Nat)

/-- `buffer_.resize(size)`, which changes nothing when it throws. -/
def resize (raw : MachineBuffer) (size : UInt64) :
    Except StdException MachineBuffer :=
  -- only a growth asks the allocator
  if raw.storage.length < size.toNat ∧ limit < size.toNat then
    .error (.other "length_error".toList)
  else .ok { raw with storage := Buffer.resize raw.storage size.toNat }

def makeSpace (raw : MachineBuffer) (len : UInt64) :
    Except StdException MachineBuffer :=
  if raw.writableBytes + raw.prependableBytes < len then
    raw.resize limit (raw.writeIndex + len)
  else
    .ok
      { storage :=
          raw.peek raw.readableBytes ++
            raw.storage.drop raw.readableBytes.toNat
        readIndex := 0
        writeIndex := raw.readableBytes }

def ensureWritableBytes (raw : MachineBuffer) (len : UInt64) :
    Except StdException MachineBuffer :=
  if raw.writableBytes < len then raw.makeSpace limit len else .ok raw

def append (raw : MachineBuffer) (data : Bytes) :
    Except StdException MachineBuffer := do
  let len := UInt64.ofNat data.length
  let roomy ← raw.ensureWritableBytes limit len
  pure ((roomy.copyToWrite data).hasWritten len)

end Allocation

end MachineBuffer

/-! ## Operations -/

inductive BufferOp where
  | append (data : Bytes)
  | retrieve (len : UInt64)
  | retrieveAll
  | retrieveAsString (len : UInt64)
  | retrieveAllAsString
  | ensureWritableBytes (len : UInt64)
  /-- bytes that are written at `beginWrite()`, then `hasWritten` -/
  | write (data : Bytes)
deriving DecidableEq

/-- What an operation returns, and the buffer after it. -/
def MachineBuffer.operate (limit : Nat) (raw : MachineBuffer) :
    BufferOp → Except StdException (Option Bytes × MachineBuffer)
  | .append data => do
      let later ← raw.append limit data
      pure (none, later)
  | .retrieve len => .ok (none, raw.retrieve len)
  | .retrieveAll => .ok (none, raw.retrieveAll)
  | .retrieveAsString len =>
      .ok (some (raw.retrieveAsString len).1, (raw.retrieveAsString len).2)
  | .retrieveAllAsString =>
      .ok (some raw.retrieveAllAsString.1, raw.retrieveAllAsString.2)
  | .ensureWritableBytes len => do
      let later ← raw.ensureWritableBytes limit len
      pure (none, later)
  | .write data =>
      .ok (none,
        (raw.copyToWrite data).hasWritten (UInt64.ofNat data.length))

/-- The same on the buffer whose lengths are natural numbers. -/
def Buffer.operate (buf : Buffer) : BufferOp → Option Bytes × Buffer
  | .append data => (none, buf.append data)
  | .retrieve len => (none, buf.retrieve len.toNat)
  | .retrieveAll => (none, buf.retrieveAll)
  | .retrieveAsString len =>
      (some (buf.retrieveAsString len.toNat).1,
        (buf.retrieveAsString len.toNat).2)
  | .retrieveAllAsString =>
      (some buf.retrieveAllAsString.1, buf.retrieveAllAsString.2)
  | .ensureWritableBytes len => (none, buf.ensureWritableBytes len.toNat)
  | .write data =>
      -- past the end nothing may be written
      if fits : data.length ≤ buf.writableBytes then
        (none, (buf.copyToWrite data fits).hasWritten data.length
          (by simpa using fits))
      else (none, buf)

namespace ByteQueue

/-- The operations on a queue of bytes. -/
def operate (queue : Bytes) : BufferOp → Option Bytes × Bytes
  | .append data => (none, queue ++ data)
  | .retrieve len => (none, queue.drop len.toNat)
  | .retrieveAll => (none, [])
  | .retrieveAsString len =>
      (some (queue.take len.toNat), queue.drop len.toNat)
  | .retrieveAllAsString => (some queue, [])
  | .ensureWritableBytes _ => (none, queue)
  | .write data => (none, queue ++ data)

end ByteQueue

/-! ## Representation by a buffer without overflow -/

/-- The length of an object as `size_t`. -/
theorem toNat_length {length : Nat} (small : length < 2 ^ 63) :
    (UInt64.ofNat length).toNat = length := by
  apply UInt64.toNat_ofNat_of_lt'
  show length < 2 ^ 64
  omega

/-- The same storage, and the same indices as numbers. -/
structure Represents (buf : Buffer) (raw : MachineBuffer) : Prop where
  storage : raw.storage = buf.storage
  readIndex : raw.readIndex.toNat = buf.readIndex
  writeIndex : raw.writeIndex.toNat = buf.writeIndex
  /-- no object is larger -/
  small : buf.storage.length < 2 ^ 63

namespace Represents

variable {buf : Buffer} {raw : MachineBuffer}

theorem size (same : Represents buf raw) :
    raw.size.toNat = buf.storage.length := by
  rw [MachineBuffer.size, same.storage]
  exact toNat_length same.small

theorem readableBytes (same : Represents buf raw) :
    raw.readableBytes.toNat = buf.readableBytes := by
  have ordered : raw.readIndex ≤ raw.writeIndex := by
    rw [UInt64.le_iff_toNat_le, same.readIndex, same.writeIndex]
    exact buf.read_le_write
  rw [MachineBuffer.readableBytes, UInt64.toNat_sub_of_le _ _ ordered,
    same.readIndex, same.writeIndex, Buffer.readableBytes]

theorem writableBytes (same : Represents buf raw) :
    raw.writableBytes.toNat = buf.writableBytes := by
  have bounded : raw.writeIndex ≤ raw.size := by
    rw [UInt64.le_iff_toNat_le, same.size, same.writeIndex]
    exact buf.write_le_size
  rw [MachineBuffer.writableBytes, UInt64.toNat_sub_of_le _ _ bounded,
    same.size, same.writeIndex, Buffer.writableBytes]

theorem peek (same : Represents buf raw) (len : UInt64) :
    raw.peek len = (buf.storage.drop buf.readIndex).take len.toNat := by
  rw [MachineBuffer.peek, same.storage, same.readIndex]

theorem peek_readableBytes (same : Represents buf raw) :
    raw.peek raw.readableBytes = buf.readable := by
  rw [same.peek, same.readableBytes, Buffer.readable]

/-- The free bytes, before and behind the readable ones. -/
theorem free (same : Represents buf raw) :
    (raw.writableBytes + raw.prependableBytes).toNat =
      buf.writableBytes + buf.prependableBytes := by
  have ordered := buf.read_le_write
  have bounded := buf.write_le_size
  have small := same.small
  rw [UInt64.toNat_add, same.writableBytes, MachineBuffer.prependableBytes,
    same.readIndex, Buffer.prependableBytes, Nat.mod_eq_of_lt]
  rw [Buffer.writableBytes]
  omega

theorem empty : Represents Buffer.empty MachineBuffer.empty where
  storage := rfl
  readIndex := rfl
  writeIndex := rfl
  small := by
    rw [Buffer.empty, List.length_replicate]
    decide

theorem retrieveAll (same : Represents buf raw) :
    Represents buf.retrieveAll raw.retrieveAll where
  storage := same.storage
  readIndex := rfl
  writeIndex := rfl
  small := same.small

theorem retrieve (same : Represents buf raw) (len : UInt64) :
    Represents (buf.retrieve len.toNat) (raw.retrieve len) := by
  have less :
      len < raw.readableBytes ↔ len.toNat < buf.readableBytes := by
    rw [UInt64.lt_iff_toNat_lt, same.readableBytes]
  rw [MachineBuffer.retrieve, Buffer.retrieve]
  by_cases within : len.toNat < buf.readableBytes
  · rw [if_pos (less.mpr within), dif_pos within]
    have bounded := buf.write_le_size
    have small := same.small
    constructor
    · exact same.storage
    · show (raw.readIndex + len).toNat = buf.readIndex + len.toNat
      rw [Buffer.readableBytes] at within
      rw [UInt64.toNat_add, same.readIndex, Nat.mod_eq_of_lt]
      omega
    · exact same.writeIndex
    · exact small
  · rw [if_neg (fun other => within (less.mp other)), dif_neg within]
    exact same.retrieveAll

/-- Bytes at the write position, and the index moved behind them. -/
theorem write
    (same : Represents buf raw) {data : Bytes}
    (fits : data.length ≤ buf.writableBytes) :
    Represents
      ((buf.copyToWrite data fits).hasWritten data.length
        (by simpa using fits))
      ((raw.copyToWrite data).hasWritten (UInt64.ofNat data.length)) := by
  have bounded := buf.write_le_size
  have small := same.small
  have room := fits
  rw [Buffer.writableBytes] at room
  have len : (UInt64.ofNat data.length).toNat = data.length :=
    toNat_length (by omega)
  constructor
  · show raw.storage.take raw.writeIndex.toNat ++ data ++
        raw.storage.drop (raw.writeIndex.toNat + data.length) = _
    rw [same.storage, same.writeIndex]
    rfl
  · exact same.readIndex
  · show (raw.writeIndex + UInt64.ofNat data.length).toNat =
      buf.writeIndex + data.length
    rw [UInt64.toNat_add, same.writeIndex, len, Nat.mod_eq_of_lt]
    omega
  · simp only [Buffer.hasWritten, Buffer.copyToWrite, List.length_append,
      List.length_take, List.length_drop]
    omega

theorem resize
    (same : Represents buf raw) {size : UInt64} {limit : Nat}
    (granted : size.toNat ≤ buf.storage.length ∨ size.toNat ≤ limit) :
    raw.resize limit size =
      .ok { raw with storage := Buffer.resize buf.storage size.toNat } := by
  rw [MachineBuffer.resize, same.storage, if_neg (by omega)]

end Represents

/-! ## Requests for space -/

/-- The request fits the free bytes, or its sum with the index a `size_t`. -/
def RequestFits (raw : MachineBuffer) (len : UInt64) : Prop :=
  len ≤ raw.writableBytes + raw.prependableBytes ∨
    raw.writeIndex.toNat + len.toNat < 2 ^ 64

instance (raw : MachineBuffer) (len : UInt64) :
    Decidable (RequestFits raw len) :=
  inferInstanceAs (Decidable (_ ∨ _))

/--
There is room for so many bytes in the storage, around the readable ones, or
in the largest storage that the allocator grants.
-/
def SpaceGranted (limit : Nat) (raw : MachineBuffer) (len : Nat) : Prop :=
  len ≤
      raw.storage.length - raw.writeIndex.toNat + raw.readIndex.toNat ∨
    raw.writeIndex.toNat + len ≤ limit

section Requests

variable {limit : Nat} {buf : Buffer} {raw : MachineBuffer}

theorem Represents.spaceGranted_iff
    (same : Represents buf raw) (len : Nat) :
    SpaceGranted limit raw len ↔
      len ≤ buf.writableBytes + buf.prependableBytes ∨
        buf.writeIndex + len ≤ limit := by
  rw [SpaceGranted, same.storage, same.writeIndex, same.readIndex]
  rfl

/--
A request that does not wrap does what `Buffer` does, and it throws only if
the allocator refuses.
-/
theorem Represents.ensureWritableBytes
    (same : Represents buf raw) (limitFits : limit < 2 ^ 63)
    {len : UInt64} (fits : RequestFits raw len) :
    (∃ exception,
        raw.ensureWritableBytes limit len = .error exception ∧
          ¬ SpaceGranted limit raw len.toNat) ∨
      ∃ later, raw.ensureWritableBytes limit len = .ok later ∧
        Represents (buf.ensureWritableBytes len.toNat) later := by
  have ordered := buf.read_le_write
  have bounded := buf.write_le_size
  rw [MachineBuffer.ensureWritableBytes, Buffer.ensureWritableBytes]
  simp only [UInt64.lt_iff_toNat_lt, same.writableBytes]
  by_cases enough : buf.writableBytes < len.toNat
  swap
  · rw [if_neg enough, if_neg enough]
    exact Or.inr ⟨raw, rfl, same⟩
  rw [if_pos enough, if_pos enough, MachineBuffer.makeSpace,
    Buffer.makeSpace]
  simp only [UInt64.lt_iff_toNat_lt, same.free]
  by_cases grows :
      buf.writableBytes + buf.prependableBytes < len.toNat
  · rw [if_pos grows, if_pos grows]
    have sum :
        (raw.writeIndex + len).toNat = buf.writeIndex + len.toNat := by
      rw [UInt64.toNat_add, same.writeIndex, Nat.mod_eq_of_lt]
      rcases fits with free | sum
      · rw [UInt64.le_iff_toNat_le, same.free] at free
        omega
      · rw [← same.writeIndex]
        exact sum
    by_cases granted : (raw.writeIndex + len).toNat ≤ limit
    · right
      refine ⟨_, same.resize (Or.inr granted), ?_⟩
      rw [sum]
      constructor
      · rfl
      · exact same.readIndex
      · exact same.writeIndex
      · rw [Buffer.length_resize]
        omega
    · left
      have refused :
          raw.storage.length < (raw.writeIndex + len).toNat ∧
            limit < (raw.writeIndex + len).toNat := by
        rw [Buffer.writableBytes] at enough
        rw [same.storage]
        omega
      refine ⟨_, if_pos refused, ?_⟩
      rw [same.spaceGranted_iff, not_or]
      omega
  · right
    rw [if_neg grows, if_neg grows]
    refine ⟨_, rfl, ?_⟩
    constructor
    · rw [same.peek_readableBytes, same.readableBytes, same.storage]
    · rfl
    · exact same.readableBytes
    · have small := same.small
      simp only [List.length_append, Buffer.length_readable,
        List.length_drop, Buffer.readableBytes]
      omega

/-- A request that wraps shrinks the storage under the write index. -/
theorem Represents.ensureWritableBytes_wraps
    (same : Represents buf raw) (limit : Nat) {len : UInt64}
    (wraps : ¬ RequestFits raw len) :
    ∃ later, raw.ensureWritableBytes limit len = .ok later ∧
      later.writeIndex = raw.writeIndex ∧
        later.storage.length < raw.writeIndex.toNat := by
  have bounded := buf.write_le_size
  have small := same.small
  have range := len.toNat_lt
  rw [RequestFits, not_or, UInt64.le_iff_toNat_le, same.free,
    same.writeIndex] at wraps
  rcases wraps with ⟨tooLong, beyond⟩
  have enough : buf.writableBytes < len.toNat := by omega
  have sum :
      (raw.writeIndex + len).toNat =
        buf.writeIndex + len.toNat - 2 ^ 64 := by
    rw [UInt64.toNat_add, same.writeIndex]
    omega
  have shrinks :
      (raw.writeIndex + len).toNat ≤ buf.storage.length := by
    omega
  refine ⟨{ raw with
      storage := Buffer.resize buf.storage (raw.writeIndex + len).toNat },
    ?_, rfl, ?_⟩
  · rw [MachineBuffer.ensureWritableBytes, if_pos
      (by rw [UInt64.lt_iff_toNat_lt, same.writableBytes]; exact enough),
      MachineBuffer.makeSpace, if_pos
      (by rw [UInt64.lt_iff_toNat_lt, same.free]; omega)]
    exact same.resize (Or.inl shrinks)
  · show (Buffer.resize _ _).length < raw.writeIndex.toNat
    rw [Buffer.length_resize, sum, same.writeIndex]
    omega

/-- An append does what `Buffer` does, or the allocator refuses. -/
theorem Represents.append
    (same : Represents buf raw) (limitFits : limit < 2 ^ 63)
    {data : Bytes} (isObject : data.length < 2 ^ 63) :
    (∃ exception, raw.append limit data = .error exception ∧
        ¬ SpaceGranted limit raw data.length) ∨
      ∃ later, raw.append limit data = .ok later ∧
        Represents (buf.append data) later := by
  have bounded := buf.write_le_size
  have small := same.small
  have len := toNat_length isObject
  have fits : RequestFits raw (UInt64.ofNat data.length) := by
    right
    rw [same.writeIndex, len]
    omega
  rw [MachineBuffer.append]
  rcases same.ensureWritableBytes limitFits fits with
    ⟨exception, throws, refused⟩ | ⟨roomy, returns, sameRoomy⟩
  · left
    rw [throws]
    rw [len] at refused
    exact ⟨exception, rfl, refused⟩
  · right
    rw [returns]
    rw [len] at sameRoomy
    exact ⟨_, rfl, sameRoomy.write
      (buf.le_writableBytes_ensureWritableBytes data.length)⟩

end Requests

/-! ## Runs -/

/-- A buffer, and the queue that it should be. -/
structure Paired where
  raw : MachineBuffer
  queue : Bytes

/-- What callers of an operation keep to. -/
def Allowed (state : Paired) : BufferOp → Prop
  | .append data => data.length < 2 ^ 63
  | .retrieveAsString len => len ≤ state.raw.readableBytes
  | .write data => data.length ≤ state.raw.writableBytes.toNat
  | _ => True

instance (state : Paired) :
    (op : BufferOp) → Decidable (Allowed state op)
  | .append _ => inferInstanceAs (Decidable (_ < _))
  | .retrieveAsString _ => inferInstanceAs (Decidable (_ ≤ _))
  | .write _ => inferInstanceAs (Decidable (_ ≤ _))
  | .retrieve _ => .isTrue trivial
  | .retrieveAll => .isTrue trivial
  | .retrieveAllAsString => .isTrue trivial
  | .ensureWritableBytes _ => .isTrue trivial

/-- The sum of a request does not wrap. -/
def NoWrap (state : Paired) : BufferOp → Prop
  | .ensureWritableBytes len => RequestFits state.raw len
  | _ => True

instance (state : Paired) :
    (op : BufferOp) → Decidable (NoWrap state op)
  | .ensureWritableBytes len =>
      inferInstanceAs (Decidable (RequestFits state.raw len))
  | .append _ => .isTrue trivial
  | .retrieve _ => .isTrue trivial
  | .retrieveAll => .isTrue trivial
  | .retrieveAsString _ => .isTrue trivial
  | .retrieveAllAsString => .isTrue trivial
  | .write _ => .isTrue trivial

/-- The indices are in order, and the readable bytes are the queue. -/
structure IsQueue (raw : MachineBuffer) (queue : Bytes) : Prop where
  ordered : raw.readIndex ≤ raw.writeIndex
  bounded : raw.writeIndex.toNat ≤ raw.storage.length
  readable : raw.peek raw.readableBytes = queue

section Runs

variable (limit : Nat)

/-- An operation that throws has no effect on either. -/
def Paired.step (state : Paired) (op : BufferOp) : Paired :=
  match state.raw.operate limit op with
  | .ok (_, later) =>
      { raw := later, queue := (ByteQueue.operate state.queue op).2 }
  | .error _ => state

/-- The allocator grants what an operation asks for, if it asks at all. -/
def Granted (raw : MachineBuffer) : BufferOp → Prop
  | .append data => SpaceGranted limit raw data.length
  | .ensureWritableBytes len => SpaceGranted limit raw len.toNat
  | _ => True

/--
The operation returns unless the allocator refuses, and if it returns, it has
done what the queue does.
-/
structure OperatesAsQueue (state : Paired) (op : BufferOp) : Prop where
  returns :
    Granted limit state.raw op →
      ∃ returned later,
        state.raw.operate limit op = .ok (returned, later)
  queues :
    ∀ returned later,
      state.raw.operate limit op = .ok (returned, later) →
        returned = (ByteQueue.operate state.queue op).1 ∧
          IsQueue later (ByteQueue.operate state.queue op).2 ∧
          ∀ len, op = .ensureWritableBytes len → len ≤ later.writableBytes

end Runs

/-- The buffer is represented, and holds the queue. -/
def Paired.Sound (state : Paired) : Prop :=
  ∃ buf, Represents buf state.raw ∧ buf.readable = state.queue

theorem Represents.isQueue
    {buf : Buffer} {raw : MachineBuffer} (same : Represents buf raw) :
    IsQueue raw buf.readable where
  ordered := by
    rw [UInt64.le_iff_toNat_le, same.readIndex, same.writeIndex]
    exact buf.read_le_write
  bounded := by
    rw [same.storage, same.writeIndex]
    exact buf.write_le_size
  readable := same.peek_readableBytes

/-- How an operation ends that has returned. -/
structure Returns (op : BufferOp) (queue : Bytes)
    (returned : Option Bytes) (later : MachineBuffer) : Prop where
  string : returned = (ByteQueue.operate queue op).1
  sound : Paired.Sound ⟨later, (ByteQueue.operate queue op).2⟩
  writable :
    ∀ len, op = .ensureWritableBytes len → len ≤ later.writableBytes

section Steps

variable {limit : Nat} {state : Paired}

/-- An allowed operation without a wrap is one of `Buffer`, or refused. -/
theorem Represents.operate
    {buf : Buffer} (same : Represents buf state.raw)
    (limitFits : limit < 2 ^ 63) {op : BufferOp}
    (allowed : Allowed state op) (noWrap : NoWrap state op) :
    (∃ exception, state.raw.operate limit op = .error exception ∧
        ¬ Granted limit state.raw op) ∨
      ∃ later,
        state.raw.operate limit op = .ok ((buf.operate op).1, later) ∧
          Represents (buf.operate op).2 later := by
  cases op with
  | append data =>
      rcases same.append limitFits allowed with
        ⟨exception, throws, refused⟩ | ⟨later, returns, sameLater⟩
      · left
        refine ⟨exception, ?_, refused⟩
        simp only [MachineBuffer.operate, throws]
        rfl
      · right
        refine ⟨later, ?_, sameLater⟩
        simp only [MachineBuffer.operate, returns]
        rfl
  | retrieve len => exact Or.inr ⟨_, rfl, same.retrieve len⟩
  | retrieveAll => exact Or.inr ⟨_, rfl, same.retrieveAll⟩
  | retrieveAsString len =>
      right
      refine ⟨_, ?_, same.retrieve len⟩
      rw [MachineBuffer.operate, MachineBuffer.retrieveAsString,
        same.peek len]
      rfl
  | retrieveAllAsString =>
      right
      have sameLater := same.retrieve state.raw.readableBytes
      rw [same.readableBytes] at sameLater
      refine ⟨_, ?_, sameLater⟩
      rw [MachineBuffer.operate, MachineBuffer.retrieveAllAsString,
        MachineBuffer.retrieveAsString, same.peek_readableBytes]
      rfl
  | ensureWritableBytes len =>
      rcases same.ensureWritableBytes limitFits noWrap with
        ⟨exception, throws, refused⟩ | ⟨later, returns, sameLater⟩
      · left
        refine ⟨exception, ?_, refused⟩
        simp only [MachineBuffer.operate, throws]
        rfl
      · right
        refine ⟨later, ?_, sameLater⟩
        simp only [MachineBuffer.operate, returns]
        rfl
  | write data =>
      right
      have fits : data.length ≤ buf.writableBytes := by
        rw [← same.writableBytes]
        exact allowed
      rw [Buffer.operate, dif_pos fits]
      exact ⟨_, rfl, same.write fits⟩

/-- `Buffer` does what the queue does. -/
theorem Represents.operate_queue
    {buf : Buffer} (same : Represents buf state.raw) {op : BufferOp}
    (allowed : Allowed state op) :
    (buf.operate op).1 = (ByteQueue.operate buf.readable op).1 ∧
      (buf.operate op).2.readable =
        (ByteQueue.operate buf.readable op).2 := by
  cases op with
  | append data => exact ⟨rfl, buf.readable_append data⟩
  | retrieve len => exact ⟨rfl, buf.readable_retrieve len.toNat⟩
  | retrieveAll => exact ⟨rfl, buf.readable_retrieveAll⟩
  | retrieveAsString len =>
      have within : len.toNat ≤ buf.readableBytes := by
        rw [← same.readableBytes]
        exact UInt64.le_iff_toNat_le.mp allowed
      exact ⟨congrArg some (buf.retrieveAsString_fst within),
        buf.readable_retrieveAsString len.toNat⟩
  | retrieveAllAsString =>
      refine ⟨rfl, ?_⟩
      show (buf.retrieve buf.readableBytes).readable = []
      rw [Buffer.readable_retrieve, ← Buffer.length_readable]
      exact List.drop_length
  | ensureWritableBytes len =>
      exact ⟨rfl, buf.readable_ensureWritableBytes len.toNat⟩
  | write data =>
      have fits : data.length ≤ buf.writableBytes := by
        rw [← same.writableBytes]
        exact allowed
      rw [Buffer.operate, dif_pos fits]
      exact ⟨rfl, buf.readable_hasWritten_copyToWrite data fits
        (by simpa using fits)⟩

/-- An allowed operation without a wrap is one of the queue, or refused. -/
theorem operate_cases
    (limitFits : limit < 2 ^ 63) (sound : state.Sound) {op : BufferOp}
    (allowed : Allowed state op) (noWrap : NoWrap state op) :
    (∃ exception, state.raw.operate limit op = .error exception ∧
        ¬ Granted limit state.raw op) ∨
      ∃ returned later,
        state.raw.operate limit op = .ok (returned, later) ∧
          Returns op state.queue returned later := by
  rcases sound with ⟨buf, same, isReadable⟩
  rcases same.operate limitFits allowed noWrap with
    throws | ⟨later, returns, sameLater⟩
  · exact Or.inl throws
  · right
    rcases same.operate_queue allowed with ⟨string, readable⟩
    rw [isReadable] at string readable
    refine ⟨_, later, returns, string, ⟨_, sameLater, readable⟩, ?_⟩
    rintro len rfl
    rw [UInt64.le_iff_toNat_le, sameLater.writableBytes]
    exact buf.le_writableBytes_ensureWritableBytes len.toNat

/-- An operation is one of the queue if and only if it does not wrap. -/
theorem operatesAsQueue_iff
    (limitFits : limit < 2 ^ 63) (sound : state.Sound) {op : BufferOp}
    (allowed : Allowed state op) :
    OperatesAsQueue limit state op ↔ NoWrap state op := by
  constructor
  · intro asQueue
    by_contra wraps
    cases op with
    | ensureWritableBytes len =>
        rcases sound with ⟨buf, same, -⟩
        rcases same.ensureWritableBytes_wraps limit wraps with
          ⟨later, returns, sameIndex, broken⟩
        rw [← sameIndex] at broken
        have outcome :
            state.raw.operate limit (.ensureWritableBytes len) =
              .ok (none, later) := by
          simp only [MachineBuffer.operate, returns]
          rfl
        rcases asQueue.queues none later outcome with ⟨-, isQueue, -⟩
        exact absurd isQueue.bounded (Nat.not_le.mpr broken)
    | _ => exact wraps trivial
  · intro noWrap
    rcases operate_cases limitFits sound allowed noWrap with
      ⟨exception, throws, refused⟩ | ⟨string, after, returns, ends⟩
    · refine ⟨fun granted => absurd granted refused, ?_⟩
      intro returned later outcome
      rw [throws] at outcome
      cases outcome
    · refine ⟨fun _ => ⟨string, after, returns⟩, ?_⟩
      intro returned later outcome
      rw [returns] at outcome
      cases outcome
      rcases ends.sound with ⟨buf, same, isReadable⟩
      have isQueue := same.isQueue
      rw [isReadable] at isQueue
      exact ⟨ends.string, isQueue, ends.writable⟩

theorem sound_step
    (limitFits : limit < 2 ^ 63) (sound : state.Sound) {op : BufferOp}
    (allowed : Allowed state op) (noWrap : NoWrap state op) :
    (state.step limit op).Sound := by
  rw [Paired.step]
  rcases operate_cases limitFits sound allowed noWrap with
    ⟨exception, throws, -⟩ | ⟨returned, later, returns, ends⟩
  · rw [throws]
    exact sound
  · rw [returns]
    exact ends.sound

end Steps

/-- A fresh buffer and an empty queue. -/
def Paired.fresh : Paired where
  raw := .empty
  queue := []

theorem sound_fresh : Paired.fresh.Sound :=
  ⟨.empty, .empty, Buffer.readable_empty⟩

/--
Along a run of allowed operations from a fresh buffer, every operation that
the allocator does not refuse returns and does what a FIFO queue does, if and
only if the sum of no request wraps.
-/
theorem buffer_queue_iff
    {limit : Nat} (limitFits : limit < 2 ^ 63) {ops : List BufferOp}
    (allowed :
      Transition.Along (Paired.step limit) Allowed .fresh ops) :
    Transition.Along (Paired.step limit) (OperatesAsQueue limit) .fresh
        ops ↔
      Transition.Along (Paired.step limit) NoWrap .fresh ops :=
  Transition.along_iff Paired.Sound
    (fun _ _ sound allowed => operatesAsQueue_iff limitFits sound allowed)
    (fun _ _ sound allowed noWrap =>
      sound_step limitFits sound allowed noWrap)
    sound_fresh allowed

/-- A buffer that grows, and is emptied in two parts. -/
def growingRun : List BufferOp :=
  [.append (ascii "GET"), .ensureWritableBytes 2000, .retrieveAsString 2,
    .write (ascii " /"), .retrieveAllAsString]

theorem buffer_queue_of_growing :
    Transition.Along (Paired.step (2 ^ 20)) (OperatesAsQueue (2 ^ 20))
      .fresh growingRun :=
  (buffer_queue_iff (by decide) (by decide +kernel)).mpr
    (by decide +kernel)

/-- One byte, and a request for all that a `size_t` can count. -/
def wrappingRun : List BufferOp :=
  [.append [65], .ensureWritableBytes 18446744073709551615]

/-- The request returns, with the write index behind the storage. -/
theorem buffer_queue_broken_by_wrap :
    Transition.Along (Paired.step (2 ^ 20)) Allowed .fresh wrappingRun ∧
      ¬ Transition.Along (Paired.step (2 ^ 20))
        (OperatesAsQueue (2 ^ 20)) .fresh wrappingRun := by
  constructor
  · decide +kernel
  · rintro ⟨-, request, -⟩
    have shrunk :
        (((Paired.fresh.step (2 ^ 20) (.append [65])).raw.operate (2 ^ 20)
          (.ensureWritableBytes 18446744073709551615)).toOption.map
            fun outcome => decide
              (outcome.2.writeIndex.toNat ≤ outcome.2.storage.length)) =
          some false := by
      decide +kernel
    cases outcome :
        (Paired.fresh.step (2 ^ 20) (.append [65])).raw.operate (2 ^ 20)
          (.ensureWritableBytes 18446744073709551615) with
    | error exception =>
        rw [outcome] at shrunk
        cases shrunk
    | ok result =>
        rcases request.queues result.1 result.2 outcome with
          ⟨-, isQueue, -⟩
        rw [outcome] at shrunk
        exact absurd isQueue.bounded
          (of_decide_eq_false (Option.some.inj shrunk))

end LightningServer.Net
