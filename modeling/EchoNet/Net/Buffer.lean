import EchoNet.Lib.BigEndian
import Mathlib.Tactic.SplitIfs

/-!
# The Read and Write Buffer

`class Buffer` (include/Net/Buffer.h, src/Net/Buffer.cpp): a byte vector with a read and a
write pointer.  Unread bytes lie between the pointers; room for more is made by moving them to
the front or by growing the vector, and both pointers return to the front when everything has
been read.

The class invariant `read_ptr_ ≤ write_ptr_ ≤ size` is part of the type, and what the source
asserts is an argument of the operation.

## Main results

Each operation is a list operation on the unread bytes `Buffer.readable`:
- `readable_enableWrite`, `readable_bufferAppend`, `readable_receive`;
- `readable_moveReadPtr`, `peek_eq_take`.
-/

namespace EchoNet.Net

open EchoNet.Lib

/-- The capacity of a new buffer: 4 KiB. -/
def initialCapacity : Nat := 4096

/-- `class Buffer`. -/
structure Buffer where
  data : Bytes
  readPtr : Nat
  writePtr : Nat
  read_le_write : readPtr ≤ writePtr
  write_le_size : writePtr ≤ data.length
  capacity : initialCapacity ≤ data.length

namespace Buffer

/-! ## §1 Operations -/

/-- `Buffer::Buffer`. -/
def create : Buffer where
  data := List.replicate initialCapacity 0
  readPtr := 0
  writePtr := 0
  read_le_write := Nat.le_refl 0
  write_le_size := Nat.zero_le _
  capacity := by simp

/-- `getreadable`. -/
def getreadable (b : Buffer) : Nat := b.writePtr - b.readPtr

/-- `writableBytes`. -/
def writableBytes (b : Buffer) : Nat := b.data.length - b.writePtr

/-- The first `n` bytes behind `peek()`. -/
def peek (b : Buffer) (n : Nat) : Bytes := (b.data.drop b.readPtr).take n

/-- The unread bytes. -/
def readable (b : Buffer) : Bytes := (b.data.take b.writePtr).drop b.readPtr

/-- The growth loop of `enableWrite`: `new_size * 1.5`, rounded down as the conversion from
`double` does for every size below `2 ^ 52`, until `len` bytes fit behind the write pointer. -/
def grow (writePtr len size : Nat) (h : 2 ≤ size) : Nat :=
  if size - writePtr < len then grow writePtr len (size * 3 / 2) (by omega) else size
termination_by writePtr + len - size

theorem grow_spec (writePtr len size : Nat) (h : 2 ≤ size) :
    size ≤ grow writePtr len size h ∧ len ≤ grow writePtr len size h - writePtr := by
  fun_induction grow writePtr len size h with
  | case1 size h hshort ih => omega
  | case2 size h hroom => omega

theorem length_peek (b : Buffer) : (b.peek b.getreadable).length = b.getreadable := by
  have hle := b.write_le_size
  simp only [peek, getreadable, List.length_take, List.length_drop]
  omega

/-- `enableWrite`. -/
def enableWrite (b : Buffer) (len : Nat) : Buffer :=
  if b.writableBytes < len then
    if len ≤ b.writableBytes + b.readPtr then
      -- `memmove` of the unread bytes to the front
      { data := b.peek b.getreadable ++ b.data.drop b.getreadable
        readPtr := 0
        writePtr := b.getreadable
        read_le_write := Nat.zero_le _
        write_le_size := by
          rw [List.length_append, length_peek]
          exact Nat.le_add_right _ _
        capacity := by
          have hcap := b.capacity
          rw [List.length_append, length_peek, List.length_drop]
          omega }
    else
      -- no room even at the front: the vector grows
      let size := grow b.writePtr len b.data.length (Nat.le_trans (by decide) b.capacity)
      { data := b.data ++ List.replicate (size - b.data.length) 0
        readPtr := b.readPtr
        writePtr := b.writePtr
        read_le_write := b.read_le_write
        write_le_size := by
          rw [List.length_append]
          exact Nat.le_add_right_of_le b.write_le_size
        capacity := by
          rw [List.length_append]
          exact Nat.le_add_right_of_le b.capacity }
  else b

/-- Bytes are written at `beginWrite()`, where there is room for them. -/
def fill (b : Buffer) (bytes : Bytes) (_h : bytes.length ≤ b.writableBytes) : Buffer where
  data := b.data.take b.writePtr ++ (bytes ++ b.data.drop (b.writePtr + bytes.length))
  readPtr := b.readPtr
  writePtr := b.writePtr
  read_le_write := b.read_le_write
  write_le_size := by
    have hle := b.write_le_size
    simp only [List.length_append, List.length_take]
    omega
  capacity := by
    have hle := b.write_le_size
    have hcap := b.capacity
    simp only [List.length_append, List.length_take, List.length_drop]
    omega

/-- `moveWritePtr`, with its assertion. -/
def moveWritePtr (b : Buffer) (len : Nat) (h : len ≤ b.writableBytes) : Buffer :=
  { b with
    writePtr := b.writePtr + len
    read_le_write := Nat.le_add_right_of_le b.read_le_write
    write_le_size := (Nat.le_sub_iff_add_le' b.write_le_size).mp h }

/-- `moveReadPtr`, with its assertion: a drained buffer starts over. -/
def moveReadPtr (b : Buffer) (len : Nat) (h : len ≤ b.getreadable) : Buffer :=
  if b.readPtr + len = b.writePtr then
    { b with readPtr := 0, writePtr := 0, read_le_write := Nat.le_refl 0, write_le_size := Nat.zero_le _ }
  else
    { b with
      readPtr := b.readPtr + len
      read_le_write := by
        have hle := b.read_le_write
        unfold getreadable at h
        omega }

/-! ## §2 Room for more -/

theorem length_readable (b : Buffer) : b.readable.length = b.getreadable := by
  have hle := b.write_le_size
  simp only [readable, getreadable, List.length_drop, List.length_take]
  omega

/-- What is behind `peek()` are the unread bytes, as far as there are any. -/
theorem peek_eq_take {b : Buffer} {n : Nat} (h : n ≤ b.getreadable) :
    b.peek n = b.readable.take n := by
  unfold getreadable at h
  rw [peek, readable, List.drop_take, List.take_take, Nat.min_eq_left h]

theorem peek_getreadable (b : Buffer) : b.peek b.getreadable = b.readable := by
  rw [peek_eq_take (Nat.le_refl _), ← length_readable, List.take_length]

/-- Making room keeps the unread bytes. -/
theorem readable_enableWrite (b : Buffer) (len : Nat) :
    (b.enableWrite len).readable = b.readable := by
  unfold enableWrite
  split_ifs with hshort hmove
  · show ((b.peek b.getreadable ++ b.data.drop b.getreadable).take b.getreadable).drop 0 = b.readable
    rw [List.drop_zero, List.take_left' (length_peek b), peek_getreadable]
  · show ((b.data ++ List.replicate _ 0).take b.writePtr).drop b.readPtr = b.readable
    rw [List.take_append_of_le_length b.write_le_size]
    rfl
  · rfl

/-- There is room for what was asked for. -/
theorem le_writableBytes_enableWrite (b : Buffer) (len : Nat) :
    len ≤ (b.enableWrite len).writableBytes := by
  have hrw := b.read_le_write
  have hws := b.write_le_size
  unfold enableWrite
  split_ifs with hshort hmove
  · simp only [writableBytes, List.length_append, length_peek, List.length_drop] at hshort hmove ⊢
    simp only [getreadable] at hshort hmove ⊢
    omega
  · have hgrow := grow_spec b.writePtr len b.data.length (Nat.le_trans (by decide) b.capacity)
    simp only [writableBytes, List.length_append, List.length_replicate]
    omega
  · omega

/-! ## §3 Writing and reading -/

theorem writableBytes_fill (b : Buffer) (bytes : Bytes) (h : bytes.length ≤ b.writableBytes) :
    (b.fill bytes h).writableBytes = b.writableBytes := by
  have hle := b.write_le_size
  unfold writableBytes at h
  simp only [fill, writableBytes, List.length_append, List.length_take, List.length_drop]
  omega

/-- `len` bytes written at `beginWrite()` and the write pointer moved behind them. -/
def write (b : Buffer) (bytes : Bytes) (h : bytes.length ≤ b.writableBytes) : Buffer :=
  (b.fill bytes h).moveWritePtr bytes.length (by rwa [writableBytes_fill])

theorem readable_write (b : Buffer) (bytes : Bytes) (h : bytes.length ≤ b.writableBytes) :
    (b.write bytes h).readable = b.readable ++ bytes := by
  -- the written bytes begin where the unread ones end
  have hread : b.readPtr ≤ (b.data.take b.writePtr).length := by
    rw [List.length_take, Nat.min_eq_left b.write_le_size]
    exact b.read_le_write
  have htake : (b.data.take b.writePtr ++ (bytes ++ b.data.drop (b.writePtr + bytes.length))).take
      (b.writePtr + bytes.length) = b.data.take b.writePtr ++ bytes := by
    rw [← List.append_assoc]
    refine List.take_left' ?_
    rw [List.length_append, List.length_take, Nat.min_eq_left b.write_le_size]
  show ((b.data.take b.writePtr ++ (bytes ++ b.data.drop (b.writePtr + bytes.length))).take
    (b.writePtr + bytes.length)).drop b.readPtr = b.readable ++ bytes
  rw [htake, List.drop_append_of_le_length hread]
  rfl

/-- `bufferAppend`. -/
def bufferAppend (b : Buffer) (msg : Bytes) : Buffer :=
  (b.enableWrite msg.length).write msg (b.le_writableBytes_enableWrite msg.length)

/-- Appending puts the bytes behind the unread ones. -/
theorem readable_bufferAppend (b : Buffer) (msg : Bytes) :
    (b.bufferAppend msg).readable = b.readable ++ msg := by
  rw [bufferAppend, readable_write, readable_enableWrite]

/-- The size of the stack buffer in `Connection::read`. -/
def extraBufSize : Nat := 65536

/-- `Connection::read` never passes a full buffer to `readv`. -/
def makeRoom (b : Buffer) : Buffer :=
  if b.writableBytes = 0 then b.enableWrite extraBufSize else b

theorem readable_makeRoom (b : Buffer) : b.makeRoom.readable = b.readable := by
  unfold makeRoom
  split_ifs with hfull
  · exact readable_enableWrite b extraBufSize
  · rfl

/-- What `Connection::read` does with the bytes of one `readv`: they go behind the write
pointer as far as there is room, and the rest of them through the stack buffer. -/
def receive (b : Buffer) (bytes : Bytes) : Buffer :=
  if h : bytes.length ≤ b.makeRoom.writableBytes then b.makeRoom.write bytes h
  else
    (b.makeRoom.write (bytes.take b.makeRoom.writableBytes) (List.length_take_le ..)).bufferAppend
      (bytes.drop b.makeRoom.writableBytes)

/-- However `readv` splits them, the received bytes are behind the unread ones. -/
theorem readable_receive (b : Buffer) (bytes : Bytes) :
    (b.receive bytes).readable = b.readable ++ bytes := by
  unfold receive
  split_ifs with hfits
  · rw [readable_write, readable_makeRoom]
  · rw [readable_bufferAppend, readable_write, readable_makeRoom, List.append_assoc,
      List.take_append_drop]

/-- Reading consumes the front of the unread bytes. -/
theorem readable_moveReadPtr (b : Buffer) (len : Nat) (h : len ≤ b.getreadable) :
    (b.moveReadPtr len h).readable = b.readable.drop len := by
  unfold moveReadPtr
  split_ifs with hdrained
  -- both pointers are at the front, and nothing was unread
  · have hall : b.readable.length ≤ len := by
      rw [length_readable, getreadable]
      omega
    rw [List.drop_of_length_le hall]
    simp [readable]
  · simp [readable, List.drop_drop]

@[simp] theorem getreadable_moveReadPtr (b : Buffer) (len : Nat) (h : len ≤ b.getreadable) :
    (b.moveReadPtr len h).getreadable = b.getreadable - len := by
  rw [← length_readable, readable_moveReadPtr, List.length_drop, length_readable]

@[simp] theorem readable_create : create.readable = [] := rfl

end Buffer

end EchoNet.Net
