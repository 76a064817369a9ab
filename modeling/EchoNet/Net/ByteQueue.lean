import EchoNet.Lib.Machine
import EchoNet.Net.Buffer

/-!
# The Buffer as a Byte Queue

`Buffer` once more, as the compiler sees it: a vector and two pointers without an invariant, sizes
in `size_t` whose subtraction wraps around, a growth factor in `double`, assertions that can fail and
a loop that may not end.  `none` stands for a failed assertion, a copy beyond the vector and a loop
that is out of fuel.

Two refinements meet in the `Buffer` of `Buffer.lean`: the raw operations compute its operations,
and its unread bytes are an abstract queue.

## Main result

`buffer_refines_queue`.
-/

namespace EchoNet.Net

open EchoNet.Lib

/-! ## §1 Sizes -/

/-- The `double` nearest to a natural number: 53 significant bits, ties to even. -/
def roundDouble (x : Nat) : Nat :=
  let ulp := 2 ^ (Nat.log2 x - 52)
  let q := x / ulp
  let r := x % ulp
  (if ulp < 2 * r ∨ (ulp = 2 * r ∧ q % 2 = 1) then q + 1 else q) * ulp

theorem roundDouble_of_lt {x : Nat} (h : x < 2 ^ 53) : roundDouble x = x := by
  have hulp : Nat.log2 x - 52 = 0 := by
    rcases Nat.eq_zero_or_pos x with rfl | hpos
    · rfl
    · have hlog := (Nat.log2_lt (Nat.pos_iff_ne_zero.mp hpos)).mpr h
      omega
  simp [roundDouble, hulp, Nat.mod_one]

/-- `new_size * 1.5`, converted back to `size_t`. -/
def timesOneAndHalf (size : Nat) : Nat := roundDouble (3 * roundDouble size) / 2

/-- The product is exact up to truncation as long as the result is below `2 ^ 52`. -/
theorem timesOneAndHalf_eq {size : Nat} (h : size * 3 / 2 < 2 ^ 52) :
    timesOneAndHalf size = size * 3 / 2 := by
  unfold timesOneAndHalf
  rw [roundDouble_of_lt (by omega : size < 2 ^ 53), roundDouble_of_lt (by omega), Nat.mul_comm]

/-- Subtraction in `size_t`. -/
def sizeSub (a b : Nat) : Nat := (a + 2 ^ 64 - b) % 2 ^ 64

theorem sizeSub_eq {a b : Nat} (hle : b ≤ a) (ha : a < 2 ^ 64) : sizeSub a b = a - b := by
  unfold sizeSub
  omega

/-! ## §2 The operations on memory -/

/-- The fields of `class Buffer`. -/
structure RawBuffer where
  data : Bytes
  readPtr : Nat
  writePtr : Nat
  deriving DecidableEq, Repr

namespace RawBuffer

/-- `Buffer::Buffer`. -/
def create : RawBuffer := ⟨List.replicate initialCapacity 0, 0, 0⟩

/-- `getreadable`. -/
def getreadable (b : RawBuffer) : Nat := sizeSub b.writePtr b.readPtr

/-- `writableBytes`. -/
def writableBytes (b : RawBuffer) : Nat := sizeSub b.data.length b.writePtr

/-- What `peek` and `getreadable` give the parser. -/
def readable (b : RawBuffer) : Bytes := (b.data.take b.writePtr).drop b.readPtr

/-- The growth loop of `enableWrite`. -/
def growLoop : Nat → Nat → Nat → Nat → Option Nat
  | 0, _, _, _ => none
  | fuel + 1, writePtr, len, size =>
    if sizeSub size writePtr < len then growLoop fuel writePtr len (timesOneAndHalf size)
    else some size

/-- `enableWrite`. -/
def enableWrite (fuel : Nat) (b : RawBuffer) (len : Nat) : Option RawBuffer :=
  let writeable := sizeSub b.data.length b.writePtr
  let readable := sizeSub b.writePtr b.readPtr
  if writeable < len then
    if len ≤ (writeable + b.readPtr) % 2 ^ 64 then
      -- `memmove`
      some { data := (b.data.drop b.readPtr).take readable ++ b.data.drop readable
             readPtr := 0
             writePtr := readable }
    else
      (growLoop fuel b.writePtr len b.data.length).map fun size =>
        { b with data := b.data ++ List.replicate (size - b.data.length) 0 }
  else some b

/-- Bytes are copied to `beginWrite()`. -/
def store (b : RawBuffer) (bytes : Bytes) : Option RawBuffer :=
  if b.writePtr + bytes.length ≤ b.data.length then
    some { b with
      data := b.data.take b.writePtr ++ (bytes ++ b.data.drop (b.writePtr + bytes.length)) }
  else none

/-- `bufferAppend`. -/
def bufferAppend (fuel : Nat) (b : RawBuffer) (msg : Bytes) : Option RawBuffer :=
  (b.enableWrite fuel msg.length).bind fun b =>
    (b.store msg).map fun b => { b with writePtr := (b.writePtr + msg.length) % 2 ^ 64 }

/-- `moveWritePtr`. -/
def moveWritePtr (b : RawBuffer) (len : Nat) : Option RawBuffer :=
  if len ≤ sizeSub b.data.length b.writePtr then
    some { b with writePtr := (b.writePtr + len) % 2 ^ 64 }
  else none

/-- `moveReadPtr`. -/
def moveReadPtr (b : RawBuffer) (len : Nat) : Option RawBuffer :=
  if len ≤ sizeSub b.writePtr b.readPtr then
    let readPtr := (b.readPtr + len) % 2 ^ 64
    if readPtr = b.writePtr then some { b with readPtr := 0, writePtr := 0 }
    else some { b with readPtr := readPtr }
  else none

/-- `Connection::read` never passes a full buffer to `readv`. -/
def makeRoom (fuel : Nat) (b : RawBuffer) : Option RawBuffer :=
  if b.writableBytes = 0 then b.enableWrite fuel Buffer.extraBufSize else some b

/-- `readv` into the tail of the vector and `extrabuf` has returned `bytes`. -/
def scatter (fuel : Nat) (b : RawBuffer) (bytes : Bytes) : Option RawBuffer :=
  let writable := b.writableBytes
  (b.store (bytes.take writable)).bind fun b =>
    if bytes.length ≤ writable then b.moveWritePtr bytes.length
    else
      (b.moveWritePtr writable).bind fun b =>
        if bytes.length - writable ≤ Buffer.extraBufSize then
          b.bufferAppend fuel (bytes.drop writable)
        else none

/-- One round of the loop of `Connection::read`. -/
def receive (fuel : Nat) (b : RawBuffer) (bytes : Bytes) : Option RawBuffer :=
  (b.makeRoom fuel).bind fun b => b.scatter fuel bytes

end RawBuffer

/-! ## §3 Sequences of operations -/

/-- An operation on a buffer, with what it is given. -/
inductive BufferOp where
  | bufferAppend (msg : Bytes)
  | moveReadPtr (len : Nat)
  | enableWrite (len : Nat)
  | receive (bytes : Bytes)
  deriving DecidableEq, Repr

def RawBuffer.step (fuel : Nat) (b : RawBuffer) : BufferOp → Option RawBuffer
  | .bufferAppend msg => b.bufferAppend fuel msg
  | .moveReadPtr len => b.moveReadPtr len
  | .enableWrite len => b.enableWrite fuel len
  | .receive bytes => b.receive fuel bytes

/-- The operations that callers may use: nobody consumes more than there is, and `readv` returns
some bytes, as many as the two blocks take at most. -/
def Buffer.step (b : Buffer) : BufferOp → Option Buffer
  | .bufferAppend msg => some (b.bufferAppend msg)
  | .moveReadPtr len => if h : len ≤ b.getreadable then some (b.moveReadPtr len h) else none
  | .enableWrite len => some (b.enableWrite len)
  | .receive bytes =>
    if 0 < bytes.length ∧ bytes.length ≤ b.makeRoom.writableBytes + Buffer.extraBufSize then
      some (b.receive bytes)
    else none

/-- An abstract queue of bytes under the same operations. -/
def queueStep (q : Bytes) : BufferOp → Option Bytes
  | .bufferAppend msg => some (q ++ msg)
  | .moveReadPtr len => if len ≤ q.length then some (q.drop len) else none
  | .enableWrite _ => some q
  | .receive bytes => some (q ++ bytes)

namespace Buffer

/-- A buffer without its invariant. -/
def raw (b : Buffer) : RawBuffer := ⟨b.data, b.readPtr, b.writePtr⟩

/-! ## §4 Sizes only grow -/

theorem length_le_enableWrite (b : Buffer) (len : Nat) :
    b.data.length ≤ (b.enableWrite len).data.length := by
  have hrw := b.read_le_write
  have hws := b.write_le_size
  unfold enableWrite
  split_ifs
  · rw [List.length_append, length_peek, List.length_drop, getreadable]
    omega
  · rw [List.length_append]
    omega
  · exact Nat.le_refl _

theorem length_write (b : Buffer) (bytes : Bytes) (h : bytes.length ≤ b.writableBytes) :
    (b.write bytes h).data.length = b.data.length := by
  have hws := b.write_le_size
  unfold writableBytes at h
  simp only [write, moveWritePtr, fill, List.length_append, List.length_take, List.length_drop]
  omega

theorem length_bufferAppend (b : Buffer) (msg : Bytes) :
    (b.bufferAppend msg).data.length = (b.enableWrite msg.length).data.length :=
  length_write ..

theorem length_le_makeRoom (b : Buffer) : b.data.length ≤ b.makeRoom.data.length := by
  unfold makeRoom
  split_ifs
  · exact b.length_le_enableWrite _
  · exact Nat.le_refl _

theorem length_makeRoom_le_receive (b : Buffer) (bytes : Bytes) :
    b.makeRoom.data.length ≤ (b.receive bytes).data.length := by
  unfold receive
  split_ifs
  · rw [length_write]
  · rw [length_bufferAppend]
    refine Nat.le_trans ?_ (length_le_enableWrite _ _)
    rw [length_write]

theorem length_le_step {b c : Buffer} {op : BufferOp} (h : b.step op = some c) :
    b.data.length ≤ c.data.length := by
  cases op with
  | bufferAppend msg =>
    cases h
    rw [length_bufferAppend]
    exact b.length_le_enableWrite _
  | moveReadPtr len =>
    simp only [step] at h
    split_ifs at h with hlen
    cases h
    unfold moveReadPtr
    split_ifs <;> exact Nat.le_refl _
  | enableWrite len =>
    cases h
    exact b.length_le_enableWrite len
  | receive bytes =>
    simp only [step] at h
    split_ifs at h
    cases h
    exact Nat.le_trans b.length_le_makeRoom (b.length_makeRoom_le_receive bytes)

/-! ## §5 The raw operations compute the operations -/

section Raw

variable {fuel : Nat} (hfuel : 2 ^ 52 ≤ fuel)
include hfuel

/-- The loop ends before its fuel does: every round adds at least one. -/
theorem growLoop_eq (writePtr len : Nat) {size : Nat} (hsize : 2 ≤ size) (hwrite : writePtr ≤ size)
    (hsmall : grow writePtr len size hsize < 2 ^ 52) :
    RawBuffer.growLoop fuel writePtr len size = some (grow writePtr len size hsize) := by
  have hrounds : grow writePtr len size hsize < size + fuel := by omega
  clear hfuel
  induction fuel generalizing size with
  | zero =>
    have hle := (grow_spec writePtr len size hsize).1
    omega
  | succ fuel ih =>
    have hle := (grow_spec writePtr len size hsize).1
    rw [RawBuffer.growLoop, sizeSub_eq hwrite (by omega)]
    rw [grow] at hsmall hrounds hle ⊢
    split_ifs at hsmall hrounds hle ⊢ with hshort
    · have hnext := (grow_spec writePtr len (size * 3 / 2) (by omega)).1
      rw [timesOneAndHalf_eq (by omega)]
      exact ih _ (by omega) hsmall (by omega)
    · rfl

theorem raw_enableWrite (b : Buffer) (len : Nat)
    (hsmall : (b.enableWrite len).data.length < 2 ^ 52) :
    b.raw.enableWrite fuel len = some (b.enableWrite len).raw := by
  have hrw := b.read_le_write
  have hws := b.write_le_size
  have hsize := b.length_le_enableWrite len
  have hwritable : sizeSub b.data.length b.writePtr = b.writableBytes := sizeSub_eq hws (by omega)
  have hreadable : sizeSub b.writePtr b.readPtr = b.getreadable := sizeSub_eq hrw (by omega)
  -- the space in front and behind is less than the vector
  have hspace : (b.writableBytes + b.readPtr) % 2 ^ 64 = b.writableBytes + b.readPtr := by
    unfold writableBytes
    omega
  unfold RawBuffer.enableWrite
  simp only [raw, hwritable, hreadable, hspace]
  unfold enableWrite at hsmall ⊢
  split_ifs at hsmall ⊢ with hshort hmove
  · rfl
  · have hcap := b.capacity
    have hgrow := (grow_spec b.writePtr len b.data.length (Nat.le_trans (by decide) hcap)).1
    simp only [List.length_append, List.length_replicate] at hsmall
    rw [growLoop_eq hfuel b.writePtr len (Nat.le_trans (by decide) hcap) hws (by omega)]
    rfl
  · rfl

omit hfuel in
theorem raw_store (b : Buffer) (bytes : Bytes) (h : bytes.length ≤ b.writableBytes) :
    b.raw.store bytes = some (b.fill bytes h).raw := by
  have hws := b.write_le_size
  unfold writableBytes at h
  unfold RawBuffer.store
  rw [if_pos (by simp only [raw]; omega)]
  rfl

omit hfuel in
/-- The assertion of `moveWritePtr` holds. -/
theorem raw_moveWritePtr (b : Buffer) (len : Nat) (h : len ≤ b.writableBytes)
    (hsmall : b.data.length < 2 ^ 52) :
    b.raw.moveWritePtr len = some (b.moveWritePtr len h).raw := by
  have hws := b.write_le_size
  have hsub : sizeSub b.raw.data.length b.raw.writePtr = b.writableBytes :=
    sizeSub_eq hws (by simp only [raw]; omega)
  have hsum : (b.raw.writePtr + len) % 2 ^ 64 = b.writePtr + len := by
    unfold writableBytes at h
    simp only [raw]
    omega
  unfold RawBuffer.moveWritePtr
  rw [hsub, if_pos h, hsum]
  rfl

omit hfuel in
/-- The assertion of `moveReadPtr` holds. -/
theorem raw_moveReadPtr (b : Buffer) (len : Nat) (h : len ≤ b.getreadable)
    (hsmall : b.data.length < 2 ^ 52) :
    b.raw.moveReadPtr len = some (b.moveReadPtr len h).raw := by
  have hrw := b.read_le_write
  have hws := b.write_le_size
  have hsub : sizeSub b.raw.writePtr b.raw.readPtr = b.getreadable :=
    sizeSub_eq hrw (by simp only [raw]; omega)
  have hsum : (b.raw.readPtr + len) % 2 ^ 64 = b.readPtr + len := by
    unfold getreadable at h
    simp only [raw]
    omega
  unfold RawBuffer.moveReadPtr moveReadPtr
  rw [hsub, if_pos h]
  dsimp only
  rw [hsum]
  by_cases hdrained : b.readPtr + len = b.writePtr
  · rw [if_pos hdrained, if_pos (by exact hdrained)]
    rfl
  · rw [if_neg hdrained, if_neg (by exact hdrained)]
    rfl

omit hfuel in
theorem raw_writableBytes (b : Buffer) (hsmall : b.data.length < 2 ^ 52) :
    b.raw.writableBytes = b.writableBytes :=
  sizeSub_eq b.write_le_size (by simp only [raw]; omega)

theorem raw_bufferAppend (b : Buffer) (msg : Bytes)
    (hsmall : (b.bufferAppend msg).data.length < 2 ^ 52) :
    b.raw.bufferAppend fuel msg = some (b.bufferAppend msg).raw := by
  rw [length_bufferAppend] at hsmall
  have hroom := b.le_writableBytes_enableWrite msg.length
  have hws := (b.enableWrite msg.length).write_le_size
  have hsum : ((b.enableWrite msg.length).writePtr + msg.length) % 2 ^ 64 =
      (b.enableWrite msg.length).writePtr + msg.length := by
    unfold writableBytes at hroom
    omega
  unfold RawBuffer.bufferAppend
  rw [raw_enableWrite hfuel b msg.length hsmall, Option.bind_some, raw_store _ msg hroom,
    Option.map_some]
  simp only [raw, fill, hsum]
  rfl

theorem raw_makeRoom (b : Buffer) (hsmall : b.makeRoom.data.length < 2 ^ 52) :
    b.raw.makeRoom fuel = some b.makeRoom.raw := by
  unfold RawBuffer.makeRoom
  rw [raw_writableBytes b (Nat.lt_of_le_of_lt b.length_le_makeRoom hsmall)]
  unfold makeRoom at hsmall ⊢
  split_ifs at hsmall ⊢
  · exact raw_enableWrite hfuel b extraBufSize hsmall
  · rfl

theorem raw_receive (b : Buffer) (bytes : Bytes)
    (hbytes : bytes.length ≤ b.makeRoom.writableBytes + extraBufSize)
    (hsmall : (b.receive bytes).data.length < 2 ^ 52) :
    b.raw.receive fuel bytes = some (b.receive bytes).raw := by
  have hroomSmall : b.makeRoom.data.length < 2 ^ 52 :=
    Nat.lt_of_le_of_lt (b.length_makeRoom_le_receive bytes) hsmall
  have hfillSmall : ∀ (part : Bytes) (h : part.length ≤ b.makeRoom.writableBytes),
      (b.makeRoom.fill part h).data.length < 2 ^ 52 := fun part h =>
    (length_write b.makeRoom part h).trans_lt hroomSmall
  unfold RawBuffer.receive RawBuffer.scatter
  rw [raw_makeRoom hfuel b hroomSmall, Option.bind_some, raw_writableBytes _ hroomSmall]
  dsimp only
  rw [raw_store _ _ (List.length_take_le ..), Option.bind_some]
  unfold receive at hsmall ⊢
  by_cases hfits : bytes.length ≤ b.makeRoom.writableBytes
  -- everything went to the tail of the vector
  · rw [if_pos hfits, dif_pos hfits]
    have htake : bytes.take b.makeRoom.writableBytes = bytes := List.take_of_length_le hfits
    simp only [htake]
    exact raw_moveWritePtr _ bytes.length (by rwa [writableBytes_fill]) (hfillSmall bytes hfits)
  -- the tail is full, and the rest is in `extrabuf`
  · rw [dif_neg hfits] at hsmall
    rw [if_neg hfits, dif_neg hfits]
    have hlength : (bytes.take b.makeRoom.writableBytes).length = b.makeRoom.writableBytes := by
      rw [List.length_take]
      omega
    have hmove : (b.makeRoom.fill (bytes.take b.makeRoom.writableBytes)
        (List.length_take_le ..)).raw.moveWritePtr b.makeRoom.writableBytes =
        some (b.makeRoom.write (bytes.take b.makeRoom.writableBytes) (List.length_take_le ..)).raw := by
      have h := raw_moveWritePtr (b.makeRoom.fill (bytes.take b.makeRoom.writableBytes)
        (List.length_take_le ..)) (bytes.take b.makeRoom.writableBytes).length
        (by rw [writableBytes_fill]; exact List.length_take_le ..) (hfillSmall _ _)
      simpa only [write, hlength] using h
    rw [hmove, Option.bind_some, if_pos (by omega)]
    exact raw_bufferAppend hfuel _ _ hsmall

theorem raw_step {b c : Buffer} {op : BufferOp} (h : b.step op = some c)
    (hsmall : c.data.length < 2 ^ 52) : b.raw.step fuel op = some c.raw := by
  cases op with
  | bufferAppend msg =>
    cases h
    exact raw_bufferAppend hfuel b msg hsmall
  | moveReadPtr len =>
    have hle := length_le_step h
    simp only [step] at h
    split_ifs at h with hlen
    cases h
    exact raw_moveReadPtr b len hlen (Nat.lt_of_le_of_lt hle hsmall)
  | enableWrite len =>
    cases h
    exact raw_enableWrite hfuel b len hsmall
  | receive bytes =>
    simp only [step] at h
    split_ifs at h with hbytes
    cases h
    exact raw_receive hfuel b bytes hbytes.2 hsmall

theorem raw_run {b c : Buffer} {ops : List BufferOp} (hrun : run step b ops = some c)
    (hsmall : c.data.length < 2 ^ 52) : run (RawBuffer.step fuel) b.raw ops = some c.raw := by
  have hgrow : ∀ {b c : Buffer} {ops : List BufferOp}, run step b ops = some c →
      b.data.length ≤ c.data.length := fun {b c ops} hrun =>
    run_invariant (P := fun v : Buffer => b.data.length ≤ v.data.length)
      (fun _ _ _ h hs => Nat.le_trans h (length_le_step hs)) (Nat.le_refl _) hrun
  induction ops generalizing b with
  | nil =>
    cases hrun
    rfl
  | cons op ops ih =>
    obtain ⟨v, hv, hrest⟩ := run_cons_eq_some.mp hrun
    have hstep := raw_step hfuel hv (Nat.lt_of_le_of_lt (hgrow hrest) hsmall)
    exact run_cons_eq_some.mpr ⟨v.raw, hstep, ih hrest⟩

end Raw

/-! ## §6 The unread bytes are a queue -/

theorem queue_step {b c : Buffer} {op : BufferOp} (h : b.step op = some c) :
    queueStep b.readable op = some c.readable := by
  cases op with
  | bufferAppend msg =>
    cases h
    rw [queueStep, readable_bufferAppend]
  | moveReadPtr len =>
    simp only [step] at h
    split_ifs at h with hlen
    cases h
    rw [queueStep, length_readable, if_pos hlen, readable_moveReadPtr]
  | enableWrite len =>
    cases h
    rw [queueStep, readable_enableWrite]
  | receive bytes =>
    simp only [step] at h
    split_ifs at h
    cases h
    rw [queueStep, readable_receive]

theorem queue_run {b c : Buffer} {ops : List BufferOp} (hrun : run step b ops = some c) :
    run queueStep b.readable ops = some c.readable := by
  induction ops generalizing b with
  | nil =>
    cases hrun
    rfl
  | cons op ops ih =>
    obtain ⟨v, hv, hrest⟩ := run_cons_eq_some.mp hrun
    exact run_cons_eq_some.mpr ⟨v.readable, queue_step hv, ih hrest⟩

/-- **The buffer is a byte queue.**  After any allowed operations on a new buffer, while sizes stay
below `2 ^ 52`, no assertion of the source has failed and every loop has ended, the pointers are in
order, the unread bytes are those of a queue after the same operations, and `enableWrite` makes room
for what it is asked for without touching them. -/
theorem buffer_refines_queue (ops : List BufferOp) (b : Buffer)
    (hrun : run step create ops = some b) (hsmall : b.data.length < 2 ^ 52) (fuel : Nat)
    (hfuel : 2 ^ 52 ≤ fuel) :
    run (RawBuffer.step fuel) RawBuffer.create ops = some b.raw ∧
      b.raw.readPtr ≤ b.raw.writePtr ∧ b.raw.writePtr ≤ b.raw.data.length ∧
      run queueStep [] ops = some b.raw.readable ∧
      ∀ len, (b.enableWrite len).data.length < 2 ^ 52 →
        ∃ c, b.raw.enableWrite fuel len = some c ∧ len ≤ c.writableBytes ∧
          c.readable = b.raw.readable := by
  refine ⟨raw_run hfuel hrun hsmall, b.read_le_write, b.write_le_size, queue_run hrun,
    fun len hlen => ⟨_, raw_enableWrite hfuel b len hlen, ?_, readable_enableWrite b len⟩⟩
  rw [raw_writableBytes _ hlen]
  exact le_writableBytes_enableWrite b len

/-- A scatter read that spills, a compaction and a growth. -/
def spillCompactGrow : List BufferOp :=
  [.receive (List.replicate 5000 1), .moveReadPtr 4999, .enableWrite 5000, .enableWrite 7000]

theorem buffer_refines_queue_spillCompactGrow :
    ∃ b : Buffer, run step create spillCompactGrow = some b ∧
      run (RawBuffer.step (2 ^ 52)) RawBuffer.create spillCompactGrow = some b.raw ∧
      run queueStep [] spillCompactGrow = some [1] := by
  have hlast : ((run step create spillCompactGrow).any fun b =>
      decide (b.data.length < 2 ^ 52 ∧ b.readable = [1])) = true := by
    decide +kernel
  obtain ⟨b, hrun, hb⟩ := exists_of_run_any hlast
  obtain ⟨hsmall, hreadable⟩ := of_decide_eq_true hb
  have h := buffer_refines_queue spillCompactGrow b hrun hsmall (2 ^ 52) (Nat.le_refl _)
  exact ⟨b, hrun, h.1, h.2.2.2.1.trans (congrArg some hreadable)⟩

end Buffer

end EchoNet.Net
