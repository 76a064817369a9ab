import EchoNet.Net.Buffer
import EchoNet.Protocol.MyProtocol

/-!
# Parsing a Buffer

`MyProtocol::parse` as the source has it: it moves the read pointer of a `Buffer` field by
field, and the buffer may start over in the middle of a frame.  `parseBuffer_refines` says that
this is `parse` on the unread bytes.

## Main result

`parse_round_trip`: what the encoder writes the parser reads, and what the parser accepts the
encoder would have written.
-/

namespace EchoNet.Protocol

open EchoNet.Lib EchoNet.Net

/-! ## §1 The parser -/

/-- `ParseResult`, with the message that `getMessage` returns after `OK`. -/
inductive Verdict where
  | ok (msg : MyMessage)
  | needMore
  | error
  deriving DecidableEq, Repr

private theorem le_getreadable_moveReadPtr {buf : Buffer} {n k : Nat}
    (h : n + k ≤ buf.getreadable) :
    k ≤ (buf.moveReadPtr n (Nat.le_of_add_right_le h)).getreadable := by
  rw [Buffer.getreadable_moveReadPtr]
  omega

/-- The length, the type, the id and the payload of a frame, one after the other. -/
private theorem frame_fields {bodyLen n : Nat} (hmin : 6 ≤ bodyLen) (hframe : 4 + bodyLen ≤ n) :
    4 + (2 + (4 + (bodyLen - 6))) ≤ n := by
  omega

/-- The last step of `MyProtocol::parse`: the whole frame has arrived and is consumed. -/
def consumeFrame (buf : Buffer) (bodyLen : Nat) (hmin : 6 ≤ bodyLen)
    (hframe : 4 + bodyLen ≤ buf.getreadable) : Verdict × Buffer :=
  have hfields := frame_fields hmin hframe
  let afterLen := buf.moveReadPtr 4 (Nat.le_of_add_right_le hfields)
  have hlen := le_getreadable_moveReadPtr hfields
  let typeRaw := beDecode (afterLen.peek 2)
  let afterType := afterLen.moveReadPtr 2 (Nat.le_of_add_right_le hlen)
  have htype := le_getreadable_moveReadPtr hlen
  let id := UInt32.ofNat (beDecode (afterType.peek 4))
  let afterId := afterType.moveReadPtr 4 (Nat.le_of_add_right_le htype)
  have hid := le_getreadable_moveReadPtr htype
  let payload := afterId.peek (bodyLen - 6)
  let rest :=
    if 0 < bodyLen - 6 then afterId.moveReadPtr (bodyLen - 6) hid else afterId
  match MyType.ofCode typeRaw with
  | none => (.error, rest)
  | some type => (.ok ⟨type, id, payload⟩, rest)

/-- `MyProtocol::parse`. -/
def parseBuffer (buf : Buffer) : Verdict × Buffer :=
  if buf.getreadable < 4 then (.needMore, buf)
  else
    let bodyLen := beDecode (buf.peek 4)
    if maxBodySize < bodyLen then (.error, buf)
    else if hmin : bodyLen < 6 then (.error, buf)
    else if hframe : buf.getreadable < 4 + bodyLen then (.needMore, buf)
    else consumeFrame buf bodyLen (by omega) (by omega)

/-! ## §2 Refinement -/

/-- A verdict and a buffer say what a parse of bytes says; `needMore` leaves the buffer itself
untouched. -/
def ParseResult.RefinedBy (buf : Buffer) (out : Verdict × Buffer) : ParseResult → Prop
  | .ok msg rest => out.1 = .ok msg ∧ out.2.readable = rest
  | .needMore => out = (.needMore, buf)
  | .error rest => out.1 = .error ∧ out.2.readable = rest

private theorem consumeFrame_refines (buf : Buffer) (bodyLen : Nat) (hmin : 6 ≤ bodyLen)
    (hframe : 4 + bodyLen ≤ buf.getreadable) :
    (parseFrame bodyLen buf.readable).RefinedBy buf (consumeFrame buf bodyLen hmin hframe) := by
  -- the fields are read from what the moves before have left
  have htype : (buf.moveReadPtr 4 (by omega)).peek 2 = (buf.readable.drop 4).take 2 := by
    rw [Buffer.peek_eq_take (by rw [Buffer.getreadable_moveReadPtr]; omega),
      Buffer.readable_moveReadPtr]
  have hid : ((buf.moveReadPtr 4 (by omega)).moveReadPtr 2
      (by rw [Buffer.getreadable_moveReadPtr]; omega)).peek 4 =
      ((buf.readable.drop 4).drop 2).take 4 := by
    rw [Buffer.peek_eq_take (by simp only [Buffer.getreadable_moveReadPtr]; omega)]
    simp only [Buffer.readable_moveReadPtr]
  generalize hafter : ((buf.moveReadPtr 4 (by omega)).moveReadPtr 2
    (by rw [Buffer.getreadable_moveReadPtr]; omega)).moveReadPtr 4
      (by simp only [Buffer.getreadable_moveReadPtr]; omega) = afterId
  have hreadable : afterId.readable = ((buf.readable.drop 4).drop 2).drop 4 := by
    rw [← hafter]
    simp only [Buffer.readable_moveReadPtr]
  have hget : bodyLen - 6 ≤ afterId.getreadable := by
    rw [← hafter]
    simp only [Buffer.getreadable_moveReadPtr]
    omega
  have hpayload : afterId.peek (bodyLen - 6) =
      (((buf.readable.drop 4).drop 2).drop 4).take (bodyLen - 6) := by
    rw [Buffer.peek_eq_take hget, hreadable]
  -- an empty payload moves no pointer
  have hrest : (if h : 0 < bodyLen - 6 then afterId.moveReadPtr (bodyLen - 6) hget
      else afterId).readable = (((buf.readable.drop 4).drop 2).drop 4).drop (bodyLen - 6) := by
    split_ifs with hpos
    · rw [Buffer.readable_moveReadPtr, hreadable]
    · rw [hreadable, Nat.eq_zero_of_not_pos hpos, List.drop_zero]
  unfold consumeFrame parseFrame
  simp only [htype, hid, hafter, hpayload]
  cases MyType.ofCode (beDecode ((buf.readable.drop 4).take 2)) with
  | none => exact ⟨rfl, hrest⟩
  | some type => exact ⟨rfl, hrest⟩

/-- Parsing a buffer is parsing its unread bytes. -/
theorem parseBuffer_refines (buf : Buffer) :
    (parse buf.readable).RefinedBy buf (parseBuffer buf) := by
  rw [parse_eq, Buffer.length_readable]
  unfold parseBuffer
  by_cases hshort : buf.getreadable < 4
  · rw [if_pos hshort, if_pos hshort]
    rfl
  · rw [if_neg hshort, if_neg hshort, ← Buffer.peek_eq_take (by omega : 4 ≤ buf.getreadable)]
    dsimp only
    split_ifs with hlarge hsmall hframe
    · exact ⟨rfl, rfl⟩
    · exact ⟨rfl, rfl⟩
    · rfl
    · exact consumeFrame_refines buf _ _ _

/-- What a verdict on the buffer says of its unread bytes. -/
theorem parse_of_ok {buf : Buffer} {msg : MyMessage} (h : (parseBuffer buf).1 = .ok msg) :
    parse buf.readable = .ok msg (parseBuffer buf).2.readable := by
  have hrefines := parseBuffer_refines buf
  cases hparse : parse buf.readable with
  | ok msg' rest =>
    rw [hparse] at hrefines
    obtain ⟨hmsg, hrest⟩ := hrefines
    rw [h, Verdict.ok.injEq] at hmsg
    rw [hmsg, hrest]
  | needMore =>
    rw [hparse] at hrefines
    rw [show parseBuffer buf = (.needMore, buf) from hrefines] at h
    cases h
  | error rest =>
    rw [hparse] at hrefines
    rw [hrefines.1] at h
    cases h

theorem parse_of_needMore {buf : Buffer} (h : (parseBuffer buf).1 = .needMore) :
    parse buf.readable = .needMore ∧ (parseBuffer buf).2 = buf := by
  have hrefines := parseBuffer_refines buf
  cases hparse : parse buf.readable with
  | ok msg rest =>
    rw [hparse] at hrefines
    rw [hrefines.1] at h
    cases h
  | needMore =>
    rw [hparse] at hrefines
    rw [show parseBuffer buf = (.needMore, buf) from hrefines]
    exact ⟨rfl, rfl⟩
  | error rest =>
    rw [hparse] at hrefines
    rw [hrefines.1] at h
    cases h

theorem parse_of_error {buf : Buffer} (h : (parseBuffer buf).1 = .error) :
    parse buf.readable = .error (parseBuffer buf).2.readable := by
  have hrefines := parseBuffer_refines buf
  cases hparse : parse buf.readable with
  | ok msg rest =>
    rw [hparse] at hrefines
    rw [hrefines.1] at h
    cases h
  | needMore =>
    rw [hparse] at hrefines
    rw [show parseBuffer buf = (.needMore, buf) from hrefines] at h
    cases h
  | error rest =>
    rw [hparse] at hrefines
    rw [hrefines.2]

/-! ## §3 What the parser accepts -/

/-- A valid number is the number of its type. -/
theorem MyType.code_ofCode {n : Nat} {type : MyType} (h : MyType.ofCode n = some type) :
    type.code = n := by
  unfold MyType.ofCode at h
  split at h <;> cases h <;> rfl

/-- A fixed-width field is the encoding of the number read from it. -/
private theorem beEncode_field {w : Nat} {bs : Bytes} (h : w ≤ bs.length) :
    beEncode w (beDecode (bs.take w)) = bs.take w := by
  have hlen : (bs.take w).length = w := by rw [List.length_take, Nat.min_eq_left h]
  have hcanon := beEncode_beDecode (bs.take w)
  rwa [hlen] at hcanon

/-- The parser accepts only what the encoder writes. -/
theorem parse_eq_ok {buf rest : Bytes} {msg : MyMessage} (h : parse buf = .ok msg rest) :
    msg.Fits ∧ buf = encodeMessage msg ++ rest := by
  rw [parse_eq] at h
  split_ifs at h with hshort hlarge hsmall hframe
  generalize hbody : beDecode (buf.take 4) = bodyLen at *
  unfold parseFrame at h
  cases htype : MyType.ofCode (beDecode ((buf.drop 4).take 2)) with
  | none => simp [htype] at h
  | some type =>
    simp only [htype, ParseResult.ok.injEq] at h
    obtain ⟨rfl, rfl⟩ := h
    have hpayload : ((((buf.drop 4).drop 2).drop 4).take (bodyLen - 6)).length = bodyLen - 6 := by
      simp only [List.length_take, List.length_drop]
      omega
    refine ⟨?_, ?_⟩
    · simp only [MyMessage.Fits, hpayload]
      omega
    -- field by field, the encoder writes what was read
    · have hlenField : beEncode 4 (6 + (bodyLen - 6)) = buf.take 4 := by
        rw [show 6 + (bodyLen - 6) = bodyLen by omega, ← hbody]
        exact beEncode_field (by omega)
      have htypeField : beEncode 2 type.code = (buf.drop 4).take 2 := by
        rw [MyType.code_ofCode htype]
        exact beEncode_field (by rw [List.length_drop]; omega)
      -- the id of four bytes fits a `uint32_t`
      have hidField : beEncode 4 (UInt32.ofNat (beDecode (((buf.drop 4).drop 2).take 4))).toNat =
          ((buf.drop 4).drop 2).take 4 := by
        have hlt : beDecode (((buf.drop 4).drop 2).take 4) < 256 ^ 4 :=
          Nat.lt_of_lt_of_le (beDecode_lt _)
            (Nat.pow_le_pow_right (by decide) (List.length_take_le ..))
        rw [UInt32.toNat_ofNat_of_lt' (by simpa using hlt)]
        exact beEncode_field (by simp only [List.length_drop]; omega)
      simp only [encodeMessage, hpayload, hlenField, htypeField, hidField, List.append_assoc,
        List.take_append_drop]

/-- **Round trip in both directions**: a buffer that holds the frame of a message whose body
fits, in front of anything, parses to exactly that message and leaves exactly the rest; and
whenever the parser returns a message, what it consumed is the frame of that message. -/
theorem parse_round_trip :
    (∀ (type : MyType) (id : UInt32) (payload rest : Bytes) (buf : Buffer),
      6 + payload.length ≤ maxBodySize →
      buf.readable = encodeMessage ⟨type, id, payload⟩ ++ rest →
      (parseBuffer buf).1 = .ok ⟨type, id, payload⟩ ∧ (parseBuffer buf).2.readable = rest) ∧
    (∀ (buf : Buffer) (msg : MyMessage), (parseBuffer buf).1 = .ok msg →
      buf.readable = encodeMessage msg ++ (parseBuffer buf).2.readable) := by
  constructor
  · intro type id payload rest buf hfits hbuf
    have hrefines := parseBuffer_refines buf
    rw [hbuf, parse_encodeMessage ⟨type, id, payload⟩ hfits rest] at hrefines
    exact hrefines
  · intro buf msg hok
    exact (parse_eq_ok (parse_of_ok hok)).2

/-- A heartbeat and three bytes of the next frame, in a fresh buffer. -/
theorem parse_round_trip_heartbeat :
    (parseBuffer (Buffer.create.bufferAppend
        (encodeMessage ⟨.heartbeatReq, 7, []⟩ ++ [0, 0, 0]))).1 = .ok ⟨.heartbeatReq, 7, []⟩ ∧
      (parseBuffer (Buffer.create.bufferAppend
        (encodeMessage ⟨.heartbeatReq, 7, []⟩ ++ [0, 0, 0]))).2.readable = [0, 0, 0] := by
  refine parse_round_trip.1 .heartbeatReq 7 [] [0, 0, 0] _ (by decide) ?_
  rw [Buffer.readable_bufferAppend, Buffer.readable_create, List.nil_append]

end EchoNet.Protocol
