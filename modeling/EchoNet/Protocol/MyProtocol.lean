import EchoNet.Lib.BigEndian
import Mathlib.Tactic.SplitIfs

/-!
# The Wire Protocol

`MyProtocol::parse` and `MyProtocol::encodeMessage` (src/Protocol/MyProtocol.cpp).

A frame is `| 4-byte length | 2-byte type | 4-byte request id | payload |`, all numbers
in network byte order, the length counting type, id and payload.  A `Buffer` is modelled
by its readable bytes.

## Main results

- `parse_encodeMessage`: a frame in front of anything parses to its message.
- `parse_append_ok`, `parse_append_error`: a verdict other than `needMore` does not
  depend on the bytes that arrive later.
-/

namespace EchoNet.Protocol

open EchoNet.Lib

/-! ## §1 Messages -/

/-- `enum class MyType : uint16_t`. -/
inductive MyType where
  | loginReq | loginResp
  | createRoomReq | createRoomResp
  | joinRoomReq | joinRoomResp
  | leaveRoomReq | leaveRoomResp
  | sendMsgReq | sendMsgResp
  | broadcastMsg
  | heartbeatReq | heartbeatResp
  | errorResp
  | memberCountUpdate
  deriving DecidableEq, Repr

namespace MyType

/-- The number of a message type on the wire. -/
def code : MyType → Nat
  | loginReq => 0x01
  | loginResp => 0x02
  | createRoomReq => 0x03
  | createRoomResp => 0x04
  | joinRoomReq => 0x05
  | joinRoomResp => 0x06
  | leaveRoomReq => 0x07
  | leaveRoomResp => 0x08
  | sendMsgReq => 0x09
  | sendMsgResp => 0x0A
  | broadcastMsg => 0x0B
  | heartbeatReq => 0x0C
  | heartbeatResp => 0x0D
  | errorResp => 0x0E
  | memberCountUpdate => 0x0F

/-- `isValidMsgType` followed by the `static_cast`: the type of a valid number. -/
def ofCode : Nat → Option MyType
  | 0x01 => some loginReq
  | 0x02 => some loginResp
  | 0x03 => some createRoomReq
  | 0x04 => some createRoomResp
  | 0x05 => some joinRoomReq
  | 0x06 => some joinRoomResp
  | 0x07 => some leaveRoomReq
  | 0x08 => some leaveRoomResp
  | 0x09 => some sendMsgReq
  | 0x0A => some sendMsgResp
  | 0x0B => some broadcastMsg
  | 0x0C => some heartbeatReq
  | 0x0D => some heartbeatResp
  | 0x0E => some errorResp
  | 0x0F => some memberCountUpdate
  | _ => none

@[simp] theorem ofCode_code (t : MyType) : ofCode t.code = some t := by
  cases t <;> rfl

theorem code_lt (t : MyType) : t.code < 256 ^ 2 := by
  cases t <;> decide

end MyType

/-- `struct MyMessage`. -/
structure MyMessage where
  type : MyType
  id : UInt32
  payload : Bytes
  deriving DecidableEq, Repr

/-! ## §2 Encoding and parsing -/

/-- `MAX_BODY_SIZE`: 16 MiB. -/
def maxBodySize : Nat := 16 * 1024 * 1024

/-- `MyProtocol::encodeMessage`.  The length field is a `uint32_t`, so it is taken
modulo `2 ^ 32`. -/
def encodeMessage (msg : MyMessage) : Bytes :=
  beEncode 4 (6 + msg.payload.length) ++ (beEncode 2 msg.type.code ++
    (beEncode 4 msg.id.toNat ++ msg.payload))

theorem encodeMessage_ne_nil (msg : MyMessage) : encodeMessage msg ≠ [] := by
  simp [encodeMessage, beEncode]

/-- What `parse` reports, with what it leaves in the buffer.  `needMore` leaves the
buffer as it was. -/
inductive ParseResult where
  | ok (msg : MyMessage) (rest : Bytes)
  | needMore
  | error (rest : Bytes)
  deriving DecidableEq, Repr

/-- `MyProtocol::parse`. -/
def parse (buf : Bytes) : ParseResult :=
  if buf.length < 4 then .needMore
  else
    let bodyLen := beDecode (buf.take 4)
    if maxBodySize < bodyLen then .error buf
    else if bodyLen < 6 then .error buf
    else if buf.length < 4 + bodyLen then .needMore
    else
      -- the whole frame has arrived: consume it field by field
      let buf := buf.drop 4
      let typeRaw := beDecode (buf.take 2)
      let buf := buf.drop 2
      let id := UInt32.ofNat (beDecode (buf.take 4))
      let buf := buf.drop 4
      let payload := buf.take (bodyLen - 6)
      let buf := buf.drop (bodyLen - 6)
      match MyType.ofCode typeRaw with
      | none => .error buf
      | some type => .ok ⟨type, id, payload⟩ buf

/-- A message whose frame the parser accepts: its body fits the size limit. -/
def MyMessage.Fits (msg : MyMessage) : Prop := 6 + msg.payload.length ≤ maxBodySize

instance (msg : MyMessage) : Decidable msg.Fits := inferInstanceAs (Decidable (_ ≤ _))

/-! ## §3 Round trip -/

/-- A frame in front of any bytes parses to exactly its message and leaves exactly
those bytes. -/
theorem parse_encodeMessage (msg : MyMessage) (hfits : msg.Fits) (rest : Bytes) :
    parse (encodeMessage msg ++ rest) = .ok msg rest := by
  unfold MyMessage.Fits maxBodySize at hfits
  have hlen : beDecode (beEncode 4 (6 + msg.payload.length)) = 6 + msg.payload.length := by
    rw [beDecode_beEncode]
    exact Nat.mod_eq_of_lt (by omega)
  have htype : beDecode (beEncode 2 msg.type.code) = msg.type.code := by
    rw [beDecode_beEncode]
    exact Nat.mod_eq_of_lt msg.type.code_lt
  have hid : UInt32.ofNat (beDecode (beEncode 4 msg.id.toNat)) = msg.id := by
    rw [beDecode_beEncode, Nat.mod_eq_of_lt (by simpa using msg.id.toNat_lt)]
    exact UInt32.ofNat_toNat
  -- each field is in front of what follows it, so `take`/`drop` by its width cut it off
  have hcut : ∀ (w n : Nat) (bs : Bytes), (beEncode w n ++ bs).take w = beEncode w n ∧
      (beEncode w n ++ bs).drop w = bs := by
    intro w n bs
    exact ⟨List.take_left' (beEncode_length w n), List.drop_left' (beEncode_length w n)⟩
  unfold parse encodeMessage
  simp only [List.append_assoc, (hcut _ _ _).1, (hcut _ _ _).2, hlen, htype, hid,
    MyType.ofCode_code, List.length_append, beEncode_length, Nat.add_sub_cancel_left,
    List.take_left, List.drop_left, maxBodySize]
  rw [if_neg (by omega), if_neg (by omega), if_neg (by omega), if_neg (by omega)]

/-! ## §4 Later bytes do not change a verdict -/

/-- The header is read from the first four bytes only. -/
private theorem take_append_of_le {n : Nat} {bs : Bytes} (h : n ≤ bs.length) (more : Bytes) :
    (bs ++ more).take n = bs.take n :=
  List.take_append_of_le_length h

private theorem drop_append_of_le {n : Nat} {bs : Bytes} (h : n ≤ bs.length) (more : Bytes) :
    (bs ++ more).drop n = bs.drop n ++ more :=
  List.drop_append_of_le_length h

/-- The part of `parse` behind the length checks, on a buffer that holds the frame. -/
def parseFrame (bodyLen : Nat) (buf : Bytes) : ParseResult :=
  match MyType.ofCode (beDecode ((buf.drop 4).take 2)) with
  | none => .error ((((buf.drop 4).drop 2).drop 4).drop (bodyLen - 6))
  | some type => .ok ⟨type, UInt32.ofNat (beDecode (((buf.drop 4).drop 2).take 4)),
      (((buf.drop 4).drop 2).drop 4).take (bodyLen - 6)⟩
      ((((buf.drop 4).drop 2).drop 4).drop (bodyLen - 6))

theorem parse_eq (buf : Bytes) :
    parse buf =
      if buf.length < 4 then .needMore
      else if maxBodySize < beDecode (buf.take 4) then .error buf
      else if beDecode (buf.take 4) < 6 then .error buf
      else if buf.length < 4 + beDecode (buf.take 4) then .needMore
      else parseFrame (beDecode (buf.take 4)) buf := rfl

/-- What is left of a buffer after `more` has been appended behind it. -/
def ParseResult.append : ParseResult → Bytes → ParseResult
  | .ok msg rest, more => .ok msg (rest ++ more)
  | .needMore, _ => .needMore
  | .error rest, more => .error (rest ++ more)

private theorem parseFrame_append {bodyLen : Nat} {buf : Bytes} (hbody : 6 ≤ bodyLen)
    (hlen : 4 + bodyLen ≤ buf.length) (more : Bytes) :
    parseFrame bodyLen (buf ++ more) = (parseFrame bodyLen buf).append more := by
  have h4 : (buf ++ more).drop 4 = buf.drop 4 ++ more := drop_append_of_le (by omega) more
  have h6 : (buf.drop 4 ++ more).drop 2 = (buf.drop 4).drop 2 ++ more :=
    drop_append_of_le (by simp; omega) more
  have h10 : ((buf.drop 4).drop 2 ++ more).drop 4 = ((buf.drop 4).drop 2).drop 4 ++ more :=
    drop_append_of_le (by simp; omega) more
  have hrest : (((buf.drop 4).drop 2).drop 4 ++ more).drop (bodyLen - 6) =
      (((buf.drop 4).drop 2).drop 4).drop (bodyLen - 6) ++ more :=
    drop_append_of_le (by simp; omega) more
  have htype : (buf.drop 4 ++ more).take 2 = (buf.drop 4).take 2 :=
    take_append_of_le (by simp; omega) more
  have hid : ((buf.drop 4).drop 2 ++ more).take 4 = ((buf.drop 4).drop 2).take 4 :=
    take_append_of_le (by simp; omega) more
  have hpayload : (((buf.drop 4).drop 2).drop 4 ++ more).take (bodyLen - 6) =
      (((buf.drop 4).drop 2).drop 4).take (bodyLen - 6) :=
    take_append_of_le (by simp; omega) more
  unfold parseFrame
  rw [h4, h6, h10, hrest, htype, hid, hpayload]
  cases MyType.ofCode (beDecode ((buf.drop 4).take 2)) with
  | none => rfl
  | some type => rfl

/-- Bytes that arrive later do not change a verdict other than `needMore`. -/
theorem parse_append {buf : Bytes} (h : parse buf ≠ .needMore) (more : Bytes) :
    parse (buf ++ more) = (parse buf).append more := by
  rw [parse_eq] at h ⊢
  rw [parse_eq buf]
  split_ifs at h with hshort hlarge hsmall hframe
  · exact absurd rfl h
  · have htake : (buf ++ more).take 4 = buf.take 4 := take_append_of_le (by omega) more
    rw [htake, List.length_append, if_neg (by omega), if_pos hlarge, if_neg hshort, if_pos hlarge]
    rfl
  · have htake : (buf ++ more).take 4 = buf.take 4 := take_append_of_le (by omega) more
    rw [htake, List.length_append, if_neg (by omega), if_neg hlarge, if_pos hsmall, if_neg hshort,
      if_neg hlarge, if_pos hsmall]
    rfl
  · exact absurd rfl h
  · have htake : (buf ++ more).take 4 = buf.take 4 := take_append_of_le (by omega) more
    rw [htake, List.length_append, if_neg (by omega), if_neg hlarge, if_neg hsmall,
      if_neg (by omega), if_neg hshort, if_neg hlarge, if_neg hsmall, if_neg hframe]
    exact parseFrame_append (by omega) (by omega) more

theorem parse_append_ok {buf rest : Bytes} {msg : MyMessage} (h : parse buf = .ok msg rest)
    (more : Bytes) : parse (buf ++ more) = .ok msg (rest ++ more) := by
  rw [parse_append (by rw [h]; exact ParseResult.noConfusion), h]
  rfl

theorem parse_append_error {buf rest : Bytes} (h : parse buf = .error rest) (more : Bytes) :
    parse (buf ++ more) = .error (rest ++ more) := by
  rw [parse_append (by rw [h]; exact ParseResult.noConfusion), h]
  rfl

/-- Parsing a message shortens the buffer. -/
theorem parse_ok_length_lt {buf rest : Bytes} {msg : MyMessage} (h : parse buf = .ok msg rest) :
    rest.length < buf.length := by
  rw [parse_eq] at h
  split_ifs at h with hshort hlarge hsmall hframe
  unfold parseFrame at h
  cases htype : MyType.ofCode (beDecode ((buf.drop 4).take 2)) with
  | none => simp [htype] at h
  | some type =>
    simp only [htype, ParseResult.ok.injEq] at h
    rw [← h.2]
    simp only [List.length_drop]
    omega

/-- A rejected frame leaves the buffer no longer than it was. -/
theorem parse_error_length_le {buf rest : Bytes} (h : parse buf = .error rest) :
    rest.length ≤ buf.length := by
  rw [parse_eq] at h
  split_ifs at h with hshort hlarge hsmall hframe
  · cases h
    exact Nat.le_refl _
  · cases h
    exact Nat.le_refl _
  · unfold parseFrame at h
    cases htype : MyType.ofCode (beDecode ((buf.drop 4).take 2)) with
    | some type => simp [htype] at h
    | none =>
      simp only [htype, ParseResult.error.injEq] at h
      rw [← h]
      simp only [List.length_drop]
      omega

/-! ## §5 Streams of frames -/

/-- The bytes of a list of frames. -/
def encodeAll (msgs : List MyMessage) : Bytes := msgs.flatMap encodeMessage

@[simp] theorem encodeAll_nil : encodeAll [] = [] := rfl

@[simp] theorem encodeAll_cons (m : MyMessage) (ms : List MyMessage) :
    encodeAll (m :: ms) = encodeMessage m ++ encodeAll ms := rfl

theorem encodeAll_append (ms ns : List MyMessage) :
    encodeAll (ms ++ ns) = encodeAll ms ++ encodeAll ns := by
  simp [encodeAll]

/-- A stream of acceptable frames followed by a tail that is no complete frame. -/
structure Stream where
  frames : List MyMessage
  tail : Bytes
  fits : ∀ m ∈ frames, m.Fits
  incomplete : parse tail = .needMore

/-- What `parse` says of the first part of a stream of frames: either the first frame
is complete and comes out, or more bytes are needed.  It never reports an error. -/
theorem parse_stream_part {frames : List MyMessage} {tail buf later : Bytes}
    (hfits : ∀ m ∈ frames, m.Fits) (htail : parse tail = .needMore)
    (hbytes : buf ++ later = encodeAll frames ++ tail) :
    (∃ m ms rest, frames = m :: ms ∧ parse buf = .ok m rest ∧
      rest ++ later = encodeAll ms ++ tail) ∨ parse buf = .needMore := by
  cases hres : parse buf with
  | needMore => exact Or.inr rfl
  | error rest =>
    -- the verdict would survive the later bytes, but the whole stream has none
    have hall := parse_append_error hres later
    rw [hbytes] at hall
    cases frames with
    | nil => simp [htail] at hall
    | cons m ms =>
      rw [encodeAll_cons, List.append_assoc,
        parse_encodeMessage m (hfits m (List.mem_cons_self ..))] at hall
      cases hall
  | ok msg rest =>
    have hall := parse_append_ok hres later
    rw [hbytes] at hall
    cases frames with
    | nil => simp [htail] at hall
    | cons m ms =>
      rw [encodeAll_cons, List.append_assoc,
        parse_encodeMessage m (hfits m (List.mem_cons_self ..))] at hall
      simp only [ParseResult.ok.injEq] at hall
      obtain ⟨rfl, hrest⟩ := hall
      exact Or.inl ⟨m, ms, rest, rfl, rfl, hrest.symm⟩

/-- Once every byte has arrived, `needMore` means that no complete frame is left. -/
theorem frames_nil_of_needMore {frames : List MyMessage} {t : Bytes}
    (hfits : ∀ m ∈ frames, m.Fits) (h : parse (encodeAll frames ++ t) = .needMore) :
    frames = [] := by
  cases frames with
  | nil => rfl
  | cons m ms =>
    rw [encodeAll_cons, List.append_assoc,
      parse_encodeMessage m (hfits m (List.mem_cons_self ..))] at h
    cases h

end EchoNet.Protocol
