import EchoNet.Lib.Framing
import EchoNet.Protocol.BufferParse

/-!
# Chunking Independence

`Connection::read` appends what `readv` returns to `inBuffer_` and parses until the parser no
longer returns `OK`.  Half packets and sticky packets cut frames anywhere; the messages, the
final verdict and the unread bytes depend on the stream only.

The parser is an instance of `EchoNet.Lib.Framer`, and the loop over the buffer refines its
`drain`.

## Main result

`chunking_independence`.
-/

namespace EchoNet.Protocol

open EchoNet.Lib EchoNet.Net

/-! ## §1 The parser as a framer -/

/-- What `parse` says of the front of a stream. -/
def ParseResult.front : ParseResult → Front UInt8 MyMessage
  | .ok msg rest => .frame msg rest
  | .needMore => .incomplete
  | .error _ => .invalid

theorem ParseResult.front_eq_frame {res : ParseResult} {msg : MyMessage} {rest : Bytes}
    (h : res.front = .frame msg rest) : res = .ok msg rest := by
  cases res <;> cases h
  rfl

theorem ParseResult.front_eq_invalid {res : ParseResult} (h : res.front = .invalid) :
    ∃ rest, res = .error rest := by
  cases res with
  | ok msg rest => cases h
  | needMore => cases h
  | error rest => exact ⟨rest, rfl⟩

/-- `MyProtocol` frames a stream of bytes. -/
def framer : Framer UInt8 MyMessage where
  front bs := (parse bs).front
  front_nil := rfl
  shorter h := parse_ok_length_lt (ParseResult.front_eq_frame h)
  frame_append h more := by
    rw [parse_append_ok (ParseResult.front_eq_frame h) more]
    rfl
  invalid_append h more := by
    obtain ⟨rest, hres⟩ := ParseResult.front_eq_invalid h
    rw [parse_append_error hres more]
    rfl

/-! ## §2 The parse loop -/

/-- A frame takes at least ten bytes. -/
theorem length_encodeMessage (msg : MyMessage) :
    (encodeMessage msg).length = 10 + msg.payload.length := by
  simp only [encodeMessage, List.length_append, beEncode_length]
  omega

theorem getreadable_of_ok {buf : Buffer} {msg : MyMessage} (h : (parseBuffer buf).1 = .ok msg) :
    10 + (parseBuffer buf).2.getreadable ≤ buf.getreadable := by
  have hbytes := (parse_eq_ok (parse_of_ok h)).2
  have hlen := congrArg List.length hbytes
  rw [List.length_append, length_encodeMessage, Buffer.length_readable, Buffer.length_readable]
    at hlen
  omega

/-- What the parse loop of `Connection::read` leaves: the messages it has enqueued, whether it
has met a protocol error, and the buffer. -/
structure Parsed where
  messages : List MyMessage
  failed : Bool
  buffer : Buffer

/-- The parse loop of `Connection::read`. -/
def parseLoop (buf : Buffer) : Parsed :=
  match h : (parseBuffer buf).1 with
  | .ok msg =>
    have := getreadable_of_ok h
    let rest := parseLoop (parseBuffer buf).2
    { rest with messages := msg :: rest.messages }
  | .needMore => ⟨[], false, (parseBuffer buf).2⟩
  | .error => ⟨[], true, (parseBuffer buf).2⟩
termination_by buf.getreadable

/-- A state of the loop says where the framed stream stands. -/
def Parsed.residue (p : Parsed) : Residue UInt8 :=
  if p.failed then .broken else .waiting p.buffer.readable

/-- The loop drains the unread bytes. -/
theorem parseLoop_refines (buf : Buffer) :
    framer.drain buf.readable = ((parseLoop buf).messages, (parseLoop buf).residue) := by
  fun_induction parseLoop buf with
  | case1 buf msg h hshort rest ih =>
    have hfront : framer.front buf.readable = .frame msg (parseBuffer buf).2.readable := by
      show (parse buf.readable).front = _
      rw [parse_of_ok h]
      rfl
    rw [framer.drain_frame hfront, ih]
    rfl
  | case2 buf h =>
    obtain ⟨hparse, hbuf⟩ := parse_of_needMore h
    have hfront : framer.front buf.readable = .incomplete := by
      show (parse buf.readable).front = _
      rw [hparse]
      rfl
    rw [framer.drain_incomplete hfront, hbuf]
    rfl
  | case3 buf h =>
    have hfront : framer.front buf.readable = .invalid := by
      show (parse buf.readable).front = _
      rw [parse_of_error h]
      rfl
    rw [framer.drain_invalid hfront]
    rfl

/-- The loop stops: every message it finds takes ten bytes or more out of the buffer. -/
theorem parseLoop_length (buf : Buffer) :
    10 * (parseLoop buf).messages.length ≤ buf.getreadable := by
  fun_induction parseLoop buf with
  | case1 buf msg h hshort rest ih =>
    show 10 * (msg :: (parseLoop (parseBuffer buf).2).messages).length ≤ buf.getreadable
    rw [List.length_cons]
    omega
  | case2 buf h => exact Nat.zero_le _
  | case3 buf h => exact Nat.zero_le _

/-! ## §3 Chunk by chunk -/

/-- A chunk arrives: it is appended and parsed, unless the stream has failed before. -/
def Parsed.receive (p : Parsed) (chunk : Bytes) : Parsed :=
  if p.failed then p
  else
    let more := parseLoop (p.buffer.receive chunk)
    { more with messages := p.messages ++ more.messages }

/-- The chunks of a stream, one after another. -/
def Parsed.receiveAll (p : Parsed) (chunks : List Bytes) : Parsed := chunks.foldl Parsed.receive p

/-- Before anything has arrived. -/
def Parsed.start : Parsed := ⟨[], false, Buffer.create⟩

theorem Parsed.receive_refines (p : Parsed) (chunk : Bytes) :
    (p.receive chunk).messages = p.messages ++ (framer.feed p.residue chunk).1 ∧
      (p.receive chunk).residue = (framer.feed p.residue chunk).2 := by
  unfold Parsed.receive
  split_ifs with hfailed
  -- after a protocol error nothing is read any more
  · rw [show p.residue = .broken from if_pos hfailed]
    exact ⟨(List.append_nil _).symm, rfl⟩
  -- otherwise the loop sees the unread bytes and the chunk behind them
  · have hdrain := parseLoop_refines (p.buffer.receive chunk)
    rw [Buffer.readable_receive] at hdrain
    rw [show p.residue = .waiting p.buffer.readable from if_neg hfailed]
    simp only [Framer.feed, hdrain]
    exact ⟨trivial, rfl⟩

theorem Parsed.receiveAll_refines (p : Parsed) (chunks : List Bytes) :
    (p.receiveAll chunks).messages = p.messages ++ (framer.feedAll p.residue chunks).1 ∧
      (p.receiveAll chunks).residue = (framer.feedAll p.residue chunks).2 := by
  induction chunks generalizing p with
  | nil => exact ⟨(List.append_nil _).symm, rfl⟩
  | cons chunk chunks ih =>
    obtain ⟨hmsgs, hres⟩ := p.receive_refines chunk
    obtain ⟨hmsgs', hres'⟩ := ih (p.receive chunk)
    refine ⟨?_, ?_⟩
    · show ((p.receive chunk).receiveAll chunks).messages = _
      rw [hmsgs', hmsgs, hres, List.append_assoc]
      rfl
    · show ((p.receive chunk).receiveAll chunks).residue = _
      rw [hres', hres]
      rfl

/-- However the chunks are cut, the loop drains the stream. -/
theorem Parsed.receiveAll_start (chunks : List Bytes) :
    (start.receiveAll chunks).messages = (framer.drain chunks.flatten).1 ∧
      (start.receiveAll chunks).residue = (framer.drain chunks.flatten).2 := by
  rw [← framer.feedAll_eq_drain chunks]
  exact start.receiveAll_refines chunks

/-- **Chunking independence**: two ways of cutting a stream give the same messages and the same
verdict, and if the verdict is that more is needed, the same unread bytes; a `NEED_MORE` leaves
the readable bytes as they are, and the parse loop stops after one parse for every message,
each at least ten bytes long, and one more. -/
theorem chunking_independence :
    (∀ xs ys : List Bytes, xs.flatten = ys.flatten →
      (Parsed.start.receiveAll xs).messages = (Parsed.start.receiveAll ys).messages ∧
      (Parsed.start.receiveAll xs).failed = (Parsed.start.receiveAll ys).failed ∧
      ((Parsed.start.receiveAll xs).failed = false →
        (Parsed.start.receiveAll xs).buffer.readable =
          (Parsed.start.receiveAll ys).buffer.readable)) ∧
    (∀ buf : Buffer, (parseBuffer buf).1 = .needMore →
      (parseBuffer buf).2.readable = buf.readable) ∧
    (∀ buf : Buffer, 10 * (parseLoop buf).messages.length ≤ buf.getreadable) := by
  refine ⟨fun xs ys hflat => ?_, fun buf hneed => ?_, parseLoop_length⟩
  · obtain ⟨hmsgs, hres⟩ := Parsed.receiveAll_start xs
    obtain ⟨hmsgs', hres'⟩ := Parsed.receiveAll_start ys
    have hsame : (Parsed.start.receiveAll xs).residue = (Parsed.start.receiveAll ys).residue := by
      rw [hres, hres', hflat]
    refine ⟨by rw [hmsgs, hmsgs', hflat], ?_⟩
    -- one residue: the same verdict, and in the waiting case the same bytes
    unfold Parsed.residue at hsame
    cases hx : (Parsed.start.receiveAll xs).failed <;>
      cases hy : (Parsed.start.receiveAll ys).failed <;> simp_all
  · rw [(parse_of_needMore hneed).2]

/-- Two heartbeats, cut inside the second length field or not at all. -/
theorem chunking_independence_split :
    (Parsed.start.receiveAll
        [encodeMessage ⟨.heartbeatReq, 1, []⟩ ++ [0, 0], [0, 6, 0, 12, 0, 0, 0, 2]]).messages =
      (Parsed.start.receiveAll
        [encodeMessage ⟨.heartbeatReq, 1, []⟩ ++ encodeMessage ⟨.heartbeatReq, 2, []⟩]).messages :=
  (chunking_independence.1 _ _ (by decide)).1

end EchoNet.Protocol
