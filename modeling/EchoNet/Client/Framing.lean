import EchoNet.Client.ReceiveLoop
import EchoNet.Protocol.Chunking

/-!
# Two Receivers of One Stream

The chat window and the server cut the same streams into frames, each with a loop of its own: the
window looks at the length only, the server checks it and the type.  On a stream of frames that
the server accepts they stay in step at every byte.

The window keeps what is unread in a `QByteArray`.  Its size is an `int`: `limit` stands for the
largest one, and appending more than that fails.
-/

namespace EchoNet.Client

open EchoNet.Lib EchoNet.Protocol

/-! ## §1 The chat window -/

/-- What an iteration of `parsePacket` reads from a frame: `typeVal`, `id` and `payloadData`. -/
structure Fields where
  typeVal : Nat
  id : UInt32
  payloadData : Bytes
  deriving DecidableEq, Repr

/-- `memcpy` of the type and the id, and `frame.mid(10)`. -/
def fields (frame : Bytes) : Fields where
  typeVal := beDecode ((frame.drop 4).take 2)
  id := UInt32.ofNat (beDecode ((frame.drop 6).take 4))
  payloadData := frame.drop 10

/-- `recvBuf_`, and what `parsePacket` has extracted from it so far. -/
structure ChatWindow where
  recvBuf : Bytes
  extracted : List Fields
  deriving DecidableEq, Repr

namespace ChatWindow

/-- Before anything has arrived. -/
def start : ChatWindow := ⟨[], []⟩

/-- `onReadyRead`, when `readAll` returns `chunk`.  The loop takes a byte at least in every
iteration but its last one, if it ends at all. -/
def onReadyRead (limit : Nat) (w : ChatWindow) (chunk : Bytes) : Option ChatWindow :=
  let recvBuf := w.recvBuf ++ chunk
  if limit < recvBuf.length then none
  else (parsePacket (recvBuf.length + 1) recvBuf).map fun (frames, rest) =>
    ⟨rest, w.extracted ++ frames.map fields⟩

/-- The chunks of a stream, one after another. -/
def onReadyReads (limit : Nat) (w : ChatWindow) (chunks : List Bytes) : Option ChatWindow :=
  chunks.foldlM (onReadyRead limit) w

end ChatWindow

/-- The fields that a message has on the wire. -/
def messageFields (msg : MyMessage) : Fields := ⟨msg.type.code, msg.id, msg.payload⟩

/-! ## §2 One buffer -/

theorem isFrame_encodeMessage {msg : MyMessage} (h : msg.Fits) : IsFrame (encodeMessage msg) := by
  unfold MyMessage.Fits maxBodySize at h
  have hfield : beDecode ((encodeMessage msg).take 4) = 6 + msg.payload.length := by
    unfold encodeMessage
    rw [List.take_left' (beEncode_length 4 _), beDecode_beEncode, Nat.mod_eq_of_lt (by omega)]
  refine ⟨?_, ?_, ?_⟩
  · rw [hfield, length_encodeMessage]
    omega
  · rw [hfield]
    exact Nat.le_add_right _ _
  · rw [hfield]
    omega

theorem fields_encodeMessage (msg : MyMessage) :
    fields (encodeMessage msg) = messageFields msg := by
  have hcut : ∀ (w n : Nat) (bs : Bytes), (beEncode w n ++ bs).take w = beEncode w n ∧
      (beEncode w n ++ bs).drop w = bs := fun w n bs =>
    ⟨List.take_left' (beEncode_length w n), List.drop_left' (beEncode_length w n)⟩
  have htype : beDecode (beEncode 2 msg.type.code) = msg.type.code := by
    rw [beDecode_beEncode, Nat.mod_eq_of_lt msg.type.code_lt]
  have hid : UInt32.ofNat (beDecode (beEncode 4 msg.id.toNat)) = msg.id := by
    rw [beDecode_beEncode, Nat.mod_eq_of_lt (by simpa using msg.id.toNat_lt), UInt32.ofNat_toNat]
  unfold fields encodeMessage messageFields
  rw [show (10 : Nat) = 4 + 2 + 4 from rfl, show (6 : Nat) = 4 + 2 from rfl]
  simp only [← List.drop_drop, (hcut _ _ _).1, (hcut _ _ _).2, htype, hid]

variable {buf rest : Bytes}

/-- A buffer below 4 GiB that begins with a frame is not taken for an incomplete one. -/
theorem cut_frame {frame : Bytes} (h : IsFrame frame) (hsize : (frame ++ rest).length < 2 ^ 32) :
    cut (frame ++ rest) = some (frame, rest) := by
  apply cut_of_isFrame h
  rw [Ne, cut_eq_none, Incomplete, Nat.mod_eq_of_lt hsize, totalLen_of_isFrame h,
    List.length_append]
  have hten := h.le_length
  omega

/-- Where the server needs more, the window waits. -/
theorem cut_of_needMore (h : parse buf = .needMore) (hsize : buf.length < 2 ^ 32) :
    cut buf = none := by
  rw [cut_eq_none]
  rw [parse_eq] at h
  split_ifs at h with hshort hlarge hsmall hframe
  · exact Or.inl hshort
  · right
    unfold maxBodySize at hlarge
    rw [Nat.mod_eq_of_lt hsize, totalLen, Nat.mod_eq_of_lt (by omega)]
    exact hframe
  · unfold parseFrame at h
    split at h
    · cases h
    · cases h

/-- On a part of a stream of acceptable frames the loop of the window finds what the server's
parser drains. -/
theorem cutAll_stream {msgs : List MyMessage} {later : Bytes} (hfits : ∀ m ∈ msgs, m.Fits)
    (hbytes : buf ++ later = encodeAll msgs) (hsize : buf.length < 2 ^ 32) {fuel : Nat}
    (hfuel : buf.length < fuel) :
    ∃ ms rest, framer.drain buf = (ms, .waiting rest) ∧
      cutAll fuel buf = some (ms.map encodeMessage, rest) ∧
      ∃ msgs', (∀ m ∈ msgs', m.Fits) ∧ rest ++ later = encodeAll msgs' := by
  induction fuel generalizing buf msgs with
  | zero => exact absurd hfuel (Nat.not_lt_zero _)
  | succ fuel ih =>
    have hstream : buf ++ later = encodeAll msgs ++ [] := by rw [hbytes, List.append_nil]
    rcases parse_stream_part hfits rfl hstream with ⟨m, ms, rest, rfl, hparse, hrest⟩ | hneed
    · obtain ⟨hm, rfl⟩ := parse_eq_ok hparse
      have hlen : (encodeMessage m ++ rest).length = 10 + m.payload.length + rest.length := by
        rw [List.length_append, length_encodeMessage]
      obtain ⟨ms', rest', hdrain, hcutAll, hlater⟩ := ih
        (fun m' hm' => hfits m' (List.mem_cons_of_mem m hm'))
        (by rw [hrest, List.append_nil]) (by omega) (by omega)
      have hfront : framer.front (encodeMessage m ++ rest) = .frame m rest := by
        show (parse _).front = _
        rw [hparse]
        rfl
      refine ⟨m :: ms', rest', ?_, ?_, hlater⟩
      · rw [framer.drain_frame hfront, hdrain]
      · rw [cutAll, cut_frame (isFrame_encodeMessage hm) hsize]
        dsimp only
        rw [hcutAll]
        rfl
    · have hfront : framer.front buf = .incomplete := by
        show (parse buf).front = _
        rw [hneed]
        rfl
      refine ⟨[], buf, framer.drain_incomplete hfront, ?_, msgs, hfits, hbytes⟩
      rw [cutAll, cut_of_needMore hneed hsize]
      rfl

/-! ## §3 Chunk by chunk -/

/-- The window and the server have found the same messages and wait on the same bytes, and what
they wait for goes on as frames. -/
structure InStep (p : Parsed) (w : ChatWindow) (later : Bytes) : Prop where
  extracted : w.extracted = p.messages.map messageFields
  waiting : p.failed = false
  unread : w.recvBuf = p.buffer.readable
  stream : ∃ msgs : List MyMessage, (∀ m ∈ msgs, m.Fits) ∧ w.recvBuf ++ later = encodeAll msgs

theorem residue_eq_waiting {p : Parsed} {rest : Bytes} (h : p.residue = .waiting rest) :
    p.failed = false ∧ p.buffer.readable = rest := by
  unfold Parsed.residue at h
  cases hfailed : p.failed with
  | true =>
    rw [hfailed] at h
    cases h
  | false =>
    rw [hfailed] at h
    exact ⟨rfl, Residue.waiting.inj h⟩

/-- A chunk that there is room for. -/
theorem InStep.receive {limit : Nat} (hlimit : limit < 2 ^ 31) {p : Parsed} {w : ChatWindow}
    {chunk later : Bytes} (h : InStep p w (chunk ++ later))
    (hroom : w.recvBuf.length + chunk.length ≤ limit) :
    ∃ w', w.onReadyRead limit chunk = some w' ∧ InStep (p.receive chunk) w' later := by
  obtain ⟨msgs, hfits, hbytes⟩ := h.stream
  rw [← List.append_assoc] at hbytes
  have hlen : (w.recvBuf ++ chunk).length = w.recvBuf.length + chunk.length := List.length_append
  obtain ⟨ms, rest, hdrain, hcutAll, hlater⟩ :=
    cutAll_stream hfits hbytes (by omega) (Nat.lt_succ_self _)
  obtain ⟨hmessages, hresidue⟩ := p.receive_refines chunk
  have hwaiting : p.residue = .waiting w.recvBuf := by
    rw [Parsed.residue, h.waiting, h.unread]
    rfl
  rw [hwaiting] at hmessages hresidue
  simp only [Framer.feed, hdrain] at hmessages hresidue
  obtain ⟨hfailed, hreadable⟩ := residue_eq_waiting hresidue
  refine ⟨⟨rest, w.extracted ++ (ms.map encodeMessage).map fields⟩, ?_, ?_⟩
  · unfold ChatWindow.onReadyRead ChatWindow.parsePacket
    dsimp only
    rw [if_neg (by omega), hcutAll]
    rfl
  · refine ⟨?_, hfailed, hreadable.symm, hlater⟩
    rw [hmessages, List.map_append, h.extracted, List.map_map]
    exact congrArg (p.messages.map messageFields ++ ·)
      (List.map_congr_left fun m _ => fields_encodeMessage m)

/-- A run of the window ends in step, or at a chunk that there is no room for. -/
theorem InStep.receiveAll {limit : Nat} (hlimit : limit < 2 ^ 31) {p : Parsed} {w : ChatWindow}
    {chunks : List Bytes} {later : Bytes} (h : InStep p w (chunks.flatten ++ later)) :
    (∃ w', w.onReadyReads limit chunks = some w' ∧ InStep (p.receiveAll chunks) w' later) ∨
      (w.onReadyReads limit chunks = none ∧ ∃ i chunk, chunks[i]? = some chunk ∧
        limit < (p.receiveAll (chunks.take i)).buffer.readable.length + chunk.length) := by
  induction chunks generalizing p w with
  | nil => exact Or.inl ⟨w, rfl, h⟩
  | cons chunk chunks ih =>
    rw [List.flatten_cons, List.append_assoc] at h
    have hcons : w.onReadyReads limit (chunk :: chunks) =
        (w.onReadyRead limit chunk).bind fun w' => w'.onReadyReads limit chunks :=
      List.foldlM_cons
    by_cases hroom : w.recvBuf.length + chunk.length ≤ limit
    · obtain ⟨w', hw', hstep⟩ := h.receive hlimit hroom
      rw [hcons, hw', Option.bind_some]
      rcases ih hstep with hrun | ⟨hnone, i, c, hc, hfull⟩
      · exact Or.inl hrun
      · exact Or.inr ⟨hnone, i + 1, c, hc, hfull⟩
    · right
      have hnone : w.onReadyRead limit chunk = none := by
        unfold ChatWindow.onReadyRead
        rw [if_pos (by rw [List.length_append]; omega)]
      rw [hcons, hnone]
      refine ⟨rfl, 0, chunk, rfl, ?_⟩
      show limit < p.buffer.readable.length + chunk.length
      rw [← h.unread]
      omega

theorem inStep_start {msgs : List MyMessage} (hfits : ∀ m ∈ msgs, m.Fits) :
    InStep Parsed.start ChatWindow.start (encodeAll msgs) := by
  refine ⟨rfl, rfl, ?_, msgs, hfits, rfl⟩
  decide

/-- **Agreement on framing**: for any messages that fit and any chunks of their frames, the chat
window has extracted, after each chunk, the messages that the server's loop has found, and has the
same bytes in `recvBuf_`; or it had no room in `recvBuf_` for one of the chunks so far. -/
theorem client_agrees {limit : Nat} (hlimit : limit < 2 ^ 31) {msgs : List MyMessage}
    (hfits : ∀ m ∈ msgs, m.Fits) {chunks : List Bytes} (hstream : chunks.flatten = encodeAll msgs)
    (n : Nat) :
    (∃ w, ChatWindow.start.onReadyReads limit (chunks.take n) = some w ∧
      w.extracted = (Parsed.start.receiveAll (chunks.take n)).messages.map messageFields ∧
      w.recvBuf = (Parsed.start.receiveAll (chunks.take n)).buffer.readable ∧
      (Parsed.start.receiveAll (chunks.take n)).failed = false) ∨
    (ChatWindow.start.onReadyReads limit (chunks.take n) = none ∧
      ∃ i chunk, (chunks.take n)[i]? = some chunk ∧
        limit < (Parsed.start.receiveAll (chunks.take i)).buffer.readable.length +
          chunk.length) := by
  have hstart : InStep Parsed.start ChatWindow.start
      ((chunks.take n).flatten ++ (chunks.drop n).flatten) := by
    rw [← List.flatten_append, List.take_append_drop, hstream]
    exact inStep_start hfits
  rcases hstart.receiveAll hlimit with ⟨w, hrun, hstep⟩ | ⟨hnone, i, chunk, hchunk, hfull⟩
  · exact Or.inl ⟨w, hrun, hstep.extracted, hstep.unread, hstep.waiting⟩
  · refine Or.inr ⟨hnone, i, chunk, hchunk, ?_⟩
    have hlt : i < (chunks.take n).length := (List.getElem?_eq_some_iff.mp hchunk).1
    rw [List.length_take] at hlt
    rwa [List.take_take, Nat.min_eq_left (by omega)] at hfull

/-- Two responses, cut inside of the second length field. -/
def splitResponses : List Bytes :=
  [encodeMessage ⟨.sendMsgResp, 1, [0x4F, 0x4B]⟩ ++ [0, 0], [0, 6, 0, 13, 0, 0, 0, 2]]

theorem client_agrees_split :
    ∃ w, ChatWindow.start.onReadyReads 0x7FFFFFFF (splitResponses.take 1) = some w ∧
      w.extracted =
        (Parsed.start.receiveAll (splitResponses.take 1)).messages.map messageFields ∧
      w.recvBuf = (Parsed.start.receiveAll (splitResponses.take 1)).buffer.readable := by
  have hfits : ∀ m ∈ [⟨.sendMsgResp, 1, [0x4F, 0x4B]⟩, ⟨.heartbeatResp, 2, []⟩],
      MyMessage.Fits m := by decide
  rcases client_agrees (show 0x7FFFFFFF < 2 ^ 31 by decide) hfits
    (show splitResponses.flatten = _ by decide +kernel) 1 with
    ⟨w, hrun, hextracted, hunread, -⟩ | ⟨hnone, -⟩
  · exact ⟨w, hrun, hextracted, hunread⟩
  · exact absurd hnone (by decide +kernel)

end EchoNet.Client
