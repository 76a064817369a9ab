import EchoNet.Client.QString
import EchoNet.Protocol.MyProtocol

/-!
# The Encoders of the Client

`MainWindow::slot_connected` (src/QT/loginwindow.cpp) and `ChatWindow::sendPacket`
(src/QT/chatwindow.cpp) write frames by hand, like `MyProtocol::encodeMessage`.  The second one
measures the payload in bytes; the first one takes the length of the text and appends the bytes.
-/

namespace EchoNet.Client

open EchoNet.Lib EchoNet.Protocol

/-! ## §1 The two encoders -/

/-- The payload of `slot_connected`; the arguments are the texts of the two boxes. -/
def loginPayload (account password : QString) : QString :=
  account.trimmed ++ ['|'] ++ password.trimmed

/-- The packet of `slot_connected`, for the number that `qtimes_` has. -/
def slotConnected (account password : QString) (qtimes : UInt32) : Bytes :=
  let payload := loginPayload account password
  let bodyLen := payload.size + 6
  beEncode 4 bodyLen ++ beEncode 2 MyType.loginReq.code ++ beEncode 4 qtimes.toNat ++
    payload.toUtf8

/-- `memcpy` into a `QByteArray`; `none` when it would write behind its end. -/
def memcpy (dst : Bytes) (offset : Nat) (src : Bytes) : Option Bytes :=
  if offset + src.length ≤ dst.length then
    some (dst.take offset ++ src ++ dst.drop (offset + src.length))
  else none

/-- The packet of `sendPacket`; `fresh` is what `resize` leaves in the new bytes. -/
def sendPacket (fresh : Nat → UInt8) (type : MyType) (id : UInt32) (payload : QString) :
    Option Bytes := do
  let payloadBytes := payload.toUtf8
  let bodyLen := 2 + 4 + payloadBytes.length
  let packet := (List.range ((4 + bodyLen) % 2 ^ 32)).map fresh
  let packet ← memcpy packet 0 (beEncode 4 bodyLen)
  let packet ← memcpy packet 4 (beEncode 2 type.code)
  let packet ← memcpy packet 6 (beEncode 4 id.toNat)
  memcpy packet 10 payloadBytes

/-! ## §2 Their frames -/

/-- Bytes that are copied right behind what is written already. -/
theorem memcpy_append {done rest src : Bytes} {offset : Nat} (hdone : done.length = offset)
    (hsrc : src.length ≤ rest.length) :
    memcpy (done ++ rest) offset src = some (done ++ src ++ rest.drop src.length) := by
  subst hdone
  unfold memcpy
  rw [if_pos (by rw [List.length_append]; omega), List.take_left' rfl, ← List.drop_drop,
    List.drop_left' rfl]

/-- Four copies fill a packet of the right size, whatever was in it. -/
theorem memcpy_fields {packet a b c d : Bytes} (ha : a.length = 4) (hb : b.length = 2)
    (hc : c.length = 4) (hpacket : packet.length = 10 + d.length) :
    (do
      let packet ← memcpy packet 0 a
      let packet ← memcpy packet 4 b
      let packet ← memcpy packet 6 c
      memcpy packet 10 d) = some (a ++ b ++ c ++ d) := by
  have hfirst : memcpy packet 0 a = some (a ++ packet.drop 4) := by
    have h : memcpy ([] ++ packet) 0 a = some ([] ++ a ++ packet.drop a.length) :=
      memcpy_append rfl (by omega)
    rwa [List.nil_append, List.nil_append, ha] at h
  have hsecond : memcpy (a ++ packet.drop 4) 4 b = some (a ++ b ++ packet.drop 6) := by
    rw [memcpy_append ha (by rw [List.length_drop]; omega), List.drop_drop, hb]
  have hthird : memcpy (a ++ b ++ packet.drop 6) 6 c = some (a ++ b ++ c ++ packet.drop 10) := by
    rw [memcpy_append (by rw [List.length_append]; omega) (by rw [List.length_drop]; omega),
      List.drop_drop, hc]
  have hlast : memcpy (a ++ b ++ c ++ packet.drop 10) 10 d = some (a ++ b ++ c ++ d) := by
    rw [memcpy_append (by simp only [List.length_append]; omega)
      (by rw [List.length_drop]; omega), List.drop_drop,
      List.drop_eq_nil_of_le (by omega), List.append_nil]
  simp only [Option.bind_eq_bind, hfirst, hsecond, hthird, hlast, Option.bind_some]

/-- `sendPacket` writes the frame of its message. -/
theorem sendPacket_eq (fresh : Nat → UInt8) (type : MyType) (id : UInt32) (payload : QString)
    (hfits : (⟨type, id, payload.toUtf8⟩ : MyMessage).Fits) :
    sendPacket fresh type id payload = some (encodeMessage ⟨type, id, payload.toUtf8⟩) := by
  have hlen : 6 + payload.toUtf8.length ≤ 16 * 1024 * 1024 := hfits
  have hpacket : ((List.range ((4 + (2 + 4 + payload.toUtf8.length)) % 2 ^ 32)).map fresh).length =
      10 + payload.toUtf8.length := by
    rw [List.length_map, List.length_range]
    omega
  have hfields := memcpy_fields (beEncode_length 4 (2 + 4 + payload.toUtf8.length))
    (beEncode_length 2 type.code) (beEncode_length 4 id.toNat) hpacket
  unfold sendPacket encodeMessage
  dsimp only
  rw [hfields]
  simp only [List.append_assoc]

/-- `slot_connected` writes the length of the text. -/
theorem slotConnected_eq_iff {account password : QString} {qtimes : UInt32}
    (hfits : (⟨.loginReq, qtimes, (loginPayload account password).toUtf8⟩ : MyMessage).Fits) :
    slotConnected account password qtimes =
        encodeMessage ⟨.loginReq, qtimes, (loginPayload account password).toUtf8⟩ ↔
      ∀ c ∈ loginPayload account password, QString.IsAscii c := by
  have hlen : 6 + (loginPayload account password).toUtf8.length ≤ 16 * 1024 * 1024 := hfits
  obtain ⟨hle, hiff⟩ := QString.size_le_length_toUtf8 (loginPayload account password)
  rw [← hiff]
  unfold slotConnected encodeMessage
  simp only [List.append_assoc]
  constructor
  · intro h
    have hfield := congrArg (fun packet => beDecode (packet.take 4)) h
    rw [List.take_left' (beEncode_length 4 _), List.take_left' (beEncode_length 4 _),
      beDecode_beEncode, beDecode_beEncode, Nat.mod_eq_of_lt (by omega),
      Nat.mod_eq_of_lt (by omega)] at hfield
    omega
  · intro h
    rw [h, Nat.add_comm]

/-! ## §3 Both encoders -/

/-- What the encoders write is the frame of the message, and the server reads it as one. -/
structure SpeakProtocol (fresh : Nat → UInt8) (account password : QString) (qtimes : UInt32)
    (type : MyType) (id : UInt32) (payload : QString) : Prop where
  login : slotConnected account password qtimes =
    encodeMessage ⟨.loginReq, qtimes, (loginPayload account password).toUtf8⟩
  parseLogin : parse (slotConnected account password qtimes) =
    .ok ⟨.loginReq, qtimes, (loginPayload account password).toUtf8⟩ []
  send : sendPacket fresh type id payload = some (encodeMessage ⟨type, id, payload.toUtf8⟩)
  parseSend : ∀ packet, sendPacket fresh type id payload = some packet →
    parse packet = .ok ⟨type, id, payload.toUtf8⟩ []

theorem ascii_loginPayload {account password : QString} :
    (∀ c ∈ loginPayload account password, QString.IsAscii c) ↔
      (∀ c ∈ account.trimmed, QString.IsAscii c) ∧ ∀ c ∈ password.trimmed, QString.IsAscii c := by
  simp only [loginPayload, List.forall_mem_append, List.forall_mem_singleton]
  have hbar : QString.IsAscii '|' := by decide
  tauto

/-- The client speaks the protocol if and only if the account and the password are ASCII texts,
up to the blanks around them. -/
theorem speakProtocol_iff {fresh : Nat → UInt8} {account password payload : QString}
    {qtimes id : UInt32} {type : MyType}
    (hlogin : (⟨.loginReq, qtimes, (loginPayload account password).toUtf8⟩ : MyMessage).Fits)
    (hfits : (⟨type, id, payload.toUtf8⟩ : MyMessage).Fits) :
    SpeakProtocol fresh account password qtimes type id payload ↔
      (∀ c ∈ account.trimmed, QString.IsAscii c) ∧ ∀ c ∈ password.trimmed, QString.IsAscii c := by
  rw [← ascii_loginPayload, ← slotConnected_eq_iff hlogin]
  refine ⟨SpeakProtocol.login, fun h => ⟨h, ?_, sendPacket_eq fresh type id payload hfits, ?_⟩⟩
  · rw [h, ← List.append_nil (encodeMessage _)]
    exact parse_encodeMessage _ hlogin []
  · intro packet hpacket
    rw [sendPacket_eq fresh type id payload hfits] at hpacket
    rw [← Option.some.inj hpacket, ← List.append_nil (encodeMessage _)]
    exact parse_encodeMessage _ hfits []

/-- An ASCII login, and a text of any kind. -/
theorem speakProtocol_ascii :
    SpeakProtocol (fun _ => 0) " ann".toList "secret".toList 0 .sendMsgReq 7 "grüße".toList := by
  have hascii : ∀ text : QString, text.all (fun c => decide (QString.IsAscii c)) = true →
      ∀ c ∈ text, QString.IsAscii c :=
    fun _ h c hc => of_decide_eq_true (List.all_eq_true.mp h c hc)
  exact (speakProtocol_iff (by decide +kernel) (by decide +kernel)).mpr
    ⟨hascii _ (by decide +kernel), hascii _ (by decide +kernel)⟩

/-- An account with a letter of two bytes: the frame ends one byte too early. -/
theorem speakProtocol_umlaut :
    ¬SpeakProtocol (fun _ => 0) "jörg".toList "secret".toList 0 .sendMsgReq 7 "x".toList := by
  intro h
  have hparse := h.parseLogin
  revert hparse
  decide +kernel

end EchoNet.Client
