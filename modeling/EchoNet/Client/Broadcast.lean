import EchoNet.Chat.Service
import EchoNet.Client.QString
import EchoNet.RateLimit.RedisTokenBucket

/-!
# A Broadcast on the Screen

`handleSendMessage` joins the room id, the user name and the content with `|`; the chat window
splits the text at every `|`, and appends a line with its second and its third part to
`chatTextEdit`.

- The decoding of UTF-8 is Qt's.  `Utf8Decoder` has what the window relies on: an ASCII byte is the
  character of that number wherever it stands, and nothing else is.
- What `append` shows of a line is Qt's as well.  `TextEdit` has what is documented: a line that
  might be rich text is interpreted as HTML, and any other is shown as it is.
-/

namespace EchoNet.Client

open EchoNet.Lib EchoNet.Chat
open EchoNet.RateLimit (cStr cStr_append_of_notMem cStr_append_zero cStr_eq_self)

/-! ## §1 The decoding -/

/-- The character of an ASCII byte. -/
def asciiChar (b : UInt8) : Char := Char.ofNat b.toNat

/-- The conversion of bytes to a text, malformed ones included. -/
structure Utf8Decoder where
  text : Bytes → QString
  /-- an ASCII byte stands for itself, also next to malformed bytes -/
  ascii : ∀ a b c, b < 0x80 → text (a ++ b :: c) = text a ++ asciiChar b :: text c
  /-- no other byte becomes an ASCII character -/
  mem_of_mem : ∀ a b, b < 0x80 → asciiChar b ∈ text a → b ∈ a

/-- A byte order mark is skipped. -/
def skipBom (bytes : Bytes) : Bytes :=
  if bytes.take 3 = [0xEF, 0xBB, 0xBF] then bytes.drop 3 else bytes

/-- `QString::fromUtf8` of a `QByteArray`, in Qt 5: up to the first zero byte. -/
def Utf8Decoder.fromUtf8 (decoder : Utf8Decoder) (bytes : Bytes) : QString :=
  decoder.text (skipBom (cStr bytes))

/-! ## §2 The line -/

/-- `QTextEdit::append`. -/
structure TextEdit where
  /-- `Qt::mightBeRichText` -/
  mightBeRichText : QString → Bool
  /-- the characters of the new paragraph -/
  append : QString → QString
  plain : ∀ s, mightBeRichText s = false → append s = s
  /-- a tag or an entity is not shown as it is written, and takes more room there than what is
  shown of it -/
  rich : ∀ s, mightBeRichText s = true → (append s).length < s.length

/-- `fromUser` and `content` in the case `BROADCAST_MSG` of `ChatWindow::parsePacket`. -/
def broadcastParts (payload : QString) : Option (QString × QString) :=
  let parts := payload.splitOn '|'
  if 3 ≤ parts.length then some (parts.getD 1 [], parts.getD 2 []) else none

/-- The line of a message. -/
def chatLine (time fromUser content : QString) : QString :=
  "[".toList ++ time ++ "] ".toList ++ fromUser ++ ": ".toList ++ content

/-- The case `BROADCAST_MSG` of `ChatWindow::parsePacket` at a time of day: what is shown, if
anything is. -/
def broadcastMsg (edit : TextEdit) (time payload : QString) : Option QString :=
  (broadcastParts payload).map fun (fromUser, content) =>
    edit.append (chatLine time fromUser content)

variable {decoder : Utf8Decoder} {roomId : UInt32} {username content : Bytes}

theorem bar_notMem_text {a : Bytes} (h : 0x7C ∉ a) : '|' ∉ decoder.text a := fun hmem =>
  h (decoder.mem_of_mem a 0x7C (by decide) hmem)

theorem text_bar (decoder : Utf8Decoder) (a c : Bytes) :
    decoder.text (a ++ 0x7C :: c) = decoder.text a ++ '|' :: decoder.text c :=
  decoder.ascii a 0x7C c (by decide)

/-- The parts of `first|second` and what follows, as the window splits them. -/
theorem splitOn_text_bar {a : Bytes} (h : 0x7C ∉ a) (c : Bytes) :
    (decoder.text (a ++ 0x7C :: c)).splitOn '|' =
      decoder.text a :: (decoder.text c).splitOn '|' := by
  rw [text_bar, List.splitOn_append_cons_self, List.splitOn_eq_singleton (bar_notMem_text h)]
  rfl

theorem bar_notMem_toDecimal (n : Nat) : 0x7C ∉ toDecimal n := fun h =>
  absurd (isDigit_of_mem_toDecimal h) (by decide)

theorem zero_notMem_toDecimal (n : Nat) : 0 ∉ toDecimal n := fun h =>
  absurd (isDigit_of_mem_toDecimal h) (by decide)

variable {edit : TextEdit} {time : QString}

theorem toNat_asciiChar {b : UInt8} (h : b < 0x80) : (asciiChar b).toNat = b.toNat := by
  have hlt : b.toNat < 128 := UInt8.lt_iff_toNat_lt.mp h
  have hvalid : b.toNat.isValidChar := Or.inl (by omega)
  rw [asciiChar, Char.ofNat, dif_pos hvalid]
  rfl

/-- A decoder that knows ASCII only. -/
def asciiDecoder : Utf8Decoder where
  text bytes := bytes.map fun b => if b < 0x80 then asciiChar b else Char.ofNat 0xFFFD
  ascii a b c hb := by simp [hb]
  mem_of_mem a b hb hmem := by
    obtain ⟨b', hb', heq⟩ := List.mem_map.mp hmem
    have hnat := congrArg Char.toNat heq
    rw [toNat_asciiChar hb] at hnat
    split_ifs at hnat with hb''
    · rw [toNat_asciiChar hb''] at hnat
      rwa [← UInt8.toNat_inj.mp hnat]
    · have hlt : b.toNat < 128 := UInt8.lt_iff_toNat_lt.mp hb
      have hreplacement : (Char.ofNat 0xFFFD).toNat = 0xFFFD := by decide
      omega

end EchoNet.Client
