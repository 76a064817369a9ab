import EchoNet.Chat.Answers
import EchoNet.Client.Broadcast

/-!
# The Chat Window

`ChatWindow` (src/QT/chatwindow.cpp) behind its receive loop: what a message changes in the
window, and what a click sends.  `currentRoomId_` is written by the answers to `CREATE_ROOM_REQ`
and `LEAVE_ROOM_REQ`; for a join it is the click that writes it, before the server has said
anything.

- The texts of the dialogs and of `inputLineEdit` come with the click; the times in front of the
  lines of `chatTextEdit` are left out, and what `append` makes of a line is in
  `Client/Broadcast.lean`.
- `QtText` is what the window takes from Qt to read a payload.

## Main results

- `view_receive`: a message changes what the window shows of its room by its `Effect`.
- `effect_answer`, `effect_push`: the effects of what the chat service sends.
- `view_click`: the one click that moves the window.
-/

namespace EchoNet.Client

open EchoNet.Lib EchoNet.Protocol EchoNet.Chat
open EchoNet.RateLimit (cStr cStr_eq_self)

/-! ## §1 Numbers in texts -/

/-- The conversions of `QString` that the window uses. -/
structure QtText extends Utf8Decoder where
  text_nil : text [] = []
  /-- `QString::toUInt`; `none` when it says that the text is no number -/
  toUInt : QString → Option UInt32
  /-- `QString::toInt` -/
  toInt : QString → Int
  toUInt_toDecimal : ∀ n, n < 2 ^ 32 → toUInt (text (toDecimal n)) = some (UInt32.ofNat n)
  /-- a text that both `toUInt` and `std::stoul` read is the same number to them -/
  stoul_toUtf8 : ∀ s n m, toUInt s = some n → stoul s.toUtf8 = some m → m.toUInt32 = n

theorem utf8EncodeChar_asciiChar {b : UInt8} (h : b < 0x80) :
    String.utf8EncodeChar (asciiChar b) = [b] := by
  have hval : (asciiChar b).val.toNat = b.toNat := toNat_asciiChar h
  have hlt : b.toNat < 128 := UInt8.lt_iff_toNat_lt.mp h
  rw [String.utf8EncodeChar, hval, if_pos (by omega), UInt8.ofNat_toNat]

/-- Digits come back from a text as they were. -/
theorem toUtf8_text_of_isDigit {digits : Bytes} (h : ∀ b ∈ digits, isDigit b = true) :
    QString.toUtf8 (asciiDecoder.text digits) = digits := by
  induction digits with
  | nil => rfl
  | cons b bs ih =>
    rw [List.forall_mem_cons] at h
    have hb : b < 0x80 := by
      have hdigit := h.1
      rw [isDigit, Bool.and_eq_true, decide_eq_true_iff, decide_eq_true_iff,
        UInt8.le_iff_toNat_le, UInt8.le_iff_toNat_le] at hdigit
      rw [UInt8.lt_iff_toNat_lt]
      exact Nat.lt_of_le_of_lt hdigit.2 (by decide)
    have hcons : asciiDecoder.text (b :: bs) = asciiChar b :: asciiDecoder.text bs := by
      simp [asciiDecoder, hb]
    rw [hcons, QString.toUtf8_cons, utf8EncodeChar_asciiChar hb, ih h.2]
    rfl

/-- Numbers of digits only. -/
def asciiToUInt (s : QString) : Option UInt32 :=
  let digits := s.toUtf8
  if digits.isEmpty || !digits.all isDigit then none
  else if 2 ^ 32 ≤ decimalValue digits then none
  else some (UInt32.ofNat (decimalValue digits))

theorem asciiToUInt_eq_some {s : QString} {n : UInt32} : asciiToUInt s = some n ↔
    s.toUtf8 ≠ [] ∧ (∀ b ∈ s.toUtf8, isDigit b = true) ∧ decimalValue s.toUtf8 < 2 ^ 32 ∧
      UInt32.ofNat (decimalValue s.toUtf8) = n := by
  have hgood : (s.toUtf8.isEmpty || !s.toUtf8.all isDigit) = false ↔
      s.toUtf8 ≠ [] ∧ ∀ b ∈ s.toUtf8, isDigit b = true := by simp
  unfold asciiToUInt
  dsimp only
  split_ifs with hbad hbig
  · refine iff_of_false (by simp) fun h => ?_
    rw [hgood.mpr ⟨h.1, h.2.1⟩] at hbad
    exact Bool.false_ne_true hbad
  · exact iff_of_false (by simp) fun h => absurd h.2.2.1 (Nat.not_lt.mpr hbig)
  · obtain ⟨hne, hdigits⟩ := hgood.mp (Bool.eq_false_iff.mpr hbad)
    exact ⟨fun h => ⟨hne, hdigits, Nat.not_le.mp hbig, Option.some.inj h⟩,
      fun h => congrArg some h.2.2.2⟩

/-- Conversions that know ASCII only. -/
def asciiQt : QtText where
  toUtf8Decoder := asciiDecoder
  text_nil := rfl
  toUInt := asciiToUInt
  toInt s := (stoi s.toUtf8).getD 0
  toUInt_toDecimal n hn := by
    have hdigits : QString.toUtf8 (asciiDecoder.text (toDecimal n)) = toDecimal n :=
      toUtf8_text_of_isDigit fun b hb => isDigit_of_mem_toDecimal hb
    rw [asciiToUInt_eq_some, hdigits, decimalValue_toDecimal]
    exact ⟨toDecimal_ne_nil n, fun b hb => isDigit_of_mem_toDecimal hb, hn, rfl⟩
  stoul_toUtf8 s n m hread hstoul := by
    obtain ⟨hne, hdigits, hlt, rfl⟩ := asciiToUInt_eq_some.mp hread
    rw [stoul_of_isDigit hne hdigits (hlt.trans (by decide))] at hstoul
    obtain rfl := Option.some.inj hstoul
    exact UInt64.toUInt32_ofNat' _

/-! ## §2 The window -/

/-- `ChatWindow` and its widgets. -/
structure Window where
  currentRoomId : UInt32
  requestId : UInt32
  /-- the room and the number of members in `roomLabel`; `none` is the text for no room -/
  roomLabel : Option (UInt32 × Int)
  inputEnabled : Bool
  sendEnabled : Bool
  leaveEnabled : Bool
  /-- `fromUser` and `content` of the lines of `chatTextEdit` -/
  chatText : List (QString × QString)
  statusbar : String
  /-- the texts of the message boxes -/
  warnings : List QString
  deriving DecidableEq, Repr

namespace Window

/-- The constructor. -/
def opened : Window where
  currentRoomId := 0
  requestId := 1
  roomLabel := none
  inputEnabled := false
  sendEnabled := false
  leaveEnabled := false
  chatText := []
  statusbar := ""
  warnings := []

/-- `setEnabled` of `inputLineEdit`, `sendBtn` and `leaveRoomBtn`. -/
def setEnabled (w : Window) (b : Bool) : Window :=
  { w with inputEnabled := b, sendEnabled := b, leaveEnabled := b }

/-- `roomLabel->setText` for the current room. -/
def showRoom (w : Window) (memberCount : Int) : Window :=
  { w with roomLabel := some (w.currentRoomId, memberCount) }

/-- An iteration of the loop of `parsePacket`, once the frame is cut. -/
def receive (qt : QtText) (w : Window) (msg : MyMessage) : Window :=
  let payload := qt.fromUtf8 msg.payload
  let parts := payload.splitOn '|'
  match msg.type with
  | .createRoomResp =>
    if 3 ≤ parts.length ∧ parts.getD 0 [] = ['O', 'K'] then
      let w := { w with currentRoomId := (qt.toUInt (parts.getD 1 [])).getD 0 }
      (w.showRoom (qt.toInt (parts.getD 2 []))).setEnabled true
    else w
  | .joinRoomResp =>
    if ['O', 'K'].isPrefixOf payload then
      let memberCount := if 2 ≤ parts.length then qt.toInt (parts.getD 1 []) else 0
      (w.showRoom memberCount).setEnabled true
    else w
  | .leaveRoomResp => { w with currentRoomId := 0, roomLabel := none }.setEnabled false
  | .broadcastMsg => { w with chatText := w.chatText ++ (broadcastParts payload).toList }
  | .heartbeatResp => { w with statusbar := "已连接" }
  | .errorResp => { w with warnings := w.warnings ++ [payload] }
  | .memberCountUpdate =>
    if 2 ≤ parts.length ∧ (qt.toUInt (parts.getD 0 [])).getD 0 = w.currentRoomId then
      w.showRoom (qt.toInt (parts.getD 1 []))
    else w
  -- `SEND_MSG_RESP` and `default`
  | _ => w

/-- What the user and the heartbeat timer do. -/
inductive Click where
  | createRoom (roomName : QString)
  | joinRoom (roomIdStr : QString)
  | leaveRoom
  | sendMessage (text : QString)
  | heartbeat
  deriving DecidableEq, Repr

/-- `sendPacket` with the next request id. -/
def request (w : Window) (type : MyType) (payload : QString) : Window × Option MyMessage :=
  ({ w with requestId := w.requestId + 1 }, some ⟨type, w.requestId, payload.toUtf8⟩)

/-- `onCreateRoom`, `onJoinRoom`, `onLeaveRoom`, `onSendMessage` and `sendHeartbeat`, and the
message that they send, if any.  A widget that is disabled does nothing. -/
def click (qt : QtText) (w : Window) : Click → Window × Option MyMessage
  | .createRoom roomName =>
    if roomName.isEmpty then (w, none) else w.request .createRoomReq roomName
  | .joinRoom roomIdStr =>
    if roomIdStr.isEmpty then (w, none)
    else
      match qt.toUInt roomIdStr with
      | some roomId => { w with currentRoomId := roomId }.request .joinRoomReq roomIdStr
      | none => ({ w with warnings := w.warnings ++ ["房间ID必须是数字".toList] }, none)
  | .leaveRoom =>
    if w.leaveEnabled ∧ w.currentRoomId ≠ 0 then
      w.request .leaveRoomReq (Nat.toDigits 10 w.currentRoomId.toNat)
    else (w, none)
  | .sendMessage text =>
    let content := text.trimmed
    if (w.sendEnabled ∨ w.inputEnabled) ∧ content ≠ [] ∧ w.currentRoomId ≠ 0 then
      w.request .sendMsgReq content
    else (w, none)
  | .heartbeat => w.request .heartbeatReq []

/-! ## §3 What the window shows of its room -/

/-- The room that the window is in, the one in its label, and the three widgets. -/
structure View where
  currentRoomId : UInt32
  label : Option UInt32
  enabled : Bool × Bool × Bool
  deriving DecidableEq, Repr

def view (w : Window) : View :=
  ⟨w.currentRoomId, w.roomLabel.map Prod.fst, w.inputEnabled, w.sendEnabled, w.leaveEnabled⟩

@[simp] theorem view_currentRoomId (w : Window) : w.view.currentRoomId = w.currentRoomId := rfl

@[simp] theorem view_label (w : Window) : w.view.label = w.roomLabel.map Prod.fst := rfl

/-- What a message says about the room of the window. -/
inductive Effect where
  | enter (roomId : UInt32)
  /-- the window is in the room that it has asked for -/
  | confirm
  | leave
  | count (roomId : UInt32)
  | none
  deriving DecidableEq, Repr

def effect (qt : QtText) (msg : MyMessage) : Effect :=
  let payload := qt.fromUtf8 msg.payload
  let parts := payload.splitOn '|'
  match msg.type with
  | .createRoomResp =>
    if 3 ≤ parts.length ∧ parts.getD 0 [] = ['O', 'K'] then
      .enter ((qt.toUInt (parts.getD 1 [])).getD 0)
    else .none
  | .joinRoomResp => if ['O', 'K'].isPrefixOf payload then .confirm else .none
  | .leaveRoomResp => .leave
  | .memberCountUpdate =>
    if 2 ≤ parts.length then .count ((qt.toUInt (parts.getD 0 [])).getD 0) else .none
  | _ => .none

/-- The view after a message. -/
def View.after (v : View) : Effect → View
  | .enter roomId => ⟨roomId, some roomId, true, true, true⟩
  | .confirm => ⟨v.currentRoomId, some v.currentRoomId, true, true, true⟩
  | .leave => ⟨0, Option.none, false, false, false⟩
  | .count roomId => if roomId = v.currentRoomId then { v with label := some roomId } else v
  | .none => v

variable {qt : QtText} {w : Window} {msg : MyMessage}

/-- What the window shows of its room depends on the effects of the messages only. -/
theorem view_receive (qt : QtText) (w : Window) (msg : MyMessage) :
    (w.receive qt msg).view = w.view.after (effect qt msg) := by
  unfold receive effect
  cases msg.type with
  | createRoomResp | joinRoomResp =>
    dsimp only
    split_ifs <;> rfl
  | memberCountUpdate =>
    dsimp only
    by_cases hparts : 2 ≤ ((qt.fromUtf8 msg.payload).splitOn '|').length
    · simp only [hparts, true_and, if_true, View.after, view_currentRoomId]
      split_ifs with hid
      · rw [hid]
        exact (if_pos rfl).symm
      · exact (if_neg hid).symm
    · simp only [hparts, false_and, if_false]
      rfl
  | _ => rfl

/-! ### The decoding of the answers -/

/-- ASCII bytes in front are read one by one. -/
theorem text_append_of_ascii (qt : QtText) {a : Bytes} (ha : ∀ b ∈ a, b < 0x80) (c : Bytes) :
    qt.text (a ++ c) = a.map asciiChar ++ qt.text c := by
  induction a with
  | nil => rfl
  | cons b bs ih =>
    rw [List.forall_mem_cons] at ha
    have hfirst := qt.ascii [] b (bs ++ c) ha.1
    rw [qt.text_nil, List.nil_append, List.nil_append] at hfirst
    rw [List.cons_append, hfirst, ih ha.2]
    rfl

theorem text_of_ascii (qt : QtText) {a : Bytes} (ha : ∀ b ∈ a, b < 0x80) :
    qt.text a = a.map asciiChar := by
  have h := text_append_of_ascii qt ha []
  rwa [List.append_nil, qt.text_nil, List.append_nil] at h

/-- `O` is neither zero nor the start of a byte order mark. -/
theorem fromUtf8_ok {rest : Bytes} (hzero : 0 ∉ rest) :
    qt.fromUtf8 (0x4F :: 0x4B :: rest) = 'O' :: 'K' :: qt.text rest := by
  have hstr : (0 : UInt8) ∉ (0x4F :: 0x4B :: rest : Bytes) := by
    rw [List.mem_cons, List.mem_cons]
    rintro (h | h | h)
    · exact absurd h (by decide)
    · exact absurd h (by decide)
    · exact hzero h
  have hbom : skipBom (0x4F :: 0x4B :: rest) = 0x4F :: 0x4B :: rest := by
    rw [skipBom, if_neg (by simp)]
  have htext := text_append_of_ascii qt (a := [0x4F, 0x4B]) (by simp) rest
  rw [Utf8Decoder.fromUtf8, cStr_eq_self hstr, hbom]
  exact htext

theorem splitOn_ok (s : QString) :
    ('O' :: 'K' :: '|' :: s).splitOn '|' = ['O', 'K'] :: s.splitOn '|' := by
  have hok : ['O', 'K'].splitOn '|' = [['O', 'K']] := List.splitOn_eq_singleton (by decide)
  have hsplit := List.splitOn_append_cons_self (a := '|') ['O', 'K'] s
  rwa [hok] at hsplit

/-! ### The answers -/

/-- The window enters the room that it has created. -/
theorem effect_createOk (id roomId : UInt32) :
    effect qt ⟨.createRoomResp, id, ascii "OK|" ++ toDecimal roomId.toNat ++ ascii "|1"⟩ =
      .enter roomId := by
  have hok : ascii "OK|" = [0x4F, 0x4B, 0x7C] := by decide
  have hone : ascii "|1" = [0x7C, 0x31] := by decide
  have hzero : (0 : UInt8) ∉ 0x7C :: (toDecimal roomId.toNat ++ [0x7C, 0x31]) := by
    simp [zero_notMem_toDecimal]
  have hread : qt.toUInt (qt.text (toDecimal roomId.toNat)) = some roomId := by
    rw [qt.toUInt_toDecimal _ roomId.toNat_lt, UInt32.ofNat_toNat]
  -- the three parts
  have hlast : qt.text [0x31] = ['1'] := text_of_ascii qt (by simp)
  have hbar := text_append_of_ascii qt (a := [0x7C]) (by simp)
    (toDecimal roomId.toNat ++ [0x7C, 0x31])
  have hpayload : qt.fromUtf8 (ascii "OK|" ++ toDecimal roomId.toNat ++ ascii "|1") =
      'O' :: 'K' :: '|' :: qt.text (toDecimal roomId.toNat ++ 0x7C :: [0x31]) := by
    rw [hok, hone, List.append_assoc]
    exact (fromUtf8_ok hzero).trans (congrArg (['O', 'K'] ++ ·) hbar)
  have hparts : (qt.fromUtf8 (ascii "OK|" ++ toDecimal roomId.toNat ++ ascii "|1")).splitOn '|' =
      [['O', 'K'], qt.text (toDecimal roomId.toNat), ['1']] := by
    rw [hpayload, splitOn_ok, splitOn_text_bar (bar_notMem_toDecimal _), hlast]
    rfl
  simp only [effect, hparts]
  simp [hread]

theorem effect_createFail (id : UInt32) :
    effect qt ⟨.createRoomResp, id, ascii "FAIL"⟩ = .none := by
  have hfail : ascii "FAIL" = [0x46, 0x41, 0x49, 0x4C] := by decide
  have htext : qt.fromUtf8 (ascii "FAIL") = "FAIL".toList := by
    rw [hfail]
    exact text_of_ascii qt (a := [0x46, 0x41, 0x49, 0x4C]) (by simp)
  have hparts : ("FAIL".toList.splitOn '|').length = 1 := by decide
  simp only [effect, htext]
  exact if_neg fun h => absurd h.1 (by rw [hparts]; decide)

theorem effect_joinOk (id : UInt32) (n : Nat) :
    effect qt ⟨.joinRoomResp, id, ascii "OK|" ++ sizeToDecimal n⟩ = .confirm := by
  have hok : ascii "OK|" = [0x4F, 0x4B, 0x7C] := by decide
  have hzero : (0 : UInt8) ∉ 0x7C :: sizeToDecimal n := by
    simp [sizeToDecimal, zero_notMem_toDecimal]
  have hpayload : qt.fromUtf8 (ascii "OK|" ++ sizeToDecimal n) =
      'O' :: 'K' :: qt.text (0x7C :: sizeToDecimal n) := by
    rw [hok]
    exact fromUtf8_ok hzero
  have hprefix : ['O', 'K'].isPrefixOf (qt.fromUtf8 (ascii "OK|" ++ sizeToDecimal n)) = true := by
    rw [hpayload]
    rfl
  simp [effect, hprefix]

/-- Other answers do not touch the room. -/
theorem effect_plain {asked : MyMessage} (h : MyMessage.Plain asked msg) :
    effect qt msg = .none := by
  obtain h | h | h | h | ⟨-, h, hfail⟩ := h
  · simp only [effect, h]
  · simp only [effect, h]
  · simp only [effect, h]
  · simp only [effect, h]
  · have hmsg : msg = ⟨.createRoomResp, msg.id, ascii "FAIL"⟩ := by rw [← h, ← hfail]
    rw [hmsg, effect_createFail]

/-- A push counts members at most. -/
theorem effect_push (qt : QtText) (h : msg.type = .memberCountUpdate ∨ msg.type = .broadcastMsg) :
    effect qt msg = .none ∨ ∃ roomId, effect qt msg = .count roomId := by
  cases h with
  | inl h =>
    simp only [effect, h]
    split_ifs
    · exact Or.inr ⟨_, rfl⟩
    · exact Or.inl rfl
  | inr h => exact Or.inl (by simp only [effect, h])

/-- The answer to a change of the tables says where the session is now. -/
def effectOf (t : Tables) : Change → Effect
  | .create _ _ => .enter t.nextRoomId
  | .join _ _ _ => .confirm
  | .leave _ => .leave
  | _ => .none

theorem effect_answer {t : Tables} {c : Change} {request : MyMessage}
    (h : t.Answer request c msg) : effect qt msg = effectOf t c := by
  cases c with
  | create x name =>
    obtain rfl : msg = _ := h
    exact effect_createOk request.id t.nextRoomId
  | join x id ρ =>
    obtain ⟨n, rfl⟩ := h
    exact effect_joinOk request.id n
  | leave x =>
    obtain rfl : msg = _ := h
    rfl
  | _ => exact effect_plain h

/-! ### Clicks -/

/-- A click on a room writes the room at once; no other one changes the view. -/
theorem view_click (qt : QtText) (w : Window) (c : Click) :
    ((w.click qt c).1.view = w.view ∧ ∀ m ∈ (w.click qt c).2, m.type ≠ .joinRoomReq) ∨
    ∃ s roomId, c = .joinRoom s ∧ qt.toUInt s = some roomId ∧
      (w.click qt c).1.view = { w.view with currentRoomId := roomId } ∧
      (w.click qt c).2 = some ⟨.joinRoomReq, w.requestId, s.toUtf8⟩ := by
  cases c with
  | joinRoom s =>
    unfold click
    dsimp only
    split_ifs with hempty
    · exact Or.inl ⟨rfl, fun m hm => absurd hm (Option.not_mem_none m)⟩
    · cases hid : qt.toUInt s with
      | none => exact Or.inl ⟨rfl, fun m hm => absurd hm (Option.not_mem_none m)⟩
      | some roomId => exact Or.inr ⟨s, roomId, rfl, hid, rfl, rfl⟩
  | _ =>
    left
    unfold click request
    dsimp only
    first
    | split_ifs <;> simp [view]
    | simp [view]

/-- No click logs in. -/
theorem type_of_click {c : Click} {m : MyMessage} (h : m ∈ (w.click qt c).2) :
    m.type ≠ .loginReq := by
  unfold click request at h
  cases c with
  | heartbeat =>
    obtain rfl := Option.some.inj h
    exact fun hlogin => MyType.noConfusion hlogin
  | joinRoom s =>
    dsimp only at h
    split_ifs at h
    · cases h
    · cases hid : qt.toUInt s with
      | none =>
        rw [hid] at h
        cases h
      | some roomId =>
        rw [hid] at h
        obtain rfl := Option.some.inj h
        exact fun hlogin => MyType.noConfusion hlogin
  | _ =>
    dsimp only at h
    split_ifs at h <;> simp at h
    all_goals
      rw [← h]
      exact fun hlogin => MyType.noConfusion hlogin

end Window

end EchoNet.Client
