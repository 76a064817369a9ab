import EchoNet.Chat.Membership
import EchoNet.Protocol.BufferParse

/-!
# Sizes of the Emitted Frames

`MyProtocol::parse` bounds the body of what it accepts by `MAX_BODY_SIZE`; nothing bounds what
`encodeMessage` writes.  Of everything the service sends, only the broadcast of a chat message
carries a client's bytes, and it wraps them in the room id and the user name.

- `Extends`: what one operation adds to the history of `sendResponse`;
- `emitted_frames_acceptable_iff`: the frames of a run are acceptable exactly when every broadcast
  fits.
-/

namespace EchoNet.Chat

open EchoNet.Lib EchoNet.Protocol

/-- The message handed to `sendResponse`. -/
def Sent.message : Sent → MyMessage
  | .response _ msg => msg
  | .push _ msg => msg

/-- The gateway's parser takes the frame of the message as one frame. -/
def Sent.Acceptable (e : Sent) : Prop := parse (encodeMessage e.message) = .ok e.message []

theorem Sent.acceptable_iff (e : Sent) : e.Acceptable ↔ e.message.Fits := by
  constructor
  · intro h
    exact (parse_eq_ok h).1
  · intro hfits
    have hround := parse_encodeMessage e.message hfits []
    rwa [List.append_nil] at hround

/-! ## §1 What is added -/

/-- `s'` has sent something more than `s`, and all of it is acceptable exactly when `C`. -/
def Service.Extends (s s' : Service) (C : Prop) : Prop :=
  ∃ new, s'.sent = s.sent ++ new ∧ ((∀ e ∈ new, e.message.Fits) ↔ C)

namespace Service

theorem Extends.of_sent_eq {s s' : Service} (h : s'.sent = s.sent) : s.Extends s' True :=
  ⟨[], by simp [h], by simp⟩

theorem Extends.trans {s s' s'' : Service} {C D : Prop} (h : s.Extends s' C)
    (h' : s'.Extends s'' D) : s.Extends s'' (C ∧ D) := by
  obtain ⟨new, hsent, hC⟩ := h
  obtain ⟨new', hsent', hD⟩ := h'
  refine ⟨new ++ new', by rw [hsent', hsent, List.append_assoc], ?_⟩
  rw [List.forall_mem_append, hC, hD]

theorem Extends.congr {s s' : Service} {C D : Prop} (h : s.Extends s' C) (hCD : C ↔ D) :
    s.Extends s' D := by
  obtain ⟨new, hsent, hC⟩ := h
  exact ⟨new, hsent, hC.trans hCD⟩

/-- The history before does not matter. -/
theorem Extends.of_eq {s t s' : Service} {C : Prop} (h : t.Extends s' C) (hsent : t.sent = s.sent) :
    s.Extends s' C := by
  obtain ⟨new, hnew, hC⟩ := h
  exact ⟨new, by rw [hnew, hsent], hC⟩

theorem extends_respond (s : Service) (conn : Conn) (type : MyType) (msg : MyMessage)
    (payload : Bytes) :
    s.Extends (s.respond conn type msg payload) (6 + payload.length ≤ maxBodySize) :=
  ⟨[.response conn ⟨type, msg.id, payload⟩], rfl, by simp [Sent.message, MyMessage.Fits]⟩

/-- A reply that is short fits. -/
theorem extends_reply (s : Service) (conn : Conn) (type : MyType) (msg : MyMessage)
    {payload : Bytes} (h : payload.length ≤ 100) :
    s.Extends (s.respond conn type msg payload) True :=
  (s.extends_respond conn type msg payload).congr
    (iff_true_intro (Nat.le_trans (Nat.add_le_add_left h 6) (by decide)))

theorem extends_broadcast (s : Service) (ρ : RoomRef) (msg : MyMessage) :
    s.Extends (s.broadcast ρ msg) ((s.roomAt ρ).members = [] ∨ msg.Fits) := by
  refine ⟨_, rfl, ?_⟩
  cases (s.roomAt ρ).members with
  | nil => simp
  | cons x xs =>
    simp only [List.map_cons, List.forall_mem_cons, List.forall_mem_map, Sent.message,
      reduceCtorEq, false_or]
    exact ⟨And.left, fun hfits => ⟨hfits, fun _ _ => hfits⟩⟩

theorem length_ascii (text : String) : (ascii text).length = text.length := by
  rw [ascii, List.length_map, String.length_toList]

theorem length_roomId_le (id : UInt32) : (toDecimal id.toNat).length ≤ 10 :=
  length_toDecimal_le (by decide) (Nat.lt_trans id.toNat_lt (by decide))

/-- A member count is a few digits. -/
theorem extends_broadcastMemberCount (s : Service) (id : UInt32) :
    s.Extends (s.broadcastMemberCount id) True := by
  unfold broadcastMemberCount
  cases s.getRoomById id with
  | none => exact .of_sent_eq rfl
  | some ρ =>
    refine (s.extends_broadcast ρ _).congr (iff_true_intro (Or.inr ?_))
    have hid := length_roomId_le id
    -- ten digits of an id, a bar and the digits of a `size_t`
    have hcount := length_sizeToDecimal_le (s.roomAt ρ).memberCount
    simp only [MyMessage.Fits, List.length_append, length_ascii, maxBodySize]
    have hbar : "|".length = 1 := rfl
    omega

/-! ## §2 The handlers -/

theorem authenticate_error_length {env : Env} {msg : MyMessage} {refusal : Bytes}
    (h : authenticate env msg = .error refusal) : refusal.length ≤ 100 := by
  unfold authenticate at h
  split at h
  next => cases h; decide
  next =>
    split at h
    next => cases h; decide
    next =>
      split_ifs at h
      cases h
      decide
    next => cases h; decide

theorem extends_handleLogin (s : Service) (env : Env) (conn : Conn) (msg : MyMessage) :
    s.Extends (s.handleLogin env conn msg) True := by
  unfold handleLogin
  cases hauth : authenticate env msg with
  | error refusal => exact s.extends_reply conn _ msg (authenticate_error_length hauth)
  | ok username => exact .of_eq (extends_reply _ conn .loginResp msg (by decide)) rfl

theorem extends_handleCreateRoom (s : Service) (env : Env) (conn : Conn) (msg : MyMessage) :
    s.Extends (s.handleCreateRoom env conn msg) True := by
  unfold handleCreateRoom
  cases s.getSessionByConn conn with
  | none => exact s.extends_reply conn _ msg (by decide)
  | some x =>
    dsimp only
    split_ifs
    · exact s.extends_reply conn _ msg (by decide)
    · split
      next =>
        refine .of_eq (extends_reply _ conn .createRoomResp msg ?_) rfl
        have hid := length_roomId_le s.nextRoomId
        have hok : "OK|".length = 3 := rfl
        have hone : "|1".length = 2 := rfl
        simp only [List.length_append, length_ascii]
        omega
      next => exact .of_eq (extends_reply _ conn .createRoomResp msg (by decide)) rfl

theorem extends_handleJionRoom (s : Service) (env : Env) (conn : Conn) (msg : MyMessage) :
    s.Extends (s.handleJionRoom env conn msg) True := by
  unfold handleJionRoom
  cases s.getSessionByConn conn with
  | none => exact s.extends_reply conn _ msg (by decide)
  | some x =>
    cases stoul msg.payload with
    | none => exact s.extends_reply conn _ msg (by decide)
    | some n =>
      dsimp only
      cases s.getRoomById n.toUInt32 with
      | none => exact s.extends_reply conn _ msg (by decide)
      | some target =>
        -- the update of the count, and the answer
        have hupdate := extends_broadcastMemberCount
          (s.onTables fun t => t.join x n.toUInt32 target) n.toUInt32
        refine ((Extends.of_eq hupdate rfl).trans
          (.of_eq (extends_reply _ conn .joinRoomResp msg ?_) rfl)).congr (and_self_iff)
        have hok : "OK|".length = 3 := rfl
        rw [List.length_append, length_ascii]
        exact Nat.le_trans (Nat.add_le_add_left (length_sizeToDecimal_le _) _) (by decide)

theorem extends_handleLeaveRoom (s : Service) (env : Env) (conn : Conn) (msg : MyMessage) :
    s.Extends (s.handleLeaveRoom env conn msg) True := by
  unfold handleLeaveRoom
  cases s.getSessionByConn conn with
  | none => exact s.extends_reply conn _ msg (by decide)
  | some x =>
    have hupdate := extends_broadcastMemberCount (s.onTables fun t => t.leave x)
      (s.sessionAt x).roomId
    exact ((Extends.of_eq hupdate rfl).trans
      (.of_eq (extends_reply _ conn .leaveRoomResp msg (by decide)) rfl)).congr and_self_iff

theorem extends_onConnectionClosed (s : Service) (env : Env) (fd : Int) :
    s.Extends (s.onConnectionClosed env fd) True := by
  unfold onConnectionClosed
  dsimp only
  split
  next => exact .of_sent_eq rfl
  next x _ =>
    split_ifs
    · exact .of_sent_eq rfl
    · exact .of_eq (.of_eq (extends_broadcastMemberCount _ _) rfl) rfl

end Service

/-- The broadcast of a chat message of this client, if there is one, stays within the limit.
Two separators, the type and the id make the constant. -/
def Tables.BroadcastFits (t : Tables) (conn : Conn) (msg : MyMessage) : Prop :=
  ∀ x ∈ t.sessions.lookup conn.fd, (t.sessionAt x).roomId ≠ 0 →
    ∀ ρ ∈ t.rooms.lookup (t.sessionAt x).roomId, (t.roomAt ρ).members ≠ [] →
      (toDecimal (t.sessionAt x).roomId.toNat).length + (t.sessionAt x).username.length +
        msg.payload.length + 8 ≤ maxBodySize

instance (t : Tables) (conn : Conn) (msg : MyMessage) : Decidable (t.BroadcastFits conn msg) :=
  inferInstanceAs (Decidable (∀ x ∈ _, _ → ∀ ρ ∈ _, _ → _))

theorem chatMessage_fits_iff (roomId : UInt32) (username content : Bytes) :
    (chatMessage roomId username content).Fits ↔
      (toDecimal roomId.toNat).length + username.length + content.length + 8 ≤ maxBodySize := by
  have hbar : "|".length = 1 := rfl
  simp only [chatMessage, MyMessage.Fits, List.length_append, Service.length_ascii, hbar]
  omega

namespace Service

theorem extends_handleSendMessage (s : Service) (conn : Conn) (msg : MyMessage) :
    s.Extends (s.handleSendMessage conn msg) (s.toTables.BroadcastFits conn msg) := by
  unfold handleSendMessage getSessionByConn getSessionByFd getRoomById
  cases hx : s.sessions.lookup conn.fd with
  | none =>
    refine (s.extends_reply conn .errorResp msg (by decide)).congr (iff_of_true trivial ?_)
    simp [Tables.BroadcastFits, hx]
  | some x =>
    dsimp only
    split_ifs with hroom
    · refine (s.extends_reply conn .errorResp msg (by decide)).congr (iff_of_true trivial ?_)
      simp [Tables.BroadcastFits, hx, hroom]
    · cases hρ : s.rooms.lookup (s.sessionAt x).roomId with
      | none =>
        refine (s.extends_reply conn .errorResp msg (by decide)).congr (iff_of_true trivial ?_)
        simp [Tables.BroadcastFits, hx, hρ]
      | some ρ =>
        -- the broadcast may be too long, the answer `OK` is not
        have hpush := s.extends_broadcast ρ
          (chatMessage (s.sessionAt x).roomId (s.sessionAt x).username msg.payload)
        have hreply := extends_reply (s.broadcast ρ
          (chatMessage (s.sessionAt x).roomId (s.sessionAt x).username msg.payload))
          conn .sendMsgResp msg (by decide : (ascii "OK").length ≤ 100)
        -- the queue of the database sends nothing
        have hqueue := Extends.of_sent_eq (enqueueMessage_sent (respond (s.broadcast ρ
          (chatMessage (s.sessionAt x).roomId (s.sessionAt x).username msg.payload))
          conn .sendMsgResp msg (ascii "OK"))
          ⟨(s.sessionAt x).roomId, (s.sessionAt x).userId, msg.payload⟩)
        refine ((hpush.trans hreply).trans hqueue).congr ?_
        rw [and_true, and_true, chatMessage_fits_iff]
        simp [Tables.BroadcastFits, hx, hρ, hroom, or_iff_not_imp_left]

/-! ## §3 Operations and runs -/

/-- Every broadcast of the operation stays within the limit. -/
def BroadcastsFit (s : Service) : Op → Prop
  | .message env conn msg =>
    s.Admitted env conn msg → msg.type = .sendMsgReq → s.toTables.BroadcastFits conn msg
  | .closed _ _ => True

instance (s : Service) : (op : Op) → Decidable (s.BroadcastsFit op)
  | .message _ _ _ => inferInstanceAs (Decidable (_ → _ → _))
  | .closed _ _ => isTrue trivial

theorem extends_dispatch (s : Service) (env : Env) (conn : Conn) (msg : MyMessage) :
    s.Extends (s.dispatch env conn msg)
      (msg.type = .sendMsgReq → s.toTables.BroadcastFits conn msg) := by
  unfold dispatch
  cases htype : msg.type with
  | loginReq => exact (Extends.of_eq (extends_handleLogin _ env conn msg) rfl).congr (by simp)
  | createRoomReq =>
    exact (Extends.of_eq (extends_handleCreateRoom _ env conn msg) rfl).congr (by simp)
  | joinRoomReq => exact (Extends.of_eq (extends_handleJionRoom _ env conn msg) rfl).congr (by simp)
  | leaveRoomReq =>
    exact (Extends.of_eq (extends_handleLeaveRoom _ env conn msg) rfl).congr (by simp)
  | sendMsgReq =>
    exact (Extends.of_eq (extends_handleSendMessage s.countRequest conn msg) rfl).congr (by simp)
  | heartbeatReq =>
    exact (Extends.of_eq (extends_reply s.countRequest conn .heartbeatResp msg (by decide))
      rfl).congr (by simp)
  | _ =>
    exact (Extends.of_eq (extends_reply s.countRequest.countError conn .errorResp msg (by decide))
      rfl).congr (by simp)

theorem extends_apply (s : Service) (op : Op) : s.Extends (s.apply op) (s.BroadcastsFit op) := by
  cases op with
  | message env conn msg =>
    -- past the rate limiters a message is dispatched, otherwise it is answered with an error
    by_cases hpass : s.Admitted env conn msg
    · obtain ⟨s', htables, hsent, heq⟩ := handleMessage_eq_dispatch hpass
      have hadd := Extends.of_eq (s'.extends_dispatch env conn msg) hsent
      rw [← heq, htables] at hadd
      exact hadd.congr (by simp [BroadcastsFit, hpass])
    · obtain ⟨s', -, hsent, heq⟩ := handleMessage_eq_limited hpass
      have hadd : s'.Extends (s'.sendRateLimited conn msg) True :=
        .of_eq (extends_reply s'.countError conn .errorResp msg (by decide)) rfl
      show s.Extends (s.handleMessage env conn msg) _
      rw [heq]
      exact (Extends.of_eq hadd hsent).congr (by simp [BroadcastsFit, hpass])
  | closed env fd => exact s.extends_onConnectionClosed env fd

/-- An operation keeps the history acceptable exactly when its broadcasts fit. -/
theorem acceptable_apply_iff (s : Service) (op : Op) :
    (∀ e ∈ (s.apply op).sent, e.Acceptable) ↔
      (∀ e ∈ s.sent, e.Acceptable) ∧ s.BroadcastsFit op := by
  obtain ⟨new, hsent, hfits⟩ := s.extends_apply op
  simp only [hsent, List.forall_mem_append, Sent.acceptable_iff, hfits]

/-- **Emitted frames**: after any run, every message passed to `sendResponse` was encoded to
bytes that the parser takes as one frame, if and only if each chat message that was broadcast
in the run left room for the room id, the user name and the separators in front of it. -/
theorem emitted_frames_acceptable_iff {first : UInt32} {ops : List Op} {s : Service}
    (hrun : run Service.step (.init first) ops = some s) :
    (∀ e ∈ s.sent, parse (encodeMessage e.message) = .ok e.message []) ↔
      Meets Service.step BroadcastsFit (.init first) ops := by
  have hiff := last_iff_meets (G := BroadcastsFit) (I := fun _ => True)
    (P := fun s : Service => ∀ e ∈ s.sent, e.Acceptable) (fun _ _ _ _ _ => trivial)
    (fun s op t _ hstep => by
      cases hstep
      exact s.acceptable_apply_iff op) trivial hrun
  have hinit : ∀ e ∈ (init first).sent, e.Acceptable := by
    simp [init]
  exact hiff.trans (and_iff_right hinit)

/-- A short chat message in a room of one. -/
theorem emitted_frames_acceptable_iff_short :
    ∃ s, run Service.step (.init 1) [request ⟨0, 5⟩ .loginReq "ann|pw",
        request ⟨0, 5⟩ .createRoomReq "r", request ⟨0, 5⟩ .sendMsgReq "hello"] = some s ∧
      s.sent.length = 4 ∧ ∀ e ∈ s.sent, parse (encodeMessage e.message) = .ok e.message [] := by
  have hlast : ((run Service.step (.init 1) [request ⟨0, 5⟩ .loginReq "ann|pw",
      request ⟨0, 5⟩ .createRoomReq "r", request ⟨0, 5⟩ .sendMsgReq "hello"]).any fun s =>
        decide (s.sent.length = 4)) = true := by
    decide +kernel
  have hmeets : Meets Service.step BroadcastsFit (.init 1) [request ⟨0, 5⟩ .loginReq "ann|pw",
      request ⟨0, 5⟩ .createRoomReq "r", request ⟨0, 5⟩ .sendMsgReq "hello"] := by
    decide +kernel
  obtain ⟨s, hrun, hlen⟩ := exists_of_run_any hlast
  exact ⟨s, hrun, of_decide_eq_true hlen, (emitted_frames_acceptable_iff hrun).mpr hmeets⟩

/-- A chat message of the largest size that the parser accepts. -/
def largestMessage : MyMessage := ⟨.sendMsgReq, 3, List.replicate (16 * 1024 * 1024 - 6) 0x78⟩

theorem length_largestMessage : largestMessage.payload.length = 16 * 1024 * 1024 - 6 :=
  List.length_replicate

/-- Ann sends the largest message that the parser accepts to the room she is alone in: the
broadcast has `1|ann|` in front of it. -/
theorem largest_message_rejected :
    ∃ env s, run Service.step (.init 1) [request ⟨0, 5⟩ .loginReq "ann|pw",
        request ⟨0, 5⟩ .createRoomReq "r", .message env ⟨0, 5⟩ largestMessage] = some s ∧
      parse (encodeMessage largestMessage) = .ok largestMessage [] ∧
      ∃ e ∈ s.sent, parse (encodeMessage e.message) ≠ .ok e.message [] := by
  let env : Env := ⟨0, .executed .noRow, .executed (), .reply⟩
  have hbefore : ((run Service.step (.init 1) [request ⟨0, 5⟩ .loginReq "ann|pw",
      request ⟨0, 5⟩ .createRoomReq "r"]).any fun s =>
        decide ((s.passLimiters env ⟨0, 5⟩).2 = true ∧ s.sessions.lookup 5 = some 0 ∧
          s.rooms.lookup 1 = some 0 ∧ (s.sessionAt 0).roomId = 1 ∧
          (s.sessionAt 0).username.length = 3 ∧ (s.roomAt 0).members ≠ [])) = true := by
    decide +kernel
  -- the state before the large message is computed, the message itself is not
  obtain ⟨s, hrun, hs⟩ := exists_of_run_any hbefore
  obtain ⟨hpass, hx, hρ, hroom, hname, hmembers⟩ := of_decide_eq_true hs
  refine ⟨env, s.apply (.message env ⟨0, 5⟩ largestMessage), ?_, ?_, ?_⟩
  · exact run_append.mpr ⟨s, hrun, rfl⟩
  · have hround := parse_encodeMessage largestMessage
      (by rw [MyMessage.Fits, length_largestMessage]; decide) []
    rwa [List.append_nil] at hround
  · -- the broadcast does not fit, so the history is not acceptable any more
    have hlarge : ¬ s.BroadcastsFit (.message env ⟨0, 5⟩ largestMessage) := by
      intro hfits
      have hbound := hfits (Or.inr hpass) rfl 0 hx (by rw [hroom]; decide) 0
        (by rw [hroom]; exact hρ) hmembers
      rw [length_largestMessage, hname, maxBodySize] at hbound
      omega
    by_contra hnone
    refine hlarge ((acceptable_apply_iff s _).mp fun e he => ?_).2
    by_contra hbad
    exact hnone ⟨e, he, hbad⟩

end Service

end EchoNet.Chat
