import EchoNet.Chat.Changes

/-!
# What a Message is Answered

A handled message is answered once, on its own connection and after everything else that the
handler sends.  What else a handler sends, and all that `onConnectionClosed` sends, are pushes to
members of a room: the number of members, or a chat message.

## Main results

- `handleMessage_answers`: which answer goes with which change of the tables.
- `onConnectionClosed_pushes`
- `session_after_of_ne`: an operation changes the session of its own descriptor only.
-/

namespace EchoNet.Chat

open EchoNet.Lib EchoNet.Protocol

/-! ## §1 Pushes and answers -/

/-- What a session is sent without having asked. -/
def Sent.Push (e : Sent) : Prop :=
  ∃ y m, e = .push y m ∧ (m.type = .memberCountUpdate ∨ m.type = .broadcastMsg)

/-- An answer to `msg` that tells of no room. -/
def MyMessage.Plain (msg m : MyMessage) : Prop :=
  m.type = .errorResp ∨ m.type = .sendMsgResp ∨ m.type = .heartbeatResp ∨ m.type = .loginResp ∨
    (msg.type = .createRoomReq ∧ m.type = .createRoomResp ∧ m.payload = ascii "FAIL")

/-- The answer to `msg`, when the tables `t` make the change `c` for it. -/
def Tables.Answer (t : Tables) (msg : MyMessage) : Change → MyMessage → Prop
  | .create _ _, m =>
    m = ⟨.createRoomResp, msg.id, ascii "OK|" ++ toDecimal t.nextRoomId.toNat ++ ascii "|1"⟩
  | .join _ _ _, m => ∃ n, m = ⟨.joinRoomResp, msg.id, ascii "OK|" ++ sizeToDecimal n⟩
  | .leave _, m => m = ⟨.leaveRoomResp, msg.id, ascii "OK"⟩
  | _, m => MyMessage.Plain msg m

namespace Service

/-- `s'` has pushed more than `s`, and sent nothing else. -/
def Pushes (s s' : Service) : Prop :=
  ∃ pushes, s'.sent = s.sent ++ pushes ∧ ∀ e ∈ pushes, Sent.Push e

/-- `s'` has pushed more than `s`, and then answered `m` to `conn`. -/
def Answers (s s' : Service) (conn : Conn) (m : MyMessage) : Prop :=
  ∃ pushes, s'.sent = s.sent ++ (pushes ++ [.response conn m]) ∧ ∀ e ∈ pushes, Sent.Push e

variable {s s' t : Service} {conn : Conn} {m : MyMessage}

theorem Pushes.of_sent_eq (h : s'.sent = s.sent) : s.Pushes s' :=
  ⟨[], by rw [h, List.append_nil], fun _ he => absurd he List.not_mem_nil⟩

/-- Only the histories count. -/
theorem Pushes.of_eq (h : s.Pushes s') {u : Service} (hbefore : u.sent = s.sent)
    (hafter : t.sent = s'.sent) : u.Pushes t := by
  obtain ⟨out, hout, hpush⟩ := h
  exact ⟨out, by rw [hafter, hout, hbefore], hpush⟩

theorem Answers.of_eq (h : s.Answers s' conn m) {u : Service} (hbefore : u.sent = s.sent)
    (hafter : t.sent = s'.sent) : u.Answers t conn m := by
  obtain ⟨out, hout, hpush⟩ := h
  exact ⟨out, by rw [hafter, hout, hbefore], hpush⟩

/-- A handler that pushes and then responds. -/
theorem Pushes.respond (h : s.Pushes s') (conn : Conn) (type : MyType) (msg : MyMessage)
    (payload : Bytes) :
    s.Answers (s'.respond conn type msg payload) conn ⟨type, msg.id, payload⟩ := by
  obtain ⟨out, hsent, hpush⟩ := h
  refine ⟨out, ?_, hpush⟩
  change s'.sent ++ [_] = _
  rw [hsent, List.append_assoc]

theorem answers_respond (s : Service) (conn : Conn) (type : MyType) (msg : MyMessage)
    (payload : Bytes) :
    s.Answers (s.respond conn type msg payload) conn ⟨type, msg.id, payload⟩ :=
  (Pushes.of_sent_eq rfl).respond conn type msg payload

theorem pushes_broadcast (s : Service) (ρ : RoomRef)
    (hm : m.type = .memberCountUpdate ∨ m.type = .broadcastMsg) : s.Pushes (s.broadcast ρ m) := by
  refine ⟨_, rfl, fun e he => ?_⟩
  obtain ⟨y, -, rfl⟩ := List.mem_map.mp he
  exact ⟨y, m, rfl, hm⟩

theorem pushes_broadcastMemberCount (s : Service) (id : UInt32) :
    s.Pushes (s.broadcastMemberCount id) := by
  unfold broadcastMemberCount
  cases s.getRoomById id with
  | none => exact .of_sent_eq rfl
  | some ρ => exact s.pushes_broadcast ρ (Or.inl rfl)

/-- The number of members is told before an empty room is removed. -/
theorem pushes_checkAndRemoveEmptyRoom (s : Service) (id : UInt32) :
    s.Pushes ((s.broadcastMemberCount id).checkAndRemoveEmptyRoom id) :=
  (s.pushes_broadcastMemberCount id).of_eq rfl rfl

/-! ## §2 The handlers -/

theorem plain_error {msg : MyMessage} {id : UInt32} {payload : Bytes} :
    MyMessage.Plain msg ⟨.errorResp, id, payload⟩ := Or.inl rfl

theorem handleLogin_answers (s : Service) (env : Env) (conn : Conn) (msg : MyMessage) :
    ∃ m, s.Answers (s.handleLogin env conn msg) conn m ∧ MyMessage.Plain msg m := by
  have hplain : ∀ payload, MyMessage.Plain msg ⟨.loginResp, msg.id, payload⟩ := fun _ =>
    Or.inr (Or.inr (Or.inr (Or.inl rfl)))
  unfold handleLogin
  cases authenticate env msg with
  | error refusal => exact ⟨_, s.answers_respond conn .loginResp msg refusal, hplain refusal⟩
  | ok username =>
    have hanswers := s.answers_respond conn .loginResp msg (ascii "OK")
    exact ⟨_, hanswers.of_eq rfl rfl, hplain _⟩

theorem handleCreateRoom_answers (s : Service) (env : Env) (conn : Conn) {msg : MyMessage}
    (htype : msg.type = .createRoomReq) :
    ∃ m, s.Answers (s.handleCreateRoom env conn msg) conn m ∧
      s.toTables.Answer msg (s.toTables.requested env conn msg) m := by
  unfold handleCreateRoom Tables.requested getSessionByConn getSessionByFd
  rw [htype]
  cases s.sessions.lookup conn.fd with
  | none => exact ⟨_, s.answers_respond conn .errorResp msg _, plain_error⟩
  | some x =>
    simp only [List.isEmpty_iff]
    split_ifs with hname hinsert
    · exact ⟨_, s.answers_respond conn .errorResp msg _, plain_error⟩
    · rw [hinsert]
      exact ⟨_, (s.answers_respond conn .createRoomResp msg _).of_eq rfl rfl, rfl⟩
    -- without a row the answer is `FAIL`
    · have hfail : MyMessage.Plain msg ⟨.createRoomResp, msg.id, ascii "FAIL"⟩ :=
        Or.inr (Or.inr (Or.inr (Or.inr ⟨htype, rfl, rfl⟩)))
      cases h : env.insertRoom with
      | executed result => exact absurd h hinsert
      | _ => exact ⟨_, (s.answers_respond conn .createRoomResp msg _).of_eq rfl rfl, hfail⟩

theorem handleJionRoom_answers (s : Service) (env : Env) (conn : Conn) {msg : MyMessage}
    (htype : msg.type = .joinRoomReq) :
    ∃ m, s.Answers (s.handleJionRoom env conn msg) conn m ∧
      s.toTables.Answer msg (s.toTables.requested env conn msg) m := by
  unfold handleJionRoom Tables.requested getSessionByConn getSessionByFd getRoomById
  rw [htype]
  cases s.sessions.lookup conn.fd with
  | none => exact ⟨_, s.answers_respond conn .errorResp msg _, plain_error⟩
  | some x =>
    cases stoul msg.payload with
    | none => exact ⟨_, s.answers_respond conn .errorResp msg _, plain_error⟩
    | some n =>
      dsimp only
      cases s.rooms.lookup n.toUInt32 with
      | none => exact ⟨_, s.answers_respond conn .errorResp msg _, plain_error⟩
      | some ρ =>
        have hcount := (s.onTables fun t => t.join x n.toUInt32 ρ).pushes_broadcastMemberCount
          n.toUInt32
        refine ⟨_, ((hcount.of_eq rfl rfl).respond conn .joinRoomResp msg _).of_eq rfl rfl, _, rfl⟩

theorem handleLeaveRoom_answers (s : Service) (env : Env) (conn : Conn) {msg : MyMessage}
    (htype : msg.type = .leaveRoomReq) :
    ∃ m, s.Answers (s.handleLeaveRoom env conn msg) conn m ∧
      s.toTables.Answer msg (s.toTables.requested env conn msg) m := by
  unfold handleLeaveRoom Tables.requested getSessionByConn getSessionByFd
  rw [htype]
  cases s.sessions.lookup conn.fd with
  | none => exact ⟨_, s.answers_respond conn .errorResp msg _, plain_error⟩
  | some x =>
    have hcount := (s.onTables fun t => t.leave x).pushes_checkAndRemoveEmptyRoom
      (s.sessionAt x).roomId
    exact ⟨_, ((hcount.of_eq rfl rfl).respond conn .leaveRoomResp msg _).of_eq rfl rfl, rfl⟩

theorem handleSendMessage_answers (s : Service) (conn : Conn) (msg : MyMessage) :
    ∃ m, s.Answers (s.handleSendMessage conn msg) conn m ∧ MyMessage.Plain msg m := by
  unfold handleSendMessage
  cases s.getSessionByConn conn with
  | none => exact ⟨_, s.answers_respond conn .errorResp msg _, plain_error⟩
  | some x =>
    dsimp only
    split_ifs
    · exact ⟨_, s.answers_respond conn .errorResp msg _, plain_error⟩
    · cases s.getRoomById (s.sessionAt x).roomId with
      | none => exact ⟨_, s.answers_respond conn .errorResp msg _, plain_error⟩
      | some ρ =>
        have hsaid := s.pushes_broadcast ρ (m := chatMessage (s.sessionAt x).roomId
          (s.sessionAt x).username msg.payload) (Or.inr rfl)
        have hanswers := hsaid.respond conn .sendMsgResp msg (ascii "OK")
        exact ⟨_, hanswers.of_eq rfl (enqueueMessage_sent _ _), Or.inr (Or.inl rfl)⟩

theorem dispatch_answers (s : Service) (env : Env) (conn : Conn) (msg : MyMessage) :
    ∃ m, s.Answers (s.dispatch env conn msg) conn m ∧
      s.toTables.Answer msg (s.toTables.requested env conn msg) m := by
  unfold dispatch
  cases htype : msg.type with
  | loginReq =>
    obtain ⟨m, hm, hplain⟩ := s.countRequest.handleLogin_answers env conn msg
    refine ⟨m, hm.of_eq rfl rfl, ?_⟩
    unfold Tables.requested
    rw [htype]
    cases authenticate env msg <;> exact hplain
  | createRoomReq =>
    obtain ⟨m, hm, hanswer⟩ := s.countRequest.handleCreateRoom_answers env conn htype
    exact ⟨m, hm.of_eq rfl rfl, hanswer⟩
  | joinRoomReq =>
    obtain ⟨m, hm, hanswer⟩ := s.countRequest.handleJionRoom_answers env conn htype
    exact ⟨m, hm.of_eq rfl rfl, hanswer⟩
  | leaveRoomReq =>
    obtain ⟨m, hm, hanswer⟩ := s.countRequest.handleLeaveRoom_answers env conn htype
    exact ⟨m, hm.of_eq rfl rfl, hanswer⟩
  | sendMsgReq =>
    obtain ⟨m, hm, hplain⟩ := s.countRequest.handleSendMessage_answers conn msg
    exact ⟨m, hm.of_eq rfl rfl, by simpa [Tables.requested, htype, Tables.Answer] using hplain⟩
  | heartbeatReq =>
    have hm := s.countRequest.answers_respond conn .heartbeatResp msg []
    refine ⟨_, hm.of_eq rfl rfl, ?_⟩
    simp [Tables.requested, htype, Tables.Answer, MyMessage.Plain]
  | _ =>
    have hm := s.countRequest.answers_respond conn .errorResp msg
      (ascii "Unsupported message type")
    refine ⟨_, hm.of_eq rfl rfl, ?_⟩
    simp [Tables.requested, htype, Tables.Answer, MyMessage.Plain]

/-! ## §3 Operations -/

@[simp] theorem afterLimiters_sent (s : Service) (env : Env) (conn : Conn) (msg : MyMessage) :
    (s.afterLimiters env conn msg).sent = s.sent := by
  unfold afterLimiters
  split_ifs
  · rfl
  · exact s.passLimiters_sent env conn

/-- The answer to a message says what it has changed. -/
theorem handleMessage_answers (s : Service) (env : Env) (conn : Conn) (msg : MyMessage) :
    ∃ m, s.Answers (s.handleMessage env conn msg) conn m ∧
      s.toTables.Answer msg (s.change (.message env conn msg)) m := by
  rw [handleMessage_eq, change]
  split_ifs
  · obtain ⟨m, hm, hanswer⟩ := (s.afterLimiters env conn msg).dispatch_answers env conn msg
    rw [afterLimiters_toTables] at hanswer
    exact ⟨m, hm.of_eq (s.afterLimiters_sent env conn msg).symm rfl, hanswer⟩
  · have hm := (s.afterLimiters env conn msg).answers_respond conn .errorResp msg
      (ascii "RATE_LIMITED")
    exact ⟨_, hm.of_eq (s.afterLimiters_sent env conn msg).symm rfl, plain_error⟩

theorem onConnectionClosed_pushes (s : Service) (env : Env) (fd : Int) :
    s.Pushes (s.onConnectionClosed env fd) := by
  unfold onConnectionClosed getSessionByFd
  dsimp only
  cases s.sessions.lookup fd with
  | none => exact .of_sent_eq rfl
  | some x =>
    dsimp only
    split_ifs
    · exact .of_sent_eq rfl
    · obtain ⟨out, hout, hpush⟩ := pushes_checkAndRemoveEmptyRoom _ _
      exact ⟨out, hout, hpush⟩

end Service

/-! ## §4 The session of an operation -/

/-- The descriptor that an operation is about. -/
def Op.fd : Op → Int
  | .message _ conn _ => conn.fd
  | .closed _ fd => fd

/-- A change concerns no other session than the one of descriptor `fd`. -/
def Change.At (t : Tables) (fd : Int) : Change → Prop
  | .login conn _ => conn.fd = fd
  | .create x _ => t.sessions.lookup fd = some x
  | .join x _ _ => t.sessions.lookup fd = some x
  | .leave x => t.sessions.lookup fd = some x
  | .close f _ => f = fd
  | _ => True

namespace Tables

variable {t : Tables}

/-- The changes that a message other than a login asks for, by its type. -/
theorem requested_cases (t : Tables) (env : Env) {conn : Conn} {msg : MyMessage} {x : SessionRef}
    (hx : t.sessions.lookup conn.fd = some x) (hlogin : msg.type ≠ .loginReq) :
    (t.requested env conn msg = .none ∨ t.requested env conn msg = .draw) ∨
    (msg.type = .createRoomReq ∧ ∃ name, t.requested env conn msg = .create x name) ∨
    (msg.type = .joinRoomReq ∧ ∃ n ρ, stoul msg.payload = some n ∧
      t.requested env conn msg = .join x n.toUInt32 ρ) ∨
    (msg.type = .leaveRoomReq ∧ t.requested env conn msg = .leave x) := by
  unfold requested
  cases htype : msg.type with
  | loginReq => exact absurd htype hlogin
  | createRoomReq =>
    rw [hx]
    dsimp only
    split_ifs
    · exact Or.inl (Or.inl rfl)
    · exact Or.inr (Or.inl ⟨rfl, _, rfl⟩)
    · exact Or.inl (Or.inr rfl)
  | joinRoomReq =>
    rw [hx]
    cases hn : stoul msg.payload with
    | none => exact Or.inl (Or.inl rfl)
    | some n =>
      dsimp only
      cases t.rooms.lookup n.toUInt32 with
      | none => exact Or.inl (Or.inl rfl)
      | some ρ => exact Or.inr (Or.inr (Or.inl ⟨rfl, n, ρ, rfl, rfl⟩))
  | leaveRoomReq =>
    rw [hx]
    exact Or.inr (Or.inr (Or.inr ⟨rfl, rfl⟩))
  | _ => exact Or.inl (Or.inl rfl)

theorem requested_at (t : Tables) (env : Env) (conn : Conn) (msg : MyMessage) :
    (t.requested env conn msg).At t conn.fd := by
  by_cases hlogin : msg.type = .loginReq
  · unfold requested
    rw [hlogin]
    cases authenticate env msg with
    | error refusal => exact trivial
    | ok username => exact rfl
  · cases hx : t.sessions.lookup conn.fd with
    | none =>
      have hnone : t.requested env conn msg = .none := by
        unfold requested
        rw [hx]
        cases htype : msg.type with
        | loginReq => exact absurd htype hlogin
        | _ => rfl
      rw [hnone]
      exact trivial
    | some x =>
      obtain (h | h) | ⟨-, name, h⟩ | ⟨-, n, ρ, -, h⟩ | ⟨-, h⟩ := requested_cases t env hx hlogin
      · rw [h]
        exact trivial
      · rw [h]
        exact trivial
      · rw [h]
        exact hx
      · rw [h]
        exact hx
      · rw [h]
        exact hx

/-- A session is out of the reach of changes that concern another descriptor. -/
theorem session_after_of_ne (hc : t.Consistent) {fd f : Int} {x : SessionRef}
    (hx : t.sessions.lookup fd = some x) (hne : f ≠ fd) {c : Change} (hat : c.At t f) :
    (t.after c).sessions.lookup fd = some x ∧ (t.after c).sessionAt x = t.sessionAt x := by
  have hother : ∀ {y}, t.sessions.lookup f = some y → x ≠ y := by
    rintro y hy rfl
    exact hne (hc.session_unique hy hx)
  cases c with
  | none => exact ⟨hx, rfl⟩
  | draw => exact ⟨hx, rfl⟩
  | login conn username =>
    obtain rfl : conn.fd = f := hat
    have hlt := hc.session_lt fd x hx
    refine ⟨?_, Function.update_of_ne hlt.ne _ _⟩
    change (t.sessions.insert conn.fd t.freshSession).lookup fd = some x
    rw [AList.lookup_insert_ne (Ne.symm hne), hx]
  | create y name =>
    refine ⟨hx, ?_⟩
    rw [after, create, setRoomId_sessionAt_of_ne _ _ (hother hat)]
    rfl
  | join y id ρ =>
    refine ⟨by simpa [after, join] using hx, ?_⟩
    rw [after, join, setRoomId_sessionAt_of_ne _ _ (hother hat), addMember_sessionAt,
      leaveOld_sessionAt]
  | leave y =>
    refine ⟨by simpa [after, leave] using hx, ?_⟩
    rw [after, removeEmptyRoom_sessionAt, leave, setRoomId_sessionAt_of_ne _ _ (hother hat),
      removeFromRoom_sessionAt]
  | close g y =>
    obtain rfl : g = f := hat
    refine ⟨?_, by rw [after, close_sessionAt]⟩
    rw [after, close_sessions, AList.lookup_erase_ne (Ne.symm hne), hx]

/-- Where a change of its own leaves a session. -/
theorem roomId_after_create (x : SessionRef) (name : Bytes) :
    ((t.after (.create x name)).sessionAt x).roomId = t.nextRoomId :=
  setRoomId_roomId_self _ _ _

theorem roomId_after_join (x : SessionRef) (id : UInt32) (ρ : RoomRef) :
    ((t.after (.join x id ρ)).sessionAt x).roomId = id :=
  setRoomId_roomId_self _ _ _

theorem roomId_after_leave (x : SessionRef) :
    ((t.after (.leave x)).sessionAt x).roomId = 0 := by
  rw [after, removeEmptyRoom_sessionAt]
  exact setRoomId_roomId_self _ _ _

end Tables

namespace Service

theorem change_at (s : Service) (op : Op) : (s.change op).At s.toTables op.fd := by
  cases op with
  | message env conn msg =>
    rw [change]
    split_ifs
    · exact s.toTables.requested_at env conn msg
    · exact trivial
  | closed env fd =>
    rw [change]
    cases s.sessions.lookup fd with
    | none => exact trivial
    | some x => exact rfl

/-- What a message other than a login changes for the session of its connection. -/
theorem change_cases (s : Service) (env : Env) {conn : Conn} {msg : MyMessage} {x : SessionRef}
    (hx : s.sessions.lookup conn.fd = some x) (hlogin : msg.type ≠ .loginReq) :
    (s.change (.message env conn msg) = .none ∨ s.change (.message env conn msg) = .draw) ∨
    (msg.type = .createRoomReq ∧ ∃ name, s.change (.message env conn msg) = .create x name) ∨
    (msg.type = .joinRoomReq ∧ ∃ n ρ, stoul msg.payload = some n ∧
      s.change (.message env conn msg) = .join x n.toUInt32 ρ) ∨
    (msg.type = .leaveRoomReq ∧ s.change (.message env conn msg) = .leave x) := by
  rw [change]
  split_ifs
  · exact Tables.requested_cases s.toTables env hx hlogin
  · exact Or.inl (Or.inl rfl)

end Service

end EchoNet.Chat
