import EchoNet.Chat.Service

/-!
# What the Handlers Do to the Tables

Every handler of the chat service changes the tables by one of six transitions, or not at
all.  This file gives the small lemmas of the operations on the tables, and the inversion of
an operation of the service that later invariants use instead of the handlers.

## Main results

- `handleMessage_of_admitted`, `onConnectionClosed_toTables`: the handlers refine `Tables.handle`
  and `Tables.close`.
- `apply_effect`: what a completed operation can do to the tables, with its guards.
-/

namespace EchoNet.Chat

open EchoNet.Lib EchoNet.Protocol EchoNet.RateLimit

namespace Tables

/-! ## §1 Small lemmas -/

section Small

variable (t : Tables) (id : UInt32) (x y : SessionRef) (ρ σ : RoomRef)

@[simp] theorem setRoomId_sessions : (t.setRoomId x id).sessions = t.sessions := rfl
@[simp] theorem setRoomId_rooms : (t.setRoomId x id).rooms = t.rooms := rfl
@[simp] theorem setRoomId_roomAt : (t.setRoomId x id).roomAt = t.roomAt := rfl
@[simp] theorem setRoomId_freshSession : (t.setRoomId x id).freshSession = t.freshSession := rfl
@[simp] theorem setRoomId_freshRoom : (t.setRoomId x id).freshRoom = t.freshRoom := rfl
@[simp] theorem setRoomId_nextRoomId : (t.setRoomId x id).nextRoomId = t.nextRoomId := rfl

theorem setRoomId_roomId_self : ((t.setRoomId x id).sessionAt x).roomId = id := by
  simp [setRoomId]

theorem setRoomId_sessionAt_of_ne {x y : SessionRef} (h : y ≠ x) :
    (t.setRoomId x id).sessionAt y = t.sessionAt y := by
  simp [setRoomId, h]

@[simp] theorem setRoomId_conn : ((t.setRoomId x id).sessionAt y).conn = (t.sessionAt y).conn := by
  by_cases h : y = x
  · subst h
    simp [setRoomId]
  · rw [setRoomId_sessionAt_of_ne t id h]

@[simp] theorem setRoomId_username :
    ((t.setRoomId x id).sessionAt y).username = (t.sessionAt y).username := by
  by_cases h : y = x
  · subst h
    simp [setRoomId]
  · rw [setRoomId_sessionAt_of_ne t id h]

@[simp] theorem setRoomId_userId :
    ((t.setRoomId x id).sessionAt y).userId = (t.sessionAt y).userId := by
  by_cases h : y = x
  · subst h
    simp [setRoomId]
  · rw [setRoomId_sessionAt_of_ne t id h]

@[simp] theorem addMember_sessions : (t.addMember ρ x).sessions = t.sessions := rfl
@[simp] theorem addMember_sessionAt : (t.addMember ρ x).sessionAt = t.sessionAt := rfl
@[simp] theorem addMember_rooms : (t.addMember ρ x).rooms = t.rooms := rfl
@[simp] theorem addMember_freshSession : (t.addMember ρ x).freshSession = t.freshSession := rfl
@[simp] theorem addMember_freshRoom : (t.addMember ρ x).freshRoom = t.freshRoom := rfl
@[simp] theorem addMember_nextRoomId : (t.addMember ρ x).nextRoomId = t.nextRoomId := rfl

theorem addMember_roomAt :
    (t.addMember ρ x).roomAt σ = if σ = ρ then (t.roomAt σ).addMember x else t.roomAt σ := by
  refine (Function.update_apply t.roomAt ρ _ σ).trans ?_
  split_ifs with h
  · rw [h]
  · rfl

@[simp] theorem mem_addMember :
    y ∈ ((t.addMember ρ x).roomAt σ).members ↔ y ∈ (t.roomAt σ).members ∨ (σ = ρ ∧ y = x) := by
  rw [addMember_roomAt]
  split_ifs with h <;> simp [h]

@[simp] theorem removeFromRoom_sessions : (t.removeFromRoom id x).sessions = t.sessions := by
  unfold removeFromRoom
  split <;> rfl

@[simp] theorem removeFromRoom_sessionAt : (t.removeFromRoom id x).sessionAt = t.sessionAt := by
  unfold removeFromRoom
  split <;> rfl

@[simp] theorem removeFromRoom_rooms : (t.removeFromRoom id x).rooms = t.rooms := by
  unfold removeFromRoom
  split <;> rfl

@[simp] theorem removeFromRoom_freshSession :
    (t.removeFromRoom id x).freshSession = t.freshSession := by
  unfold removeFromRoom
  split <;> rfl

@[simp] theorem removeFromRoom_freshRoom : (t.removeFromRoom id x).freshRoom = t.freshRoom := by
  unfold removeFromRoom
  split <;> rfl

@[simp] theorem removeFromRoom_nextRoomId :
    (t.removeFromRoom id x).nextRoomId = t.nextRoomId := by
  unfold removeFromRoom
  split <;> rfl

theorem removeFromRoom_roomAt :
    (t.removeFromRoom id x).roomAt σ =
      if t.rooms.lookup id = some σ then (t.roomAt σ).removeMember x else t.roomAt σ := by
  unfold removeFromRoom
  cases t.rooms.lookup id with
  | none => rfl
  | some ρ =>
    refine (Function.update_apply t.roomAt ρ _ σ).trans ?_
    by_cases h : σ = ρ
    · rw [if_pos h, if_pos (congrArg some h.symm), h]
    · rw [if_neg h, if_neg fun hρ => h (Option.some.inj hρ).symm]

@[simp] theorem mem_removeFromRoom :
    y ∈ ((t.removeFromRoom id x).roomAt σ).members ↔
      y ∈ (t.roomAt σ).members ∧ ¬ (t.rooms.lookup id = some σ ∧ y = x) := by
  rw [removeFromRoom_roomAt]
  split_ifs with h <;> simp [h]

@[simp] theorem removeEmptyRoom_sessions : (t.removeEmptyRoom id).sessions = t.sessions := by
  unfold removeEmptyRoom
  split
  · split_ifs <;> rfl
  · rfl

@[simp] theorem removeEmptyRoom_sessionAt : (t.removeEmptyRoom id).sessionAt = t.sessionAt := by
  unfold removeEmptyRoom
  split
  · split_ifs <;> rfl
  · rfl

@[simp] theorem removeEmptyRoom_roomAt : (t.removeEmptyRoom id).roomAt = t.roomAt := by
  unfold removeEmptyRoom
  split
  · split_ifs <;> rfl
  · rfl

@[simp] theorem removeEmptyRoom_freshSession :
    (t.removeEmptyRoom id).freshSession = t.freshSession := by
  unfold removeEmptyRoom
  split
  · split_ifs <;> rfl
  · rfl

@[simp] theorem removeEmptyRoom_freshRoom : (t.removeEmptyRoom id).freshRoom = t.freshRoom := by
  unfold removeEmptyRoom
  split
  · split_ifs <;> rfl
  · rfl

@[simp] theorem removeEmptyRoom_nextRoomId : (t.removeEmptyRoom id).nextRoomId = t.nextRoomId := by
  unfold removeEmptyRoom
  split
  · split_ifs <;> rfl
  · rfl

/-- A room is still registered after the check exactly when it is not the empty one. -/
theorem lookup_removeEmptyRoom (id' : UInt32) :
    (t.removeEmptyRoom id).rooms.lookup id' = some σ ↔
      t.rooms.lookup id' = some σ ∧ ¬ (id' = id ∧ (t.roomAt σ).members = []) := by
  unfold removeEmptyRoom
  cases h : t.rooms.lookup id with
  | none =>
    refine ⟨fun hσ => ⟨hσ, ?_⟩, And.left⟩
    rintro ⟨rfl, -⟩
    rw [h] at hσ
    cases hσ
  | some ρ =>
    dsimp only
    by_cases hid : id' = id
    · subst hid
      simp only [h, Room.memberCount_eq_zero]
      split_ifs with hempty
      · simp only [AList.lookup_erase, reduceCtorEq, false_iff]
        rintro ⟨hσ, hne⟩
        cases hσ
        exact hne ⟨trivial, hempty⟩
      · simp only [h, Option.some.injEq, true_and]
        exact ⟨fun hσ => ⟨hσ, hσ ▸ hempty⟩, And.left⟩
    · split_ifs <;> simp [hid]

@[simp] theorem dropSession_sessionAt (fd : Int) : (t.dropSession fd).sessionAt = t.sessionAt := rfl
@[simp] theorem dropSession_rooms (fd : Int) : (t.dropSession fd).rooms = t.rooms := rfl
@[simp] theorem dropSession_roomAt (fd : Int) : (t.dropSession fd).roomAt = t.roomAt := rfl

@[simp] theorem drawRoomId_sessions : t.drawRoomId.sessions = t.sessions := rfl
@[simp] theorem drawRoomId_sessionAt : t.drawRoomId.sessionAt = t.sessionAt := rfl
@[simp] theorem drawRoomId_rooms : t.drawRoomId.rooms = t.rooms := rfl
@[simp] theorem drawRoomId_roomAt : t.drawRoomId.roomAt = t.roomAt := rfl

@[simp] theorem leaveOld_sessions : (t.leaveOld x).sessions = t.sessions := by
  unfold leaveOld
  split_ifs <;> simp

@[simp] theorem leaveOld_rooms : (t.leaveOld x).rooms = t.rooms := by
  unfold leaveOld
  split_ifs <;> simp

@[simp] theorem leaveOld_sessionAt :
    (t.leaveOld x).sessionAt = t.sessionAt := by
  unfold leaveOld
  split_ifs <;> simp

@[simp] theorem leaveOld_freshSession :
    (t.leaveOld x).freshSession = t.freshSession := by
  unfold leaveOld
  split_ifs <;> simp

@[simp] theorem leaveOld_nextRoomId :
    (t.leaveOld x).nextRoomId = t.nextRoomId := by
  unfold leaveOld
  split_ifs <;> simp

@[simp] theorem join_userId :
    ((t.join x id ρ).sessionAt y).userId = (t.sessionAt y).userId := by
  rw [join, setRoomId_userId, addMember_sessionAt, leaveOld_sessionAt]

@[simp] theorem leave_userId : ((t.leave x).sessionAt y).userId = (t.sessionAt y).userId := by
  rw [leave, setRoomId_userId, removeFromRoom_sessionAt]

end Small

/-! ## §2 The transitions -/

/-- The end of a connection, on the tables. -/
def close (t : Tables) (fd : Int) (x : SessionRef) : Tables :=
  if (t.sessionAt x).roomId = 0 then t.dropSession fd
  else ((t.dropSession fd).removeFromRoom (t.sessionAt x).roomId x).removeEmptyRoom
    (t.sessionAt x).roomId

@[simp] theorem close_sessionAt (t : Tables) (fd : Int) (x : SessionRef) :
    (t.close fd x).sessionAt = t.sessionAt := by
  unfold close
  split_ifs <;> simp

@[simp] theorem close_sessions (t : Tables) (fd : Int) (x : SessionRef) :
    (t.close fd x).sessions = t.sessions.erase fd := by
  unfold close
  split_ifs <;> simp [dropSession]

/-- What the handler of a message that passed the limiters does to the tables. -/
def handle (t : Tables) (env : Env) (conn : Conn) (msg : MyMessage) : Tables :=
  match msg.type with
  | .loginReq =>
    match authenticate env msg with
    | .ok username => t.openSession conn username
    | .error _ => t
  | .createRoomReq =>
    match t.sessions.lookup conn.fd with
    | none => t
    | some x =>
      if msg.payload = [] then t
      else if env.insertRoom = .executed () then t.drawRoomId.create t.nextRoomId msg.payload x
      else t.drawRoomId
  | .joinRoomReq =>
    match t.sessions.lookup conn.fd, stoul msg.payload with
    | some x, some n =>
      match t.rooms.lookup n.toUInt32 with
      | some ρ => t.join x n.toUInt32 ρ
      | none => t
    | _, _ => t
  | .leaveRoomReq =>
    match t.sessions.lookup conn.fd with
    | none => t
    | some x => (t.leave x).removeEmptyRoom (t.sessionAt x).roomId
  | _ => t

end Tables

namespace Service

/-- The message passes both limiters, or is exempt. -/
def Admitted (s : Service) (env : Env) (conn : Conn) (msg : MyMessage) : Prop :=
  msg.type = .heartbeatReq ∨ (s.passLimiters env conn).2 = true

instance (s : Service) (env : Env) (conn : Conn) (msg : MyMessage) :
    Decidable (s.Admitted env conn msg) := inferInstanceAs (Decidable (_ ∨ _))

@[simp] theorem passLimiters_toTables (s : Service) (env : Env) (conn : Conn) :
    (s.passLimiters env conn).1.toTables = s.toTables := by
  unfold passLimiters
  split <;> rfl

/-! ## §3 The handlers refine the transitions -/

theorem handleLogin_toTables (s : Service) (env : Env) (conn : Conn) {msg : MyMessage}
    (htype : msg.type = .loginReq) :
    (s.handleLogin env conn msg).toTables = s.toTables.handle env conn msg := by
  unfold handleLogin Tables.handle
  rw [htype]
  cases authenticate env msg <;> rfl

theorem handleCreateRoom_toTables (s : Service) (env : Env) (conn : Conn) {msg : MyMessage}
    (htype : msg.type = .createRoomReq) :
    (s.handleCreateRoom env conn msg).toTables = s.toTables.handle env conn msg := by
  unfold handleCreateRoom Tables.handle getSessionByConn getSessionByFd
  rw [htype]
  cases hx : s.sessions.lookup conn.fd with
  | none => rfl
  | some x =>
    simp only [List.isEmpty_iff]
    split_ifs with hname hinsert
    · rfl
    · rw [hinsert]
      rfl
    · cases h : env.insertRoom with
      | executed result => exact absurd h hinsert
      | _ => rfl

theorem handleJionRoom_toTables (s : Service) (env : Env) (conn : Conn) {msg : MyMessage}
    (htype : msg.type = .joinRoomReq) :
    (s.handleJionRoom env conn msg).toTables = s.toTables.handle env conn msg := by
  unfold handleJionRoom Tables.handle getSessionByConn getSessionByFd getRoomById
  rw [htype]
  cases s.sessions.lookup conn.fd with
  | none => rfl
  | some x =>
    cases stoul msg.payload with
    | none => rfl
    | some n =>
      cases hρ : s.rooms.lookup n.toUInt32 with
      | none => simp [hρ]
      | some ρ => simp [hρ]

theorem handleLeaveRoom_toTables (s : Service) (env : Env) (conn : Conn) {msg : MyMessage}
    (htype : msg.type = .leaveRoomReq) :
    (s.handleLeaveRoom env conn msg).toTables = s.toTables.handle env conn msg := by
  unfold handleLeaveRoom Tables.handle getSessionByConn getSessionByFd
  rw [htype]
  cases s.sessions.lookup conn.fd with
  | none => rfl
  | some x => simp

theorem handleSendMessage_toTables (s : Service) (conn : Conn) (msg : MyMessage) :
    (s.handleSendMessage conn msg).toTables = s.toTables := by
  unfold handleSendMessage
  cases s.getSessionByConn conn with
  | none => rfl
  | some x =>
    dsimp only
    split_ifs
    · rfl
    · cases s.getRoomById (s.sessionAt x).roomId with
      | none => rfl
      | some ρ => simp

theorem dispatch_toTables (s : Service) (env : Env) (conn : Conn) (msg : MyMessage) :
    (s.dispatch env conn msg).toTables = s.toTables.handle env conn msg := by
  unfold dispatch
  cases htype : msg.type with
  | loginReq => exact handleLogin_toTables _ env conn htype
  | createRoomReq => exact handleCreateRoom_toTables _ env conn htype
  | joinRoomReq => exact handleJionRoom_toTables _ env conn htype
  | leaveRoomReq => exact handleLeaveRoom_toTables _ env conn htype
  | sendMsgReq => simp [handleSendMessage_toTables, Tables.handle, htype]
  | heartbeatReq => simp [handleHearbeat, Tables.handle, htype]
  | _ => simp [Tables.handle, htype]

theorem passLimiters_sent (s : Service) (env : Env) (conn : Conn) :
    (s.passLimiters env conn).1.sent = s.sent := by
  unfold passLimiters
  split <;> rfl

/-- A message that passes the limiters is dispatched in a state that differs in the limiters
only. -/
theorem handleMessage_eq_dispatch {s : Service} {env : Env} {conn : Conn} {msg : MyMessage}
    (h : s.Admitted env conn msg) :
    ∃ s' : Service, s'.toTables = s.toTables ∧ s'.sent = s.sent ∧
      s.handleMessage env conn msg = s'.dispatch env conn msg := by
  unfold handleMessage
  split_ifs with hbeat
  · exact ⟨s, rfl, rfl, rfl⟩
  · have hpass : (s.passLimiters env conn).2 = true := h.resolve_left hbeat
    refine ⟨(s.passLimiters env conn).1, s.passLimiters_toTables env conn,
      s.passLimiters_sent env conn, ?_⟩
    revert hpass
    rcases s.passLimiters env conn with ⟨s', passed⟩
    rintro (rfl : passed = true)
    rfl

theorem handleMessage_of_admitted {s : Service} {env : Env} {conn : Conn} {msg : MyMessage}
    (h : s.Admitted env conn msg) :
    (s.handleMessage env conn msg).toTables = s.toTables.handle env conn msg := by
  obtain ⟨s', htables, -, heq⟩ := handleMessage_eq_dispatch h
  rw [heq, dispatch_toTables, htables]

/-- A message that a limiter stops is answered `"RATE_LIMITED"`. -/
theorem handleMessage_eq_limited {s : Service} {env : Env} {conn : Conn} {msg : MyMessage}
    (h : ¬ s.Admitted env conn msg) :
    ∃ s' : Service, s'.toTables = s.toTables ∧ s'.sent = s.sent ∧
      s.handleMessage env conn msg = s'.sendRateLimited conn msg := by
  obtain ⟨hbeat, hpass⟩ := not_or.mp h
  refine ⟨(s.passLimiters env conn).1, s.passLimiters_toTables env conn,
    s.passLimiters_sent env conn, ?_⟩
  unfold handleMessage
  rw [if_neg hbeat]
  revert hpass
  rcases s.passLimiters env conn with ⟨s', passed⟩
  intro hpass
  obtain rfl : passed = false := by simpa using hpass
  rfl

theorem handleMessage_of_not_admitted {s : Service} {env : Env} {conn : Conn} {msg : MyMessage}
    (h : ¬ s.Admitted env conn msg) :
    (s.handleMessage env conn msg).toTables = s.toTables := by
  obtain ⟨s', htables, -, heq⟩ := handleMessage_eq_limited h
  rw [heq]
  exact htables

/-- The user name of a login that is accepted. -/
def acceptsLogin (s : Service) (env : Env) (conn : Conn) (msg : MyMessage) : Option Bytes :=
  if s.Admitted env conn msg ∧ msg.type = .loginReq then (authenticate env msg).toOption else none

theorem acceptsLogin_eq_some {s : Service} {env : Env} {conn : Conn} {msg : MyMessage}
    {username : Bytes} : s.acceptsLogin env conn msg = some username ↔
      s.Admitted env conn msg ∧ msg.type = .loginReq ∧ authenticate env msg = .ok username := by
  unfold acceptsLogin
  split_ifs with h
  · cases authenticate env msg <;> simp [Except.toOption, h]
  · simp only [false_iff]
    exact fun h' => h ⟨h'.1, h'.2.1⟩

/-- An accepted login opens a session for its connection. -/
theorem handleMessage_login {s : Service} {env : Env} {conn : Conn} {msg : MyMessage}
    {username : Bytes} (h : s.acceptsLogin env conn msg = some username) :
    (s.handleMessage env conn msg).toTables = s.toTables.openSession conn username := by
  obtain ⟨hpass, htype, hauth⟩ := acceptsLogin_eq_some.mp h
  rw [handleMessage_of_admitted hpass]
  simp only [Tables.handle, htype, hauth]

/-- Any other message leaves `sessions_` and the identity of the sessions alone. -/
theorem handleMessage_other {s : Service} {env : Env} {conn : Conn} {msg : MyMessage}
    (h : s.acceptsLogin env conn msg = none) :
    (s.handleMessage env conn msg).sessions = s.sessions ∧
    (s.handleMessage env conn msg).freshSession = s.freshSession ∧
    ∀ x, ((s.handleMessage env conn msg).sessionAt x).username = (s.sessionAt x).username ∧
      ((s.handleMessage env conn msg).sessionAt x).conn = (s.sessionAt x).conn := by
  by_cases hpass : s.Admitted env conn msg
  · rw [handleMessage_of_admitted hpass]
    unfold Tables.handle
    cases htype : msg.type with
    | loginReq =>
      cases hauth : authenticate env msg with
      | error refusal => exact ⟨rfl, rfl, fun _ => ⟨rfl, rfl⟩⟩
      | ok username =>
        rw [acceptsLogin_eq_some.mpr ⟨hpass, htype, hauth⟩] at h
        cases h
    | createRoomReq =>
      cases s.sessions.lookup conn.fd with
      | none => exact ⟨rfl, rfl, fun _ => ⟨rfl, rfl⟩⟩
      | some x =>
        dsimp only
        split_ifs
        · exact ⟨rfl, rfl, fun _ => ⟨rfl, rfl⟩⟩
        · refine ⟨rfl, rfl, fun y => ?_⟩
          simp [Tables.create, Tables.newRoom]
        · exact ⟨rfl, rfl, fun _ => ⟨rfl, rfl⟩⟩
    | joinRoomReq =>
      cases s.sessions.lookup conn.fd with
      | none => exact ⟨rfl, rfl, fun _ => ⟨rfl, rfl⟩⟩
      | some x =>
        cases stoul msg.payload with
        | none => exact ⟨rfl, rfl, fun _ => ⟨rfl, rfl⟩⟩
        | some n =>
          dsimp only
          cases s.rooms.lookup n.toUInt32 with
          | none => exact ⟨rfl, rfl, fun _ => ⟨rfl, rfl⟩⟩
          | some ρ => simp [Tables.join]
    | leaveRoomReq =>
      cases s.sessions.lookup conn.fd with
      | none => exact ⟨rfl, rfl, fun _ => ⟨rfl, rfl⟩⟩
      | some x => simp [Tables.leave]
    | _ => exact ⟨rfl, rfl, fun _ => ⟨rfl, rfl⟩⟩
  · rw [handleMessage_of_not_admitted hpass]
    exact ⟨rfl, rfl, fun _ => ⟨rfl, rfl⟩⟩

/-- A message changes the entry of its own connection at most. -/
theorem handleMessage_lookup_of_ne (s : Service) (env : Env) {conn : Conn} (msg : MyMessage)
    {fd : Int} (h : fd ≠ conn.fd) :
    (s.handleMessage env conn msg).sessions.lookup fd = s.sessions.lookup fd := by
  cases hlogin : s.acceptsLogin env conn msg with
  | none => rw [(handleMessage_other hlogin).1]
  | some username =>
    rw [handleMessage_login hlogin]
    exact AList.lookup_insert_ne h

/-- The identity of a session never changes. -/
theorem handleMessage_identity (s : Service) (env : Env) (conn : Conn) (msg : MyMessage)
    {x : SessionRef} (h : x < s.freshSession) :
    ((s.handleMessage env conn msg).sessionAt x).username = (s.sessionAt x).username ∧
      ((s.handleMessage env conn msg).sessionAt x).conn = (s.sessionAt x).conn := by
  cases hlogin : s.acceptsLogin env conn msg with
  | none => exact (handleMessage_other hlogin).2.2 x
  | some username =>
    rw [handleMessage_login hlogin]
    have hx : (s.toTables.openSession conn username).sessionAt x = s.sessionAt x :=
      Function.update_of_ne h.ne _ _
    exact ⟨congrArg Session.username hx, congrArg Session.conn hx⟩

theorem onConnectionClosed_toTables (s : Service) (env : Env) (fd : Int) :
    (s.onConnectionClosed env fd).toTables =
      match s.sessions.lookup fd with
      | none => s.toTables
      | some x => s.toTables.close fd x := by
  unfold onConnectionClosed getSessionByFd
  dsimp only
  cases s.sessions.lookup fd with
  | none => rfl
  | some x =>
    change _ = s.toTables.close fd x
    by_cases hroom : (s.sessionAt x).roomId = 0
    · rw [Tables.close, if_pos hroom]
      exact congrArg Service.toTables (if_pos hroom)
    · rw [Tables.close, if_neg hroom]
      refine (congrArg Service.toTables (if_neg hroom)).trans ?_
      simp

theorem lookup_closed (s : Service) (env : Env) (fd : Int) :
    (s.onConnectionClosed env fd).sessions.lookup fd = none := by
  rw [onConnectionClosed_toTables]
  cases hx : s.sessions.lookup fd with
  | none => exact hx
  | some x =>
    change (s.toTables.close fd x).sessions.lookup fd = none
    rw [Tables.close_sessions, AList.lookup_erase]

/-- Other connections keep their sessions. -/
theorem lookup_closed_of_ne (s : Service) (env : Env) {fd fd' : Int} (h : fd' ≠ fd) :
    (s.onConnectionClosed env fd).sessions.lookup fd' = s.sessions.lookup fd' := by
  rw [onConnectionClosed_toTables]
  cases s.sessions.lookup fd with
  | none => rfl
  | some x =>
    change (s.toTables.close fd x).sessions.lookup fd' = s.sessions.lookup fd'
    rw [Tables.close_sessions, AList.lookup_erase_ne h]

theorem sessionAt_closed (s : Service) (env : Env) (fd : Int) :
    (s.onConnectionClosed env fd).sessionAt = s.sessionAt := by
  rw [onConnectionClosed_toTables]
  cases s.sessions.lookup fd with
  | none => rfl
  | some x => exact s.toTables.close_sessionAt fd x

/-! ### Without a session -/

section NoSession

variable {s : Service} {conn : Conn} (h : s.getSessionByConn conn = none)
include h

theorem handleCreateRoom_of_no_session (env : Env) (msg : MyMessage) :
    s.handleCreateRoom env conn msg = s.respond conn .errorResp msg (ascii "Not logged in") := by
  unfold handleCreateRoom
  rw [h]

theorem handleJionRoom_of_no_session (env : Env) (msg : MyMessage) :
    s.handleJionRoom env conn msg = s.respond conn .errorResp msg (ascii "Not logged in") := by
  unfold handleJionRoom
  rw [h]

theorem handleSendMessage_of_no_session (msg : MyMessage) :
    s.handleSendMessage conn msg = s.respond conn .errorResp msg (ascii "Not logged in") := by
  unfold handleSendMessage
  rw [h]

end NoSession

/-! ## §4 Inversion -/

/-- What an operation can do to the tables. -/
inductive Effect (s : Service) : Op → Tables → Prop where
  | unchanged (op : Op) : Effect s op s.toTables
  | login {env : Env} {conn : Conn} {msg : MyMessage} {username : Bytes}
      (hpass : s.Admitted env conn msg) (htype : msg.type = .loginReq)
      (hauth : authenticate env msg = .ok username) :
      Effect s (.message env conn msg) (s.toTables.openSession conn username)
  | draw {env : Env} {conn : Conn} {msg : MyMessage} {x : SessionRef}
      (hpass : s.Admitted env conn msg) (htype : msg.type = .createRoomReq)
      (hx : s.sessions.lookup conn.fd = some x) :
      Effect s (.message env conn msg) s.toTables.drawRoomId
  | create {env : Env} {conn : Conn} {msg : MyMessage} {x : SessionRef}
      (hpass : s.Admitted env conn msg) (htype : msg.type = .createRoomReq)
      (hx : s.sessions.lookup conn.fd = some x) (hname : msg.payload ≠ [])
      (hinsert : env.insertRoom = .executed ()) :
      Effect s (.message env conn msg)
        (s.toTables.drawRoomId.create s.nextRoomId msg.payload x)
  | join {env : Env} {conn : Conn} {msg : MyMessage} {x : SessionRef} {n : UInt64} {ρ : RoomRef}
      (hpass : s.Admitted env conn msg) (htype : msg.type = .joinRoomReq)
      (hx : s.sessions.lookup conn.fd = some x) (hid : stoul msg.payload = some n)
      (hρ : s.rooms.lookup n.toUInt32 = some ρ) :
      Effect s (.message env conn msg) (s.toTables.join x n.toUInt32 ρ)
  | leave {env : Env} {conn : Conn} {msg : MyMessage} {x : SessionRef}
      (hpass : s.Admitted env conn msg) (htype : msg.type = .leaveRoomReq)
      (hx : s.sessions.lookup conn.fd = some x) :
      Effect s (.message env conn msg)
        ((s.toTables.leave x).removeEmptyRoom (s.sessionAt x).roomId)
  | closed {env : Env} {fd : Int} {x : SessionRef} (hx : s.sessions.lookup fd = some x) :
      Effect s (.closed env fd) (s.toTables.close fd x)

private theorem handle_effect {s : Service} {env : Env} {conn : Conn} {msg : MyMessage}
    (hpass : s.Admitted env conn msg) :
    Effect s (.message env conn msg) (s.toTables.handle env conn msg) := by
  unfold Tables.handle
  cases htype : msg.type with
  | loginReq =>
    cases hauth : authenticate env msg with
    | error refusal => exact .unchanged _
    | ok username => exact .login hpass htype hauth
  | createRoomReq =>
    cases hx : s.sessions.lookup conn.fd with
    | none => exact .unchanged _
    | some x =>
      dsimp only
      split_ifs with hname hinsert
      · exact .unchanged _
      · exact .create hpass htype hx hname hinsert
      · exact .draw hpass htype hx
  | joinRoomReq =>
    cases hx : s.sessions.lookup conn.fd with
    | none => exact .unchanged _
    | some x =>
      cases hid : stoul msg.payload with
      | none => exact .unchanged _
      | some n =>
        dsimp only
        cases hρ : s.rooms.lookup n.toUInt32 with
        | none => exact .unchanged _
        | some ρ => exact .join hpass htype hx hid hρ
  | leaveRoomReq =>
    cases hx : s.sessions.lookup conn.fd with
    | none => exact .unchanged _
    | some x => exact .leave hpass htype hx
  | _ => exact .unchanged _

/-- Inversion of a completed operation. -/
theorem apply_effect (s : Service) (op : Op) : Effect s op (s.apply op).toTables := by
  cases op with
  | message env conn msg =>
    by_cases hpass : s.Admitted env conn msg
    · rw [apply, handleMessage_of_admitted hpass]
      exact handle_effect hpass
    · rw [apply, handleMessage_of_not_admitted hpass]
      exact .unchanged _
  | closed env fd =>
    rw [apply, onConnectionClosed_toTables]
    cases hx : s.sessions.lookup fd with
    | none => exact .unchanged _
    | some x => exact .closed hx

end Service

end EchoNet.Chat
