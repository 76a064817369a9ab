import EchoNet.Chat.Changes
import EchoNet.Chat.Ghosts
import EchoNet.Chat.RateBound
import EchoNet.Lib.Lobby
import EchoNet.Lib.Simulation

/-!
# The Chat Service Is a Lobby

Seen from the connections, a chat service is a `Lobby`: users come and go, create, join and leave
rooms, and hear what is said in the room they are in.  `sessions_`, `rooms_` and the member lists
are how the service goes about it.  This holds of the runs whose operations abandon no member, the
condition of `members_are_current_iff`, as long as the room ids have not gone round.

`acts` says what an operation is in a lobby, by what it asks for and what the lobby looks like; the
service decides only whether the limiters let it pass, which id a new room gets and in which order
a room is told.  An empty room that a join leaves behind stays in the lobby as well: nobody is in
it.

## Main results

- `service_simulates`: each operation is what `acts` says;
- `chat_refines_lobby`: hence the lobby goes along with every such run, operation by operation, and
  the same messages are heard.
-/

namespace EchoNet.Chat

open EchoNet.Lib EchoNet.Protocol EchoNet.RateLimit

/-! ## §1 Chat messages -/

/-- The chat messages among the calls of `sendResponse`, with the session that gets them. -/
def Sent.said : Sent → Option (SessionRef × MyMessage)
  | .push x msg => if msg.type = .broadcastMsg then some (x, msg) else none
  | .response _ _ => none

namespace Service

/-- The chat messages so far. -/
def chat (s : Service) : List (SessionRef × MyMessage) := s.sent.filterMap Sent.said

@[simp] theorem onTables_chat (s : Service) (f : Tables → Tables) :
    (s.onTables f).chat = s.chat := rfl

@[simp] theorem redisCommand_chat (s : Service) (env : Env) (cmd : RedisCommand) :
    (s.redisCommand env cmd).chat = s.chat := rfl

@[simp] theorem countRequest_chat (s : Service) : s.countRequest.chat = s.chat := rfl

@[simp] theorem countError_chat (s : Service) : s.countError.chat = s.chat := rfl

@[simp] theorem releaseSession_chat (s : Service) (env : Env) (x : SessionRef) :
    (s.releaseSession env x).chat = s.chat := rfl

@[simp] theorem checkAndRemoveEmptyRoom_chat (s : Service) (id : UInt32) :
    (s.checkAndRemoveEmptyRoom id).chat = s.chat := rfl

@[simp] theorem respond_chat (s : Service) (conn : Conn) (type : MyType) (msg : MyMessage)
    (payload : Bytes) : (s.respond conn type msg payload).chat = s.chat := by
  simp [chat, respond, Sent.said]

@[simp] theorem broadcastMemberCount_chat (s : Service) (id : UInt32) :
    (s.broadcastMemberCount id).chat = s.chat := by
  unfold broadcastMemberCount
  cases s.getRoomById id with
  | none => rfl
  | some ρ => simp [chat, broadcast, Sent.said, List.filterMap_map, Function.comp_def]

theorem handleLogin_chat (s : Service) (env : Env) (conn : Conn) (msg : MyMessage) :
    (s.handleLogin env conn msg).chat = s.chat := by
  unfold handleLogin
  cases authenticate env msg with
  | error refusal => exact respond_chat ..
  | ok username => exact respond_chat ..

theorem handleCreateRoom_chat (s : Service) (env : Env) (conn : Conn) (msg : MyMessage) :
    (s.handleCreateRoom env conn msg).chat = s.chat := by
  unfold handleCreateRoom
  cases s.getSessionByConn conn with
  | none => exact respond_chat ..
  | some x =>
    dsimp only
    split_ifs
    · exact respond_chat ..
    · split
      · exact respond_chat ..
      · exact respond_chat ..

theorem handleJionRoom_chat (s : Service) (env : Env) (conn : Conn) (msg : MyMessage) :
    (s.handleJionRoom env conn msg).chat = s.chat := by
  unfold handleJionRoom
  cases s.getSessionByConn conn with
  | none => exact respond_chat ..
  | some x =>
    cases stoul msg.payload with
    | none => exact respond_chat ..
    | some n =>
      dsimp only
      cases s.getRoomById n.toUInt32 with
      | none => exact respond_chat ..
      | some ρ => simp

theorem handleLeaveRoom_chat (s : Service) (env : Env) (conn : Conn) (msg : MyMessage) :
    (s.handleLeaveRoom env conn msg).chat = s.chat := by
  unfold handleLeaveRoom
  cases s.getSessionByConn conn with
  | none => exact respond_chat ..
  | some x => simp

theorem dispatch_chat {s : Service} {env : Env} {conn : Conn} {msg : MyMessage}
    (htype : msg.type ≠ .sendMsgReq) : (s.dispatch env conn msg).chat = s.chat := by
  unfold dispatch
  cases hmsg : msg.type with
  | loginReq => exact handleLogin_chat ..
  | createRoomReq => exact handleCreateRoom_chat ..
  | joinRoomReq => exact handleJionRoom_chat ..
  | leaveRoomReq => exact handleLeaveRoom_chat ..
  | sendMsgReq => exact absurd hmsg htype
  | heartbeatReq => exact respond_chat ..
  | _ => exact respond_chat ..

/-- Only a `SEND_MSG_REQ` that passes the limiters is heard. -/
theorem handleMessage_chat {s : Service} {env : Env} {conn : Conn} {msg : MyMessage}
    (h : s.Admitted env conn msg → msg.type ≠ .sendMsgReq) :
    (s.handleMessage env conn msg).chat = s.chat := by
  by_cases hpass : s.Admitted env conn msg
  · obtain ⟨s', -, hsent, heq⟩ := handleMessage_eq_dispatch hpass
    rw [heq, dispatch_chat (h hpass), chat, hsent, chat]
  · obtain ⟨s', -, hsent, heq⟩ := handleMessage_eq_limited hpass
    rw [heq, sendRateLimited, respond_chat, countError_chat, chat, hsent, chat]

theorem onConnectionClosed_chat (s : Service) (env : Env) (fd : Int) :
    (s.onConnectionClosed env fd).chat = s.chat := by
  unfold onConnectionClosed
  dsimp only
  cases ({ s with userLimiter := s.userLimiter.removeKey (.fd fd) } : Service).getSessionByFd fd with
  | none => rfl
  | some x =>
    dsimp only
    split_ifs
    · rfl
    · simp only [checkAndRemoveEmptyRoom_chat, broadcastMemberCount_chat, onTables_chat,
        releaseSession_chat]
      rfl

end Service

/-! ## §2 The lobby of the tables -/

abbrev ChatLobby := Lobby Int Bytes UInt32 Bytes

abbrev LobbyAct := Lobby.Act Int Bytes UInt32 Bytes

namespace Tables

/-- The user of the current session of a descriptor. -/
def personAt (t : Tables) (fd : Int) : Option Bytes :=
  (t.sessions.lookup fd).map fun x => (t.sessionAt x).username

/-- The room that the current session of a descriptor believes to be in. -/
def placeAt (t : Tables) (fd : Int) : Option UInt32 :=
  (t.sessions.lookup fd).bind fun x =>
    if (t.sessionAt x).roomId = 0 then none else some (t.sessionAt x).roomId

/-- The sessions and rooms of the tables are those of the lobby. -/
structure Shows (t : Tables) (l : ChatLobby) : Prop where
  person : ∀ fd, l.person fd = t.personAt fd
  place : ∀ fd, l.place fd = t.placeAt fd
  rooms : ∀ r, r ∈ l.rooms ↔ (t.rooms.lookup r).isSome = true

/-- What the simulation rests on: no ghosts, every current session where it believes to be, and
no room 0. -/
structure Sane (t : Tables) : Prop where
  consistent : t.Consistent
  noGhosts : t.NoGhosts
  placed : ∀ fd x, t.sessions.lookup fd = some x → t.Placed x
  noRoomZero : t.rooms.lookup 0 = none

variable {t t' : Tables} {l : ChatLobby} {fd : Int} {x y : SessionRef} {r : UInt32}

theorem placeAt_eq_some : t.placeAt fd = some r ↔
    ∃ x, t.sessions.lookup fd = some x ∧ (t.sessionAt x).roomId = r ∧ r ≠ 0 := by
  unfold placeAt
  rw [Option.bind_eq_some_iff]
  refine exists_congr fun x => and_congr_right fun _ => ?_
  split_ifs with hzero
  · refine iff_of_false nofun fun h => h.2 ?_
    rw [← h.1, hzero]
  · rw [Option.some.injEq]
    refine ⟨fun h => ⟨h, fun hr => hzero (h.trans hr)⟩, And.left⟩

theorem placeAt_of_lookup (h : t.sessions.lookup fd = some x)
    (hzero : (t.sessionAt x).roomId = 0) : t.placeAt fd = none := by
  rw [placeAt, h, Option.bind_some, if_pos hzero]

theorem personAt_congr (hsessions : t'.sessions = t.sessions)
    (hname : ∀ x, (t'.sessionAt x).username = (t.sessionAt x).username) :
    t'.personAt fd = t.personAt fd := by
  rw [personAt, personAt, hsessions]
  exact congrArg (fun f => (t.sessions.lookup fd).map f) (funext hname)

/-- One session moves. -/
theorem placeAt_moved (hc : t.Consistent) (hx : t.sessions.lookup fd = some x)
    (hsessions : t'.sessions = t.sessions) {id : UInt32}
    (hroom : ∀ y, (t'.sessionAt y).roomId = if y = x then id else (t.sessionAt y).roomId)
    (fd' : Int) : t'.placeAt fd' =
      if fd' = fd then (if id = 0 then none else some id) else t.placeAt fd' := by
  rw [placeAt, placeAt, hsessions]
  by_cases hfd : fd' = fd
  · rw [if_pos hfd, hfd, hx, Option.bind_some, hroom, if_pos rfl]
  · rw [if_neg hfd]
    cases hy : t.sessions.lookup fd' with
    | none => rfl
    | some y =>
      have hyx : y ≠ x := fun heq => hfd (hc.session_unique hy (heq ▸ hx))
      rw [Option.bind_some, Option.bind_some, hroom, if_neg hyx]

/-- Who believes to be in a room is a member of it. -/
theorem Sane.member (hs : t.Sane) (h : t.placeAt fd = some r) :
    ∃ x ρ, t.sessions.lookup fd = some x ∧ t.rooms.lookup r = some ρ ∧
      x ∈ (t.roomAt ρ).members := by
  obtain ⟨x, hx, rfl, hne⟩ := placeAt_eq_some.mp h
  obtain ⟨ρ, hρ, hmem⟩ := hs.placed fd x hx hne
  exact ⟨x, ρ, hx, hρ, hmem⟩

/-- A session that is a member of no room, or of none but one that is not there, is nowhere. -/
theorem Sane.placeAt_none (hs : t.Sane) (hx : t.sessions.lookup fd = some x) {p : UInt32 → Prop}
    (honly : t.MemberOnlyOf x p) (hp : ∀ r, p r → t.rooms.lookup r = none) :
    t.placeAt fd = none := by
  refine placeAt_of_lookup hx ?_
  by_contra hne
  obtain ⟨ρ, hρ, hmem⟩ := hs.placed fd x hx hne
  have hnone := hp _ (honly _ ⟨ρ, hρ, hmem⟩)
  rw [hρ] at hnone
  cases hnone

theorem Shows.person_eq_none (h : t.Shows l) :
    l.person fd = none ↔ t.sessions.lookup fd = none := by
  rw [h.person, personAt, Option.map_eq_none_iff]

theorem Shows.person_ne_none (h : t.Shows l) (hx : t.sessions.lookup fd = some x) :
    l.person fd ≠ none := by
  rw [Ne, h.person_eq_none, hx]
  exact Option.some_ne_none x

/-! ## §3 The changes -/

/-- The lobby goes along with a change, and nobody hears anything. -/
def Follows (l : ChatLobby) (acts : List LobbyAct) (t : Tables) : Prop :=
  ∃ l', run Lobby.step l acts = some l' ∧ t.Shows l' ∧ l'.heard = l.heard

theorem Follows.refl (h : t.Shows l) : Follows l [] t := ⟨l, rfl, h, rfl⟩

theorem Follows.of_step {l' : ChatLobby} {a : LobbyAct} (hstep : l.step a = some l')
    (hshows : t.Shows l') (hheard : l'.heard = l.heard) : Follows l [a] t :=
  ⟨l', run_cons_eq_some.mpr ⟨l', hstep, rfl⟩, hshows, hheard⟩

theorem Follows.after_step {l' : ChatLobby} {a : LobbyAct} {acts : List LobbyAct}
    (hstep : l.step a = some l') (hheard : l'.heard = l.heard) (h : Follows l' acts t) :
    Follows l (a :: acts) t := by
  obtain ⟨l'', hrun, hshows, hheard'⟩ := h
  exact ⟨l'', run_cons_eq_some.mpr ⟨l', hstep, hrun⟩, hshows, hheard'.trans hheard⟩

theorem Shows.login (h : t.Shows l) (hs : t.Sane) {conn : Conn} {username : Bytes}
    (hnowhere : ∀ x, t.sessions.lookup conn.fd = some x → t.MemberOnlyOf x fun _ => False) :
    Follows l [.arrive conn.fd username] (t.openSession conn username) := by
  have hnone : t.placeAt conn.fd = none := by
    cases hx : t.sessions.lookup conn.fd with
    | none => rw [placeAt, hx, Option.bind_none]
    | some x => exact hs.placeAt_none hx (hnowhere x hx) nofun
  have hself : (t.openSession conn username).sessions.lookup conn.fd = some t.freshSession :=
    AList.lookup_insert _
  have hother : ∀ {fd}, fd ≠ conn.fd →
      (t.openSession conn username).sessions.lookup fd = t.sessions.lookup fd :=
    fun hfd => AList.lookup_insert_ne hfd
  have hsession : ∀ {fd x}, t.sessions.lookup fd = some x →
      (t.openSession conn username).sessionAt x = t.sessionAt x := fun hx =>
    Function.update_of_ne (hs.consistent.session_lt _ _ hx).ne _ _
  have hfresh : (t.openSession conn username).sessionAt t.freshSession =
      ⟨conn, t.nextSessionId, username, 0⟩ := Function.update_self ..
  have harrive : l.step (.arrive conn.fd username) =
      some { l with person := Function.update l.person conn.fd (some username) } :=
    Lobby.step_arrive ((h.place conn.fd).trans hnone)
  refine .of_step harrive ⟨fun fd => ?_, fun fd => ?_, h.rooms⟩ rfl
  · by_cases hfd : fd = conn.fd
    · rw [hfd, personAt, hself, Option.map_some, hfresh]
      exact Function.update_self ..
    · refine (Function.update_of_ne hfd ..).trans ((h.person fd).trans ?_)
      rw [personAt, personAt, hother hfd]
      cases hx : t.sessions.lookup fd with
      | none => rfl
      | some x => rw [Option.map_some, Option.map_some, hsession hx]
  · refine (h.place fd).trans ?_
    by_cases hfd : fd = conn.fd
    · rw [hfd, hnone, placeAt_of_lookup hself]
      rw [hfresh]
    · rw [placeAt, placeAt, hother hfd]
      cases hx : t.sessions.lookup fd with
      | none => rfl
      | some x => rw [Option.bind_some, Option.bind_some, hsession hx]

theorem Shows.create (h : t.Shows l) (hs : t.Sane) (hx : t.sessions.lookup fd = some x)
    {id : UInt32} (hid : id ≠ 0) (hfree : t.rooms.lookup id = none) (name : Bytes)
    (honly : t.MemberOnlyOf x (· = id)) : Follows l [.build fd id] (t.create id name x) := by
  have hplace : l.place fd = none :=
    (h.place fd).trans (hs.placeAt_none hx honly fun r hr => hr ▸ hfree)
  have hroom : id ∉ l.rooms := fun hmem => by
    have hsome := (h.rooms id).mp hmem
    rw [hfree] at hsome
    cases hsome
  refine .of_step (Lobby.step_build (h.person_ne_none hx) hplace hroom) ⟨fun fd' => ?_,
    fun fd' => ?_, fun r => ?_⟩ rfl
  · have hsame : (t.create id name x).personAt fd' = t.personAt fd' :=
      personAt_congr rfl fun y => setRoomId_username _ id x y
    exact (h.person fd').trans hsame.symm
  · have hroomId : ∀ y, ((t.create id name x).sessionAt y).roomId =
        if y = x then id else (t.sessionAt y).roomId := fun y => setRoomId_roomId _ x y id
    have hsessions : (t.create id name x).sessions = t.sessions := rfl
    rw [placeAt_moved hs.consistent hx hsessions hroomId, if_neg hid]
    refine Lobby.move_place.trans ?_
    rw [h.place]
  · have hlookup : ((t.create id name x).rooms.lookup r).isSome = true ↔
        r = id ∨ (t.rooms.lookup r).isSome = true := by
      change ((t.rooms.insert id t.freshRoom).lookup r).isSome = true ↔ _
      by_cases hr : r = id
      · rw [hr, AList.lookup_insert]
        exact iff_of_true rfl (Or.inl rfl)
      · rw [AList.lookup_insert_ne hr]
        exact (or_iff_right hr).symm
    rw [hlookup]
    refine Set.mem_insert_iff.trans (or_congr_right ?_)
    exact h.rooms r

theorem Shows.join (h : t.Shows l) (hs : t.Sane) (hx : t.sessions.lookup fd = some x)
    {id : UInt32} {ρ : RoomRef} (hρ : t.rooms.lookup id = some ρ) :
    Follows l [.enter fd id] (t.join x id ρ) := by
  have hid : id ≠ 0 := by
    rintro rfl
    rw [hs.noRoomZero] at hρ
    cases hρ
  have hroom : id ∈ l.rooms := (h.rooms id).mpr (Option.isSome_of_eq_some hρ)
  have hsessions : (t.join x id ρ).sessions = t.sessions := by simp [Tables.join]
  refine .of_step (Lobby.step_enter (h.person_ne_none hx) hroom) ⟨fun fd' => ?_, fun fd' => ?_,
    fun r => ?_⟩ rfl
  · refine (h.person fd').trans (personAt_congr hsessions fun y => ?_).symm
    simp [Tables.join]
  · rw [placeAt_moved hs.consistent hx hsessions (fun y => ?_), if_neg hid]
    · refine Lobby.move_place.trans ?_
      rw [h.place]
    · rw [Tables.join, setRoomId_roomId, addMember_sessionAt, leaveOld_sessionAt]
  · rw [show (t.join x id ρ).rooms = t.rooms by simp [Tables.join]]
    exact h.rooms r

theorem noGhosts_removeEmptyRoom : (t.removeEmptyRoom r).NoGhosts ↔ t.NoGhosts := by
  refine forall₂_congr fun y r' => ?_
  rw [inRoom_removeEmptyRoom, removeEmptyRoom_sessions, removeEmptyRoom_sessionAt]

theorem personAt_removeEmptyRoom : (t.removeEmptyRoom r).personAt fd = t.personAt fd :=
  personAt_congr (by simp) (by simp)

theorem placeAt_removeEmptyRoom : (t.removeEmptyRoom r).placeAt fd = t.placeAt fd := by
  rw [placeAt, placeAt, removeEmptyRoom_sessions, removeEmptyRoom_sessionAt]

/-- The check for an empty room, when nobody is in it. -/
theorem Shows.shut (h : t.Shows l) (hg : t.NoGhosts) (hne : r ≠ 0)
    (hnobody : ∀ fd, l.place fd ≠ some r) : Follows l [.shut r] (t.removeEmptyRoom r) := by
  have hempty : ∀ ρ, t.rooms.lookup r = some ρ → (t.roomAt ρ).members = [] := by
    intro ρ hρ
    rw [List.eq_nil_iff_forall_not_mem]
    intro y hy
    obtain ⟨hcurrent, hroom⟩ := hg y r ⟨ρ, hρ, hy⟩
    exact hnobody _ ((h.place _).trans (placeAt_eq_some.mpr ⟨y, hcurrent, hroom, hne⟩))
  refine .of_step (Lobby.step_shut hnobody) ⟨fun fd => ?_, fun fd => ?_, fun r' => ?_⟩ rfl
  · exact (h.person fd).trans personAt_removeEmptyRoom.symm
  · exact (h.place fd).trans placeAt_removeEmptyRoom.symm
  · rw [Option.isSome_iff_exists]
    simp only [lookup_removeEmptyRoom]
    refine Iff.trans (and_congr_left' (h.rooms r')) ?_
    rw [Option.isSome_iff_exists, Set.mem_singleton_iff]
    constructor
    · rintro ⟨⟨σ, hσ⟩, hr⟩
      exact ⟨σ, hσ, fun hgone => hr hgone.1⟩
    · rintro ⟨σ, hσ, hkept⟩
      exact ⟨⟨σ, hσ⟩, fun hr => hkept ⟨hr, hempty σ (hr ▸ hσ)⟩⟩

/-- The same when somebody is in it. -/
theorem Shows.keep (h : t.Shows l) (hplaced : ∀ fd x, t.sessions.lookup fd = some x → t.Placed x)
    (hfd : l.place fd = some r) : (t.removeEmptyRoom r).Shows l := by
  refine ⟨fun fd' => ?_, fun fd' => ?_, fun r' => ?_⟩
  · exact (h.person fd').trans personAt_removeEmptyRoom.symm
  · exact (h.place fd').trans placeAt_removeEmptyRoom.symm
  · rw [h.rooms r', Option.isSome_iff_exists, Option.isSome_iff_exists]
    simp only [lookup_removeEmptyRoom]
    refine exists_congr fun σ => (and_iff_left_of_imp fun hσ => ?_).symm
    rintro ⟨rfl, hmembers⟩
    obtain ⟨x, hx, rfl, hne⟩ := placeAt_eq_some.mp ((h.place fd).symm.trans hfd)
    obtain ⟨ρ, hρ, hmem⟩ := hplaced fd x hx hne
    rw [hσ, Option.some.injEq] at hρ
    rw [← hρ, hmembers] at hmem
    cases hmem

/-- Somebody has gone from a room. -/
theorem Shows.gone {l' : ChatLobby} {a : LobbyAct} (h : t.Shows l') (hg : t.NoGhosts)
    (hplaced : ∀ fd x, t.sessions.lookup fd = some x → t.Placed x) (hstep : l.step a = some l')
    (hplace : ∀ d, l'.place d = if d = fd then none else l.place d) (hheard : l'.heard = l.heard)
    (hr : l.place fd = some r) (hne : r ≠ 0) :
    Follows l (a :: l.shutBehind fd) (t.removeEmptyRoom r) := by
  refine .after_step hstep hheard ?_
  by_cases hlast : ∀ d, l.place d = some r → d = fd
  -- nobody else was there, so `checkAndRemoveEmptyRoom` takes the room away
  · rw [Lobby.shutBehind_of_last hr hlast]
    refine h.shut hg hne fun d hd => ?_
    rw [hplace] at hd
    split_ifs at hd with hself
    exact hself (hlast d hd)
  -- somebody is left, and is a member of the room
  · rw [Lobby.shutBehind_of_not_last hr hlast]
    push Not at hlast
    obtain ⟨d, hd, hself⟩ := hlast
    exact .refl (h.keep hplaced ((hplace d).trans ((if_neg hself).trans hd)))

theorem Shows.leave (h : t.Shows l) (hs : t.Sane) (hx : t.sessions.lookup fd = some x) :
    Follows l (.leave fd :: l.shutBehind fd)
      ((t.leave x).removeEmptyRoom (t.sessionAt x).roomId) := by
  have hsessions : (t.leave x).sessions = t.sessions := by simp [Tables.leave]
  have hrooms : (t.leave x).rooms = t.rooms := by simp [Tables.leave]
  have hroomId : ∀ y, ((t.leave x).sessionAt y).roomId =
      if y = x then 0 else (t.sessionAt y).roomId := fun y => by
    rw [Tables.leave, setRoomId_roomId, removeFromRoom_sessionAt]
  have hleft : (t.leave x).Shows (l.move fd none) := by
    refine ⟨fun fd' => ?_, fun fd' => ?_, fun r => ?_⟩
    · refine (h.person fd').trans (personAt_congr hsessions fun y => ?_).symm
      simp [Tables.leave]
    · rw [placeAt_moved hs.consistent hx hsessions hroomId, if_pos rfl]
      refine Lobby.move_place.trans ?_
      rw [h.place]
    · rw [hrooms]
      exact h.rooms r
  by_cases hzero : (t.sessionAt x).roomId = 0
  -- `handleLeaveRoom` does not ask whether there is a room to leave: it looks for room 0
  · have hsame : (t.leave x).removeEmptyRoom 0 = t.leave x := by
      rw [Tables.removeEmptyRoom, hrooms, hs.noRoomZero]
    rw [hzero, hsame, Lobby.shutBehind_of_nowhere ((h.place fd).trans (placeAt_of_lookup hx hzero))]
    exact .of_step rfl hleft rfl
  · have hg : (t.leave x).NoGhosts :=
      noGhosts_removeEmptyRoom.mp (noGhosts_leave hs.consistent hs.noGhosts x 0)
    have hplace : l.place fd = some (t.sessionAt x).roomId :=
      (h.place fd).trans (placeAt_eq_some.mpr ⟨x, hx, rfl, hzero⟩)
    refine hleft.gone hg (fun fd' y hy => ?_) rfl (fun _ => Lobby.move_place) rfl hplace hzero
    by_cases hyx : y = x
    · exact .of_roomId_zero (by rw [hroomId, if_pos hyx])
    · exact (hs.placed fd' y (hsessions ▸ hy)).leave hyx

theorem Shows.close (h : t.Shows l) (hs : t.Sane) (hx : t.sessions.lookup fd = some x) :
    Follows l (.depart fd :: l.shutBehind fd) (t.close fd x) := by
  have hself : (t.dropSession fd).sessions.lookup fd = none :=
    AList.lookup_erase fd t.sessions
  have hother : ∀ {fd'}, fd' ≠ fd →
      (t.dropSession fd).sessions.lookup fd' = t.sessions.lookup fd' := fun hfd =>
    AList.lookup_erase_ne hfd
  have hdrop : (t.dropSession fd).Shows
      { l.move fd none with person := Function.update l.person fd none } := by
    refine ⟨fun fd' => ?_, fun fd' => ?_, h.rooms⟩
    · by_cases hfd : fd' = fd
      · rw [hfd, personAt, hself]
        exact Function.update_self ..
      · rw [personAt, hother hfd]
        exact (Function.update_of_ne hfd ..).trans (h.person fd')
    · refine Lobby.move_place.trans ?_
      by_cases hfd : fd' = fd
      · rw [if_pos hfd, hfd, placeAt, hself, Option.bind_none]
      · rw [if_neg hfd, placeAt, hother hfd]
        exact h.place fd'
  by_cases hzero : (t.sessionAt x).roomId = 0
  · rw [Tables.close, if_pos hzero,
      Lobby.shutBehind_of_nowhere ((h.place fd).trans (placeAt_of_lookup hx hzero))]
    exact .of_step rfl hdrop rfl
  · have hg : (t.close fd x).NoGhosts := by
      refine (noGhosts_close_iff hs.consistent hs.noGhosts hx).mpr fun r hr hr0 => ?_
      obtain ⟨ρ, hρ, -⟩ := hr
      rw [hr0, hs.noRoomZero] at hρ
      cases hρ
    rw [Tables.close, if_neg hzero] at hg ⊢
    rw [noGhosts_removeEmptyRoom] at hg
    have hplace : l.place fd = some (t.sessionAt x).roomId :=
      (h.place fd).trans (placeAt_eq_some.mpr ⟨x, hx, rfl, hzero⟩)
    refine Shows.gone ⟨fun fd' => ?_, fun fd' => ?_, fun r => ?_⟩ hg (fun fd' y hy => ?_) rfl
      (fun _ => Lobby.move_place) rfl hplace hzero
    · exact (hdrop.person fd').trans (personAt_congr (by simp) (by simp)).symm
    · refine (hdrop.place fd').trans ?_
      rw [placeAt, placeAt, removeFromRoom_sessions, removeFromRoom_sessionAt]
    · rw [removeFromRoom_rooms]
      exact hdrop.rooms r
    · rw [removeFromRoom_sessions] at hy
      have hfd : fd' ≠ fd := by
        rintro rfl
        rw [hself] at hy
        cases hy
      rw [hother hfd] at hy
      have hyx : y ≠ x := fun heq => hfd (hs.consistent.session_unique hy (heq ▸ hx))
      have hkept : (t.dropSession fd).Placed y := hs.placed fd' y hy
      exact hkept.removeFromRoom hyx _

/-- The old sessions keep their connections. -/
theorem conn_after (c : Change) {x : SessionRef} (hx : x < t.freshSession) :
    ((t.after c).sessionAt x).conn = (t.sessionAt x).conn := by
  cases c with
  | login conn username =>
    have hsame : (t.openSession conn username).sessionAt x = t.sessionAt x :=
      Function.update_of_ne hx.ne _ _
    exact congrArg Session.conn hsame
  | create y name => simp [Tables.after, Tables.create, Tables.newRoom]
  | _ => simp [Tables.after, Tables.join, Tables.leave]

theorem freshSession_le_after (c : Change) : t.freshSession ≤ (t.after c).freshSession := by
  cases c with
  | login conn username => exact Nat.le_succ _
  | create y name => exact Nat.le_refl _
  | close fd x =>
    simp only [Tables.after, Tables.close]
    split_ifs
    · exact Nat.le_refl _
    · rw [removeEmptyRoom_freshSession, removeFromRoom_freshSession]
      exact Nat.le_refl _
  | _ => simp [Tables.after, Tables.join, Tables.leave, Tables.drawRoomId]

namespace RoomIds

variable {first : UInt32} {n : Nat}

/-- No id is 0 before the counter has gone round. -/
theorem add_ne_zero {i : Nat} (hfirst : 0 < first.toNat) (hi : first.toNat + i < 2 ^ 32) :
    first + UInt32.ofNat i ≠ 0 := by
  intro hzero
  have hsmall : i < 2 ^ 32 := Nat.lt_of_le_of_lt (Nat.le_add_left ..) hi
  have hnat := congrArg UInt32.toNat hzero
  rw [UInt32.toNat_add, UInt32.toNat_ofNat_of_lt' hsmall, Nat.mod_eq_of_lt hi] at hnat
  have hpos : 0 < first.toNat + i := Nat.add_pos_left hfirst i
  exact hpos.ne' hnat

theorem next_ne_zero (h : t.RoomIds first n) (hfirst : 0 < first.toNat)
    (hn : first.toNat + n < 2 ^ 32) : t.nextRoomId ≠ 0 := by
  obtain ⟨k, hk, hnext, -⟩ := h
  rw [hnext]
  exact add_ne_zero hfirst (by omega)

theorem lookup_zero (h : t.RoomIds first n) (hfirst : 0 < first.toNat)
    (hn : first.toNat + n ≤ 2 ^ 32) : t.rooms.lookup 0 = none := by
  obtain ⟨k, hk, -, hids⟩ := h
  cases hzero : t.rooms.lookup 0 with
  | none => rfl
  | some ρ =>
    obtain ⟨i, hi, hid⟩ := hids 0 ρ hzero
    exact absurd hid.symm (add_ne_zero hfirst (by omega))

end RoomIds

end Tables

/-! ## §4 What an operation is in the lobby -/

open Classical in
/-- A message that the limiters let pass, with the id that a new room gets and an order in which the
room is told. -/
noncomputable def messageActs (l : ChatLobby) (env : Env) (conn : Conn) (msg : MyMessage)
    (id : UInt32) (order : List Int) : List LobbyAct :=
  match msg.type with
  | .loginReq =>
    match authenticate env msg with
    | .ok username => [.arrive conn.fd username]
    | .error _ => []
  | .createRoomReq =>
    if l.person conn.fd ≠ none ∧ msg.payload ≠ [] ∧ env.insertRoom = .executed () then
      [.build conn.fd id]
    else []
  | .joinRoomReq =>
    match stoul msg.payload with
    | some n =>
      if l.person conn.fd ≠ none ∧ n.toUInt32 ∈ l.rooms then [.enter conn.fd n.toUInt32] else []
    | none => []
  | .leaveRoomReq =>
    if l.person conn.fd ≠ none then .leave conn.fd :: l.shutBehind conn.fd else []
  | .sendMsgReq => if l.place conn.fd ≠ none then [.say conn.fd msg.payload order] else []
  | _ => []

/-- What an operation is in the lobby. -/
noncomputable def Service.acts (s : Service) (l : ChatLobby) (order : List Int) :
    Op → List LobbyAct
  | .message env conn msg =>
    if s.Admitted env conn msg then messageActs l env conn msg s.nextRoomId order else []
  | .closed _ fd => if l.person fd ≠ none then .depart fd :: l.shutBehind fd else []

section

variable {t : Tables} {l : ChatLobby}

/-- A message but for a `SEND_MSG_REQ`. -/
theorem Tables.Shows.message (h : t.Shows l) (hs : t.Sane) {env : Env} {conn : Conn}
    {msg : MyMessage} (htype : msg.type ≠ .sendMsgReq)
    (hlogin : msg.type = .loginReq → t.LoginAbandonsNone env conn msg)
    (hcreate : msg.type = .createRoomReq → t.CreateAbandonsNone env conn msg ∧
      t.nextRoomId ≠ 0 ∧ t.rooms.lookup t.nextRoomId = none) (order : List Int) :
    Tables.Follows l (messageActs l env conn msg t.nextRoomId order)
      (t.after (t.requested env conn msg)) := by
  unfold messageActs Tables.requested
  cases hmsg : msg.type with
  | loginReq =>
    -- the current session of the descriptor is replaced, so it must be in no room
    cases hauth : authenticate env msg with
    | error refusal => exact .refl h
    | ok username => exact h.login hs (hlogin hmsg (by rw [hauth]; rfl))
  | createRoomReq =>
    cases hx : t.sessions.lookup conn.fd with
    | none =>
      rw [if_neg fun hperson => hperson.1 (h.person_eq_none.mpr hx)]
      exact .refl h
    | some x =>
      dsimp only
      split_ifs with hall hname hinsert hname hinsert
      · exact absurd hname hall.2.1
      · obtain ⟨habandons, hid, hfree⟩ := hcreate hmsg
        have hdrawn : t.drawRoomId.Shows l := ⟨h.person, h.place, h.rooms⟩
        have hsane : t.drawRoomId.Sane :=
          ⟨hs.consistent.drawRoomId, hs.noGhosts, hs.placed, hs.noRoomZero⟩
        exact hdrawn.create hsane hx hid hfree _ (habandons hall.2.1 hall.2.2 x hx)
      · exact absurd hall.2.2 hinsert
      · exact .refl h
      · exact absurd ⟨h.person_ne_none hx, hname, hinsert⟩ hall
      -- the insertion fails: the id is gone, and no room has it
      · exact .refl ⟨h.person, h.place, h.rooms⟩
  | joinRoomReq =>
    cases hn : stoul msg.payload with
    | none => cases t.sessions.lookup conn.fd <;> exact .refl h
    | some n =>
      cases hx : t.sessions.lookup conn.fd with
      | none =>
        dsimp only
        rw [if_neg fun hperson => hperson.1 (h.person_eq_none.mpr hx)]
        exact .refl h
      | some x =>
        dsimp only
        cases hρ : t.rooms.lookup n.toUInt32 with
        | none =>
          have hroom : n.toUInt32 ∉ l.rooms := by
            rw [h.rooms, hρ]
            exact Bool.false_ne_true
          rw [if_neg fun hboth => hroom hboth.2]
          exact .refl h
        | some ρ =>
          have hroom : n.toUInt32 ∈ l.rooms := (h.rooms _).mpr (Option.isSome_of_eq_some hρ)
          rw [if_pos ⟨h.person_ne_none hx, hroom⟩]
          exact h.join hs hx hρ
  | leaveRoomReq =>
    -- the payload is not looked at: it is the room of the session that is left
    cases hx : t.sessions.lookup conn.fd with
    | none =>
      dsimp only
      rw [if_neg fun hperson => hperson (h.person_eq_none.mpr hx)]
      exact .refl h
    | some x =>
      dsimp only
      rw [if_pos (h.person_ne_none hx)]
      exact h.leave hs hx
  | sendMsgReq => exact absurd hmsg htype
  | _ => exact .refl h

/-- The end of a connection. -/
theorem Tables.Shows.closed {s : Service} (h : s.toTables.Shows l) (hs : s.toTables.Sane)
    (env : Env) (fd : Int) (order : List Int) :
    Tables.Follows l (s.acts l order (.closed env fd))
      (s.toTables.after (s.change (.closed env fd))) := by
  rw [Service.acts, Service.change]
  cases hx : s.sessions.lookup fd with
  | none =>
    rw [if_neg fun hperson => hperson (h.person_eq_none.mpr hx)]
    exact .refl h
  | some x =>
    rw [if_pos (h.person_ne_none hx)]
    exact h.close hs hx

end

/-! ## §5 The service -/

namespace Service

/-- The acts are those of the operation, whatever the order in which a room is told. -/
def Enacts (s : Service) (l : ChatLobby) (op : Op) (acts : List LobbyAct) : Prop :=
  ∃ order, acts = s.acts l order op

/-- What is heard in the service is what is heard in the lobby, in the same order. -/
def HeardAs (s : Service) (l : ChatLobby) : Prop :=
  s.chat.map (fun p => ((s.sessionAt p.1).conn.fd, p.2)) =
    l.heard.map fun h => (h.listener, chatMessage h.room h.speaker h.text)

/-- The service is the lobby. -/
structure InLobby (s : Service) (l : ChatLobby) : Prop where
  shows : s.toTables.Shows l
  heard : s.HeardAs l
  known : ∀ p ∈ s.chat, p.1 < s.freshSession

/-- An operation that says nothing. -/
theorem InLobby.quiet {s s' : Service} {l : ChatLobby} (h : s.InLobby l) {c : Change}
    {acts : List LobbyAct} (htables : s'.toTables = s.toTables.after c) (hchat : s'.chat = s.chat)
    (hfollows : Tables.Follows l acts (s.toTables.after c)) :
    ∃ l', run Lobby.step l acts = some l' ∧ s'.InLobby l' := by
  obtain ⟨l', hrun, hshows, hheard⟩ := hfollows
  refine ⟨l', hrun, htables ▸ hshows, ?_, fun p hp => ?_⟩
  · rw [HeardAs, hheard, hchat, htables, ← h.heard]
    refine List.map_congr_left fun p hp => ?_
    rw [Tables.conn_after c (h.known p hp)]
  · rw [hchat] at hp
    rw [htables]
    exact Nat.lt_of_lt_of_le (h.known p hp) (Tables.freshSession_le_after c)

/-- The sessions that hear a message in a room are those that believe to be there. -/
theorem listeners {t : Tables} (hs : t.Sane) {r : UInt32} {ρ : RoomRef} (hne : r ≠ 0)
    (hρ : t.rooms.lookup r = some ρ) :
    ((t.roomAt ρ).members.map fun y => (t.sessionAt y).conn.fd).Nodup ∧
      ∀ fd, fd ∈ (t.roomAt ρ).members.map (fun y => (t.sessionAt y).conn.fd) ↔
        t.placeAt fd = some r := by
  have hcurrent : ∀ y ∈ (t.roomAt ρ).members,
      t.sessions.lookup (t.sessionAt y).conn.fd = some y ∧ (t.sessionAt y).roomId = r :=
    fun y hy => hs.noGhosts y r ⟨ρ, hρ, hy⟩
  refine ⟨(hs.consistent.nodup ρ).map_on fun y hy z hz hyz => ?_, fun fd => ?_⟩
  · have hy' := (hcurrent y hy).1
    rw [hyz, (hcurrent z hz).1, Option.some.injEq] at hy'
    exact hy'.symm
  · rw [List.mem_map]
    constructor
    · rintro ⟨y, hy, rfl⟩
      exact Tables.placeAt_eq_some.mpr ⟨y, (hcurrent y hy).1, (hcurrent y hy).2, hne⟩
    · intro hfd
      obtain ⟨y, σ, hy, hσ, hmem⟩ := hs.member hfd
      rw [hρ, Option.some.injEq] at hσ
      exact ⟨y, hσ ▸ hmem, hs.consistent.fd_eq fd y hy⟩

section

variable {s : Service} {l : ChatLobby} {env : Env} {conn : Conn} {msg : MyMessage}

theorem acts_send (hpass : s.Admitted env conn msg) (htype : msg.type = .sendMsgReq)
    (order : List Int) : s.acts l order (.message env conn msg) =
      if l.place conn.fd ≠ none then [.say conn.fd msg.payload order] else [] := by
  rw [acts, if_pos hpass, messageActs, htype]

theorem handleMessage_toTables_of_send (hpass : s.Admitted env conn msg)
    (htype : msg.type = .sendMsgReq) : (s.handleMessage env conn msg).toTables = s.toTables := by
  rw [handleMessage_of_admitted hpass, Tables.handle, htype]

theorem handleMessage_chat_of_send (hpass : s.Admitted env conn msg)
    (htype : msg.type = .sendMsgReq) : (s.handleMessage env conn msg).chat =
      s.chat ++ (s.toTables.sendOutput conn msg).filterMap Sent.said := by
  rw [chat, handleMessage_sent_of_send htype, if_pos hpass, List.filterMap_append, chat]

/-- Who is in no room is not heard. -/
theorem InLobby.send_nowhere (h : s.InLobby l) (hpass : s.Admitted env conn msg)
    (htype : msg.type = .sendMsgReq) (hplace : s.placeAt conn.fd = none) :
    ∃ l', run Lobby.step l (s.acts l [] (.message env conn msg)) = some l' ∧
      (s.handleMessage env conn msg).InLobby l' := by
  have hnothing : (s.toTables.sendOutput conn msg).filterMap Sent.said = [] := by
    cases hx : s.sessions.lookup conn.fd with
    | none => simp [Tables.sendOutput, hx, Sent.said]
    | some x =>
      have hzero : (s.sessionAt x).roomId = 0 := by
        by_contra hne
        have hsome := Tables.placeAt_eq_some.mpr ⟨x, hx, rfl, hne⟩
        rw [hplace] at hsome
        cases hsome
      simp [Tables.sendOutput, hx, hzero, Sent.said]
  have hchat : (s.handleMessage env conn msg).chat = s.chat := by
    rw [handleMessage_chat_of_send hpass htype, hnothing, List.append_nil]
  have hnowhere : l.place conn.fd = none := (h.shows.place conn.fd).trans hplace
  rw [acts_send hpass htype, if_neg fun hne => hne hnowhere]
  exact h.quiet (c := .none) (handleMessage_toTables_of_send hpass htype) hchat (.refl h.shows)

/-- Everybody in the room of the sender hears it. -/
theorem InLobby.send_room (h : s.InLobby l) (hs : s.toTables.Sane)
    (hpass : s.Admitted env conn msg) (htype : msg.type = .sendMsgReq) {x : SessionRef}
    (hx : s.sessions.lookup conn.fd = some x) (hzero : (s.sessionAt x).roomId ≠ 0)
    {ρ : RoomRef} (hρ : s.rooms.lookup (s.sessionAt x).roomId = some ρ) :
    ∃ l', run Lobby.step l (s.acts l ((s.roomAt ρ).members.map fun y => (s.sessionAt y).conn.fd)
        (.message env conn msg)) = some l' ∧
      (s.handleMessage env conn msg).InLobby l' := by
  have htables := handleMessage_toTables_of_send hpass htype
  have hchat : (s.handleMessage env conn msg).chat = s.chat ++ (s.roomAt ρ).members.map fun y =>
      (y, chatMessage (s.sessionAt x).roomId (s.sessionAt x).username msg.payload) := by
    rw [handleMessage_chat_of_send hpass htype, Tables.sendOutput, hx]
    simp only [if_neg hzero, hρ, List.filterMap_append, List.filterMap_map]
    simp [Sent.said, chatMessage]
  have hperson : l.person conn.fd = some (s.sessionAt x).username := by
    rw [h.shows.person, Tables.personAt, hx, Option.map_some]
  have hplace : l.place conn.fd = some (s.sessionAt x).roomId :=
    (h.shows.place conn.fd).trans (Tables.placeAt_eq_some.mpr ⟨x, hx, rfl, hzero⟩)
  obtain ⟨hnodup, hall⟩ := listeners hs hzero hρ
  have hsay : l.step (.say conn.fd msg.payload
      ((s.roomAt ρ).members.map fun y => (s.sessionAt y).conn.fd)) =
      some { l with heard := l.heard ++
        ((s.roomAt ρ).members.map fun y => (s.sessionAt y).conn.fd).map fun fd =>
          ⟨fd, (s.sessionAt x).username, (s.sessionAt x).roomId, msg.payload⟩ } := by
    apply Lobby.step_say hperson hplace hnodup
    intro fd
    rw [hall fd, h.shows.place fd]
  rw [acts_send hpass htype, if_pos (hplace ▸ Option.some_ne_none _)]
  refine ⟨_, run_cons_eq_some.mpr ⟨_, hsay, run_nil ..⟩, ?_, ?_, fun p hp => ?_⟩
  · rw [htables]
    exact ⟨h.shows.person, h.shows.place, h.shows.rooms⟩
  -- the messages are added at the end, in the order of the members
  · rw [HeardAs, hchat, htables, List.map_append, List.map_append, h.heard, List.map_map,
      List.map_map, List.map_map]
    rfl
  · rw [hchat] at hp
    rw [htables]
    rcases List.mem_append.mp hp with hp | hp
    · exact h.known p hp
    · obtain ⟨y, hy, rfl⟩ := List.mem_map.mp hp
      exact hs.consistent.member_lt ρ y hy

/-- A `SEND_MSG_REQ` that passes the limiters. -/
theorem InLobby.send (h : s.InLobby l) (hs : s.toTables.Sane) (hpass : s.Admitted env conn msg)
    (htype : msg.type = .sendMsgReq) :
    ∃ order l', run Lobby.step l (s.acts l order (.message env conn msg)) = some l' ∧
      (s.handleMessage env conn msg).InLobby l' := by
  cases hplace : s.placeAt conn.fd with
  | none => exact ⟨[], h.send_nowhere hpass htype hplace⟩
  | some r =>
    obtain ⟨x, hx, rfl, hzero⟩ := Tables.placeAt_eq_some.mp hplace
    obtain ⟨ρ, hρ, -⟩ := hs.placed conn.fd x hx hzero
    exact ⟨_, h.send_room hs hpass htype hx hzero hρ⟩

end

/-- The id that a creation draws is free. -/
def DrawsFreeId (s : Service) (op : Op) : Prop :=
  op.isCreate = true → s.nextRoomId ≠ 0 ∧ s.rooms.lookup s.nextRoomId = none

/-- Each operation on sane tables that abandons no member is what `acts` says. -/
theorem service_simulates : SimulatesBy Service.step Lobby.step Enacts
    (fun s op => s.AbandonsNoMember op ∧ s.toTables.Sane ∧ s.DrawsFreeId op) InLobby := by
  intro s l op s' h hG hstep
  obtain ⟨habandons, hsane, hfree⟩ := hG
  obtain rfl : s.apply op = s' := Option.some.inj hstep
  have htables := s.apply_toTables op
  cases op with
  | closed env fd =>
    obtain ⟨l', hl'⟩ := h.quiet htables (s.onConnectionClosed_chat env fd)
      (h.shows.closed hsane env fd [])
    exact ⟨_, l', ⟨[], rfl⟩, hl'⟩
  | message env conn msg =>
    by_cases hpass : s.Admitted env conn msg
    · by_cases htype : msg.type = .sendMsgReq
      · obtain ⟨order, l', hl'⟩ := h.send hsane hpass htype
        exact ⟨_, l', ⟨order, rfl⟩, hl'⟩
      · obtain ⟨hlogin, hcreate, -⟩ := habandons hpass
        have hfollows : Tables.Follows l (s.acts l [] (.message env conn msg))
            (s.toTables.after (s.change (.message env conn msg))) := by
          rw [acts, change, if_pos hpass, if_pos hpass]
          exact h.shows.message hsane htype hlogin
            (fun hmsg => ⟨hcreate hmsg, hfree (decide_eq_true hmsg)⟩) []
        obtain ⟨l', hl'⟩ := h.quiet htables (handleMessage_chat fun _ => htype) hfollows
        exact ⟨_, l', ⟨[], rfl⟩, hl'⟩
    · have hnothing : Tables.Follows l (s.acts l [] (.message env conn msg))
          (s.toTables.after (s.change (.message env conn msg))) := by
        rw [acts, change, if_neg hpass, if_neg hpass]
        exact .refl h.shows
      have hchat : (s.handleMessage env conn msg).chat = s.chat :=
        handleMessage_chat fun hadmitted => absurd hadmitted hpass
      obtain ⟨l', hl'⟩ := h.quiet htables hchat hnothing
      exact ⟨_, l', ⟨[], rfl⟩, hl'⟩

/-! ## §6 Runs -/

theorem InLobby.init (first : UInt32) : (Service.init first).InLobby .empty := by
  refine ⟨⟨fun fd => ?_, fun fd => ?_, fun r => ?_⟩, rfl, fun p hp => ?_⟩
  · rfl
  · rfl
  · simp [Lobby.empty, Service.init, Tables.init]
  · cases hp

/-- Operations that abandon no member leave no ghosts. -/
theorem noGhosts_run {first : UInt32} {ops : List Op} {s : Service}
    (hrun : run Service.step (.init first) ops = some s)
    (hmeets : Meets Service.step AbandonsNoMember (.init first) ops) : s.NoGhosts := by
  have hinit : (Service.init first).NoGhosts := by
    intro y r hy
    obtain ⟨ρ, hρ, -⟩ := hy
    simp [Service.init, Tables.init] at hρ
  have hstep : ∀ (s : Service) op s', s.toTables.Consistent ∧ s.NoGhosts →
      s.AbandonsNoMember op → s.step op = some s' → s'.toTables.Consistent ∧ s'.NoGhosts := by
    intro s op s' h habandons hs'
    obtain rfl : s.apply op = s' := Option.some.inj hs'
    exact ⟨(s.apply_effect op).consistent h.1, (apply_noGhosts_iff h.1 h.2).mpr habandons⟩
  exact (run_invariant_of_meets hstep ⟨.init first, hinit⟩ hmeets hrun).2

/-- **The service is a lobby.**  If no operation of a run abandons a member and the room ids do not
go round, the lobby goes along: each operation is what `acts` says, and after each of them there are
the same users at the same descriptors, in the same rooms, and the same chat messages have been
heard in the same order. -/
theorem chat_refines_lobby {first : UInt32} {ops : List Op} {s : Service}
    (hrun : run Service.step (.init first) ops = some s) (hfirst : first ≠ 0)
    (hcreates : first.toNat + ops.countP Op.isCreate ≤ 2 ^ 32)
    (hmeets : Meets Service.step AbandonsNoMember (.init first) ops) :
    ∃ l, Accompanies Service.step Lobby.step Enacts InLobby (.init first) .empty ops s l := by
  have hpos : 0 < first.toNat := Nat.pos_of_ne_zero fun h => hfirst (UInt32.toNat_inj.mp h)
  refine service_simulates.run (.init first) ?_ hrun
  refine (meets_iff_forall_step hrun).mpr fun pre op post heq v hv => ?_
  have hcount : pre.countP Op.isCreate + (if op.isCreate then 1 else 0) ≤
      ops.countP Op.isCreate := by
    rw [heq, List.countP_append, List.countP_cons]
    omega
  have hinv := memberInv_run hv (by omega)
  rw [heq] at hmeets
  refine ⟨?_, ⟨hinv.consistent, noGhosts_run hv ((meets_append hv _).mp hmeets).1, hinv.placed,
    ?_⟩, fun hcreate => ⟨?_, hinv.ids.lookup_next (by omega)⟩⟩
  · exact ((meets_append hv _).mp hmeets).2.1
  · exact hinv.ids.lookup_zero hpos (by omega)
  · rw [if_pos hcreate] at hcount
    exact hinv.ids.next_ne_zero hpos (by omega)

/-- Two users talk in a room that both of them leave. -/
def conversation : List Op :=
  [request ⟨0, 5⟩ .loginReq "ann|pw", request ⟨1, 6⟩ .loginReq "bob|pw",
    request ⟨0, 5⟩ .createRoomReq "r", request ⟨1, 6⟩ .joinRoomReq "1",
    request ⟨1, 6⟩ .sendMsgReq "hello", request ⟨0, 5⟩ .leaveRoomReq "",
    .closed ⟨0, .noConnection, .noConnection, .reply⟩ 6]

theorem chat_refines_lobby_conversation :
    ∃ s, run Service.step (.init 1) conversation = some s ∧ s.chat.length = 2 ∧
      ∃ l, Accompanies Service.step Lobby.step Enacts InLobby (.init 1) .empty conversation s
        l := by
  have hlast : ((run Service.step (.init 1) conversation).any fun s => decide (s.chat.length = 2)) =
      true := by decide +kernel
  obtain ⟨s, hrun, hs⟩ := exists_of_run_any hlast
  exact ⟨s, hrun, of_decide_eq_true hs,
    chat_refines_lobby hrun (by decide) (by decide +kernel) (by decide +kernel)⟩

end Service

end EchoNet.Chat
