import EchoNet.Lib.Machine
import EchoNet.Lib.Text
import EchoNet.Protocol.MyProtocol
import EchoNet.RateLimit.TokenBucket
import Mathlib.Data.List.AList

/-!
# The Chat Service

`ChatService` (src/src/ChatService/ChatService.cpp) with its `Session` and `Room` objects.

- Sessions and rooms are shared objects: a `SessionRef` or `RoomRef` is the number of the
  allocation, and the two heaps are total functions.  A room that was erased from `rooms_`
  can still be held by a running handler.
- `Tables` is the part that the handlers keep consistent by hand: the heaps, `sessions_`,
  `rooms_` and the two id counters.  Each critical section of the source is one of its
  operations.
- MySQL, Redis and the clock are outside: `Env` says what they do during one operation.
- `sent` is the history of the calls of `sendResponse`.
-/

namespace EchoNet.Chat

open EchoNet.Lib EchoNet.Protocol EchoNet.RateLimit

/-! ## §1 Objects -/

/-- A `Connection`, as the service sees it: the object, and the number in its channel. -/
structure Conn where
  ref : Nat
  fd : Int
  deriving DecidableEq, Repr

abbrev SessionRef := Nat

abbrev RoomRef := Nat

/-- `class Session`. -/
structure Session where
  conn : Conn
  userId : UInt32
  username : Bytes
  roomId : UInt32
  deriving DecidableEq, Repr

/-- `class Room`. -/
structure Room where
  id : UInt32
  name : Bytes
  members : List SessionRef
  deriving DecidableEq, Repr

namespace Room

/-- `Room::addMember`. -/
def addMember (r : Room) (x : SessionRef) : Room :=
  if x ∈ r.members then r else { r with members := r.members ++ [x] }

/-- `Room::removeMember`: every occurrence is erased. -/
def removeMember (r : Room) (x : SessionRef) : Room :=
  { r with members := r.members.filter (· ≠ x) }

/-- `Room::memberCount`. -/
def memberCount (r : Room) : Nat := r.members.length

@[simp] theorem addMember_id (r : Room) (x : SessionRef) : (r.addMember x).id = r.id := by
  unfold addMember
  split_ifs <;> rfl

@[simp] theorem removeMember_id (r : Room) (x : SessionRef) : (r.removeMember x).id = r.id := rfl

@[simp] theorem mem_addMember {r : Room} {x y : SessionRef} :
    y ∈ (r.addMember x).members ↔ y ∈ r.members ∨ y = x := by
  unfold addMember
  split_ifs with h
  · refine ⟨Or.inl, ?_⟩
    rintro (hy | rfl)
    · exact hy
    · exact h
  · simp

@[simp] theorem mem_removeMember {r : Room} {x y : SessionRef} :
    y ∈ (r.removeMember x).members ↔ y ∈ r.members ∧ y ≠ x := by
  simp [removeMember]

theorem nodup_addMember {r : Room} (h : r.members.Nodup) (x : SessionRef) :
    (r.addMember x).members.Nodup := by
  unfold addMember
  split_ifs with hx
  · exact h
  · exact List.nodup_append.mpr ⟨h, List.nodup_singleton x, by
      rintro y hy z hz rfl
      exact hx (List.mem_singleton.mp hz ▸ hy)⟩

theorem nodup_removeMember {r : Room} (h : r.members.Nodup) (x : SessionRef) :
    (r.removeMember x).members.Nodup := h.filter _

theorem memberCount_eq_zero {r : Room} : r.memberCount = 0 ↔ r.members = [] :=
  List.length_eq_zero_iff

end Room

/-! ## §2 The tables -/

/-- The heaps, `sessions_`, `rooms_`, `next_session_id_` and `next_room_id_`. -/
structure Tables where
  sessionAt : SessionRef → Session
  freshSession : SessionRef
  roomAt : RoomRef → Room
  freshRoom : RoomRef
  sessions : AList fun _ : Int => SessionRef
  rooms : AList fun _ : UInt32 => RoomRef
  nextSessionId : UInt32
  nextRoomId : UInt32

namespace Tables

/-- No session, no room; `initIdsFromDatabase` has chosen the first room id. -/
def init (firstRoomId : UInt32) : Tables where
  sessionAt := fun _ => ⟨⟨0, 0⟩, 0, [], 0⟩
  freshSession := 0
  roomAt := fun _ => ⟨0, [], []⟩
  freshRoom := 0
  sessions := ∅
  rooms := ∅
  nextSessionId := 1
  nextRoomId := firstRoomId

/-- `Session::setRoomId`. -/
def setRoomId (t : Tables) (x : SessionRef) (id : UInt32) : Tables :=
  { t with sessionAt := Function.update t.sessionAt x { t.sessionAt x with roomId := id } }

def updateRoom (t : Tables) (ρ : RoomRef) (f : Room → Room) : Tables :=
  { t with roomAt := Function.update t.roomAt ρ (f (t.roomAt ρ)) }

/-- `room->addMember(session)`. -/
def addMember (t : Tables) (ρ : RoomRef) (x : SessionRef) : Tables :=
  t.updateRoom ρ fun r => r.addMember x

/-- The critical section that looks a room up and takes a session out of it. -/
def removeFromRoom (t : Tables) (id : UInt32) (x : SessionRef) : Tables :=
  match t.rooms.lookup id with
  | some ρ => t.updateRoom ρ fun r => r.removeMember x
  | none => t

/-- The critical section of `checkAndRemoveEmptyRoom`. -/
def removeEmptyRoom (t : Tables) (id : UInt32) : Tables :=
  match t.rooms.lookup id with
  | some ρ => if (t.roomAt ρ).memberCount = 0 then { t with rooms := t.rooms.erase id } else t
  | none => t

/-- The end of `handleLogin`: a fresh user id, a fresh `Session`, stored under the
descriptor. -/
def openSession (t : Tables) (conn : Conn) (username : Bytes) : Tables :=
  { t with
    sessionAt := Function.update t.sessionAt t.freshSession ⟨conn, t.nextSessionId, username, 0⟩
    freshSession := t.freshSession + 1
    sessions := t.sessions.insert conn.fd t.freshSession
    nextSessionId := t.nextSessionId + 1 }

/-- `next_room_id_++`. -/
def drawRoomId (t : Tables) : Tables := { t with nextRoomId := t.nextRoomId + 1 }

/-- `make_shared<Room>`, stored under its id. -/
def newRoom (t : Tables) (id : UInt32) (name : Bytes) : Tables :=
  { t with
    roomAt := Function.update t.roomAt t.freshRoom ⟨id, name, []⟩
    freshRoom := t.freshRoom + 1
    rooms := t.rooms.insert id t.freshRoom }

/-- `handleCreateRoom` after the insertion into the database. -/
def create (t : Tables) (id : UInt32) (name : Bytes) (x : SessionRef) : Tables :=
  ((t.newRoom id name).addMember t.freshRoom x).setRoomId x id

/-- The part of `handleJionRoom` that leaves the old room. -/
def leaveOld (t : Tables) (x : SessionRef) : Tables :=
  if (t.sessionAt x).roomId = 0 then t else t.removeFromRoom (t.sessionAt x).roomId x

/-- `handleJionRoom` after the lookup of the room. -/
def join (t : Tables) (x : SessionRef) (id : UInt32) (ρ : RoomRef) : Tables :=
  ((t.leaveOld x).addMember ρ x).setRoomId x id

/-- `handleLeaveRoom` up to the broadcast. -/
def leave (t : Tables) (x : SessionRef) : Tables :=
  (t.removeFromRoom (t.sessionAt x).roomId x).setRoomId x 0

/-- `sessions_.erase`. -/
def dropSession (t : Tables) (fd : Int) : Tables := { t with sessions := t.sessions.erase fd }

end Tables

/-! ## §3 What is outside of the service -/

/-- How far a prepared MySQL statement gets. -/
inductive Stmt (α : Type) where
  | noConnection
  | initFailed
  | prepareFailed
  | bindParamFailed
  | executeFailed
  | executed (result : α)
  deriving DecidableEq, Repr

/-- The result of the password query: `mysql_stmt_bind_result` fails, `mysql_stmt_fetch`
returns nonzero, or it returns the password of a row. -/
inductive Fetch where
  | bindResultFailed
  | noRow
  | row (password : Bytes)
  deriving DecidableEq, Repr

/-- A Redis command: no connection, no reply (the server may have run it or not), a reply. -/
inductive RedisOutcome where
  | noConnection
  | noReply (ran : Bool)
  | reply
  deriving DecidableEq, Repr

/-- The clock and the outcomes of the calls that one operation makes. -/
structure Env where
  now : ℚ
  login : Stmt Fetch
  insertRoom : Stmt Unit
  redis : RedisOutcome
  deriving DecidableEq, Repr

/-- The Redis keys: `user:<id>:online` and the sets `room:<id>:members`. -/
structure Redis where
  online : List UInt32
  members : List (UInt32 × UInt32)
  deriving DecidableEq, Repr

inductive RedisCommand where
  | setOnline (user : UInt32)
  | delOnline (user : UInt32)
  | sadd (room user : UInt32)
  | srem (room user : UInt32)
  deriving DecidableEq, Repr

namespace Redis

def exec (r : Redis) : RedisCommand → Redis
  | .setOnline user => { r with online := r.online.insert user }
  | .delOnline user => { r with online := r.online.filter (· ≠ user) }
  | .sadd room user => { r with members := r.members.insert (room, user) }
  | .srem room user => { r with members := r.members.filter (· ≠ (room, user)) }

/-- A command as far as the outcome lets it run. -/
def command (r : Redis) : RedisOutcome → RedisCommand → Redis
  | .noConnection, _ => r
  | .noReply false, _ => r
  | .noReply true, cmd => r.exec cmd
  | .reply, cmd => r.exec cmd

end Redis

/-! ## §4 The state of the service -/

/-- The keys of the limiters: `"global"`, `"user:<id>"`, `"fd:<fd>"`. -/
inductive LimiterKey where
  | global
  | user (id : UInt32)
  | fd (fd : Int)
  deriving DecidableEq, Repr

/-- The counters of `Metrics` that the service touches. -/
structure Metrics where
  totalConnections : UInt64
  activeConnections : UInt64
  totalRequests : UInt64
  errorRequests : UInt64
  deriving DecidableEq, Repr

/-- `MessageRecord`. -/
structure MessageRecord where
  roomId : UInt32
  userId : UInt32
  content : Bytes
  deriving DecidableEq, Repr

/-- A call of `sendResponse`: by a handler, or through `Session::send`. -/
inductive Sent where
  | response (conn : Conn) (message : MyMessage)
  | push (session : SessionRef) (message : MyMessage)
  deriving DecidableEq, Repr

/-- `class ChatService`. -/
structure Service extends Tables where
  globalLimiter : TokenBucket LimiterKey
  userLimiter : TokenBucket LimiterKey
  redis : Redis
  metrics : Metrics
  msgQueue : List MessageRecord
  droppedMessages : UInt64
  sent : List Sent

/-- `MAX_QUEUE_SIZE`. -/
def maxQueueSize : Nat := 500000

namespace Service

def init (firstRoomId : UInt32) : Service where
  toTables := Tables.init firstRoomId
  globalLimiter := .new 5000 10000
  userLimiter := .new 10 20
  redis := ⟨[], []⟩
  metrics := ⟨0, 0, 0, 0⟩
  msgQueue := []
  droppedMessages := 0
  sent := []

/-! ## §5 Helpers of the handlers -/

/-- A critical section on the tables. -/
def onTables (s : Service) (f : Tables → Tables) : Service := { s with toTables := f s.toTables }

@[simp] theorem onTables_toTables (s : Service) (f : Tables → Tables) :
    (s.onTables f).toTables = f s.toTables := rfl

/-- `conn->sendResponse` of a response to `msg`. -/
def respond (s : Service) (conn : Conn) (type : MyType) (msg : MyMessage) (payload : Bytes) :
    Service :=
  { s with sent := s.sent ++ [.response conn ⟨type, msg.id, payload⟩] }

@[simp] theorem respond_toTables (s : Service) (conn : Conn) (type : MyType) (msg : MyMessage)
    (payload : Bytes) : (s.respond conn type msg payload).toTables = s.toTables := rfl

def redisCommand (s : Service) (env : Env) (cmd : RedisCommand) : Service :=
  { s with redis := s.redis.command env.redis cmd }

@[simp] theorem redisCommand_toTables (s : Service) (env : Env) (cmd : RedisCommand) :
    (s.redisCommand env cmd).toTables = s.toTables := rfl

/-- `getSessionByFd`. -/
def getSessionByFd (s : Service) (fd : Int) : Option SessionRef := s.sessions.lookup fd

/-- `getSessionByConn`. -/
def getSessionByConn (s : Service) (conn : Conn) : Option SessionRef := s.getSessionByFd conn.fd

/-- `getRoomById`. -/
def getRoomById (s : Service) (id : UInt32) : Option RoomRef := s.rooms.lookup id

/-- `Room::broadcast`. -/
def broadcast (s : Service) (ρ : RoomRef) (msg : MyMessage) : Service :=
  { s with sent := s.sent ++ (s.roomAt ρ).members.map fun x => .push x msg }

@[simp] theorem broadcast_toTables (s : Service) (ρ : RoomRef) (msg : MyMessage) :
    (s.broadcast ρ msg).toTables = s.toTables := rfl

/-- `broadcastMemberCount`. -/
def broadcastMemberCount (s : Service) (id : UInt32) : Service :=
  match s.getRoomById id with
  | none => s
  | some ρ => s.broadcast ρ ⟨.memberCountUpdate, 0,
      toDecimal id.toNat ++ ascii "|" ++ sizeToDecimal (s.roomAt ρ).memberCount⟩

@[simp] theorem broadcastMemberCount_toTables (s : Service) (id : UInt32) :
    (s.broadcastMemberCount id).toTables = s.toTables := by
  unfold broadcastMemberCount
  split <;> rfl

/-- `checkAndRemoveEmptyRoom`.  The deletion from the database does not come back to the
service. -/
def checkAndRemoveEmptyRoom (s : Service) (id : UInt32) : Service :=
  s.onTables fun t => t.removeEmptyRoom id

@[simp] theorem checkAndRemoveEmptyRoom_toTables (s : Service) (id : UInt32) :
    (s.checkAndRemoveEmptyRoom id).toTables = s.toTables.removeEmptyRoom id := rfl

/-- `enqueueMessage`. -/
def enqueueMessage (s : Service) (record : MessageRecord) : Service :=
  if maxQueueSize ≤ s.msgQueue.length then { s with droppedMessages := s.droppedMessages + 1 }
  else { s with msgQueue := s.msgQueue ++ [record] }

@[simp] theorem enqueueMessage_toTables (s : Service) (record : MessageRecord) :
    (s.enqueueMessage record).toTables = s.toTables := by
  unfold enqueueMessage
  split_ifs <;> rfl

@[simp] theorem enqueueMessage_sent (s : Service) (record : MessageRecord) :
    (s.enqueueMessage record).sent = s.sent := by
  unfold enqueueMessage
  split_ifs <;> rfl

/-! ## §6 The handlers -/

end Service

/-- The password check of `handleLogin`: the user name, or the refusal. -/
def authenticate (env : Env) (msg : MyMessage) : Except Bytes Bytes :=
  match splitFirst 0x7C msg.payload with
  | none => .error (ascii "Invalid login payload")
  | some (username, password) =>
    match env.login with
    | .noConnection => .error (ascii "sql conecction fail")
    | .executed (.row dbPassword) =>
      if password = dbPassword then .ok username else .error (ascii "FAIL")
    | _ => .error (ascii "FAIL")

/-- The message that `handleSendMessage` broadcasts. -/
def chatMessage (roomId : UInt32) (username content : Bytes) : MyMessage :=
  ⟨.broadcastMsg, 0, toDecimal roomId.toNat ++ ascii "|" ++ username ++ ascii "|" ++ content⟩

namespace Service

/-- `handleLogin`. -/
def handleLogin (s : Service) (env : Env) (conn : Conn) (msg : MyMessage) : Service :=
  match authenticate env msg with
  | .error refusal => s.respond conn .loginResp msg refusal
  | .ok username =>
    let userId := s.nextSessionId
    let s := s.onTables fun t => t.openSession conn username
    let s := s.redisCommand env (.setOnline userId)
    let s := s.respond conn .loginResp msg (ascii "OK")
    { s with metrics := { s.metrics with
        totalConnections := s.metrics.totalConnections + 1
        activeConnections := s.metrics.activeConnections + 1 } }

/-- `handleCreateRoom`. -/
def handleCreateRoom (s : Service) (env : Env) (conn : Conn) (msg : MyMessage) : Service :=
  match s.getSessionByConn conn with
  | none => s.respond conn .errorResp msg (ascii "Not logged in")
  | some x =>
    if msg.payload.isEmpty then s.respond conn .errorResp msg (ascii "Room name empty")
    else
      let roomId := s.nextRoomId
      let s := s.onTables Tables.drawRoomId
      match env.insertRoom with
      | .executed () =>
        let s := s.onTables fun t => t.create roomId msg.payload x
        s.respond conn .createRoomResp msg (ascii "OK|" ++ toDecimal roomId.toNat ++ ascii "|1")
      | _ => s.respond conn .createRoomResp msg (ascii "FAIL")

/-- `handleJionRoom`. -/
def handleJionRoom (s : Service) (env : Env) (conn : Conn) (msg : MyMessage) : Service :=
  match s.getSessionByConn conn with
  | none => s.respond conn .errorResp msg (ascii "Not logged in")
  | some x =>
    match stoul msg.payload with
    | none => s.respond conn .errorResp msg (ascii "Invalid room id")
    | some n =>
      let roomId := n.toUInt32
      match s.getRoomById roomId with
      | none => s.respond conn .errorResp msg (ascii "Room not found")
      | some target =>
        let s := s.onTables fun t => t.join x roomId target
        let s := s.broadcastMemberCount roomId
        let s := s.redisCommand env (.sadd roomId (s.sessionAt x).userId)
        s.respond conn .joinRoomResp msg (ascii "OK|" ++ sizeToDecimal (s.roomAt target).memberCount)

/-- `handleLeaveRoom`. -/
def handleLeaveRoom (s : Service) (env : Env) (conn : Conn) (msg : MyMessage) : Service :=
  match s.getSessionByConn conn with
  | none => s.respond conn .errorResp msg (ascii "Not logged in")
  | some x =>
    let roomId := (s.sessionAt x).roomId
    let s := s.onTables fun t => t.leave x
    let s := s.broadcastMemberCount roomId
    let s := s.checkAndRemoveEmptyRoom roomId
    let s := s.redisCommand env (.srem roomId (s.sessionAt x).userId)
    s.respond conn .leaveRoomResp msg (ascii "OK")

/-- `handleSendMessage`. -/
def handleSendMessage (s : Service) (conn : Conn) (msg : MyMessage) : Service :=
  match s.getSessionByConn conn with
  | none => s.respond conn .errorResp msg (ascii "Not logged in")
  | some x =>
    let roomId := (s.sessionAt x).roomId
    if roomId = 0 then s.respond conn .errorResp msg (ascii "Not in any room")
    else
      match s.getRoomById roomId with
      | none => s.respond conn .errorResp msg (ascii "Room not found")
      | some ρ =>
        let s := s.broadcast ρ (chatMessage roomId (s.sessionAt x).username msg.payload)
        let s := s.respond conn .sendMsgResp msg (ascii "OK")
        s.enqueueMessage ⟨roomId, (s.sessionAt x).userId, msg.payload⟩

/-- `handleHearbeat`. -/
def handleHearbeat (s : Service) (conn : Conn) (msg : MyMessage) : Service :=
  s.respond conn .heartbeatResp msg []

/-- `Metrics::total_requests++`. -/
def countRequest (s : Service) : Service :=
  { s with metrics := { s.metrics with totalRequests := s.metrics.totalRequests + 1 } }

@[simp] theorem countRequest_toTables (s : Service) : s.countRequest.toTables = s.toTables := rfl

/-- `Metrics::error_requests++`. -/
def countError (s : Service) : Service :=
  { s with metrics := { s.metrics with errorRequests := s.metrics.errorRequests + 1 } }

@[simp] theorem countError_toTables (s : Service) : s.countError.toTables = s.toTables := rfl

/-- `sendRateLimited`. -/
def sendRateLimited (s : Service) (conn : Conn) (msg : MyMessage) : Service :=
  s.countError.respond conn .errorResp msg (ascii "RATE_LIMITED")

/-- The key of the second level of limiting. -/
def limiterKey (s : Service) (conn : Conn) : LimiterKey :=
  match s.getSessionByConn conn with
  | some x => .user (s.sessionAt x).userId
  | none => .fd conn.fd

/-- The two levels of limiting: the global bucket first, and the user's bucket only when
the global one lets the message pass. -/
def passLimiters (s : Service) (env : Env) (conn : Conn) : Service × Bool :=
  match s.globalLimiter.tryAcquire env.now .global with
  | (limiter, false) => ({ s with globalLimiter := limiter }, false)
  | (limiter, true) =>
    let s := { s with globalLimiter := limiter }
    match s.userLimiter.tryAcquire env.now (s.limiterKey conn) with
    | (limiter, passed) => ({ s with userLimiter := limiter }, passed)

/-- `handleMessage` after the limiters. -/
def dispatch (s : Service) (env : Env) (conn : Conn) (msg : MyMessage) : Service :=
  let s := s.countRequest
  match msg.type with
  | .loginReq => s.handleLogin env conn msg
  | .createRoomReq => s.handleCreateRoom env conn msg
  | .joinRoomReq => s.handleJionRoom env conn msg
  | .leaveRoomReq => s.handleLeaveRoom env conn msg
  | .sendMsgReq => s.handleSendMessage conn msg
  | .heartbeatReq => s.handleHearbeat conn msg
  | _ => s.countError.respond conn .errorResp msg (ascii "Unsupported message type")

/-- `handleMessage`. -/
def handleMessage (s : Service) (env : Env) (conn : Conn) (msg : MyMessage) : Service :=
  if msg.type = .heartbeatReq then s.dispatch env conn msg
  else
    match s.passLimiters env conn with
    | (s, false) => s.sendRateLimited conn msg
    | (s, true) => s.dispatch env conn msg

/-- `onConnectionClosed` once the session is out of `sessions_`: its bucket, the counter and
its online key. -/
def releaseSession (s : Service) (env : Env) (x : SessionRef) : Service :=
  { s with
    userLimiter := s.userLimiter.removeKey (.user (s.sessionAt x).userId)
    metrics := { s.metrics with activeConnections := s.metrics.activeConnections - 1 }
    redis := s.redis.command env.redis (.delOnline (s.sessionAt x).userId) }

@[simp] theorem releaseSession_toTables (s : Service) (env : Env) (x : SessionRef) :
    (s.releaseSession env x).toTables = s.toTables := rfl

/-- `onConnectionClosed`. -/
def onConnectionClosed (s : Service) (env : Env) (fd : Int) : Service :=
  let s := { s with userLimiter := s.userLimiter.removeKey (.fd fd) }
  match s.getSessionByFd fd with
  | none => s
  | some x =>
    let s := s.onTables fun t => t.dropSession fd
    let s := s.releaseSession env x
    let leftRoomId := (s.sessionAt x).roomId
    if leftRoomId = 0 then s
    else
      let s := s.onTables fun t => t.removeFromRoom leftRoomId x
      let s := s.broadcastMemberCount leftRoomId
      s.checkAndRemoveEmptyRoom leftRoomId

/-! ## §7 Sequences of completed operations -/

end Service

/-- A completed operation: a message that a worker handled, or a closed connection. -/
inductive Op where
  | message (env : Env) (conn : Conn) (msg : MyMessage)
  | closed (env : Env) (fd : Int)
  deriving DecidableEq, Repr

namespace Service

def apply (s : Service) : Op → Service
  | .message env conn msg => s.handleMessage env conn msg
  | .closed env fd => s.onConnectionClosed env fd

/-- Every operation is enabled in every state. -/
def step (s : Service) (op : Op) : Option Service := some (s.apply op)

end Service

end EchoNet.Chat
