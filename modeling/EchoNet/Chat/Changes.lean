import EchoNet.Chat.Membership

/-!
# Changes

A completed operation is one of six changes of the tables, or none.  Which one it is depends
only on the operation and on the state before it: `Service.change`.  Everything else that the
operation does (Redis, the counter of active connections, the buckets of the users) follows
from the change.

## Main results

- `apply_toTables`, `apply_redis`, `apply_activeConnections`, `apply_userBuckets`: an operation
  refines its change.
- `forall_state_iff_meets`: a property that operations keep exactly under a condition.
-/

namespace EchoNet.Chat

open EchoNet.Lib EchoNet.Protocol EchoNet.RateLimit

/-! ## §1 The change of an operation -/

/-- What an operation changes. -/
inductive Change where
  | none
  | login (conn : Conn) (username : Bytes)
  | draw
  | create (x : SessionRef) (name : Bytes)
  | join (x : SessionRef) (id : UInt32) (ρ : RoomRef)
  | leave (x : SessionRef)
  | close (fd : Int) (x : SessionRef)
  deriving DecidableEq, Repr

namespace Tables

/-- The change that a message asks for, once it has passed the limiters. -/
def requested (t : Tables) (env : Env) (conn : Conn) (msg : MyMessage) : Change :=
  match msg.type with
  | .loginReq =>
    match authenticate env msg with
    | .ok username => .login conn username
    | .error _ => .none
  | .createRoomReq =>
    match t.sessions.lookup conn.fd with
    | none => .none
    | some x =>
      if msg.payload = [] then .none
      else if env.insertRoom = .executed () then .create x msg.payload
      -- the id is drawn before the insert, and a failed insert does not give it back
      else .draw
  | .joinRoomReq =>
    match t.sessions.lookup conn.fd, stoul msg.payload with
    | some x, some n =>
      match t.rooms.lookup n.toUInt32 with
      | some ρ => .join x n.toUInt32 ρ
      | none => .none
    | _, _ => .none
  | .leaveRoomReq =>
    match t.sessions.lookup conn.fd with
    | none => .none
    | some x => .leave x
  -- `SEND_MSG_REQ` and the rest change no table
  | _ => .none

/-- The tables after a change. -/
def after (t : Tables) : Change → Tables
  | .none => t
  | .login conn username => t.openSession conn username
  | .draw => t.drawRoomId
  | .create x name => t.drawRoomId.create t.nextRoomId name x
  | .join x id ρ => t.join x id ρ
  | .leave x => (t.leave x).removeEmptyRoom (t.sessionAt x).roomId
  | .close fd x => t.close fd x

/-- The Redis command that goes with a change. -/
def redisCommand (t : Tables) : Change → Option RedisCommand
  | .login _ _ => some (.setOnline t.nextSessionId)
  | .join x id _ => some (.sadd id (t.sessionAt x).userId)
  | .leave x => some (.srem (t.sessionAt x).roomId (t.sessionAt x).userId)
  | .close _ x => some (.delOnline (t.sessionAt x).userId)
  | _ => none

end Tables

/-- What the service holds for its sessions outside of the tables: Redis,
`Metrics::active_connections` and the buckets of the users. -/
structure Stores where
  redis : Redis
  activeConnections : UInt64
  userBuckets : UInt32 → Option Bucket

/-- The stores after a change of the tables `t`. -/
def Stores.after (k : Stores) (t : Tables) (outcome : RedisOutcome) (c : Change) : Stores where
  redis :=
    match t.redisCommand c with
    | none => k.redis
    | some cmd => k.redis.command outcome cmd
  activeConnections :=
    match c with
    | .login _ _ => k.activeConnections + 1
    | .close _ _ => k.activeConnections - 1
    | _ => k.activeConnections
  userBuckets :=
    match c with
    | .close _ x => Function.update k.userBuckets (t.sessionAt x).userId none
    | _ => k.userBuckets

/-- The Redis of the operation. -/
def Op.redis : Op → RedisOutcome
  | .message env _ _ => env.redis
  | .closed env _ => env.redis

namespace Service

def stores (s : Service) : Stores where
  redis := s.redis
  activeConnections := s.metrics.activeConnections
  userBuckets := fun user => s.userLimiter.buckets (.user user)

/-- The change of an operation: of a message that passes the limiters, or of the end of a
connection that has a session. -/
def change (s : Service) : Op → Change
  | .message env conn msg =>
    if s.Admitted env conn msg then s.toTables.requested env conn msg else .none
  | .closed _ fd =>
    match s.sessions.lookup fd with
    | none => .none
    | some x => .close fd x

end Service

/-! ## §2 Valid changes -/

/-- The sessions and rooms that a change speaks of are in the tables. -/
def Change.Valid (t : Tables) : Change → Prop
  | .create x _ => ∃ fd, t.sessions.lookup fd = some x
  | .join x id ρ => (∃ fd, t.sessions.lookup fd = some x) ∧ t.rooms.lookup id = some ρ
  | .leave x => ∃ fd, t.sessions.lookup fd = some x
  | .close fd x => t.sessions.lookup fd = some x
  | _ => True

theorem Tables.requested_valid (t : Tables) (env : Env) (conn : Conn) (msg : MyMessage) :
    (t.requested env conn msg).Valid t := by
  unfold Tables.requested
  cases msg.type with
  | loginReq => cases authenticate env msg <;> exact trivial
  | createRoomReq =>
    cases hx : t.sessions.lookup conn.fd with
    | none => exact trivial
    | some x =>
      dsimp only
      split_ifs
      · exact trivial
      · exact ⟨conn.fd, hx⟩
      · exact trivial
  | joinRoomReq =>
    cases hx : t.sessions.lookup conn.fd with
    | none => exact trivial
    | some x =>
      cases stoul msg.payload with
      | none => exact trivial
      | some n =>
        dsimp only
        cases hρ : t.rooms.lookup n.toUInt32 with
        | none => exact trivial
        | some ρ => exact ⟨⟨conn.fd, hx⟩, hρ⟩
  | leaveRoomReq =>
    cases hx : t.sessions.lookup conn.fd with
    | none => exact trivial
    | some x => exact ⟨conn.fd, hx⟩
  | _ => exact trivial

theorem Service.change_valid (s : Service) (op : Op) : (s.change op).Valid s.toTables := by
  cases op with
  | message env conn msg =>
    rw [Service.change]
    split_ifs
    · exact s.toTables.requested_valid env conn msg
    · exact trivial
  | closed env fd =>
    rw [Service.change]
    cases hx : s.sessions.lookup fd with
    | none => exact trivial
    | some x => exact hx

/-! ## §3 Operations refine changes -/

theorem Tables.handle_eq_after (t : Tables) (env : Env) (conn : Conn) (msg : MyMessage) :
    t.handle env conn msg = t.after (t.requested env conn msg) := by
  unfold Tables.handle Tables.requested
  cases msg.type with
  | loginReq => cases authenticate env msg <;> rfl
  | createRoomReq =>
    cases t.sessions.lookup conn.fd with
    | none => rfl
    | some x =>
      dsimp only
      split_ifs <;> rfl
  | joinRoomReq =>
    cases t.sessions.lookup conn.fd with
    | none => rfl
    | some x =>
      cases stoul msg.payload with
      | none => rfl
      | some n =>
        dsimp only
        cases t.rooms.lookup n.toUInt32 <;> rfl
  | leaveRoomReq => cases t.sessions.lookup conn.fd <;> rfl
  | _ => rfl

namespace Service

theorem apply_toTables (s : Service) (op : Op) :
    (s.apply op).toTables = s.toTables.after (s.change op) := by
  cases op with
  | message env conn msg =>
    rw [apply, change]
    split_ifs with hpass
    · rw [handleMessage_of_admitted hpass, Tables.handle_eq_after]
    · exact handleMessage_of_not_admitted hpass
  | closed env fd =>
    rw [apply, change, onConnectionClosed_toTables]
    cases s.sessions.lookup fd <;> rfl

/-! ### The limiters -/

/-- The state in which a message is dispatched or refused. -/
def afterLimiters (s : Service) (env : Env) (conn : Conn) (msg : MyMessage) : Service :=
  if msg.type = .heartbeatReq then s else (s.passLimiters env conn).1

theorem handleMessage_eq (s : Service) (env : Env) (conn : Conn) (msg : MyMessage) :
    s.handleMessage env conn msg =
      if s.Admitted env conn msg then (s.afterLimiters env conn msg).dispatch env conn msg
      else (s.afterLimiters env conn msg).sendRateLimited conn msg := by
  unfold handleMessage afterLimiters Admitted
  by_cases hbeat : msg.type = .heartbeatReq
  · simp only [hbeat, if_true, true_or]
  · simp only [hbeat, if_false, false_or]
    rcases s.passLimiters env conn with ⟨s', passed⟩
    cases passed <;> rfl

@[simp] theorem afterLimiters_toTables (s : Service) (env : Env) (conn : Conn)
    (msg : MyMessage) : (s.afterLimiters env conn msg).toTables = s.toTables := by
  unfold afterLimiters
  split_ifs
  · rfl
  · exact s.passLimiters_toTables env conn

theorem passLimiters_stores (s : Service) (env : Env) (conn : Conn) :
    (s.passLimiters env conn).1.stores = s.stores ∨
    (s.passLimiters env conn).1.stores = { s.stores with
      userBuckets := fun user =>
        (s.userLimiter.tryAcquire env.now (s.limiterKey conn)).1.buckets (.user user) } := by
  unfold passLimiters
  split
  · exact Or.inl rfl
  · exact Or.inr rfl

/-! ### The handlers -/

@[simp] theorem onTables_stores (s : Service) (f : Tables → Tables) :
    (s.onTables f).stores = s.stores := rfl

@[simp] theorem respond_stores (s : Service) (conn : Conn) (type : MyType) (msg : MyMessage)
    (payload : Bytes) : (s.respond conn type msg payload).stores = s.stores := rfl

@[simp] theorem countRequest_stores (s : Service) : s.countRequest.stores = s.stores := rfl

@[simp] theorem countError_stores (s : Service) : s.countError.stores = s.stores := rfl

@[simp] theorem checkAndRemoveEmptyRoom_stores (s : Service) (id : UInt32) :
    (s.checkAndRemoveEmptyRoom id).stores = s.stores := rfl

@[simp] theorem broadcastMemberCount_stores (s : Service) (id : UInt32) :
    (s.broadcastMemberCount id).stores = s.stores := by
  unfold broadcastMemberCount
  split <;> rfl

@[simp] theorem redisCommand_stores (s : Service) (env : Env) (cmd : RedisCommand) :
    (s.redisCommand env cmd).stores =
      { s.stores with redis := s.stores.redis.command env.redis cmd } := rfl

theorem handleSendMessage_stores (s : Service) (conn : Conn) (msg : MyMessage) :
    (s.handleSendMessage conn msg).stores = s.stores := by
  unfold handleSendMessage
  cases s.getSessionByConn conn with
  | none => rfl
  | some x =>
    dsimp only
    split_ifs
    · rfl
    · cases s.getRoomById (s.sessionAt x).roomId with
      | none => rfl
      | some ρ =>
        dsimp only [enqueueMessage]
        split_ifs <;> rfl

theorem dispatch_stores (s : Service) (env : Env) (conn : Conn) (msg : MyMessage) :
    (s.dispatch env conn msg).stores =
      s.stores.after s.toTables env.redis (s.toTables.requested env conn msg) := by
  unfold dispatch Tables.requested
  cases msg.type with
  | loginReq =>
    dsimp only [handleLogin]
    cases authenticate env msg <;> rfl
  | createRoomReq =>
    dsimp only [handleCreateRoom, getSessionByConn, getSessionByFd]
    rw [countRequest_toTables]
    cases s.sessions.lookup conn.fd with
    | none => rfl
    | some x =>
      simp only [List.isEmpty_iff]
      split_ifs with hname hinsert
      · rfl
      · rw [hinsert]
        rfl
      -- without a row the creation stops at the answer
      · cases h : env.insertRoom with
        | executed result => exact absurd h hinsert
        | _ => rfl
  | joinRoomReq =>
    dsimp only [handleJionRoom, getSessionByConn, getSessionByFd, getRoomById]
    rw [countRequest_toTables]
    cases s.sessions.lookup conn.fd with
    | none => rfl
    | some x =>
      cases stoul msg.payload with
      | none => rfl
      | some n =>
        dsimp only
        cases s.rooms.lookup n.toUInt32 with
        | none => rfl
        | some ρ => simp [Stores.after, Tables.redisCommand]
  | leaveRoomReq =>
    dsimp only [handleLeaveRoom, getSessionByConn, getSessionByFd]
    rw [countRequest_toTables]
    cases s.sessions.lookup conn.fd with
    | none => rfl
    | some x => simp [Stores.after, Tables.redisCommand]
  | sendMsgReq => exact handleSendMessage_stores ..
  | _ => rfl

theorem releaseSession_stores (s : Service) (env : Env) (x : SessionRef) :
    (s.releaseSession env x).stores = {
      redis := s.redis.command env.redis (.delOnline (s.sessionAt x).userId)
      activeConnections := s.metrics.activeConnections - 1
      userBuckets := Function.update s.stores.userBuckets (s.sessionAt x).userId none } := by
  have hbuckets : (s.releaseSession env x).stores.userBuckets =
      Function.update s.stores.userBuckets (s.sessionAt x).userId none := by
    funext user
    by_cases huser : user = (s.sessionAt x).userId
    · simp [stores, releaseSession, TokenBucket.removeKey, huser]
    · simp [stores, releaseSession, TokenBucket.removeKey, huser]
  rw [← hbuckets]
  rfl

theorem onConnectionClosed_stores (s : Service) (env : Env) (fd : Int) :
    (s.onConnectionClosed env fd).stores =
      s.stores.after s.toTables env.redis (s.change (.closed env fd)) := by
  unfold onConnectionClosed getSessionByFd change
  dsimp only
  cases s.sessions.lookup fd with
  | none => rfl
  | some x =>
    dsimp only [Stores.after, Tables.redisCommand]
    split_ifs
    · rw [releaseSession_stores]
      rfl
    · rw [checkAndRemoveEmptyRoom_stores, broadcastMemberCount_stores, onTables_stores,
        releaseSession_stores]
      rfl

/-- A bucket of a user that a message makes is the one of the sender's session. -/
theorem afterLimiters_stores (s : Service) (env : Env) (conn : Conn) (msg : MyMessage) :
    ∃ buckets, (s.afterLimiters env conn msg).stores = { s.stores with userBuckets := buckets } ∧
      ∀ user, buckets user ≠ none → s.stores.userBuckets user ≠ none ∨
        ∃ x, s.sessions.lookup conn.fd = some x ∧ (s.sessionAt x).userId = user := by
  unfold afterLimiters
  split_ifs
  · exact ⟨_, rfl, fun user h => Or.inl h⟩
  · rcases s.passLimiters_stores env conn with h | h
    · exact ⟨_, h, fun user hb => Or.inl hb⟩
    · refine ⟨_, h, fun user hb => ?_⟩
      -- only the bucket of the sender can come into being
      by_cases hkey : LimiterKey.user user = s.limiterKey conn
      · right
        unfold limiterKey getSessionByConn getSessionByFd at hkey
        cases hx : s.sessions.lookup conn.fd with
        | none => simp [hx] at hkey
        | some x =>
          rw [hx] at hkey
          exact ⟨x, rfl, (LimiterKey.user.inj hkey).symm⟩
      · rw [TokenBucket.tryAcquire_buckets_of_ne _ _ hkey] at hb
        exact Or.inl hb

/-- An operation refines its change, but for the buckets that the limiters make. -/
theorem apply_stores (s : Service) (op : Op) :
    ∃ buckets, (s.apply op).stores =
        Stores.after { s.stores with userBuckets := buckets } s.toTables op.redis (s.change op) ∧
      ∀ user, buckets user ≠ none → s.stores.userBuckets user ≠ none ∨
        ∃ fd x, s.sessions.lookup fd = some x ∧ (s.sessionAt x).userId = user := by
  cases op with
  | message env conn msg =>
    obtain ⟨buckets, hstores, hbuckets⟩ := s.afterLimiters_stores env conn msg
    refine ⟨buckets, ?_, fun user hb => (hbuckets user hb).imp_right fun h => ⟨conn.fd, h⟩⟩
    rw [apply, handleMessage_eq, change]
    split_ifs
    · rw [dispatch_stores, hstores, afterLimiters_toTables]
      rfl
    · exact hstores
  | closed env fd => exact ⟨_, s.onConnectionClosed_stores env fd, fun user h => Or.inl h⟩

end Service

/-! ## §4 Runs -/

/-- Every sequence of operations is a run. -/
theorem Service.exists_run (s : Service) (ops : List Op) :
    ∃ t, run Service.step s ops = some t := by
  induction ops generalizing s with
  | nil => exact ⟨s, rfl⟩
  | cons op ops ih =>
    obtain ⟨t, ht⟩ := ih (s.apply op)
    exact ⟨t, run_cons_eq_some.mpr ⟨_, rfl, ht⟩⟩

/-- A property that an operation keeps exactly under a condition holds in every state of a run
exactly when the condition holds along the run. -/
theorem Service.forall_state_iff_meets {P : Service → Prop} {G : Service → Op → Prop}
    {H : Op → Prop} (hstep : ∀ s op, s.toTables.Consistent → H op → P s →
      (P (s.apply op) ↔ G s op))
    {s t : Service} {ops : List Op} (hc : s.toTables.Consistent) (hP : P s)
    (hH : ∀ op ∈ ops, H op) (hrun : run Service.step s ops = some t) :
    (∀ pre post v, ops = pre ++ post → run Service.step s pre = some v → P v) ↔
      Meets Service.step G s ops := by
  refine (meets_iff_forall_state_of_meets (H := fun _ op => H op)
    (I := fun s => s.toTables.Consistent) ?_ ?_ hc hP
    (meets_of_forall (fun op hop _ => hH op hop) s) hrun).symm
  · intro s op t hc _ hstep'
    obtain rfl : s.apply op = t := Option.some.inj hstep'
    exact (s.apply_effect op).consistent hc
  · intro s op t hc hop hP hstep'
    obtain rfl : s.apply op = t := Option.some.inj hstep'
    exact hstep s op hc hop hP

end EchoNet.Chat
