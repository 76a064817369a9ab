import EchoNet.Chat.Frames

/-!
# The Two Levels of Limiting

What an operation does to the two limiters depends on their levels and on the key of the sender:
a message takes a token from the global bucket first, and from its user's bucket only if the global
one let it pass.  Nothing is given back when the second level refuses.

## Main results

- `handleMessage_limiters`, `onConnectionClosed_limiters`: the limiters after an operation.
- `admitted_iff`: which messages are admitted.
-/

namespace EchoNet.Chat

open EchoNet.Lib EchoNet.Protocol EchoNet.RateLimit

/-! ## §1 Both limiters -/

/-- `global_limiter_` and `user_limiter_`. -/
structure Limiters where
  global : TokenBucket LimiterKey
  user : TokenBucket LimiterKey

namespace Limiters

def init : Limiters := ⟨.new 5000 10000, .new 10 20⟩

/-- Both levels let a message pass. -/
def admits (l : Limiters) (now : ℚ) (key : LimiterKey) : Bool :=
  l.global.admits now .global && l.user.admits now key

/-- The limiters after a message. -/
def acquire (l : Limiters) (now : ℚ) (key : LimiterKey) : Limiters where
  global := (l.global.tryAcquire now .global).1
  user := if l.global.admits now .global then (l.user.tryAcquire now key).1 else l.user

/-- The limiters after the end of a connection, with the user of its session. -/
def release (l : Limiters) (fd : Int) (user : Option UInt32) : Limiters where
  global := l.global
  user :=
    match user with
    | none => l.user.removeKey (.fd fd)
    | some id => (l.user.removeKey (.fd fd)).removeKey (.user id)

/-- The rates and capacities that the constructor of `ChatService` gives. -/
structure Configured (l : Limiters) : Prop where
  globalRate : l.global.rate = 5000
  globalCapacity : l.global.capacity = 10000
  userRate : l.user.rate = 10
  userCapacity : l.user.capacity = 20

namespace Configured

variable {l : Limiters} (h : l.Configured)

theorem init : Limiters.init.Configured := ⟨rfl, rfl, rfl, rfl⟩

include h

theorem acquire (now : ℚ) (key : LimiterKey) : (l.acquire now key).Configured := by
  refine ⟨?_, ?_, ?_, ?_⟩
  · exact (l.global.tryAcquire_rate now .global).trans h.globalRate
  · exact (l.global.tryAcquire_capacity now .global).trans h.globalCapacity
  · unfold Limiters.acquire
    split_ifs
    · exact (l.user.tryAcquire_rate now key).trans h.userRate
    · exact h.userRate
  · unfold Limiters.acquire
    split_ifs
    · exact (l.user.tryAcquire_capacity now key).trans h.userCapacity
    · exact h.userCapacity

theorem release (fd : Int) (user : Option UInt32) : (l.release fd user).Configured := by
  cases user with
  | none => exact ⟨h.globalRate, h.globalCapacity, h.userRate, h.userCapacity⟩
  | some id => exact ⟨h.globalRate, h.globalCapacity, h.userRate, h.userCapacity⟩

/-- Users have no negative rate. -/
theorem userRate_nonneg : 0 ≤ l.user.rate := by
  rw [h.userRate]
  norm_num

theorem globalRate_nonneg : 0 ≤ l.global.rate := by
  rw [h.globalRate]
  norm_num

end Configured

/-! ### Levels of the users -/

section Levels

variable (l : Limiters) (now : ℚ)

/-- A message that both levels let pass costs its user a token, any other nothing. -/
theorem acquire_level_self (key : LimiterKey) :
    (l.acquire now key).user.level now key =
      l.user.level now key - (if l.admits now key then 1 else 0) := by
  unfold acquire admits
  cases l.global.admits now .global with
  | false => simp
  | true => simpa using l.user.level_tryAcquire_self now key

theorem acquire_level_of_ne {key key' : LimiterKey} (h : key' ≠ key) :
    (l.acquire now key).user.level now key' = l.user.level now key' := by
  unfold acquire
  dsimp only
  split_ifs
  · exact l.user.level_tryAcquire_of_ne now now h
  · rfl

/-- The end of a connection fills its own bucket and that of its user. -/
theorem release_level (fd : Int) (user : Option UInt32) (key : LimiterKey) :
    (l.release fd user).user.level now key =
      if key = .fd fd ∨ user.map LimiterKey.user = some key then l.user.capacity
      else l.user.level now key := by
  have hfd : (l.user.removeKey (.fd fd)).level now key =
      if key = .fd fd then l.user.capacity else l.user.level now key := by
    split_ifs with hkey
    · rw [hkey, TokenBucket.level_removeKey]
    · exact l.user.level_removeKey_of_ne now hkey
  cases user with
  | none => simpa [release] using hfd
  | some id =>
    by_cases hkey : key = .user id
    · subst hkey
      have huser : (some id).map LimiterKey.user = some (.user id) := rfl
      rw [if_pos (Or.inr huser)]
      exact TokenBucket.level_removeKey ..
    · have hne : (some id).map LimiterKey.user ≠ some key := fun h => hkey (Option.some.inj h).symm
      simp only [hne, or_false]
      exact ((l.user.removeKey (.fd fd)).level_removeKey_of_ne now hkey).trans hfd

end Levels

end Limiters

/-! ## §2 The limiters of the service -/

def Op.now : Op → ℚ
  | .message env _ _ => env.now
  | .closed env _ => env.now

/-- The user of the session under a descriptor. -/
def Tables.userOf (t : Tables) (fd : Int) : Option UInt32 :=
  (t.sessions.lookup fd).map fun x => (t.sessionAt x).userId

namespace Service

def limiters (s : Service) : Limiters := ⟨s.globalLimiter, s.userLimiter⟩

theorem limiterKey_eq (s : Service) (conn : Conn) :
    s.limiterKey conn = ((s.userOf conn.fd).map LimiterKey.user).getD (.fd conn.fd) := by
  unfold limiterKey Tables.userOf getSessionByConn getSessionByFd
  cases s.sessions.lookup conn.fd <;> rfl

theorem passLimiters_limiters (s : Service) (env : Env) (conn : Conn) :
    (s.passLimiters env conn).1.limiters = s.limiters.acquire env.now (s.limiterKey conn) := by
  have hanswer := s.globalLimiter.tryAcquire_snd env.now .global
  unfold passLimiters Limiters.acquire limiters
  split
  next limiter heq =>
    rw [heq] at hanswer
    simp [← hanswer, heq]
  next limiter heq =>
    rw [heq] at hanswer
    simp only [← hanswer, heq, if_true]
    rfl

theorem passLimiters_snd (s : Service) (env : Env) (conn : Conn) :
    (s.passLimiters env conn).2 = s.limiters.admits env.now (s.limiterKey conn) := by
  have hanswer := s.globalLimiter.tryAcquire_snd env.now .global
  unfold passLimiters Limiters.admits limiters
  split
  next limiter heq =>
    rw [heq] at hanswer
    simp [← hanswer]
  next limiter heq =>
    rw [heq] at hanswer
    simp only [← hanswer, Bool.true_and]
    exact TokenBucket.tryAcquire_snd ..

/-- A message is admitted if it is a heartbeat or both levels let it pass. -/
theorem admitted_iff {s : Service} {env : Env} {conn : Conn} {msg : MyMessage} :
    s.Admitted env conn msg ↔
      msg.type = .heartbeatReq ∨ s.limiters.admits env.now (s.limiterKey conn) = true := by
  rw [Admitted, passLimiters_snd]

/-- Only the limiters themselves touch the limiters. -/
theorem limiters_frame : Frame limiters where
  onTables _ _ := rfl
  respond _ _ _ _ _ _ := rfl
  broadcast _ _ _ := rfl
  redis _ _ := rfl
  metrics _ _ := rfl

theorem handleSendMessage_limiters (s : Service) (conn : Conn) (msg : MyMessage) :
    (s.handleSendMessage conn msg).limiters = s.limiters := by
  unfold handleSendMessage
  cases s.getSessionByConn conn with
  | none => rfl
  | some x =>
    dsimp only
    split_ifs
    · rfl
    · cases s.getRoomById (s.sessionAt x).roomId with
      | none => rfl
      | some ρ =>
        dsimp only [enqueueMessage]
        split_ifs <;> rfl

theorem dispatch_limiters (s : Service) (env : Env) (conn : Conn) (msg : MyMessage) :
    (s.dispatch env conn msg).limiters = s.limiters := by
  by_cases htype : msg.type = .sendMsgReq
  · unfold dispatch
    rw [htype]
    exact handleSendMessage_limiters ..
  · exact limiters_frame.dispatch s env conn msg htype

theorem handleMessage_limiters (s : Service) (env : Env) (conn : Conn) (msg : MyMessage) :
    (s.handleMessage env conn msg).limiters =
      if msg.type = .heartbeatReq then s.limiters
      else s.limiters.acquire env.now (s.limiterKey conn) := by
  have hafter : (s.afterLimiters env conn msg).limiters =
      if msg.type = .heartbeatReq then s.limiters
      else s.limiters.acquire env.now (s.limiterKey conn) := by
    unfold afterLimiters
    split_ifs
    · rfl
    · exact s.passLimiters_limiters env conn
  rw [handleMessage_eq]
  split_ifs at hafter ⊢
  all_goals
    first
    | rw [dispatch_limiters, hafter]
    | rw [limiters_frame.sendRateLimited, hafter]

theorem onConnectionClosed_limiters (s : Service) (env : Env) (fd : Int) :
    (s.onConnectionClosed env fd).limiters = s.limiters.release fd (s.userOf fd) := by
  unfold onConnectionClosed Tables.userOf getSessionByFd
  dsimp only
  cases s.sessions.lookup fd with
  | none => rfl
  | some x =>
    dsimp only
    split_ifs
    · rfl
    · rw [checkAndRemoveEmptyRoom, limiters_frame.onTables, limiters_frame.broadcastMemberCount]
      rfl

theorem apply_configured {s : Service} (h : s.limiters.Configured) (op : Op) :
    (s.apply op).limiters.Configured := by
  cases op with
  | message env conn msg =>
    rw [apply, handleMessage_limiters]
    split_ifs
    · exact h
    · exact h.acquire _ _
  | closed env fd =>
    rw [apply, onConnectionClosed_limiters]
    exact h.release _ _

end Service

end EchoNet.Chat
