import EchoNet.Chat.Changes

/-!
# What the Handlers Leave Alone

A handler works on the service with a few operations: critical sections on the tables, answers,
broadcasts, Redis commands and counters.  Whatever these leave alone, every handler leaves alone,
`handleSendMessage` apart.

## Main result

`Frame.dispatch`.
-/

namespace EchoNet.Chat.Service

open EchoNet.Lib EchoNet.Protocol

/-- A view of the service that no operation of the handlers changes, but for `SEND_MSG_RESP`. -/
structure Frame {α : Type*} (f : Service → α) : Prop where
  onTables : ∀ s g, f (onTables s g) = f s
  respond : ∀ s conn type msg payload, type ≠ .sendMsgResp →
    f (respond s conn type msg payload) = f s
  broadcast : ∀ s ρ msg, f (broadcast s ρ msg) = f s
  redis : ∀ s r, f { s with redis := r } = f s
  metrics : ∀ s m, f { s with metrics := m } = f s

namespace Frame

variable {α : Type*} {f : Service → α} (h : Frame f) (s : Service) (env : Env) (conn : Conn)
  (msg : MyMessage)
include h

theorem broadcastMemberCount (id : UInt32) : f (s.broadcastMemberCount id) = f s := by
  unfold Service.broadcastMemberCount
  cases s.getRoomById id with
  | none => rfl
  | some ρ => exact h.broadcast s ρ _

theorem handleLogin : f (s.handleLogin env conn msg) = f s := by
  unfold Service.handleLogin
  cases authenticate env msg with
  | error refusal => exact h.respond s conn _ msg _ (by decide)
  | ok username =>
    dsimp only
    rw [h.metrics, h.respond _ _ _ _ _ (by decide), redisCommand, h.redis, h.onTables]

theorem handleCreateRoom : f (s.handleCreateRoom env conn msg) = f s := by
  unfold Service.handleCreateRoom
  cases s.getSessionByConn conn with
  | none => exact h.respond s conn _ msg _ (by decide)
  | some x =>
    dsimp only
    split_ifs
    · exact h.respond s conn _ msg _ (by decide)
    · split
      · rw [h.respond _ _ _ _ _ (by decide), h.onTables, h.onTables]
      · rw [h.respond _ _ _ _ _ (by decide), h.onTables]

theorem handleJionRoom : f (s.handleJionRoom env conn msg) = f s := by
  unfold Service.handleJionRoom
  cases s.getSessionByConn conn with
  | none => exact h.respond s conn _ msg _ (by decide)
  | some x =>
    cases stoul msg.payload with
    | none => exact h.respond s conn _ msg _ (by decide)
    | some n =>
      dsimp only
      cases s.getRoomById n.toUInt32 with
      | none => exact h.respond s conn _ msg _ (by decide)
      | some ρ =>
        dsimp only
        rw [h.respond _ _ _ _ _ (by decide), redisCommand, h.redis, h.broadcastMemberCount,
          h.onTables]

theorem handleLeaveRoom : f (s.handleLeaveRoom env conn msg) = f s := by
  unfold Service.handleLeaveRoom
  cases s.getSessionByConn conn with
  | none => exact h.respond s conn _ msg _ (by decide)
  | some x =>
    dsimp only
    rw [h.respond _ _ _ _ _ (by decide), redisCommand, h.redis, checkAndRemoveEmptyRoom, h.onTables,
      h.broadcastMemberCount, h.onTables]

theorem dispatch (htype : msg.type ≠ .sendMsgReq) : f (s.dispatch env conn msg) = f s := by
  have hcount : f s.countRequest = f s := h.metrics s _
  unfold Service.dispatch
  cases hmsg : msg.type with
  | loginReq => exact (h.handleLogin _ env conn msg).trans hcount
  | createRoomReq => exact (h.handleCreateRoom _ env conn msg).trans hcount
  | joinRoomReq => exact (h.handleJionRoom _ env conn msg).trans hcount
  | leaveRoomReq => exact (h.handleLeaveRoom _ env conn msg).trans hcount
  | sendMsgReq => exact absurd hmsg htype
  | heartbeatReq => exact (h.respond _ conn _ msg _ (by decide)).trans hcount
  -- an error is answered and counted
  | _ =>
    refine (h.respond _ conn _ msg _ (by decide)).trans ?_
    rw [countError, h.metrics, hcount]

theorem sendRateLimited : f (s.sendRateLimited conn msg) = f s := by
  rw [Service.sendRateLimited, h.respond _ _ _ _ _ (by decide), countError, h.metrics]

end Frame

end EchoNet.Chat.Service
