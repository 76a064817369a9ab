import EchoNet.Chat.Ghosts

/-!
# Twins

A room has session objects for members, and a broadcast goes to each of them.  A second login on a
connection leaves the session of the first one in its room, and when the new session joins that
room, the connection is in the list of members twice.

## Main results

- `noTwins_join_iff`: a join is the one way to meet a twin;
- `heardOnce_iff`: a sender hears itself once exactly if it has no twin in its room;
- `current_session_is_member_iff`: current sessions are members of their rooms in every run, and
  their connections hear them once exactly if no join meets a twin;
- `sender_hears_twice`: a run in which one does.
-/

namespace EchoNet.Chat

open EchoNet.Lib EchoNet.Protocol EchoNet.RateLimit

namespace Tables

/-! ## §1 The tables -/

/-- In the room of a current session no other session is on the same connection. -/
def NoTwins (t : Tables) : Prop :=
  ∀ fd x, t.sessions.lookup fd = some x → (t.sessionAt x).roomId ≠ 0 →
    ∀ y, t.InRoom y (t.sessionAt x).roomId → (t.sessionAt y).conn = (t.sessionAt x).conn → y = x

theorem NoTwins.init (firstRoomId : UInt32) : (Tables.init firstRoomId).NoTwins := by
  intro fd x hx
  simp [Tables.init] at hx

/-- A connection has one current session. -/
theorem Consistent.eq_of_conn_eq {t : Tables} (hc : t.Consistent) {fd fd' : Int}
    {x x' : SessionRef} (hx : t.sessions.lookup fd = some x) (hx' : t.sessions.lookup fd' = some x')
    (hconn : (t.sessionAt x).conn = (t.sessionAt x').conn) : x = x' := by
  have hfd : fd = fd' := by rw [← hc.fd_eq fd x hx, ← hc.fd_eq fd' x' hx', hconn]
  rw [← hfd] at hx'
  exact Option.some.inj (hx.symm.trans hx')

section Step

variable {t : Tables} (hc : t.Consistent) (ht : t.NoTwins)
include hc ht

/-- A fresh session is in no room. -/
theorem noTwins_openSession (conn : Conn) (username : Bytes) :
    (t.openSession conn username).NoTwins := by
  intro fd x hx hroom y hy hconn
  by_cases hfd : fd = conn.fd
  · rw [hfd, openSession, AList.lookup_insert, Option.some.injEq] at hx
    rw [← hx] at hroom
    exact absurd (by simp [openSession]) hroom
  · rw [openSession, AList.lookup_insert_ne hfd] at hx
    obtain ⟨ρ, hρ, hmem⟩ := hy
    have hsession : (t.openSession conn username).sessionAt x = t.sessionAt x :=
      Function.update_of_ne (hc.session_lt fd x hx).ne _ _
    have hother : (t.openSession conn username).sessionAt y = t.sessionAt y :=
      Function.update_of_ne (hc.member_lt ρ y hmem).ne _ _
    rw [hsession] at hroom hρ hconn
    rw [hother] at hconn
    exact ht fd x hx hroom y ⟨ρ, hρ, hmem⟩ hconn

/-- Session `x` moves to room `id`, and nobody else moves. -/
private theorem noTwins_of_move {t' : Tables} {fd : Int} {x : SessionRef} {id : UInt32}
    (hx : t.sessions.lookup fd = some x) (hsessions : t'.sessions = t.sessions)
    (hconn : ∀ y, (t'.sessionAt y).conn = (t.sessionAt y).conn)
    (hroomId : ∀ y, (t'.sessionAt y).roomId = if y = x then id else (t.sessionAt y).roomId)
    (hin : ∀ y r, t'.InRoom y r → t.InRoom y r ∨ r = id ∧ y = x)
    (hself : id ≠ 0 → ∀ y, t'.InRoom y id → (t.sessionAt y).conn = (t.sessionAt x).conn → y = x) :
    t'.NoTwins := by
  intro fd' x' hx' hroom y hy hyconn
  rw [hsessions] at hx'
  rw [hconn, hconn] at hyconn
  rw [hroomId] at hroom hy
  by_cases hne : x' = x
  · rw [if_pos hne] at hroom hy
    rw [hne] at hyconn ⊢
    exact hself hroom y hy hyconn
  · rw [if_neg hne] at hroom hy
    cases hin y _ hy with
    | inl hold => exact ht fd' x' hx' hroom y hold hyconn
    -- two current sessions have different connections
    | inr hnew =>
      rw [hnew.2] at hyconn
      exact absurd (hc.eq_of_conn_eq hx' hx hyconn.symm) hne

/-- The creator is alone in the new room. -/
theorem noTwins_create {fd : Int} {x : SessionRef} (hx : t.sessions.lookup fd = some x)
    (id : UInt32) (name : Bytes) : (t.create id name x).NoTwins := by
  have hin : ∀ y r, (t.create id name x).InRoom y r → (t.InRoom y r ∧ r ≠ id) ∨ r = id ∧ y = x :=
    fun y r hy => (inRoom_create hc name).mp hy
  refine noTwins_of_move hc ht hx rfl (fun y => setRoomId_conn _ id x y)
    (fun y => setRoomId_roomId _ x y id) (fun y r hy => (hin y r hy).imp_left And.left) ?_
  intro _ y hy _
  cases hin y id hy with
  | inl hold => exact absurd rfl hold.2
  | inr hnew => exact hnew.2

/-- Who joins may find another session of its connection there. -/
theorem noTwins_join_iff {fd : Int} {x : SessionRef} (hx : t.sessions.lookup fd = some x)
    {id : UInt32} {ρ : RoomRef} (hρ : t.rooms.lookup id = some ρ) :
    (t.join x id ρ).NoTwins ↔
      (id ≠ 0 → ∀ y ∈ (t.roomAt ρ).members,
        (t.sessionAt y).conn = (t.sessionAt x).conn → y = x) := by
  have hconn : ∀ y, ((t.join x id ρ).sessionAt y).conn = (t.sessionAt y).conn := fun y => by
    simp [join]
  have hroomId : ∀ y, ((t.join x id ρ).sessionAt y).roomId =
      if y = x then id else (t.sessionAt y).roomId := fun y => by
    simp [join, setRoomId_roomId]
  have hsessions : (t.join x id ρ).sessions = t.sessions := by simp [join]
  constructor
  · intro h hid y hy hyconn
    by_contra hne
    -- whoever is in the room stays there
    have hstay : (t.join x id ρ).InRoom y id :=
      (inRoom_join hc hρ).mpr (Or.inl ⟨⟨ρ, hρ, hy⟩, fun h' => hne h'.1⟩)
    have hroom : ((t.join x id ρ).sessionAt x).roomId = id := by rw [hroomId, if_pos rfl]
    refine hne (h fd x (by rw [hsessions]; exact hx) (by rw [hroom]; exact hid) y ?_ ?_)
    · rw [hroom]
      exact hstay
    · rw [hconn, hconn]
      exact hyconn
  · intro h
    have hin : ∀ y r, (t.join x id ρ).InRoom y r → t.InRoom y r ∨ r = id ∧ y = x :=
      fun y r hy => ((inRoom_join hc hρ).mp hy).imp_left And.left
    refine noTwins_of_move hc ht hx hsessions hconn hroomId hin fun hid y hy hyconn => ?_
    cases hin y id hy with
    | inl hold =>
      obtain ⟨σ, hσ, hmem⟩ := hold
      obtain rfl : ρ = σ := Option.some.inj (hρ.symm.trans hσ)
      exact h hid y hmem hyconn
    | inr hnew => exact hnew.2

theorem noTwins_leave {fd : Int} {x : SessionRef} (hx : t.sessions.lookup fd = some x)
    (id : UInt32) : ((t.leave x).removeEmptyRoom id).NoTwins := by
  refine noTwins_of_move hc ht hx (by simp [leave]) (fun y => by simp [leave])
    (fun y => ?_) (fun y r hy => ?_) fun h => absurd rfl h
  · rw [removeEmptyRoom_sessionAt, leave, setRoomId_roomId, removeFromRoom_sessionAt]
  · exact Or.inl ((inRoom_leave hc).mp (inRoom_removeEmptyRoom.mp hy)).1

theorem noTwins_close (fd : Int) (x : SessionRef) : (t.close fd x).NoTwins := by
  intro fd' x' hx' hroom y hy hyconn
  rw [close_sessionAt] at hroom hy hyconn
  have hold := ((inRoom_close hc fd).mp hy).1
  rw [close_sessions] at hx'
  by_cases hfd : fd' = fd
  · rw [hfd, AList.lookup_erase] at hx'
    cases hx'
  · rw [AList.lookup_erase_ne hfd] at hx'
    exact ht fd' x' hx' hroom y hold hyconn

end Step

/-! ## §2 Joins that meet no twin -/

/-- The room that a `JOIN_ROOM_REQ` names has no other session of the same connection. -/
def JoinMeetsNoTwin (t : Tables) (conn : Conn) (msg : MyMessage) : Prop :=
  ∀ n ∈ stoul msg.payload, n.toUInt32 ≠ 0 → ∀ ρ ∈ t.rooms.lookup n.toUInt32,
    ∀ x ∈ t.sessions.lookup conn.fd, ∀ y ∈ (t.roomAt ρ).members,
      (t.sessionAt y).conn = (t.sessionAt x).conn → y = x

-- by hand: the search would run through all of `UInt64`
instance (t : Tables) (conn : Conn) (msg : MyMessage) : Decidable (t.JoinMeetsNoTwin conn msg) :=
  Option.decidableForallMem (p := fun n : UInt64 => n.toUInt32 ≠ 0 →
    ∀ ρ ∈ t.rooms.lookup n.toUInt32, ∀ x ∈ t.sessions.lookup conn.fd, ∀ y ∈ (t.roomAt ρ).members,
      (t.sessionAt y).conn = (t.sessionAt x).conn → y = x)
    (stoul msg.payload)

theorem handle_join_noTwins_iff {t : Tables} {env : Env} {conn : Conn} {msg : MyMessage}
    (hc : t.Consistent) (ht : t.NoTwins) (htype : msg.type = .joinRoomReq) :
    (t.handle env conn msg).NoTwins ↔ t.JoinMeetsNoTwin conn msg := by
  unfold handle JoinMeetsNoTwin
  rw [htype]
  cases hx : t.sessions.lookup conn.fd with
  | none => exact iff_of_true ht fun _ _ _ _ _ x hx => nomatch hx
  | some x =>
    cases hid : stoul msg.payload with
    | none => exact iff_of_true ht fun n hn => nomatch hn
    | some n =>
      dsimp only
      cases hρ : t.rooms.lookup n.toUInt32 with
      | none =>
        refine iff_of_true ht fun m hm _ ρ hm' => ?_
        obtain rfl : n = m := Option.some.inj hm
        rw [hρ] at hm'
        cases hm'
      | some ρ =>
        refine (noTwins_join_iff hc ht hx hρ).trans
          ⟨fun h m hm hzero σ hσ y hy => ?_, fun h hzero => ?_⟩
        · obtain rfl : n = m := Option.some.inj hm
          obtain rfl : ρ = σ := Option.some.inj (hρ.symm.trans hσ)
          obtain rfl : x = y := Option.some.inj hy
          exact h hzero
        · exact h n rfl hzero ρ hρ x rfl

/-- Only a join brings a session to others. -/
theorem handle_noTwins_of_other {t : Tables} {env : Env} {conn : Conn} {msg : MyMessage}
    (hc : t.Consistent) (ht : t.NoTwins) (hjoin : msg.type ≠ .joinRoomReq) :
    (t.handle env conn msg).NoTwins := by
  unfold handle
  cases htype : msg.type with
  | joinRoomReq => exact absurd htype hjoin
  | loginReq =>
    cases authenticate env msg with
    | error refusal => exact ht
    | ok username => exact noTwins_openSession hc ht conn username
  | createRoomReq =>
    cases hx : t.sessions.lookup conn.fd with
    | none => exact ht
    | some x =>
      dsimp only
      split_ifs
      · exact ht
      · exact noTwins_create (t := t.drawRoomId) hc.drawRoomId ht hx t.nextRoomId msg.payload
      · exact ht
  | leaveRoomReq =>
    cases hx : t.sessions.lookup conn.fd with
    | none => exact ht
    | some x => exact noTwins_leave hc ht hx _
  | _ => exact ht

end Tables

namespace Service

/-- The condition on an operation and the state before it. -/
def MeetsNoTwin (s : Service) : Op → Prop
  | .message env conn msg =>
    s.Admitted env conn msg → msg.type = .joinRoomReq → s.JoinMeetsNoTwin conn msg
  | .closed _ _ => True

instance (s : Service) : (op : Op) → Decidable (s.MeetsNoTwin op)
  | .message .. => inferInstanceAs (Decidable (_ → _ → _))
  | .closed .. => isTrue trivial

/-- The step lemma. -/
theorem apply_noTwins_iff {s : Service} {op : Op} (hc : s.toTables.Consistent)
    (ht : s.NoTwins) : (s.apply op).NoTwins ↔ s.MeetsNoTwin op := by
  cases op with
  | message env conn msg =>
    by_cases hpass : s.Admitted env conn msg
    · rw [apply, handleMessage_of_admitted hpass]
      by_cases htype : msg.type = .joinRoomReq
      · refine (Tables.handle_join_noTwins_iff hc ht htype).trans ?_
        exact ⟨fun h _ _ => h, fun h => h hpass htype⟩
      · exact iff_of_true (Tables.handle_noTwins_of_other hc ht htype) fun _ h => absurd h htype
    · rw [apply, handleMessage_of_not_admitted hpass]
      exact iff_of_true ht fun h => absurd h hpass
  | closed env fd =>
    rw [apply, onConnectionClosed_toTables]
    cases s.sessions.lookup fd with
    | none => exact iff_of_true ht trivial
    | some x => exact iff_of_true (Tables.noTwins_close hc ht fd x) trivial

/-! ## §3 What a sender hears -/

end Service

/-- The answer that a missing room gets. -/
def Sent.isRoomNotFound : Sent → Bool
  | .response _ m => m.type = .errorResp ∧ m.payload = ascii "Room not found"
  | .push _ _ => false

namespace Service

/-- A message through `Session::send` of a session that is on the connection. -/
def pushedTo (s : Service) (conn : Conn) : Sent → Bool
  | .push y _ => (s.sessionAt y).conn = conn
  | .response _ _ => false

/-- A current session that is in a room by its own account is in the member list of the registered
room exactly once, so `handleSendMessage` never misses the room. -/
structure Enrolled (s : Service) : Prop where
  member : ∀ fd x, s.sessions.lookup fd = some x → (s.sessionAt x).roomId ≠ 0 →
    ∃ ρ, s.rooms.lookup (s.sessionAt x).roomId = some ρ ∧ (s.roomAt ρ).members.count x = 1
  found : ∀ conn msg, ∃ out, (s.handleSendMessage conn msg).sent = s.sent ++ out ∧
    ∀ o ∈ out, o.isRoomNotFound = false

/-- The broadcast of a chat message reaches the connection of its sender exactly once. -/
def HeardOnce (s : Service) : Prop :=
  ∀ conn msg x, s.getSessionByConn conn = some x → (s.sessionAt x).roomId ≠ 0 →
    ∃ out, (s.handleSendMessage conn msg).sent = s.sent ++ out ∧
      out.filter (s.pushedTo (s.sessionAt x).conn) =
        [.push x (chatMessage (s.sessionAt x).roomId (s.sessionAt x).username msg.payload)]

theorem enrolled_of_memberInv {first : UInt32} {n : Nat} {s : Service}
    (h : MemberInv first n s.toTables) : s.Enrolled := by
  have hmember : ∀ fd x, s.sessions.lookup fd = some x → (s.sessionAt x).roomId ≠ 0 →
      ∃ ρ, s.rooms.lookup (s.sessionAt x).roomId = some ρ ∧
        (s.roomAt ρ).members.count x = 1 := by
    intro fd x hx hroom
    obtain ⟨ρ, hρ, hmem⟩ := h.placed fd x hx hroom
    exact ⟨ρ, hρ, List.count_eq_one_of_mem (h.consistent.nodup ρ) hmem⟩
  refine ⟨hmember, fun conn msg => ⟨_, s.handleSendMessage_sent conn msg, fun o ho => ?_⟩⟩
  unfold Tables.sendOutput at ho
  cases hx : s.sessions.lookup conn.fd with
  | none =>
    rw [hx, List.mem_singleton] at ho
    rw [ho]
    rfl
  | some x =>
    simp only [hx] at ho
    split_ifs at ho with hroom
    · rw [List.mem_singleton] at ho
      rw [ho]
      rfl
    · obtain ⟨ρ, hρ, -⟩ := hmember _ x hx hroom
      simp only [hρ, List.mem_append, List.mem_map, List.mem_singleton] at ho
      rcases ho with ⟨y, -, rfl⟩ | rfl <;> rfl

/-- What a sender in a room hears of its own message. -/
theorem sendOutput_filter {s : Service} {conn : Conn} {x : SessionRef} {ρ : RoomRef}
    (hx : s.sessions.lookup conn.fd = some x) (hroom : (s.sessionAt x).roomId ≠ 0)
    (hρ : s.rooms.lookup (s.sessionAt x).roomId = some ρ) (msg : MyMessage) (c : Conn) :
    (s.toTables.sendOutput conn msg).filter (s.pushedTo c) =
      ((s.roomAt ρ).members.filter fun y => (s.sessionAt y).conn = c).map fun y =>
        .push y (chatMessage (s.sessionAt x).roomId (s.sessionAt x).username msg.payload) := by
  unfold Tables.sendOutput
  simp only [hx, if_neg hroom, hρ]
  rw [List.filter_append, List.filter_map]
  exact List.append_nil _

/-- A sender hears itself once exactly if it has no twin. -/
theorem heardOnce_iff {first : UInt32} {n : Nat} {s : Service}
    (h : MemberInv first n s.toTables) : s.HeardOnce ↔ s.NoTwins := by
  constructor
  · intro hheard fd x hx hroom y hy hconn
    obtain ⟨ρ, hρ, hmem⟩ := hy
    obtain ⟨out, hsent, hfilter⟩ := hheard ⟨0, fd⟩ ⟨.sendMsgReq, 0, []⟩ x hx hroom
    rw [s.handleSendMessage_sent, List.append_cancel_left_eq] at hsent
    have hx' : s.sessions.lookup (⟨0, fd⟩ : Conn).fd = some x := hx
    rw [← hsent, sendOutput_filter hx' hroom hρ] at hfilter
    -- the twin is told as well
    have hpush : y ∈ (s.roomAt ρ).members.filter fun y =>
        (s.sessionAt y).conn = (s.sessionAt x).conn :=
      List.mem_filter.mpr ⟨hmem, by simpa using hconn⟩
    have htold := List.mem_map_of_mem (f := fun y => Sent.push y
      (chatMessage (s.sessionAt x).roomId (s.sessionAt x).username [])) hpush
    rw [hfilter, List.mem_singleton, Sent.push.injEq] at htold
    exact htold.1
  · intro htwins conn msg x hx hroom
    obtain ⟨ρ, hρ, hmem⟩ := h.placed conn.fd x hx hroom
    refine ⟨_, s.handleSendMessage_sent conn msg, ?_⟩
    have honly : ((s.roomAt ρ).members.filter fun y =>
        (s.sessionAt y).conn = (s.sessionAt x).conn) = [x] := by
      have hsame : ∀ y ∈ (s.roomAt ρ).members,
          decide ((s.sessionAt y).conn = (s.sessionAt x).conn) = (y == x) := by
        intro y hy
        rw [Bool.eq_iff_iff, decide_eq_true_eq, beq_iff_eq]
        constructor
        · exact htwins conn.fd x hx hroom y ⟨ρ, hρ, hy⟩
        · exact fun heq => by rw [heq]
      rw [List.filter_congr hsame, List.filter_beq,
        List.count_eq_one_of_mem (h.consistent.nodup ρ) hmem]
      rfl
    rw [sendOutput_filter hx hroom hρ, honly]
    rfl

/-- **Membership.**  After any completed operations, with fewer than `2 ^ 32` room creations,
a current session that is in a room by its own account is in the member list of the registered
room exactly once, and a chat message is never answered `"Room not found"`.  The connection of
every sender hears it exactly once, in every state of the run, exactly if no join of the run meets
a twin. -/
theorem current_session_is_member_iff {first : UInt32} {ops : List Op} {s : Service}
    (hrun : run Service.step (.init first) ops = some s)
    (hcreates : ops.countP Op.isCreate < 2 ^ 32) :
    (∀ pre post v, ops = pre ++ post → run Service.step (.init first) pre = some v →
      v.Enrolled) ∧
    ((∀ pre post v, ops = pre ++ post → run Service.step (.init first) pre = some v →
      v.Enrolled ∧ v.HeardOnce) ↔ Meets Service.step MeetsNoTwin (.init first) ops) := by
  have hinv : ∀ pre post v, ops = pre ++ post → run Service.step (.init first) pre = some v →
      ∃ n, MemberInv first n v.toTables := by
    rintro pre post v rfl hv
    rw [List.countP_append] at hcreates
    exact ⟨_, memberInv_run hv (by omega)⟩
  have hstates := meets_iff_forall_state (G := MeetsNoTwin)
    (I := fun s => s.toTables.Consistent) (P := fun s => s.NoTwins)
    (fun s op t hc hstep => by
      obtain rfl : s.apply op = t := Option.some.inj hstep
      exact (s.apply_effect op).consistent hc)
    (fun s op t hc ht hstep => by
      obtain rfl : s.apply op = t := Option.some.inj hstep
      exact apply_noTwins_iff hc ht)
    (Tables.Consistent.init first) (.init first) hrun
  constructor
  · intro pre post v heq hv
    obtain ⟨n, hn⟩ := hinv pre post v heq hv
    exact enrolled_of_memberInv hn
  · rw [hstates]
    constructor
    · intro h pre post v heq hv
      obtain ⟨n, hn⟩ := hinv pre post v heq hv
      exact (heardOnce_iff hn).mp (h pre post v heq hv).2
    · intro h pre post v heq hv
      obtain ⟨n, hn⟩ := hinv pre post v heq hv
      exact ⟨enrolled_of_memberInv hn, (heardOnce_iff hn).mpr (h pre post v heq hv)⟩

/-- A connection leaves a ghost behind and goes to another room. -/
def reloginElsewhere : List Op :=
  [request ⟨0, 5⟩ .loginReq "ann|pw", request ⟨1, 6⟩ .loginReq "bob|pw",
    request ⟨0, 5⟩ .createRoomReq "r", request ⟨1, 6⟩ .createRoomReq "q",
    request ⟨0, 5⟩ .loginReq "ann|pw", request ⟨0, 5⟩ .joinRoomReq "2",
    request ⟨0, 5⟩ .sendMsgReq "hi"]

theorem current_session_is_member_iff_elsewhere :
    ∃ s, run Service.step (.init 1) reloginElsewhere = some s ∧
      ∀ pre post v, reloginElsewhere = pre ++ post →
        run Service.step (.init 1) pre = some v → v.Enrolled ∧ v.HeardOnce :=
  ⟨_, rfl, (current_session_is_member_iff rfl (by decide)).2.mpr (by decide +kernel)⟩

/-- A connection leaves a ghost behind and joins it. -/
def reloginAndReturn : List Op :=
  [request ⟨0, 5⟩ .loginReq "ann|pw", request ⟨0, 5⟩ .createRoomReq "r",
    request ⟨0, 5⟩ .loginReq "ann|pw", request ⟨0, 5⟩ .joinRoomReq "1"]

/-- What is said on that connection comes back to it twice. -/
theorem sender_hears_twice :
    ∃ s t, run Service.step (.init 1) reloginAndReturn = some s ∧
      s.step (request ⟨0, 5⟩ .sendMsgReq "hi") = some t ∧
      t.sent = s.sent ++ [.push 0 (chatMessage 1 (ascii "ann") (ascii "hi")),
        .push 1 (chatMessage 1 (ascii "ann") (ascii "hi")),
        .response ⟨0, 5⟩ ⟨.sendMsgResp, 1, ascii "OK"⟩] ∧
      (s.sessionAt 0).conn = ⟨0, 5⟩ ∧ (s.sessionAt 1).conn = ⟨0, 5⟩ ∧ ¬ s.HeardOnce := by
  have hlast : ((run Service.step (.init 1) reloginAndReturn).any fun s =>
      decide ((s.apply (request ⟨0, 5⟩ .sendMsgReq "hi")).sent = s.sent ++
          [.push 0 (chatMessage 1 (ascii "ann") (ascii "hi")),
            .push 1 (chatMessage 1 (ascii "ann") (ascii "hi")),
            .response ⟨0, 5⟩ ⟨.sendMsgResp, 1, ascii "OK"⟩] ∧
        ((s.sessionAt 0).conn = ⟨0, 5⟩ ∧ (s.sessionAt 1).conn = ⟨0, 5⟩) ∧
        s.sessions.lookup 5 = some 1 ∧ (s.sessionAt 1).roomId = 1 ∧
        s.rooms.lookup 1 = some 0 ∧ 0 ∈ (s.roomAt 0).members)) = true := by
    decide +kernel
  obtain ⟨s, hs, hlast⟩ := exists_of_run_any hlast
  obtain ⟨hsent, ⟨hold, hnew⟩, hx, hroom, hρ, hmem⟩ := of_decide_eq_true hlast
  refine ⟨s, _, hs, rfl, hsent, hold, hnew, fun hheard => ?_⟩
  have htwins := (heardOnce_iff (memberInv_run hs (by decide))).mp hheard
  have hin : s.InRoom 0 (s.sessionAt 1).roomId := ⟨0, by rw [hroom]; exact hρ, hmem⟩
  have heq := htwins 5 1 hx (by rw [hroom]; decide) 0 hin (hold.trans hnew.symm)
  exact absurd heq (by decide)

end Service

end EchoNet.Chat
