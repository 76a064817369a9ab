import EchoNet.Chat.Changes
import EchoNet.Chat.Ghosts

/-!
# Member Counts

A client learns how many members its room has from three messages: `CREATE_ROOM_RESP`,
`JOIN_ROOM_RESP` and `MEMBER_COUNT_UPDATE`.  `Watched` reads them off what an operation sends, as
the client does, and keeps the last count that each session was told about each room.

A join changes the counts of two rooms and broadcasts the one of the new room only.

## Main results

- `apply_notices`: the counts that an operation tells follow from its change.
- `counts_current_iff`: every member of a room knows its count in every state of a run exactly when
  no join leaves a room to others.
- `switch_leaves_stale_count`: the one who stays is not told.
-/

namespace EchoNet.Chat

open EchoNet.Lib EchoNet.Protocol EchoNet.RateLimit

/-! ## §1 What a client reads -/

/-- A session is told the member count of a room. -/
structure Notice where
  session : SessionRef
  room : UInt32
  count : UInt64
  deriving DecidableEq, Repr

/-- `"<room id>|<count>"`. -/
def readCount (payload : Bytes) : Option (UInt32 × UInt64) :=
  match splitFirst 0x7C payload with
  | none => none
  | some (room, count) =>
    match stoul room, stoul count with
    | some r, some n => some (r.toUInt32, n)
    | _, _ => none

/-- The part of a payload after `"OK|"`. -/
def afterOk (payload : Bytes) : Option Bytes :=
  match splitFirst 0x7C payload with
  | none => none
  | some (ok, rest) => if ok = ascii "OK" then some rest else none

/-- The room and the count in a message.  A `JOIN_ROOM_RESP` is about the room that was asked
for. -/
def MyMessage.count (asked : UInt32) (msg : MyMessage) : Option (UInt32 × UInt64) :=
  match msg.type with
  | .memberCountUpdate => readCount msg.payload
  | .createRoomResp => (afterOk msg.payload).bind readCount
  | .joinRoomResp =>
    (afterOk msg.payload).bind fun count => (stoul count).map fun n => (asked, n)
  | _ => none

/-- The room that a request names. -/
def Op.asked : Op → UInt32
  | .message _ _ msg => ((stoul msg.payload).getD 0).toUInt32
  | .closed _ _ => 0

/-- Who is told what by a call of `sendResponse`: a response goes to the session that `sessions_`
has for the connection. -/
def Sent.notice (t : Tables) (asked : UInt32) : Sent → Option Notice
  | .response conn msg =>
    match t.sessions.lookup conn.fd, MyMessage.count asked msg with
    | some x, some (r, n) => some ⟨x, r, n⟩
    | _, _ => none
  | .push x msg => (MyMessage.count asked msg).map fun (r, n) => ⟨x, r, n⟩

/-- What sessions were told last. -/
abbrev Told := SessionRef → UInt32 → Option UInt64

/-- A notice replaces the earlier ones about the room. -/
def Told.note (told : Told) (n : Notice) : Told := fun x r =>
  if x = n.session ∧ r = n.room then some n.count else told x r

/-- The service with what its sessions were told. -/
structure Watched where
  service : Service
  told : Told

namespace Watched

def init (first : UInt32) : Watched := ⟨.init first, fun _ _ => none⟩

/-- The notices of an operation, read off the messages that it adds to the history. -/
def notices (s : Service) (op : Op) : List Notice :=
  ((s.apply op).sent.drop s.sent.length).filterMap (Sent.notice s.toTables op.asked)

def step (w : Watched) (op : Op) : Option Watched :=
  some ⟨w.service.apply op, (notices w.service op).foldl Told.note w.told⟩

end Watched

/-! ## §2 The notices of a change -/

namespace Tables

/-- `broadcastMemberCount`, as notices. -/
def countsOf (t : Tables) (r : UInt32) : List Notice :=
  match t.rooms.lookup r with
  | none => []
  | some ρ => (t.roomAt ρ).members.map fun y => ⟨y, r, UInt64.ofNat (t.roomAt ρ).memberCount⟩

/-- What the handler tells. -/
def notices (t : Tables) : Change → List Notice
  | .create x _ => [⟨x, t.nextRoomId, 1⟩]
  | .join x id ρ => (t.join x id ρ).countsOf id ++
    [⟨x, id, UInt64.ofNat ((t.join x id ρ).roomAt ρ).memberCount⟩]
  | .leave x => (t.leave x).countsOf (t.sessionAt x).roomId
  | .close fd x =>
    if (t.sessionAt x).roomId = 0 then []
    else ((t.dropSession fd).removeFromRoom (t.sessionAt x).roomId x).countsOf
      (t.sessionAt x).roomId
  | _ => []

end Tables

theorem stoul_roomId (id : UInt32) : stoul (toDecimal id.toNat) = some id.toUInt64 := by
  rw [stoul_toDecimal (Nat.lt_trans id.toNat_lt (by decide)), UInt64.ofNat_uInt32ToNat]

theorem bar_not_mem_toDecimal (n : Nat) : (0x7C : UInt8) ∉ toDecimal n := fun h =>
  absurd (isDigit_of_mem_toDecimal h) (by decide)

theorem readCount_append (id : UInt32) {count : Bytes} {n : UInt64} (h : stoul count = some n) :
    readCount (toDecimal id.toNat ++ ascii "|" ++ count) = some (id, n) := by
  have hbar : ascii "|" = [0x7C] := by decide
  unfold readCount
  rw [hbar, List.append_assoc, List.singleton_append,
    splitFirst_append (bar_not_mem_toDecimal id.toNat)]
  simp only [stoul_roomId, h]
  simp

theorem afterOk_append (rest : Bytes) : afterOk (ascii "OK|" ++ rest) = some rest := by
  have hok : ascii "OK|" = ascii "OK" ++ [0x7C] := by decide
  unfold afterOk
  rw [hok, List.append_assoc, List.singleton_append, splitFirst_append (by decide)]
  simp

/-! ### What is added to the history -/

/-- `s'` has sent more than `s`, and the notices in it are `told`. -/
def Service.Tells (s s' : Service) (notice : Sent → Option Notice) (told : List Notice) : Prop :=
  ∃ out, s'.sent = s.sent ++ out ∧ out.filterMap notice = told

namespace Service

variable {notice : Sent → Option Notice} {told told' : List Notice}

theorem Tells.of_sent_eq {s s' : Service} (h : s'.sent = s.sent) : s.Tells s' notice [] :=
  ⟨[], by rw [h, List.append_nil], rfl⟩

theorem Tells.trans {s s' s'' : Service} (h : s.Tells s' notice told)
    (h' : s'.Tells s'' notice told') : s.Tells s'' notice (told ++ told') := by
  obtain ⟨out, hsent, hout⟩ := h
  obtain ⟨out', hsent', hout'⟩ := h'
  refine ⟨out ++ out', by rw [hsent', hsent, List.append_assoc], ?_⟩
  rw [List.filterMap_append, hout, hout']

/-- The histories before and after decide. -/
theorem Tells.of_eq {s t s' t' : Service} (h : t.Tells t' notice told) (hbefore : t.sent = s.sent)
    (hafter : s'.sent = t'.sent) : s.Tells s' notice told := by
  obtain ⟨out, hsent, hout⟩ := h
  exact ⟨out, by rw [hafter, hsent, hbefore], hout⟩

theorem tells_respond (notice : Sent → Option Notice) (s : Service) (conn : Conn) (type : MyType)
    (msg : MyMessage) (payload : Bytes) :
    s.Tells (s.respond conn type msg payload) notice
      (notice (.response conn ⟨type, msg.id, payload⟩)).toList := by
  refine ⟨_, rfl, ?_⟩
  cases h : notice (.response conn ⟨type, msg.id, payload⟩) <;> simp [h]

/-- A response that carries no count. -/
theorem notice_reply {t : Tables} {asked : UInt32} (conn : Conn) {msg : MyMessage}
    (h : MyMessage.count asked msg = none) : Sent.notice t asked (.response conn msg) = none := by
  unfold Sent.notice
  dsimp only
  rw [h]
  split
  next hsome => cases hsome
  next => rfl

theorem tells_reply {t : Tables} {asked : UInt32} (s : Service) (conn : Conn) (msg : MyMessage)
    {type : MyType} {payload : Bytes} (h : MyMessage.count asked ⟨type, msg.id, payload⟩ = none) :
    s.Tells (s.respond conn type msg payload) (Sent.notice t asked) [] := by
  have hnone := notice_reply (t := t) conn h
  have h' := tells_respond (Sent.notice t asked) s conn type msg payload
  rwa [hnone] at h'

theorem tells_broadcastMemberCount (t : Tables) (asked : UInt32) (s : Service) (id : UInt32) :
    s.Tells (s.broadcastMemberCount id) (Sent.notice t asked) (s.toTables.countsOf id) := by
  unfold broadcastMemberCount getRoomById Tables.countsOf
  cases s.rooms.lookup id with
  | none => exact .of_sent_eq rfl
  | some ρ =>
    refine ⟨_, rfl, ?_⟩
    rw [List.filterMap_map]
    have hnotice : (Sent.notice t asked ∘ fun y => Sent.push y ⟨.memberCountUpdate, 0,
        toDecimal id.toNat ++ ascii "|" ++ sizeToDecimal (s.roomAt ρ).memberCount⟩) =
        fun y => some ⟨y, id, UInt64.ofNat (s.roomAt ρ).memberCount⟩ := by
      funext y
      simp only [Function.comp, Sent.notice, MyMessage.count,
        readCount_append id (stoul_sizeToDecimal _), Option.map_some]
    rw [hnotice, List.filterMap_eq_map']

/-! ### The handlers -/

theorem notice_created {t : Tables} {conn : Conn} {x : SessionRef}
    (hx : t.sessions.lookup conn.fd = some x) (asked id : UInt32) (msgId : UInt32) :
    Sent.notice t asked (.response conn ⟨.createRoomResp, msgId,
      ascii "OK|" ++ toDecimal id.toNat ++ ascii "|1"⟩) = some ⟨x, id, 1⟩ := by
  have hone : ascii "|1" = ascii "|" ++ ascii "1" := by decide
  have hread : readCount (toDecimal id.toNat ++ ascii "|" ++ ascii "1") = some (id, 1) :=
    readCount_append id (by decide)
  unfold Sent.notice
  simp only [hx, MyMessage.count]
  rw [hone, List.append_assoc, afterOk_append, Option.bind_some, ← List.append_assoc, hread]

theorem notice_joined {t : Tables} {conn : Conn} {x : SessionRef}
    (hx : t.sessions.lookup conn.fd = some x) (asked : UInt32) (msgId : UInt32) (n : Nat) :
    Sent.notice t asked (.response conn ⟨.joinRoomResp, msgId, ascii "OK|" ++ sizeToDecimal n⟩) =
      some ⟨x, asked, UInt64.ofNat n⟩ := by
  unfold Sent.notice
  simp only [hx, MyMessage.count]
  rw [afterOk_append, Option.bind_some, stoul_sizeToDecimal, Option.map_some]

section Handlers

variable (s : Service) (env : Env) (conn : Conn) (msg : MyMessage)

theorem handleCreateRoom_tells (asked : UInt32) :
    s.Tells (s.handleCreateRoom env conn msg) (Sent.notice s.toTables asked)
      (match s.sessions.lookup conn.fd with
        | none => []
        | some x => if msg.payload = [] then []
          else if env.insertRoom = .executed () then [⟨x, s.nextRoomId, 1⟩] else []) := by
  unfold handleCreateRoom getSessionByConn getSessionByFd
  cases hx : s.sessions.lookup conn.fd with
  | none => exact s.tells_reply conn msg rfl
  | some x =>
    simp only [List.isEmpty_iff]
    split_ifs with hname hinsert
    · exact s.tells_reply conn msg rfl
    · rw [hinsert]
      have h := tells_respond (Sent.notice s.toTables asked)
        ((s.onTables Tables.drawRoomId).onTables fun t => t.create s.nextRoomId msg.payload x)
        conn .createRoomResp msg (ascii "OK|" ++ toDecimal s.nextRoomId.toNat ++ ascii "|1")
      -- the answer tells the creator about the new room
      rw [notice_created hx] at h
      exact h.of_eq rfl rfl
    · cases h : env.insertRoom with
      | executed result => exact absurd h hinsert
      | _ => exact (tells_reply (s.onTables Tables.drawRoomId) conn msg rfl).of_eq rfl rfl

theorem handleJionRoom_tells :
    s.Tells (s.handleJionRoom env conn msg)
      (Sent.notice s.toTables ((stoul msg.payload).getD 0).toUInt32)
      (match s.sessions.lookup conn.fd, stoul msg.payload with
        | some x, some n =>
          match s.rooms.lookup n.toUInt32 with
          | some ρ => s.toTables.notices (.join x n.toUInt32 ρ)
          | none => []
        | _, _ => []) := by
  unfold handleJionRoom getSessionByConn getSessionByFd getRoomById
  cases hx : s.sessions.lookup conn.fd with
  | none => exact s.tells_reply conn msg rfl
  | some x =>
    cases stoul msg.payload with
    | none => exact s.tells_reply conn msg rfl
    | some n =>
      dsimp only
      cases s.rooms.lookup n.toUInt32 with
      | none => exact s.tells_reply conn msg rfl
      | some ρ =>
        -- the broadcast in the new room, then the answer
        have hcast := tells_broadcastMemberCount s.toTables n.toUInt32
          (s.onTables fun t => t.join x n.toUInt32 ρ) n.toUInt32
        have hanswer := tells_respond (Sent.notice s.toTables n.toUInt32)
          ((s.onTables fun t => t.join x n.toUInt32 ρ).broadcastMemberCount n.toUInt32)
          conn .joinRoomResp msg
          (ascii "OK|" ++ sizeToDecimal ((s.join x n.toUInt32 ρ).roomAt ρ).memberCount)
        rw [notice_joined hx] at hanswer
        refine (hcast.trans hanswer).of_eq rfl ?_
        simp [redisCommand, respond]

theorem handleLeaveRoom_tells (asked : UInt32) :
    s.Tells (s.handleLeaveRoom env conn msg) (Sent.notice s.toTables asked)
      (match s.sessions.lookup conn.fd with
        | none => []
        | some x => s.toTables.notices (.leave x)) := by
  unfold handleLeaveRoom getSessionByConn getSessionByFd
  cases s.sessions.lookup conn.fd with
  | none => exact s.tells_reply conn msg rfl
  | some x =>
    -- the broadcast goes to those who stay, and the answer has no count in it
    have hcast := tells_broadcastMemberCount s.toTables asked (s.onTables fun t => t.leave x)
      (s.sessionAt x).roomId
    have hnone : MyMessage.count asked ⟨.leaveRoomResp, msg.id, ascii "OK"⟩ = none := rfl
    have hanswer := tells_reply (t := s.toTables)
      ((s.onTables fun t => t.leave x).broadcastMemberCount (s.sessionAt x).roomId) conn msg hnone
    have htells := hcast.trans hanswer
    rw [List.append_nil] at htells
    exact htells.of_eq rfl rfl

theorem handleSendMessage_tells (asked : UInt32) :
    s.Tells (s.handleSendMessage conn msg) (Sent.notice s.toTables asked) [] := by
  refine ⟨_, s.handleSendMessage_sent conn msg, ?_⟩
  rw [List.filterMap_eq_nil_iff]
  -- no chat message and no refusal is read as a count
  intro o ho
  unfold Tables.sendOutput at ho
  split at ho
  next =>
    rw [List.mem_singleton] at ho
    exact ho ▸ notice_reply conn rfl
  next x _ =>
    split_ifs at ho
    · rw [List.mem_singleton] at ho
      exact ho ▸ notice_reply conn rfl
    · split at ho
      next =>
        rw [List.mem_singleton] at ho
        exact ho ▸ notice_reply conn rfl
      next =>
        rw [List.mem_append, List.mem_map, List.mem_singleton] at ho
        rcases ho with ⟨y, -, rfl⟩ | rfl
        · rfl
        · exact notice_reply conn rfl

theorem dispatch_tells :
    s.Tells (s.dispatch env conn msg)
      (Sent.notice s.toTables ((stoul msg.payload).getD 0).toUInt32)
      (s.toTables.notices (s.toTables.requested env conn msg)) := by
  unfold dispatch Tables.requested
  cases msg.type with
  | loginReq =>
    dsimp only [handleLogin]
    cases authenticate env msg with
    | error refusal => exact (tells_reply s.countRequest conn msg rfl).of_eq rfl rfl
    | ok username => exact (tells_reply s.countRequest conn msg rfl).of_eq rfl rfl
  -- the handlers start from the counter of requests, which no client reads
  | createRoomReq =>
    refine Tells.of_eq (t := s.countRequest) ?_ rfl rfl
    have h := s.countRequest.handleCreateRoom_tells env conn msg
      ((stoul msg.payload).getD 0).toUInt32
    rw [countRequest_toTables] at h
    cases hx : s.sessions.lookup conn.fd with
    | none =>
      simp only [hx] at h ⊢
      exact h
    | some x =>
      simp only [hx] at h ⊢
      split_ifs at h ⊢ with hname hinsert
      · exact h
      · exact h
      · exact h
  | joinRoomReq =>
    have h := s.countRequest.handleJionRoom_tells env conn msg
    rw [countRequest_toTables] at h
    refine Tells.of_eq (t := s.countRequest) ?_ rfl rfl
    cases hx : s.sessions.lookup conn.fd with
    | none =>
      simp only [hx] at h ⊢
      exact h
    | some x =>
      cases hn : stoul msg.payload with
      | none =>
        simp only [hx, hn] at h ⊢
        exact h
      | some n =>
        cases hρ : s.rooms.lookup n.toUInt32 with
        | none =>
          simp only [hx, hn, hρ] at h ⊢
          exact h
        | some ρ =>
          simp only [hx, hn, hρ] at h ⊢
          exact h
  | leaveRoomReq =>
    have h := s.countRequest.handleLeaveRoom_tells env conn msg
      ((stoul msg.payload).getD 0).toUInt32
    rw [countRequest_toTables] at h
    refine Tells.of_eq (t := s.countRequest) ?_ rfl rfl
    cases hx : s.sessions.lookup conn.fd with
    | none =>
      simp only [hx] at h ⊢
      exact h
    | some x =>
      simp only [hx] at h ⊢
      exact h
  | sendMsgReq => exact (s.countRequest.handleSendMessage_tells conn msg _).of_eq rfl rfl
  | _ => exact (tells_reply s conn msg rfl).of_eq rfl rfl

end Handlers

/-- An operation tells the counts of its change. -/
theorem apply_notices (s : Service) (op : Op) :
    Watched.notices s op = s.toTables.notices (s.change op) := by
  have htells : s.Tells (s.apply op) (Sent.notice s.toTables op.asked)
      (s.toTables.notices (s.change op)) := by
    cases op with
    | message env conn msg =>
      rw [apply, handleMessage_eq, change]
      have hsent : (s.afterLimiters env conn msg).sent = s.sent := by
        unfold afterLimiters
        split_ifs
        · rfl
        · exact s.passLimiters_sent env conn
      split_ifs
      · have h := (s.afterLimiters env conn msg).dispatch_tells env conn msg
        rw [afterLimiters_toTables] at h
        exact h.of_eq hsent rfl
      · exact (tells_reply (s.afterLimiters env conn msg) conn msg rfl).of_eq hsent rfl
    | closed env fd =>
      unfold apply onConnectionClosed getSessionByFd change
      dsimp only
      cases s.sessions.lookup fd with
      | none => exact .of_sent_eq rfl
      | some x =>
        dsimp only [Tables.notices]
        change s.Tells (if (s.sessionAt x).roomId = 0 then _ else _) _ _
        -- outside of a room there is nobody to tell
        split_ifs with hroom
        · exact .of_sent_eq rfl
        · exact (tells_broadcastMemberCount s.toTables 0 _ (s.sessionAt x).roomId).of_eq rfl rfl
  obtain ⟨out, hsent, hout⟩ := htells
  unfold Watched.notices
  rw [hsent, List.drop_left, hout]

end Service

/-! ## §3 Informed sessions -/

namespace Told

/-- A broadcast of one count. -/
theorem foldl_note_map (r : UInt32) (n : UInt64) (members : List SessionRef) (told : Told)
    (x : SessionRef) (r' : UInt32) :
    ((members.map fun y => (⟨y, r, n⟩ : Notice)).foldl note told) x r' =
      if x ∈ members ∧ r' = r then some n else told x r' := by
  induction members generalizing told with
  | nil => simp
  | cons y ys ih =>
    rw [List.map_cons, List.foldl_cons, ih, note]
    by_cases hx : x = y
    · by_cases hr : r' = r <;> simp [hx, hr]
    · simp [hx]

end Told

theorem Room.memberCount_removeMember {r : Room} (hnodup : r.members.Nodup) {x : SessionRef}
    (hx : x ∈ r.members) : r.memberCount = (r.removeMember x).memberCount + 1 := by
  have herase : (r.removeMember x).members = r.members.erase x := by
    rw [hnodup.erase_eq_filter]
    apply List.filter_congr
    intro y _
    by_cases h : y = x <;> simp [h]
  rw [Room.memberCount, Room.memberCount, herase, List.length_erase_of_mem hx,
    Nat.sub_add_cancel (List.length_pos_of_mem hx)]

namespace Tables

/-- If the session is a member of the room registered under `r`, then the last count of it that
it was told is the member count. -/
def Informed (t : Tables) (told : Told) (x : SessionRef) (r : UInt32) : Prop :=
  ∀ ρ, t.rooms.lookup r = some ρ → x ∈ (t.roomAt ρ).members →
    told x r = some (UInt64.ofNat (t.roomAt ρ).memberCount)

/-- Every session that is a member of the room it believes to be in knows the member count. -/
def CountsCurrent (t : Tables) (told : Told) : Prop := ∀ x, t.Informed told x (t.sessionAt x).roomId

/-- Nobody leaves room 0 unnoticed: every member of it knows its count. -/
def ZeroInformed (t : Tables) (told : Told) : Prop := ∀ x, t.Informed told x 0

/-- The room under `r` is the one before, with the same members. -/
def SameRoom (t t' : Tables) (r : UInt32) : Prop :=
  ∀ ρ, t'.rooms.lookup r = some ρ →
    t.rooms.lookup r = some ρ ∧ (t'.roomAt ρ).members = (t.roomAt ρ).members

section Informed

variable {t t' : Tables} {told told' : Told} {x : SessionRef} {r : UInt32}

theorem Informed.of_sameRoom (h : t.Informed told x r) (hsame : SameRoom t t' r)
    (htold : told' x r = told x r) : t'.Informed told' x r := by
  intro ρ hρ hx
  obtain ⟨hρ', hmembers⟩ := hsame ρ hρ
  rw [hmembers] at hx
  rw [htold, h ρ hρ' hx, Room.memberCount, Room.memberCount, hmembers]

/-- After a broadcast all members are informed. -/
theorem informed_countsOf (t : Tables) (told : Told) (x : SessionRef) (r : UInt32) :
    t.Informed ((t.countsOf r).foldl Told.note told) x r := by
  intro ρ hρ hx
  rw [countsOf, hρ, Told.foldl_note_map, if_pos ⟨hx, rfl⟩]

/-- A broadcast is about one room. -/
theorem told_countsOf_of_ne (t : Tables) (told : Told) (x : SessionRef) {r r' : UInt32}
    (h : r' ≠ r) : ((t.countsOf r).foldl Told.note told) x r' = told x r' := by
  unfold countsOf
  cases t.rooms.lookup r with
  | none => rfl
  | some ρ => exact (Told.foldl_note_map ..).trans (if_neg fun h' => h h'.2)

theorem sameRoom_removeFromRoom (hc : t.Consistent) {id : UInt32} (h : r ≠ id) :
    SameRoom t (t.removeFromRoom id x) r := by
  intro ρ hρ
  rw [removeFromRoom_rooms] at hρ
  rw [removeFromRoom_roomAt, if_neg fun hid => h (hc.room_unique hρ hid)]
  exact ⟨hρ, rfl⟩

theorem sameRoom_removeEmptyRoom (id : UInt32) : SameRoom t (t.removeEmptyRoom id) r := by
  intro ρ hρ
  rw [removeEmptyRoom_roomAt]
  exact ⟨((lookup_removeEmptyRoom ..).mp hρ).1, rfl⟩

theorem SameRoom.trans {t'' : Tables} (h : SameRoom t t' r) (h' : SameRoom t' t'' r) :
    SameRoom t t'' r := by
  intro ρ hρ
  obtain ⟨hρ', hmembers'⟩ := h' ρ hρ
  obtain ⟨hρ'', hmembers⟩ := h ρ hρ'
  exact ⟨hρ'', hmembers'.trans hmembers⟩

theorem sameRoom_newRoom (hc : t.Consistent) {id : UInt32} (h : r ≠ id) (name : Bytes) :
    SameRoom t (t.newRoom id name) r := by
  intro ρ hρ
  rw [newRoom, AList.lookup_insert_ne h] at hρ
  have hroomAt : (t.newRoom id name).roomAt ρ = t.roomAt ρ :=
    Function.update_of_ne (hc.room_lt r ρ hρ).ne _ _
  rw [hroomAt]
  exact ⟨hρ, rfl⟩

theorem sameRoom_addMember (hc : t.Consistent) {id : UInt32} {ρ : RoomRef}
    (hρ : t.rooms.lookup id = some ρ) (h : r ≠ id) : SameRoom t (t.addMember ρ x) r := by
  intro σ hσ
  have hne : σ ≠ ρ := fun heq => h (hc.room_unique hσ (heq ▸ hρ))
  rw [addMember_roomAt, if_neg hne]
  exact ⟨hσ, rfl⟩

end Informed

/-! ## §4 Changes -/

section Changes

variable {t : Tables} {told : Told}

/-- The members of the room that is joined are told. -/
theorem informed_join_self {id : UInt32} {ρ : RoomRef} (hρ : t.rooms.lookup id = some ρ)
    (x y : SessionRef) :
    (t.join x id ρ).Informed ((t.notices (.join x id ρ)).foldl Told.note told) y id := by
  intro σ hσ hy
  have hjoined : (t.join x id ρ).rooms.lookup id = some ρ := by simpa [join] using hρ
  obtain rfl : ρ = σ := Option.some.inj (hjoined.symm.trans hσ)
  rw [notices, List.foldl_append, List.foldl_cons, List.foldl_nil, Told.note]
  split_ifs
  · rfl
  · exact informed_countsOf (t.join x id ρ) told y id ρ hjoined hy

/-- The notices of a join are about the room that is joined. -/
theorem told_join_of_ne (x y : SessionRef) {id r : UInt32} (hr : r ≠ id) (ρ : RoomRef) :
    ((t.notices (.join x id ρ)).foldl Told.note told) y r = told y r := by
  rw [notices, List.foldl_append, List.foldl_cons, List.foldl_nil, Told.note,
    if_neg fun h => hr h.2]
  exact told_countsOf_of_ne _ told y hr

variable (hc : t.Consistent)
include hc

/-- The creator is the only member of the new room; the other rooms are as before. -/
theorem informed_create (id : UInt32) (name : Bytes) (x : SessionRef) {y : SessionRef} {r : UInt32}
    (h : r ≠ id → t.Informed told y r) :
    (t.create id name x).Informed (told.note ⟨x, id, 1⟩) y r := by
  -- the new room has one member, who is told one
  by_cases hr : r = id
  · subst hr
    intro ρ hρ hy
    obtain rfl : t.freshRoom = ρ := Option.some.inj ((AList.lookup_insert _).symm.trans hρ)
    have hmembers : ((t.create r name x).roomAt t.freshRoom).members = [x] := by
      rw [create, setRoomId_roomAt, addMember_roomAt, if_pos rfl]
      simp [newRoom, Room.addMember]
    rw [hmembers, List.mem_singleton] at hy
    rw [Room.memberCount, hmembers, Told.note, if_pos ⟨hy, rfl⟩]
    rfl
  · have hnew : SameRoom t (t.create id name x) r := (sameRoom_newRoom hc hr name).trans
      (sameRoom_addMember (hc.newRoom id name) (AList.lookup_insert _) hr)
    exact (h hr).of_sameRoom hnew (if_neg fun h' => hr h'.2)

/-- The members of the room that is left are told; the other rooms are as before. -/
theorem informed_leave (x : SessionRef) {y : SessionRef} {r : UInt32}
    (h : r ≠ (t.sessionAt x).roomId → t.Informed told y r) :
    ((t.leave x).removeEmptyRoom (t.sessionAt x).roomId).Informed
      (((t.leave x).countsOf (t.sessionAt x).roomId).foldl Told.note told) y r := by
  by_cases hr : r = (t.sessionAt x).roomId
  · subst hr
    exact (informed_countsOf (t.leave x) told y _).of_sameRoom (sameRoom_removeEmptyRoom _) rfl
  · have hsame : SameRoom t (t.leave x) r := sameRoom_removeFromRoom hc hr
    exact (h hr).of_sameRoom (hsame.trans (sameRoom_removeEmptyRoom _))
      (told_countsOf_of_ne _ told y hr)

/-- So are those of the room that a closed connection was in. -/
theorem informed_close (fd : Int) (x : SessionRef) {y : SessionRef} {r : UInt32}
    (h : t.Informed told y r) :
    (t.close fd x).Informed ((t.notices (.close fd x)).foldl Told.note told) y r := by
  have hnotices : t.notices (.close fd x) = if (t.sessionAt x).roomId = 0 then [] else
      ((t.dropSession fd).removeFromRoom (t.sessionAt x).roomId x).countsOf
        (t.sessionAt x).roomId := rfl
  rw [hnotices]
  unfold close
  split_ifs with hroom
  · exact h
  · by_cases hr : r = (t.sessionAt x).roomId
    · subst hr
      exact (informed_countsOf _ told y _).of_sameRoom (sameRoom_removeEmptyRoom _) rfl
    · have hsame : SameRoom t ((t.dropSession fd).removeFromRoom (t.sessionAt x).roomId x) r :=
        sameRoom_removeFromRoom (hc.dropSession fd) hr
      exact h.of_sameRoom (hsame.trans (sameRoom_removeEmptyRoom _))
        (told_countsOf_of_ne _ told y hr)

/-- A join leaves the rooms alone but for the one that is joined and the one that is left. -/
theorem sameRoom_join {x : SessionRef} {id r : UInt32} {ρ : RoomRef}
    (hρ : t.rooms.lookup id = some ρ) (hr : r ≠ id)
    (hold : r = (t.sessionAt x).roomId → r ≠ 0 → ¬ t.InRoom x r) :
    SameRoom t (t.join x id ρ) r := by
  have hleave : SameRoom t (t.leaveOld x) r := by
    unfold leaveOld
    split_ifs with hroom
    · exact fun σ hσ => ⟨hσ, rfl⟩
    -- the old room is left, unless the session was not in it
    · by_cases hrx : r = (t.sessionAt x).roomId
      · subst hrx
        intro σ hσ
        rw [removeFromRoom_rooms] at hσ
        rw [removeFromRoom_roomAt, if_pos hσ]
        have hx : x ∉ (t.roomAt σ).members := fun hx => hold rfl hroom ⟨σ, hσ, hx⟩
        refine ⟨hσ, List.filter_eq_self.mpr fun y hy => decide_eq_true ?_⟩
        exact fun heq => hx (heq ▸ hy)
      · exact sameRoom_removeFromRoom hc hrx
  exact hleave.trans (sameRoom_addMember (hc.leaveOld x) (by simpa using hρ) hr)

/-- The auxiliary invariant. -/
theorem zeroInformed_after (hz : t.ZeroInformed told) {c : Change} (hv : c.Valid t) :
    (t.after c).ZeroInformed ((t.notices c).foldl Told.note told) := by
  intro y
  cases c with
  | none => exact hz y
  | login conn username => exact hz y
  | draw => exact hz y
  | create x name =>
    exact informed_create (t := t.drawRoomId) hc.drawRoomId t.nextRoomId name x fun _ => hz y
  -- id 0 is registered when the counter has wrapped
  | join x id ρ =>
    by_cases hid : id = 0
    · subst hid
      exact informed_join_self hv.2 x y
    · have hne : (0 : UInt32) ≠ id := Ne.symm hid
      exact (hz y).of_sameRoom (sameRoom_join hc hv.2 hne fun _ h => absurd rfl h)
        (told_join_of_ne x y hne ρ)
  | leave x => exact informed_leave hc x fun _ => hz y
  | close fd x => exact informed_close hc fd x (hz y)

/-- When the session leaves a room for the room `id`, nobody stays there who believes to be in
it. -/
def LeavesNobodyBehind (t : Tables) (x : SessionRef) (id : UInt32) : Prop :=
  (t.sessionAt x).roomId ≠ 0 → (t.sessionAt x).roomId ≠ id →
    ∀ σ ∈ t.rooms.lookup (t.sessionAt x).roomId, x ∈ (t.roomAt σ).members →
      ∀ y ∈ (t.roomAt σ).members, y ≠ x → (t.sessionAt y).roomId ≠ (t.sessionAt x).roomId

theorem countsCurrent_join_iff (h : t.CountsCurrent told) {x : SessionRef} {id : UInt32}
    {ρ : RoomRef} (hρ : t.rooms.lookup id = some ρ) :
    (t.join x id ρ).CountsCurrent ((t.notices (.join x id ρ)).foldl Told.note told) ↔
      t.LeavesNobodyBehind x id := by
  have hroomId : ∀ y, ((t.join x id ρ).sessionAt y).roomId =
      if y = x then id else (t.sessionAt y).roomId := fun y => by
    simp [join, setRoomId_roomId]
  have hrooms : (t.join x id ρ).rooms = t.rooms := by simp [join]
  constructor
  · intro h' hroom hne σ hσ hx y hy hyx hbelieves
    -- `y` still has the count with `x` in it
    have hbefore := h y
    rw [hbelieves] at hbefore
    have hafter := h' y
    rw [hroomId, if_neg hyx, hbelieves] at hafter
    have hσρ : σ ≠ ρ := fun heq => hne (hc.room_unique hσ (heq ▸ hρ))
    have hroomAt : (t.join x id ρ).roomAt σ = (t.roomAt σ).removeMember x := by
      rw [join, setRoomId_roomAt, addMember_roomAt, if_neg hσρ, leaveOld, if_neg hroom,
        removeFromRoom_roomAt, if_pos (Option.mem_def.mp hσ)]
    have hcount := Room.memberCount_removeMember (hc.nodup σ) hx
    rw [← hroomAt] at hcount
    have hstay : y ∈ ((t.join x id ρ).roomAt σ).members := by
      rw [hroomAt]
      exact Room.mem_removeMember.mpr ⟨hy, hyx⟩
    have hcontra := hafter σ (hrooms ▸ hσ) hstay
    rw [told_join_of_ne x y hne ρ, hbefore σ hσ hy, hcount, Option.some.injEq,
      UInt64.ofNat_add] at hcontra
    simp at hcontra
  · intro hnobody y
    rw [hroomId]
    split_ifs with hyx
    · exact informed_join_self hρ x y
    · by_cases hr : (t.sessionAt y).roomId = id
      · rw [hr]
        exact informed_join_self hρ x y
      · by_cases hleft : (t.sessionAt y).roomId = (t.sessionAt x).roomId ∧
            (t.sessionAt y).roomId ≠ 0 ∧ t.InRoom x (t.sessionAt y).roomId
        · obtain ⟨hsame, hroom, σ, hσ, hx⟩ := hleft
          rw [hsame] at hr hroom hσ ⊢
          intro τ hτ hy
          rw [hrooms] at hτ
          obtain rfl : σ = τ := Option.some.inj (hσ.symm.trans hτ)
          -- whoever stays in the room that is left does not believe to be in it
          have hy' : y ∈ (t.roomAt σ).members := by
            have hin := (inRoom_join hc hρ).mp ⟨σ, (hrooms ▸ hσ : _), hy⟩
            rcases hin with ⟨⟨τ, hτ', hy'⟩, -⟩ | ⟨hid, -⟩
            · obtain rfl : σ = τ := Option.some.inj (hσ.symm.trans hτ')
              exact hy'
            · exact absurd hid hr
          exact absurd hsame (hnobody hroom hr σ hσ hx y hy' hyx)
        · have hstay : SameRoom t (t.join x id ρ) (t.sessionAt y).roomId :=
            sameRoom_join hc hρ hr fun hsame hroom hx => hleft ⟨hsame, hroom, hx⟩
          exact (h y).of_sameRoom hstay (told_join_of_ne x y hr ρ)

/-- The condition on a change. -/
def KeepsCounts (t : Tables) : Change → Prop
  | .join x id _ => t.LeavesNobodyBehind x id
  | _ => True

/-- The step lemma. -/
theorem countsCurrent_after_iff (hz : t.ZeroInformed told) (h : t.CountsCurrent told) {c : Change}
    (hv : c.Valid t) :
    (t.after c).CountsCurrent ((t.notices c).foldl Told.note told) ↔ t.KeepsCounts c := by
  cases c with
  | none => exact iff_of_true h trivial
  | draw => exact iff_of_true h trivial
  | login conn username =>
    refine iff_of_true (fun y ρ hρ hy => ?_) trivial
    have hsession : (t.openSession conn username).sessionAt y = t.sessionAt y :=
      Function.update_of_ne (hc.member_lt ρ y hy).ne _ _
    rw [Tables.after, hsession] at hρ ⊢
    exact h y ρ hρ hy
  | create x name =>
    refine iff_of_true (fun y => ?_) trivial
    refine informed_create (t := t.drawRoomId) hc.drawRoomId t.nextRoomId name x fun hne => ?_
    have hroomId : ((t.drawRoomId.create t.nextRoomId name x).sessionAt y).roomId =
        if y = x then t.nextRoomId else (t.sessionAt y).roomId := setRoomId_roomId ..
    rw [Tables.after, hroomId] at hne ⊢
    split_ifs at hne ⊢ with hyx
    · exact absurd rfl hne
    · exact h y
  -- the only change that leaves a room without telling it
  | join x id ρ => exact countsCurrent_join_iff hc h hv.2
  -- the one who leaves believes nothing any more, except about id 0
  | leave x =>
    refine iff_of_true (fun y => ?_) trivial
    refine informed_leave hc x fun _ => ?_
    have hroomId : ((t.after (.leave x)).sessionAt y).roomId =
        if y = x then 0 else (t.sessionAt y).roomId := by
      simp [Tables.after, leave, setRoomId_roomId]
    rw [hroomId]
    split_ifs with hyx
    · exact hz y
    · exact h y
  | close fd x =>
    refine iff_of_true (fun y => ?_) trivial
    have hroomId : ((t.after (.close fd x)).sessionAt y).roomId = (t.sessionAt y).roomId := by
      simp [Tables.after]
    rw [hroomId]
    exact informed_close hc fd x (h y)

end Changes

instance (t : Tables) (x : SessionRef) (id : UInt32) : Decidable (t.LeavesNobodyBehind x id) :=
  inferInstanceAs (Decidable (_ → _ → ∀ σ ∈ _, _ → ∀ y ∈ _, _ → _))

instance (t : Tables) : (c : Change) → Decidable (t.KeepsCounts c)
  | .join x id _ => inferInstanceAs (Decidable (t.LeavesNobodyBehind x id))
  | .none | .login .. | .draw | .create .. | .leave _ | .close .. =>
    inferInstanceAs (Decidable True)

end Tables

/-! ## §5 Runs -/

namespace Watched

open Service (request)

/-- Watching does not change the service. -/
theorem refines {w w' : Watched} {ops : List Op} (hrun : run step w ops = some w') :
    run Service.step w.service ops = some w'.service := by
  induction ops generalizing w with
  | nil =>
    cases hrun
    rfl
  | cons op ops ih =>
    obtain ⟨u, hu, hrun⟩ := run_cons_eq_some.mp hrun
    obtain rfl := Option.some.inj hu
    exact run_cons_eq_some.mpr ⟨_, rfl, ih hrun⟩

/-- Every session in the room it believes to be in was last told the current member count. -/
def CountsCurrent (w : Watched) : Prop :=
  ∀ x ρ, w.service.rooms.lookup (w.service.sessionAt x).roomId = some ρ →
    x ∈ (w.service.roomAt ρ).members →
    w.told x (w.service.sessionAt x).roomId =
      some (UInt64.ofNat (w.service.roomAt ρ).memberCount)

/-- **Member counts, exactly.**  In every state of a run the counts that the members of a room were
told last are current exactly when no join of the run takes a session out of a room where others
stay who believe to be in it. -/
theorem counts_current_iff {first : UInt32} {ops : List Op} {w : Watched}
    (hrun : run step (.init first) ops = some w) :
    (∀ pre post v, ops = pre ++ post → run step (.init first) pre = some v → v.CountsCurrent) ↔
      Meets step (fun w op => w.service.KeepsCounts (w.service.change op)) (.init first) ops := by
  refine (meets_iff_forall_state (P := CountsCurrent)
    (I := fun w => w.service.toTables.Consistent ∧ w.service.ZeroInformed w.told)
    ?_ ?_ ⟨Tables.Consistent.init first, ?_⟩ ?_ hrun).symm
  · rintro w op w' ⟨hc, hz⟩ hstep
    obtain rfl := Option.some.inj hstep
    refine ⟨(w.service.apply_effect op).consistent hc, ?_⟩
    rw [Service.apply_notices, Service.apply_toTables]
    exact Tables.zeroInformed_after hc hz (w.service.change_valid op)
  · rintro w op w' ⟨hc, hz⟩ h hstep
    obtain rfl := Option.some.inj hstep
    change (w.service.apply op).toTables.CountsCurrent _ ↔ _
    rw [Service.apply_notices, Service.apply_toTables]
    exact Tables.countsCurrent_after_iff hc hz h (w.service.change_valid op)
  · intro x ρ hρ
    simp [init, Service.init, Tables.init] at hρ
  · intro x ρ hρ
    simp [init, Service.init, Tables.init] at hρ

/-- Three users come and go; the one who changes the room was alone. -/
def moveAlone : List Op :=
  [request ⟨0, 5⟩ .loginReq "ann|pw", request ⟨1, 6⟩ .loginReq "bob|pw",
    request ⟨2, 7⟩ .loginReq "carol|pw", request ⟨0, 5⟩ .createRoomReq "r",
    request ⟨1, 6⟩ .createRoomReq "q", request ⟨2, 7⟩ .joinRoomReq "2",
    request ⟨0, 5⟩ .joinRoomReq "2", request ⟨1, 6⟩ .leaveRoomReq ""]

theorem counts_current_iff_moveAlone :
    ∃ w, run step (.init 1) moveAlone = some w ∧
      ∀ pre post v, moveAlone = pre ++ post → run step (.init 1) pre = some v →
        v.CountsCurrent :=
  ⟨_, rfl, (counts_current_iff rfl).mpr (by decide +kernel)⟩

/-- A member of a room of two moves to another room. -/
def moveAway : List Op :=
  [request ⟨0, 5⟩ .loginReq "ann|pw", request ⟨1, 6⟩ .loginReq "bob|pw",
    request ⟨2, 7⟩ .loginReq "carol|pw", request ⟨0, 5⟩ .createRoomReq "r",
    request ⟨1, 6⟩ .joinRoomReq "1", request ⟨2, 7⟩ .createRoomReq "q",
    request ⟨0, 5⟩ .joinRoomReq "2"]

/-- The member who stays was told 2 last, and is alone. -/
theorem switch_leaves_stale_count :
    ∃ w, run step (.init 1) moveAway = some w ∧ w.service.rooms.lookup 1 = some 0 ∧
      (w.service.roomAt 0).members = [1] ∧ (w.service.sessionAt 1).roomId = 1 ∧
      w.told 1 1 = some 2 ∧ ¬ w.CountsCurrent := by
  have hlast : ((run step (.init 1) moveAway).any fun w =>
      decide (w.service.rooms.lookup 1 = some 0 ∧ (w.service.roomAt 0).members = [1] ∧
        (w.service.sessionAt 1).roomId = 1 ∧ w.told 1 1 = some 2)) = true := by
    decide +kernel
  obtain ⟨w, hrun, hw⟩ := exists_of_run_any hlast
  obtain ⟨hroom, hmembers, hbelieves, htold⟩ := of_decide_eq_true hw
  refine ⟨w, hrun, hroom, hmembers, hbelieves, htold, fun h => ?_⟩
  have hcount := h 1 0 (by rw [hbelieves, hroom]) (by rw [hmembers]; exact List.mem_singleton_self 1)
  rw [hbelieves, htold, Room.memberCount, hmembers] at hcount
  exact absurd hcount (by decide)

end Watched

end EchoNet.Chat
