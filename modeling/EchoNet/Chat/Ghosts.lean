import EchoNet.Chat.Membership

/-!
# Ghost Members

A ghost is a member of a registered room that is not the current session of its connection,
or that believes it is in another room.  `handleJionRoom` takes the session out of its old
room first; `handleLogin` and `handleCreateRoom` do not, and room 0 counts as "no room".

## Main results

- `members_are_current_iff`: a run is free of ghosts exactly when none of its operations
  abandons a member.
- `relogin_leaves_ghost`: a second login leaves a ghost that outlives the connection.
-/

namespace EchoNet.Chat

open EchoNet.Lib EchoNet.Protocol EchoNet.RateLimit

namespace Tables

/-! ## §1 The membership relation -/

/-- The session is a member of the room registered under `r`. -/
def InRoom (t : Tables) (y : SessionRef) (r : UInt32) : Prop :=
  ∃ ρ, t.rooms.lookup r = some ρ ∧ y ∈ (t.roomAt ρ).members

section InRoom

variable {t : Tables} {x y : SessionRef} {r id : UInt32} {ρ : RoomRef}

theorem inRoom_addMember :
    (t.addMember ρ x).InRoom y r ↔ t.InRoom y r ∨ (t.rooms.lookup r = some ρ ∧ y = x) := by
  unfold InRoom
  simp only [addMember_rooms, mem_addMember]
  constructor
  · rintro ⟨σ, hσ, hy | ⟨rfl, rfl⟩⟩
    · exact Or.inl ⟨σ, hσ, hy⟩
    · exact Or.inr ⟨hσ, rfl⟩
  · rintro (⟨σ, hσ, hy⟩ | ⟨hρ, rfl⟩)
    · exact ⟨σ, hσ, Or.inl hy⟩
    · exact ⟨ρ, hρ, Or.inr ⟨rfl, rfl⟩⟩

theorem inRoom_removeFromRoom (hc : t.Consistent) :
    (t.removeFromRoom id x).InRoom y r ↔ t.InRoom y r ∧ ¬ (r = id ∧ y = x) := by
  unfold InRoom
  simp only [removeFromRoom_rooms, mem_removeFromRoom]
  constructor
  · rintro ⟨σ, hσ, hy, hne⟩
    exact ⟨⟨σ, hσ, hy⟩, fun h => hne ⟨h.1 ▸ hσ, h.2⟩⟩
  · rintro ⟨⟨σ, hσ, hy⟩, hne⟩
    exact ⟨σ, hσ, hy, fun h => hne ⟨hc.room_unique hσ h.1, h.2⟩⟩

/-- The room of a member is not empty. -/
theorem inRoom_removeEmptyRoom : (t.removeEmptyRoom id).InRoom y r ↔ t.InRoom y r := by
  unfold InRoom
  simp only [lookup_removeEmptyRoom, removeEmptyRoom_roomAt]
  constructor
  · rintro ⟨σ, ⟨hσ, -⟩, hy⟩
    exact ⟨σ, hσ, hy⟩
  · rintro ⟨σ, hσ, hy⟩
    exact ⟨σ, ⟨hσ, fun h => List.ne_nil_of_mem hy h.2⟩, hy⟩

theorem inRoom_newRoom (hc : t.Consistent) (name : Bytes) :
    (t.newRoom id name).InRoom y r ↔ t.InRoom y r ∧ r ≠ id := by
  have hroomAt : ∀ {σ}, t.rooms.lookup r = some σ → (t.newRoom id name).roomAt σ = t.roomAt σ :=
    fun hσ => Function.update_of_ne (hc.room_lt r _ hσ).ne _ _
  constructor
  · rintro ⟨σ, hσ, hy⟩
    by_cases hr : r = id
    · subst hr
      obtain rfl : t.freshRoom = σ := Option.some.inj ((AList.lookup_insert _).symm.trans hσ)
      simp [newRoom] at hy
    · rw [newRoom, AList.lookup_insert_ne hr] at hσ
      rw [hroomAt hσ] at hy
      exact ⟨⟨σ, hσ, hy⟩, hr⟩
  · rintro ⟨⟨σ, hσ, hy⟩, hr⟩
    exact ⟨σ, (AList.lookup_insert_ne hr).trans hσ, by rwa [hroomAt hσ]⟩

theorem inRoom_create (hc : t.Consistent) (name : Bytes) :
    (t.create id name x).InRoom y r ↔ (t.InRoom y r ∧ r ≠ id) ∨ (r = id ∧ y = x) := by
  have hnew : (t.newRoom id name).rooms.lookup r = some t.freshRoom ↔ r = id := by
    refine ⟨fun h => ?_, fun h => h ▸ AList.lookup_insert _⟩
    by_contra hr
    rw [newRoom, AList.lookup_insert_ne hr] at h
    exact absurd (hc.room_lt r _ h) (lt_irrefl _)
  change ((t.newRoom id name).addMember t.freshRoom x).InRoom y r ↔ _
  rw [inRoom_addMember, inRoom_newRoom hc, hnew]

theorem inRoom_leaveOld (hc : t.Consistent) :
    (t.leaveOld x).InRoom y r ↔
      t.InRoom y r ∧ ¬ (y = x ∧ r = (t.sessionAt x).roomId ∧ r ≠ 0) := by
  unfold leaveOld
  split_ifs with hroom
  · rw [hroom]
    exact ⟨fun h => ⟨h, fun h' => h'.2.2 h'.2.1⟩, And.left⟩
  · rw [inRoom_removeFromRoom hc]
    refine and_congr_right fun _ => not_congr ⟨?_, fun h => ⟨h.2.1, h.1⟩⟩
    rintro ⟨rfl, rfl⟩
    exact ⟨rfl, rfl, hroom⟩

theorem inRoom_join (hc : t.Consistent) (hρ : t.rooms.lookup id = some ρ) :
    (t.join x id ρ).InRoom y r ↔
      (t.InRoom y r ∧ ¬ (y = x ∧ r = (t.sessionAt x).roomId ∧ r ≠ 0)) ∨ (r = id ∧ y = x) := by
  have hlookup : (t.leaveOld x).rooms.lookup r = some ρ ↔ r = id := by
    rw [leaveOld_rooms]
    exact ⟨fun h => hc.room_unique h hρ, fun h => h ▸ hρ⟩
  change ((t.leaveOld x).addMember ρ x).InRoom y r ↔ _
  rw [inRoom_addMember, inRoom_leaveOld hc, hlookup]

theorem inRoom_leave (hc : t.Consistent) :
    (t.leave x).InRoom y r ↔ t.InRoom y r ∧ ¬ (r = (t.sessionAt x).roomId ∧ y = x) :=
  inRoom_removeFromRoom hc

theorem inRoom_close (hc : t.Consistent) (fd : Int) :
    (t.close fd x).InRoom y r ↔
      t.InRoom y r ∧ ¬ (y = x ∧ r = (t.sessionAt x).roomId ∧ r ≠ 0) := by
  unfold close
  split_ifs with hroom
  · rw [hroom]
    exact ⟨fun h => ⟨h, fun h' => h'.2.2 h'.2.1⟩, And.left⟩
  · rw [inRoom_removeEmptyRoom, inRoom_removeFromRoom (hc.dropSession fd)]
    refine and_congr_right fun _ => not_congr ⟨?_, fun h => ⟨h.2.1, h.1⟩⟩
    rintro ⟨rfl, rfl⟩
    exact ⟨rfl, rfl, hroom⟩

end InRoom

theorem setRoomId_roomId (t : Tables) (x y : SessionRef) (id : UInt32) :
    ((t.setRoomId x id).sessionAt y).roomId = if y = x then id else (t.sessionAt y).roomId := by
  by_cases h : y = x
  · subst h
    rw [if_pos rfl, setRoomId_roomId_self]
  · rw [if_neg h, setRoomId_sessionAt_of_ne t id h]

/-! ## §2 Ghosts -/

/-- Every member of a registered room is the current session of its connection, and believes
it is in that room. -/
def NoGhosts (t : Tables) : Prop :=
  ∀ y r, t.InRoom y r →
    t.sessions.lookup (t.sessionAt y).conn.fd = some y ∧ (t.sessionAt y).roomId = r

/-- The registered rooms with this member all satisfy `p`. -/
def MemberOnlyOf (t : Tables) (y : SessionRef) (p : UInt32 → Prop) : Prop :=
  ∀ r, t.InRoom y r → p r

instance (t : Tables) (y : SessionRef) (p : UInt32 → Prop) [DecidablePred p] :
    Decidable (t.MemberOnlyOf y p) :=
  decidable_of_iff (∀ e ∈ t.rooms.entries, y ∈ (t.roomAt e.2).members → p e.1)
    ⟨fun h r ⟨ρ, hρ, hy⟩ => h ⟨r, ρ⟩ (AList.mem_lookup_iff.mp hρ) hy,
      fun h e he hy => h e.1 ⟨e.2, AList.mem_lookup_iff.mpr he, hy⟩⟩

section Step

variable {t : Tables} (hc : t.Consistent) (hg : t.NoGhosts)
include hc hg

/-- A login replaces the current session, which has to be in no room. -/
theorem noGhosts_openSession_iff (conn : Conn) (username : Bytes) :
    (t.openSession conn username).NoGhosts ↔
      ∀ x, t.sessions.lookup conn.fd = some x → t.MemberOnlyOf x fun _ => False := by
  have hsession : ∀ {y r}, t.InRoom y r →
      (t.openSession conn username).sessionAt y = t.sessionAt y := by
    rintro y r ⟨ρ, -, hy⟩
    exact Function.update_of_ne (hc.member_lt ρ y hy).ne _ _
  constructor
  · intro h x hx r hxr
    have hcurrent := (h x r hxr).1
    rw [hsession hxr, hc.fd_eq _ x hx, openSession, AList.lookup_insert,
      Option.some.injEq] at hcurrent
    exact absurd (hc.session_lt _ x hx) (hcurrent ▸ lt_irrefl _)
  · intro h y r hy
    have hy' : t.InRoom y r := hy
    obtain ⟨hcurrent, hroom⟩ := hg y r hy'
    rw [hsession hy']
    refine ⟨?_, hroom⟩
    have hfd : (t.sessionAt y).conn.fd ≠ conn.fd := fun heq => h y (heq ▸ hcurrent) r hy'
    exact (AList.lookup_insert_ne hfd).trans hcurrent

/-- The creator keeps its old memberships, except in the room whose id was drawn again. -/
theorem noGhosts_create_iff {fd : Int} {x : SessionRef} (hx : t.sessions.lookup fd = some x)
    (id : UInt32) (name : Bytes) :
    (t.create id name x).NoGhosts ↔ t.MemberOnlyOf x (· = id) := by
  have hconn : ∀ y, ((t.create id name x).sessionAt y).conn = (t.sessionAt y).conn := fun y =>
    setRoomId_conn _ id x y
  have hroomId : ∀ y, ((t.create id name x).sessionAt y).roomId =
      if y = x then id else (t.sessionAt y).roomId := fun y => setRoomId_roomId _ x y id
  constructor
  · intro h r hxr
    by_contra hne
    have hroom := (h x r ((inRoom_create hc name).mpr (Or.inl ⟨hxr, hne⟩))).2
    rw [hroomId, if_pos rfl] at hroom
    exact hne hroom.symm
  · intro h y r hy
    rw [hconn, hroomId]
    rcases (inRoom_create hc name).mp hy with ⟨hy, hne⟩ | ⟨rfl, rfl⟩
    · have hyx : y ≠ x := fun heq => hne (h r (heq ▸ hy))
      rw [if_neg hyx]
      exact hg y r hy
    · rw [if_pos rfl]
      exact ⟨(hc.fd_eq fd y hx).symm ▸ hx, rfl⟩

/-- A join leaves the old room, unless that is room 0. -/
theorem noGhosts_join_iff {fd : Int} {x : SessionRef} (hx : t.sessions.lookup fd = some x)
    {id : UInt32} {ρ : RoomRef} (hρ : t.rooms.lookup id = some ρ) :
    (t.join x id ρ).NoGhosts ↔ t.MemberOnlyOf x fun r => r = 0 → id = 0 := by
  have hconn : ∀ y, ((t.join x id ρ).sessionAt y).conn = (t.sessionAt y).conn := fun y => by
    simp [join]
  have hroomId : ∀ y, ((t.join x id ρ).sessionAt y).roomId =
      if y = x then id else (t.sessionAt y).roomId := fun y => by
    simp [join, setRoomId_roomId]
  have hsessions : (t.join x id ρ).sessions = t.sessions := by simp [join]
  constructor
  · rintro h r hxr rfl
    have hstay : (t.join x id ρ).InRoom x 0 :=
      (inRoom_join hc hρ).mpr (Or.inl ⟨hxr, fun h' => h'.2.2 rfl⟩)
    have hroom := (h x 0 hstay).2
    rwa [hroomId, if_pos rfl] at hroom
  · intro h y r hy
    rw [hconn, hroomId, hsessions]
    rcases (inRoom_join hc hρ).mp hy with ⟨hold, hne⟩ | ⟨rfl, rfl⟩
    · obtain ⟨hcurrent, hroom⟩ := hg y r hold
      by_cases hyx : y = x
      · -- the old room was not left, so it is room 0
        subst hyx
        have hr : r = 0 := by
          by_contra hr
          exact hne ⟨rfl, hroom.symm, hr⟩
        rw [if_pos rfl]
        exact ⟨hcurrent, (h r hold hr).trans hr.symm⟩
      · rw [if_neg hyx]
        exact ⟨hcurrent, hroom⟩
    · rw [if_pos rfl]
      exact ⟨(hc.fd_eq fd y hx).symm ▸ hx, rfl⟩

/-- Leaving never makes a ghost. -/
theorem noGhosts_leave (x : SessionRef) (id : UInt32) :
    ((t.leave x).removeEmptyRoom id).NoGhosts := by
  intro y r hy
  obtain ⟨hy, hne⟩ := (inRoom_leave hc).mp (inRoom_removeEmptyRoom.mp hy)
  obtain ⟨hcurrent, hroom⟩ := hg y r hy
  have hyx : y ≠ x := fun heq => hne ⟨heq ▸ hroom.symm, heq⟩
  rw [removeEmptyRoom_sessionAt, removeEmptyRoom_sessions]
  unfold leave
  rw [setRoomId_sessionAt_of_ne _ _ hyx, removeFromRoom_sessionAt, setRoomId_sessions,
    removeFromRoom_sessions]
  exact ⟨hcurrent, hroom⟩

/-- The end of a connection leaves the session's room, unless that is room 0. -/
theorem noGhosts_close_iff {fd : Int} {x : SessionRef} (hx : t.sessions.lookup fd = some x) :
    (t.close fd x).NoGhosts ↔ t.MemberOnlyOf x (· ≠ 0) := by
  constructor
  · rintro h r hxr rfl
    have hcurrent := (h x 0 ((inRoom_close hc fd).mpr ⟨hxr, fun h' => h'.2.2 rfl⟩)).1
    rw [close_sessionAt, close_sessions, hc.fd_eq fd x hx, AList.lookup_erase] at hcurrent
    cases hcurrent
  · intro h y r hy
    obtain ⟨hold, hne⟩ := (inRoom_close hc fd).mp hy
    obtain ⟨hcurrent, hroom⟩ := hg y r hold
    have hfd : (t.sessionAt y).conn.fd ≠ fd := fun heq => by
      obtain rfl : y = x := Option.some.inj ((heq ▸ hcurrent).symm.trans hx)
      exact hne ⟨rfl, hroom.symm, h r hold⟩
    rw [close_sessionAt, close_sessions, AList.lookup_erase_ne hfd]
    exact ⟨hcurrent, hroom⟩

end Step

/-! ## §3 Operations that abandon no member -/

/-- An accepted login comes on a descriptor whose current session is in no room. -/
def LoginAbandonsNone (t : Tables) (env : Env) (conn : Conn) (msg : MyMessage) : Prop :=
  (authenticate env msg).isOk = true →
    ∀ x ∈ t.sessions.lookup conn.fd, t.MemberOnlyOf x fun _ => False

/-- A successful creation comes from a session that is in no room, but for one that the drawn
id replaces. -/
def CreateAbandonsNone (t : Tables) (env : Env) (conn : Conn) (msg : MyMessage) : Prop :=
  msg.payload ≠ [] → env.insertRoom = .executed () →
    ∀ x ∈ t.sessions.lookup conn.fd, t.MemberOnlyOf x fun r => r = t.nextRoomId

/-- A join comes from a session that is not in room 0, but for a join of room 0. -/
def JoinAbandonsNone (t : Tables) (conn : Conn) (msg : MyMessage) : Prop :=
  ∀ n ∈ stoul msg.payload, (t.rooms.lookup n.toUInt32).isSome = true →
    ∀ x ∈ t.sessions.lookup conn.fd, t.MemberOnlyOf x fun r => r = 0 → n.toUInt32 = 0

/-- The connection that ends has a session that is not in room 0. -/
def CloseAbandonsNone (t : Tables) (fd : Int) : Prop :=
  ∀ x ∈ t.sessions.lookup fd, t.MemberOnlyOf x fun r => r ≠ 0

end Tables

namespace Service

/-- The condition on an operation and the state before it. -/
def AbandonsNoMember (s : Service) : Op → Prop
  | .message env conn msg => s.Admitted env conn msg →
    (msg.type = .loginReq → s.LoginAbandonsNone env conn msg) ∧
    (msg.type = .createRoomReq → s.CreateAbandonsNone env conn msg) ∧
    (msg.type = .joinRoomReq → s.JoinAbandonsNone conn msg)
  | .closed _ fd => s.CloseAbandonsNone fd

end Service

namespace Tables

instance (t : Tables) (env : Env) (conn : Conn) (msg : MyMessage) :
    Decidable (t.LoginAbandonsNone env conn msg) := inferInstanceAs (Decidable (_ → ∀ x ∈ _, _))

instance (t : Tables) (env : Env) (conn : Conn) (msg : MyMessage) :
    Decidable (t.CreateAbandonsNone env conn msg) :=
  inferInstanceAs (Decidable (_ → _ → ∀ x ∈ _, _))

-- by hand: the search would run through all of `UInt64`
instance (t : Tables) (conn : Conn) (msg : MyMessage) : Decidable (t.JoinAbandonsNone conn msg) :=
  Option.decidableForallMem (p := fun n : UInt64 => (t.rooms.lookup n.toUInt32).isSome = true →
    ∀ x ∈ t.sessions.lookup conn.fd, t.MemberOnlyOf x fun r => r = 0 → n.toUInt32 = 0)
    (stoul msg.payload)

instance (t : Tables) (fd : Int) : Decidable (t.CloseAbandonsNone fd) :=
  inferInstanceAs (Decidable (∀ x ∈ _, _))

end Tables

namespace Service

instance (s : Service) : (op : Op) → Decidable (s.AbandonsNoMember op)
  | .message .. => inferInstanceAs (Decidable (_ → _ ∧ _ ∧ _))
  | .closed .. => inferInstanceAs (Decidable (Tables.CloseAbandonsNone ..))

end Service

namespace Tables

section Handle

variable {t : Tables} {env : Env} {conn : Conn} {msg : MyMessage} (hc : t.Consistent)
  (hg : t.NoGhosts)
include hc hg

private theorem handle_login_iff (htype : msg.type = .loginReq) :
    (t.handle env conn msg).NoGhosts ↔ t.LoginAbandonsNone env conn msg := by
  unfold handle LoginAbandonsNone
  rw [htype]
  cases hauth : authenticate env msg with
  | error refusal => exact iff_of_true hg fun h => nomatch h
  | ok username =>
    exact (noGhosts_openSession_iff hc hg conn username).trans
      ⟨fun h _ => h, fun h => h rfl⟩

private theorem handle_create_iff (htype : msg.type = .createRoomReq) :
    (t.handle env conn msg).NoGhosts ↔ t.CreateAbandonsNone env conn msg := by
  unfold handle CreateAbandonsNone
  rw [htype]
  cases hx : t.sessions.lookup conn.fd with
  | none => exact iff_of_true hg fun _ _ x hx => nomatch hx
  | some x =>
    dsimp only
    split_ifs with hname hinsert
    · exact iff_of_true hg fun h => absurd hname h
    · refine (noGhosts_create_iff (t := t.drawRoomId) hc.drawRoomId hg hx
        t.nextRoomId msg.payload).trans ⟨fun h _ _ y hy => ?_, fun h => h hname hinsert x rfl⟩
      obtain rfl : x = y := Option.some.inj hy
      exact h
    · exact iff_of_true hg fun _ h => absurd h hinsert

private theorem handle_join_iff (htype : msg.type = .joinRoomReq) :
    (t.handle env conn msg).NoGhosts ↔ t.JoinAbandonsNone conn msg := by
  unfold handle JoinAbandonsNone
  rw [htype]
  cases hx : t.sessions.lookup conn.fd with
  | none => exact iff_of_true hg fun _ _ _ x hx => nomatch hx
  | some x =>
    cases hid : stoul msg.payload with
    | none => exact iff_of_true hg fun n hn => nomatch hn
    | some n =>
      dsimp only
      cases hρ : t.rooms.lookup n.toUInt32 with
      | none =>
        refine iff_of_true hg fun m hm hsome => ?_
        obtain rfl : n = m := Option.some.inj hm
        rw [hρ] at hsome
        cases hsome
      | some ρ =>
        refine (noGhosts_join_iff hc hg hx hρ).trans ⟨fun h m hm _ y hy => ?_, fun h => ?_⟩
        · obtain rfl : n = m := Option.some.inj hm
          obtain rfl : x = y := Option.some.inj hy
          exact h
        · exact h n rfl (by rw [hρ]; rfl) x rfl

private theorem handle_noGhosts_of_other (hlogin : msg.type ≠ .loginReq)
    (hcreate : msg.type ≠ .createRoomReq) (hjoin : msg.type ≠ .joinRoomReq) :
    (t.handle env conn msg).NoGhosts := by
  unfold handle
  cases htype : msg.type with
  | loginReq => exact absurd htype hlogin
  | createRoomReq => exact absurd htype hcreate
  | joinRoomReq => exact absurd htype hjoin
  | leaveRoomReq =>
    cases t.sessions.lookup conn.fd with
    | none => exact hg
    | some x => exact noGhosts_leave hc hg x _
  | _ => exact hg

end Handle

end Tables

namespace Service

private theorem handle_noGhosts_iff {s : Service} {env : Env} {conn : Conn} {msg : MyMessage}
    (hc : s.toTables.Consistent) (hg : s.NoGhosts) (hpass : s.Admitted env conn msg) :
    (s.toTables.handle env conn msg).NoGhosts ↔ s.AbandonsNoMember (.message env conn msg) := by
  constructor
  · exact fun h _ => ⟨fun htype => (Tables.handle_login_iff hc hg htype).mp h,
      fun htype => (Tables.handle_create_iff hc hg htype).mp h,
      fun htype => (Tables.handle_join_iff hc hg htype).mp h⟩
  · intro h
    obtain ⟨hlogin, hcreate, hjoin⟩ := h hpass
    by_cases htype : msg.type = .loginReq
    · exact (Tables.handle_login_iff hc hg htype).mpr (hlogin htype)
    by_cases htype' : msg.type = .createRoomReq
    · exact (Tables.handle_create_iff hc hg htype').mpr (hcreate htype')
    by_cases htype'' : msg.type = .joinRoomReq
    · exact (Tables.handle_join_iff hc hg htype'').mpr (hjoin htype'')
    · exact Tables.handle_noGhosts_of_other hc hg htype htype' htype''

/-- The step lemma: from a state without ghosts, an operation makes a ghost exactly when it
abandons a member. -/
theorem apply_noGhosts_iff {s : Service} {op : Op} (hc : s.toTables.Consistent)
    (hg : s.NoGhosts) : (s.apply op).NoGhosts ↔ s.AbandonsNoMember op := by
  cases op with
  | message env conn msg =>
    by_cases hpass : s.Admitted env conn msg
    · rw [apply, handleMessage_of_admitted hpass]
      exact handle_noGhosts_iff hc hg hpass
    · rw [apply, handleMessage_of_not_admitted hpass]
      exact iff_of_true hg fun h => absurd h hpass
  | closed env fd =>
    rw [apply, onConnectionClosed_toTables]
    cases hx : s.sessions.lookup fd with
    | none =>
      refine iff_of_true hg fun x hx' => ?_
      rw [hx] at hx'
      cases hx'
    | some x =>
      refine (Tables.noGhosts_close_iff hc hg hx).trans ?_
      constructor
      · intro h y hy
        obtain rfl : x = y := Option.some.inj (hx.symm.trans hy)
        exact h
      · exact fun h => h x hx

/-- What is asked of the state `s` after the operations `ops`: no ghosts, so no session in two
rooms, and no member left of a connection that was just closed. -/
structure MembersAreCurrent (ops : List Op) (s : Service) : Prop where
  current : s.NoGhosts
  one_room : ∀ y r r', s.InRoom y r → s.InRoom y r' → r = r'
  closed : ∀ env fd, ops.getLast? = some (.closed env fd) →
    ∀ y r, s.InRoom y r → (s.sessionAt y).conn.fd ≠ fd

theorem membersAreCurrent_of_noGhosts {first : UInt32} {ops : List Op} {s : Service}
    (hrun : run Service.step (.init first) ops = some s) (hg : s.NoGhosts) :
    MembersAreCurrent ops s := by
  refine ⟨hg, fun y r r' hr hr' => (hg y r hr).2.symm.trans (hg y r' hr').2, ?_⟩
  rintro env fd hlast y r hy rfl
  obtain ⟨pre, rfl⟩ : ∃ pre, ops = pre ++ [.closed env (s.sessionAt y).conn.fd] :=
    List.getLast?_eq_some_iff.mp hlast
  obtain ⟨v, -, hv⟩ := run_append.mp hrun
  have hs : v.onConnectionClosed env (s.sessionAt y).conn.fd = s := by
    simpa [run_cons, Service.step, apply] using hv
  have hnone := v.lookup_closed env (s.sessionAt y).conn.fd
  rw [hs, (hg y r hy).1] at hnone
  cases hnone

/-- **No ghosts, exactly.**  Membership is current in every state of a run exactly when no
operation of the run abandons a member. -/
theorem members_are_current_iff {first : UInt32} {ops : List Op} {s : Service}
    (hrun : run Service.step (.init first) ops = some s) :
    (∀ pre post v, ops = pre ++ post → run Service.step (.init first) pre = some v →
      MembersAreCurrent pre v) ↔
    Meets Service.step AbandonsNoMember (.init first) ops := by
  have hinit : (Service.init first).NoGhosts := by
    rintro y r ⟨ρ, hρ, -⟩
    simp [Service.init, Tables.init] at hρ
  have hstates := meets_iff_forall_state (G := AbandonsNoMember)
    (I := fun s => s.toTables.Consistent) (P := fun s => s.NoGhosts)
    (fun s op t hc hstep => by
      obtain rfl : s.apply op = t := Option.some.inj hstep
      exact (s.apply_effect op).consistent hc)
    (fun s op t hc hg hstep => by
      obtain rfl : s.apply op = t := Option.some.inj hstep
      exact apply_noGhosts_iff hc hg)
    (Tables.Consistent.init first) hinit hrun
  rw [hstates]
  constructor
  · exact fun h pre post v heq hv => (h pre post v heq hv).current
  · exact fun h pre post v heq hv => membersAreCurrent_of_noGhosts hv (h pre post v heq hv)

/-- A session leaves its room before its connection logs in again. -/
def leaveBeforeRelogin : List Op :=
  [request ⟨0, 5⟩ .loginReq "ann|pw", request ⟨1, 6⟩ .loginReq "bob|pw",
    request ⟨0, 5⟩ .createRoomReq "r", request ⟨1, 6⟩ .joinRoomReq "1",
    request ⟨0, 5⟩ .leaveRoomReq "", request ⟨0, 5⟩ .loginReq "ann|pw",
    .closed ⟨0, .noConnection, .noConnection, .reply⟩ 6]

theorem members_are_current_iff_leave :
    ∃ s, run Service.step (.init 1) leaveBeforeRelogin = some s ∧
      ∀ pre post v, leaveBeforeRelogin = pre ++ post →
        run Service.step (.init 1) pre = some v → MembersAreCurrent pre v :=
  ⟨_, rfl, (members_are_current_iff rfl).mpr (by decide +kernel)⟩

/-- A connection logs in again while its session is in a room, and ends. -/
def reloginInRoom : List Op :=
  [request ⟨0, 5⟩ .loginReq "ann|pw", request ⟨0, 5⟩ .createRoomReq "r",
    request ⟨0, 5⟩ .loginReq "ann|pw", .closed ⟨0, .noConnection, .noConnection, .reply⟩ 5]

/-- A session in a room creates another one. -/
def createInRoom : List Op :=
  [request ⟨0, 5⟩ .loginReq "ann|pw", request ⟨0, 5⟩ .createRoomReq "r",
    request ⟨0, 5⟩ .createRoomReq "q"]

/-- The session of the first login outlives its connection in room 1; a creator is a member of
both rooms it made. -/
theorem relogin_leaves_ghost :
    (∃ s, run Service.step (.init 1) reloginInRoom = some s ∧
      s.InRoom 0 1 ∧ (s.sessionAt 0).conn.fd = 5 ∧ ¬ MembersAreCurrent reloginInRoom s) ∧
    (∃ s, run Service.step (.init 1) createInRoom = some s ∧
      s.InRoom 0 1 ∧ s.InRoom 0 2 ∧ ¬ MembersAreCurrent createInRoom s) := by
  constructor
  · have hlast : ((run Service.step (.init 1) reloginInRoom).any fun s =>
        decide ((s.rooms.lookup 1 = some 0 ∧ 0 ∈ (s.roomAt 0).members) ∧
          (s.sessionAt 0).conn.fd = 5)) = true := by
      decide +kernel
    obtain ⟨s, hrun, hs⟩ := exists_of_run_any hlast
    obtain ⟨hroom, hfd⟩ := of_decide_eq_true hs
    have hin : s.InRoom 0 1 := ⟨0, hroom⟩
    exact ⟨s, hrun, hin, hfd, fun h => h.closed _ 5 rfl 0 1 hin hfd⟩
  · have hlast : ((run Service.step (.init 1) createInRoom).any fun s =>
        decide ((s.rooms.lookup 1 = some 0 ∧ 0 ∈ (s.roomAt 0).members) ∧
          (s.rooms.lookup 2 = some 1 ∧ 0 ∈ (s.roomAt 1).members))) = true := by
      decide +kernel
    obtain ⟨s, hrun, hs⟩ := exists_of_run_any hlast
    obtain ⟨hfirst, hsecond⟩ := of_decide_eq_true hs
    have hin : s.InRoom 0 1 := ⟨0, hfirst⟩
    have hin' : s.InRoom 0 2 := ⟨1, hsecond⟩
    exact ⟨s, hrun, hin, hin', fun h => absurd (h.one_room 0 1 2 hin hin') (by decide)⟩

end Service

end EchoNet.Chat
