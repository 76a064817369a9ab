import EchoNet.Chat.Tables

/-!
# Membership of the Current Sessions

A session that `sessions_` knows and that believes it is in a room is a member of that room,
once, and the room is registered.  Two auxiliary facts carry it: `members_` never has a
session twice, and an id that `next_room_id_` hands out is not in use as long as fewer than
`2 ^ 32` rooms were created.

## Main results

- `Consistent`: the invariant of the tables that needs no bound.
- `Tables.Placed`: the membership of one session.
- `memberInv_run`: the membership of every current session, after any operations.
- `handleSendMessage_sent`: what `handleSendMessage` sends.
-/

namespace EchoNet.Chat

open EchoNet.Lib EchoNet.Protocol EchoNet.RateLimit

namespace Tables

/-! ## §1 Consistent tables -/

/-- References are allocated, both tables map a key to an object of that key, and a member
list has no duplicates. -/
structure Consistent (t : Tables) : Prop where
  session_lt : ∀ fd x, t.sessions.lookup fd = some x → x < t.freshSession
  member_lt : ∀ ρ x, x ∈ (t.roomAt ρ).members → x < t.freshSession
  room_lt : ∀ id ρ, t.rooms.lookup id = some ρ → ρ < t.freshRoom
  fd_eq : ∀ fd x, t.sessions.lookup fd = some x → (t.sessionAt x).conn.fd = fd
  id_eq : ∀ id ρ, t.rooms.lookup id = some ρ → (t.roomAt ρ).id = id
  nodup : ∀ ρ, (t.roomAt ρ).members.Nodup

theorem Consistent.init (firstRoomId : UInt32) : (Tables.init firstRoomId).Consistent := by
  constructor <;> simp [Tables.init]

namespace Consistent

variable {t : Tables} (h : t.Consistent)
include h

/-- A room is registered under one id only. -/
theorem room_unique {id id' : UInt32} {ρ : RoomRef} (hid : t.rooms.lookup id = some ρ)
    (hid' : t.rooms.lookup id' = some ρ) : id = id' :=
  (h.id_eq id ρ hid).symm.trans (h.id_eq id' ρ hid')

/-- A session is current for one descriptor only. -/
theorem session_unique {fd fd' : Int} {x : SessionRef} (hx : t.sessions.lookup fd = some x)
    (hx' : t.sessions.lookup fd' = some x) : fd = fd' :=
  (h.fd_eq fd x hx).symm.trans (h.fd_eq fd' x hx')

theorem setRoomId (x : SessionRef) (id : UInt32) : (t.setRoomId x id).Consistent :=
  { h with fd_eq := fun fd y hy => by rw [setRoomId_conn]; exact h.fd_eq fd y hy }

theorem addMember (ρ : RoomRef) {x : SessionRef} (hx : x < t.freshSession) :
    (t.addMember ρ x).Consistent := by
  refine { h with member_lt := fun σ y hy => ?_, id_eq := fun id σ hσ => ?_, nodup := fun σ => ?_ }
  · rcases (t.mem_addMember x y ρ σ).mp hy with hy | ⟨-, rfl⟩
    · exact h.member_lt σ y hy
    · exact hx
  · rw [addMember_roomAt]
    split_ifs
    · rw [Room.addMember_id]
      exact h.id_eq id σ hσ
    · exact h.id_eq id σ hσ
  · rw [addMember_roomAt]
    split_ifs
    · exact Room.nodup_addMember (h.nodup σ) x
    · exact h.nodup σ

theorem removeFromRoom (id : UInt32) (x : SessionRef) : (t.removeFromRoom id x).Consistent := by
  refine ⟨by simpa using h.session_lt, fun σ y hy => ?_, by simpa using h.room_lt,
    by simpa using h.fd_eq, fun id' σ hσ => ?_, fun σ => ?_⟩
  · rw [removeFromRoom_freshSession]
    exact h.member_lt σ y ((t.mem_removeFromRoom id x y σ).mp hy).1
  · rw [removeFromRoom_rooms] at hσ
    rw [removeFromRoom_roomAt]
    split_ifs
    · exact h.id_eq id' σ hσ
    · exact h.id_eq id' σ hσ
  · rw [removeFromRoom_roomAt]
    split_ifs
    · exact Room.nodup_removeMember (h.nodup σ) x
    · exact h.nodup σ

theorem removeEmptyRoom (id : UInt32) : (t.removeEmptyRoom id).Consistent := by
  refine ⟨by simpa using h.session_lt, by simpa using h.member_lt, fun id' σ hσ => ?_,
    by simpa using h.fd_eq, fun id' σ hσ => ?_, by simpa using h.nodup⟩
  · rw [removeEmptyRoom_freshRoom]
    exact h.room_lt id' σ ((t.lookup_removeEmptyRoom id σ id').mp hσ).1
  · rw [removeEmptyRoom_roomAt]
    exact h.id_eq id' σ ((t.lookup_removeEmptyRoom id σ id').mp hσ).1

theorem openSession (conn : Conn) (username : Bytes) :
    (t.openSession conn username).Consistent := by
  have hlookup : ∀ fd x, (t.openSession conn username).sessions.lookup fd = some x →
      (fd = conn.fd ∧ x = t.freshSession) ∨ t.sessions.lookup fd = some x := by
    intro fd x hx
    by_cases hfd : fd = conn.fd
    · subst hfd
      rw [Tables.openSession, AList.lookup_insert, Option.some.injEq] at hx
      exact Or.inl ⟨rfl, hx.symm⟩
    · rw [Tables.openSession, AList.lookup_insert_ne hfd] at hx
      exact Or.inr hx
  refine ⟨fun fd x hx => ?_, fun ρ x hx => Nat.lt_succ_of_lt (h.member_lt ρ x hx), h.room_lt,
    fun fd x hx => ?_, h.id_eq, h.nodup⟩
  · rcases hlookup fd x hx with ⟨-, rfl⟩ | hx
    · exact Nat.lt_succ_self _
    · exact Nat.lt_succ_of_lt (h.session_lt fd x hx)
  · rcases hlookup fd x hx with ⟨rfl, rfl⟩ | hx
    · simp [Tables.openSession]
    · have hne : x ≠ t.freshSession := (h.session_lt fd x hx).ne
      simpa [Tables.openSession, hne] using h.fd_eq fd x hx

theorem drawRoomId : t.drawRoomId.Consistent := { h with }

theorem newRoom (id : UInt32) (name : Bytes) : (t.newRoom id name).Consistent := by
  have hlookup : ∀ id' σ, (t.newRoom id name).rooms.lookup id' = some σ →
      (id' = id ∧ σ = t.freshRoom) ∨ t.rooms.lookup id' = some σ := by
    intro id' σ hσ
    by_cases hid : id' = id
    · subst hid
      rw [Tables.newRoom, AList.lookup_insert, Option.some.injEq] at hσ
      exact Or.inl ⟨rfl, hσ.symm⟩
    · rw [Tables.newRoom, AList.lookup_insert_ne hid] at hσ
      exact Or.inr hσ
  have hroom : ∀ σ, (t.newRoom id name).roomAt σ =
      if σ = t.freshRoom then ⟨id, name, []⟩ else t.roomAt σ := fun σ =>
    Function.update_apply _ _ _ _
  refine ⟨h.session_lt, fun σ x hx => ?_, fun id' σ hσ => ?_, h.fd_eq, fun id' σ hσ => ?_,
    fun σ => ?_⟩
  · rw [hroom] at hx
    split_ifs at hx
    · cases hx
    · exact h.member_lt σ x hx
  · rcases hlookup id' σ hσ with ⟨-, rfl⟩ | hσ
    · exact Nat.lt_succ_self _
    · exact Nat.lt_succ_of_lt (h.room_lt id' σ hσ)
  · rcases hlookup id' σ hσ with ⟨rfl, rfl⟩ | hσ
    · rw [hroom, if_pos rfl]
    · rw [hroom, if_neg (h.room_lt id' σ hσ).ne]
      exact h.id_eq id' σ hσ
  · rw [hroom]
    split_ifs
    · exact List.nodup_nil
    · exact h.nodup σ

theorem dropSession (fd : Int) : (t.dropSession fd).Consistent := by
  have hlookup : ∀ fd' x, (t.dropSession fd).sessions.lookup fd' = some x →
      t.sessions.lookup fd' = some x := by
    intro fd' x hx
    by_cases hfd : fd' = fd
    · subst hfd
      rw [Tables.dropSession, AList.lookup_erase] at hx
      cases hx
    · rwa [Tables.dropSession, AList.lookup_erase_ne hfd] at hx
  exact { h with
    session_lt := fun fd' x hx => h.session_lt fd' x (hlookup fd' x hx)
    fd_eq := fun fd' x hx => h.fd_eq fd' x (hlookup fd' x hx) }

theorem create {x : SessionRef} (hx : x < t.freshSession) (id : UInt32) (name : Bytes) :
    (t.create id name x).Consistent :=
  ((h.newRoom id name).addMember _ hx).setRoomId x id

theorem leaveOld (x : SessionRef) : (t.leaveOld x).Consistent := by
  unfold Tables.leaveOld
  split_ifs
  · exact h
  · exact h.removeFromRoom _ x

theorem join {x : SessionRef} (hx : x < t.freshSession) (id : UInt32) (ρ : RoomRef) :
    (t.join x id ρ).Consistent :=
  ((h.leaveOld x).addMember ρ (by simpa using hx)).setRoomId x id

theorem leave (x : SessionRef) : (t.leave x).Consistent :=
  (h.removeFromRoom _ x).setRoomId x 0

theorem close (fd : Int) (x : SessionRef) : (t.close fd x).Consistent := by
  unfold Tables.close
  split_ifs
  · exact h.dropSession fd
  · exact ((h.dropSession fd).removeFromRoom _ x).removeEmptyRoom _

end Consistent

end Tables

/-- Every operation keeps the tables consistent. -/
theorem Service.Effect.consistent {s : Service} {op : Op} {t : Tables} (h : s.Effect op t)
    (hc : s.toTables.Consistent) : t.Consistent := by
  cases h with
  | unchanged => exact hc
  | login => exact hc.openSession _ _
  | draw => exact hc.drawRoomId
  | create _ _ hx => exact hc.drawRoomId.create (hc.session_lt _ _ hx) _ _
  | join _ _ hx => exact hc.join (hc.session_lt _ _ hx) _ _
  | leave => exact (hc.leave _).removeEmptyRoom _
  | closed => exact hc.close _ _

namespace Tables

/-! ## §2 Placed sessions -/

/-- If the session believes it is in a room, then that room is registered and has it as a
member. -/
def Placed (t : Tables) (y : SessionRef) : Prop :=
  (t.sessionAt y).roomId ≠ 0 →
    ∃ ρ, t.rooms.lookup (t.sessionAt y).roomId = some ρ ∧ y ∈ (t.roomAt ρ).members

namespace Placed

variable {t : Tables} {x y : SessionRef}

theorem of_roomId_zero (h : (t.sessionAt y).roomId = 0) : t.Placed y := fun hne => absurd h hne

theorem setRoomId (h : t.Placed y) (hne : y ≠ x) (id : UInt32) : (t.setRoomId x id).Placed y := by
  unfold Placed
  rw [setRoomId_sessionAt_of_ne t id hne]
  exact h

theorem addMember (h : t.Placed y) (ρ : RoomRef) (x : SessionRef) : (t.addMember ρ x).Placed y := by
  intro hroom
  obtain ⟨σ, hσ, hy⟩ := h hroom
  exact ⟨σ, hσ, (t.mem_addMember x y ρ σ).mpr (Or.inl hy)⟩

theorem removeFromRoom (h : t.Placed y) (hne : y ≠ x) (id : UInt32) :
    (t.removeFromRoom id x).Placed y := by
  intro hroom
  rw [removeFromRoom_sessionAt] at hroom ⊢
  obtain ⟨σ, hσ, hy⟩ := h hroom
  refine ⟨σ, by rwa [removeFromRoom_rooms], (t.mem_removeFromRoom id x y σ).mpr ⟨hy, ?_⟩⟩
  exact fun hyx => hne hyx.2

/-- A room with a member stays. -/
theorem removeEmptyRoom (h : t.Placed y) (id : UInt32) : (t.removeEmptyRoom id).Placed y := by
  intro hroom
  rw [removeEmptyRoom_sessionAt] at hroom ⊢
  obtain ⟨σ, hσ, hy⟩ := h hroom
  refine ⟨σ, (t.lookup_removeEmptyRoom id σ _).mpr ⟨hσ, ?_⟩, by rwa [removeEmptyRoom_roomAt]⟩
  rintro ⟨-, hempty⟩
  rw [hempty] at hy
  cases hy

theorem openSession (h : t.Placed y) (hne : y ≠ t.freshSession) (conn : Conn) (username : Bytes) :
    (t.openSession conn username).Placed y := by
  have hy : (t.openSession conn username).sessionAt y = t.sessionAt y :=
    Function.update_of_ne hne _ _
  unfold Placed
  rw [hy]
  exact h

/-- A new room does not disturb the others, as long as its id is free. -/
theorem newRoom (h : t.Placed y) (hc : t.Consistent) {id : UInt32}
    (hfree : t.rooms.lookup id = none) (name : Bytes) : (t.newRoom id name).Placed y := by
  intro hroom
  obtain ⟨σ, hσ, hy⟩ := h hroom
  have hid : (t.sessionAt y).roomId ≠ id := fun heq => by
    rw [heq, hfree] at hσ
    cases hσ
  refine ⟨σ, (AList.lookup_insert_ne hid).trans hσ, ?_⟩
  have hroomAt : (t.newRoom id name).roomAt σ = t.roomAt σ :=
    Function.update_of_ne (hc.room_lt _ σ hσ).ne _ _
  rwa [hroomAt]

theorem create (h : t.Placed y) (hc : t.Consistent) (hne : y ≠ x) {id : UInt32}
    (hfree : t.rooms.lookup id = none) (name : Bytes) : (t.create id name x).Placed y :=
  ((h.newRoom hc hfree name).addMember _ x).setRoomId hne id

theorem join (h : t.Placed y) (hne : y ≠ x) (id : UInt32) (ρ : RoomRef) :
    (t.join x id ρ).Placed y := by
  have hold : (t.leaveOld x).Placed y := by
    unfold leaveOld
    split_ifs
    · exact h
    · exact h.removeFromRoom hne _
  exact (hold.addMember ρ x).setRoomId hne id

theorem leave (h : t.Placed y) (hne : y ≠ x) : (t.leave x).Placed y :=
  (h.removeFromRoom hne _).setRoomId hne 0

theorem close (h : t.Placed y) (hne : y ≠ x) (fd : Int) : (t.close fd x).Placed y := by
  have hdrop : (t.dropSession fd).Placed y := h
  unfold Tables.close
  split_ifs
  · exact hdrop
  · exact (hdrop.removeFromRoom hne _).removeEmptyRoom _

/-- The creator is in the room it made. -/
theorem create_self (t : Tables) (id : UInt32) (name : Bytes) (x : SessionRef) :
    (t.create id name x).Placed x := by
  intro _
  rw [Tables.create, setRoomId_roomId_self]
  refine ⟨t.freshRoom, AList.lookup_insert _, ?_⟩
  rw [setRoomId_roomAt, mem_addMember]
  exact Or.inr ⟨rfl, rfl⟩

/-- Who joins is in the room it named. -/
theorem join_self {id : UInt32} {ρ : RoomRef} (hρ : t.rooms.lookup id = some ρ)
    (x : SessionRef) : (t.join x id ρ).Placed x := by
  intro _
  rw [Tables.join, setRoomId_roomId_self]
  refine ⟨ρ, by simpa using hρ, ?_⟩
  rw [setRoomId_roomAt, mem_addMember]
  exact Or.inr ⟨rfl, rfl⟩

end Placed

/-! ## §3 Room ids -/

/-- At most `n` ids were drawn, from `first` on, and the registered rooms have such ids. -/
def RoomIds (first : UInt32) (n : Nat) (t : Tables) : Prop :=
  ∃ k ≤ n, t.nextRoomId = first + UInt32.ofNat k ∧
    ∀ id ρ, t.rooms.lookup id = some ρ → ∃ i < k, id = first + UInt32.ofNat i

namespace RoomIds

variable {first : UInt32} {n : Nat} {t t' : Tables}

/-- The next id is free until the counter has gone round. -/
theorem lookup_next (h : t.RoomIds first n) (hn : n < 2 ^ 32) :
    t.rooms.lookup t.nextRoomId = none := by
  obtain ⟨k, hk, hnext, hids⟩ := h
  cases hlookup : t.rooms.lookup t.nextRoomId with
  | none => rfl
  | some ρ =>
    obtain ⟨i, hi, hid⟩ := hids _ ρ hlookup
    have heq : UInt32.ofNat k = UInt32.ofNat i :=
      (UInt32.add_right_inj first).mp (hnext.symm.trans hid)
    have hmod := congrArg UInt32.toNat heq
    rw [UInt32.toNat_ofNat_of_lt' (show k < 2 ^ 32 by omega),
      UInt32.toNat_ofNat_of_lt' (show i < 2 ^ 32 by omega)] at hmod
    omega

/-- A transition that draws no id and registers no room. -/
theorem of_sub (h : t.RoomIds first n) {m : Nat} (hm : n ≤ m)
    (hnext : t'.nextRoomId = t.nextRoomId)
    (hsub : ∀ id ρ, t'.rooms.lookup id = some ρ → t.rooms.lookup id = some ρ) :
    t'.RoomIds first m := by
  obtain ⟨k, hk, hk', hids⟩ := h
  exact ⟨k, hk.trans hm, hnext.trans hk', fun id ρ hρ => hids id ρ (hsub id ρ hρ)⟩

/-- A transition that draws an id and registers at most a room under it. -/
theorem of_draw (h : t.RoomIds first n) (hnext : t'.nextRoomId = t.nextRoomId + 1)
    (hsub : ∀ id ρ, t'.rooms.lookup id = some ρ → id = t.nextRoomId ∨ t.rooms.lookup id = some ρ) :
    t'.RoomIds first (n + 1) := by
  obtain ⟨k, hk, hk', hids⟩ := h
  refine ⟨k + 1, by omega, ?_, fun id ρ hρ => ?_⟩
  · rw [hnext, hk', UInt32.ofNat_add, UInt32.add_assoc]
    rfl
  · rcases hsub id ρ hρ with rfl | hρ
    · exact ⟨k, Nat.lt_succ_self k, hk'⟩
    · obtain ⟨i, hi, hid⟩ := hids id ρ hρ
      exact ⟨i, Nat.lt_succ_of_lt hi, hid⟩

end RoomIds

@[simp] theorem close_nextRoomId (t : Tables) (fd : Int) (x : SessionRef) :
    (t.close fd x).nextRoomId = t.nextRoomId := by
  unfold close
  split_ifs <;> simp [dropSession]

theorem lookup_of_lookup_close {t : Tables} {fd : Int} {x : SessionRef} {id : UInt32}
    {ρ : RoomRef} (h : (t.close fd x).rooms.lookup id = some ρ) : t.rooms.lookup id = some ρ := by
  unfold close at h
  split_ifs at h
  · exact h
  · simpa using ((lookup_removeEmptyRoom ..).mp h).1

end Tables

/-- A `CREATE_ROOM_REQ`. -/
def Op.isCreate : Op → Bool
  | .message _ _ msg => msg.type = .createRoomReq
  | .closed _ _ => false

/-! ## §4 Runs -/

/-- The invariant behind the membership of the current sessions. -/
structure MemberInv (first : UInt32) (n : Nat) (t : Tables) : Prop where
  consistent : t.Consistent
  ids : t.RoomIds first n
  placed : ∀ fd x, t.sessions.lookup fd = some x → t.Placed x

theorem MemberInv.init (first : UInt32) : MemberInv first 0 (Tables.init first) :=
  ⟨.init first, ⟨0, le_refl 0, by simp [Tables.init], fun id ρ h => by simp [Tables.init] at h⟩,
    fun fd x h => by simp [Tables.init] at h⟩

namespace Service

private theorem Effect.roomIds {first : UInt32} {n : Nat} {s : Service} {op : Op} {t : Tables}
    (h : s.Effect op t) (hids : s.toTables.RoomIds first n) :
    t.RoomIds first (n + if op.isCreate then 1 else 0) := by
  cases h with
  | unchanged => exact hids.of_sub (Nat.le_add_right ..) rfl fun _ _ => id
  | login => exact hids.of_sub (Nat.le_add_right ..) rfl fun _ _ => id
  | draw _ htype =>
    rw [if_pos (by simpa [Op.isCreate] using htype)]
    exact hids.of_draw rfl fun _ _ => Or.inr
  | create _ htype =>
    rw [if_pos (by simpa [Op.isCreate] using htype)]
    refine hids.of_draw rfl fun id ρ hρ => ?_
    by_cases hid : id = s.nextRoomId
    · exact Or.inl hid
    · exact Or.inr ((AList.lookup_insert_ne hid).symm.trans hρ)
  | join =>
    refine hids.of_sub (Nat.le_add_right ..) (by simp [Tables.join]) fun id ρ h => ?_
    simpa [Tables.join] using h
  | leave =>
    refine hids.of_sub (Nat.le_add_right ..) (by simp [Tables.leave]) fun id ρ h => ?_
    simpa [Tables.leave] using ((Tables.lookup_removeEmptyRoom ..).mp h).1
  | closed =>
    exact hids.of_sub (Nat.le_add_right ..) (by simp) fun _ _ => Tables.lookup_of_lookup_close

private theorem Effect.placed {s : Service} {op : Op} {t : Tables} (h : s.Effect op t)
    (hc : s.toTables.Consistent)
    (hfree : op.isCreate = true → s.rooms.lookup s.nextRoomId = none)
    (hplaced : ∀ fd x, s.sessions.lookup fd = some x → s.Placed x) :
    ∀ fd x, t.sessions.lookup fd = some x → t.Placed x := by
  intro fd y hy
  cases h with
  | unchanged => exact hplaced fd y hy
  | draw => exact hplaced fd y hy
  | @login env conn msg username =>
    by_cases hfd : fd = conn.fd
    · subst hfd
      rw [Tables.openSession, AList.lookup_insert, Option.some.injEq] at hy
      subst hy
      exact .of_roomId_zero (by simp [Tables.openSession])
    · rw [Tables.openSession, AList.lookup_insert_ne hfd] at hy
      exact (hplaced fd y hy).openSession (hc.session_lt fd y hy).ne conn username
  | @create _ _ msg x _ htype =>
    have hfree' := hfree (by simpa [Op.isCreate] using htype)
    by_cases hne : y = x
    · subst hne
      exact .create_self _ _ _ _
    · have hdraw : s.toTables.drawRoomId.Placed y := hplaced fd y hy
      exact hdraw.create hc.drawRoomId hne hfree' _
  | @join _ _ _ x n ρ _ _ _ _ hρ =>
    by_cases hne : y = x
    · subst hne
      exact .join_self hρ y
    · exact (hplaced fd y (by simpa [Tables.join] using hy)).join hne _ ρ
  | @leave _ _ _ x =>
    by_cases hne : y = x
    · subst hne
      refine .of_roomId_zero ?_
      rw [Tables.removeEmptyRoom_sessionAt]
      exact Tables.setRoomId_roomId_self ..
    · have hy' : s.sessions.lookup fd = some y := by simpa [Tables.leave] using hy
      exact ((hplaced fd y hy').leave hne).removeEmptyRoom _
  | @closed _ fd' x hx =>
    have hy' : (s.toTables.dropSession fd').sessions.lookup fd = some y := by
      unfold Tables.close at hy
      split_ifs at hy
      · exact hy
      · simpa using hy
    by_cases hfd : fd = fd'
    · subst hfd
      rw [Tables.dropSession, AList.lookup_erase] at hy'
      cases hy'
    · rw [Tables.dropSession, AList.lookup_erase_ne hfd] at hy'
      have hne : y ≠ x := fun heq => hfd (hc.session_unique hy' (heq ▸ hx))
      exact (hplaced fd y hy').close hne fd'

/-- The step lemma. -/
theorem memberInv_step {first : UInt32} {n : Nat} {s s' : Service} {op : Op}
    (h : MemberInv first n s.toTables) (hbudget : op.isCreate = true → n < 2 ^ 32)
    (hstep : s.step op = some s') :
    MemberInv first (n + if op.isCreate then 1 else 0) s'.toTables := by
  obtain rfl : s.apply op = s' := Option.some.inj hstep
  have heffect := s.apply_effect op
  exact ⟨heffect.consistent h.consistent, heffect.roomIds h.ids,
    heffect.placed h.consistent (fun hop => h.ids.lookup_next (hbudget hop)) h.placed⟩

/-- The run lemma. -/
theorem memberInv_run {first : UInt32} {ops : List Op} {s : Service}
    (hrun : run Service.step (.init first) ops = some s)
    (hcreates : ops.countP Op.isCreate < 2 ^ 32) :
    MemberInv first (ops.countP Op.isCreate) s.toTables := by
  have h := run_invariant_countP (P := fun n (s : Service) => MemberInv first n s.toTables)
    (fun n s a t hP hbudget hstep => memberInv_step hP hbudget hstep)
    (MemberInv.init first) (by simpa using hcreates.le) hrun
  simpa using h

/-! ## §5 What is sent -/

end Service

/-- What `handleSendMessage` sends. -/
def Tables.sendOutput (t : Tables) (conn : Conn) (msg : MyMessage) : List Sent :=
  match t.sessions.lookup conn.fd with
  | none => [.response conn ⟨.errorResp, msg.id, ascii "Not logged in"⟩]
  | some x =>
    if (t.sessionAt x).roomId = 0 then
      [.response conn ⟨.errorResp, msg.id, ascii "Not in any room"⟩]
    else
      match t.rooms.lookup (t.sessionAt x).roomId with
      | none => [.response conn ⟨.errorResp, msg.id, ascii "Room not found"⟩]
      | some ρ =>
        ((t.roomAt ρ).members.map fun y => .push y
          (chatMessage (t.sessionAt x).roomId (t.sessionAt x).username msg.payload)) ++
          [.response conn ⟨.sendMsgResp, msg.id, ascii "OK"⟩]

namespace Service

theorem handleSendMessage_sent (s : Service) (conn : Conn) (msg : MyMessage) :
    (s.handleSendMessage conn msg).sent = s.sent ++ s.toTables.sendOutput conn msg := by
  unfold handleSendMessage Tables.sendOutput getSessionByConn getSessionByFd getRoomById
  cases s.sessions.lookup conn.fd with
  | none => rfl
  | some x =>
    dsimp only
    split_ifs
    · rfl
    · cases s.rooms.lookup (s.sessionAt x).roomId with
      | none => rfl
      | some ρ => simp [respond, broadcast]

/-- A `SEND_MSG_REQ` is refused by the limiters or handled. -/
theorem handleMessage_sent_of_send {s : Service} {env : Env} {conn : Conn} {msg : MyMessage}
    (htype : msg.type = .sendMsgReq) :
    (s.handleMessage env conn msg).sent = s.sent ++
      if s.Admitted env conn msg then s.toTables.sendOutput conn msg
      else [.response conn ⟨.errorResp, msg.id, ascii "RATE_LIMITED"⟩] := by
  split_ifs with hpass
  · obtain ⟨s', htables, hsent, heq⟩ := handleMessage_eq_dispatch hpass
    rw [heq, dispatch, htype]
    dsimp only
    rw [handleSendMessage_sent, countRequest_toTables, htables, ← hsent]
    rfl
  · obtain ⟨s', -, hsent, heq⟩ := handleMessage_eq_limited hpass
    rw [heq, ← hsent]
    rfl

/-- A request at time 0 while MySQL and Redis work and the password is `"pw"`. -/
def request (conn : Conn) (type : MyType) (payload : String) : Op :=
  .message ⟨0, .executed (.row (ascii "pw")), .executed (), .reply⟩ conn ⟨type, 1, ascii payload⟩

end Service

end EchoNet.Chat
