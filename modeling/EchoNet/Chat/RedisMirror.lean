import EchoNet.Chat.Changes
import EchoNet.Chat.Ghosts

/-!
# The Rooms in Redis

`handleJionRoom` adds the user to the set `room:<id>:members` and `handleLeaveRoom` takes it out.
The other operations that change a member list (the creation of a room, the part of a join that
leaves the old room, the end of a connection) send Redis nothing about it.

## Main results

- `rooms_mirrored_iff`: from empty stores, while Redis answers, the sets mirror the member lists in
  every state of a run exactly when no creation of the run succeeds; from a state where they do,
  exactly when every operation keeps the two in step.
- `create_is_not_mirrored`: the creator is missing in Redis.
-/

namespace EchoNet.Chat

open EchoNet.Lib EchoNet.Protocol

/-! ## §1 The mirror -/

/-- The set of a registered room has the user ids of its members; there is no other set. -/
structure Redis.Mirrors (k : Redis) (t : Tables) : Prop where
  registered : ∀ r ρ, t.rooms.lookup r = some ρ → ∀ user,
    (r, user) ∈ k.members ↔ ∃ x ∈ (t.roomAt ρ).members, (t.sessionAt x).userId = user
  unregistered : ∀ r, t.rooms.lookup r = none → ∀ user, (r, user) ∉ k.members

namespace Tables

/-- A session of this user is a member of the room registered under `r`. -/
def HasUser (t : Tables) (r user : UInt32) : Prop :=
  ∃ x, t.InRoom x r ∧ (t.sessionAt x).userId = user

/-- The members of the room registered under `r`. -/
def membersOf (t : Tables) (r : UInt32) : List SessionRef :=
  match t.rooms.lookup r with
  | none => []
  | some ρ => (t.roomAt ρ).members

theorem mem_membersOf {t : Tables} {y : SessionRef} {r : UInt32} :
    y ∈ t.membersOf r ↔ t.InRoom y r := by
  unfold membersOf InRoom
  cases t.rooms.lookup r <;> simp

/-- Another session of the user of `x` is a member of the room registered under `r`. -/
def HasTwin (t : Tables) (x : SessionRef) (r : UInt32) : Prop :=
  ∃ y ∈ t.membersOf r, y ≠ x ∧ (t.sessionAt y).userId = (t.sessionAt x).userId

instance (t : Tables) (x : SessionRef) (r : UInt32) : Decidable (t.HasTwin x r) :=
  inferInstanceAs (Decidable (∃ y ∈ _, _))

end Tables

theorem Redis.mirrors_iff {k : Redis} {t : Tables} :
    k.Mirrors t ↔ ∀ r user, (r, user) ∈ k.members ↔ t.HasUser r user := by
  constructor
  -- a room that is not registered has no users
  · intro h r user
    cases hρ : t.rooms.lookup r with
    | none =>
      refine iff_of_false (h.unregistered r hρ user) ?_
      rintro ⟨x, ⟨σ, hσ, -⟩, -⟩
      rw [hρ] at hσ
      cases hσ
    | some ρ =>
      rw [h.registered r ρ hρ]
      constructor
      · rintro ⟨x, hx, hu⟩
        exact ⟨x, ⟨ρ, hρ, hx⟩, hu⟩
      · rintro ⟨x, ⟨σ, hσ, hx⟩, hu⟩
        obtain rfl : ρ = σ := Option.some.inj (hρ.symm.trans hσ)
        exact ⟨x, hx, hu⟩
  · intro h
    constructor
    · intro r ρ hρ user
      rw [h]
      constructor
      · rintro ⟨x, ⟨σ, hσ, hx⟩, hu⟩
        obtain rfl : ρ = σ := Option.some.inj (hρ.symm.trans hσ)
        exact ⟨x, hx, hu⟩
      · rintro ⟨x, hx, hu⟩
        exact ⟨x, ⟨ρ, hρ, hx⟩, hu⟩
    · intro r hr user
      rw [h]
      rintro ⟨x, ⟨σ, hσ, -⟩, -⟩
      rw [hr] at hσ
      cases hσ

namespace Tables

/-! ## §2 Users of rooms -/

section HasUser

variable {t : Tables} (hc : t.Consistent) {x : SessionRef} {r id user : UInt32}
include hc

/-- A login changes nothing for the members. -/
theorem hasUser_openSession (conn : Conn) (username : Bytes) :
    (t.openSession conn username).HasUser r user ↔ t.HasUser r user := by
  have hsession : ∀ y, t.InRoom y r →
      (t.openSession conn username).sessionAt y = t.sessionAt y := by
    rintro y ⟨ρ, -, hy⟩
    exact Function.update_of_ne (hc.member_lt ρ y hy).ne _ _
  constructor
  · rintro ⟨y, hy, hu⟩
    exact ⟨y, hy, hsession y hy ▸ hu⟩
  · rintro ⟨y, hy, hu⟩
    exact ⟨y, hy, (hsession y hy).symm ▸ hu⟩

/-- The new room has the creator's user and no other. -/
theorem hasUser_create (name : Bytes) :
    (t.create id name x).HasUser r user ↔
      if r = id then user = (t.sessionAt x).userId else t.HasUser r user := by
  have huser : ∀ y, ((t.create id name x).sessionAt y).userId = (t.sessionAt y).userId :=
    fun y => setRoomId_userId _ id x y
  unfold HasUser
  simp only [inRoom_create hc, huser]
  split_ifs with hr
  -- in the new room the creator is alone
  · constructor
    · rintro ⟨y, ⟨-, hne⟩ | ⟨-, rfl⟩, hu⟩
      · exact absurd hr hne
      · exact hu.symm
    · rintro rfl
      exact ⟨x, Or.inr ⟨hr, rfl⟩, rfl⟩
  · constructor
    · rintro ⟨y, ⟨hy, -⟩ | ⟨hid, -⟩, hu⟩
      · exact ⟨y, hy, hu⟩
      · exact absurd hid hr
    · rintro ⟨y, hy, hu⟩
      exact ⟨y, Or.inl ⟨hy, hr⟩, hu⟩

/-- Who joins brings its user along, and takes it out of the old room. -/
theorem hasUser_join_self {ρ : RoomRef} (hρ : t.rooms.lookup id = some ρ) :
    (t.join x id ρ).HasUser id user ↔ t.HasUser id user ∨ user = (t.sessionAt x).userId := by
  unfold HasUser
  simp only [inRoom_join hc hρ, join_userId]
  constructor
  · rintro ⟨y, ⟨hy, -⟩ | ⟨-, rfl⟩, hu⟩
    · exact Or.inl ⟨y, hy, hu⟩
    · exact Or.inr hu.symm
  · rintro (⟨y, hy, hu⟩ | rfl)
    · by_cases hyx : y = x
      · exact ⟨y, Or.inr ⟨trivial, hyx⟩, hu⟩
      · exact ⟨y, Or.inl ⟨hy, fun h => hyx h.1⟩, hu⟩
    · exact ⟨x, Or.inr ⟨trivial, rfl⟩, rfl⟩

end HasUser

section Without

variable {t u : Tables} {x : SessionRef} {r user : UInt32}
  (huser : ∀ y, (u.sessionAt y).userId = (t.sessionAt y).userId)
include huser

/-- A user is gone from a room when its only session there is gone. -/
theorem hasUser_without (hin : ∀ y, u.InRoom y r ↔ t.InRoom y r ∧ y ≠ x) :
    u.HasUser r user ↔ t.HasUser r user ∧ (user = (t.sessionAt x).userId → t.HasTwin x r) := by
  unfold HasUser HasTwin
  simp only [hin, huser, mem_membersOf]
  constructor
  · rintro ⟨y, ⟨hy, hne⟩, rfl⟩
    exact ⟨⟨y, hy, rfl⟩, fun hu => ⟨y, hy, hne, hu⟩⟩
  · rintro ⟨⟨y, hy, rfl⟩, htwin⟩
    by_cases hyx : y = x
    · subst hyx
      obtain ⟨z, hz, hne, hu⟩ := htwin rfl
      exact ⟨z, ⟨hz, hne⟩, hu⟩
    · exact ⟨y, ⟨hy, hyx⟩, rfl⟩

theorem hasUser_congr (hin : ∀ y, u.InRoom y r ↔ t.InRoom y r) :
    u.HasUser r user ↔ t.HasUser r user := by
  unfold HasUser
  simp only [hin, huser]

/-- A set that is left as it was mirrors the room without `x` exactly when `x` was not in it, or
another session of its user stays. -/
theorem forall_hasUser_without_iff {p : UInt32 → Prop} (hp : ∀ user, p user ↔ t.HasUser r user)
    (hin : ∀ y, u.InRoom y r ↔ t.InRoom y r ∧ y ≠ x) :
    (∀ user, p user ↔ u.HasUser r user) ↔ (t.InRoom x r → t.HasTwin x r) := by
  simp only [hp, hasUser_without huser hin]
  constructor
  · intro h hx
    exact ((h (t.sessionAt x).userId).mp ⟨x, hx, rfl⟩).2 rfl
  · intro h user
    refine ⟨fun hu => ⟨hu, ?_⟩, And.left⟩
    rintro rfl
    by_cases hx : t.InRoom x r
    · exact h hx
    · obtain ⟨y, hy, hu⟩ := hu
      exact ⟨y, mem_membersOf.mpr hy, fun heq => hx (heq ▸ hy), hu⟩

/-- A set from which the user is taken out mirrors the room without `x` exactly when no other
session of its user stays. -/
theorem forall_hasUser_erase_iff {p : UInt32 → Prop} (hp : ∀ user, p user ↔ t.HasUser r user)
    (hin : ∀ y, u.InRoom y r ↔ t.InRoom y r ∧ y ≠ x) :
    (∀ user, (p user ∧ user ≠ (t.sessionAt x).userId) ↔ u.HasUser r user) ↔ ¬ t.HasTwin x r := by
  simp only [hp, hasUser_without huser hin]
  constructor
  · rintro h ⟨y, hy, hne, hu⟩
    have hstay : t.HasUser r (t.sessionAt x).userId := ⟨y, mem_membersOf.mp hy, hu⟩
    exact ((h (t.sessionAt x).userId).mpr ⟨hstay, fun _ => ⟨y, hy, hne, hu⟩⟩).2 rfl
  · intro h user
    exact and_congr_right fun _ => ⟨fun hne heq => absurd heq hne, fun himp heq => h (himp heq)⟩

end Without

/-! ## §3 Changes -/

/-- What an operation needs for the two stores to stay in step:

- a creation, that the drawn id belongs to a room whose members all are of the creator's user;
- to leave a room without telling Redis, that another session of the user stays;
- to leave a room with `SREM`, that no other session of the user stays. -/
def KeepsMirror (t : Tables) : Change → Prop
  | .create x _ => t.membersOf t.nextRoomId ≠ [] ∧
    ∀ y ∈ t.membersOf t.nextRoomId, (t.sessionAt y).userId = (t.sessionAt x).userId
  | .join x id _ => (t.sessionAt x).roomId ≠ 0 → (t.sessionAt x).roomId ≠ id →
    x ∈ t.membersOf (t.sessionAt x).roomId → t.HasTwin x (t.sessionAt x).roomId
  | .leave x => ¬ t.HasTwin x (t.sessionAt x).roomId
  | .close _ x => (t.sessionAt x).roomId ≠ 0 →
    x ∈ t.membersOf (t.sessionAt x).roomId → t.HasTwin x (t.sessionAt x).roomId
  | _ => True

instance (t : Tables) : (c : Change) → Decidable (t.KeepsMirror c)
  | .create .. => inferInstanceAs (Decidable (_ ∧ ∀ y ∈ _, _))
  | .join .. => inferInstanceAs (Decidable (_ → _ → _ → _))
  | .leave _ => inferInstanceAs (Decidable (¬ _))
  | .close .. => inferInstanceAs (Decidable (_ → _ → _))
  | .none | .login .. | .draw => inferInstanceAs (Decidable True)

end Tables

namespace Stores

section Step

variable {k : Stores} {t : Tables} (hc : t.Consistent) (h : k.redis.Mirrors t)
include hc h

/-- Redis learns nothing about a new room. -/
theorem mirrors_create_iff (x : SessionRef) (name : Bytes) :
    (k.after t .reply (.create x name)).redis.Mirrors (t.after (.create x name)) ↔
      t.KeepsMirror (.create x name) := by
  rw [Redis.mirrors_iff] at h ⊢
  change (∀ r user, (r, user) ∈ k.redis.members ↔
    (t.drawRoomId.create t.nextRoomId name x).HasUser r user) ↔ _
  have hnew : ∀ r user, (t.drawRoomId.create t.nextRoomId name x).HasUser r user ↔
      if r = t.nextRoomId then user = (t.sessionAt x).userId else t.HasUser r user :=
    fun r user => Tables.hasUser_create (t := t.drawRoomId) hc.drawRoomId name
  simp only [hnew, h]
  constructor
  · intro h'
    have hid : ∀ user, t.HasUser t.nextRoomId user ↔ user = (t.sessionAt x).userId := by
      simpa using h' t.nextRoomId
    -- nothing was added for the creator, so the set must have had the user already
    obtain ⟨y, hy, -⟩ := (hid _).mpr rfl
    refine ⟨List.ne_nil_of_mem (Tables.mem_membersOf.mpr hy), fun z hz => ?_⟩
    exact (hid _).mp ⟨z, Tables.mem_membersOf.mp hz, rfl⟩
  · rintro ⟨hne, hall⟩ r user
    split_ifs with hr
    · subst hr
      constructor
      · rintro ⟨y, hy, rfl⟩
        exact hall y (Tables.mem_membersOf.mpr hy)
      · rintro rfl
        obtain ⟨y, hy⟩ := List.exists_mem_of_ne_nil _ hne
        exact ⟨y, Tables.mem_membersOf.mp hy, hall y hy⟩
    · exact Iff.rfl

/-- `SADD` is for the new room; Redis learns nothing about the old one. -/
theorem mirrors_join_iff {x : SessionRef} {id : UInt32} {ρ : RoomRef}
    (hρ : t.rooms.lookup id = some ρ) :
    (k.after t .reply (.join x id ρ)).redis.Mirrors (t.after (.join x id ρ)) ↔
      t.KeepsMirror (.join x id ρ) := by
  rw [Redis.mirrors_iff] at h ⊢
  have huser : ∀ y, ((t.join x id ρ).sessionAt y).userId = (t.sessionAt y).userId :=
    fun y => t.join_userId id x y ρ
  have hset : ∀ r user, (r, user) ∈ (k.after t .reply (.join x id ρ)).redis.members ↔
      (r, user) ∈ k.redis.members ∨ (r = id ∧ user = (t.sessionAt x).userId) := by
    intro r user
    change (r, user) ∈ k.redis.members.insert _ ↔ _
    rw [List.mem_insert_iff, Prod.mk.injEq, or_comm]
  have hin : ∀ {r}, r ≠ id → ∀ y, (t.join x id ρ).InRoom y r ↔
      t.InRoom y r ∧ ¬ (y = x ∧ r = (t.sessionAt x).roomId ∧ r ≠ 0) := fun hr y =>
    (Tables.inRoom_join hc hρ).trans (or_iff_left fun h => hr h.1)
  have hleft : (t.sessionAt x).roomId ≠ 0 → (t.sessionAt x).roomId ≠ id →
      ∀ y, (t.join x id ρ).InRoom y (t.sessionAt x).roomId ↔
        t.InRoom y (t.sessionAt x).roomId ∧ y ≠ x := by
    intro hroom hne y
    rw [hin hne]
    simp [hroom]
  simp only [Tables.after, hset]
  constructor
  -- the old room: Redis still has the user
  · intro h' hroom hne
    rw [Tables.mem_membersOf]
    refine (Tables.forall_hasUser_without_iff huser (h _) (hleft hroom hne)).mp fun user => ?_
    rw [← h', or_iff_left fun h => hne h.1]
  · intro hkeep r user
    by_cases hr : r = id
    · subst hr
      rw [Tables.hasUser_join_self hc hρ, h, and_iff_right rfl]
    · rw [or_iff_left fun h => hr h.1]
      -- the new room is in step and the rooms of others are as they were; the old room is the
      -- condition
      by_cases hold : r = (t.sessionAt x).roomId ∧ r ≠ 0
      · obtain ⟨rfl, hroom⟩ := hold
        have htwin := fun hx => hkeep hroom hr (Tables.mem_membersOf.mpr hx)
        exact (Tables.forall_hasUser_without_iff huser (h _) (hleft hroom hr)).mpr htwin user
      · rw [h]
        refine (Tables.hasUser_congr huser fun y => ?_).symm
        rw [hin hr]
        exact and_iff_left fun h => hold h.2

/-- `SREM` takes the user out, also when another session of it stays. -/
theorem mirrors_leave_iff (x : SessionRef) :
    (k.after t .reply (.leave x)).redis.Mirrors (t.after (.leave x)) ↔
      t.KeepsMirror (.leave x) := by
  rw [Redis.mirrors_iff] at h ⊢
  have huser : ∀ y, ((t.after (.leave x)).sessionAt y).userId = (t.sessionAt y).userId := by
    simp [Tables.after]
  have hset : ∀ r user, (r, user) ∈ (k.after t .reply (.leave x)).redis.members ↔
      (r, user) ∈ k.redis.members ∧ ¬ (r = (t.sessionAt x).roomId ∧
        user = (t.sessionAt x).userId) := by
    intro r user
    change (r, user) ∈ k.redis.members.filter _ ↔ _
    rw [List.mem_filter, decide_eq_true_iff, ne_eq, Prod.mk.injEq]
  have hin : ∀ r y, (t.after (.leave x)).InRoom y r ↔
      t.InRoom y r ∧ ¬ (r = (t.sessionAt x).roomId ∧ y = x) := fun r y =>
    Tables.inRoom_removeEmptyRoom.trans (Tables.inRoom_leave hc)
  simp only [hset]
  constructor
  -- the set of the room has lost the user, the room has lost the session
  · intro h'
    refine (Tables.forall_hasUser_erase_iff huser (h (t.sessionAt x).roomId)
      fun y => ?_).mp fun user => ?_
    · rw [hin]
      simp
    · rw [← h']
      simp
  · intro hkeep r user
    by_cases hr : r = (t.sessionAt x).roomId
    · subst hr
      refine Iff.trans ?_ ((Tables.forall_hasUser_erase_iff huser (h (t.sessionAt x).roomId)
        fun y => ?_).mpr hkeep user)
      · simp
      · rw [hin]
        simp
    · rw [and_iff_left fun h => hr h.1, h]
      refine (Tables.hasUser_congr huser fun y => ?_).symm
      rw [hin]
      exact and_iff_left fun h => hr h.1

/-- Redis learns nothing about the room of a connection that ends. -/
theorem mirrors_close_iff (fd : Int) (x : SessionRef) :
    (k.after t .reply (.close fd x)).redis.Mirrors (t.after (.close fd x)) ↔
      t.KeepsMirror (.close fd x) := by
  rw [Redis.mirrors_iff] at h ⊢
  have huser : ∀ y, ((t.close fd x).sessionAt y).userId = (t.sessionAt y).userId := by simp
  have hin : ∀ r y, (t.close fd x).InRoom y r ↔
      t.InRoom y r ∧ ¬ (y = x ∧ r = (t.sessionAt x).roomId ∧ r ≠ 0) := fun r y =>
    Tables.inRoom_close hc fd
  have hleft : (t.sessionAt x).roomId ≠ 0 → ∀ y,
      (t.close fd x).InRoom y (t.sessionAt x).roomId ↔
        t.InRoom y (t.sessionAt x).roomId ∧ y ≠ x := by
    intro hroom y
    rw [hin]
    simp [hroom]
  change (∀ r user, (r, user) ∈ k.redis.members ↔ (t.close fd x).HasUser r user) ↔ _
  constructor
  -- the end of a connection is a join without a new room
  · intro h' hroom
    rw [Tables.mem_membersOf]
    exact (Tables.forall_hasUser_without_iff huser (h _) (hleft hroom)).mp (h' _)
  · intro hkeep r user
    by_cases hold : r = (t.sessionAt x).roomId ∧ r ≠ 0
    · obtain ⟨rfl, hroom⟩ := hold
      have htwin := fun hx => hkeep hroom (Tables.mem_membersOf.mpr hx)
      exact (Tables.forall_hasUser_without_iff huser (h _) (hleft hroom)).mpr htwin user
    · rw [h]
      refine (Tables.hasUser_congr huser fun y => ?_).symm
      rw [hin]
      exact and_iff_left fun h => hold h.2

/-- The step lemma. -/
theorem mirrors_after_iff {c : Change} (hv : c.Valid t) :
    (k.after t .reply c).redis.Mirrors (t.after c) ↔ t.KeepsMirror c := by
  cases c with
  | none => exact iff_of_true h trivial
  | login conn username =>
    refine iff_of_true ?_ trivial
    rw [Redis.mirrors_iff] at h ⊢
    exact fun r user => (h r user).trans (Tables.hasUser_openSession hc conn username).symm
  | draw => exact iff_of_true ⟨h.registered, h.unregistered⟩ trivial
  | create x name => exact mirrors_create_iff hc h x name
  | join x id ρ => exact mirrors_join_iff hc h hv.2
  | leave x => exact mirrors_leave_iff hc h x
  | close fd x => exact mirrors_close_iff hc h fd x

end Step

end Stores

/-! ## §4 Runs -/

/-- The mirror can be checked: every member is in its set, and every entry has its member. -/
theorem Redis.mirrors_iff_entries {k : Redis} {t : Tables} :
    k.Mirrors t ↔
      (∀ e ∈ t.rooms.entries, ∀ x ∈ (t.roomAt e.2).members,
        (e.1, (t.sessionAt x).userId) ∈ k.members) ∧
      ∀ e ∈ k.members, ∃ x ∈ t.membersOf e.1, (t.sessionAt x).userId = e.2 := by
  rw [mirrors_iff]
  constructor
  · intro h
    refine ⟨fun e he x hx => ?_, fun e he => ?_⟩
    · exact (h e.1 _).mpr ⟨x, ⟨e.2, AList.mem_lookup_iff.mpr he, hx⟩, rfl⟩
    · obtain ⟨x, hx, hu⟩ := (h e.1 e.2).mp he
      exact ⟨x, Tables.mem_membersOf.mpr hx, hu⟩
  · rintro ⟨hset, hmember⟩ r user
    constructor
    · intro hmem
      obtain ⟨x, hx, hu⟩ := hmember (r, user) hmem
      exact ⟨x, Tables.mem_membersOf.mp hx, hu⟩
    · rintro ⟨x, ⟨ρ, hρ, hx⟩, rfl⟩
      exact hset ⟨r, ρ⟩ (AList.mem_lookup_iff.mp hρ) x hx

-- by hand: the search would run through all pairs of ids
instance (k : Redis) (t : Tables) : Decidable (k.Mirrors t) :=
  have : Decidable (∀ e ∈ k.members, ∃ x ∈ t.membersOf e.1, (t.sessionAt x).userId = e.2) :=
    List.decidableBAll _ k.members
  decidable_of_iff _ Redis.mirrors_iff_entries.symm

/-- No room is registered. -/
def Tables.NoRooms (t : Tables) : Prop := ∀ r, t.rooms.lookup r = none

/-- The change creates a room. -/
def Change.Creates : Change → Prop
  | .create .. => True
  | _ => False

instance : (c : Change) → Decidable c.Creates
  | .create .. => inferInstanceAs (Decidable True)
  | .none | .login .. | .draw | .join .. | .leave _ | .close .. => inferInstanceAs (Decidable False)

namespace Tables.NoRooms

variable {t : Tables} (h : t.NoRooms)
include h

theorem membersOf (r : UInt32) : t.membersOf r = [] := by
  unfold Tables.membersOf
  rw [h r]

/-- Without rooms there is nothing to keep in step but a new room. -/
theorem keepsMirror_iff (c : Change) : t.KeepsMirror c ↔ ¬ c.Creates := by
  have htwin : ∀ x r, ¬ t.HasTwin x r := by
    rintro x r ⟨y, hy, -⟩
    rw [h.membersOf] at hy
    cases hy
  cases c with
  | create x name => exact iff_of_false (fun hkeep => hkeep.1 (h.membersOf _)) (not_not.mpr trivial)
  | join x id ρ =>
    refine iff_of_true (fun _ _ hx => ?_) not_false
    rw [h.membersOf] at hx
    cases hx
  | leave x => exact iff_of_true (htwin x _) not_false
  | close fd x =>
    refine iff_of_true (fun _ hx => ?_) not_false
    rw [h.membersOf] at hx
    cases hx
  | none => exact iff_of_true trivial not_false
  | login conn username => exact iff_of_true trivial not_false
  | draw => exact iff_of_true trivial not_false

theorem after {c : Change} (hv : c.Valid t) (hc : ¬ c.Creates) : (t.after c).NoRooms := by
  cases c with
  | create x name => exact absurd trivial hc
  | join x id ρ =>
    have hρ := hv.2
    rw [h id] at hρ
    cases hρ
  -- the room that is left does not exist
  | leave x =>
    intro r
    refine Option.eq_none_iff_forall_ne_some.mpr fun ρ hρ => ?_
    have hold := ((Tables.lookup_removeEmptyRoom ..).mp hρ).1
    rw [Tables.leave, Tables.setRoomId_rooms, Tables.removeFromRoom_rooms, h r] at hold
    cases hold
  | close fd x =>
    intro r
    refine Option.eq_none_iff_forall_ne_some.mpr fun ρ hρ => ?_
    have hold := Tables.lookup_of_lookup_close hρ
    rw [h r] at hold
    cases hold
  | _ => exact h

end Tables.NoRooms

namespace Service

/-- The sets in Redis are the member lists. -/
def RoomsMirrored (s : Service) : Prop := s.redis.Mirrors s.toTables

instance (s : Service) : Decidable s.RoomsMirrored := inferInstanceAs (Decidable (Redis.Mirrors _ _))

theorem apply_roomsMirrored_iff {s : Service} {op : Op} (hc : s.toTables.Consistent)
    (hredis : op.redis = .reply) (h : s.RoomsMirrored) :
    (s.apply op).RoomsMirrored ↔ s.KeepsMirror (s.change op) := by
  obtain ⟨buckets, hstores, -⟩ := s.apply_stores op
  have h' : ({ s.stores with userBuckets := buckets } : Stores).redis.Mirrors s.toTables := h
  have hredis' : (s.apply op).redis =
      (Stores.after { s.stores with userBuckets := buckets } s.toTables .reply (s.change op)).redis := by
    rw [← hredis]
    exact congrArg Stores.redis hstores
  unfold RoomsMirrored
  rw [hredis', apply_toTables]
  exact Stores.mirrors_after_iff hc h' (s.change_valid op)

theorem consistent_run {first : UInt32} {ops : List Op} {s : Service}
    (hrun : run Service.step (.init first) ops = some s) : s.toTables.Consistent := by
  refine run_invariant (P := fun s : Service => s.toTables.Consistent) ?_
    (Tables.Consistent.init first) hrun
  intro s op t hc hstep
  obtain rfl : s.apply op = t := Option.some.inj hstep
  exact (s.apply_effect op).consistent hc

/-- From empty stores, what keeps the mirror is that no room is created. -/
theorem keepsMirror_iff_no_creation (first : UInt32) (ops : List Op) :
    Meets Service.step (fun s op => s.KeepsMirror (s.change op)) (.init first) ops ↔
      Meets Service.step (fun s op => ¬ (s.change op).Creates) (.init first) ops := by
  have hinit : (Service.init first).NoRooms := fun r => by simp [Service.init, Tables.init]
  have hstep : ∀ (s : Service) (op : Op) (t : Service), s.NoRooms → ¬ (s.change op).Creates →
      s.step op = some t → t.NoRooms := by
    intro s op t h hc hstep
    obtain rfl : s.apply op = t := Option.some.inj hstep
    unfold Tables.NoRooms
    rw [apply_toTables]
    exact h.after (s.change_valid op) hc
  constructor
  · exact Meets.imp (I := fun s : Service => s.NoRooms)
      (fun s op h hkeep => (h.keepsMirror_iff _).mp hkeep) hstep hinit
  · exact Meets.imp (I := fun s : Service => s.NoRooms)
      (fun s op h hc => (h.keepsMirror_iff _).mpr hc)
      (fun s op t h hkeep => hstep s op t h ((h.keepsMirror_iff _).mp hkeep)) hinit

/-- **The mirror, exactly.**  While Redis answers every command, the sets are the member lists in
every state of a run from empty stores exactly when no operation of the run creates a room.  From
any state of it where they are, they stay so exactly as long as every operation keeps them in
step. -/
theorem rooms_mirrored_iff {first : UInt32} {ops : List Op} {s : Service}
    (hredis : ∀ op ∈ ops, op.redis = .reply)
    (hrun : run Service.step (.init first) ops = some s) :
    ((∀ pre post v, ops = pre ++ post → run Service.step (.init first) pre = some v →
        v.RoomsMirrored) ↔
      Meets Service.step (fun s op => ¬ (s.change op).Creates) (.init first) ops) ∧
    ∀ before later v, ops = before ++ later → run Service.step (.init first) before = some v →
      v.RoomsMirrored →
      ((∀ pre post w, later = pre ++ post → run Service.step v pre = some w → w.RoomsMirrored) ↔
        Meets Service.step (fun s op => s.KeepsMirror (s.change op)) v later) := by
  have hinit : (Service.init first).RoomsMirrored := by
    rw [RoomsMirrored, Redis.mirrors_iff_entries]
    exact ⟨fun _ he => absurd he List.not_mem_nil, fun _ he => absurd he List.not_mem_nil⟩
  constructor
  · rw [← keepsMirror_iff_no_creation]
    exact forall_state_iff_meets (fun _ _ hc hop h => apply_roomsMirrored_iff hc hop h)
      (Tables.Consistent.init first) hinit hredis hrun
  -- a later state is as good a start as the first one
  · rintro before later v rfl hbefore hv
    obtain ⟨v', hv', hlater⟩ := run_append.mp hrun
    obtain rfl : v = v' := Option.some.inj (hbefore.symm.trans hv')
    exact forall_state_iff_meets (fun _ _ hc hop h => apply_roomsMirrored_iff hc hop h)
      (consistent_run hbefore) hv (fun op hop => hredis op (List.mem_append_right _ hop)) hlater

/-- The creator joins its own room, as the tests do; another user comes and goes. -/
def createThenJoin : List Op :=
  [request ⟨0, 5⟩ .loginReq "ann|pw", request ⟨0, 5⟩ .createRoomReq "r",
    request ⟨0, 5⟩ .joinRoomReq "1"]

def comeAndGo : List Op :=
  [request ⟨1, 6⟩ .loginReq "bob|pw", request ⟨1, 6⟩ .joinRoomReq "1",
    request ⟨1, 6⟩ .leaveRoomReq "", request ⟨0, 5⟩ .leaveRoomReq ""]

theorem rooms_mirrored_iff_comeAndGo :
    ∃ v, run Service.step (.init 1) createThenJoin = some v ∧
      ∀ pre post w, comeAndGo = pre ++ post → run Service.step v pre = some w →
        w.RoomsMirrored := by
  have hbefore : ((run Service.step (.init 1) createThenJoin).any fun v =>
      decide (v.RoomsMirrored ∧
        Meets Service.step (fun s op => s.KeepsMirror (s.change op)) v comeAndGo)) = true := by
    decide +kernel
  obtain ⟨v, hv, hkeeps⟩ := exists_of_run_any hbefore
  obtain ⟨hmirrored, hmeets⟩ := of_decide_eq_true hkeeps
  have hredis : ∀ op ∈ createThenJoin ++ comeAndGo, op.redis = .reply := by decide
  obtain ⟨s, hrun⟩ := exists_run (.init 1) (createThenJoin ++ comeAndGo)
  exact ⟨v, hv, ((rooms_mirrored_iff hredis hrun).2 createThenJoin comeAndGo v rfl hv
    hmirrored).mpr hmeets⟩

/-- A member of a room, as Redis has it after a join, leaves by the end of its connection. -/
def joinThenClose : List Op :=
  createThenJoin ++ [.closed ⟨0, .noConnection, .noConnection, .reply⟩ 5]

/-- A creator is missing in Redis; a member whose connection ended stays there, although the room
is gone. -/
theorem create_is_not_mirrored :
    (∃ s, run Service.step (.init 1) (createThenJoin.take 2) = some s ∧
      s.membersOf 1 = [0] ∧ s.redis.members = [] ∧ ¬ s.RoomsMirrored) ∧
    (∃ s, run Service.step (.init 1) joinThenClose = some s ∧
      s.rooms.lookup 1 = none ∧ s.redis.members = [(1, 1)] ∧ ¬ s.RoomsMirrored) := by
  constructor
  · have hlast : ((run Service.step (.init 1) (createThenJoin.take 2)).any fun s =>
        decide (s.membersOf 1 = [0] ∧ s.redis.members = [] ∧ ¬ s.RoomsMirrored)) = true := by
      decide +kernel
    obtain ⟨s, hrun, hs⟩ := exists_of_run_any hlast
    exact ⟨s, hrun, of_decide_eq_true hs⟩
  · have hlast : ((run Service.step (.init 1) joinThenClose).any fun s =>
        decide (s.rooms.lookup 1 = none ∧ s.redis.members = [(1, 1)] ∧
          ¬ s.RoomsMirrored)) = true := by
      decide +kernel
    obtain ⟨s, hrun, hs⟩ := exists_of_run_any hlast
    exact ⟨s, hrun, of_decide_eq_true hs⟩

end Service

end EchoNet.Chat
