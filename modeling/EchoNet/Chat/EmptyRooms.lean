import EchoNet.Chat.Changes

/-!
# Empty Rooms

`handleLeaveRoom` and `onConnectionClosed` call `checkAndRemoveEmptyRoom` for the room that a
session left.  `handleJionRoom` takes the session out of its old room as well, and does not.

## Main results

- `no_empty_room_iff`: a run is free of empty rooms exactly when no join takes the last member
  out of another room.
- `switch_leaves_empty_room`: the only member of a room joins another one.
-/

namespace EchoNet.Chat

open EchoNet.Lib EchoNet.Protocol

namespace Tables

/-! ## §1 Occupied rooms -/

/-- If there is a room of this id, it has a member. -/
def Occupied (t : Tables) (r : UInt32) : Prop :=
  ∀ ρ, t.rooms.lookup r = some ρ → (t.roomAt ρ).members ≠ []

/-- Every room in `rooms_` has at least one member. -/
def NoEmptyRoom (t : Tables) : Prop := ∀ r, t.Occupied r

section Occupied

variable {t : Tables} {x : SessionRef} {r id : UInt32} {ρ : RoomRef}

theorem occupied_addMember (h : t.Occupied r) : (t.addMember ρ x).Occupied r := by
  intro σ hσ
  obtain ⟨y, hy⟩ := List.exists_mem_of_ne_nil _ (h σ hσ)
  exact List.ne_nil_of_mem ((t.mem_addMember x y ρ σ).mpr (Or.inl hy))

/-- Only the room that is left can become empty. -/
theorem occupied_removeFromRoom_of_ne (hc : t.Consistent) (h : t.Occupied r) (hne : r ≠ id) :
    (t.removeFromRoom id x).Occupied r := by
  intro σ hσ
  rw [removeFromRoom_rooms] at hσ
  rw [removeFromRoom_roomAt, if_neg fun hid => hne (hc.room_unique hσ hid)]
  exact h σ hσ

/-- What `checkAndRemoveEmptyRoom` is for. -/
theorem occupied_removeEmptyRoom (h : r ≠ id → t.Occupied r) :
    (t.removeEmptyRoom id).Occupied r := by
  intro σ hσ
  obtain ⟨hσ, hne⟩ := (lookup_removeEmptyRoom ..).mp hσ
  rw [removeEmptyRoom_roomAt]
  by_cases hr : r = id
  · exact fun hempty => hne ⟨hr, hempty⟩
  · exact h hr σ hσ

end Occupied

/-! ## §2 Changes -/

section Changes

variable {t : Tables} (hc : t.Consistent) (h : t.NoEmptyRoom)
include hc h

theorem noEmptyRoom_create (id : UInt32) (name : Bytes) (x : SessionRef) :
    (t.create id name x).NoEmptyRoom := by
  intro r σ hσ
  by_cases hr : r = id
  · -- the new room has its creator
    subst hr
    obtain rfl : t.freshRoom = σ := Option.some.inj ((AList.lookup_insert _).symm.trans hσ)
    exact List.ne_nil_of_mem
      (((t.newRoom r name).mem_addMember x x t.freshRoom t.freshRoom).mpr (Or.inr ⟨rfl, rfl⟩))
  -- the other rooms keep their members
  · have hnew : (t.newRoom id name).Occupied r := by
      intro ρ hρ
      rw [newRoom, AList.lookup_insert_ne hr] at hρ
      have hroomAt : (t.newRoom id name).roomAt ρ = t.roomAt ρ :=
        Function.update_of_ne (hc.room_lt r ρ hρ).ne _ _
      rw [hroomAt]
      exact h r ρ hρ
    exact occupied_addMember hnew σ hσ

theorem noEmptyRoom_leave (x : SessionRef) :
    ((t.leave x).removeEmptyRoom (t.sessionAt x).roomId).NoEmptyRoom := by
  intro r
  apply occupied_removeEmptyRoom
  intro hr
  exact occupied_removeFromRoom_of_ne hc (h r) hr

theorem noEmptyRoom_close (fd : Int) (x : SessionRef) : (t.close fd x).NoEmptyRoom := by
  intro r
  unfold close
  split_ifs
  · exact h r
  · apply occupied_removeEmptyRoom
    intro hr
    exact occupied_removeFromRoom_of_ne (hc.dropSession fd) (h r) hr

end Changes

/-- Another member stays in the room that the session leaves for the room `id`. -/
def LeavesSomeone (t : Tables) (x : SessionRef) (id : UInt32) : Prop :=
  (t.sessionAt x).roomId ≠ 0 → (t.sessionAt x).roomId ≠ id →
    ∀ σ ∈ t.rooms.lookup (t.sessionAt x).roomId, ∃ y ∈ (t.roomAt σ).members, y ≠ x

instance (t : Tables) (x : SessionRef) (id : UInt32) : Decidable (t.LeavesSomeone x id) :=
  inferInstanceAs (Decidable (_ → _ → ∀ σ ∈ _, ∃ y ∈ _, y ≠ x))

/-- A join can empty the old room of the session, and no other. -/
theorem noEmptyRoom_join_iff {t : Tables} (hc : t.Consistent) (h : t.NoEmptyRoom)
    {x : SessionRef} {id : UInt32} {ρ : RoomRef} (hρ : t.rooms.lookup id = some ρ) :
    (t.join x id ρ).NoEmptyRoom ↔ t.LeavesSomeone x id := by
  have hrooms : (t.join x id ρ).rooms = t.rooms := by simp [join]
  constructor
  · intro hjoin hroom hne σ hσ
    -- the old room is not the one that is joined, so its members are those before, but for `x`
    have hσρ : σ ≠ ρ := fun heq => hne (hc.room_unique hσ (heq ▸ hρ))
    obtain ⟨y, hy⟩ := List.exists_mem_of_ne_nil _ (hjoin _ σ (hrooms ▸ hσ))
    rw [join, setRoomId_roomAt, mem_addMember] at hy
    have hy' := hy.resolve_right fun heq => hσρ heq.1
    rw [leaveOld, if_neg hroom, mem_removeFromRoom] at hy'
    exact ⟨y, hy'.1, fun heq => hy'.2 ⟨hσ, heq⟩⟩
  · intro hstay r σ hσ
    rw [hrooms] at hσ
    by_cases hr : r = id
    · subst hr
      obtain rfl : ρ = σ := Option.some.inj (hρ.symm.trans hσ)
      exact List.ne_nil_of_mem (((t.leaveOld x).mem_addMember x x ρ ρ).mpr (Or.inr ⟨rfl, rfl⟩))
    · have hold : (t.leaveOld x).Occupied r := by
        unfold leaveOld
        split_ifs with hroom
        · exact h r
        · by_cases hx : r = (t.sessionAt x).roomId
          · subst hx
            obtain ⟨y, hy, hyx⟩ := hstay hroom hr σ hσ
            intro τ hτ
            rw [removeFromRoom_rooms] at hτ
            obtain rfl : σ = τ := Option.some.inj (hσ.symm.trans hτ)
            exact List.ne_nil_of_mem ((t.mem_removeFromRoom _ x y σ).mpr ⟨hy, fun h => hyx h.2⟩)
          · exact occupied_removeFromRoom_of_ne hc (h r) hx
      exact occupied_addMember hold σ (by simpa using hσ)

/-- The condition on a change. -/
def LeavesNoRoomEmpty (t : Tables) : Change → Prop
  | .join x id _ => t.LeavesSomeone x id
  | _ => True

instance (t : Tables) : (c : Change) → Decidable (t.LeavesNoRoomEmpty c)
  | .join x id _ => inferInstanceAs (Decidable (t.LeavesSomeone x id))
  | .none | .login .. | .draw | .create .. | .leave _ | .close .. =>
    inferInstanceAs (Decidable True)

theorem noEmptyRoom_after_iff {t : Tables} (hc : t.Consistent) (h : t.NoEmptyRoom) {c : Change}
    (hv : c.Valid t) : (t.after c).NoEmptyRoom ↔ t.LeavesNoRoomEmpty c := by
  cases c with
  | none => exact iff_of_true h trivial
  | login conn username => exact iff_of_true h trivial
  | draw => exact iff_of_true h trivial
  | create x name =>
    exact iff_of_true (noEmptyRoom_create (t := t.drawRoomId) hc.drawRoomId h _ name x) trivial
  | join x id ρ => exact noEmptyRoom_join_iff hc h hv.2
  | leave x => exact iff_of_true (noEmptyRoom_leave hc h x) trivial
  | close fd x => exact iff_of_true (noEmptyRoom_close hc h fd x) trivial

end Tables

/-! ## §3 Runs -/

namespace Service

/-- **No empty room, exactly.**  Every room of every state of a run has a member exactly when no
join of the run takes the last member out of another room. -/
theorem no_empty_room_iff {first : UInt32} {ops : List Op} {s : Service}
    (hrun : run Service.step (.init first) ops = some s) :
    (∀ pre post v, ops = pre ++ post → run Service.step (.init first) pre = some v →
      v.NoEmptyRoom) ↔
    Meets Service.step (fun s op => s.LeavesNoRoomEmpty (s.change op)) (.init first) ops := by
  have hinit : (Service.init first).NoEmptyRoom := by
    intro r ρ hρ
    simp [Service.init, Tables.init] at hρ
  refine forall_state_iff_meets (P := fun s => s.NoEmptyRoom) (H := fun _ => True) ?_
    (Tables.Consistent.init first) hinit (fun _ _ => trivial) hrun
  intro s op hc _ h
  rw [apply_toTables]
  exact Tables.noEmptyRoom_after_iff hc h (s.change_valid op)

/-- A member moves to the room of another user while somebody stays in its old one. -/
def switchRooms : List Op :=
  [request ⟨0, 5⟩ .loginReq "ann|pw", request ⟨1, 6⟩ .loginReq "bob|pw",
    request ⟨2, 7⟩ .loginReq "carol|pw", request ⟨0, 5⟩ .createRoomReq "r",
    request ⟨1, 6⟩ .joinRoomReq "1", request ⟨2, 7⟩ .createRoomReq "q",
    request ⟨0, 5⟩ .joinRoomReq "2"]

theorem no_empty_room_iff_switch :
    ∃ s, run Service.step (.init 1) switchRooms = some s ∧
      ∀ pre post v, switchRooms = pre ++ post → run Service.step (.init 1) pre = some v →
        v.NoEmptyRoom :=
  ⟨_, rfl, (no_empty_room_iff rfl).mpr (by decide +kernel)⟩

/-- The only member of a room moves to another one. -/
def switchFromOwnRoom : List Op :=
  [request ⟨0, 5⟩ .loginReq "ann|pw", request ⟨1, 6⟩ .loginReq "bob|pw",
    request ⟨0, 5⟩ .createRoomReq "r", request ⟨1, 6⟩ .createRoomReq "q",
    request ⟨0, 5⟩ .joinRoomReq "2"]

theorem switch_leaves_empty_room :
    ∃ s, run Service.step (.init 1) switchFromOwnRoom = some s ∧
      s.rooms.lookup 1 = some 0 ∧ (s.roomAt 0).members = [] ∧ ¬ s.NoEmptyRoom := by
  have hlast : ((run Service.step (.init 1) switchFromOwnRoom).any fun s =>
      decide (s.rooms.lookup 1 = some 0 ∧ (s.roomAt 0).members = [])) = true := by
    decide +kernel
  obtain ⟨s, hrun, hs⟩ := exists_of_run_any hlast
  obtain ⟨hroom, hempty⟩ := of_decide_eq_true hs
  exact ⟨s, hrun, hroom, hempty, fun h => h 1 0 hroom hempty⟩

end Service

end EchoNet.Chat
