import EchoNet.Chat.Ghosts

/-!
# A Join against the Cleanup of an Empty Room

One client's `handleJionRoom` of a room runs while another client leaves that room, by
`handleLeaveRoom` or because its connection ends.  The steps are the critical sections of
`rooms_mutex_` and `Room::mutex_`.  The section of `checkAndRemoveEmptyRoom` is two steps:
it holds `rooms_mutex_` throughout, but `addMember` needs only the room's own mutex and can
come between its `memberCount` and its `erase`.

## Main results

- `join_stays_iff`: the joiner is in the registered room at the end exactly when the check did
  not find the room empty between the join's lookup and its `addMember`.
- `joiner_stranded`: a schedule that strands the joiner.
- `leave_alone`, `join_alone`: without interleaving the sections make up the operations.
-/

namespace EchoNet.Chat

open EchoNet.Lib EchoNet.Protocol

/-! ## §1 The two handlers -/

/-- The next critical section of `handleJionRoom`; `target` is `target_room`. -/
inductive JoinPc where
  | lookup
  | leaveOld (target : RoomRef)
  | addMember (target : RoomRef)
  /-- `broadcastMemberCount`: `getRoomById`, `memberCount`, the copy of the members -/
  | findRoom (target : RoomRef)
  | count (target room : RoomRef)
  | copy (target room : RoomRef) (count : Nat)
  /-- `memberCount` for the response -/
  | countReply (target : RoomRef)
  /-- answered `"OK|count"` -/
  | ok (target : RoomRef) (count : Nat)
  /-- answered `"Room not found"` -/
  | notFound
  deriving DecidableEq, Repr

namespace JoinPc

/-- The room that the join has looked up. -/
def target : JoinPc → Option RoomRef
  | lookup | notFound => none
  | leaveOld target | addMember target | findRoom target | count target _ | copy target _ _
  | countReply target | ok target _ => some target

/-- The room that the join has entered. -/
def entered : JoinPc → Option RoomRef
  | lookup | notFound | leaveOld _ | addMember _ => none
  | findRoom target | count target _ | copy target _ _ | countReply target | ok target _ =>
    some target

/-- Between the lookup and `addMember`. -/
def entering : JoinPc → Bool
  | leaveOld _ | addMember _ => true
  | _ => false

theorem entered_of_target {pc : JoinPc} {ρ : RoomRef} (h : pc.target = some ρ)
    (hpc : pc.entering = false) : pc.entered = some ρ := by
  cases pc <;> first | exact h | cases hpc

end JoinPc

/-- The next critical section of the leaving client. -/
inductive LeavePc where
  | remove
  | findRoom
  | count (room : RoomRef)
  | copy (room : RoomRef) (count : Nat)
  | check
  /-- `rooms_mutex_` is held, and the room was empty -/
  | erase
  | done
  deriving DecidableEq, Repr

/-- The two handlers; `room` is the id that the join names, and that the other client leaves. -/
structure Race where
  tables : Tables
  room : UInt32
  joiner : SessionRef
  leaver : SessionRef
  /-- `onConnectionClosed` instead of `handleLeaveRoom` -/
  disconnect : Bool
  join : JoinPc
  leave : LeavePc
  sent : List Sent

inductive Party where
  | joiner
  | leaver
  deriving DecidableEq, Repr

namespace Race

/-- Both handlers have found their sessions; a session whose connection ended is erased from
`sessions_`.  `onConnectionClosed` does nothing for a session with room id 0. -/
def init (t : Tables) (joiner leaver : SessionRef) (disconnect : Bool) : Race where
  tables := if disconnect then t.dropSession (t.sessionAt leaver).conn.fd else t
  room := (t.sessionAt leaver).roomId
  joiner := joiner
  leaver := leaver
  disconnect := disconnect
  join := .lookup
  leave := if disconnect && (t.sessionAt leaver).roomId = 0 then .done else .remove
  sent := []

/-- The leaving client is inside `checkAndRemoveEmptyRoom` and holds `rooms_mutex_`. -/
def roomsLocked (w : Race) : Bool := w.leave = .erase

/-- The update that `broadcastMemberCount` sends. -/
def memberCountMessage (w : Race) (count : Nat) : MyMessage :=
  ⟨.memberCountUpdate, 0, toDecimal w.room.toNat ++ ascii "|" ++ sizeToDecimal count⟩

/-- `Room::broadcast`. -/
def push (w : Race) (room : RoomRef) (count : Nat) : List Sent :=
  (w.tables.roomAt room).members.map fun x => .push x (w.memberCountMessage count)

/-- One critical section of `handleJionRoom`, with the code up to the next one. -/
def joinStep (w : Race) : Option Race :=
  match w.join with
  | .lookup =>
    if w.roomsLocked then none
    else
      match w.tables.rooms.lookup w.room with
      | none => some { w with join := .notFound }
      | some target => some { w with join := .leaveOld target }
  | .leaveOld target =>
    if w.roomsLocked && (w.tables.sessionAt w.joiner).roomId ≠ 0 then none
    else some { w with join := .addMember target, tables := w.tables.leaveOld w.joiner }
  | .addMember target =>
    some { w with
      join := .findRoom target
      tables := (w.tables.addMember target w.joiner).setRoomId w.joiner w.room }
  | .findRoom target =>
    if w.roomsLocked then none
    else
      match w.tables.rooms.lookup w.room with
      | none => some { w with join := .countReply target }
      | some room => some { w with join := .count target room }
  | .count target room =>
    some { w with join := .copy target room (w.tables.roomAt room).memberCount }
  | .copy target room count =>
    some { w with join := .countReply target, sent := w.sent ++ w.push room count }
  | .countReply target => some { w with join := .ok target (w.tables.roomAt target).memberCount }
  | .ok .. => none
  | .notFound => none

/-- One critical section of the leaving client. -/
def leaveStep (w : Race) : Option Race :=
  match w.leave with
  | .remove =>
    let t := w.tables.removeFromRoom w.room w.leaver
    some { w with
      leave := .findRoom
      tables := if w.disconnect then t else t.setRoomId w.leaver 0 }
  | .findRoom =>
    match w.tables.rooms.lookup w.room with
    | none => some { w with leave := .check }
    | some room => some { w with leave := .count room }
  | .count room => some { w with leave := .copy room (w.tables.roomAt room).memberCount }
  | .copy room count => some { w with leave := .check, sent := w.sent ++ w.push room count }
  | .check =>
    match w.tables.rooms.lookup w.room with
    | none => some { w with leave := .done }
    | some room =>
      if (w.tables.roomAt room).memberCount = 0 then some { w with leave := .erase }
      else some { w with leave := .done }
  | .erase =>
    some { w with
      leave := .done
      tables := { w.tables with rooms := w.tables.rooms.erase w.room } }
  | .done => none

def step (w : Race) : Party → Option Race
  | .joiner => w.joinStep
  | .leaver => w.leaveStep

/-! ## §2 Everything a step can do -/

/-- The room is registered and empty. -/
def roomEmpty (w : Race) : Bool :=
  (w.tables.rooms.lookup w.room).any fun ρ => (w.tables.roomAt ρ).memberCount = 0

/-- Inversion of `joinStep`. -/
inductive JoinStep (w : Race) : Race → Prop where
  | missing (hpc : w.join = .lookup) : JoinStep w { w with join := .notFound }
  | found {ρ : RoomRef} (hpc : w.join = .lookup) (hlocked : w.leave ≠ .erase)
      (hρ : w.tables.rooms.lookup w.room = some ρ) : JoinStep w { w with join := .leaveOld ρ }
  | leaveOld {ρ : RoomRef} (hpc : w.join = .leaveOld ρ) :
      JoinStep w { w with join := .addMember ρ, tables := w.tables.leaveOld w.joiner }
  | addMember {ρ : RoomRef} (hpc : w.join = .addMember ρ) :
      JoinStep w { w with
        join := .findRoom ρ
        tables := (w.tables.addMember ρ w.joiner).setRoomId w.joiner w.room }
  /-- the broadcast and the response -/
  | advance {pc : JoinPc} {sent : List Sent} (htarget : pc.target = w.join.target)
      (hentered : pc.entered = w.join.entered) : JoinStep w { w with join := pc, sent := sent }

theorem joinStep_cases {w w' : Race} (h : w.joinStep = some w') : w.JoinStep w' := by
  unfold joinStep at h
  cases hpc : w.join with
  | lookup =>
    simp only [hpc] at h
    split_ifs at h with hlocked
    cases hρ : w.tables.rooms.lookup w.room with
    | none =>
      simp only [hρ, Option.some.injEq] at h
      subst h
      exact .missing hpc
    | some ρ =>
      simp only [hρ, Option.some.injEq] at h
      subst h
      exact .found hpc (by simpa [roomsLocked] using hlocked) hρ
  | leaveOld ρ =>
    simp only [hpc] at h
    split_ifs at h
    cases h
    exact .leaveOld hpc
  | addMember ρ =>
    simp only [hpc, Option.some.injEq] at h
    subst h
    exact .addMember hpc
  | findRoom ρ =>
    simp only [hpc] at h
    split_ifs at h
    cases hσ : w.tables.rooms.lookup w.room with
    | none =>
      simp only [hσ, Option.some.injEq] at h
      subst h
      exact .advance (hpc ▸ rfl) (hpc ▸ rfl)
    | some σ =>
      simp only [hσ, Option.some.injEq] at h
      subst h
      exact .advance (hpc ▸ rfl) (hpc ▸ rfl)
  | count ρ σ =>
    simp only [hpc, Option.some.injEq] at h
    subst h
    exact .advance (hpc ▸ rfl) (hpc ▸ rfl)
  | copy ρ σ n =>
    simp only [hpc, Option.some.injEq] at h
    subst h
    exact .advance (hpc ▸ rfl) (hpc ▸ rfl)
  | countReply ρ =>
    simp only [hpc, Option.some.injEq] at h
    subst h
    exact .advance (hpc ▸ rfl) (hpc ▸ rfl)
  | ok ρ n => simp [hpc] at h
  | notFound => simp [hpc] at h

/-- Inversion of `leaveStep`. -/
inductive LeaveStep (w : Race) : Race → Prop where
  | remove {t : Tables} (hpc : w.leave = .remove) (hrooms : t.rooms = w.tables.rooms)
      (hmem : ∀ ρ x, x ≠ w.leaver → x ∈ (w.tables.roomAt ρ).members → x ∈ (t.roomAt ρ).members) :
      LeaveStep w { w with leave := .findRoom, tables := t }
  /-- the broadcast -/
  | advance {pc : LeavePc} {sent : List Sent} (hcheck : w.leave ≠ .check)
      (herase : w.leave ≠ .erase) (hdone : w.leave ≠ .done) (herase' : pc ≠ .erase)
      (hdone' : pc ≠ .done) : LeaveStep w { w with leave := pc, sent := sent }
  | keep (hpc : w.leave = .check) (hempty : w.roomEmpty = false) :
      LeaveStep w { w with leave := .done }
  | empty (hpc : w.leave = .check) (hempty : w.roomEmpty = true) :
      LeaveStep w { w with leave := .erase }
  | erase (hpc : w.leave = .erase) :
      LeaveStep w { w with
        leave := .done
        tables := { w.tables with rooms := w.tables.rooms.erase w.room } }

theorem leaveStep_cases {w w' : Race} (h : w.leaveStep = some w') : w.LeaveStep w' := by
  unfold leaveStep at h
  cases hpc : w.leave with
  | remove =>
    simp only [hpc, Option.some.injEq] at h
    subst h
    refine .remove hpc ?_ fun ρ x hne hx => ?_
    · split_ifs <;> simp
    · -- only the leaving session is removed
      split_ifs <;> simp [hx, hne]
  | findRoom =>
    simp only [hpc] at h
    cases hρ : w.tables.rooms.lookup w.room with
    | none =>
      simp only [hρ, Option.some.injEq] at h
      subst h
      apply LeaveStep.advance <;> simp [hpc]
    | some ρ =>
      simp only [hρ, Option.some.injEq] at h
      subst h
      apply LeaveStep.advance <;> simp [hpc]
  | count ρ =>
    simp only [hpc, Option.some.injEq] at h
    subst h
    apply LeaveStep.advance <;> simp [hpc]
  | copy ρ n =>
    simp only [hpc, Option.some.injEq] at h
    subst h
    apply LeaveStep.advance <;> simp [hpc]
  | check =>
    simp only [hpc] at h
    cases hρ : w.tables.rooms.lookup w.room with
    | none =>
      simp only [hρ, Option.some.injEq] at h
      subst h
      exact .keep hpc (by simp [roomEmpty, hρ])
    | some ρ =>
      simp only [hρ] at h
      split_ifs at h with hempty
      · cases h
        exact .empty hpc (by simp [roomEmpty, hρ, hempty])
      · cases h
        exact .keep hpc (by simp [roomEmpty, hρ, hempty])
  | erase =>
    simp only [hpc, Option.some.injEq] at h
    subst h
    exact .erase hpc
  | done => simp [hpc] at h

/-! ## §3 The invariant -/

/-- What holds in every state: the target is the registered room until it is erased, and a
joiner that has entered it stays a member. -/
structure Inv (w : Race) : Prop where
  distinct : w.joiner ≠ w.leaver
  target : ∀ ρ, w.join.target = some ρ → w.tables.rooms.lookup w.room = some ρ ∨
    (w.leave = .done ∧ w.tables.rooms.lookup w.room = none)
  entered : ∀ ρ, w.join.entered = some ρ → w.joiner ∈ (w.tables.roomAt ρ).members

theorem Inv.init {t : Tables} {joiner leaver : SessionRef} (h : joiner ≠ leaver)
    (disconnect : Bool) : (Race.init t joiner leaver disconnect).Inv :=
  ⟨h, fun _ => nofun, fun _ => nofun⟩

/-- While the leaving client runs, the target is registered. -/
theorem Inv.lookup_target {w : Race} (h : w.Inv) {ρ : RoomRef} (hρ : w.join.target = some ρ)
    (hleave : w.leave ≠ .done) : w.tables.rooms.lookup w.room = some ρ :=
  (h.target ρ hρ).resolve_right fun h' => hleave h'.1

theorem step_inv {w w' : Race} {p : Party} (h : w.Inv) (hstep : w.step p = some w') : w'.Inv := by
  cases p with
  | joiner =>
    cases joinStep_cases hstep with
    | missing => exact ⟨h.distinct, fun _ => nofun, fun _ => nofun⟩
    | found _ _ hρ =>
      refine ⟨h.distinct, fun σ hσ => ?_, fun _ => nofun⟩
      cases hσ
      exact Or.inl hρ
    | leaveOld hpc =>
      refine ⟨h.distinct, fun σ hσ => ?_, fun _ => nofun⟩
      simpa using h.target σ (by rw [hpc]; exact hσ)
    | addMember hpc =>
      refine ⟨h.distinct, fun σ hσ => ?_, fun σ hσ => ?_⟩
      · simpa using h.target σ (by rw [hpc]; exact hσ)
      · cases hσ
        simp
    | advance htarget hentered =>
      exact ⟨h.distinct, fun σ hσ => h.target σ (htarget ▸ hσ),
        fun σ hσ => h.entered σ (hentered ▸ hσ)⟩
  | leaver =>
    cases leaveStep_cases hstep with
    | remove hpc hrooms hmem =>
      refine ⟨h.distinct, fun ρ hρ => Or.inl ?_, fun ρ hρ => ?_⟩
      · dsimp only
        rw [hrooms]
        exact h.lookup_target hρ (by simp [hpc])
      · exact hmem ρ w.joiner h.distinct (h.entered ρ hρ)
    | advance _ _ hdone =>
      exact ⟨h.distinct, fun ρ hρ => Or.inl (h.lookup_target hρ hdone), h.entered⟩
    | keep hpc =>
      exact ⟨h.distinct, fun ρ hρ => Or.inl (h.lookup_target hρ (by simp [hpc])), h.entered⟩
    | empty hpc =>
      exact ⟨h.distinct, fun ρ hρ => Or.inl (h.lookup_target hρ (by simp [hpc])), h.entered⟩
    | erase => exact ⟨h.distinct, fun ρ _ => Or.inr ⟨rfl, AList.lookup_erase _ _⟩, h.entered⟩

/-! ## §4 The stranded joiner -/

/-- The check does not find the room empty while the join is between its lookup and its
`addMember`. -/
def CheckSafe (w : Race) (p : Party) : Prop :=
  p = .leaver → w.leave = .check → w.roomEmpty = true → w.join.entering = false

instance (w : Race) (p : Party) : Decidable (w.CheckSafe p) :=
  inferInstanceAs (Decidable (_ → _ → _ → _))

/-- The join has a target, and the room is erased or about to be. -/
def Stranded (w : Race) : Prop :=
  (∃ ρ, w.join.target = some ρ) ∧
    (w.leave = .erase ∨ (w.leave = .done ∧ w.tables.rooms.lookup w.room = none))

/-- Steps of the joiner do not strand it. -/
private theorem stranded_joinStep {w w' : Race} (hstep : w.JoinStep w') :
    w'.Stranded ↔ w.Stranded := by
  cases hstep with
  | missing hpc =>
    refine iff_of_false ?_ ?_
    · rintro ⟨⟨ρ, hρ⟩, -⟩
      cases hρ
    · rintro ⟨⟨ρ, hρ⟩, -⟩
      rw [hpc] at hρ
      cases hρ
  | found hpc hlocked hlookup =>
    refine iff_of_false ?_ ?_
    · rintro ⟨-, herase | ⟨-, hnone⟩⟩
      · exact hlocked herase
      · cases hlookup.symm.trans hnone
    · rintro ⟨⟨ρ, hρ⟩, -⟩
      rw [hpc] at hρ
      cases hρ
  | leaveOld hpc => simp [Stranded, hpc, JoinPc.target]
  | addMember hpc => simp [Stranded, hpc, JoinPc.target]
  | advance htarget => simp only [Stranded, htarget]

/-- The check is what strands the joiner. -/
private theorem stranded_leaveStep {w w' : Race} (h : w.Inv) (hstep : w.LeaveStep w') :
    ¬ w'.Stranded ↔ ¬ w.Stranded ∧ w.CheckSafe .leaver := by
  cases hstep with
  | remove hpc => simp [Stranded, CheckSafe, hpc]
  | advance hcheck herase hdone herase' hdone' =>
    simp [Stranded, CheckSafe, hcheck, herase, hdone, herase', hdone']
  | keep hpc hempty =>
    refine iff_of_true ?_ ⟨?_, ?_⟩
    · rintro ⟨⟨ρ, hρ⟩, herase | ⟨-, hnone⟩⟩
      · cases herase
      · cases (h.lookup_target hρ (by simp [hpc])).symm.trans hnone
    · simp [Stranded, hpc]
    · simp [CheckSafe, hempty]
  | empty hpc hempty =>
    constructor
    · refine fun hs => ⟨by simp [Stranded, hpc], fun _ _ _ => ?_⟩
      by_contra hentering
      rw [Bool.not_eq_false] at hentering
      refine hs ⟨?_, Or.inl rfl⟩
      cases hjoin : w.join with
      | leaveOld ρ => exact ⟨ρ, rfl⟩
      | addMember ρ => exact ⟨ρ, rfl⟩
      | _ => simp [hjoin, JoinPc.entering] at hentering
    · rintro ⟨-, hsafe⟩ ⟨⟨ρ, hρ⟩, -⟩
      -- the joiner has entered the room, so the room is not empty
      have hmem := h.entered ρ (JoinPc.entered_of_target hρ (hsafe rfl hpc hempty))
      have hlookup := h.lookup_target hρ (by simp [hpc])
      simp only [roomEmpty, hlookup, Option.any_some, decide_eq_true_eq,
        Room.memberCount_eq_zero] at hempty
      rw [hempty] at hmem
      cases hmem
  | erase hpc =>
    have hafter : (w.tables.rooms.erase w.room).lookup w.room = none := AList.lookup_erase _ _
    simp [Stranded, CheckSafe, hpc, hafter]

/-- A join that is answered `"OK"` leaves its session in the registered room. -/
def JoinStays (w : Race) : Prop :=
  ∀ ρ n, w.join = .ok ρ n → w.tables.InRoom w.joiner w.room

/-- **The race, exactly.**  In every complete interleaving of the join with the departure of
another client, a join that is answered `"OK"` leaves its session in the registered room
exactly when the check did not find the room empty between the join's lookup and its
`addMember`. -/
theorem join_stays_iff {t : Tables} {joiner leaver : SessionRef} {disconnect : Bool}
    {schedule : List Party} {w : Race} (hne : joiner ≠ leaver)
    (hrun : run Race.step (.init t joiner leaver disconnect) schedule = some w)
    (hleave : w.leave = .done) (hjoin : w.join = .notFound ∨ ∃ ρ n, w.join = .ok ρ n) :
    w.JoinStays ↔ Meets Race.step CheckSafe (.init t joiner leaver disconnect) schedule := by
  have hinv : w.Inv := run_invariant (fun _ _ _ h hstep => step_inv h hstep)
    (Inv.init hne disconnect) hrun
  have hlast := last_iff_meets (G := CheckSafe) (I := Inv)
    (P := fun w => ¬ w.Stranded) (fun _ _ _ h hstep => step_inv h hstep)
    (fun w p w' h hstep => by
      cases p with
      | joiner =>
        rw [stranded_joinStep (joinStep_cases hstep)]
        exact (and_iff_left fun h => nomatch h).symm
      | leaver => exact stranded_leaveStep h (leaveStep_cases hstep))
    (Inv.init (t := t) hne disconnect) hrun
  have hinit : ¬ (Race.init t joiner leaver disconnect).Stranded := by
    rintro ⟨⟨ρ, hρ⟩, -⟩
    cases hρ
  rw [← (hlast.trans (and_iff_right hinit))]
  constructor
  · rintro hstays ⟨⟨ρ, hρ⟩, herase | ⟨-, hnone⟩⟩
    · rw [hleave] at herase
      cases herase
    · rcases hjoin with hjoin | ⟨σ, n, hjoin⟩
      · rw [hjoin] at hρ
        cases hρ
      · obtain ⟨τ, hτ, -⟩ := hstays σ n hjoin
        cases hnone.symm.trans hτ
  · intro hs ρ n hok
    have htarget : w.join.target = some ρ := by
      rw [hok]
      rfl
    rcases hinv.target ρ htarget with hlookup | ⟨-, hnone⟩
    · exact ⟨ρ, hlookup, hinv.entered ρ (by rw [hok]; rfl)⟩
    · exact absurd ⟨⟨ρ, htarget⟩, Or.inr ⟨hleave, hnone⟩⟩ hs

/-- Ann has created room 1, Bob is logged in. -/
def annInRoom : Service :=
  [Service.request ⟨0, 5⟩ .loginReq "ann|pw", Service.request ⟨1, 6⟩ .loginReq "bob|pw",
    Service.request ⟨0, 5⟩ .createRoomReq "r"].foldl Service.apply (.init 1)

/-- Bob enters before Ann's departure is checked. -/
theorem join_stays_iff_before_check :
    ∃ w, run Race.step (.init annInRoom.toTables 1 0 false)
        ([.joiner, .leaver, .joiner, .leaver, .joiner] ++ List.replicate 3 .leaver ++
          List.replicate 4 .joiner) = some w ∧ w.JoinStays := by
  have hlast : ((run Race.step (.init annInRoom.toTables 1 0 false)
      ([.joiner, .leaver, .joiner, .leaver, .joiner] ++ List.replicate 3 .leaver ++
        List.replicate 4 .joiner)).any fun w =>
      decide (w.leave = .done ∧ w.join = .ok 0 1)) = true := by
    decide +kernel
  obtain ⟨w, hrun, hw⟩ := exists_of_run_any hlast
  obtain ⟨hleave, hjoin⟩ := of_decide_eq_true hw
  exact ⟨w, hrun, (join_stays_iff (by decide) hrun hleave (Or.inr ⟨0, 1, hjoin⟩)).mpr
    (by decide +kernel)⟩

/-- Bob looks room 1 up, Ann leaves it, and the check finds it empty before Bob enters: Bob is
answered `"OK|1"` and is in a room that is not registered any more. -/
theorem joiner_stranded :
    run Service.step (.init 1)
      [Service.request ⟨0, 5⟩ .loginReq "ann|pw", Service.request ⟨1, 6⟩ .loginReq "bob|pw",
        Service.request ⟨0, 5⟩ .createRoomReq "r"] = some annInRoom ∧
    ∃ w, run Race.step (.init annInRoom.toTables 1 0 false)
        ([.joiner] ++ List.replicate 6 .leaver ++ List.replicate 4 .joiner) = some w ∧
      w.leave = .done ∧ w.join = .ok 0 1 ∧ ¬ w.JoinStays := by
  refine ⟨rfl, ?_⟩
  have hlast : ((run Race.step (.init annInRoom.toTables 1 0 false)
      ([.joiner] ++ List.replicate 6 .leaver ++ List.replicate 4 .joiner)).any fun w =>
      decide (w.leave = .done ∧ w.join = .ok 0 1 ∧ w.tables.rooms.lookup w.room = none)) = true := by
    decide +kernel
  obtain ⟨w, hrun, hw⟩ := exists_of_run_any hlast
  obtain ⟨hleave, hjoin, hnone⟩ := of_decide_eq_true hw
  refine ⟨w, hrun, hleave, hjoin, fun hstays => ?_⟩
  obtain ⟨ρ, hρ, -⟩ := hstays 0 1 hjoin
  cases hnone.symm.trans hρ

/-! ## §5 One handler alone -/

/-- After the removal, the leaving client alone checks the room. -/
private theorem check_alone {w : Race} (hpc : w.leave = .findRoom) :
    ∃ n w', run Race.step w (List.replicate n .leaver) = some w' ∧ w'.leave = .done ∧
      w'.tables = w.tables.removeEmptyRoom w.room := by
  cases hρ : w.tables.rooms.lookup w.room with
  | none =>
    refine ⟨2, { w with leave := .done }, ?_, rfl, ?_⟩
    · simp [List.replicate, run_cons, step, leaveStep, hpc, hρ]
    · simp [Tables.removeEmptyRoom, hρ]
  | some ρ =>
    let sent := w.sent ++ w.push ρ (w.tables.roomAt ρ).memberCount
    by_cases hempty : (w.tables.roomAt ρ).memberCount = 0
    · let t := { w.tables with rooms := w.tables.rooms.erase w.room }
      refine ⟨5, { w with leave := .done, tables := t, sent := sent }, ?_, rfl, ?_⟩
      · simp [List.replicate, run_cons, step, leaveStep, hpc, hρ, hempty, t, sent, push,
          memberCountMessage]
      · simp [Tables.removeEmptyRoom, hρ, hempty, t]
    · refine ⟨4, { w with leave := .done, sent := sent }, ?_, rfl, ?_⟩
      · simp [List.replicate, run_cons, step, leaveStep, hpc, hρ, hempty, sent, push,
          memberCountMessage]
      · simp [Tables.removeEmptyRoom, hρ, hempty]

/-- The leaving client alone does what the completed operation does. -/
theorem leave_alone {w : Race} (hpc : w.leave = .remove) (hdisconnect : w.disconnect = false)
    (hroom : w.room = (w.tables.sessionAt w.leaver).roomId) :
    ∃ n w', run Race.step w (List.replicate n .leaver) = some w' ∧ w'.leave = .done ∧
      w'.tables = (w.tables.leave w.leaver).removeEmptyRoom w.room := by
  have hfirst : w.step .leaver =
      some { w with leave := .findRoom, tables := w.tables.leave w.leaver } := by
    simp [step, leaveStep, hpc, hdisconnect, Tables.leave, hroom]
  obtain ⟨n, w', hrun, hdone, htables⟩ :=
    check_alone (w := { w with leave := .findRoom, tables := w.tables.leave w.leaver }) rfl
  exact ⟨n + 1, w', run_cons_eq_some.mpr ⟨_, hfirst, hrun⟩, hdone, htables⟩

/-- The joiner alone does what the completed operation does. -/
theorem join_alone {w : Race} {ρ : RoomRef} (hpc : w.join = .lookup) (hleave : w.leave ≠ .erase)
    (hρ : w.tables.rooms.lookup w.room = some ρ) :
    ∃ n w', run Race.step w (List.replicate n .joiner) = some w' ∧
      (∃ m, w'.join = .ok ρ m) ∧ w'.tables = w.tables.join w.joiner w.room ρ := by
  let t := w.tables.join w.joiner w.room ρ
  let count := (t.roomAt ρ).memberCount
  let sent := w.sent ++ Race.push { w with tables := t } ρ count
  refine ⟨7, { w with join := .ok ρ count, tables := t, sent := sent }, ?_, ⟨_, rfl⟩, rfl⟩
  simp [List.replicate, run_cons, step, joinStep, hpc, roomsLocked, hleave, hρ, t, count, sent,
    Tables.join, push, memberCountMessage]

end Race

end EchoNet.Chat
