import EchoNet.Chat.Counts

/-!
# Rooms and their Rows

`handleCreateRoom` inserts the row before it registers the room, and `checkAndRemoveEmptyRoom`
erases the room before it deletes the row.  Calls of both run on any number of workers; their
steps are the draw of an id, the statements, and the critical sections.  The id column is a
primary key, so a row belongs to at most one of: the registered room, a creator between the two
stores, a cleaner between the two stores.

## Main results

- `Inv.rooms_row`: every registered id has a row.
- `rooms_backed`: the rows, the ids of the successful answers, and what a failed creation leaves.
- `id_drawn_again`: two rooms are created, with `2 ^ 32 - 1` failures in between, and get one id.
-/

namespace EchoNet.Chat

open EchoNet.Lib EchoNet.Protocol

/-! ## §1 The two handlers -/

/-- How far `initIdsFromDatabase` gets. -/
inductive MaxId where
  | noConnection
  | queryFailed
  | storeFailed
  | noRow
  | row (text : Bytes)
  deriving DecidableEq, Repr

/-- `initIdsFromDatabase`: the first value of `next_room_id_`.  `none` is the exception of
`std::stoul`. -/
def initIdsFromDatabase : MaxId → Option UInt32
  | .row text => (stoul text).map fun n => n.toUInt32 + 1
  | _ => some 1

/-- What `handleCreateRoom` carries along. -/
structure Creation where
  conn : Conn
  msg : MyMessage
  session : SessionRef
  id : UInt32
  deriving DecidableEq, Repr

/-- Where a call is.  Every call is made once. -/
inductive Call where
  | ready
  /-- `handleCreateRoom`: before `next_room_id_++` -/
  | draw (conn : Conn) (msg : MyMessage) (x : SessionRef)
  | insert (c : Creation)
  /-- the row is in, `rooms_[room_id] = room` is next -/
  | register (c : Creation)
  | addMember (c : Creation) (ρ : RoomRef)
  | setRoomId (c : Creation)
  | respond (c : Creation)
  | answered (resp : MyMessage)
  /-- `checkAndRemoveEmptyRoom`: before the lookup -/
  | check (id : UInt32)
  /-- `rooms_mutex_` is held, and the room was empty -/
  | erase (id : UInt32)
  /-- the room is gone, the row is next -/
  | delete (id : UInt32)
  | cleaned
  deriving DecidableEq, Repr

/-- The service, the table `rooms` of the database, and the calls of the workers. -/
structure Backed where
  tables : Tables
  rows : AList fun _ : UInt32 => Bytes
  calls : Nat → Call
  /-- who holds `rooms_mutex_` between `memberCount` and `erase` -/
  holder : Option Nat

/-- What the other handlers do to sessions and members. -/
inductive Other where
  | login (conn : Conn) (username : Bytes)
  | dropSession (fd : Int)
  | addMember (ρ : RoomRef) (x : SessionRef)
  | removeFromRoom (id : UInt32) (x : SessionRef)
  | setRoomId (x : SessionRef) (id : UInt32)
  deriving DecidableEq, Repr

def Other.apply (t : Tables) : Other → Tables
  | login conn username => t.openSession conn username
  | dropSession fd => t.dropSession fd
  | addMember ρ x => t.addMember ρ x
  | removeFromRoom id x => t.removeFromRoom id x
  | setRoomId x id => t.setRoomId x id

/-- The label names the call that moves, and what the database answers. -/
inductive RowAct where
  | create (k : Nat) (conn : Conn) (msg : MyMessage)
  | clean (k : Nat) (id : UInt32)
  | draw (k : Nat)
  | register (k : Nat)
  | advance (k : Nat)
  | execute (k : Nat) (outcome : Stmt Unit)
  | other (o : Other)
  deriving DecidableEq, Repr

namespace Backed

/-- Before the first message. -/
def init (rows : AList fun _ : UInt32 => Bytes) (first : UInt32) : Backed where
  tables := Tables.init first
  rows := rows
  calls := fun _ => .ready
  holder := none

/-- The start on a given table, as far as `MAX(id)` is read. -/
def start (rows : AList fun _ : UInt32 => Bytes) (maxId : MaxId) : Option Backed :=
  (initIdsFromDatabase maxId).map (init rows)

def setCall (w : Backed) (k : Nat) (c : Call) : Backed :=
  { w with calls := Function.update w.calls k c }

/-- A response of `handleCreateRoom` ends the call. -/
def answer (w : Backed) (k : Nat) (type : MyType) (msg : MyMessage) (payload : Bytes) : Backed :=
  w.setCall k (.answered ⟨type, msg.id, payload⟩)

/-- The start of `handleCreateRoom`. -/
def create (w : Backed) (k : Nat) (conn : Conn) (msg : MyMessage) : Backed :=
  match w.tables.sessions.lookup conn.fd with
  | none => w.answer k .errorResp msg (ascii "Not logged in")
  | some x =>
    if msg.payload.isEmpty then w.answer k .errorResp msg (ascii "Room name empty")
    else w.setCall k (.draw conn msg x)

/-- `next_room_id_++`. -/
def draw (w : Backed) (k : Nat) : Option Backed :=
  match w.calls k with
  | .draw conn msg x =>
    some { w.setCall k (.insert ⟨conn, msg, x, w.tables.nextRoomId⟩) with
      tables := w.tables.drawRoomId }
  | _ => none

/-- `rooms_[room_id] = room`. -/
def register (w : Backed) (k : Nat) : Option Backed :=
  match w.calls k with
  | .register c =>
    if w.holder.isSome then none
    else some { w.setCall k (.addMember c w.tables.freshRoom) with
      tables := w.tables.newRoom c.id c.msg.payload }
  | _ => none

/-- The other steps that the database has no part in. -/
def advance (w : Backed) (k : Nat) : Option Backed :=
  match w.calls k with
  | .addMember c ρ =>
    some { w.setCall k (.setRoomId c) with tables := w.tables.addMember ρ c.session }
  | .setRoomId c =>
    some { w.setCall k (.respond c) with tables := w.tables.setRoomId c.session c.id }
  | .respond c =>
    some (w.answer k .createRoomResp c.msg (ascii "OK|" ++ toDecimal c.id.toNat ++ ascii "|1"))
  | .check id =>
    -- `roomsMutex_` is held from here to the end of `.erase`
    if w.holder.isSome then none
    else
      match w.tables.rooms.lookup id with
      | none => some (w.setCall k .cleaned)
      | some ρ =>
        if (w.tables.roomAt ρ).memberCount = 0 then
          some { w.setCall k (.erase id) with holder := some k }
        else some (w.setCall k .cleaned)
  | .erase id =>
    some { w.setCall k (.delete id) with
      tables := { w.tables with rooms := w.tables.rooms.erase id }
      holder := none }
  | _ => none

/-- A statement.  The primary key refuses a second row of the same id. -/
def execute (w : Backed) (k : Nat) (outcome : Stmt Unit) : Option Backed :=
  match w.calls k with
  | .insert c =>
    match outcome with
    | .executed () =>
      if (w.rows.lookup c.id).isSome then none
      else some { w.setCall k (.register c) with rows := w.rows.insert c.id c.msg.payload }
    | _ => some (w.answer k .createRoomResp c.msg (ascii "FAIL"))
  | .delete id =>
    match outcome with
    | .executed () => some { w.setCall k .cleaned with rows := w.rows.erase id }
    | _ => some (w.setCall k .cleaned)
  | _ => none

def step (w : Backed) : RowAct → Option Backed
  | .create k conn msg => if w.calls k = .ready then some (w.create k conn msg) else none
  | .clean k id => if w.calls k = .ready then some (w.setCall k (.check id)) else none
  | .draw k => w.draw k
  | .register k => w.register k
  | .advance k => w.advance k
  | .execute k outcome => w.execute k outcome
  | .other o => some { w with tables := o.apply w.tables }

/-! ## §2 Everything a step can do -/

/-- The room id in a successful `CREATE_ROOM_RESP`, as the client reads it. -/
def createdId (resp : MyMessage) : Option UInt32 :=
  if resp.type = .createRoomResp then (MyMessage.count 0 resp).map Prod.fst else none

/-- The successful answer. -/
def created (c : Creation) : MyMessage :=
  ⟨.createRoomResp, c.msg.id, ascii "OK|" ++ toDecimal c.id.toNat ++ ascii "|1"⟩

theorem createdId_created (c : Creation) : createdId (created c) = some c.id := by
  have hone : ascii "|1" = ascii "|" ++ ascii "1" := by decide
  have hread : readCount (toDecimal c.id.toNat ++ ascii "|" ++ ascii "1") = some (c.id, 1) :=
    readCount_append c.id (by decide)
  unfold createdId created
  simp only [MyMessage.count, if_true]
  rw [hone, List.append_assoc, afterOk_append, Option.bind_some, ← List.append_assoc, hread]
  rfl

/-- Inversion of `step`. -/
inductive Step (w : Backed) : RowAct → Backed → Prop where
  | refused {k : Nat} {conn : Conn} {msg resp : MyMessage} (hpc : w.calls k = .ready)
      (hresp : createdId resp = none) : Step w (.create k conn msg) (w.setCall k (.answered resp))
  | start {k : Nat} {conn : Conn} {msg : MyMessage} {x : SessionRef} (hpc : w.calls k = .ready) :
      Step w (.create k conn msg) (w.setCall k (.draw conn msg x))
  | clean {k : Nat} {id : UInt32} (hpc : w.calls k = .ready) :
      Step w (.clean k id) (w.setCall k (.check id))
  | draw {k : Nat} {conn : Conn} {msg : MyMessage} {x : SessionRef}
      (hpc : w.calls k = .draw conn msg x) :
      Step w (.draw k) { w.setCall k (.insert ⟨conn, msg, x, w.tables.nextRoomId⟩) with
        tables := w.tables.drawRoomId }
  | failed {k : Nat} {c : Creation} {outcome : Stmt Unit} {resp : MyMessage}
      (hpc : w.calls k = .insert c) (hresp : createdId resp = none) :
      Step w (.execute k outcome) (w.setCall k (.answered resp))
  | inserted {k : Nat} {c : Creation} (hpc : w.calls k = .insert c)
      (hrow : w.rows.lookup c.id = none) :
      Step w (.execute k (.executed ())) { w.setCall k (.register c) with
        rows := w.rows.insert c.id c.msg.payload }
  | registered {k : Nat} {c : Creation} (hpc : w.calls k = .register c) (hfree : w.holder = none) :
      Step w (.register k) { w.setCall k (.addMember c w.tables.freshRoom) with
        tables := w.tables.newRoom c.id c.msg.payload }
  | entered {k : Nat} {c : Creation} {ρ : RoomRef} (hpc : w.calls k = .addMember c ρ) :
      Step w (.advance k) { w.setCall k (.setRoomId c) with
        tables := w.tables.addMember ρ c.session }
  | placed {k : Nat} {c : Creation} (hpc : w.calls k = .setRoomId c) :
      Step w (.advance k) { w.setCall k (.respond c) with
        tables := w.tables.setRoomId c.session c.id }
  | responded {k : Nat} {c : Creation} (hpc : w.calls k = .respond c) :
      Step w (.advance k) (w.setCall k (.answered (created c)))
  | kept {k : Nat} {id : UInt32} (hpc : w.calls k = .check id) :
      Step w (.advance k) (w.setCall k .cleaned)
  | found {k : Nat} {id : UInt32} {ρ : RoomRef} (hpc : w.calls k = .check id)
      (hfree : w.holder = none) (hρ : w.tables.rooms.lookup id = some ρ) :
      Step w (.advance k) { w.setCall k (.erase id) with holder := some k }
  | erased {k : Nat} {id : UInt32} (hpc : w.calls k = .erase id) :
      Step w (.advance k) { w.setCall k (.delete id) with
        tables := { w.tables with rooms := w.tables.rooms.erase id }
        holder := none }
  | deleted {k : Nat} {id : UInt32} (hpc : w.calls k = .delete id) :
      Step w (.execute k (.executed ())) { w.setCall k .cleaned with rows := w.rows.erase id }
  | orphaned {k : Nat} {id : UInt32} {outcome : Stmt Unit} (hpc : w.calls k = .delete id) :
      Step w (.execute k outcome) (w.setCall k .cleaned)
  | other {o : Other} : Step w (.other o) { w with tables := o.apply w.tables }

theorem create_cases {w : Backed} {k : Nat} {conn : Conn} {msg : MyMessage}
    (hpc : w.calls k = .ready) : w.Step (.create k conn msg) (w.create k conn msg) := by
  unfold create
  cases w.tables.sessions.lookup conn.fd with
  | none => exact .refused hpc rfl
  | some x =>
    dsimp only
    split_ifs
    · exact .refused hpc rfl
    · exact .start hpc

theorem advance_cases {w w' : Backed} {k : Nat} (h : w.advance k = some w') :
    w.Step (.advance k) w' := by
  unfold advance at h
  cases hpc : w.calls k with
  | addMember c ρ =>
    simp only [hpc, Option.some.injEq] at h
    subst h
    exact .entered hpc
  | setRoomId c =>
    simp only [hpc, Option.some.injEq] at h
    subst h
    exact .placed hpc
  | respond c =>
    simp only [hpc, Option.some.injEq] at h
    subst h
    exact .responded hpc
  | check id =>
    simp only [hpc] at h
    split_ifs at h with hheld
    cases hρ : w.tables.rooms.lookup id with
    | none =>
      simp only [hρ, Option.some.injEq] at h
      subst h
      exact .kept hpc
    | some ρ =>
      simp only [hρ] at h
      split_ifs at h with hempty
      · cases h
        exact .found hpc (by simpa using hheld) hρ
      · cases h
        exact .kept hpc
  | erase id =>
    simp only [hpc, Option.some.injEq] at h
    subst h
    exact .erased hpc
  | _ => simp [hpc] at h

theorem execute_cases {w w' : Backed} {k : Nat} {outcome : Stmt Unit}
    (h : w.execute k outcome = some w') : w.Step (.execute k outcome) w' := by
  unfold execute at h
  cases hpc : w.calls k with
  | insert c =>
    cases outcome with
    | executed result =>
      simp only [hpc] at h
      split_ifs at h with hrow
      cases h
      exact .inserted hpc (by simpa using hrow)
    | noConnection | initFailed | prepareFailed | bindParamFailed | executeFailed =>
      simp only [hpc, Option.some.injEq] at h
      subst h
      exact .failed hpc rfl
  | delete id =>
    cases outcome with
    | executed result =>
      simp only [hpc, Option.some.injEq] at h
      subst h
      exact .deleted hpc
    | noConnection | initFailed | prepareFailed | bindParamFailed | executeFailed =>
      simp only [hpc, Option.some.injEq] at h
      subst h
      exact .orphaned hpc
  | _ => simp [hpc] at h

theorem step_cases {w w' : Backed} {a : RowAct} (h : w.step a = some w') : w.Step a w' := by
  cases a with
  | create k conn msg =>
    simp only [step] at h
    split_ifs at h with hpc
    cases h
    exact create_cases hpc
  | clean k id =>
    simp only [step] at h
    split_ifs at h with hpc
    cases h
    exact .clean hpc
  | draw k =>
    simp only [step, draw] at h
    split at h
    next hpc =>
      cases h
      exact .draw hpc
    next => cases h
  | register k =>
    simp only [step, register] at h
    split at h
    next hpc =>
      split_ifs at h with hheld
      cases h
      exact .registered hpc (by simpa using hheld)
    next => cases h
  | advance k => exact advance_cases h
  | execute k outcome => exact execute_cases h
  | other o =>
    cases h
    exact .other

end Backed

/-! ## §3 Who a row belongs to -/

/-- The row that a call is responsible for: it is in, and no room is registered under it. -/
def Call.row : Call → Option UInt32
  | .register c => some c.id
  | .delete id => some id
  | _ => none

namespace Backed

theorem calls_setCall (w : Backed) (k j : Nat) (c : Call) :
    (w.setCall k c).calls j = if j = k then c else w.calls j :=
  Function.update_apply w.calls k c j

/-- The invariant. -/
structure Inv (w : Backed) : Prop where
  rooms_row : ∀ id, (w.tables.rooms.lookup id).isSome = true → (w.rows.lookup id).isSome = true
  owned : ∀ k id, (w.calls k).row = some id →
    (w.rows.lookup id).isSome = true ∧ w.tables.rooms.lookup id = none
  unique : ∀ k k' id, (w.calls k).row = some id → (w.calls k').row = some id → k = k'
  erasing : ∀ k id, w.calls k = .erase id →
    w.holder = some k ∧ (w.tables.rooms.lookup id).isSome = true

namespace Inv

theorem init (rows : AList fun _ : UInt32 => Bytes) (first : UInt32) : (init rows first).Inv := by
  refine ⟨fun id h => ?_, fun k id h => ?_, fun k k' id h => ?_, fun k id h => ?_⟩
  · simp [Backed.init, Tables.init] at h
  · cases h
  · cases h
  · cases h

variable {w : Backed} (h : w.Inv)
include h

/-- The rooms decide, not what else is in the tables. -/
theorem tables {t : Tables} (hrooms : t.rooms = w.tables.rooms) : Inv { w with tables := t } where
  rooms_row := fun id hid => h.rooms_row id (hrooms ▸ hid)
  owned := fun k id hk => ⟨(h.owned k id hk).1, hrooms.symm ▸ (h.owned k id hk).2⟩
  unique := h.unique
  erasing := fun k id hk => ⟨(h.erasing k id hk).1, hrooms.symm ▸ (h.erasing k id hk).2⟩

/-- A call moves to where it is not responsible for a row. -/
theorem setCall (k : Nat) {c : Call} (hrow : c.row = none) (herase : ∀ id, c ≠ .erase id) :
    (w.setCall k c).Inv := by
  have hcalls : ∀ j id, ((w.setCall k c).calls j).row = some id → (w.calls j).row = some id := by
    intro j id hj
    rw [calls_setCall] at hj
    split_ifs at hj
    · rw [hrow] at hj
      cases hj
    · exact hj
  refine ⟨h.rooms_row, fun j id hj => h.owned j id (hcalls j id hj),
    fun j j' id hj hj' => h.unique j j' id (hcalls j id hj) (hcalls j' id hj'), fun j id hj => ?_⟩
  rw [calls_setCall] at hj
  split_ifs at hj
  · exact absurd hj (herase id)
  · exact h.erasing j id hj

/-- The row of a successful insertion belongs to its creator. -/
theorem inserted (k : Nat) {c : Creation} (hrow : w.rows.lookup c.id = none) :
    Inv { w.setCall k (.register c) with rows := w.rows.insert c.id c.msg.payload } := by
  have hrows : ∀ id, (w.rows.lookup id).isSome = true →
      ((w.rows.insert c.id c.msg.payload).lookup id).isSome = true := by
    intro id hid
    by_cases heq : id = c.id
    · subst heq
      rw [AList.lookup_insert]
      rfl
    · rwa [AList.lookup_insert_ne heq]
  -- nobody else has anything under this id
  have hroom : w.tables.rooms.lookup c.id = none := by
    cases hlookup : w.tables.rooms.lookup c.id with
    | none => rfl
    | some ρ =>
      have hsome := h.rooms_row c.id (by rw [hlookup]; rfl)
      rw [hrow] at hsome
      cases hsome
  have hother : ∀ j, (w.calls j).row ≠ some c.id := by
    intro j hj
    have hsome := (h.owned j c.id hj).1
    rw [hrow] at hsome
    cases hsome
  refine ⟨fun id hid => hrows id (h.rooms_row id hid), fun j id hj => ?_,
    fun j j' id hj hj' => ?_, fun j id hj => ?_⟩
  · change ((w.setCall k (.register c)).calls j).row = some id at hj
    rw [calls_setCall] at hj
    split_ifs at hj
    · obtain rfl : c.id = id := Option.some.inj hj
      refine ⟨?_, hroom⟩
      change ((w.rows.insert c.id c.msg.payload).lookup c.id).isSome = true
      rw [AList.lookup_insert]
      rfl
    · exact ⟨hrows id (h.owned j id hj).1, (h.owned j id hj).2⟩
  · change ((w.setCall k (.register c)).calls j).row = some id at hj
    change ((w.setCall k (.register c)).calls j').row = some id at hj'
    rw [calls_setCall] at hj hj'
    split_ifs at hj hj' with hjk hjk'
    · exact hjk.trans hjk'.symm
    · exact absurd (Option.some.inj hj ▸ hj') (hother j')
    · exact absurd (Option.some.inj hj' ▸ hj) (hother j)
    · exact h.unique j j' id hj hj'
  · change (w.setCall k (.register c)).calls j = .erase id at hj
    rw [calls_setCall] at hj
    split_ifs at hj
    exact h.erasing j id hj

/-- The creator hands its row over to the room. -/
theorem registered {k : Nat} {c : Creation} (hpc : w.calls k = .register c)
    (hfree : w.holder = none) (ρ : RoomRef) :
    Inv { w.setCall k (.addMember c ρ) with tables := w.tables.newRoom c.id c.msg.payload } := by
  have hk : (w.calls k).row = some c.id := by rw [hpc]; rfl
  have hset := h.setCall k (c := .addMember c ρ) rfl fun _ h => nomatch h
  refine ⟨fun id hid => ?_, fun j id hj => ?_, hset.unique, fun j id hj => ?_⟩
  -- the row of the new room is the one its creator has inserted
  · by_cases heq : id = c.id
    · subst heq
      exact (h.owned k c.id hk).1
    · rw [Tables.newRoom, AList.lookup_insert_ne heq] at hid
      exact h.rooms_row id hid
  · obtain ⟨hrow, hroom⟩ := hset.owned j id hj
    refine ⟨hrow, ?_⟩
    -- nobody else is responsible for that row
    have hne : id ≠ c.id := by
      rintro rfl
      change ((w.setCall k (.addMember c ρ)).calls j).row = some c.id at hj
      rw [calls_setCall] at hj
      split_ifs at hj with hjk
      · cases hj
      · exact hjk (h.unique j k c.id hj hk)
    exact (AList.lookup_insert_ne hne).trans hroom
  · have hheld := (hset.erasing j id hj).1
    rw [show (w.setCall k (.addMember c ρ)).holder = w.holder from rfl, hfree] at hheld
    cases hheld

/-- A cleaner takes hold of an empty room. -/
theorem found (k : Nat) {id : UInt32} {ρ : RoomRef} (hfree : w.holder = none)
    (hρ : w.tables.rooms.lookup id = some ρ) :
    Inv { w.setCall k (.erase id) with holder := some k } := by
  -- a cleaner before its erase is not responsible for a row
  have hcalls : ∀ j id', ((w.setCall k (.erase id)).calls j).row = some id' →
      (w.calls j).row = some id' := by
    intro j id' hj
    rw [calls_setCall] at hj
    split_ifs at hj
    · cases hj
    · exact hj
  refine ⟨h.rooms_row, fun j id' hj => h.owned j id' (hcalls j id' hj),
    fun j j' id' hj hj' => h.unique j j' id' (hcalls j id' hj) (hcalls j' id' hj'),
    fun j id' hj => ?_⟩
  change (w.setCall k (.erase id)).calls j = .erase id' at hj
  rw [calls_setCall] at hj
  split_ifs at hj with hjk
  · cases hj
    exact ⟨congrArg some hjk.symm, Option.isSome_iff_exists.mpr ⟨ρ, hρ⟩⟩
  · have hheld := (h.erasing j id' hj).1
    rw [hfree] at hheld
    cases hheld

/-- The room hands its row over to the cleaner. -/
theorem erased {k : Nat} {id : UInt32} (hpc : w.calls k = .erase id) :
    Inv { w.setCall k (.delete id) with
      tables := { w.tables with rooms := w.tables.rooms.erase id }
      holder := none } := by
  obtain ⟨hheld, hroom⟩ := h.erasing k id hpc
  have hother : ∀ j, (w.calls j).row ≠ some id := by
    intro j hj
    rw [(h.owned j id hj).2] at hroom
    cases hroom
  have hrooms : ∀ {id' : UInt32}, w.tables.rooms.lookup id' = none →
      (w.tables.rooms.erase id).lookup id' = none := by
    intro id' hid'
    by_cases heq : id' = id
    · subst heq
      exact AList.lookup_erase ..
    · rwa [AList.lookup_erase_ne heq]
  refine ⟨fun id' hid' => ?_, fun j id' hj => ?_, fun j j' id' hj hj' => ?_, fun j id' hj => ?_⟩
  · by_cases heq : id' = id
    · subst heq
      exact h.rooms_row id' hroom
    · change ((w.tables.rooms.erase id).lookup id').isSome = true at hid'
      rw [AList.lookup_erase_ne heq] at hid'
      exact h.rooms_row id' hid'
  · change ((w.setCall k (.delete id)).calls j).row = some id' at hj
    rw [calls_setCall] at hj
    split_ifs at hj
    · obtain rfl : id = id' := Option.some.inj hj
      exact ⟨h.rooms_row id hroom, AList.lookup_erase ..⟩
    · exact ⟨(h.owned j id' hj).1, hrooms (h.owned j id' hj).2⟩
  · change ((w.setCall k (.delete id)).calls j).row = some id' at hj
    change ((w.setCall k (.delete id)).calls j').row = some id' at hj'
    rw [calls_setCall] at hj hj'
    split_ifs at hj hj' with hjk hjk'
    · exact hjk.trans hjk'.symm
    · exact absurd (Option.some.inj hj ▸ hj') (hother j')
    · exact absurd (Option.some.inj hj' ▸ hj) (hother j)
    · exact h.unique j j' id' hj hj'
  · change (w.setCall k (.delete id)).calls j = .erase id' at hj
    rw [calls_setCall] at hj
    split_ifs at hj with hjk
    -- nobody but the holder is there
    have hj' := (h.erasing j id' hj).1
    rw [hheld] at hj'
    exact absurd (Option.some.inj hj').symm hjk

/-- The cleaner deletes its own row. -/
theorem deleted {k : Nat} {id : UInt32} (hpc : w.calls k = .delete id) :
    Inv { w.setCall k .cleaned with rows := w.rows.erase id } := by
  have hk : (w.calls k).row = some id := by rw [hpc]; rfl
  have hset := h.setCall k (c := .cleaned) rfl fun _ h => nomatch h
  have hrows : ∀ {id' : UInt32}, id' ≠ id → (w.rows.lookup id').isSome = true →
      ((w.rows.erase id).lookup id').isSome = true := by
    intro id' hne hid'
    rwa [AList.lookup_erase_ne hne]
  refine ⟨fun id' hid' => hrows ?_ (h.rooms_row id' hid'), fun j id' hj => ?_, hset.unique,
    hset.erasing⟩
  -- a room of that id would have kept its row
  · rintro rfl
    change (w.tables.rooms.lookup id').isSome = true at hid'
    rw [(h.owned k id' hk).2] at hid'
    cases hid'
  · obtain ⟨hrow, hroom⟩ := hset.owned j id' hj
    refine ⟨hrows ?_ hrow, hroom⟩
    rintro rfl
    change ((w.setCall k .cleaned).calls j).row = some id' at hj
    rw [calls_setCall] at hj
    split_ifs at hj with hjk
    · cases hj
    · exact hjk (h.unique j k id' hj hk)

end Inv

theorem other_rooms (t : Tables) (o : Other) : (o.apply t).rooms = t.rooms := by
  cases o with
  | removeFromRoom id x => exact t.removeFromRoom_rooms id x
  | _ => rfl

/-- The step lemma. -/
theorem Inv.step {w w' : Backed} {a : RowAct} (h : w.Inv) (hstep : w.step a = some w') :
    w'.Inv := by
  cases step_cases hstep with
  | refused => exact h.setCall _ rfl fun _ h => nomatch h
  | start => exact h.setCall _ rfl fun _ h => nomatch h
  | clean => exact h.setCall _ rfl fun _ h => nomatch h
  | draw => exact (h.tables (t := w.tables.drawRoomId) rfl).setCall _ rfl fun _ h => nomatch h
  | failed => exact h.setCall _ rfl fun _ h => nomatch h
  | inserted _ hrow => exact h.inserted _ hrow
  | registered hpc hfree => exact h.registered hpc hfree _
  | @entered k c ρ =>
    exact (h.tables (t := w.tables.addMember ρ c.session) rfl).setCall k rfl fun _ h => nomatch h
  | @placed k c =>
    exact (h.tables (t := w.tables.setRoomId c.session c.id) rfl).setCall k rfl
      fun _ h => nomatch h
  | responded => exact h.setCall _ rfl fun _ h => nomatch h
  | kept => exact h.setCall _ rfl fun _ h => nomatch h
  | found _ hfree hρ => exact h.found _ hfree hρ
  | erased hpc => exact h.erased hpc
  | deleted hpc => exact h.deleted hpc
  | orphaned => exact h.setCall _ rfl fun _ h => nomatch h
  | @other o => exact h.tables (other_rooms w.tables o)

/-! ## §4 The ids of the answers -/

end Backed

/-- The id that a creation has drawn, up to its successful answer. -/
def Call.drawn : Call → Option UInt32
  | .insert c | .register c | .addMember c _ | .setRoomId c | .respond c => some c.id
  | .answered resp => Backed.createdId resp
  | _ => none

/-- `next_room_id_++`. -/
def RowAct.isDraw : RowAct → Bool
  | .draw _ => true
  | _ => false

namespace Backed

/-- `n` ids were drawn, from `first` on, each by one call. -/
def Draws (first : UInt32) (n : Nat) (w : Backed) : Prop :=
  w.tables.nextRoomId = first + UInt32.ofNat n ∧
  ∃ index : Nat → Nat,
    (∀ k id, (w.calls k).drawn = some id → index k < n ∧ id = first + UInt32.ofNat (index k)) ∧
    ∀ k k' id id', (w.calls k).drawn = some id → (w.calls k').drawn = some id' →
      index k = index k' → k = k'

namespace Draws

variable {first : UInt32} {n : Nat} {w w' : Backed}

/-- A step that draws nothing. -/
theorem of_sub (h : w.Draws first n) (hnext : w'.tables.nextRoomId = w.tables.nextRoomId)
    (hsub : ∀ k id, (w'.calls k).drawn = some id → (w.calls k).drawn = some id) :
    w'.Draws first n := by
  obtain ⟨hn, index, hindex, hinj⟩ := h
  exact ⟨hnext.trans hn, index, fun k id hk => hindex k id (hsub k id hk),
    fun k k' id id' hk hk' => hinj k k' id id' (hsub k id hk) (hsub k' id' hk')⟩

theorem setCall (h : w.Draws first n) (k : Nat) {c : Call}
    (hdrawn : c.drawn = none ∨ c.drawn = (w.calls k).drawn) : (w.setCall k c).Draws first n := by
  refine h.of_sub rfl fun j id hj => ?_
  rw [calls_setCall] at hj
  split_ifs at hj with hjk
  · rcases hdrawn with hnone | hsame
    · rw [hnone] at hj
      cases hj
    · rw [hjk, ← hsame]
      exact hj
  · exact hj

theorem draw (h : w.Draws first n) (k : Nat) {c : Creation} (hid : c.id = w.tables.nextRoomId) :
    Draws first (n + 1) { w.setCall k (.insert c) with tables := w.tables.drawRoomId } := by
  obtain ⟨hn, index, hindex, hinj⟩ := h
  refine ⟨?_, Function.update index k n, fun j id hj => ?_, fun j j' id id' hj hj' heq => ?_⟩
  · change w.tables.nextRoomId + 1 = _
    rw [hn, UInt32.ofNat_add, UInt32.add_assoc]
    rfl
  · change ((w.setCall k (.insert c)).calls j).drawn = some id at hj
    rw [calls_setCall] at hj
    rw [Function.update_apply]
    split_ifs at hj ⊢
    · obtain rfl : c.id = id := Option.some.inj hj
      exact ⟨Nat.lt_succ_self n, hid.trans hn⟩
    · obtain ⟨hlt, hid'⟩ := hindex j id hj
      exact ⟨Nat.lt_succ_of_lt hlt, hid'⟩
  · change ((w.setCall k (.insert c)).calls j).drawn = some id at hj
    change ((w.setCall k (.insert c)).calls j').drawn = some id' at hj'
    rw [calls_setCall] at hj hj'
    rw [Function.update_apply, Function.update_apply] at heq
    split_ifs at hj hj' heq with hjk hjk'
    · exact hjk.trans hjk'.symm
    -- the new draw has an index of its own
    · exact absurd (heq ▸ (hindex j' id' hj').1) (lt_irrefl _)
    · exact absurd (heq ▸ (hindex j id hj).1) (lt_irrefl _)
    · exact hinj j j' id id' hj hj' heq

/-- Until the counter has gone round, the ids of two calls differ. -/
theorem id_ne (h : w.Draws first n) (hn : n ≤ 2 ^ 32) {k k' : Nat} (hne : k ≠ k') {id id' : UInt32}
    (hk : (w.calls k).drawn = some id) (hk' : (w.calls k').drawn = some id') : id ≠ id' := by
  obtain ⟨-, index, hindex, hinj⟩ := h
  obtain ⟨hlt, rfl⟩ := hindex k id hk
  obtain ⟨hlt', rfl⟩ := hindex k' id' hk'
  intro heq
  have hmod := congrArg UInt32.toNat ((UInt32.add_right_inj first).mp heq)
  rw [UInt32.toNat_ofNat_of_lt' (show index k < 2 ^ 32 by omega),
    UInt32.toNat_ofNat_of_lt' (show index k' < 2 ^ 32 by omega)] at hmod
  exact hne (hinj k k' _ _ hk hk' hmod)

end Draws

theorem Draws.init (rows : AList fun _ : UInt32 => Bytes) (first : UInt32) :
    (init rows first).Draws first 0 := by
  refine ⟨by simp [Backed.init, Tables.init], fun _ => 0, fun k id h => ?_, fun k k' id id' h => ?_⟩
  · cases h
  · cases h

theorem other_nextRoomId (t : Tables) (o : Other) : (o.apply t).nextRoomId = t.nextRoomId := by
  cases o with
  | removeFromRoom id x => exact t.removeFromRoom_nextRoomId id x
  | _ => rfl

/-- The step lemma. -/
theorem Draws.step {first : UInt32} {n : Nat} {w w' : Backed} {a : RowAct}
    (h : w.Draws first n) (hstep : w.step a = some w') :
    w'.Draws first (n + if a.isDraw then 1 else 0) := by
  cases step_cases hstep with
  | refused _ hresp => exact h.setCall _ (Or.inl hresp)
  | start => exact h.setCall _ (Or.inl rfl)
  | clean => exact h.setCall _ (Or.inl rfl)
  | draw => exact h.draw _ rfl
  | failed _ hresp => exact h.setCall _ (Or.inl hresp)
  | @inserted k c hpc =>
    exact (h.setCall k (c := .register c) (Or.inr (by rw [hpc]; rfl))).of_sub rfl fun _ _ h => h
  | @registered k c hpc =>
    exact (h.setCall k (c := .addMember c w.tables.freshRoom) (Or.inr (by rw [hpc]; rfl))).of_sub
      rfl fun _ _ h => h
  | @entered k c ρ hpc =>
    exact (h.setCall k (c := .setRoomId c) (Or.inr (by rw [hpc]; rfl))).of_sub rfl fun _ _ h => h
  | @placed k c hpc =>
    exact (h.setCall k (c := .respond c) (Or.inr (by rw [hpc]; rfl))).of_sub rfl fun _ _ h => h
  | @responded k c hpc => exact h.setCall k (Or.inr (by rw [hpc]; exact createdId_created c))
  | kept => exact h.setCall _ (Or.inl rfl)
  | @found k id => exact (h.setCall k (c := .erase id) (Or.inl rfl)).of_sub rfl fun _ _ h => h
  | @erased k id => exact (h.setCall k (c := .delete id) (Or.inl rfl)).of_sub rfl fun _ _ h => h
  | @deleted k => exact (h.setCall k (c := .cleaned) (Or.inl rfl)).of_sub rfl fun _ _ h => h
  | orphaned => exact h.setCall _ (Or.inl rfl)
  | @other o => exact h.of_sub (other_nextRoomId w.tables o) fun _ _ h => h

/-! ## §5 Failed creations -/

end Backed

/-- A creation that has inserted nothing, or has not begun. -/
def Call.harmless : Call → Bool
  | .ready | .draw .. | .insert _ => true
  | .answered resp => (Backed.createdId resp).isNone
  | _ => false

/-- The creation of a room in memory. -/
def RowAct.isRegister : RowAct → Bool
  | .register _ => true
  | _ => false

/-- The call that a label moves. -/
def RowAct.call : RowAct → Option Nat
  | .create k _ _ | .clean k _ | .draw k | .register k | .advance k | .execute k _ => some k
  | .other _ => none

namespace Backed

/-- A call that is not harmless stays so. -/
theorem harmless_of_step {w w' : Backed} {a : RowAct} {j : Nat} (hstep : w.step a = some w')
    (h : (w.calls j).harmless = false) : (w'.calls j).harmless = false := by
  have hset : ∀ {k : Nat} {c : Call}, (j = k → c.harmless = false) →
      ((w.setCall k c).calls j).harmless = false := by
    intro k c hc
    rw [calls_setCall]
    split_ifs with hjk
    · exact hc hjk
    · exact h
  -- the steps of a call that can still fail are no steps of call `j`
  have hcontra : ∀ {k : Nat}, (w.calls k).harmless = true → j ≠ k := by
    rintro k hk rfl
    rw [h] at hk
    cases hk
  cases step_cases hstep with
  | refused hpc => exact hset fun hjk => absurd hjk (hcontra (by rw [hpc]; rfl))
  | start hpc => exact hset fun hjk => absurd hjk (hcontra (by rw [hpc]; rfl))
  | draw hpc => exact hset fun hjk => absurd hjk (hcontra (by rw [hpc]; rfl))
  | failed hpc => exact hset fun hjk => absurd hjk (hcontra (by rw [hpc]; rfl))
  | @responded k c hpc =>
    refine hset fun _ => ?_
    rw [Call.harmless, createdId_created]
    rfl
  | other => exact h
  | _ => exact hset fun _ => rfl

/-- A step to a harmless state touches neither the rooms nor the room ids. -/
theorem frame_of_harmless {w w' : Backed} {a : RowAct} {k : Nat} (hstep : w.step a = some w')
    (hcall : a.call = some k) (h : (w'.calls k).harmless = true) :
    w'.tables.rooms = w.tables.rooms ∧
      ∀ x, (w'.tables.sessionAt x).roomId = (w.tables.sessionAt x).roomId := by
  have hset : ∀ {j : Nat} {c : Call}, some j = some k → c.harmless = false →
      ((w.setCall j c).calls k).harmless ≠ true := by
    intro j c hj hc
    rw [calls_setCall, if_pos (Option.some.inj hj).symm, hc]
    exact Bool.false_ne_true
  cases step_cases hstep with
  | registered => exact absurd h (hset hcall rfl)
  | placed => exact absurd h (hset hcall rfl)
  | erased => exact absurd h (hset hcall rfl)
  | other => cases hcall
  | _ => exact ⟨rfl, fun _ => rfl⟩

/-! ## §6 Runs -/

/-- **Rooms and rows.**  In every run of creations and cleanups, on any table and however the
statements fail: every registered room has a row; as long as at most `2 ^ 32` ids were drawn, two
successful answers never carry the same id; and no step of a creation that failed has touched
`rooms_` or the room id of a session. -/
theorem rooms_backed {rows : AList fun _ : UInt32 => Bytes} {maxId : MaxId} {w₀ w : Backed}
    {acts : List RowAct} (hstart : start rows maxId = some w₀)
    (hrun : run step w₀ acts = some w) :
    (∀ id, (w.tables.rooms.lookup id).isSome = true → (w.rows.lookup id).isSome = true) ∧
    (acts.countP RowAct.isDraw ≤ 2 ^ 32 → ∀ k k' resp resp' id id', k ≠ k' →
      w.calls k = .answered resp → createdId resp = some id →
      w.calls k' = .answered resp' → createdId resp' = some id' → id ≠ id') ∧
    ∀ k resp, w.calls k = .answered resp → createdId resp = none →
      ∀ pre a post u u', acts = pre ++ a :: post → a.call = some k →
        run step w₀ pre = some u → u.step a = some u' →
        u'.tables.rooms = u.tables.rooms ∧
        ∀ x, (u'.tables.sessionAt x).roomId = (u.tables.sessionAt x).roomId := by
  obtain ⟨first, -, rfl⟩ := Option.map_eq_some_iff.mp hstart
  refine ⟨?_, fun hdraws k k' resp resp' id id' hne hk hid hk' hid' => ?_,
    fun k resp hk hfail pre a post u u' hacts hcall hu hstep => ?_⟩
  · have hinv := run_invariant (P := Inv) (fun _ _ _ h hstep => h.step hstep)
      (Inv.init rows first) hrun
    exact hinv.rooms_row
  · have hinv := run_invariant_countP (P := Draws first)
      (fun _ _ _ _ h _ hstep => h.step hstep) (Draws.init rows first) (by simpa using hdraws) hrun
    rw [Nat.zero_add] at hinv
    exact hinv.id_ne hdraws hne (by rw [hk]; exact hid) (by rw [hk']; exact hid')
  · subst hacts
    obtain ⟨v, hv, hrest⟩ := run_append.mp hrun
    obtain rfl : u = v := Option.some.inj (hu.symm.trans hv)
    obtain ⟨v', hv', hlater⟩ := run_cons_eq_some.mp hrest
    obtain rfl : u' = v' := Option.some.inj (hstep.symm.trans hv')
    -- a call past its first effect never ends in a refusal
    refine frame_of_harmless hstep hcall ?_
    by_contra hharm
    have hend := run_invariant (P := fun w : Backed => (w.calls k).harmless = false)
      (fun _ _ _ h hs => harmless_of_step hs h) (Bool.eq_false_iff.mpr hharm) hlater
    rw [hk, Call.harmless, hfail] at hend
    cases hend

/-- `ann` creates two rooms; the first one is left and cleaned up, but its row stays. -/
def createCleanCreate : List RowAct :=
  [RowAct.other (.login ⟨0, 5⟩ (ascii "ann")),
    RowAct.create 0 ⟨0, 5⟩ ⟨.createRoomReq, 1, ascii "r"⟩, RowAct.draw 0,
    RowAct.execute 0 (.executed ()), RowAct.register 0, RowAct.advance 0, RowAct.advance 0,
    RowAct.advance 0, RowAct.other (.removeFromRoom 7 0), RowAct.clean 1 7, RowAct.advance 1,
    RowAct.advance 1, RowAct.execute 1 .noConnection,
    RowAct.create 2 ⟨0, 5⟩ ⟨.createRoomReq, 2, ascii "q"⟩, RowAct.draw 2,
    RowAct.execute 2 (.executed ()), RowAct.register 2, RowAct.advance 2, RowAct.advance 2,
    RowAct.advance 2]

theorem rooms_backed_two :
    ∃ w₀ w, start ∅ (.row (ascii "6")) = some w₀ ∧ run step w₀ createCleanCreate = some w ∧
      (w.rows.lookup 8).isSome = true := by
  have hlast : ((run step (init ∅ 7) createCleanCreate).any fun w =>
      (w.tables.rooms.lookup 8).isSome) = true := by
    decide +kernel
  obtain ⟨w, hrun, hroom⟩ := exists_of_run_any hlast
  have hstart : start ∅ (.row (ascii "6")) = some (init ∅ 7) := by
    have hfirst : initIdsFromDatabase (.row (ascii "6")) = some 7 := by decide
    rw [start, hfirst]
    rfl
  exact ⟨init ∅ 7, w, hstart, hrun, (rooms_backed hstart hrun).1 8 hroom⟩

/-! ## §7 A counter that goes round -/

/-- A call moves by its own labels only. -/
theorem calls_of_run {w w' : Backed} {acts : List RowAct} {k : Nat}
    (hrun : run step w acts = some w') (h : ∀ a ∈ acts, a.call ≠ some k) :
    w'.calls k = w.calls k := by
  induction acts generalizing w with
  | nil =>
    cases hrun
    rfl
  | cons a acts ih =>
    obtain ⟨u, hu, hrun⟩ := run_cons_eq_some.mp hrun
    rw [List.forall_mem_cons] at h
    rw [ih hrun h.2]
    have hset : ∀ {j : Nat} {c : Call}, some j ≠ some k → (w.setCall j c).calls k = w.calls k :=
      fun hj => Function.update_of_ne (fun heq => hj (congrArg some heq.symm)) _ _
    cases step_cases hu with
    | other => rfl
    | _ => exact hset h.1

section Creations

variable (conn : Conn) (msg : MyMessage)

/-- A creation that reaches the end. -/
def creation (k : Nat) : List RowAct :=
  [RowAct.create k conn msg, RowAct.draw k, RowAct.execute k (.executed ()), RowAct.register k,
    RowAct.advance k, RowAct.advance k, RowAct.advance k]

/-- Creations that get no connection to MySQL. -/
def failures (k : Nat) : Nat → List RowAct
  | 0 => []
  | n + 1 => [RowAct.create k conn msg, RowAct.draw k, RowAct.execute k .noConnection] ++
    failures (k + 1) n

theorem countP_failures (p : RowAct → Bool) (hcreate : ∀ k, p (.create k conn msg) = false)
    (hdraw : ∀ k, p (.draw k) = false) (hfail : ∀ k, p (.execute k .noConnection) = false)
    (k n : Nat) : (failures conn msg k n).countP p = 0 := by
  induction n generalizing k with
  | zero => rfl
  | succ n ih =>
    rw [failures, List.countP_append, ih]
    simp [hcreate, hdraw, hfail]

theorem call_of_mem_failures {k n : Nat} {a : RowAct} (h : a ∈ failures conn msg k n) {j : Nat}
    (hcall : a.call = some j) : k ≤ j ∧ j < k + n := by
  induction n generalizing k with
  | zero => cases h
  | succ n ih =>
    rcases List.mem_append.mp h with h | h
    · have hk : a.call = some k := by
        simp only [List.mem_cons, List.not_mem_nil, or_false] at h
        rcases h with rfl | rfl | rfl <;> rfl
      obtain rfl : k = j := Option.some.inj (hk.symm.trans hcall)
      omega
    · have hrange := ih h
      omega

variable {x : SessionRef} (hname : msg.payload ≠ [])
include hname

theorem step_create {w : Backed} {k : Nat} (hready : w.calls k = .ready)
    (hx : w.tables.sessions.lookup conn.fd = some x) :
    w.step (.create k conn msg) = some (w.setCall k (.draw conn msg x)) := by
  simp [step, hready, create, hx, hname]

/-- A creation that nothing disturbs answers with the next id. -/
theorem run_creation {w : Backed} {k : Nat} (hready : w.calls k = .ready)
    (hx : w.tables.sessions.lookup conn.fd = some x) (hfree : w.holder = none)
    (hrow : w.rows.lookup w.tables.nextRoomId = none) :
    ∃ w', run step w (creation conn msg k) = some w' ∧
      w'.calls k = .answered (created ⟨conn, msg, x, w.tables.nextRoomId⟩) := by
  unfold creation
  rw [run_cons, step_create conn msg hname hready hx, Option.bind_some]
  simp only [run_cons, run_nil, step, draw, execute, register, advance, setCall,
    Function.update_self, Option.bind_some, hrow, hfree, answer, Option.isSome_none,
    Bool.false_eq_true, if_false]
  exact ⟨_, rfl, Function.update_self ..⟩

/-- Failed creations draw ids and leave the rest as it is. -/
theorem run_failures {w : Backed} {k : Nat} (n : Nat) (hready : ∀ j, k ≤ j → w.calls j = .ready)
    (hx : w.tables.sessions.lookup conn.fd = some x) :
    ∃ w', run step w (failures conn msg k n) = some w' ∧
      w'.tables = { w.tables with nextRoomId := w.tables.nextRoomId + UInt32.ofNat n } ∧
      w'.rows = w.rows ∧ w'.holder = w.holder := by
  induction n generalizing w k with
  | zero => exact ⟨w, rfl, by simp, rfl, rfl⟩
  | succ n ih =>
    -- one failure draws an id and changes nothing else
    have hone : ∃ u, run step w [RowAct.create k conn msg, RowAct.draw k,
        RowAct.execute k .noConnection] = some u ∧ u.tables = w.tables.drawRoomId ∧
        u.rows = w.rows ∧ u.holder = w.holder := by
      rw [run_cons, step_create conn msg hname (hready k (le_refl k)) hx, Option.bind_some]
      simp only [run_cons, run_nil, step, draw, execute, setCall, Function.update_self,
        Option.bind_some, answer]
      exact ⟨_, rfl, rfl, rfl, rfl⟩
    obtain ⟨u, hu, htables, hrows, hholder⟩ := hone
    have hready' : ∀ j, k + 1 ≤ j → u.calls j = .ready := by
      intro j hj
      rw [calls_of_run hu, hready j (by omega)]
      have hne : some k ≠ some j := fun heq => by
        have := Option.some.inj heq
        omega
      simp [RowAct.call, hne]
    have hx' : u.tables.sessions.lookup conn.fd = some x := by
      rw [htables]
      exact hx
    obtain ⟨w', hw', htables', hrows', hholder'⟩ := ih hready' hx'
    refine ⟨w', run_append.mpr ⟨u, hu, hw'⟩, ?_, hrows'.trans hrows, hholder'.trans hholder⟩
    rw [htables', htables, Nat.add_comm n 1, UInt32.ofNat_add, ← UInt32.add_assoc]
    rfl

end Creations

/-- A room is created, left and cleaned up. -/
def createAndClean : List RowAct :=
  [RowAct.other (.login ⟨0, 5⟩ (ascii "ann"))] ++
    creation ⟨0, 5⟩ ⟨.createRoomReq, 1, ascii "r"⟩ 0 ++
    [RowAct.other (.removeFromRoom 1 0), RowAct.clean 1 1, RowAct.advance 1, RowAct.advance 1,
      RowAct.execute 1 (.executed ())]

/-- Then `n` creations fail, and one more succeeds. -/
def createAgain (n : Nat) : List RowAct :=
  createAndClean ++ (failures ⟨0, 5⟩ ⟨.createRoomReq, 1, ascii "r"⟩ 2 n ++
    creation ⟨0, 5⟩ ⟨.createRoomReq, 1, ascii "r"⟩ (2 + n))

theorem run_createAgain {n : Nat} (hn : (2 : UInt32) + UInt32.ofNat n = 1) :
    ∃ w, run step (init ∅ 1) (createAgain n) = some w ∧
      w.calls 0 = .answered (created ⟨⟨0, 5⟩, ⟨.createRoomReq, 1, ascii "r"⟩, 0, 1⟩) ∧
      w.calls (2 + n) = .answered (created ⟨⟨0, 5⟩, ⟨.createRoomReq, 1, ascii "r"⟩, 0, 1⟩) := by
  have hfirst : ((run step (init ∅ 1) createAndClean).any fun u =>
      decide (u.calls 0 = .answered (created ⟨⟨0, 5⟩, ⟨.createRoomReq, 1, ascii "r"⟩, 0, 1⟩) ∧
        u.tables.sessions.lookup 5 = some 0 ∧ u.tables.nextRoomId = 2 ∧
        u.rows.lookup 1 = none ∧ u.holder = none)) = true := by
    decide +kernel
  obtain ⟨u, hu, hfacts⟩ := exists_of_run_any hfirst
  obtain ⟨hzero, hx, hnext, hrow, hholder⟩ := of_decide_eq_true hfacts
  have hready : ∀ j, 2 ≤ j → u.calls j = .ready := by
    intro j hj
    refine (calls_of_run hu ?_).trans rfl
    have hcalls : ∀ a ∈ createAndClean, ∀ i, a.call = some i → i < 2 := by decide
    exact fun a ha hcall => absurd (hcalls a ha j hcall) (by omega)
  have hname : (⟨.createRoomReq, 1, ascii "r"⟩ : MyMessage).payload ≠ [] := by decide
  obtain ⟨v, hv, htables, hrows, hholder'⟩ := run_failures ⟨0, 5⟩ _ hname n hready hx
  -- the counter is back at 1
  have hnext' : v.tables.nextRoomId = 1 := by rw [htables, hnext, hn]
  have hready' : v.calls (2 + n) = .ready := by
    rw [calls_of_run hv fun a ha hcall => ?_, hready _ (by omega)]
    have hrange := call_of_mem_failures _ _ ha hcall
    omega
  have hx' : v.tables.sessions.lookup 5 = some 0 := by
    rw [htables]
    exact hx
  obtain ⟨w, hw, hlast⟩ := run_creation ⟨0, 5⟩ _ hname hready' hx' (hholder'.trans hholder)
    (by rw [hnext', hrows, hrow])
  refine ⟨w, run_append.mpr ⟨u, hu, run_append.mpr ⟨v, hv, hw⟩⟩, ?_, ?_⟩
  · rw [calls_of_run hw fun a ha hcall => ?_, calls_of_run hv fun a ha hcall => ?_, hzero]
    · have hrange := call_of_mem_failures _ _ ha hcall
      omega
    · simp only [creation, List.mem_cons, List.not_mem_nil, or_false] at ha
      have hk : a.call = some (2 + n) := by
        rcases ha with rfl | rfl | rfl | rfl | rfl | rfl | rfl <;> rfl
      have heq := Option.some.inj (hk.symm.trans hcall)
      omega
  · rw [hlast, hnext']

theorem countP_createAgain (n : Nat) : (createAgain n).countP RowAct.isRegister = 2 := by
  rw [createAgain, List.countP_append, List.countP_append,
    countP_failures _ _ RowAct.isRegister (fun _ => rfl) (fun _ => rfl) fun _ => rfl]
  rfl

/-- Two rooms are created, and both creations answer with id 1. -/
theorem id_drawn_again :
    ∃ acts w₀ w k k' resp resp', start ∅ (.row (ascii "0")) = some w₀ ∧
      run step w₀ acts = some w ∧ acts.countP RowAct.isRegister < 2 ^ 32 ∧ k ≠ k' ∧
      w.calls k = .answered resp ∧ createdId resp = some 1 ∧
      w.calls k' = .answered resp' ∧ createdId resp' = some 1 := by
  have hstart : start ∅ (.row (ascii "0")) = some (init ∅ 1) := by
    have hfirst : initIdsFromDatabase (.row (ascii "0")) = some 1 := by decide
    rw [start, hfirst]
    rfl
  obtain ⟨n, hn⟩ : ∃ n, (2 : UInt32) + UInt32.ofNat n = 1 := ⟨2 ^ 32 - 1, by decide⟩
  obtain ⟨w, hrun, hfirst, hlast⟩ := run_createAgain hn
  refine ⟨createAgain n, init ∅ 1, w, 0, 2 + n, _, _, hstart, hrun, ?_, by omega, hfirst,
    createdId_created _, hlast, createdId_created _⟩
  rw [countP_createAgain]
  decide

end Backed

end EchoNet.Chat
