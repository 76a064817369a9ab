import EchoNet.Chat.Tables

/-!
# The Room That Was Named

`handleJionRoom` reads a room id with `std::stoul`, in 64 bits and with a sign, and narrows it to
`uint32_t` before the lookup.  What the text denotes is then known modulo 2^32 only.
-/

namespace EchoNet.Chat

open EchoNet.Lib EchoNet.Protocol

/-! ## §1 Narrowing -/

theorem toUInt32_ofInt (v : Int) : (UInt64.ofInt v).toUInt32 = UInt32.ofInt v := by
  apply UInt32.toNat_inj.mp
  rw [UInt64.toNat_toUInt32, UInt64.ofInt, UInt32.ofInt, UInt64.toNat_ofNat', UInt32.toNat_ofNat']
  omega

/-- A word is the number that it was made of if that one fits. -/
theorem toNat_ofInt_eq_iff (v : Int) :
    v = ((UInt32.ofInt v).toNat : Int) ↔ 0 ≤ v ∧ v < 2 ^ 32 := by
  rw [UInt32.ofInt, UInt32.toNat_ofNat']
  omega

/-! ## §2 Joining -/

namespace Service

variable {s : Service} {env : Env} {conn : Conn} {msg : MyMessage}

/-- Whom `handleJionRoom` adds to which room: the session, the id and the `Room`. -/
def joins (s : Service) (conn : Conn) (msg : MyMessage) : Option (SessionRef × UInt32 × RoomRef) :=
  match s.getSessionByConn conn with
  | none => none
  | some x =>
    match stoul msg.payload with
    | none => none
    | some n => (s.getRoomById n.toUInt32).map fun target => (x, n.toUInt32, target)

/-- What `handleJionRoom` does to the tables. -/
theorem handleJionRoom_joins (s : Service) (env : Env) (conn : Conn) (msg : MyMessage) :
    (s.handleJionRoom env conn msg).toTables =
      match s.joins conn msg with
      | none => s.toTables
      | some (x, id, target) => s.toTables.join x id target := by
  unfold handleJionRoom joins
  cases s.getSessionByConn conn with
  | none => rfl
  | some x =>
    cases stoul msg.payload with
    | none => rfl
    | some n =>
      dsimp only
      cases s.getRoomById n.toUInt32 with
      | none => rfl
      | some target => simp

/-- A join enters the room that the payload names, and a refused one changes nothing. -/
structure EntersNamed (s : Service) (env : Env) (conn : Conn) (msg : MyMessage) : Prop where
  named : ∀ x id target, s.joins conn msg = some (x, id, target) →
    (s.handleJionRoom env conn msg).toTables = s.toTables.join x id target ∧
      numeral msg.payload = some (id.toNat : Int)
  refused : s.joins conn msg = none → (s.handleJionRoom env conn msg).toTables = s.toTables

/-- A join comes from a number that `stoul` accepts, and from the id that it is narrowed to. -/
theorem joins_eq_some {x : SessionRef} {id : UInt32} {target : RoomRef} :
    s.joins conn msg = some (x, id, target) ↔
      s.getSessionByConn conn = some x ∧ ∃ v, numeral msg.payload = some v ∧ v.natAbs < 2 ^ 64 ∧
        id = UInt32.ofInt v ∧ s.getRoomById id = some target := by
  constructor
  · intro h
    unfold joins at h
    cases hx : s.getSessionByConn conn with
    | none => simp [hx] at h
    | some y =>
      rw [hx, stoul_eq_numeral] at h
      cases hv : numeral msg.payload with
      | none => simp [hv] at h
      | some v =>
        rw [hv, Option.bind_some] at h
        split_ifs at h with hrange
        · dsimp only at h
          rw [toUInt32_ofInt] at h
          obtain ⟨ρ, hρ, heq⟩ := Option.map_eq_some_iff.mp h
          cases heq
          exact ⟨rfl, v, rfl, hrange, rfl, hρ⟩
  · rintro ⟨hx, v, hv, hrange, rfl, hroom⟩
    unfold joins
    rw [hx, stoul_eq_numeral, hv, Option.bind_some, if_pos hrange]
    dsimp only
    rw [toUInt32_ofInt, hroom]
    rfl

/-- What is in question is only whether a join enters the room that the payload names. -/
theorem entersNamed_iff_of_joins :
    s.EntersNamed env conn msg ↔ ∀ x id target, s.joins conn msg = some (x, id, target) →
      numeral msg.payload = some (id.toNat : Int) := by
  have htables := s.handleJionRoom_joins env conn msg
  constructor
  · exact fun h x id target hjoins => (h.named x id target hjoins).2
  · intro h
    refine ⟨fun x id target hjoins => ⟨?_, h x id target hjoins⟩, fun hjoins => ?_⟩
    · rw [hjoins] at htables
      exact htables
    · rw [hjoins] at htables
      exact htables

/-- A join enters the room that was named if and only if the connection has no session, or the
payload denotes no number that `stoul` takes, or a room id, or a number that is narrowed to the id
of no room. -/
theorem entersNamed_iff :
    s.EntersNamed env conn msg ↔
      s.getSessionByConn conn = none ∨
        ∀ v, numeral msg.payload = some v →
          2 ^ 64 ≤ v.natAbs ∨ (0 ≤ v ∧ v < 2 ^ 32) ∨ s.getRoomById (UInt32.ofInt v) = none := by
  rw [entersNamed_iff_of_joins]
  constructor
  · intro h
    cases hx : s.getSessionByConn conn with
    | none => exact Or.inl rfl
    | some x =>
      refine Or.inr fun v hv => ?_
      by_cases hrange : v.natAbs < 2 ^ 64
      · right
        cases hroom : s.getRoomById (UInt32.ofInt v) with
        | none => exact Or.inr rfl
        | some target =>
          have hnamed := h x _ target (joins_eq_some.mpr ⟨hx, v, hv, hrange, rfl, hroom⟩)
          rw [hv] at hnamed
          exact Or.inl ((toNat_ofInt_eq_iff v).mp (Option.some.inj hnamed))
      · exact Or.inl (Nat.not_lt.mp hrange)
  · intro h x id target hjoins
    obtain ⟨hx, v, hv, hrange, rfl, hroom⟩ := joins_eq_some.mp hjoins
    rcases h with hnone | hnumber
    · rw [hx] at hnone
      cases hnone
    · rcases hnumber v hv with hbig | hfits | hnone
      · exact absurd hrange (Nat.not_lt.mpr hbig)
      · rw [hv]
        exact congrArg some ((toNat_ofInt_eq_iff v).mpr hfits)
      · rw [hroom] at hnone
        cases hnone

/-- Room 1, with the user that has created it, and another user. -/
def roomAndGuest : Service :=
  let env : Env := ⟨0, .executed (.row (ascii "pw")), .executed (), .reply⟩
  let login (s : Service) (conn : Conn) := s.handleLogin env conn ⟨.loginReq, 1, ascii "a|pw"⟩
  (login ((login (init 1) ⟨0, 5⟩).handleCreateRoom env ⟨0, 5⟩ ⟨.createRoomReq, 2, ascii "room"⟩)
    ⟨1, 6⟩)

/-- 2^32 + 1 is narrowed to 1. -/
theorem entersNamed_wraps :
    ¬roomAndGuest.EntersNamed ⟨0, .noConnection, .noConnection, .reply⟩ ⟨1, 6⟩
      ⟨.joinRoomReq, 3, ascii "4294967297"⟩ := by
  intro h
  have hjoins : roomAndGuest.joins ⟨1, 6⟩ ⟨.joinRoomReq, 3, ascii "4294967297"⟩ =
      some (1, 1, 0) := by decide +kernel
  have hnamed := (h.named 1 1 0 hjoins).2
  have hnumeral : numeral (ascii "4294967297") = some 4294967297 := by decide +kernel
  rw [hnumeral] at hnamed
  exact absurd hnamed (by decide)

end Service

end EchoNet.Chat
