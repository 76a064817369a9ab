import EchoNet.Chat.Changes

/-!
# Resources of a Login

A login counts as an active connection, sets the key `user:<id>:online` and, with the next
message, gets a bucket of its own.  `onConnectionClosed` gives the three back for the session
that is then stored under the descriptor.  A session that a second login replaced is never
released.

## Main results

- `resources_released_iff`: while Redis answers, the resources belong to the current sessions in
  every state of a run exactly when no login replaces a session and no two current sessions share
  a user id when one of them ends.
- `relogin_leaks`: what a second login on a connection leaves behind.
-/

namespace EchoNet.Chat

open EchoNet.Lib EchoNet.Protocol EchoNet.RateLimit

/-! ## §1 The law -/

/-- The user id of a session in `sessions_`. -/
def Tables.IsCurrentUser (t : Tables) (user : UInt32) : Prop :=
  ∃ fd x, t.sessions.lookup fd = some x ∧ (t.sessionAt x).userId = user

/-- The resources of the logins are those of the current sessions. -/
structure Stores.Released (k : Stores) (t : Tables) : Prop where
  active : k.activeConnections = UInt64.ofNat t.sessions.keys.length
  online : ∀ user, user ∈ k.redis.online ↔ t.IsCurrentUser user
  buckets : ∀ user, k.userBuckets user ≠ none → t.IsCurrentUser user

namespace Tables

/-! ## §2 The current users -/

section IsCurrentUser

variable {t : Tables} {user : UInt32}

theorem isCurrentUser_congr {t' : Tables} (hsessions : t'.sessions = t.sessions)
    (huser : ∀ fd x, t.sessions.lookup fd = some x →
      (t'.sessionAt x).userId = (t.sessionAt x).userId) :
    t'.IsCurrentUser user ↔ t.IsCurrentUser user := by
  unfold IsCurrentUser
  rw [hsessions]
  constructor
  · rintro ⟨fd, x, hx, hu⟩
    exact ⟨fd, x, hx, (huser fd x hx).symm.trans hu⟩
  · rintro ⟨fd, x, hx, hu⟩
    exact ⟨fd, x, hx, (huser fd x hx).trans hu⟩

/-- Only a login and the end of a connection change the current users. -/
theorem isCurrentUser_create (id : UInt32) (name : Bytes) (x : SessionRef) :
    (t.create id name x).IsCurrentUser user ↔ t.IsCurrentUser user :=
  isCurrentUser_congr rfl fun _ y _ => setRoomId_userId _ id x y

theorem isCurrentUser_join (x : SessionRef) (id : UInt32) (ρ : RoomRef) :
    (t.join x id ρ).IsCurrentUser user ↔ t.IsCurrentUser user :=
  isCurrentUser_congr (by simp [join]) fun _ y _ => by simp [join]

theorem isCurrentUser_leave (x : SessionRef) (id : UInt32) :
    ((t.leave x).removeEmptyRoom id).IsCurrentUser user ↔ t.IsCurrentUser user :=
  isCurrentUser_congr (by simp [leave]) fun _ y _ => by simp [leave]

/-- A login on a descriptor without a session adds its user. -/
theorem isCurrentUser_openSession (hc : t.Consistent) {conn : Conn}
    (hfd : t.sessions.lookup conn.fd = none) (username : Bytes) :
    (t.openSession conn username).IsCurrentUser user ↔
      t.IsCurrentUser user ∨ user = t.nextSessionId := by
  unfold IsCurrentUser
  constructor
  · rintro ⟨fd, x, hx, hu⟩
    -- the key of the login has the new session, the others the old ones
    by_cases hfd' : fd = conn.fd
    · subst hfd'
      rw [openSession, AList.lookup_insert, Option.some.injEq] at hx
      subst hx
      right
      simpa [openSession] using hu.symm
    · rw [openSession, AList.lookup_insert_ne hfd'] at hx
      left
      refine ⟨fd, x, hx, ?_⟩
      have hne : x ≠ t.freshSession := (hc.session_lt fd x hx).ne
      simpa [openSession, hne] using hu
  · rintro (⟨fd, x, hx, hu⟩ | rfl)
    · have hfd' : fd ≠ conn.fd := by
        rintro rfl
        rw [hfd] at hx
        cases hx
      have hne : x ≠ t.freshSession := (hc.session_lt fd x hx).ne
      exact ⟨fd, x, (AList.lookup_insert_ne hfd').trans hx, by simpa [openSession, hne] using hu⟩
    · exact ⟨conn.fd, t.freshSession, AList.lookup_insert _, by simp [openSession]⟩

/-- The end of a connection leaves the users of the others. -/
theorem isCurrentUser_close (fd : Int) (x : SessionRef) :
    (t.close fd x).IsCurrentUser user ↔
      ∃ fd' y, fd' ≠ fd ∧ t.sessions.lookup fd' = some y ∧ (t.sessionAt y).userId = user := by
  unfold IsCurrentUser
  rw [close_sessions, close_sessionAt]
  constructor
  · rintro ⟨fd', y, hy, hu⟩
    by_cases hfd : fd' = fd
    · subst hfd
      rw [AList.lookup_erase] at hy
      cases hy
    · rw [AList.lookup_erase_ne hfd] at hy
      exact ⟨fd', y, hfd, hy, hu⟩
  · rintro ⟨fd', y, hfd, hy, hu⟩
    exact ⟨fd', y, (AList.lookup_erase_ne hfd).trans hy, hu⟩

end IsCurrentUser

/-! ## §3 Changes -/

/-- A login comes on a descriptor without a session, and a session that ends shares its user id
with no other. -/
def ReleasesResources (t : Tables) : Change → Prop
  | .login conn _ => t.sessions.lookup conn.fd = none
  | .close fd x => ∀ fd' y, t.sessions.lookup fd' = some y → fd' ≠ fd →
    (t.sessionAt y).userId ≠ (t.sessionAt x).userId
  | _ => True

instance (t : Tables) : (c : Change) → Decidable (t.ReleasesResources c)
  | .login conn _ => inferInstanceAs (Decidable (t.sessions.lookup conn.fd = none))
  | .close fd x =>
    decidable_of_iff (∀ e ∈ t.sessions.entries, e.1 ≠ fd →
      (t.sessionAt e.2).userId ≠ (t.sessionAt x).userId)
      ⟨fun h fd' y hy => h ⟨fd', y⟩ (AList.mem_lookup_iff.mp hy),
        fun h e he => h e.1 e.2 (AList.mem_lookup_iff.mpr he)⟩
  | .none | .draw | .create .. | .join .. | .leave _ => inferInstanceAs (Decidable True)

end Tables

namespace Stores.Released

variable {k : Stores} {t : Tables} (h : k.Released t)
include h

/-- The current users decide, and their number. -/
theorem congr {u : Tables} (hkeys : u.sessions.keys = t.sessions.keys)
    (huser : ∀ user, u.IsCurrentUser user ↔ t.IsCurrentUser user) : k.Released u :=
  ⟨by rw [hkeys]; exact h.active, fun user => (h.online user).trans (huser user).symm,
    fun user hb => (huser user).mpr (h.buckets user hb)⟩

/-- A bucket that a message makes belongs to the sender. -/
theorem of_buckets {buckets : UInt32 → Option Bucket}
    (hb : ∀ user, buckets user ≠ none → k.userBuckets user ≠ none ∨ t.IsCurrentUser user) :
    Stores.Released { k with userBuckets := buckets } t :=
  ⟨h.active, h.online, fun user hu => (hb user hu).elim (h.buckets user) id⟩

/-- A second login on a connection is counted twice. -/
theorem login_iff (hc : t.Consistent) (conn : Conn) (username : Bytes) :
    (k.after t .reply (.login conn username)).Released (t.openSession conn username) ↔
      t.sessions.lookup conn.fd = none := by
  have hlength : (t.openSession conn username).sessions.keys.length =
      (t.sessions.keys.erase conn.fd).length + 1 := by
    rw [Tables.openSession, AList.keys_insert]
    rfl
  constructor
  · intro h'
    cases hx : t.sessions.lookup conn.fd with
    | none => rfl
    | some x =>
      have hmem : conn.fd ∈ t.sessions.keys :=
        AList.mem_keys.mp (AList.lookup_isSome.mp (by rw [hx]; rfl))
      -- a replaced key is counted twice
      have hactive : k.activeConnections + 1 = UInt64.ofNat _ := h'.active
      have hpos : 0 < t.sessions.keys.length := List.length_pos_of_mem hmem
      rw [hlength, List.length_erase_of_mem hmem, Nat.sub_add_cancel hpos, h.active] at hactive
      simp at hactive
  · intro hfd
    have hmem : conn.fd ∉ t.sessions.keys := fun hmem => by
      have hsome := AList.lookup_isSome.mpr (AList.mem_keys.mpr hmem)
      rw [hfd] at hsome
      cases hsome
    refine ⟨?_, fun user => ?_, fun user hb => ?_⟩
    -- a new key is counted, goes online and has no bucket yet
    · rw [hlength, List.erase_of_not_mem hmem, UInt64.ofNat_add]
      exact congrArg (· + 1) h.active
    · rw [Tables.isCurrentUser_openSession hc hfd, ← h.online]
      change user ∈ k.redis.online.insert t.nextSessionId ↔ _
      rw [List.mem_insert_iff, or_comm]
    · rw [Tables.isCurrentUser_openSession hc hfd]
      exact Or.inl (h.buckets user hb)

/-- The end of a connection releases the resources of its user. -/
theorem close_iff {fd : Int} {x : SessionRef} (hx : t.sessions.lookup fd = some x) :
    (k.after t .reply (.close fd x)).Released (t.close fd x) ↔
      t.ReleasesResources (.close fd x) := by
  have honline : ∀ user, user ∈ (k.after t .reply (.close fd x)).redis.online ↔
      user ∈ k.redis.online ∧ user ≠ (t.sessionAt x).userId := by
    intro user
    change user ∈ k.redis.online.filter _ ↔ _
    simp
  constructor
  -- another session of the user would be current and offline
  · intro h' fd' y hy hfd hu
    have hcurrent := (Tables.isCurrentUser_close fd x).mpr ⟨fd', y, hfd, hy, hu⟩
    exact ((honline _).mp ((h'.online _).mpr hcurrent)).2 rfl
  · intro hunique
    have hleft : ∀ user, (t.close fd x).IsCurrentUser user ↔
        t.IsCurrentUser user ∧ user ≠ (t.sessionAt x).userId := by
      intro user
      rw [Tables.isCurrentUser_close]
      constructor
      · rintro ⟨fd', y, hfd, hy, rfl⟩
        exact ⟨⟨fd', y, hy, rfl⟩, hunique fd' y hy hfd⟩
      -- the session that ends is the only one of its user
      · rintro ⟨⟨fd', y, hy, rfl⟩, hne⟩
        refine ⟨fd', y, ?_, hy, rfl⟩
        rintro rfl
        obtain rfl : x = y := Option.some.inj (hx.symm.trans hy)
        exact hne rfl
    refine ⟨?_, fun user => ?_, fun user hb => ?_⟩
    · have hmem : fd ∈ t.sessions.keys :=
        AList.mem_keys.mp (AList.lookup_isSome.mp (by rw [hx]; rfl))
      have hlength : t.sessions.keys.length = (t.close fd x).sessions.keys.length + 1 := by
        rw [Tables.close_sessions, AList.keys_erase, List.length_erase_of_mem hmem,
          Nat.sub_add_cancel (List.length_pos_of_mem hmem)]
      change k.activeConnections - 1 = _
      rw [h.active, hlength, UInt64.ofNat_add]
      simp
    · rw [honline, hleft, h.online]
    · change Function.update k.userBuckets (t.sessionAt x).userId none user ≠ none at hb
      rw [Function.update_apply] at hb
      split_ifs at hb with hu
      · exact absurd rfl hb
      · exact (hleft user).mpr ⟨h.buckets user hb, hu⟩

/-- The step lemma. -/
theorem after_iff (hc : t.Consistent) {c : Change} (hv : c.Valid t) :
    (k.after t .reply c).Released (t.after c) ↔ t.ReleasesResources c := by
  cases c with
  | none => exact iff_of_true h trivial
  | login conn username => exact h.login_iff hc conn username
  | draw => exact iff_of_true (h.congr rfl fun _ => Iff.rfl) trivial
  | create x name =>
    have huser : ∀ user, (t.drawRoomId.create t.nextRoomId name x).IsCurrentUser user ↔
        t.IsCurrentUser user := fun _ => Tables.isCurrentUser_create _ name x
    exact iff_of_true (h.congr rfl huser) trivial
  -- sessions and users stay
  | join x id ρ =>
    refine iff_of_true ?_ trivial
    have hjoin := h.congr (u := t.join x id ρ) (by simp [Tables.join])
      fun _ => Tables.isCurrentUser_join x id ρ
    exact ⟨hjoin.active, hjoin.online, hjoin.buckets⟩
  | leave x =>
    refine iff_of_true ?_ trivial
    have hleave := h.congr (u := (t.leave x).removeEmptyRoom (t.sessionAt x).roomId)
      (by simp [Tables.leave]) fun _ => Tables.isCurrentUser_leave x _
    exact ⟨hleave.active, hleave.online, hleave.buckets⟩
  | close fd x => exact h.close_iff hv

end Stores.Released

/-! ## §4 Runs -/

namespace Service

/-- The resources of the logins are those of the current sessions. -/
def ResourcesReleased (s : Service) : Prop := s.stores.Released s.toTables

theorem apply_resourcesReleased_iff {s : Service} {op : Op} (hc : s.toTables.Consistent)
    (hredis : op.redis = .reply) (h : s.ResourcesReleased) :
    (s.apply op).ResourcesReleased ↔ s.ReleasesResources (s.change op) := by
  obtain ⟨buckets, hstores, hbuckets⟩ := s.apply_stores op
  have h' : Stores.Released { s.stores with userBuckets := buckets } s.toTables :=
    h.of_buckets hbuckets
  unfold ResourcesReleased
  rw [hstores, hredis, apply_toTables]
  exact h'.after_iff hc (s.change_valid op)

theorem init_resourcesReleased (first : UInt32) : (Service.init first).ResourcesReleased := by
  refine ⟨rfl, fun user => ?_, fun user hb => absurd rfl hb⟩
  refine iff_of_false (List.not_mem_nil) ?_
  rintro ⟨fd, x, hx, -⟩
  simp [Service.init, Tables.init] at hx

/-- **Resources of a login, exactly.**  While Redis answers every command, the active connections,
the online keys and the buckets of users are those of `sessions_` in every state of a run exactly
when no login of the run replaces a session and no session ends while another one has its user
id. -/
theorem resources_released_iff {first : UInt32} {ops : List Op} {s : Service}
    (hredis : ∀ op ∈ ops, op.redis = .reply)
    (hrun : run Service.step (.init first) ops = some s) :
    (∀ pre post v, ops = pre ++ post → run Service.step (.init first) pre = some v →
      v.ResourcesReleased) ↔
    Meets Service.step (fun s op => s.ReleasesResources (s.change op)) (.init first) ops :=
  forall_state_iff_meets (fun _ _ hc hop h => apply_resourcesReleased_iff hc hop h)
    (Tables.Consistent.init first) (init_resourcesReleased first) hredis hrun

/-- Two users log in, talk and leave; a descriptor is used again. -/
def oneLoginEach : List Op :=
  [request ⟨0, 5⟩ .loginReq "ann|pw", request ⟨1, 6⟩ .loginReq "bob|pw",
    request ⟨0, 5⟩ .createRoomReq "r", request ⟨1, 6⟩ .joinRoomReq "1",
    .closed ⟨0, .noConnection, .noConnection, .reply⟩ 5, request ⟨2, 5⟩ .loginReq "carol|pw"]

theorem resources_released_iff_oneLogin :
    ∃ s, run Service.step (.init 1) oneLoginEach = some s ∧
      ∀ pre post v, oneLoginEach = pre ++ post → run Service.step (.init 1) pre = some v →
        v.ResourcesReleased :=
  ⟨_, rfl, (resources_released_iff (by decide) rfl).mpr (by decide +kernel)⟩

/-- A connection logs in twice, sends a message in between, and ends. -/
def loginTwice : List Op :=
  [request ⟨0, 5⟩ .loginReq "ann|pw", request ⟨0, 5⟩ .sendMsgReq "hi",
    request ⟨0, 5⟩ .loginReq "ann|pw", .closed ⟨0, .noConnection, .noConnection, .reply⟩ 5]

/-- No session is left, but one connection is active, user 1 is online and has a bucket. -/
theorem relogin_leaks :
    ∃ s, run Service.step (.init 1) loginTwice = some s ∧
      s.sessions.keys.length = 0 ∧ s.metrics.activeConnections = 1 ∧ 1 ∈ s.redis.online ∧
      s.userLimiter.buckets (.user 1) ≠ none ∧ ¬ s.ResourcesReleased := by
  have hlast : ((run Service.step (.init 1) loginTwice).any fun s =>
      decide (s.sessions.keys.length = 0 ∧ s.metrics.activeConnections = 1 ∧
        1 ∈ s.redis.online ∧ s.userLimiter.buckets (.user 1) ≠ none)) = true := by
    decide +kernel
  obtain ⟨s, hrun, hs⟩ := exists_of_run_any hlast
  obtain ⟨hsessions, hactive, honline, hbucket⟩ := of_decide_eq_true hs
  refine ⟨s, hrun, hsessions, hactive, honline, hbucket, fun h => ?_⟩
  have hone := hactive.symm.trans h.active
  rw [hsessions] at hone
  exact absurd hone (by decide)

end Service

end EchoNet.Chat
