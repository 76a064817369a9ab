import EchoNet.Chat.Limiters
import Mathlib.Tactic.Linarith

/-!
# The Rate of a Connection

A connection draws on the bucket of its descriptor until it has a session, and on that of its user
from then on.  Both hold 20 tokens at most and get 10 a second, so that 40 messages and 10 more a
second should be all that pass.  The tokens that a connection can still draw are a potential that
messages spend and time refills; it only jumps when the connection gets another user, or when
somebody else removes the bucket that it draws on.

## Main results

- `passes_le`: the bound, while no login is accepted on a connection that has a session.
- `relogins_pass`: 41 logins in one moment.
-/

namespace EchoNet.Chat

open EchoNet.Lib EchoNet.Protocol EchoNet.RateLimit

/-! ## §1 The user of a descriptor -/

theorem Tables.userOf_congr {t t' : Tables} (hsessions : t'.sessions = t.sessions)
    (huser : ∀ x, (t'.sessionAt x).userId = (t.sessionAt x).userId) (fd : Int) :
    t'.userOf fd = t.userOf fd := by
  unfold Tables.userOf
  rw [hsessions]
  exact congrArg (Option.map · _) (funext huser)

/-- Only logins and ends of connections change the user of a descriptor. -/
theorem Tables.userOf_after {t : Tables} (hc : t.Consistent) (c : Change) (fd : Int) :
    (t.after c).userOf fd =
      match c with
      | .login conn _ => if fd = conn.fd then some t.nextSessionId else t.userOf fd
      | .close fd' _ => if fd = fd' then none else t.userOf fd
      | _ => t.userOf fd := by
  cases c with
  | none => rfl
  | login conn username =>
    dsimp only [Tables.after, Tables.userOf, Tables.openSession]
    split_ifs with hfd
    · rw [hfd, AList.lookup_insert, Option.map_some, Function.update_self]
    · rw [AList.lookup_insert_ne hfd]
      refine Option.map_congr fun x hx => ?_
      rw [Function.update_of_ne (hc.session_lt fd x hx).ne]
  | draw => rfl
  | create x name =>
    have huser : ∀ y, ((t.drawRoomId.create t.nextRoomId name x).sessionAt y).userId =
        (t.sessionAt y).userId := fun y => setRoomId_userId _ _ x y
    exact userOf_congr (by rfl) huser fd
  | join x id ρ => exact userOf_congr (by simp [after, join]) (fun y => by simp [after]) fd
  | leave x => exact userOf_congr (by simp [after, leave]) (fun y => by simp [after]) fd
  | close fd' x =>
    dsimp only [Tables.after, Tables.userOf]
    rw [close_sessions, close_sessionAt]
    split_ifs with hfd
    · rw [hfd, AList.lookup_erase]
      rfl
    · rw [AList.lookup_erase_ne hfd]

theorem Tables.requested_login {t : Tables} {env : Env} {conn conn' : Conn} {msg : MyMessage}
    {username : Bytes} (h : t.requested env conn msg = .login conn' username) :
    conn' = conn ∧ msg.type = .loginReq ∧ authenticate env msg = .ok username := by
  unfold Tables.requested at h
  repeat' split at h
  all_goals cases h
  exact ⟨rfl, ‹_›, ‹_›⟩

theorem Tables.requested_ne_close (t : Tables) (env : Env) (conn : Conn) (msg : MyMessage)
    (fd : Int) (x : SessionRef) : t.requested env conn msg ≠ .close fd x := by
  unfold Tables.requested
  repeat' split
  all_goals exact Change.noConfusion

namespace Service

/-- A message changes the user of its own descriptor at most, by an accepted login. -/
theorem userOf_handleMessage {s : Service} (hc : s.toTables.Consistent) (env : Env) (conn : Conn)
    (msg : MyMessage) (fd : Int) :
    (s.handleMessage env conn msg).userOf fd =
      if fd = conn.fd ∧ (s.acceptsLogin env conn msg).isSome then some s.nextSessionId
      else s.userOf fd := by
  cases hlogin : s.acceptsLogin env conn msg with
  | some username =>
    have hafter := Tables.userOf_after hc (.login conn username) fd
    rw [handleMessage_login hlogin]
    exact hafter.trans (by simp)
  | none =>
    have hafter := Tables.userOf_after hc (s.change (.message env conn msg)) fd
    rw [← apply_toTables] at hafter
    rw [if_neg (by simp)]
    refine hafter.trans ?_
    simp only [change]
    split_ifs with hpass
    · cases hchange : s.toTables.requested env conn msg with
      | login conn' username =>
        obtain ⟨-, htype, hauth⟩ := Tables.requested_login hchange
        rw [acceptsLogin_eq_some.mpr ⟨hpass, htype, hauth⟩] at hlogin
        cases hlogin
      | close fd' x => exact absurd hchange (s.toTables.requested_ne_close env conn msg fd' x)
      | _ => rfl
    · rfl

/-- The end of a connection takes away the user of its descriptor. -/
theorem userOf_onConnectionClosed (s : Service) (env : Env) {fd fd' : Int} (h : fd' ≠ fd) :
    (s.onConnectionClosed env fd).userOf fd' = s.userOf fd' := by
  unfold Tables.userOf
  rw [lookup_closed_of_ne s env h, sessionAt_closed]

/-! ## §2 The bucket of a connection -/

/-- A message takes a token out of one bucket. -/
theorem handleMessage_level (s : Service) (env : Env) (conn : Conn) (msg : MyMessage)
    (key : LimiterKey) :
    (s.handleMessage env conn msg).limiters.user.level env.now key =
      s.limiters.user.level env.now key -
        (if msg.type ≠ .heartbeatReq ∧ key = s.limiterKey conn ∧
          s.limiters.admits env.now key = true then 1 else 0) := by
  rw [handleMessage_limiters]
  by_cases hbeat : msg.type = .heartbeatReq
  · simp [hbeat]
  · rw [if_neg hbeat]
    by_cases hkey : key = s.limiterKey conn
    · rw [← hkey, Limiters.acquire_level_self]
      simp [hbeat]
    · rw [Limiters.acquire_level_of_ne _ _ hkey]
      simp [hkey]

/-- The operation is a message of `c`, no heartbeat, and passes both limiters. -/
def Passes (c : Conn) (s : Service) : Op → Prop
  | .message env conn msg =>
    conn = c ∧ msg.type ≠ .heartbeatReq ∧ s.limiters.admits env.now (s.limiterKey conn) = true
  | .closed _ _ => False

instance (c : Conn) (s : Service) : (op : Op) → Decidable (s.Passes c op)
  | .message _ _ _ => inferInstanceAs (Decidable (_ ∧ _ ∧ _))
  | .closed _ _ => isFalse id

/-- No login is accepted while the descriptor has a session; the connection is not closed, and
none that has the same user is. -/
def KeepsUser (c : Conn) (s : Service) : Op → Prop
  | .message env conn msg =>
    conn.fd = c.fd → (s.acceptsLogin env conn msg).isSome → s.userOf c.fd = none
  | .closed _ fd => fd ≠ c.fd ∧ ∀ user ∈ s.userOf c.fd, s.userOf fd ≠ some user

instance (c : Conn) (s : Service) : (op : Op) → Decidable (s.KeepsUser c op)
  | .message _ _ _ => inferInstanceAs (Decidable (_ → _ → _))
  | .closed _ _ => inferInstanceAs (Decidable (_ ∧ _))

/-- The tokens that a connection can still draw: those in its bucket, and a full bucket of a user
if it has none yet. -/
def potential (c : Conn) (now : ℚ) (s : Service) : ℚ :=
  s.limiters.user.level now (s.limiterKey c) + (if (s.userOf c.fd).isSome then 0 else 20)

/-- A close that keeps the user leaves the bucket of the connection alone. -/
theorem not_released_of_keepsUser {s : Service} {c : Conn} {env : Env} {fd : Int}
    (h : s.KeepsUser c (.closed env fd)) :
    ¬ (s.limiterKey c = .fd fd ∨ (s.userOf fd).map LimiterKey.user = some (s.limiterKey c)) := by
  obtain ⟨hfd, hother⟩ := h
  rw [limiterKey_eq]
  cases hc : s.userOf c.fd with
  | none =>
    rw [Option.map_none, Option.getD_none]
    rintro (hkey | hkey)
    · exact hfd (LimiterKey.fd.inj hkey).symm
    · cases hu : s.userOf fd <;> simp [hu] at hkey
  | some user =>
    rw [Option.map_some, Option.getD_some]
    rintro (hkey | hkey)
    · cases hkey
    · obtain ⟨user', hu, heq⟩ := Option.map_eq_some_iff.mp hkey
      exact hother user hc (hu.trans (congrArg some (LimiterKey.user.inj heq)))

/-- The state of the limiters at a given time. -/
structure Solvent (now : ℚ) (s : Service) : Prop where
  configured : s.limiters.Configured
  consistent : s.toTables.Consistent
  nonneg : ∀ key, 0 ≤ s.limiters.user.level now key

namespace Solvent

theorem init (now : ℚ) (first : UInt32) : Solvent now (.init first) where
  configured := .init
  consistent := .init first
  nonneg key := by
    have hlevel : (Service.init first).limiters.user.level now key = 20 :=
      TokenBucket.level_new 10 20 now key
    rw [hlevel]
    norm_num

variable {now : ℚ} {s : Service} (h : s.Solvent now)
include h

theorem mono {now' : ℚ} (hle : now ≤ now') : s.Solvent now' where
  configured := h.configured
  consistent := h.consistent
  nonneg key := (h.nonneg key).trans
    (TokenBucket.level_le_later h.configured.userRate_nonneg hle key)

theorem level_le (key : LimiterKey) : s.limiters.user.level now key ≤ 20 :=
  (s.limiters.user.level_le_capacity now key).trans_eq h.configured.userCapacity

theorem potential_le (c : Conn) : s.potential c now ≤ 40 := by
  have hlevel := h.level_le (s.limiterKey c)
  unfold potential
  split_ifs <;> linarith

theorem potential_nonneg (c : Conn) : 0 ≤ s.potential c now := by
  have hlevel := h.nonneg (s.limiterKey c)
  unfold potential
  split_ifs <;> linarith

/-- Ten tokens a second. -/
theorem potential_later {now' : ℚ} (hle : now ≤ now') (c : Conn) :
    s.potential c now' ≤ s.potential c now + 10 * (now' - now) := by
  have hlevel := TokenBucket.level_later_le h.configured.userRate_nonneg hle (s.limiterKey c)
  rw [h.configured.userRate] at hlevel
  unfold potential
  linarith

theorem apply (op : Op) (hnow : op.now = now) : (s.apply op).Solvent now := by
  refine ⟨apply_configured h.configured op, (s.apply_effect op).consistent h.consistent,
    fun key => ?_⟩
  cases op with
  | message env conn msg =>
    obtain rfl : env.now = now := hnow
    rw [Service.apply, handleMessage_limiters]
    split_ifs
    · exact h.nonneg key
    · unfold Limiters.acquire
      dsimp only
      split_ifs
      · exact TokenBucket.le_level_tryAcquire (le_refl 0) _ h.nonneg key
      · exact h.nonneg key
  | closed env fd =>
    rw [Service.apply, onConnectionClosed_limiters, Limiters.release_level]
    split_ifs
    · rw [h.configured.userCapacity]
      norm_num
    · exact h.nonneg key

/-- A message spends a token of the connection if it is one of its own that passes; another
bucket, or a higher level, does not come for free. -/
theorem potential_apply {c : Conn} {op : Op} (hnow : op.now = now) (hkeeps : s.KeepsUser c op) :
    (s.apply op).potential c now + (if s.Passes c op then 1 else 0) ≤ s.potential c now := by
  cases op with
  | message env conn msg =>
    obtain rfl : env.now = now := hnow
    have huser := userOf_handleMessage h.consistent env conn msg c.fd
    have hlevel := s.handleMessage_level env conn msg (s.limiterKey c)
    have hpass : (if s.Passes c (.message env conn msg) then (1 : ℚ) else 0) ≤
        if msg.type ≠ .heartbeatReq ∧ s.limiterKey c = s.limiterKey conn ∧
          s.limiters.admits env.now (s.limiterKey c) = true then 1 else 0 := by
      split_ifs with hpasses htaken
      · exact le_refl 1
      · obtain ⟨rfl, hbeat, hadmits⟩ := hpasses
        exact absurd ⟨hbeat, rfl, hadmits⟩ htaken
      · exact zero_le_one
      · exact le_refl 0
    by_cases hlogin : c.fd = conn.fd ∧ (s.acceptsLogin env conn msg).isSome
    -- the bucket of the new user is full at most, and the old bucket has paid for the login
    · rw [if_pos hlogin] at huser
      have hnone : s.userOf c.fd = none := hkeeps hlogin.1.symm hlogin.2
      have hnonneg : 0 ≤ s.limiters.user.level env.now (s.limiterKey c) -
          (if msg.type ≠ .heartbeatReq ∧ s.limiterKey c = s.limiterKey conn ∧
            s.limiters.admits env.now (s.limiterKey c) = true then 1 else 0) := by
        rw [← hlevel]
        exact (h.apply (.message env conn msg) rfl).nonneg _
      have hnew := (h.apply (.message env conn msg) rfl).level_le
        ((s.handleMessage env conn msg).limiterKey c)
      unfold potential
      rw [Service.apply, huser, hnone]
      simp only [Service.apply] at hnew
      simp only [Option.isSome_some, Option.isSome_none, if_true, Bool.false_eq_true, if_false]
      linarith
    · rw [if_neg hlogin] at huser
      unfold potential
      rw [Service.apply, limiterKey_eq _ c, huser, ← limiterKey_eq, hlevel]
      linarith
  | closed env fd =>
    have huser := s.userOf_onConnectionClosed env (Ne.symm hkeeps.1)
    have hfree := not_released_of_keepsUser hkeeps
    have hno : ¬ s.Passes c (.closed env fd) := id
    unfold potential
    rw [Service.apply, limiterKey_eq _ c, huser, ← limiterKey_eq, onConnectionClosed_limiters,
      Limiters.release_level, if_neg hfree, if_neg hno, add_zero]

end Solvent

/-! ## §3 Whole runs -/

/-- The number of messages of `c` that pass both limiters between `a` and `b`, ends included. -/
def passes (c : Conn) (a b : ℚ) : Service → List Op → Nat
  | _, [] => 0
  | s, op :: ops =>
    (if s.Passes c op ∧ a ≤ op.now ∧ op.now ≤ b then 1 else 0) + passes c a b (s.apply op) ops

section Window

variable {c : Conn} {a b now : ℚ} {s : Service} {ops : List Op}

theorem passes_eq_zero (h : ∀ op ∈ ops, b < op.now) : s.passes c a b ops = 0 := by
  induction ops generalizing s with
  | nil => rfl
  | cons op ops ih =>
    obtain ⟨hop, hrest⟩ := List.forall_mem_cons.mp h
    rw [passes, ih hrest, if_neg fun hwindow => absurd hwindow.2.2 (not_le.mpr hop)]

/-- After the window nothing counts any more. -/
theorem passes_eq_zero_of_late {op : Op} (hlate : b < op.now)
    (htimes : ((op :: ops).map Op.now).Pairwise (· ≤ ·)) : s.passes c a b (op :: ops) = 0 := by
  refine passes_eq_zero fun op' hop' => ?_
  rcases List.mem_cons.mp hop' with rfl | hop'
  · exact hlate
  · exact hlate.trans_le ((List.pairwise_cons.mp htimes).1 op'.now (List.mem_map_of_mem hop'))

/-- The potential pays for the messages that are still to come. -/
theorem passes_le_potential (h : s.Solvent now) (hb : now ≤ b)
    (htimes : (now :: ops.map Op.now).Pairwise (· ≤ ·))
    (hkeeps : Meets Service.step (KeepsUser c) s ops) :
    (s.passes c a b ops : ℚ) ≤ s.potential c now + 10 * (b - now) := by
  induction ops generalizing s now with
  | nil =>
    have hnonneg := h.potential_nonneg c
    rw [passes, Nat.cast_zero]
    linarith
  | cons op ops ih =>
    rw [List.map_cons, List.pairwise_cons] at htimes
    have hle := htimes.1 op.now List.mem_cons_self
    by_cases hlate : op.now ≤ b
    · have hop := h.mono hle
      have hstep := hop.potential_apply rfl hkeeps.1
      have hlater := h.potential_later hle c
      have hrest := ih (hop.apply op rfl) hlate htimes.2 (hkeeps.2 _ rfl)
      have hcount : (if s.Passes c op ∧ a ≤ op.now ∧ op.now ≤ b then (1 : ℚ) else 0) ≤
          if s.Passes c op then 1 else 0 := by
        split_ifs with hwindow hpasses
        · exact le_refl 1
        · exact absurd hwindow.1 hpasses
        · exact zero_le_one
        · exact le_refl 0
      rw [passes]
      push_cast
      linarith
    · have hnonneg := h.potential_nonneg c
      rw [passes_eq_zero_of_late (not_le.mp hlate) htimes.2, Nat.cast_zero]
      linarith

theorem passes_le_window (h : s.Solvent now) (hab : a ≤ b)
    (htimes : (now :: ops.map Op.now).Pairwise (· ≤ ·))
    (hkeeps : Meets Service.step (KeepsUser c) s ops) :
    (s.passes c a b ops : ℚ) ≤ 40 + 10 * (b - a) := by
  induction ops generalizing s now with
  | nil =>
    rw [passes, Nat.cast_zero]
    linarith
  | cons op ops ih =>
    rw [List.map_cons, List.pairwise_cons] at htimes
    have hop := h.mono (htimes.1 op.now List.mem_cons_self)
    by_cases hearly : op.now < a
    · rw [passes, if_neg fun hwindow => absurd hwindow.2.1 (not_le.mpr hearly), zero_add]
      exact ih (hop.apply op rfl) htimes.2 (hkeeps.2 _ rfl)
    -- the window opens with this operation, or it is over already
    · by_cases hlate : op.now ≤ b
      · have htimes' : (op.now :: (op :: ops).map Op.now).Pairwise (· ≤ ·) := by
          refine List.pairwise_cons.mpr ⟨List.forall_mem_cons.mpr ⟨le_refl _, ?_⟩, htimes.2⟩
          exact (List.pairwise_cons.mp htimes.2).1
        have hpotential := passes_le_potential (a := a) hop hlate htimes' hkeeps
        have hfull := hop.potential_le c
        linarith
      · rw [passes_eq_zero_of_late (not_le.mp hlate) htimes.2, Nat.cast_zero]
        linarith

end Window

/-- The run lemma. -/
theorem Solvent.run {now : ℚ} {s v : Service} {pre ops : List Op} (h : s.Solvent now)
    (hrun : run Service.step s pre = some v)
    (htimes : (now :: (pre ++ ops).map Op.now).Pairwise (· ≤ ·)) :
    ∃ now', v.Solvent now' ∧ (now' :: ops.map Op.now).Pairwise (· ≤ ·) := by
  induction pre generalizing s now with
  | nil =>
    cases hrun
    exact ⟨now, h, htimes⟩
  | cons op pre ih =>
    obtain ⟨u, hu, hrun⟩ := run_cons_eq_some.mp hrun
    obtain rfl : s.apply op = u := Option.some.inj hu
    rw [List.cons_append, List.map_cons, List.pairwise_cons] at htimes
    exact ih ((h.mono (htimes.1 op.now List.mem_cons_self)).apply op rfl) hrun htimes.2

/-- **The rate of a connection.**  From every reachable state on, as long as no login is accepted
on a connection that has a session and nobody removes the bucket it draws on, at most 40 messages
and 10 more for each second of a window pass both limiters. -/
theorem passes_le {c : Conn} {first : UInt32} {pre ops : List Op} {v : Service} {a T : ℚ}
    (hrun : Lib.run Service.step (.init first) pre = some v)
    (htimes : ((pre ++ ops).map Op.now).Pairwise (· ≤ ·)) (hT : 0 ≤ T)
    (hkeeps : Meets Service.step (KeepsUser c) v ops) :
    (v.passes c a (a + T) ops : ℚ) ≤ 40 + 10 * T := by
  obtain ⟨now, hnow⟩ : ∃ now, (now :: (pre ++ ops).map Op.now).Pairwise (· ≤ ·) := by
    cases htail : (pre ++ ops).map Op.now with
    | nil => exact ⟨0, List.pairwise_singleton ..⟩
    | cons τ τs =>
      rw [htail] at htimes
      refine ⟨τ, List.pairwise_cons.mpr ⟨List.forall_mem_cons.mpr ⟨le_refl τ, ?_⟩, htimes⟩⟩
      exact (List.pairwise_cons.mp htimes).1
  obtain ⟨now', hsolvent, htimes'⟩ := (Solvent.init now first).run hrun hnow
  have hwindow := passes_le_window (c := c) (a := a) hsolvent (le_add_of_nonneg_right hT) htimes'
    hkeeps
  rwa [add_sub_cancel_left] at hwindow

/-- A message before a login and two after it. -/
theorem passes_le_login :
    ((init 1).passes ⟨0, 5⟩ 0 (0 + 0)
      [request ⟨0, 5⟩ .leaveRoomReq "", request ⟨0, 5⟩ .loginReq "ann|pw",
        request ⟨0, 5⟩ .createRoomReq "r", request ⟨0, 5⟩ .sendMsgReq "hi"] : ℚ) ≤ 40 + 10 * 0 :=
  have hrun : Lib.run Service.step (init 1) [] = some (init 1) := rfl
  passes_le hrun (by decide +kernel) (le_refl 0) (by decide +kernel)

/-- Every login draws on the full bucket of the login before. -/
theorem relogins_pass :
    (40 + 10 * 0 : ℚ) < (init 1).passes ⟨0, 5⟩ 0 (0 + 0)
      (List.replicate 41 (request ⟨0, 5⟩ .loginReq "ann|pw")) := by
  decide +kernel

end Service

end EchoNet.Chat
