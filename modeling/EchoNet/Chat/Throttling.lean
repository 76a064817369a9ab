import EchoNet.Chat.Limiters
import Mathlib.Tactic.Linarith

/-!
# A Throttled User and the Others

Two runs of the service are compared: the second has additional messages of one connection, each of
them refused by the bucket of its own user.  A refused message leaves that bucket as it was, but it
has taken a token from the global bucket by then, and nothing is given back.

## Main results

- `admission_unaffected`: as long as the global bucket lasts, the additional messages change no
  answer.
- `refused_messages_starve`: enough of them and another connection is refused.
-/

namespace EchoNet.Chat

open EchoNet.Lib EchoNet.Protocol EchoNet.RateLimit

/-! ## §1 Two runs side by side -/

/-- An operation of both runs, or an additional message in the second one. -/
inductive Event where
  | shared (op : Op)
  | extra (env : Env) (msg : MyMessage)
  deriving DecidableEq, Repr

namespace Event

def now : Event → ℚ
  | .shared op => op.now
  | .extra env _ => env.now

/-- What the first run does. -/
def base? : Event → Option Op
  | .shared op => some op
  | .extra _ _ => none

/-- What the second run does: the additional messages come from `A`. -/
def op (A : Conn) : Event → Op
  | .shared op => op
  | .extra env msg => .message env A msg

end Event

/-- The service in the first run, and in the second. -/
structure Runs where
  alone : Service
  abused : Service

namespace Runs

def init (first : UInt32) : Runs := ⟨.init first, .init first⟩

def step (A : Conn) (p : Runs) : Event → Option Runs
  | .shared op => some ⟨p.alone.apply op, p.abused.apply op⟩
  | .extra env msg => some ⟨p.alone, p.abused.handleMessage env A msg⟩

/-- A run of the pair is a run of each. -/
theorem run_iff {A : Conn} {p q : Runs} {events : List Event} :
    run (step A) p events = some q ↔
      run Service.step p.alone (events.filterMap Event.base?) = some q.alone ∧
      run Service.step p.abused (events.map (Event.op A)) = some q.abused := by
  induction events generalizing p with
  | nil =>
    obtain ⟨s, t⟩ := p
    obtain ⟨s', t'⟩ := q
    simp
  | cons e events ih =>
    cases e with
    | shared op => exact ih
    | extra env msg => exact ih

/-- The additional message passes the first level and is refused by the bucket of its user. -/
def Throttled (A : Conn) (p : Runs) : Event → Prop
  | .shared _ => True
  | .extra env msg =>
    msg.type ≠ .heartbeatReq ∧ p.abused.globalLimiter.admits env.now .global = true ∧
      p.abused.userLimiter.admits env.now (p.abused.limiterKey A) = false

/-- A message that finds a token in the global bucket of the first run finds one in the second. -/
def GlobalLasts (p : Runs) : Event → Prop
  | .shared (.message env _ msg) =>
    msg.type ≠ .heartbeatReq → p.alone.globalLimiter.admits env.now .global = true →
      p.abused.globalLimiter.admits env.now .global = true
  | _ => True

instance (A : Conn) (p : Runs) : (e : Event) → Decidable (p.Throttled A e)
  | .shared _ => isTrue trivial
  | .extra _ _ => inferInstanceAs (Decidable (_ ∧ _ ∧ _))

instance (p : Runs) : (e : Event) → Decidable (p.GlobalLasts e)
  | .shared (.message _ _ _) => inferInstanceAs (Decidable (_ → _ → _))
  | .shared (.closed _ _) => isTrue trivial
  | .extra _ _ => isTrue trivial

/-! ## §2 What the additional messages change -/

/-- A refused message takes a global token and leaves everything else. -/
theorem Throttled.handled {A : Conn} {p : Runs} {env : Env} {msg : MyMessage}
    (h : p.Throttled A (.extra env msg)) :
    (p.abused.handleMessage env A msg).toTables = p.abused.toTables ∧
    (∀ key, (p.abused.handleMessage env A msg).limiters.user.level env.now key =
      p.abused.limiters.user.level env.now key) ∧
    (p.abused.handleMessage env A msg).limiters.global.level env.now .global =
      p.abused.limiters.global.level env.now .global - 1 := by
  obtain ⟨hbeat, hglobal, huser⟩ := h
  have hrefused : p.abused.limiters.admits env.now (p.abused.limiterKey A) = false := by
    rw [Limiters.admits, Service.limiters, huser, Bool.and_false]
  have hnot : ¬ p.abused.Admitted env A msg := by
    rw [Service.admitted_iff, hrefused]
    exact not_or.mpr ⟨hbeat, Bool.false_ne_true⟩
  refine ⟨Service.handleMessage_of_not_admitted hnot, ?_⟩
  rw [Service.handleMessage_limiters, if_neg hbeat]
  refine ⟨fun key => ?_, ?_⟩
  · by_cases hkey : key = p.abused.limiterKey A
    · rw [hkey, Limiters.acquire_level_self, hrefused, if_neg Bool.false_ne_true, sub_zero]
    · rw [Limiters.acquire_level_of_ne _ _ hkey]
  · unfold Limiters.acquire Service.limiters
    rw [TokenBucket.level_tryAcquire_self, hglobal, if_pos rfl]

/-- From `now` on the runs differ in the global bucket only, and the second one has no more. -/
structure Coupled (now : ℚ) (p : Runs) : Prop where
  tables : p.abused.toTables = p.alone.toTables
  alone : p.alone.limiters.Configured
  abused : p.abused.limiters.Configured
  user : ∀ key, p.abused.limiters.user.level now key = p.alone.limiters.user.level now key
  global : p.abused.limiters.global.level now .global ≤ p.alone.limiters.global.level now .global

namespace Coupled

theorem init (now : ℚ) (first : UInt32) : Coupled now (init first) :=
  ⟨rfl, .init, .init, fun _ => rfl, le_refl _⟩

variable {now : ℚ} {p : Runs} (h : p.Coupled now)
include h

/-- Time passes. -/
theorem mono {now' : ℚ} (hle : now ≤ now') : p.Coupled now' where
  tables := h.tables
  alone := h.alone
  abused := h.abused
  user key := by
    rw [TokenBucket.level_later h.abused.userRate_nonneg hle,
      TokenBucket.level_later h.alone.userRate_nonneg hle, h.user key, h.abused.userRate,
      h.abused.userCapacity, h.alone.userRate, h.alone.userCapacity]
  global := by
    rw [TokenBucket.level_later h.abused.globalRate_nonneg hle,
      TokenBucket.level_later h.alone.globalRate_nonneg hle, h.abused.globalRate,
      h.abused.globalCapacity, h.alone.globalRate, h.alone.globalCapacity]
    exact fill_mono_level h.global _ _

theorem limiterKey (conn : Conn) : p.abused.limiterKey conn = p.alone.limiterKey conn := by
  rw [Service.limiterKey_eq, Service.limiterKey_eq, h.tables]

theorem global_admits (hlasts : p.alone.limiters.global.admits now .global = true →
      p.abused.limiters.global.admits now .global = true) :
    p.abused.limiters.global.admits now .global = p.alone.limiters.global.admits now .global := by
  rw [Bool.eq_iff_iff]
  refine ⟨fun hglobal => ?_, hlasts⟩
  exact TokenBucket.admits_iff.mpr ((TokenBucket.admits_iff.mp hglobal).trans h.global)

theorem user_admits (key : LimiterKey) :
    p.abused.limiters.user.admits now key = p.alone.limiters.user.admits now key := by
  rw [Bool.eq_iff_iff, TokenBucket.admits_iff, TokenBucket.admits_iff, h.user]

/-- While the global bucket lasts, a message is admitted in both runs or in none. -/
theorem admitted_iff {env : Env} {conn : Conn} {msg : MyMessage} (hnow : env.now = now)
    (hlasts : p.GlobalLasts (.shared (.message env conn msg))) :
    p.abused.Admitted env conn msg ↔ p.alone.Admitted env conn msg := by
  subst hnow
  rw [Service.admitted_iff, Service.admitted_iff, h.limiterKey]
  by_cases hbeat : msg.type = .heartbeatReq
  · exact ⟨fun _ => Or.inl hbeat, fun _ => Or.inl hbeat⟩
  · unfold Limiters.admits
    rw [h.global_admits (hlasts hbeat), h.user_admits]

theorem change_eq {op : Op} (hnow : op.now = now) (hlasts : p.GlobalLasts (.shared op)) :
    p.abused.change op = p.alone.change op := by
  cases op with
  | message env conn msg =>
    unfold Service.change
    simp only [h.admitted_iff hnow hlasts, h.tables]
  | closed env fd =>
    unfold Service.change
    rw [h.tables]

/-- A message of both runs. -/
theorem acquire {key : LimiterKey} (hlasts : p.alone.limiters.global.admits now .global = true →
      p.abused.limiters.global.admits now .global = true) :
    (∀ key', (p.abused.limiters.acquire now key).user.level now key' =
      (p.alone.limiters.acquire now key).user.level now key') ∧
    (p.abused.limiters.acquire now key).global.level now .global ≤
      (p.alone.limiters.acquire now key).global.level now .global := by
  have hglobal := h.global_admits hlasts
  have hadmits : p.abused.limiters.admits now key = p.alone.limiters.admits now key := by
    unfold Limiters.admits
    rw [hglobal, h.user_admits]
  refine ⟨fun key' => ?_, ?_⟩
  · by_cases hkey : key' = key
    · subst hkey
      rw [Limiters.acquire_level_self, Limiters.acquire_level_self, hadmits, h.user]
    · rw [Limiters.acquire_level_of_ne _ _ hkey, Limiters.acquire_level_of_ne _ _ hkey, h.user]
  · unfold Limiters.acquire
    rw [TokenBucket.level_tryAcquire_self, TokenBucket.level_tryAcquire_self, hglobal]
    exact sub_le_sub_right h.global _

theorem shared {op : Op} (hnow : op.now = now) (hlasts : p.GlobalLasts (.shared op)) :
    Coupled now ⟨p.alone.apply op, p.abused.apply op⟩ := by
  have hlevels : (∀ key, (p.abused.apply op).limiters.user.level now key =
        (p.alone.apply op).limiters.user.level now key) ∧
      (p.abused.apply op).limiters.global.level now .global ≤
        (p.alone.apply op).limiters.global.level now .global := by
    cases op with
    | message env conn msg =>
      obtain rfl : env.now = now := hnow
      simp only [Service.apply, Service.handleMessage_limiters, h.limiterKey]
      split_ifs with hbeat
      · exact ⟨h.user, h.global⟩
      · exact h.acquire (hlasts hbeat)
    | closed env fd =>
      simp only [Service.apply, Service.onConnectionClosed_limiters, h.tables]
      refine ⟨fun key => ?_, h.global⟩
      rw [Limiters.release_level, Limiters.release_level, h.user, h.abused.userCapacity,
        h.alone.userCapacity]
  refine ⟨?_, Service.apply_configured h.alone op, Service.apply_configured h.abused op,
    hlevels.1, hlevels.2⟩
  rw [Service.apply_toTables, Service.apply_toTables, h.change_eq hnow hlasts, h.tables]

theorem extra {A : Conn} {env : Env} {msg : MyMessage} (hnow : env.now = now)
    (hthrottled : p.Throttled A (.extra env msg)) :
    Coupled now ⟨p.alone, p.abused.handleMessage env A msg⟩ := by
  subst hnow
  obtain ⟨htables, huser, hglobal⟩ := hthrottled.handled
  refine ⟨htables.trans h.tables, h.alone,
    Service.apply_configured h.abused (.message env A msg), fun key => ?_, ?_⟩
  · exact (huser key).trans (h.user key)
  · rw [hglobal]
    exact (sub_le_self _ zero_le_one).trans h.global

end Coupled

theorem Coupled.step {A : Conn} {p q : Runs} {e : Event} (h : p.Coupled e.now)
    (hthrottled : p.Throttled A e) (hlasts : p.GlobalLasts e) (hstep : p.step A e = some q) :
    q.Coupled e.now := by
  cases e with
  | shared op =>
    cases hstep
    exact h.shared rfl hlasts
  | extra env msg =>
    cases hstep
    exact h.extra rfl hthrottled

/-! ## §3 Whole runs -/

/-- A message of both runs is admitted in both or in none. -/
def SameAdmission (p : Runs) : Event → Prop
  | .shared (.message env conn msg) => p.alone.Admitted env conn msg ↔ p.abused.Admitted env conn msg
  | _ => True

instance (p : Runs) : (e : Event) → Decidable (p.SameAdmission e)
  | .shared (.message _ _ _) => inferInstanceAs (Decidable (_ ↔ _))
  | .shared (.closed _ _) => isTrue trivial
  | .extra _ _ => isTrue trivial

theorem sameAdmission {A : Conn} {first : UInt32} {events : List Event}
    (htimes : (events.map Event.now).Pairwise (· ≤ ·))
    (hthrottled : Meets (step A) (Throttled A) (init first) events)
    (hlasts : Meets (step A) GlobalLasts (init first) events) :
    Meets (step A) SameAdmission (init first) events := by
  refine Meets.timed (P := Coupled) (fun p τ τ' h => h.mono) ?_ ?_
    (fun e _ => .init e.now first) htimes (hthrottled.and hlasts)
  · rintro p e h ⟨-, he⟩
    cases e with
    | shared op =>
      cases op with
      | message env conn msg => exact (h.admitted_iff rfl he).symm
      | closed env fd => trivial
    | extra env msg => trivial
  · exact fun p e q h he hstep => h.step he.1 he.2 hstep

/-- **Refused messages that leave the global bucket enough** change no answer: every message is
admitted in the run without them exactly when it is admitted in the run with them. -/
theorem admission_unaffected {A : Conn} {first : UInt32} {events : List Event}
    (htimes : (events.map Event.now).Pairwise (· ≤ ·))
    (hthrottled : Meets (step A) (Throttled A) (init first) events)
    (hlasts : Meets (step A) GlobalLasts (init first) events) :
    ∀ pre env conn msg post, events = pre ++ .shared (.message env conn msg) :: post →
      ∀ s t, run Service.step (.init first) (pre.filterMap Event.base?) = some s →
        run Service.step (.init first) (pre.map (Event.op A)) = some t →
        (s.Admitted env conn msg ↔ t.Admitted env conn msg) := by
  intro pre env conn msg post heq s t hs ht
  have hsame := sameAdmission htimes hthrottled hlasts
  have hrun : run (step A) (init first) pre = some ⟨s, t⟩ := run_iff.mpr ⟨hs, ht⟩
  rw [heq, meets_append hrun] at hsame
  exact hsame.2.1

/-- A moment at which MySQL is away. -/
def quiet (now : ℚ) : Env := ⟨now, .noConnection, .noConnection, .reply⟩

/-- A message that changes nothing but the limiters when it comes from nobody. -/
def leaveMsg : MyMessage := ⟨.leaveRoomReq, 1, []⟩

/-- `A` has used up its bucket and sends once more before `B` does. -/
def oneTooMany : List Event :=
  List.replicate 20 (.shared (.message (quiet 0) ⟨0, 5⟩ leaveMsg)) ++
    [.extra (quiet (1 / 20)) leaveMsg, .shared (.message (quiet (1 / 10)) ⟨1, 6⟩ leaveMsg)]

theorem admission_unaffected_oneTooMany :
    ∃ s t, run Service.step (.init 1) ((oneTooMany.take 21).filterMap Event.base?) = some s ∧
      run Service.step (.init 1) ((oneTooMany.take 21).map (Event.op ⟨0, 5⟩)) = some t ∧
      t.Admitted (quiet (1 / 10)) ⟨1, 6⟩ leaveMsg := by
  have hfirst : ((run Service.step (.init 1) ((oneTooMany.take 21).filterMap Event.base?)).any
      fun s => decide (s.Admitted (quiet (1 / 10)) ⟨1, 6⟩ leaveMsg)) = true := by
    decide +kernel
  obtain ⟨s, hs, hadmitted⟩ := exists_of_run_any hfirst
  obtain ⟨t, ht⟩ := Service.exists_run (.init 1) ((oneTooMany.take 21).map (Event.op ⟨0, 5⟩))
  have htimes : (oneTooMany.map Event.now).Pairwise (· ≤ ·) := by decide +kernel
  have hthrottled : Meets (step ⟨0, 5⟩) (Throttled ⟨0, 5⟩) (init 1) oneTooMany := by
    decide +kernel
  have hlasts : Meets (step ⟨0, 5⟩) GlobalLasts (init 1) oneTooMany := by decide +kernel
  have hsame := admission_unaffected htimes hthrottled hlasts (oneTooMany.take 21)
    (quiet (1 / 10)) ⟨1, 6⟩ leaveMsg [] rfl s t hs ht
  exact ⟨s, t, hs, ht, hsame.mp (of_decide_eq_true hadmitted)⟩

/-! ## §4 An empty global bucket -/

/-- A throttled connection can go on until the global bucket is empty, at one moment. -/
theorem throttled_replicate (A : Conn) (env : Env) {msg : MyMessage}
    (hbeat : msg.type ≠ .heartbeatReq) (n : Nat) {p : Runs}
    (huser : p.abused.limiters.user.level env.now (p.abused.limiterKey A) < 1)
    (hglobal : n ≤ p.abused.limiters.global.level env.now .global) :
    Meets (step A) (Throttled A) p (List.replicate n (.extra env msg)) ∧
    ∃ t, run (step A) p (List.replicate n (.extra env msg)) = some ⟨p.alone, t⟩ ∧
      t.limiters.global.level env.now .global =
        p.abused.limiters.global.level env.now .global - n := by
  induction n generalizing p with
  | zero => exact ⟨trivial, p.abused, rfl, by simp⟩
  | succ n ih =>
    push_cast at hglobal
    have hthrottled : p.Throttled A (.extra env msg) := by
      refine ⟨hbeat, TokenBucket.admits_iff.mpr ?_, Bool.eq_false_iff.mpr fun hadmits => ?_⟩
      · exact (le_add_of_nonneg_left (Nat.cast_nonneg n)).trans hglobal
      · exact absurd (TokenBucket.admits_iff.mp hadmits) (not_le.mpr huser)
    obtain ⟨htables, huser', hglobal'⟩ := hthrottled.handled
    have hkey : (p.abused.handleMessage env A msg).limiterKey A = p.abused.limiterKey A := by
      rw [Service.limiterKey_eq, Service.limiterKey_eq, htables]
    obtain ⟨hmeets, t, hrun, ht⟩ := ih (p := ⟨p.alone, p.abused.handleMessage env A msg⟩)
      (by rw [hkey, huser']; exact huser) (by rw [hglobal']; linarith)
    rw [List.replicate_succ]
    refine ⟨⟨hthrottled, fun q hq => Option.some.inj hq ▸ hmeets⟩, t, hrun, ?_⟩
    rw [ht, hglobal']
    push_cast
    ring

/-- `A` has used up its bucket and sends until the global bucket is empty. -/
def flood : List Event :=
  List.replicate 20 (.shared (.message (quiet 0) ⟨0, 5⟩ leaveMsg)) ++
    List.replicate 9980 (.extra (quiet 0) leaveMsg)

theorem flood_starves :
    Meets (step ⟨0, 5⟩) (Throttled ⟨0, 5⟩) (init 1) flood ∧
    ∃ p, run (step ⟨0, 5⟩) (init 1) flood = some p ∧
      p.alone.Admitted (quiet 0) ⟨1, 6⟩ leaveMsg ∧ ¬ p.abused.Admitted (quiet 0) ⟨1, 6⟩ leaveMsg := by
  have hfirst : ((run (step ⟨0, 5⟩) (init 1)
      (List.replicate 20 (.shared (.message (quiet 0) ⟨0, 5⟩ leaveMsg)))).any fun p =>
        decide (p.alone.Admitted (quiet 0) ⟨1, 6⟩ leaveMsg ∧
          p.abused.limiters.user.level 0 (p.abused.limiterKey ⟨0, 5⟩) < 1 ∧
          p.abused.limiters.global.level 0 .global = 9980)) = true := by
    decide +kernel
  obtain ⟨p, hp, hlevels⟩ := exists_of_run_any hfirst
  obtain ⟨hadmitted, huser, hglobal⟩ := of_decide_eq_true hlevels
  have hbeat : leaveMsg.type ≠ .heartbeatReq := by decide
  have hlevel : ((9980 : Nat) : ℚ) ≤ p.abused.limiters.global.level (quiet 0).now .global := by
    rw [quiet, hglobal]
    norm_num
  obtain ⟨hmeets, t, ht, hempty⟩ := throttled_replicate ⟨0, 5⟩ (quiet 0) hbeat 9980 huser hlevel
  refine ⟨(meets_append hp _).mpr ⟨meets_of_forall (fun e he p => ?_) _, hmeets⟩,
    ⟨p.alone, t⟩, run_append.mpr ⟨p, hp, ht⟩, hadmitted, ?_⟩
  · rw [List.eq_of_mem_replicate he]
    trivial
  -- nothing is left on the first level
  · rw [quiet, hglobal] at hempty
    have hdry : t.limiters.global.admits 0 .global = false := by
      rw [Bool.eq_false_iff]
      intro hadmits
      have hle := TokenBucket.admits_iff.mp hadmits
      rw [hempty] at hle
      norm_num at hle
    rw [Service.admitted_iff, Limiters.admits, quiet, hdry]
    simp [leaveMsg]

theorem flood_now : ∀ e ∈ flood, e.now = 0 := by
  intro e he
  rcases List.mem_append.mp he with he | he
  · rw [List.eq_of_mem_replicate he]
    rfl
  · rw [List.eq_of_mem_replicate he]
    rfl

/-- Without regard to the global bucket, refused messages of one connection do change the answers
that another one gets. -/
theorem refused_messages_starve :
    ¬ ∀ events : List Event, (events.map Event.now).Pairwise (· ≤ ·) →
      Meets (step ⟨0, 5⟩) (Throttled ⟨0, 5⟩) (init 1) events →
      ∀ pre env conn msg post, events = pre ++ .shared (.message env conn msg) :: post →
        conn ≠ ⟨0, 5⟩ →
        ∀ s t, run Service.step (.init 1) (pre.filterMap Event.base?) = some s →
          run Service.step (.init 1) (pre.map (Event.op ⟨0, 5⟩)) = some t →
          (s.Admitted env conn msg ↔ t.Admitted env conn msg) := by
  intro hclaim
  obtain ⟨hmeets, p, hp, halone, habused⟩ := flood_starves
  have hruns := run_iff.mp hp
  have htimes : ((flood ++ [Event.shared (.message (quiet 0) ⟨1, 6⟩ leaveMsg)]).map
      Event.now).Pairwise (· ≤ ·) := by
    rw [List.map_append, List.map_congr_left flood_now, List.map_const', List.map_singleton]
    refine List.pairwise_append.mpr ⟨?_, List.pairwise_singleton .., fun τ hτ τ' hτ' => ?_⟩
    · exact List.pairwise_replicate.mpr (Or.inr (le_refl 0))
    · rw [List.eq_of_mem_replicate hτ, List.mem_singleton.mp hτ']
      exact le_refl 0
  refine habused ((hclaim _ htimes ((meets_append hp _).mpr ⟨hmeets, trivial, fun _ _ => trivial⟩)
    flood (quiet 0) ⟨1, 6⟩ leaveMsg [] rfl (by decide) p.alone p.abused hruns.1 hruns.2).mp halone)

end Runs

end EchoNet.Chat
