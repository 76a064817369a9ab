import EchoNet.Lib.Machine
import EchoNet.Net.Connection
import Mathlib.Data.List.AList
import Mathlib.Tactic.SplitIfs

/-!
# The Idle Scan

An event loop has a `timerfd` with a period of 5 seconds, and each time it reads the timer it closes
the connections that have been idle for more than 60.  `idleSeconds` cuts off the fractions, and the
loop can come to the timer late, or read several expirations at once.

- Times are nanoseconds of the steady clock, and every step has one.
- The scan reads the clock again for each connection.  What it closes can take other connections
  along (a close callback that overflows an output buffer), but while it runs nothing is read,
  written or registered: those are the loop thread's as well.
- A connection with a task in the pool stays in `connections_` until the task has been completed.

## Main results

- `ScanInv`: what the last scan has left had been active for less than 61 seconds before it;
- `idle_scan`: what a scan closes has been idle for 61 seconds, and an open connection has not been
  for 66 seconds and the time by which the loop comes late.
-/

namespace EchoNet.Reactor

open EchoNet.Lib
open EchoNet.Net (State)

/-! ## §1 Durations -/

/-- In nanoseconds. -/
def second : Nat := 1000000000

/-- `setTimer(5, ..)` and `checkIdleConnections(60)`. -/
def interval : Nat := 5 * second

def timeoutSec : Nat := 60

/-- The expirations of a timer that was armed with this interval: one at the end of each. -/
def expirations (armed now : Nat) : Nat := (now - armed) / interval

/-- `duration_cast` cuts off the fractions of a second. -/
def secondsSince (now past : Nat) : Nat := (now - past) / second

theorem lt_of_secondsSince_le {now past n : Nat} (h : secondsSince now past ≤ n) :
    now < past + (n + 1) * second := by
  have hlt : (now - past) / second < n + 1 := Nat.lt_succ_of_le h
  have hpos : 0 < second := by decide
  rw [Nat.div_lt_iff_lt_mul hpos] at hlt
  omega

theorem le_of_lt_secondsSince {now past n : Nat} (h : n < secondsSince now past) :
    past + (n + 1) * second ≤ now := by
  have hle : n + 1 ≤ (now - past) / second := h
  have hpos : 0 < second := by decide
  rw [Nat.le_div_iff_mul_le hpos] at hle
  have hone : second ≤ (n + 1) * second := Nat.le_mul_of_pos_left _ (Nat.succ_pos n)
  omega

theorem expirations_mul_le {armed now : Nat} (h : armed ≤ now) :
    armed + expirations armed now * interval ≤ now := by
  have hle : expirations armed now * interval ≤ now - armed := Nat.div_mul_le_self ..
  omega

/-! ## §2 The loop -/

/-- A connection of `connections_`, as far as the scan goes. -/
structure Held where
  lastActive : Nat
  state : State
  taskRunning : Bool
  deriving DecidableEq, Repr

/-- A descriptor of `timeout_fds`, and when `idleSeconds` was asked. -/
structure Scanned where
  fd : Int
  time : Nat
  deriving DecidableEq, Repr

/-- What the scan has closed. -/
structure TimedOut where
  fd : Int
  lastActive : Nat
  time : Nat
  deriving DecidableEq, Repr

abbrev HeldMap := AList fun _ : Int => Held

structure IdleLoop where
  connections : HeldMap
  /-- `timerfd_settime` -/
  armed : Nat
  /-- the expirations that have been read -/
  expired : Nat
  clock : Nat
  /-- `timeout_fds` of a scan, as far as it has not gone through them -/
  timeoutFds : List Scanned
  /-- history -/
  timedOut : List TimedOut

namespace IdleLoop

def init (armed : Nat) : IdleLoop := ⟨∅, armed, 0, armed, [], []⟩

def setHeld (s : IdleLoop) (fd : Int) (e : Held) : IdleLoop :=
  { s with connections := s.connections.insert fd e }

/-- `handleClose`, and the close callback unless a task defers it. -/
def handleClose (s : IdleLoop) (fd : Int) : IdleLoop :=
  match s.connections.lookup fd with
  | none => s
  | some e =>
    if e.state = .connected then
      if e.taskRunning then s.setHeld fd { e with state := .closing }
      else { s with connections := s.connections.erase fd }
    else s

/-- `checkIdleConnections`: the first loop, with the time at which it comes to each connection. -/
def checkIdleConnections (s : IdleLoop) (reading : Int → Nat) : IdleLoop :=
  { s with timeoutFds := (s.connections.entries.filter fun e =>
      decide (timeoutSec < secondsSince (reading e.1) e.2.lastActive)).map fun e =>
        ⟨e.1, reading e.1⟩ }

/-- `handleTimer`. -/
def handleTimer (s : IdleLoop) (now : Nat) (reading : Int → Nat) : IdleLoop :=
  -- without an expiration the `read` fails
  if expirations s.armed now ≤ s.expired then s
  else { s with expired := expirations s.armed now }.checkIdleConnections reading

/-- The second loop of `checkIdleConnections`. -/
def closeNext (s : IdleLoop) : Option IdleLoop :=
  match s.timeoutFds with
  | [] => none
  | c :: rest =>
    let s' := { s with timeoutFds := rest }
    match s.connections.lookup c.fd with
    | none => some s'
    | some e =>
      if e.state = .connected then
        some { s'.handleClose c.fd with timedOut := s.timedOut ++ [⟨c.fd, e.lastActive, c.time⟩] }
      else some (s'.handleClose c.fd)

inductive IdleAct where
  /-- the closure of `IoThreadPool::submit` -/
  | register (fd : Int)
  /-- `readv` or `send` has moved bytes -/
  | transfer (fd : Int)
  /-- a task is handed to the pool, or completed -/
  | task (fd : Int) (running : Bool)
  /-- `handleClose` for any other reason -/
  | close (fd : Int)
  /-- the deferred close callback -/
  | finish (fd : Int)
  | timer (reading : Int → Nat)
  | closeNext

/-- The loop thread is not in a scan. -/
def free (s : IdleLoop) : Bool := s.timeoutFds.isEmpty

/-- What a step does, apart from the clock. -/
def perform (s : IdleLoop) (now : Nat) : IdleAct → Option IdleLoop
  | .register fd =>
    if s.free ∧ s.connections.lookup fd = none then some (s.setHeld fd ⟨now, .connected, false⟩)
    else none
  | .transfer fd =>
    match s.connections.lookup fd with
    | none => none
    | some e =>
      if s.free ∧ e.state = .connected then some (s.setHeld fd { e with lastActive := now })
      else none
  | .task fd running =>
    (s.connections.lookup fd).map fun e => s.setHeld fd { e with taskRunning := running }
  | .close fd => some (s.handleClose fd)
  | .finish fd =>
    match s.connections.lookup fd with
    | none => none
    | some e =>
      if e.state ≠ .connected ∧ e.taskRunning = false then
        some { s with connections := s.connections.erase fd }
      else none
  | .timer reading =>
    if s.free ∧ ∀ e ∈ s.connections.entries, now ≤ reading e.1 then
      some (s.handleTimer now reading)
    else none
  | .closeNext => s.closeNext

/-- A step, at a time. -/
def step (s : IdleLoop) (a : Nat × IdleAct) : Option IdleLoop :=
  if s.clock ≤ a.1 then { s with clock := a.1 }.perform a.1 a.2 else none

/-! ## §3 Open connections -/

/-- The descriptor has an open connection, last active at `t`. -/
def Open (s : IdleLoop) (fd : Int) (t : Nat) : Prop :=
  ∃ e, s.connections.lookup fd = some e ∧ e.state = .connected ∧ e.lastActive = t

section

variable {s s' : IdleLoop} {fd fd' : Int} {e : Held} {now t : Nat}

@[simp] theorem setHeld_armed : (s.setHeld fd e).armed = s.armed := rfl
@[simp] theorem setHeld_expired : (s.setHeld fd e).expired = s.expired := rfl
@[simp] theorem setHeld_clock : (s.setHeld fd e).clock = s.clock := rfl
@[simp] theorem setHeld_timeoutFds : (s.setHeld fd e).timeoutFds = s.timeoutFds := rfl
@[simp] theorem setHeld_timedOut : (s.setHeld fd e).timedOut = s.timedOut := rfl

theorem open_setHeld : (s.setHeld fd e).Open fd' t ↔
    if fd' = fd then e.state = .connected ∧ e.lastActive = t else s.Open fd' t := by
  unfold Open setHeld
  split_ifs with hfd
  · subst hfd
    simp only [AList.lookup_insert, Option.some.injEq, exists_eq_left']
  · simp only [AList.lookup_insert_ne hfd]

theorem open_erase (h : ({ s with connections := s.connections.erase fd } : IdleLoop).Open fd' t) :
    fd' ≠ fd ∧ s.Open fd' t := by
  obtain ⟨e, he, hopen⟩ := h
  have hfd : fd' ≠ fd := by
    rintro rfl
    rw [AList.lookup_erase] at he
    cases he
  rw [AList.lookup_erase_ne hfd] at he
  exact ⟨hfd, e, he, hopen⟩

/-- `handleClose` leaves the other connections. -/
theorem open_handleClose (h : (s.handleClose fd).Open fd' t) : fd' ≠ fd ∧ s.Open fd' t := by
  unfold handleClose at h
  cases he : s.connections.lookup fd with
  | none =>
    simp only [he] at h
    refine ⟨?_, h⟩
    rintro rfl
    obtain ⟨e, he', -⟩ := h
    rw [he] at he'
    cases he'
  | some e =>
    simp only [he] at h
    split_ifs at h with hc htask
    · rw [open_setHeld] at h
      split_ifs at h with hfd
      · cases h.1
      · exact ⟨hfd, h⟩
    · exact open_erase h
    · refine ⟨?_, h⟩
      rintro rfl
      obtain ⟨e', he', hc', -⟩ := h
      rw [he, Option.some.injEq] at he'
      exact hc (he' ▸ hc')

theorem handleClose_frame (s : IdleLoop) (fd : Int) : (s.handleClose fd).armed = s.armed ∧
    (s.handleClose fd).expired = s.expired ∧ (s.handleClose fd).clock = s.clock ∧
    (s.handleClose fd).timeoutFds = s.timeoutFds ∧ (s.handleClose fd).timedOut = s.timedOut := by
  unfold handleClose
  cases s.connections.lookup fd with
  | none => exact ⟨rfl, rfl, rfl, rfl, rfl⟩
  | some e =>
    dsimp only
    split_ifs
    all_goals exact ⟨rfl, rfl, rfl, rfl, rfl⟩

end

/-! ## §4 The invariant -/

/-- Everything that was not closed by the last scan had been active for less than 61 seconds, and
what the scan has still to close had not. -/
structure ScanInv (s : IdleLoop) : Prop where
  begun : s.armed + s.expired * interval ≤ s.clock
  recent : ∀ fd t, s.Open fd t → (∀ c ∈ s.timeoutFds, c.fd ≠ fd) →
    s.armed + s.expired * interval < t + 61 * second
  idle : ∀ c ∈ s.timeoutFds, ∀ t, s.Open c.fd t → t + 61 * second ≤ c.time
  closed : ∀ c ∈ s.timedOut, c.lastActive + 61 * second ≤ c.time

theorem ScanInv.init (armed : Nat) : ScanInv (init armed) := by
  refine ⟨by simp [IdleLoop.init], ?_, nofun, nofun⟩
  rintro fd t ⟨e, he, -⟩ -
  cases he

/-- A step outside of the timer and the scan: whoever is open now was open before, or is active
now and there is no scan. -/
theorem ScanInv.of_open {s s' : IdleLoop} (hi : ScanInv s) (harmed : s'.armed = s.armed)
    (hexpired : s'.expired = s.expired) (hclock : s.clock ≤ s'.clock)
    (hfds : s'.timeoutFds = s.timeoutFds) (htimedOut : s'.timedOut = s.timedOut)
    (hopen : ∀ fd t, s'.Open fd t → s.Open fd t ∨ s.timeoutFds = [] ∧ t = s'.clock) :
    ScanInv s' := by
  refine ⟨?_, fun fd t h hnot => ?_, fun c hc t h => ?_, ?_⟩
  · rw [harmed, hexpired]
    exact Nat.le_trans hi.begun hclock
  · rw [harmed, hexpired]
    rw [hfds] at hnot
    rcases hopen fd t h with h | ⟨-, rfl⟩
    · exact hi.recent fd t h hnot
    · have hbegun := Nat.le_trans hi.begun hclock
      have hpos : 0 < 61 * second := by decide
      exact Nat.lt_of_le_of_lt hbegun (Nat.lt_add_of_pos_right hpos)
  · rw [hfds] at hc
    rcases hopen c.fd t h with h | ⟨hnil, -⟩
    · exact hi.idle c hc t h
    · rw [hnil] at hc
      cases hc
  · rw [htimedOut]
    exact hi.closed

theorem ScanInv.close {s : IdleLoop} (hi : ScanInv s) (fd : Int) : ScanInv (s.handleClose fd) := by
  obtain ⟨harmed, hexpired, hclock, hfds, htimedOut⟩ := handleClose_frame s fd
  exact hi.of_open harmed hexpired hclock.ge hfds htimedOut
    fun fd' t h => Or.inl (open_handleClose h).2

/-- The first loop of the scan takes down whoever has been idle. -/
theorem ScanInv.timer {s : IdleLoop} (hi : ScanInv s)
    {reading : Int → Nat} (hreading : ∀ e ∈ s.connections.entries, s.clock ≤ reading e.1) :
    ScanInv (s.handleTimer s.clock reading) := by
  unfold handleTimer
  split_ifs with hnone
  · exact hi
  · have hmem : ∀ {fd t}, s.Open fd t → ∃ e, (⟨fd, e⟩ : Sigma fun _ : Int => Held) ∈
        s.connections.entries ∧ e.lastActive = t := by
      rintro fd t ⟨e, he, -, ht⟩
      exact ⟨e, AList.mem_lookup_iff.mp he, ht⟩
    have harmed : s.armed ≤ s.clock := Nat.le_trans (Nat.le_add_right ..) hi.begun
    have hbegun := expirations_mul_le harmed
    refine ⟨hbegun, fun fd t hopen hnot => ?_, fun c hc t hopen => ?_, hi.closed⟩
    · obtain ⟨e, he, rfl⟩ := hmem hopen
      -- it is not on the list, so it has been active
      have hactive : secondsSince (reading fd) e.lastActive ≤ timeoutSec := by
        by_contra hidle
        refine hnot ⟨fd, reading fd⟩ (List.mem_map.mpr ⟨⟨fd, e⟩, ?_, rfl⟩) rfl
        exact List.mem_filter.mpr ⟨he, decide_eq_true (Nat.lt_of_not_le hidle)⟩
      have hlt := lt_of_secondsSince_le hactive
      exact Nat.lt_of_le_of_lt (hbegun.trans (hreading _ he)) hlt
    · obtain ⟨⟨fd, e⟩, hfilter, rfl⟩ := List.mem_map.mp hc
      obtain ⟨he, hidle⟩ := List.mem_filter.mp hfilter
      obtain ⟨e', he', rfl⟩ := hmem hopen
      have hsame := AList.mem_lookup_iff.mpr he'
      rw [AList.mem_lookup_iff.mpr he, Option.mem_some_iff] at hsame
      rw [← hsame]
      exact le_of_lt_secondsSince (of_decide_eq_true hidle)

/-- The second loop closes whoever is next. -/
theorem ScanInv.next {s s' : IdleLoop} (hi : ScanInv s) (h : s.closeNext = some s') :
    ScanInv s' := by
  unfold closeNext at h
  cases hfds : s.timeoutFds with
  | nil => simp [hfds] at h
  | cons c rest =>
    -- without an open connection on it, a descriptor can be struck off the list
    have hskip : (∀ t, ¬s.Open c.fd t) → ScanInv { s with timeoutFds := rest } := by
      intro hnone
      refine ⟨hi.begun, fun fd t hopen hnot => ?_, fun d hd t hopen => ?_, hi.closed⟩
      · refine hi.recent fd t hopen fun d hd => ?_
        rw [hfds] at hd
        rcases List.mem_cons.mp hd with rfl | hd
        · rintro rfl
          exact hnone t hopen
        · exact hnot d hd
      · exact hi.idle d (hfds ▸ List.mem_cons_of_mem _ hd) t hopen
    cases he : s.connections.lookup c.fd with
    | none =>
      simp only [hfds, he, Option.some.injEq] at h
      subst h
      apply hskip
      rintro t ⟨e, he', -⟩
      rw [he] at he'
      cases he'
    | some e =>
      simp only [hfds, he] at h
      split_ifs at h with hc
      · cases h
        obtain ⟨harmed, hexpired, hclock, htimeout, -⟩ :=
          handleClose_frame { s with timeoutFds := rest } c.fd
        have hother : ∀ {fd t}, (({ s with timeoutFds := rest } : IdleLoop).handleClose c.fd).Open
            fd t → fd ≠ c.fd ∧ s.Open fd t := fun hopen =>
          open_handleClose (s := { s with timeoutFds := rest }) hopen
        refine ⟨?_, fun fd t hopen hnot => ?_, fun d hd t hopen => ?_, fun d hd => ?_⟩
        · change (IdleLoop.handleClose _ _).armed + (IdleLoop.handleClose _ _).expired * interval ≤
            (IdleLoop.handleClose _ _).clock
          rw [harmed, hexpired, hclock]
          exact hi.begun
        · change (IdleLoop.handleClose _ _).armed + (IdleLoop.handleClose _ _).expired * interval < _
          rw [harmed, hexpired]
          obtain ⟨hne, hopen⟩ := hother hopen
          refine hi.recent fd t hopen fun d hd => ?_
          rw [hfds] at hd
          rcases List.mem_cons.mp hd with rfl | hd
          · exact hne.symm
          · refine hnot d ?_
            change d ∈ (IdleLoop.handleClose _ _).timeoutFds
            rw [htimeout]
            exact hd
        · change d ∈ (IdleLoop.handleClose _ _).timeoutFds at hd
          rw [htimeout] at hd
          exact hi.idle d (hfds ▸ List.mem_cons_of_mem _ hd) t (hother hopen).2
        · rcases List.mem_append.mp hd with hd | hd
          · exact hi.closed d hd
          · rw [List.mem_singleton.mp hd]
            exact hi.idle c (hfds ▸ List.mem_cons_self) e.lastActive ⟨e, he, hc, rfl⟩
      · cases h
        apply ScanInv.close
        apply hskip
        rintro t ⟨e', he', hc', -⟩
        rw [he, Option.some.injEq] at he'
        exact hc (he' ▸ hc')

theorem timeoutFds_of_free {s : IdleLoop} (h : s.free = true) : s.timeoutFds = [] :=
  List.isEmpty_iff.mp h

theorem ScanInv.perform {s s' : IdleLoop} {a : IdleAct} (hi : ScanInv s)
    (h : s.perform s.clock a = some s') : ScanInv s' := by
  cases a with
  | register fd =>
    simp only [IdleLoop.perform] at h
    split_ifs at h with hguard
    cases h
    refine hi.of_open rfl rfl (Nat.le_refl _) rfl rfl fun fd' t hopen => ?_
    rw [open_setHeld] at hopen
    split_ifs at hopen
    · exact Or.inr ⟨timeoutFds_of_free hguard.1, hopen.2.symm⟩
    · exact Or.inl hopen
  | transfer fd =>
    simp only [IdleLoop.perform] at h
    split at h
    · cases h
    · split_ifs at h with hguard
      cases h
      refine hi.of_open rfl rfl (Nat.le_refl _) rfl rfl fun fd' t hopen => ?_
      rw [open_setHeld] at hopen
      split_ifs at hopen
      · exact Or.inr ⟨timeoutFds_of_free hguard.1, hopen.2.symm⟩
      · exact Or.inl hopen
  | task fd running =>
    obtain ⟨e, he, rfl⟩ := Option.map_eq_some_iff.mp h
    refine hi.of_open rfl rfl (Nat.le_refl _) rfl rfl fun fd' t hopen => ?_
    rw [open_setHeld] at hopen
    split_ifs at hopen with hfd
    · exact Or.inl (hfd ▸ ⟨e, he, hopen⟩)
    · exact Or.inl hopen
  | close fd =>
    cases h
    exact hi.close fd
  | finish fd =>
    simp only [IdleLoop.perform] at h
    split at h
    · cases h
    · split_ifs at h
      cases h
      exact hi.of_open rfl rfl (Nat.le_refl _) rfl rfl fun fd' t hopen => Or.inl (open_erase hopen).2
  | timer reading =>
    simp only [IdleLoop.perform] at h
    split_ifs at h with hguard
    cases h
    exact hi.timer hguard.2
  | closeNext => exact hi.next h

/-- The step lemma. -/
theorem ScanInv.step {s s' : IdleLoop} {a : Nat × IdleAct} (hi : ScanInv s)
    (h : s.step a = some s') : ScanInv s' := by
  unfold IdleLoop.step at h
  split_ifs at h with hclock
  have hlater : ScanInv { s with clock := a.1 } :=
    ⟨Nat.le_trans hi.begun hclock, hi.recent, hi.idle, hi.closed⟩
  exact hlater.perform h

/-! ## §5 Runs -/

/-- No expiration of the timer has been waiting for longer than `late`. -/
def Prompt (late : Nat) (s : IdleLoop) (a : Nat × IdleAct) : Prop :=
  a.1 ≤ s.armed + (s.expired + 1) * interval + late

instance (late : Nat) (s : IdleLoop) (a : Nat × IdleAct) : Decidable (s.Prompt late a) :=
  inferInstanceAs (Decidable (_ ≤ _))

theorem perform_frame {s s' : IdleLoop} {now : Nat} {a : IdleAct}
    (h : s.perform now a = some s') :
    s'.armed = s.armed ∧ s.expired ≤ s'.expired ∧ s'.clock = s.clock := by
  have hclose : ∀ (u : IdleLoop) (fd : Int), u.armed = s.armed ∧ u.expired = s.expired ∧
      u.clock = s.clock → (u.handleClose fd).armed = s.armed ∧
        s.expired ≤ (u.handleClose fd).expired ∧ (u.handleClose fd).clock = s.clock := by
    rintro u fd ⟨harmed, hexpired, hclock⟩
    obtain ⟨harmed', hexpired', hclock', -⟩ := handleClose_frame u fd
    exact ⟨harmed'.trans harmed, (hexpired'.trans hexpired).ge, hclock'.trans hclock⟩
  cases a with
  | register fd =>
    simp only [perform] at h
    split_ifs at h
    cases h
    exact ⟨rfl, Nat.le_refl _, rfl⟩
  | transfer fd =>
    simp only [perform] at h
    split at h
    · cases h
    · split_ifs at h
      cases h
      exact ⟨rfl, Nat.le_refl _, rfl⟩
  | task fd running =>
    obtain ⟨e, -, rfl⟩ := Option.map_eq_some_iff.mp h
    exact ⟨rfl, Nat.le_refl _, rfl⟩
  | close fd =>
    cases h
    exact hclose s fd ⟨rfl, rfl, rfl⟩
  | finish fd =>
    simp only [perform] at h
    split at h
    · cases h
    · split_ifs at h
      cases h
      exact ⟨rfl, Nat.le_refl _, rfl⟩
  | timer reading =>
    simp only [perform] at h
    split_ifs at h
    cases h
    unfold handleTimer
    split_ifs with hnone
    · exact ⟨rfl, Nat.le_refl _, rfl⟩
    · exact ⟨rfl, Nat.le_of_lt (Nat.lt_of_not_le hnone), rfl⟩
  | closeNext =>
    simp only [perform, closeNext] at h
    split at h
    · cases h
    · split at h
      · cases h
        exact ⟨rfl, Nat.le_refl _, rfl⟩
      · split_ifs at h
        · cases h
          exact hclose _ _ ⟨rfl, rfl, rfl⟩
        · cases h
          exact hclose _ _ ⟨rfl, rfl, rfl⟩

/-- In a prompt run the loop is never behind by more than `late`. -/
theorem clock_le {armed late : Nat} {acts : List (Nat × IdleAct)} {s : IdleLoop}
    (hrun : run IdleLoop.step (.init armed) acts = some s)
    (hprompt : Meets IdleLoop.step (Prompt late) (.init armed) acts) :
    s.clock ≤ s.armed + (s.expired + 1) * interval + late := by
  have hstep : ∀ (s : IdleLoop) a s', s.clock ≤ s.armed + (s.expired + 1) * interval + late →
      s.Prompt late a → s.step a = some s' →
      s'.clock ≤ s'.armed + (s'.expired + 1) * interval + late := by
    intro s a s' _ hlate h
    unfold IdleLoop.step at h
    split_ifs at h with hclock
    obtain ⟨harmed, hexpired, hclock'⟩ := perform_frame h
    rw [harmed, hclock']
    have hmul : (s.expired + 1) * interval ≤ (s'.expired + 1) * interval :=
      Nat.mul_le_mul_right _ (Nat.succ_le_succ hexpired)
    have hnow : a.1 ≤ s.armed + (s.expired + 1) * interval + late := hlate
    change a.1 ≤ s.armed + (s'.expired + 1) * interval + late
    omega
  refine run_invariant_of_meets hstep ?_ hprompt hrun
  show armed ≤ armed + (0 + 1) * interval + late
  omega

/-- **The idle scan.**  Whatever the connections do and whenever the loop comes to its timer, what
the scan closes has moved no bytes for 61 seconds.  If the loop is never late by more than `late`,
every connection that is open between two scans has moved bytes in the last 66 seconds and
`late`.  A connection that has moved none yet counts from its registration. -/
theorem idle_scan {armed : Nat} {acts : List (Nat × IdleAct)} {s : IdleLoop}
    (hrun : run IdleLoop.step (.init armed) acts = some s) :
    (∀ c ∈ s.timedOut, c.lastActive + 61 * second ≤ c.time) ∧
      ∀ late, Meets IdleLoop.step (Prompt late) (.init armed) acts → s.timeoutFds = [] →
        ∀ fd t, s.Open fd t → s.clock < t + 66 * second + late := by
  have hinv : ScanInv s := run_invariant (fun _ _ _ hi h => hi.step h) (.init armed) hrun
  refine ⟨hinv.closed, fun late hprompt hfds fd t hopen => ?_⟩
  have hrecent : s.armed + s.expired * interval < t + 61 * second := by
    apply hinv.recent fd t hopen
    intro c hc
    rw [hfds] at hc
    cases hc
  have hclock := clock_le hrun hprompt
  have hfive : interval = 5 * second := rfl
  rw [Nat.add_mul, Nat.one_mul] at hclock
  omega

/-- A connection that is active 2 seconds after the timer was armed outlives the scan of second 60,
but not that of second 65. -/
def oneIdles : List (Nat × IdleAct) :=
  [(1 * second, .register 7), (2 * second, .transfer 7)] ++
    ((List.range 13).map fun k => ((k + 1) * interval, .timer fun _ => (k + 1) * interval)) ++
    [(13 * interval, .closeNext), (66 * second, .register 7)]

theorem idle_scan_oneIdles : ∃ s, run IdleLoop.step (.init 0) oneIdles = some s ∧
    s.timedOut = [⟨7, 2 * second, 65 * second⟩] ∧
    (∀ c ∈ s.timedOut, c.lastActive + 61 * second ≤ c.time) ∧
    ∀ fd t, s.Open fd t → s.clock < t + 66 * second + 0 := by
  have hlast : ((run IdleLoop.step (.init 0) oneIdles).any fun s =>
      decide (s.timedOut = [⟨7, 2 * second, 65 * second⟩] ∧ s.timeoutFds = [])) = true := by
    decide +kernel
  obtain ⟨s, hrun, hs⟩ := exists_of_run_any hlast
  obtain ⟨htimedOut, hfds⟩ := of_decide_eq_true hs
  have hprompt : Meets IdleLoop.step (Prompt 0) (.init 0) oneIdles := by decide +kernel
  exact ⟨s, hrun, htimedOut, (idle_scan hrun).1, (idle_scan hrun).2 0 hprompt hfds⟩

end IdleLoop

end EchoNet.Reactor
