import EchoNet.Lib.BatchQueue
import Mathlib.Tactic.SplitIfs

/-!
# The Logger and its Shutdown

`AsyncLogger`: business threads queue lines, the writer thread takes the queue as a batch and
writes it to the file, and `stop()` sets `stop_`, notifies the writer and joins it.

- What holds `mutex_` is one step, but for the writer: it finds the predicate of `cv_.wait` false
  and blocks in two steps, and only `log` waits for the mutex in between.
- `notify_one` wakes the writer if it blocks and is lost otherwise; the writer can also wake
  spuriously.
- A log call is pending between its push and its `notify_one`.

## Main results

- `shutdown_iff`: a run can leave the writer blocked for good under a `stop()` that waits for it
  exactly if the last outstanding `notify_one` comes while the writer is about to block;
- `file_prefix` and `flushed_of_exit`: the file has the logged lines in order, and all of them
  when the writer exits.
-/

namespace EchoNet.Logger

open EchoNet.Lib

/-! ## §1 The logger -/

inductive Level where
  | info
  | warn
  | error
  deriving DecidableEq, Repr

/-- `levelStr`. -/
def Level.str : Level → String
  | .info => "INFO"
  | .warn => "WARN"
  | .error => "ERROR"

/-- The line that `log` queues. -/
def line (currentTime : String) (level : Level) (msg : String) : String :=
  "[" ++ currentTime ++ "] [" ++ level.str ++ "] " ++ msg ++ "\n"

/-- Where the writer is in `writeLoop`. -/
inductive WriterPc where
  /-- it waits for `mutex_`, at the top of the loop or in `cv_.wait` -/
  | unlocked
  /-- it holds `mutex_`: before the predicate, after it was false, after it was true -/
  | checking
  | falling
  | passed
  /-- it blocks in `cv_.wait`, without `mutex_` -/
  | sleeping
  /-- it has the rest of its batch to write -/
  | writing (batch : List String)
  | exited
  deriving DecidableEq, Repr

/-- The call of `stop()` that changed `stop_`: it is about to notify, it is in `join`, it is
over. -/
inductive StopPc where
  | idle
  | notifying
  | joining
  | returned
  deriving DecidableEq, Repr

namespace WriterPc

def holdsMutex : WriterPc → Bool
  | .checking | .falling | .passed => true
  | .unlocked | .sleeping | .writing _ | .exited => false

def batch : WriterPc → List String
  | .writing batch => batch
  | _ => []

/-- `notify_one`, or a spurious wakeup. -/
def wake : WriterPc → WriterPc
  | .sleeping => .unlocked
  | pc => pc

end WriterPc

structure AsyncLogger where
  queue : List String
  file : List String
  stop : Bool
  writer : WriterPc
  stopCall : StopPc
  /-- the log calls between their push and their `notify_one` -/
  pending : Nat
  deriving DecidableEq, Repr

namespace AsyncLogger

/-- After the constructor. -/
def init : AsyncLogger where
  queue := []
  file := []
  stop := false
  writer := .unlocked
  stopCall := .idle
  pending := 0

inductive Act where
  /-- `log`: the push, the `notify_one` -/
  | log (currentTime : String) (level : Level) (msg : String)
  | logNotify
  /-- `stop`: the CAS, the `notify_one`, the return of `join` -/
  | stop
  | stopNotify
  | join
  /-- the writer: it gets `mutex_`, tests the predicate, blocks, wakes spuriously, takes the
  queue or leaves the loop, writes the next line or flushes -/
  | lock
  | check
  | sleep
  | spurious
  | take
  | write
  deriving DecidableEq, Repr

def step (s : AsyncLogger) : Act → Option AsyncLogger
  | .log currentTime level msg =>
    if s.writer.holdsMutex then none
    else some { s with
      queue := s.queue ++ [line currentTime level msg], pending := s.pending + 1 }
  | .logNotify =>
    match s.pending with
    | 0 => none
    | n + 1 => some { s with pending := n, writer := s.writer.wake }
  -- a second call finds the flag set and returns
  | .stop => if s.stop then some s else some { s with stop := true, stopCall := .notifying }
  | .stopNotify =>
    match s.stopCall with
    | .notifying => some { s with stopCall := .joining, writer := s.writer.wake }
    | _ => none
  | .join =>
    match s.stopCall, s.writer with
    | .joining, .exited => some { s with stopCall := .returned }
    | _, _ => none
  | .lock =>
    match s.writer with
    | .unlocked => some { s with writer := .checking }
    | _ => none
  | .check =>
    match s.writer with
    | .checking =>
      some { s with writer := if s.stop || !s.queue.isEmpty then .passed else .falling }
    | _ => none
  | .sleep =>
    match s.writer with
    | .falling => some { s with writer := .sleeping }
    | _ => none
  | .spurious =>
    match s.writer with
    | .sleeping => some { s with writer := s.writer.wake }
    | _ => none
  | .take =>
    match s.writer with
    | .passed =>
      if s.stop && s.queue.isEmpty then some { s with writer := .exited }
      else some { s with queue := [], writer := .writing s.queue }
    | _ => none
  | .write =>
    match s.writer with
    | .writing [] => some { s with writer := .unlocked }
    | .writing (front :: rest) =>
      some { s with file := s.file ++ [front], writer := .writing rest }
    | _ => none

/-! ## §2 Everything a step can do -/

/-- The steps, with their guards. -/
inductive Step (s : AsyncLogger) : Act → AsyncLogger → Prop
  | log {currentTime : String} {level : Level} {msg : String} : s.writer.holdsMutex = false →
      Step s (.log currentTime level msg)
        { s with queue := s.queue ++ [line currentTime level msg], pending := s.pending + 1 }
  | logNotify {n : Nat} : s.pending = n + 1 →
      Step s .logNotify { s with pending := n, writer := s.writer.wake }
  | stopped : s.stop = true → Step s .stop s
  | stop : s.stop = false → Step s .stop { s with stop := true, stopCall := .notifying }
  | stopNotify : s.stopCall = .notifying →
      Step s .stopNotify { s with stopCall := .joining, writer := s.writer.wake }
  | join : s.stopCall = .joining → s.writer = .exited →
      Step s .join { s with stopCall := .returned }
  | lock : s.writer = .unlocked → Step s .lock { s with writer := .checking }
  | pass : s.writer = .checking → (s.stop || !s.queue.isEmpty) = true →
      Step s .check { s with writer := .passed }
  | fall : s.writer = .checking → s.stop = false → s.queue = [] →
      Step s .check { s with writer := .falling }
  | sleep : s.writer = .falling → Step s .sleep { s with writer := .sleeping }
  | spurious : s.writer = .sleeping → Step s .spurious { s with writer := .unlocked }
  | exit : s.writer = .passed → s.stop = true → s.queue = [] →
      Step s .take { s with writer := .exited }
  | take : s.writer = .passed → Step s .take { s with queue := [], writer := .writing s.queue }
  | flush : s.writer = .writing [] → Step s .write { s with writer := .unlocked }
  | write {front : String} {rest : List String} : s.writer = .writing (front :: rest) →
      Step s .write { s with file := s.file ++ [front], writer := .writing rest }

/-- Inversion of `step`. -/
theorem step_cases {s t : AsyncLogger} {a : Act} (h : s.step a = some t) : Step s a t := by
  cases a with
  | log currentTime level msg =>
    simp only [step] at h
    split_ifs at h with hfree
    cases h
    exact .log (Bool.not_eq_true _ ▸ hfree)
  | logNotify =>
    simp only [step] at h
    split at h
    · cases h
    · cases h
      exact .logNotify ‹_›
  | stop =>
    simp only [step] at h
    split_ifs at h with hstop
    · cases h
      exact .stopped hstop
    · cases h
      exact .stop (Bool.not_eq_true _ ▸ hstop)
  | stopNotify =>
    simp only [step] at h
    split at h <;> cases h
    exact .stopNotify ‹_›
  | join =>
    simp only [step] at h
    split at h <;> cases h
    exact .join ‹_› ‹_›
  | lock =>
    simp only [step] at h
    split at h <;> cases h
    exact .lock ‹_›
  | check =>
    simp only [step] at h
    split at h
    · cases h
      split
      · exact .pass ‹_› ‹_›
      · have hfalse : s.stop = false ∧ s.queue = [] := by simp_all
        exact .fall ‹_› hfalse.1 hfalse.2
    · cases h
  | sleep =>
    simp only [step] at h
    split at h <;> cases h
    exact .sleep ‹_›
  | spurious =>
    simp only [step] at h
    split at h
    · cases h
      rename_i hsleeping
      rw [hsleeping]
      exact .spurious hsleeping
    · cases h
  | take =>
    simp only [step] at h
    split at h
    · split at h
      · cases h
        have hdone : s.stop = true ∧ s.queue = [] := by simp_all
        exact .exit ‹_› hdone.1 hdone.2
      · cases h
        exact .take ‹_›
    · cases h
  | write =>
    simp only [step] at h
    split at h
    · cases h
      exact .flush ‹_›
    · cases h
      exact .write ‹_›
    · cases h

/-! ## §3 Shutdown -/

/-- The writer blocks, `stop()` waits for it to exit, and nobody is about to notify it. -/
def Hung (s : AsyncLogger) : Prop :=
  s.stop = true ∧ s.writer = .sleeping ∧ s.stopCall = .joining ∧ s.pending = 0

instance : DecidablePred Hung := fun s => by unfold Hung; infer_instance

/-- The calls of `notify_one` that are still to be made. -/
def outstanding (s : AsyncLogger) : Nat :=
  s.pending + if s.stopCall = .notifying then 1 else 0

def Act.notifies : Act → Bool
  | .logNotify | .stopNotify => true
  | _ => false

/-- The step is not the last outstanding `notify_one` while the writer is about to block, when
`stop_` is set. -/
def Heard (s : AsyncLogger) (a : Act) : Prop :=
  a.notifies = true → s.stop = true → s.writer = .falling → 1 < s.outstanding

instance (s : AsyncLogger) (a : Act) : Decidable (s.Heard a) := by
  unfold Heard; infer_instance

/-- The flag is set and all notifications are over, while the writer blocks or is about to. -/
def Doomed (s : AsyncLogger) : Prop :=
  s.stop = true ∧ s.outstanding = 0 ∧ (s.writer = .falling ∨ s.writer = .sleeping)

/-- `stop_` is set by the call of `stop()` that goes on, which returns after the writer. -/
structure Stopping (s : AsyncLogger) : Prop where
  idle : s.stop = false ↔ s.stopCall = .idle
  returned : s.stopCall = .returned → s.writer = .exited

theorem stopping_init : Stopping init := ⟨by simp [init], by simp [init]⟩

theorem wake_ne_sleeping (pc : WriterPc) : pc.wake ≠ .sleeping := by
  cases pc <;> simp [WriterPc.wake]

theorem wake_eq_falling {pc : WriterPc} : pc.wake = .falling ↔ pc = .falling := by
  cases pc <;> simp [WriterPc.wake]

theorem wake_exited {pc : WriterPc} (h : pc = .exited) : pc.wake = .exited := by
  rw [h]
  rfl

/-- A step of the writer, which has not left its loop. -/
theorem Stopping.of_running {s t : AsyncLogger} (hs : Stopping s) (hwriter : s.writer ≠ .exited)
    (hstop : t.stop = s.stop) (hcall : t.stopCall = s.stopCall) : Stopping t where
  idle := by
    rw [hstop, hcall]
    exact hs.idle
  returned := fun hr => absurd (hs.returned (hcall ▸ hr)) hwriter

theorem stopping_step {s t : AsyncLogger} {a : Act} (hs : Stopping s) (h : s.step a = some t) :
    Stopping t := by
  cases step_cases h with
  | log _ => exact ⟨hs.idle, hs.returned⟩
  | logNotify _ => exact ⟨hs.idle, fun hr => wake_exited (hs.returned hr)⟩
  | stopped _ => exact hs
  | stop _ => exact ⟨by simp, fun hr => nomatch hr⟩
  | stopNotify hcall =>
    refine ⟨?_, fun hr => nomatch hr⟩
    have hidle := hs.idle
    rw [hcall] at hidle
    simpa using hidle
  | join hcall hwriter =>
    refine ⟨?_, fun _ => hwriter⟩
    have hidle := hs.idle
    rw [hcall] at hidle
    simpa using hidle
  | exit _ _ _ => exact ⟨hs.idle, fun _ => rfl⟩
  | lock hw => exact hs.of_running (by simp [hw]) rfl rfl
  | pass hw _ => exact hs.of_running (by simp [hw]) rfl rfl
  | fall hw _ _ => exact hs.of_running (by simp [hw]) rfl rfl
  | sleep hw => exact hs.of_running (by simp [hw]) rfl rfl
  | spurious hw => exact hs.of_running (by simp [hw]) rfl rfl
  | take hw => exact hs.of_running (by simp [hw]) rfl rfl
  | flush hw => exact hs.of_running (by simp [hw]) rfl rfl
  | write hw => exact hs.of_running (by simp [hw]) rfl rfl

/-- While the writer is there and the flag is set, no notification is outstanding exactly if
`stop()` is in `join` and no log call is pending. -/
theorem Stopping.outstanding_eq_zero_iff {s : AsyncLogger} (hs : Stopping s)
    (hstop : s.stop = true) (hwriter : s.writer ≠ .exited) :
    s.outstanding = 0 ↔ s.stopCall = .joining ∧ s.pending = 0 := by
  cases hcall : s.stopCall with
  | idle => exact absurd (hs.idle.mpr hcall) (by simp [hstop])
  | notifying => simp [outstanding, hcall]
  | joining => simp [outstanding, hcall]
  | returned => exact absurd (hs.returned hcall) hwriter

/-- The doomed states are the hung ones and those in which the writer blocks next. -/
theorem doomed_iff {s : AsyncLogger} (hs : Stopping s) :
    s.Doomed ↔ s.Hung ∨ ∃ t, s.step .sleep = some t ∧ t.Hung := by
  constructor
  · rintro ⟨hstop, houtstanding, hw | hw⟩
    · rw [hs.outstanding_eq_zero_iff hstop (by simp [hw])] at houtstanding
      refine Or.inr ⟨{ s with writer := .sleeping }, by simp [step, hw], ?_⟩
      exact ⟨hstop, rfl, houtstanding⟩
    · rw [hs.outstanding_eq_zero_iff hstop (by simp [hw])] at houtstanding
      exact Or.inl ⟨hstop, hw, houtstanding⟩
  · rintro (⟨hstop, hw, hjoining⟩ | ⟨t, ht, hstop, -, hjoining⟩)
    · exact ⟨hstop, (hs.outstanding_eq_zero_iff hstop (by simp [hw])).mpr hjoining, Or.inr hw⟩
    · cases step_cases ht with
      | sleep hw =>
        have houtstanding := (hs.outstanding_eq_zero_iff hstop (by simp [hw])).mpr hjoining
        exact ⟨hstop, houtstanding, Or.inl hw⟩

/-- A `notify_one` leaves a doomed state exactly if it is the last one and is not heard. -/
theorem doomed_wake_iff {s t : AsyncLogger} (hstop : t.stop = s.stop)
    (hwriter : t.writer = s.writer.wake) (hone : s.outstanding = t.outstanding + 1) :
    ¬ t.Doomed ↔ (s.stop = true → s.writer = .falling → 1 < s.outstanding) := by
  have hsleeping := wake_ne_sleeping s.writer
  unfold Doomed
  rw [hstop, hwriter, wake_eq_falling, or_iff_left hsleeping]
  constructor
  · intro h hstop hw
    by_contra hlast
    exact h ⟨hstop, by omega, hw⟩
  · rintro h ⟨hstop, hzero, hw⟩
    have := h hstop hw
    omega

/-- From a state that is not doomed, the steps that are heard are those to such states. -/
theorem doomed_step {s t : AsyncLogger} {a : Act} (hdoomed : ¬ s.Doomed)
    (h : s.step a = some t) : ¬ t.Doomed ↔ s.Heard a := by
  -- what is not a notification is heard
  have hsilent : a.notifies = false → ¬ t.Doomed → (¬ t.Doomed ↔ s.Heard a) := by
    intro hnotify ht
    exact iff_of_true ht fun hn => absurd hn (by simp [hnotify])
  -- the writer does not block and is not about to
  have hawake : t.writer ≠ .falling → t.writer ≠ .sleeping → ¬ t.Doomed := by
    rintro hf hsl ⟨-, -, hw | hw⟩
    · exact hf hw
    · exact hsl hw
  cases step_cases h with
  | log _ => exact hsilent rfl fun ⟨_, hzero, _⟩ => by simp [outstanding] at hzero
  | logNotify hpending =>
    refine Iff.trans (doomed_wake_iff (s := s) rfl rfl ?_) ⟨fun h _ => h, fun h => h rfl⟩
    simp only [outstanding, hpending]
    omega
  | stopped _ => exact hsilent rfl hdoomed
  | stop _ => exact hsilent rfl fun ⟨_, hzero, _⟩ => by simp [outstanding] at hzero
  | stopNotify hcall =>
    refine Iff.trans (doomed_wake_iff (s := s) rfl rfl ?_) ⟨fun h _ => h, fun h => h rfl⟩
    simp [outstanding, hcall]
  | fall _ hstop _ => exact hsilent rfl fun ⟨hset, _⟩ => by simp [hstop] at hset
  | sleep hw =>
    refine hsilent rfl fun ⟨hset, hzero, _⟩ => hdoomed ⟨hset, hzero, Or.inl hw⟩
  | join _ hw => exact hsilent rfl (hawake (by simp [hw]) (by simp [hw]))
  | lock _ => exact hsilent rfl (hawake nofun nofun)
  | pass _ _ => exact hsilent rfl (hawake nofun nofun)
  | spurious _ => exact hsilent rfl (hawake nofun nofun)
  | exit _ _ _ => exact hsilent rfl (hawake nofun nofun)
  | take _ => exact hsilent rfl (hawake nofun nofun)
  | flush _ => exact hsilent rfl (hawake nofun nofun)
  | write _ => exact hsilent rfl (hawake nofun nofun)

/-- A run reaches no state that hangs, and none from which the writer only has to block to hang,
exactly if no step of it is the last outstanding `notify_one` while the writer is about to block.
-/
theorem shutdown_iff {acts : List Act} {s : AsyncLogger} (hrun : run step init acts = some s) :
    Meets step Heard init acts ↔
      ∀ pre post v, acts = pre ++ post → run step init pre = some v →
        ¬ v.Hung ∧ ∀ w, v.step .sleep = some w → ¬ w.Hung := by
  have hstart : ¬ Doomed init := fun h => by simp [Doomed, init] at h
  have hstopping : ∀ {pre v}, run step init pre = some v → Stopping v := fun hv =>
    run_invariant (fun _ _ _ hs h => stopping_step hs h) stopping_init hv
  rw [meets_iff_forall_state (fun _ _ _ hs h => stopping_step hs h)
    (fun _ _ _ _ hd h => doomed_step hd h) stopping_init hstart hrun]
  have hstate : ∀ {pre v}, run step init pre = some v →
      (¬ v.Doomed ↔ ¬ v.Hung ∧ ∀ w, v.step .sleep = some w → ¬ w.Hung) := by
    intro pre v hv
    rw [doomed_iff (hstopping hv), not_or, not_exists]
    simp only [not_and]
  constructor
  · intro h pre post v heq hv
    exact (hstate hv).mp (h pre post v heq hv)
  · intro h pre post v heq hv
    exact (hstate hv).mpr (h pre post v heq hv)

/-- A run that stops the writer after it has blocked once. -/
def cleanStop : List Act :=
  [.lock, .check, .sleep, .log "t" .info "bye", .stop, .logNotify, .lock, .check, .take, .write,
    .stopNotify, .write, .lock, .check, .take, .join]

theorem shutdown_cleanStop :
    ∃ s, run step init cleanStop = some s ∧ s.stopCall = .returned ∧
      s.file = [line "t" .info "bye"] ∧
      ∀ pre post v, cleanStop = pre ++ post → run step init pre = some v →
        ¬ v.Hung ∧ ∀ w, v.step .sleep = some w → ¬ w.Hung := by
  have hend : (run step init cleanStop).any
      (fun s => decide (s.stopCall = .returned ∧ s.file = [line "t" .info "bye"])) = true := by
    decide +kernel
  obtain ⟨s, hs, hend⟩ := exists_of_run_any hend
  rw [decide_eq_true_iff] at hend
  exact ⟨s, hs, hend.1, hend.2, (shutdown_iff hs).mp (by decide +kernel)⟩

/-- `stop()` notifies between the writer's test and its sleep. -/
theorem shutdown_hangs :
    ∃ s, run step init [.lock, .check, .stop, .stopNotify, .sleep] = some s ∧ s.Hung := by
  have hhung : (run step init [.lock, .check, .stop, .stopNotify, .sleep]).any
      (fun s => decide s.Hung) = true := by decide +kernel
  obtain ⟨s, hs, hhung⟩ := exists_of_run_any hhung
  exact ⟨s, hs, decide_eq_true_iff.mp hhung⟩

/-! ## §4 The lines -/

/-- The line that a step queues. -/
def Act.logged : Act → Option String
  | .log currentTime level msg => some (line currentTime level msg)
  | _ => none

def lines (s : AsyncLogger) : BatchQueue String := ⟨s.queue, s.writer.batch, s.file⟩

@[simp] theorem batch_wake (pc : WriterPc) : pc.wake.batch = pc.batch := by
  cases pc <;> rfl

/-- **Refinement**: the logger is a batch queue of its lines. -/
theorem refines_batchQueue : BatchQueue.Refines step lines Act.logged := by
  intro s a t h
  cases step_cases h with
  | log _ => exact ⟨[.push _], rfl, rfl⟩
  | take hw => exact ⟨[.swap], by simp [run, BatchQueue.step, lines, WriterPc.batch, hw], rfl⟩
  | write hw => exact ⟨[.serve], by simp [run, BatchQueue.step, lines, WriterPc.batch, hw], rfl⟩
  | logNotify _ => exact BatchQueue.exists_run_of_eq (by simp [lines]) rfl
  | stopNotify _ => exact BatchQueue.exists_run_of_eq (by simp [lines]) rfl
  | stopped _ => exact BatchQueue.exists_run_of_eq rfl rfl
  | stop _ => exact BatchQueue.exists_run_of_eq rfl rfl
  | join _ _ => exact BatchQueue.exists_run_of_eq rfl rfl
  | lock hw => exact BatchQueue.exists_run_of_eq (by simp [lines, WriterPc.batch, hw]) rfl
  | pass hw _ => exact BatchQueue.exists_run_of_eq (by simp [lines, WriterPc.batch, hw]) rfl
  | fall hw _ _ => exact BatchQueue.exists_run_of_eq (by simp [lines, WriterPc.batch, hw]) rfl
  | sleep hw => exact BatchQueue.exists_run_of_eq (by simp [lines, WriterPc.batch, hw]) rfl
  | spurious hw => exact BatchQueue.exists_run_of_eq (by simp [lines, WriterPc.batch, hw]) rfl
  | exit hw _ _ => exact BatchQueue.exists_run_of_eq (by simp [lines, WriterPc.batch, hw]) rfl
  | flush hw => exact BatchQueue.exists_run_of_eq (by simp [lines, WriterPc.batch, hw]) rfl

/-- The file has a prefix of the logged lines. -/
theorem file_prefix {acts : List Act} {s : AsyncLogger} (hrun : run step init acts = some s) :
    s.file <+: acts.filterMap Act.logged :=
  refines_batchQueue.served_prefix rfl hrun

/-- The writer leaves its loop when the file has every line that has been logged. -/
theorem flushed_of_exit {acts : List Act} {s t : AsyncLogger} (hrun : run step init acts = some s)
    (h : s.step .take = some t) (hexited : t.writer = .exited) :
    t.file = acts.filterMap Act.logged := by
  have hcontents := refines_batchQueue.contents hrun
  cases step_cases h with
  | take _ => cases hexited
  | exit hw _ hqueue =>
    have hnil : (lines init).contents = [] := rfl
    rw [hnil, List.nil_append] at hcontents
    simpa [lines, BatchQueue.contents, WriterPc.batch, hw, hqueue] using hcontents

end AsyncLogger

end EchoNet.Logger
