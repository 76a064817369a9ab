import EchoNet.Lib.Ranking
import EchoNet.ThreadPool.Accounting

/-!
# The Pool Does Not Hang

Neither a task in the queue nor `stop` waits for a notification that does not come.

- `awake_run`: no worker is blocked unless as many `notify_one` and workers on their way to `pop`
  are there as tasks in the queue, and none is once the queue is stopped;
- `stop_returns`: if the functions of the tasks return or throw, and nothing is submitted any
  more, then `stop` and all calls of `submit` return.
-/

namespace EchoNet.ThreadPool

open EchoNet.Lib

/-! ## §1 Notifications -/

namespace Submit

def alerts : Submit → Nat
  | .notifying => 1
  | .pushing _ | .rejected _ | .completing _ => 0

end Submit

namespace Thread

def ownAlerts : Thread → Nat
  | .popping => 1
  | .client _ | .waiting | .popped _ | .running _ _ | .completing _ _ | .exited => 0

/-- The `notify_one` that a thread is before, and the `pop` that it is before. -/
def alerts (thread : Thread) : Nat :=
  ((thread.calls.getD []).map Submit.alerts).sum + thread.ownAlerts

variable {thread : Thread} {calls : List Submit}

theorem alerts_of_calls (h : thread.calls = some calls) :
    thread.alerts = (calls.map Submit.alerts).sum := by
  rw [alerts, h]
  cases thread <;> first | rfl | cases h

theorem alerts_setCalls (h : thread.calls = some calls) (calls' : List Submit) :
    (thread.setCalls calls').alerts = (calls'.map Submit.alerts).sum :=
  alerts_of_calls (calls_setCalls h calls')

theorem ne_waiting_of_calls (h : thread.calls = some calls) : thread ≠ .waiting := by
  rintro rfl
  cases h

theorem wake_ne_waiting (thread : Thread) : thread.wake ≠ .waiting := by
  cases thread <;> nofun

end Thread

namespace WorkThreadPool

def alerts (s : WorkThreadPool) : Nat := (s.threads.map Thread.alerts).sum

/-- No worker sleeps through a task, or through `stop`. -/
structure Awake (s : WorkThreadPool) : Prop where
  stopped_iff : s.queue.stopped = true ↔ s.stopCall = .joining ∨ s.stopCall = .returned
  running : .waiting ∈ s.threads → s.queue.stopped = false
  alerted : .waiting ∈ s.threads → s.queue.queue.length ≤ s.alerts

theorem awake_init (num : Int) (clients : Nat) : Awake (init num clients) where
  stopped_iff := by simp [init]
  running := fun _ => rfl
  alerted := fun _ => Nat.zero_le _

section

variable {s t : WorkThreadPool} {i : Nat} {thread thread' : Thread}

theorem mem_of_waiting_mem_set (hne : thread' ≠ .waiting)
    (hmem : .waiting ∈ s.threads.set i thread') : .waiting ∈ s.threads := by
  rcases List.mem_or_eq_of_mem_set hmem with hmem | heq
  · exact hmem
  · exact absurd heq.symm hne

/-- Nobody blocks, and no notification gets lost. -/
theorem Awake.keep (hs : s.Awake) (hwaiting : .waiting ∈ t.threads → .waiting ∈ s.threads)
    (hstop : t.stopCall = s.stopCall) (hstopped : t.queue.stopped = s.queue.stopped)
    (halerts : t.queue.queue.length + s.alerts ≤ s.queue.queue.length + t.alerts) : t.Awake := by
  refine ⟨?_, fun hmem => ?_, fun hmem => ?_⟩
  · rw [hstop, hstopped]
    exact hs.stopped_iff
  · rw [hstopped]
    exact hs.running (hwaiting hmem)
  · have hle := hs.alerted (hwaiting hmem)
    omega

/-- A thread goes on, and does not block. -/
theorem Awake.move (hs : s.Awake) (h : s.threads[i]? = some thread)
    (hthreads : t.threads = s.threads.set i thread') (hne : thread' ≠ .waiting)
    (hstop : t.stopCall = s.stopCall) (hstopped : t.queue.stopped = s.queue.stopped)
    (halerts : t.queue.queue.length + thread.alerts ≤ s.queue.queue.length + thread'.alerts) :
    t.Awake := by
  have hset := sum_map_set_add h Thread.alerts thread'
  refine hs.keep (fun hmem => mem_of_waiting_mem_set hne (hthreads ▸ hmem)) hstop hstopped ?_
  rw [alerts, alerts, hthreads]
  omega

/-- A thread goes on in its calls of `submit`. -/
theorem Awake.moveCalls {calls calls' : List Submit} (hs : s.Awake)
    (h : s.threads[i]? = some thread) (hcalls : thread.calls = some calls)
    (hthreads : t.threads = s.threads.set i (thread.setCalls calls'))
    (hstop : t.stopCall = s.stopCall) (hqueue : t.queue = s.queue)
    (halerts : (calls.map Submit.alerts).sum ≤ (calls'.map Submit.alerts).sum) : t.Awake := by
  have hne := Thread.ne_waiting_of_calls (Thread.calls_setCalls hcalls calls')
  refine hs.move h hthreads hne hstop (congrArg _ hqueue) ?_
  rw [Thread.alerts_of_calls hcalls, Thread.alerts_setCalls hcalls, hqueue]
  omega

/-- A worker blocks, since the queue is empty and not stopped. -/
theorem Awake.wait (hs : s.Awake) (hqueue : s.queue.queue = [])
    (hstopped : s.queue.stopped = false) : (s.setThread i .waiting).Awake := by
  refine ⟨hs.stopped_iff, fun _ => hstopped, fun _ => ?_⟩
  show s.queue.queue.length ≤ _
  rw [hqueue]
  exact Nat.zero_le _

/-- Nobody is blocked. -/
theorem awake_of_not_waiting (hwaiting : .waiting ∉ s.threads)
    (hstopped : s.queue.stopped = true ↔ s.stopCall = .joining ∨ s.stopCall = .returned) :
    s.Awake :=
  ⟨hstopped, fun hmem => absurd hmem hwaiting, fun hmem => absurd hmem hwaiting⟩

theorem not_waiting_of_canWake (hwake : s.canWake none = true) : .waiting ∉ s.threads := by
  simpa [canWake] using hwake

/-- A `notify_one` wakes a blocked worker, if there is one. -/
theorem Awake.notify {woken : Option Nat} {calls : List Submit} (hs : s.Awake)
    (h : s.threads[i]? = some thread) (hcalls : thread.calls = some (.notifying :: calls))
    (hwake : s.canWake woken = true) :
    ((s.setThread i (thread.setCalls calls)).notifyOne woken).Awake := by
  have hne := Thread.ne_waiting_of_calls (Thread.calls_setCalls hcalls calls)
  have hset := sum_map_set_add h Thread.alerts (thread.setCalls calls)
  rw [Thread.alerts_of_calls hcalls, Thread.alerts_setCalls hcalls] at hset
  cases woken with
  | none =>
    refine awake_of_not_waiting (fun hmem => ?_) hs.stopped_iff
    exact not_waiting_of_canWake hwake (mem_of_waiting_mem_set hne hmem)
  -- the worker that is woken is before `pop` now, in place of the `notify_one`
  | some j =>
    have hj := getElem?_of_canWake h hcalls hwake (thread.setCalls calls)
    have hset' := sum_map_set_add hj Thread.alerts .popping
    refine hs.keep (fun hmem => ?_) rfl rfl ?_
    · have hpopping : Thread.popping ≠ .waiting := by decide
      have hmem' : .waiting ∈ (s.setThread i (thread.setCalls calls)).threads :=
        mem_of_waiting_mem_set hpopping hmem
      exact mem_of_waiting_mem_set hne hmem'
    · show s.queue.queue.length + (s.threads.map Thread.alerts).sum ≤ s.queue.queue.length +
        (((s.threads.set i (thread.setCalls calls)).set j .popping).map Thread.alerts).sum
      have hwaiting : Thread.alerts .waiting = 0 := rfl
      have hpopping : Thread.alerts .popping = 1 := rfl
      simp only [List.map_cons, List.sum_cons, Submit.alerts, setThread] at hset hset'
      omega

end

theorem awake_step {s t : WorkThreadPool} {a : Act} (hs : s.Awake) (h : s.step a = some t) :
    t.Awake := by
  cases step_cases h with
  | submit hthread hcalls _ =>
    exact hs.moveCalls hthread hcalls rfl rfl rfl (by simp [Submit.alerts])
  | @accept i thread task calls hthread hcalls _ =>
    have hne := Thread.ne_waiting_of_calls (Thread.calls_setCalls hcalls (.notifying :: calls))
    refine hs.move hthread rfl hne rfl rfl ?_
    rw [Thread.alerts_of_calls hcalls, Thread.alerts_setCalls hcalls]
    simp only [List.map_cons, List.sum_cons, Submit.alerts, List.length_append,
      List.length_singleton]
    omega
  | refuse hthread hcalls _ =>
    exact hs.moveCalls hthread hcalls rfl rfl rfl (by simp [Submit.alerts])
  | notify hthread hcalls hwake => exact hs.notify hthread hcalls hwake
  | reject hthread hcalls _ =>
    exact hs.moveCalls hthread hcalls rfl rfl rfl (by simp [Submit.alerts])
  | rejectSilent hthread hcalls _ =>
    exact hs.moveCalls hthread hcalls rfl rfl rfl (by simp [Submit.alerts])
  | rejectedDone hthread hcalls =>
    exact hs.moveCalls hthread hcalls rfl rfl rfl (by simp [Submit.alerts])
  | take hthread hqueue =>
    refine hs.move hthread rfl nofun rfl rfl ?_
    rw [hqueue]
    exact Nat.le_refl _
  | wait _ hqueue hstopped => exact hs.wait hqueue hstopped
  -- the queue is stopped, so nobody was blocked
  | exit hthread hqueue hstopped =>
    refine awake_of_not_waiting (fun hmem => ?_) hs.stopped_iff
    have hexited : Thread.exited ≠ .waiting := by decide
    have hrunning := hs.running (mem_of_waiting_mem_set hexited hmem)
    rw [hstopped] at hrunning
    cases hrunning
  | spurious hthread => exact hs.move hthread rfl nofun rfl rfl (Nat.le_succ _)
  | test hthread _ => exact hs.move hthread rfl nofun rfl rfl (Nat.le_refl _)
  | testEmpty hthread _ => exact hs.move hthread rfl nofun rfl rfl (Nat.le_refl _)
  | ran hthread _ => exact hs.move hthread rfl nofun rfl rfl (Nat.le_refl _)
  | ranSilent hthread _ => exact hs.move hthread rfl nofun rfl rfl (Nat.le_succ _)
  | completed hthread => exact hs.move hthread rfl nofun rfl rfl (Nat.le_succ _)
  | stop hidle =>
    refine ⟨?_, hs.running, hs.alerted⟩
    have hstopped := hs.stopped_iff
    rw [hidle] at hstopped
    simpa using hstopped
  | stopped _ => exact hs
  | stopQueue _ =>
    refine awake_of_not_waiting (fun hmem => ?_) (by simp [TaskQueue.stop])
    obtain ⟨thread, -, heq⟩ := List.mem_map.mp hmem
    exact thread.wake_ne_waiting heq
  | join hjoining _ =>
    refine ⟨?_, hs.running, hs.alerted⟩
    have hstopped := hs.stopped_iff
    rw [hjoining] at hstopped
    simpa using hstopped

theorem awake_run {num : Int} {clients : Nat} {acts : List Act} {s : WorkThreadPool}
    (hrun : run step (init num clients) acts = some s) : s.Awake :=
  run_invariant (fun _ _ _ hs h => awake_step hs h) (awake_init num clients) hrun

end WorkThreadPool

/-! ## §2 What is left to do -/

/-- The steps of a pool to which nothing is submitted any more, without spurious wakeups. -/
def WorkThreadPool.Act.isWork : WorkThreadPool.Act → Bool
  | .submit _ _ _ | .spurious _ | .stop => false
  | _ => true

/-- At most this many steps of the call are left, with those of the task that it pushes. -/
def Submit.rank : Submit → Nat
  | .pushing _ => 7
  -- the thread that it wakes has one more
  | .notifying => 2
  | .rejected _ => 2
  | .completing _ => 1

namespace Thread

def ownRank : Thread → Nat
  | .client _ | .exited => 0
  | .waiting => 1
  | .popping => 2
  | .completing _ _ => 3
  | .running _ _ => 4
  | .popped _ => 5

/-- The thread has no step of its own. -/
def isIdle : Thread → Bool
  | .client calls => calls.isEmpty
  | .waiting | .exited => true
  | .popping | .popped _ | .running _ _ | .completing _ _ => false

/-- At most this many steps of the thread are left. -/
def rank (thread : Thread) : Nat :=
  ((thread.calls.getD []).map Submit.rank).sum + thread.ownRank

variable {thread : Thread} {calls : List Submit}

theorem ownRank_setCalls (thread : Thread) (calls : List Submit) :
    (thread.setCalls calls).ownRank = thread.ownRank := by
  cases thread <;> rfl

theorem rank_of_calls (h : thread.calls = some calls) :
    thread.rank = (calls.map Submit.rank).sum + thread.ownRank := by
  rw [rank, h]
  rfl

theorem rank_setCalls (h : thread.calls = some calls) (calls' : List Submit) :
    (thread.setCalls calls').rank = (calls'.map Submit.rank).sum + thread.ownRank := by
  rw [rank_of_calls (calls_setCalls h calls'), ownRank_setCalls]

theorem rank_wake_le (thread : Thread) : thread.wake.rank ≤ thread.rank + 1 := by
  cases thread <;> simp [wake, rank, calls, ownRank]

end Thread

namespace WorkThreadPool

/-- What is left of `stop`. -/
def stopRank (s : WorkThreadPool) : Nat :=
  match s.stopCall with
  -- `queue_.stop()` wakes every thread
  | .idle | .stopping => s.threads.length + 2
  | .joining => 1
  | .returned => 0

/-- At most this many steps of the pool are left. -/
def rank (s : WorkThreadPool) : Nat :=
  4 * s.queue.queue.length + (s.threads.map Thread.rank).sum + s.stopRank

section

variable {s t : WorkThreadPool} {i : Nat} {thread thread' : Thread}

theorem rank_set (h : s.threads[i]? = some thread) (hthreads : t.threads = s.threads.set i thread')
    (hstop : t.stopCall = s.stopCall) :
    t.rank + 4 * s.queue.queue.length + thread.rank =
      s.rank + 4 * t.queue.queue.length + thread'.rank := by
  have hset := sum_map_set_add h Thread.rank thread'
  have hstopRank : t.stopRank = s.stopRank := by
    rw [stopRank, stopRank, hstop, hthreads, List.length_set]
  rw [rank, rank, hstopRank, hthreads]
  omega

theorem rank_lt_of_queue (h : s.threads[i]? = some thread)
    (hthreads : t.threads = s.threads.set i thread') (hstop : t.stopCall = s.stopCall)
    (hlt : 4 * t.queue.queue.length + thread'.rank < 4 * s.queue.queue.length + thread.rank) :
    t.rank < s.rank := by
  have hset := rank_set h hthreads hstop
  omega

theorem rank_lt_of_set (h : s.threads[i]? = some thread)
    (hthreads : t.threads = s.threads.set i thread') (hstop : t.stopCall = s.stopCall)
    (hqueue : t.queue = s.queue) (hlt : thread'.rank < thread.rank) : t.rank < s.rank := by
  refine rank_lt_of_queue h hthreads hstop ?_
  rw [hqueue]
  omega

theorem rank_lt_of_calls {calls calls' : List Submit} (h : s.threads[i]? = some thread)
    (hcalls : thread.calls = some calls)
    (hthreads : t.threads = s.threads.set i (thread.setCalls calls'))
    (hstop : t.stopCall = s.stopCall) (hqueue : t.queue = s.queue)
    (hlt : (calls'.map Submit.rank).sum < (calls.map Submit.rank).sum) : t.rank < s.rank := by
  refine rank_lt_of_set h hthreads hstop hqueue ?_
  rw [Thread.rank_of_calls hcalls, Thread.rank_setCalls hcalls]
  omega

theorem rank_notifyOne_le {woken : Option Nat}
    (hwake : ∀ j ∈ woken, s.threads[j]? = some .waiting) :
    (s.notifyOne woken).rank ≤ s.rank + 1 := by
  cases woken with
  | none => exact Nat.le_succ _
  | some j =>
    have hset := rank_set (hwake j rfl) (t := s.setThread j .popping) rfl rfl
    have hwaiting : Thread.rank .waiting = 1 := rfl
    have hpopping : Thread.rank .popping = 2 := rfl
    have hqueue : (s.setThread j .popping).queue = s.queue := rfl
    rw [hwaiting, hpopping, hqueue] at hset
    show (s.setThread j .popping).rank ≤ s.rank + 1
    omega

theorem sum_rank_wake_le (threads : List Thread) :
    ((threads.map Thread.wake).map Thread.rank).sum ≤
      (threads.map Thread.rank).sum + threads.length := by
  induction threads with
  | nil => exact Nat.le_refl _
  | cons thread threads ih =>
    have hthread := thread.rank_wake_le
    simp only [List.map_cons, List.sum_cons, List.length_cons]
    omega

end

/-- Every step of the pool is one less. -/
theorem rank_lowered : Lowers step Act.isWork rank := by
  intro s a t hwork h
  cases step_cases h with
  | submit _ _ _ => cases hwork
  | spurious _ => cases hwork
  | stop _ => cases hwork
  | stopped _ => cases hwork
  | @accept i thread task calls hthread hcalls _ =>
    refine rank_lt_of_queue hthread rfl rfl ?_
    rw [Thread.rank_of_calls hcalls, Thread.rank_setCalls hcalls]
    simp only [List.map_cons, List.sum_cons, Submit.rank, List.length_append,
      List.length_singleton]
    omega
  | refuse hthread hcalls _ =>
    exact rank_lt_of_calls hthread hcalls rfl rfl rfl (by simp [Submit.rank])
  | @notify i woken thread calls hthread hcalls hwake =>
    have hset := rank_set hthread rfl rfl (t := s.setThread i (thread.setCalls calls))
    have hqueue : (s.setThread i (thread.setCalls calls)).queue = s.queue := rfl
    rw [Thread.rank_of_calls hcalls, Thread.rank_setCalls hcalls, hqueue] at hset
    simp only [List.map_cons, List.sum_cons, Submit.rank] at hset
    have hwoken : ∀ j ∈ woken,
        (s.setThread i (thread.setCalls calls)).threads[j]? = some .waiting := by
      rintro j rfl
      exact getElem?_of_canWake hthread hcalls hwake _
    have hle := rank_notifyOne_le hwoken
    omega
  | reject hthread hcalls _ =>
    exact rank_lt_of_calls hthread hcalls rfl rfl rfl (by simp [Submit.rank])
  | rejectSilent hthread hcalls _ =>
    exact rank_lt_of_calls hthread hcalls rfl rfl rfl (by simp [Submit.rank])
  | rejectedDone hthread hcalls =>
    exact rank_lt_of_calls hthread hcalls rfl rfl rfl (by simp [Submit.rank])
  | @take i task rest hthread hqueue =>
    refine rank_lt_of_queue hthread rfl rfl ?_
    show 4 * rest.length + 5 < 4 * s.queue.queue.length + 2
    rw [hqueue, List.length_cons]
    omega
  | wait hthread _ _ => exact rank_lt_of_set hthread rfl rfl rfl (by decide)
  | exit hthread _ _ => exact rank_lt_of_set hthread rfl rfl rfl (by decide)
  | test hthread _ => exact rank_lt_of_set hthread rfl rfl rfl (Nat.lt_succ_self _)
  | testEmpty hthread _ => exact rank_lt_of_set hthread rfl rfl rfl (Nat.succ_pos _)
  | ran hthread _ => exact rank_lt_of_set hthread rfl rfl rfl (Nat.lt_succ_self _)
  | @ranSilent i outcome task hthread _ =>
    have hlt : Thread.rank .popping < (Thread.running task []).rank := by
      show 2 < 4
      decide
    exact rank_lt_of_set hthread rfl rfl rfl hlt
  | completed hthread => exact rank_lt_of_set hthread rfl rfl rfl (Nat.lt_succ_self _)
  | stopQueue hstopping =>
    have hwake := sum_rank_wake_le s.threads
    have hstopRank : s.stopRank = s.threads.length + 2 := by
      rw [stopRank, hstopping]
    rw [rank, rank, hstopRank]
    simp only [stopRank, TaskQueue.stop]
    omega
  | join hjoining _ =>
    have hstopRank : s.stopRank = 1 := by
      rw [stopRank, hjoining]
    rw [rank, rank, hstopRank]
    exact Nat.lt_succ_self _

/-! ## §3 Nothing gets stuck -/

/-- The pool has a step that it can take. -/
def CanGoOn (s : WorkThreadPool) : Prop :=
  ∃ a : Act, a.isWork = true ∧ (s.step a).isSome = true

/-- Nothing of the pool can go on. -/
def AtRest (s : WorkThreadPool) : Prop := ∀ a : Act, a.isWork = true → s.step a = none

section

variable {s : WorkThreadPool} {i : Nat} {thread : Thread}

theorem AtRest.not_canGoOn (hrest : s.AtRest) : ¬ s.CanGoOn := by
  rintro ⟨a, hwork, hsome⟩
  rw [hrest a hwork] at hsome
  cases hsome

theorem exists_canWake (s : WorkThreadPool) : ∃ woken, s.canWake woken = true := by
  by_cases hwaiting : .waiting ∈ s.threads
  · obtain ⟨j, hj⟩ := List.mem_iff_getElem?.mp hwaiting
    exact ⟨some j, decide_eq_true hj⟩
  · exact ⟨none, by simp [canWake, hwaiting]⟩

/-- A thread in a call of `submit` can take a step. -/
theorem canGoOn_of_call {call : Submit} {calls : List Submit} (h : s.threads[i]? = some thread)
    (hcalls : thread.calls = some (call :: calls)) : s.CanGoOn := by
  cases call with
  | pushing task =>
    refine ⟨.tryPush i, rfl, ?_⟩
    cases hstopped : s.queue.stopped with
    | false => simp [step, h, hcalls, TaskQueue.tryPush_of_not_stopped hstopped]
    | true => simp [step, h, hcalls, TaskQueue.tryPush_of_stopped hstopped]
  | notifying =>
    obtain ⟨woken, hwake⟩ := s.exists_canWake
    exact ⟨.notify i woken, rfl, by simp [step, h, hcalls, hwake]⟩
  | rejected task =>
    refine ⟨.reject i, rfl, ?_⟩
    cases hcomplete : task.onComplete <;> simp [step, h, hcalls, hcomplete]
  | completing task => exact ⟨.rejectedDone i .returned, rfl, by simp [step, h, hcalls]⟩

/-- A thread that is not idle can take a step. -/
theorem canGoOn_of_thread (h : s.threads[i]? = some thread) (hidle : thread.isIdle = false) :
    s.CanGoOn := by
  cases thread with
  | client calls =>
    cases calls with
    | nil => cases hidle
    | cons call calls => exact canGoOn_of_call h rfl
  | popping =>
    refine ⟨.pop i, rfl, ?_⟩
    cases hqueue : s.queue.queue with
    | nil =>
      cases hstopped : s.queue.stopped <;> simp [step, h, TaskQueue.pop_nil hqueue, hstopped]
    | cons task rest => simp [step, h, TaskQueue.pop_cons hqueue]
  | waiting => cases hidle
  | popped task =>
    refine ⟨.test i, rfl, ?_⟩
    cases hrun : task.run <;> simp [step, h, hrun]
  | running task calls =>
    cases calls with
    | nil =>
      refine ⟨.ran i .returned, rfl, ?_⟩
      cases hcomplete : task.onComplete <;> simp [step, h, hcomplete]
    | cons call calls => exact canGoOn_of_call h rfl
  | completing task calls =>
    cases calls with
    | nil => exact ⟨.completed i .returned, rfl, by simp [step, h]⟩
    | cons call calls => exact canGoOn_of_call h rfl
  | exited => cases hidle

theorem canGoOn_of_mem (hmem : thread ∈ s.threads) (hidle : thread.isIdle = false) : s.CanGoOn := by
  obtain ⟨i, h⟩ := List.mem_iff_getElem?.mp hmem
  exact canGoOn_of_thread h hidle

/-- A task in the queue does not wait for ever while there is a worker. -/
theorem Awake.canGoOn_of_queue (hs : s.Awake) (hqueue : s.queue.queue ≠ [])
    (hmem : thread ∈ s.threads) (hworker : thread.isWorker = true) (hne : thread ≠ .exited) :
    s.CanGoOn := by
  by_cases hwaiting : thread = .waiting
  -- some other thread is about to notify it, or to take the task itself
  · subst hwaiting
    have hle := hs.alerted hmem
    have hpos : 0 < s.alerts := Nat.lt_of_lt_of_le (List.length_pos_iff.mpr hqueue) hle
    obtain ⟨n, hn, hpos⟩ := List.sum_pos_iff_exists_pos_nat.mp hpos
    obtain ⟨other, hother, rfl⟩ := List.mem_map.mp hn
    refine canGoOn_of_mem hother ?_
    cases other with
    | client calls => cases calls <;> first | rfl | cases hpos
    | waiting => cases hpos
    | exited => cases hpos
    | _ => rfl
  · refine canGoOn_of_mem hmem ?_
    cases thread <;> first | rfl | contradiction

/-- `stop` and the calls of `submit` go on until they have returned. -/
theorem Awake.canGoOn_of_stop (hs : s.Awake) (hstop : s.stopCall ≠ .idle)
    (hfinished : ¬ s.Finished) : s.CanGoOn := by
  cases hcall : s.stopCall with
  | idle => exact absurd hcall hstop
  | stopping => exact ⟨.stopQueue, rfl, by simp [step, hcall]⟩
  | joining =>
    by_cases hjoin : s.threads.all (fun thread => !thread.isWorker || thread = .exited) = true
    · exact ⟨.join, rfl, by simp only [step, hcall, hjoin, if_true, Option.isSome_some]⟩
    · rw [List.all_eq_true, not_forall] at hjoin
      obtain ⟨thread, hthread⟩ := hjoin
      obtain ⟨hmem, hthread⟩ := Classical.not_imp.mp hthread
      refine canGoOn_of_mem hmem ?_
      have hstopped := hs.stopped_iff.mpr (Or.inl hcall)
      cases thread with
      | client calls => exact absurd rfl hthread
      | waiting =>
        rw [hs.running hmem] at hstopped
        cases hstopped
      | exited => exact absurd rfl hthread
      | _ => rfl
  | returned =>
    have hcalls : ¬ ∀ thread ∈ s.threads, ∀ calls ∈ thread.calls, calls = [] :=
      fun hcalls => hfinished ⟨hcall, hcalls⟩
    push Not at hcalls
    obtain ⟨thread, hmem, calls, hcalls, hne⟩ := hcalls
    obtain ⟨i, h⟩ := List.mem_iff_getElem?.mp hmem
    obtain ⟨call, rest, rfl⟩ := List.exists_cons_of_ne_nil hne
    exact canGoOn_of_call h hcalls

/-- At rest, a `stop` that was called and all calls of `submit` have returned, and what is in the
queue has no worker left. -/
theorem Awake.of_atRest (hs : s.Awake) (hrest : s.AtRest) :
    (s.stopCall ≠ .idle → s.Finished) ∧
      (s.queue.queue ≠ [] → ∀ thread ∈ s.threads, thread.isWorker = true → thread = .exited) := by
  have hnone := hrest.not_canGoOn
  constructor
  · intro hstop
    by_contra hfinished
    exact hnone (hs.canGoOn_of_stop hstop hfinished)
  · intro hqueue thread hmem hworker
    by_contra hne
    exact hnone (hs.canGoOn_of_queue hqueue hmem hworker hne)

end

theorem stopCall_ne_idle_step {s t : WorkThreadPool} {a : Act} (hs : s.stopCall ≠ .idle)
    (h : s.step a = some t) : t.stopCall ≠ .idle := by
  cases step_cases h with
  | @notify _ woken _ _ _ _ _ => cases woken <;> exact hs
  | stop _ => nofun
  | stopQueue _ => nofun
  | join _ _ => nofun
  | _ => exact hs

/-- When `stop` was called and nothing is submitted any more, the pool comes to rest after at most
`rank` steps of its own, whatever their order, and then `stop` and all calls of `submit` have
returned. -/
theorem stop_returns {num : Int} {clients : Nat} {acts work : List Act} {s t : WorkThreadPool}
    (hrun : run step (init num clients) acts = some s) (hstop : s.stopCall ≠ .idle)
    (hwork : ∀ a ∈ work, a.isWork = true) (hmore : run step s work = some t) :
    work.length ≤ s.rank ∧ (t.AtRest → t.Finished) := by
  have hawake := awake_run (run_append.mpr ⟨s, hrun, hmore⟩)
  have hcalled : t.stopCall ≠ .idle :=
    run_invariant (fun _ _ _ hs h => stopCall_ne_idle_step hs h) hstop hmore
  have hle := rank_lowered.length_add_rank_le hwork hmore
  exact ⟨by omega, fun hrest => (hawake.of_atRest hrest).1 hcalled⟩

/-- And it can come to rest from every state that is reached. -/
theorem exists_finished {num : Int} {clients : Nat} {acts : List Act} {s : WorkThreadPool}
    (hrun : run step (init num clients) acts = some s) (hstop : s.stopCall ≠ .idle) :
    ∃ work t, (∀ a ∈ work, a.isWork = true) ∧ run step s work = some t ∧ t.Finished := by
  obtain ⟨work, t, hwork, hmore, hrest⟩ := rank_lowered.exists_rest s
  exact ⟨work, t, hwork, hmore, (stop_returns hrun hstop hwork hmore).2 hrest⟩

end WorkThreadPool

end EchoNet.ThreadPool
