import EchoNet.ThreadPool.Tasks
import Mathlib.Data.List.Induction

/-!
# The Accounts of the Pool

Tasks are taken in the order of their acceptance, and when `stop` and all calls of `submit` have
returned every task has had its calls.

Whoever calls `submit` gives the task a `run_`: one without is what `pop` returns at the end of a
stopped queue, so a worker that meets it leaves its loop.  What such tasks do to the others is
said as well.

## Main results

- `tasks_accounted_iff`: with any tasks, those with a `run_` have all had their calls exactly if
  none was accepted behind as many tasks without a `run_` as there are workers;
- `tasks_accounted`: hence all have, if every task has a `run_`.
-/

namespace EchoNet.ThreadPool

open EchoNet.Lib

/-! ## §1 Tasks without a `run_` -/

/-- The `function<bool>` test of the worker. -/
def Task.isEmpty (task : Task) : Bool := !task.run

/-- Every task with a `run_` has fewer than `n` tasks without one in front of it. -/
def FewBefore (n : Nat) (tasks : List Task) : Prop :=
  ∀ pre task, pre ++ [task] <+: tasks → task.run = true → pre.countP Task.isEmpty < n

section

variable {n : Nat} {tasks tasks' : List Task} {task : Task}

theorem fewBefore_nil (n : Nat) : FewBefore n [] := by
  intro pre task hpre
  simp at hpre

theorem fewBefore_concat :
    FewBefore n (tasks ++ [task]) ↔
      FewBefore n tasks ∧ (task.run = true → tasks.countP Task.isEmpty < n) := by
  constructor
  · intro h
    exact ⟨fun pre task' hpre => h pre task' (hpre.trans (List.prefix_append ..)),
      h tasks task List.prefix_rfl⟩
  · rintro ⟨htasks, htask⟩ pre task' hpre
    rcases List.prefix_concat_iff.mp hpre with heq | hpre
    · obtain ⟨rfl, htask'⟩ := List.append_inj' heq rfl
      obtain rfl := List.singleton_inj.mp htask'
      exact htask
    · exact htasks pre task' hpre

theorem FewBefore.append (h : FewBefore n tasks) (hempty : ∀ task ∈ tasks', task.run = false) :
    FewBefore n (tasks ++ tasks') := by
  induction tasks' using List.reverseRecOn with
  | nil => rwa [List.append_nil]
  | append_singleton tasks' task ih =>
    rw [← List.append_assoc, fewBefore_concat]
    refine ⟨ih fun task' hmem => hempty task' (List.mem_append_left _ hmem), fun hrun => ?_⟩
    have hfalse := hempty task (List.mem_append_right _ (List.mem_singleton_self task))
    rw [hfalse] at hrun
    cases hrun

end

namespace Thread

/-- A worker that has left its loop, or that will on account of a task without a `run_`. -/
def isGone : Thread → Bool
  | .exited => true
  | .popped task => task.isEmpty
  | .client _ | .popping | .waiting | .running _ _ | .completing _ _ => false

variable {thread : Thread} {calls : List Submit}

theorem isWorker_of_isGone (h : thread.isGone = true) : thread.isWorker = true := by
  cases thread <;> first | rfl | cases h

theorem ne_exited_of_calls (h : thread.calls = some calls) : thread ≠ .exited := by
  rintro rfl
  cases h

@[simp] theorem isWorker_setCalls (thread : Thread) (calls : List Submit) :
    (thread.setCalls calls).isWorker = thread.isWorker := by
  cases thread <;> rfl

@[simp] theorem isGone_setCalls (thread : Thread) (calls : List Submit) :
    (thread.setCalls calls).isGone = thread.isGone := by
  cases thread <;> rfl

@[simp] theorem isWorker_wake (thread : Thread) : thread.wake.isWorker = thread.isWorker := by
  cases thread <;> rfl

@[simp] theorem isGone_wake (thread : Thread) : thread.wake.isGone = thread.isGone := by
  cases thread <;> rfl

end Thread

namespace WorkThreadPool

/-! ## §2 The workers -/

/-- Each task without a `run_` costs a worker, and no worker leaves for another reason as long as
there is something in the queue or to come. -/
structure Staffed (s : WorkThreadPool) : Prop where
  workers : s.threads.countP Thread.isWorker = s.num
  taken_le : s.taken.countP Task.isEmpty ≤ s.threads.countP Thread.isGone
  gone_le : s.threads.countP Thread.isGone ≤ s.taken.countP Task.isEmpty ∨
    s.queue.stopped = true ∧ s.queue.queue = []
  served : FewBefore s.num s.taken
  joined : s.stopCall = .returned → ∀ thread ∈ s.threads, thread.isWorker = true →
    thread = .exited

theorem staffed_init (num : Int) (clients : Nat) : Staffed (init num clients) where
  workers := by simp [init, Thread.isWorker, List.countP_append, List.countP_replicate]
  taken_le := Nat.zero_le _
  gone_le := by
    left
    simp [init, Thread.isGone, List.countP_append, List.countP_replicate]
  served := fewBefore_nil _
  joined := nofun

section

variable {s t : WorkThreadPool} {i : Nat} {thread thread' : Thread}

theorem Staffed.workers_set (hs : s.Staffed) (h : s.threads[i]? = some thread)
    (hworker : thread'.isWorker = thread.isWorker) :
    (s.threads.set i thread').countP Thread.isWorker = s.num := by
  rw [countP_set_of_eq h hworker]
  exact hs.workers

/-- A thread goes on and nothing is taken. -/
theorem Staffed.move (hs : s.Staffed) (h : s.threads[i]? = some thread) (hne : thread ≠ .exited)
    (hthreads : t.threads = s.threads.set i thread')
    (hworker : thread'.isWorker = thread.isWorker) (hgone : thread'.isGone = thread.isGone)
    (hnum : t.num = s.num) (hstop : t.stopCall = s.stopCall) (htaken : t.taken = s.taken)
    (hqueue : s.queue.stopped = true → s.queue.queue = [] →
      t.queue.stopped = true ∧ t.queue.queue = []) : t.Staffed where
  workers := by
    rw [hthreads, hnum]
    exact hs.workers_set h hworker
  taken_le := by
    rw [hthreads, countP_set_of_eq h hgone, htaken]
    exact hs.taken_le
  gone_le := by
    rw [hthreads, countP_set_of_eq h hgone, htaken]
    exact hs.gone_le.imp_right fun hdone => hqueue hdone.1 hdone.2
  served := by
    rw [hnum, htaken]
    exact hs.served
  joined := by
    rw [hstop, hthreads]
    intro hreturned other hmem hother
    rcases List.mem_or_eq_of_mem_set hmem with hmem | rfl
    · exact hs.joined hreturned other hmem hother
    · rw [hworker] at hother
      exact absurd (hs.joined hreturned thread (List.mem_of_getElem? h) hother) hne

/-- A thread goes on in its calls of `submit`. -/
theorem Staffed.moveCalls {calls calls' : List Submit} (hs : s.Staffed)
    (h : s.threads[i]? = some thread) (hcalls : thread.calls = some calls)
    (hthreads : t.threads = s.threads.set i (thread.setCalls calls')) (hnum : t.num = s.num)
    (hstop : t.stopCall = s.stopCall) (htaken : t.taken = s.taken)
    (hqueue : s.queue.stopped = true → s.queue.queue = [] →
      t.queue.stopped = true ∧ t.queue.queue = []) : t.Staffed :=
  hs.move h (Thread.ne_exited_of_calls hcalls) hthreads (thread.isWorker_setCalls calls')
    (thread.isGone_setCalls calls') hnum hstop htaken hqueue

/-- While a worker is in `pop`, fewer tasks without a `run_` were taken than there are workers. -/
theorem Staffed.taken_lt (hs : s.Staffed) (h : s.threads[i]? = some .popping) :
    s.taken.countP Task.isEmpty < s.num := by
  have hset := countP_set_add h Thread.isGone .exited
  have hworkers : (s.threads.set i .exited).countP Thread.isWorker = s.num := hs.workers_set h rfl
  have hle : (s.threads.set i .exited).countP Thread.isGone ≤
      (s.threads.set i .exited).countP Thread.isWorker :=
    List.countP_mono_left fun _ _ => Thread.isWorker_of_isGone
  have htaken := hs.taken_le
  -- were this worker to leave now, there would be one more that is gone
  simp only [Thread.isGone, Bool.toNat_true, Bool.toNat_false] at hset
  omega

/-- The joins wait for a worker that is in `pop`. -/
theorem Staffed.not_returned (hs : s.Staffed) (h : s.threads[i]? = some .popping) :
    s.stopCall ≠ .returned := by
  intro hreturned
  cases hs.joined hreturned .popping (List.mem_of_getElem? h) rfl

/-- A worker takes a task. -/
theorem Staffed.take {task : Task} {rest : List Task} (hs : s.Staffed)
    (h : s.threads[i]? = some .popping) (hqueue : s.queue.queue = task :: rest)
    (hthreads : t.threads = s.threads.set i (.popped task)) (hnum : t.num = s.num)
    (hstop : t.stopCall = s.stopCall) (htaken : t.taken = s.taken ++ [task]) : t.Staffed := by
  have hgone := countP_set_add h Thread.isGone (.popped task)
  have hcount : t.taken.countP Task.isEmpty =
      s.taken.countP Task.isEmpty + task.isEmpty.toNat := by
    rw [htaken, List.countP_append, List.countP_singleton]
    cases task.isEmpty <;> rfl
  simp only [Thread.isGone, Bool.toNat_false] at hgone
  refine ⟨?_, ?_, ?_, ?_, ?_⟩
  · rw [hthreads, hnum]
    exact hs.workers_set h rfl
  · have hle := hs.taken_le
    rw [hthreads, hcount]
    omega
  -- the queue was not empty, so all that were gone had met such a task
  · have hle := hs.gone_le.resolve_right (by simp [hqueue])
    rw [hthreads, hcount]
    omega
  · rw [hnum, htaken, fewBefore_concat]
    exact ⟨hs.served, fun _ => hs.taken_lt h⟩
  · rw [hstop]
    intro hreturned
    exact absurd hreturned (hs.not_returned h)

/-- A worker leaves since the queue is stopped and empty. -/
theorem Staffed.exit (hs : s.Staffed) (h : s.threads[i]? = some .popping)
    (hqueue : s.queue.queue = []) (hstopped : s.queue.stopped = true) :
    (s.setThread i .exited).Staffed := by
  have hgone := countP_set_add h Thread.isGone .exited
  simp only [Thread.isGone, Bool.toNat_true, Bool.toNat_false] at hgone
  refine ⟨hs.workers_set h rfl, ?_, Or.inr ⟨hstopped, hqueue⟩, hs.served, ?_⟩
  · show s.taken.countP Task.isEmpty ≤ (s.threads.set i .exited).countP Thread.isGone
    have hle := hs.taken_le
    omega
  · intro hreturned
    exact absurd hreturned (hs.not_returned h)

/-- `queue_.stop()`. -/
theorem Staffed.stopQueue (hs : s.Staffed) :
    Staffed { s with
      stopCall := .joining, queue := s.queue.stop, threads := s.threads.map Thread.wake } := by
  have hcount : ∀ p : Thread → Bool, (∀ thread, p thread.wake = p thread) →
      (s.threads.map Thread.wake).countP p = s.threads.countP p := by
    intro p hp
    rw [List.countP_map]
    exact List.countP_congr fun thread _ => by rw [Function.comp_apply, hp]
  have hgone := hcount _ Thread.isGone_wake
  refine ⟨?_, ?_, ?_, hs.served, nofun⟩
  · exact (hcount _ Thread.isWorker_wake).trans hs.workers
  · exact le_of_le_of_eq hs.taken_le hgone.symm
  · exact hs.gone_le.imp (le_of_eq_of_le hgone) fun hdone => ⟨rfl, hdone.2⟩

end

theorem staffed_step {s t : WorkThreadPool} {a : Act} (hs : s.Staffed)
    (h : s.step a = some t) : t.Staffed := by
  have hkept : s.queue.stopped = true → s.queue.queue = [] →
      s.queue.stopped = true ∧ s.queue.queue = [] := And.intro
  have hquiet : t.log = s.log → t.taken = s.taken := by
    intro hlog
    rw [taken, taken, happened, happened, hlog]
  have hrecord : ∀ task event, t.log = s.log ++ [(task, event)] →
      t.taken = s.taken ++ if event = .taken then [task] else [] :=
    fun _ _ hlog => happened_concat hlog .taken
  have hother : ∀ task event, t.log = s.log ++ [(task, event)] → event ≠ .taken →
      t.taken = s.taken := by
    intro task event hlog hne
    rw [hrecord task event hlog, if_neg hne, List.append_nil]
  cases step_cases h with
  | submit hthread hcalls _ =>
    exact hs.moveCalls hthread hcalls rfl rfl rfl (hquiet rfl) hkept
  | accept hthread hcalls hrunning =>
    refine hs.moveCalls hthread hcalls rfl rfl rfl (hother _ _ rfl (by decide)) fun hstopped => ?_
    rw [hrunning] at hstopped
    cases hstopped
  | refuse hthread hcalls _ =>
    exact hs.moveCalls hthread hcalls rfl rfl rfl (hother _ _ rfl (by decide)) hkept
  -- the thread that notifies, then the one that it wakes
  | @notify i woken thread calls hthread hcalls hwake =>
    have hmoved : (s.setThread i (thread.setCalls calls)).Staffed :=
      hs.moveCalls hthread hcalls rfl rfl rfl rfl hkept
    cases woken with
    | none => exact hmoved
    | some j =>
      have hwaiting := getElem?_of_canWake hthread hcalls hwake (thread.setCalls calls)
      exact hmoved.move hwaiting (by simp) rfl rfl rfl rfl rfl rfl hkept
  | reject hthread hcalls _ =>
    exact hs.moveCalls hthread hcalls rfl rfl rfl (hother _ _ rfl (by decide)) hkept
  | rejectSilent hthread hcalls _ =>
    exact hs.moveCalls hthread hcalls rfl rfl rfl (hquiet rfl) hkept
  | rejectedDone hthread hcalls =>
    exact hs.moveCalls hthread hcalls rfl rfl rfl (hquiet rfl) hkept
  | take hthread hqueue => exact hs.take hthread hqueue rfl rfl rfl (hrecord _ _ rfl)
  | wait hthread _ _ => exact hs.move hthread (by simp) rfl rfl rfl rfl rfl (hquiet rfl) hkept
  | exit hthread hqueue hstopped => exact hs.exit hthread hqueue hstopped
  | spurious hthread => exact hs.move hthread (by simp) rfl rfl rfl rfl rfl (hquiet rfl) hkept
  | test hthread hrun =>
    exact hs.move hthread (by simp) rfl rfl (by simp [Thread.isGone, Task.isEmpty, hrun]) rfl rfl
      (hother _ _ rfl (by decide)) hkept
  | testEmpty hthread hrun =>
    exact hs.move hthread (by simp) rfl rfl (by simp [Thread.isGone, Task.isEmpty, hrun]) rfl rfl
      (hquiet rfl) hkept
  | ran hthread _ =>
    exact hs.move hthread (by simp) rfl rfl rfl rfl rfl (hother _ _ rfl (by decide)) hkept
  | ranSilent hthread _ => exact hs.move hthread (by simp) rfl rfl rfl rfl rfl (hquiet rfl) hkept
  | completed hthread => exact hs.move hthread (by simp) rfl rfl rfl rfl rfl (hquiet rfl) hkept
  | stop _ =>
    refine ⟨hs.workers, hs.taken_le, hs.gone_le, hs.served, fun hreturned => ?_⟩
    cases hreturned
  | stopped _ => exact hs
  | stopQueue _ => exact hs.stopQueue
  | join _ hexited => exact ⟨hs.workers, hs.taken_le, hs.gone_le, hs.served, fun _ => hexited⟩

theorem staffed_run {num : Int} {clients : Nat} {acts : List Act} {s : WorkThreadPool}
    (hrun : run step (init num clients) acts = some s) : s.Staffed :=
  run_invariant (fun _ _ _ hs h => staffed_step hs h) (staffed_init num clients) hrun

/-! ## §3 After the end -/

/-- `stop` has returned, and so have all calls of `submit`. -/
def Finished (s : WorkThreadPool) : Prop :=
  s.stopCall = .returned ∧ ∀ thread ∈ s.threads, ∀ calls ∈ thread.calls, calls = []

instance (s : WorkThreadPool) : Decidable s.Finished :=
  inferInstanceAs (Decidable (_ ∧ ∀ thread ∈ s.threads, ∀ calls ∈ thread.calls, calls = []))

/-- Every task with a `run_` has been accounted for. -/
def AllAccounted (s : WorkThreadPool) : Prop :=
  ∀ task ∈ s.submitted, task.run = true → Accounted task (eventsOf s.log task)

section

variable {s : WorkThreadPool}

/-- What is left is in the queue. -/
theorem Finished.live_eq (hfinished : s.Finished) (hs : s.Staffed) :
    s.live = s.queue.queue.map fun task => (task, [.accepted]) := by
  have hthreads : s.threads.flatMap Thread.live = [] := by
    rw [List.flatMap_eq_nil_iff]
    intro thread hmem
    cases hworker : thread.isWorker with
    | true =>
      rw [hs.joined hfinished.1 thread hmem hworker]
      rfl
    | false =>
      cases thread with
      | client calls =>
        rw [hfinished.2 _ hmem calls rfl]
        rfl
      | _ => cases hworker
  rw [live, liveIn, hthreads, List.append_nil]

/-- Every task with a `run_` is accounted for exactly if there is none in the queue. -/
theorem Finished.allAccounted_iff (hfinished : s.Finished) (hs : s.Staffed)
    (hbalanced : s.Balanced) : s.AllAccounted ↔ ∀ task ∈ s.queue.queue, task.run = false := by
  have hledger := hbalanced.ledger
  rw [hfinished.live_eq hs] at hledger
  constructor
  · intro haccounted task hmem
    have hlive : (task, [Event.accepted]) ∈ s.queue.queue.map fun task => (task, [.accepted]) :=
      List.mem_map.mpr ⟨task, hmem, rfl⟩
    -- it has been accepted, and nothing since
    have hevents : eventsOf s.log task = [.accepted] := hledger.events _ hlive
    by_contra hrun
    have hdone := haccounted task (hledger.live_entered _ hlive) (Bool.of_not_eq_false hrun)
    rw [hevents] at hdone
    rcases hdone with hdone | hdone <;> cases hdone
  · intro hqueue task hmem hrun
    refine hledger.done task hmem (fun hlive => ?_) hrun
    rw [List.map_map, List.mem_map] at hlive
    obtain ⟨task', hmem', rfl⟩ := hlive
    rw [Function.comp_apply, hqueue task' hmem'] at hrun
    cases hrun

/-- All workers have left, so nothing is in the queue unless every one of them met a task without
a `run_`. -/
theorem Finished.num_le (hfinished : s.Finished) (hs : s.Staffed) (hqueue : s.queue.queue ≠ []) :
    s.num ≤ s.taken.countP Task.isEmpty := by
  have hgone : s.threads.countP Thread.isGone = s.num := by
    rw [← hs.workers]
    refine List.countP_congr fun thread hmem => ⟨Thread.isWorker_of_isGone, fun hworker => ?_⟩
    rw [hs.joined hfinished.1 thread hmem hworker]
    rfl
  rw [← hgone]
  exact hs.gone_le.resolve_right fun hdone => hqueue hdone.2

theorem Finished.queue_iff (hfinished : s.Finished) (hs : s.Staffed) (horder : s.InOrder) :
    (∀ task ∈ s.queue.queue, task.run = false) ↔ FewBefore s.num s.accepted := by
  rw [horder]
  constructor
  · intro hempty
    exact hs.served.append hempty
  -- a task with a `run_` that is left has a task without one for every worker in front of it
  · intro hfew task hmem
    by_contra hrun
    obtain ⟨before, after, hqueue⟩ := List.append_of_mem hmem
    have hpre : s.taken ++ before ++ [task] <+: s.taken ++ s.queue.queue := by
      rw [hqueue]
      simp
    have hlt := hfew _ _ hpre (Bool.of_not_eq_false hrun)
    have hle := hfinished.num_le hs (List.ne_nil_of_mem hmem)
    rw [List.countP_append] at hlt
    omega

end

/-! ## §4 The accounts -/

/-- If the step has the queue accept a task with a `run_`, then fewer tasks without one were
accepted before than there are workers. -/
def KeepsWorker (s : WorkThreadPool) (a : Act) : Prop :=
  ∀ task ∈ s.offered a, task.run = true → s.queue.stopped = false →
    s.accepted.countP Task.isEmpty < s.num

instance (s : WorkThreadPool) (a : Act) : Decidable (s.KeepsWorker a) :=
  inferInstanceAs (Decidable (∀ task ∈ s.offered a, _))

theorem num_step {s t : WorkThreadPool} {a : Act} (h : s.step a = some t) : t.num = s.num := by
  cases step_cases h with
  | @notify _ woken _ _ _ _ _ => cases woken <;> rfl
  | _ => rfl

theorem fewBefore_step {s t : WorkThreadPool} {a : Act} (h : s.step a = some t) :
    FewBefore t.num t.accepted ↔ FewBefore s.num s.accepted ∧ s.KeepsWorker a := by
  rw [num_step h]
  cases queueStep_of_step h with
  | quiet hoffered _ haccepted _ =>
    rw [haccepted]
    refine (and_iff_left fun task hmem _ hrunning => ?_).symm
    rw [hoffered task hmem] at hrunning
    cases hrunning
  | accept hoffered hrunning _ haccepted _ =>
    rw [haccepted, fewBefore_concat]
    refine and_congr_right fun _ => ⟨fun hlt task hmem hrun _ => ?_, fun hkeeps hrun => ?_⟩
    · rw [hoffered, Option.mem_some_iff] at hmem
      exact hlt (hmem ▸ hrun)
    · exact hkeeps _ hoffered hrun hrunning
  | take hoffered _ haccepted _ =>
    rw [haccepted]
    refine (and_iff_left fun task hmem => ?_).symm
    rw [hoffered] at hmem
    cases hmem

theorem fewBefore_run {num : Int} {clients : Nat} {acts : List Act} {s : WorkThreadPool}
    (hrun : run step (init num clients) acts = some s) :
    FewBefore s.num s.accepted ↔ Meets step KeepsWorker (init num clients) acts := by
  have hinit : FewBefore (init num clients).num (init num clients).accepted := fewBefore_nil _
  rw [last_iff_meets (I := fun _ => True) (P := fun s => FewBefore s.num s.accepted)
    (fun _ _ _ _ _ => trivial) (fun _ _ _ _ h => fewBefore_step h) trivial hrun]
  exact and_iff_right hinit

/-- Tasks are taken in the order in which they were accepted; and when `stop` and all calls of
`submit` have returned, every task with a `run_` has been run and completed, or rejected and
completed, exactly if no such task was accepted behind as many tasks without a `run_` as there
are workers. -/
theorem tasks_accounted_iff {num : Int} {clients : Nat} {acts : List Act} {s : WorkThreadPool}
    (hrun : run step (init num clients) acts = some s) :
    s.taken <+: s.accepted ∧
      (s.Finished → (s.AllAccounted ↔ Meets step KeepsWorker (init num clients) acts)) := by
  have hstaffed := staffed_run hrun
  have horder := inOrder_run hrun
  refine ⟨⟨s.queue.queue, horder.symm⟩, fun hfinished => ?_⟩
  calc s.AllAccounted ↔ ∀ task ∈ s.queue.queue, task.run = false :=
        hfinished.allAccounted_iff hstaffed (balanced_run hrun)
    _ ↔ FewBefore s.num s.accepted := hfinished.queue_iff hstaffed horder
    _ ↔ Meets step KeepsWorker (init num clients) acts := fewBefore_run hrun

/-- The one worker takes the first task, which has no `run_`, for the end of the queue. -/
def emptyTaskFirst : List Act :=
  [.submit 1 false false, .tryPush 1, .notify 1 none, .submit 1 true true, .tryPush 1,
    .notify 1 none, .pop 0, .test 0, .stop, .stopQueue, .join]

theorem empty_task_strands :
    ∃ s, run step (init 1 1) emptyTaskFirst = some s ∧ s.Finished ∧ ¬ s.AllAccounted ∧
      s.queue.queue = [⟨1, true, true⟩] ∧ eventsOf s.log ⟨1, true, true⟩ = [.accepted] := by
  have hend : (run step (init 1 1) emptyTaskFirst).any (fun s => decide (s.Finished ∧
      ⟨1, true, true⟩ ∈ s.submitted ∧ s.queue.queue = [⟨1, true, true⟩] ∧
      eventsOf s.log ⟨1, true, true⟩ = [.accepted])) = true := by
    decide +kernel
  obtain ⟨s, hs, hend⟩ := exists_of_run_any hend
  obtain ⟨hfinished, hsubmitted, hqueue, hevents⟩ := of_decide_eq_true hend
  refine ⟨s, hs, hfinished, fun haccounted => ?_, hqueue, hevents⟩
  have hdone := haccounted _ hsubmitted rfl
  rw [hevents] at hdone
  rcases hdone with hdone | hdone <;> cases hdone

/-! ## §5 Tasks with a `run_` -/

/-- A task that is submitted has a `run_`. -/
def Act.HasRun : Act → Prop
  | .submit _ run _ => run = true
  | _ => True

instance (a : Act) : Decidable a.HasRun :=
  match a with
  | .submit _ run _ => inferInstanceAs (Decidable (run = true))
  | .tryPush _ | .notify _ _ | .reject _ | .rejectedDone _ _ | .pop _ | .spurious _ | .test _
  | .ran _ _ | .completed _ _ | .stop | .stopQueue | .join => isTrue trivial

theorem hasRun_step {s t : WorkThreadPool} {a : Act} (hs : ∀ task ∈ s.submitted, task.run = true)
    (ha : a.HasRun) (h : s.step a = some t) : ∀ task ∈ t.submitted, task.run = true := by
  cases step_cases h with
  | submit _ _ _ =>
    intro task hmem
    rcases List.mem_append.mp hmem with hmem | hmem
    · exact hs task hmem
    · rw [List.mem_singleton.mp hmem]
      exact ha
  | @notify _ woken _ _ _ _ _ => cases woken <;> exact hs
  | _ => exact hs

theorem hasRun_run {num : Int} {clients : Nat} {acts : List Act} {s : WorkThreadPool}
    (hruns : ∀ a ∈ acts, a.HasRun) (hrun : run step (init num clients) acts = some s) :
    ∀ task ∈ s.submitted, task.run = true := by
  have hmeets : Meets step (fun _ a => a.HasRun) (init num clients) acts :=
    meets_of_forall (fun a ha _ => hruns a ha) _
  have hinit : ∀ task ∈ (init num clients).submitted, task.run = true := by
    intro task hmem
    cases hmem
  exact run_invariant_of_meets (fun _ _ _ hs ha h => hasRun_step hs ha h) hinit hmeets hrun

/-- There is a worker. -/
theorem num_pos_run {num : Int} {clients : Nat} {acts : List Act} {s : WorkThreadPool}
    (hrun : run step (init num clients) acts = some s) : 0 < s.num := by
  have hinit : 0 < (init num clients).num := by
    simp only [init]
    split_ifs <;> omega
  refine run_invariant (P := fun s => 0 < s.num) (fun s a t hs h => ?_) hinit hrun
  rw [num_step h]
  exact hs

/-- What was accepted was submitted: something happened to it. -/
theorem Balanced.accepted_subset {s : WorkThreadPool} (hs : s.Balanced) :
    s.accepted ⊆ s.submitted := by
  intro task hmem
  by_contra hnot
  -- the log says nothing of a task that has not been submitted
  obtain ⟨⟨task', event⟩, hlog, heq⟩ := List.mem_filterMap.mp hmem
  split_ifs at heq
  obtain rfl : task' = task := Option.some.inj heq
  have hevents : event ∈ eventsOf s.log task' := mem_eventsOf.mpr hlog
  rw [hs.ledger.fresh task' hnot] at hevents
  cases hevents

/-- **The accounts of the pool.**  If every task has a `run_`, tasks are taken in the order in
which they were accepted, and when `stop` and all calls of `submit` have returned each has been
run and completed, or rejected and completed. -/
theorem tasks_accounted {num : Int} {clients : Nat} {acts : List Act} {s : WorkThreadPool}
    (hruns : ∀ a ∈ acts, a.HasRun) (hrun : run step (init num clients) acts = some s) :
    s.taken <+: s.accepted ∧
      (s.Finished → ∀ task ∈ s.submitted, Accounted task (eventsOf s.log task)) := by
  obtain ⟨horder, haccounted⟩ := tasks_accounted_iff hrun
  have hall := hasRun_run hruns hrun
  have hnone : s.accepted.countP Task.isEmpty = 0 := by
    rw [List.countP_eq_zero]
    intro task hmem
    simp [Task.isEmpty, hall task ((balanced_run hrun).accepted_subset hmem)]
  -- none costs a worker, and there is one
  have hfew : FewBefore s.num s.accepted := by
    intro pre task hpre _
    have hle : pre.countP Task.isEmpty ≤ s.accepted.countP Task.isEmpty :=
      ((List.prefix_append pre [task]).trans hpre).sublist.countP_le
    have hpos := num_pos_run hrun
    omega
  refine ⟨horder, fun hfinished task hmem => ?_⟩
  exact (haccounted hfinished).mpr ((fewBefore_run hrun).mp hfew) task hmem (hall task hmem)

/-- A task whose `onComplete_` submits two more, one before `stop` and one after it. -/
def submitsOnComplete : List Act :=
  [.pop 0, .submit 1 true true, .tryPush 1, .notify 1 (some 0), .pop 0, .test 0, .ran 0 .exception,
    .submit 0 true true, .tryPush 0, .notify 0 none, .stop, .stopQueue, .submit 0 true true,
    .tryPush 0, .reject 0, .rejectedDone 0 .exception, .completed 0 .returned, .pop 0, .test 0,
    .ran 0 .returned, .completed 0 .returned, .pop 0, .join]

theorem tasks_accounted_submitsOnComplete :
    ∃ s, run step (init 1 1) submitsOnComplete = some s ∧ s.Finished ∧
      s.taken = [⟨0, true, true⟩, ⟨1, true, true⟩] ∧
      s.submitted = [⟨0, true, true⟩, ⟨1, true, true⟩, ⟨2, true, true⟩] ∧
      s.taken <+: s.accepted ∧ ∀ task ∈ s.submitted, Accounted task (eventsOf s.log task) := by
  have hend : (run step (init 1 1) submitsOnComplete).any (fun s => decide (s.Finished ∧
      s.taken = [⟨0, true, true⟩, ⟨1, true, true⟩] ∧
      s.submitted = [⟨0, true, true⟩, ⟨1, true, true⟩, ⟨2, true, true⟩])) = true := by
    decide +kernel
  obtain ⟨s, hs, hend⟩ := exists_of_run_any hend
  obtain ⟨hfinished, htaken, hsubmitted⟩ := of_decide_eq_true hend
  obtain ⟨horder, haccounted⟩ := tasks_accounted (by decide) hs
  exact ⟨s, hs, hfinished, htaken, hsubmitted, horder, haccounted hfinished⟩

end WorkThreadPool

end EchoNet.ThreadPool
