import EchoNet.Lib.Machine
import Mathlib.Tactic.SplitIfs

/-!
# The Worker Pool

`WorkThreadPool` with its `TaskQueue`: any number of threads call `submit`, the workers pop tasks
and call their two functions, and `stop` stops the queue and joins the workers.

- What holds `mtx_` is one step; a worker that finds the predicate of `cv_.wait` false blocks in
  the same step, since everything that changes the predicate holds `mtx_`.  `notify_one` of
  `tryPush` comes after the section, in a step of its own.
- A function of a task can return or throw, and as long as it runs its thread can call `submit`;
  so a thread has a stack of calls, and a rejected task is completed on top of it.
- An empty `std::function` is `false`.  The number of a task and the log are history.
- The call of `stop` that sets `stop_` is the one that is followed; another one returns at once.
-/

namespace EchoNet.ThreadPool

open EchoNet.Lib

/-! ## §1 The queue -/

/-- `struct Task`: which of its two functions are there, and the number of its `submit`. -/
structure Task where
  number : Nat
  run : Bool
  onComplete : Bool
  deriving DecidableEq, Repr

/-- `class TaskQueue`. -/
structure TaskQueue where
  queue : List Task
  stopped : Bool
  deriving DecidableEq, Repr

namespace TaskQueue

/-- `tryPush`. -/
def tryPush (q : TaskQueue) (task : Task) : Bool × TaskQueue :=
  if q.stopped then (false, q) else (true, { q with queue := q.queue ++ [task] })

/-- How `pop` goes on under its lock: it waits, returns `{}`, or returns a task. -/
inductive Pop where
  | wait
  | empty
  | task (task : Task)
  deriving DecidableEq, Repr

/-- `pop`. -/
def pop (q : TaskQueue) : Pop × TaskQueue :=
  if q.stopped || !q.queue.isEmpty then
    if q.stopped && q.queue.isEmpty then (.empty, q)
    else
      match q.queue with
      | [] => (.wait, q)
      | front :: rest => (.task front, { q with queue := rest })
  else (.wait, q)

/-- `stop`. -/
def stop (q : TaskQueue) : TaskQueue := { q with stopped := true }

theorem tryPush_of_stopped {q : TaskQueue} (h : q.stopped = true) (task : Task) :
    q.tryPush task = (false, q) := if_pos h

theorem tryPush_of_not_stopped {q : TaskQueue} (h : q.stopped = false) (task : Task) :
    q.tryPush task = (true, { q with queue := q.queue ++ [task] }) :=
  if_neg (Bool.eq_false_iff.mp h)

theorem pop_cons {q : TaskQueue} {front : Task} {rest : List Task} (h : q.queue = front :: rest) :
    q.pop = (.task front, { q with queue := rest }) := by
  simp [pop, h]

theorem pop_nil {q : TaskQueue} (h : q.queue = []) :
    q.pop = (if q.stopped then .empty else .wait, q) := by
  cases hs : q.stopped <;> simp [pop, h, hs]

end TaskQueue

/-! ## §2 The threads -/

/-- A call of `submit`: before `tryPush`, before its `notify_one`, after a rejection, and in
`onComplete_` of the rejected task. -/
inductive Submit where
  | pushing (task : Task)
  | notifying
  | rejected (task : Task)
  | completing (task : Task)
  deriving DecidableEq, Repr

/-- A thread that is no worker, or where a worker is: in `pop`, before the lock or blocked; with
the task that it popped; in `run_` and in `onComplete_`; at its end.  The calls of `submit` that a
thread is in are a stack. -/
inductive Thread where
  | client (calls : List Submit)
  | popping
  | waiting
  | popped (task : Task)
  | running (task : Task) (calls : List Submit)
  | completing (task : Task) (calls : List Submit)
  | exited
  deriving DecidableEq, Repr

namespace Thread

def isWorker : Thread → Bool
  | .client _ => false
  | _ => true

/-- The calls of a thread that can call `submit`. -/
def calls : Thread → Option (List Submit)
  | .client calls | .running _ calls | .completing _ calls => some calls
  | .popping | .waiting | .popped _ | .exited => none

def setCalls : Thread → List Submit → Thread
  | .client _, calls => .client calls
  | .running task _, calls => .running task calls
  | .completing task _, calls => .completing task calls
  | thread, _ => thread

/-- `notify`, or a spurious wakeup. -/
def wake : Thread → Thread
  | .waiting => .popping
  | thread => thread

end Thread

/-- The thread is in a function that can call `submit`. -/
def canSubmit : List Submit → Bool
  | [] | .completing _ :: _ => true
  | .pushing _ :: _ | .notifying :: _ | .rejected _ :: _ => false

/-- The call of `stop`: it has set `stop_`, it is in the joins, it is over. -/
inductive StopPc where
  | idle
  | stopping
  | joining
  | returned
  deriving DecidableEq, Repr

/-- How a function of a task ends. -/
inductive Outcome where
  | returned
  | exception
  | unknownException
  deriving DecidableEq, Repr

/-- What happens to a task. -/
inductive Event where
  | accepted
  | rejected
  | taken
  | run
  | onComplete
  deriving DecidableEq, Repr

structure WorkThreadPool where
  num : Nat
  queue : TaskQueue
  threads : List Thread
  stopCall : StopPc
  submitted : List Task
  log : List (Task × Event)
  deriving DecidableEq, Repr

namespace WorkThreadPool

/-- After the constructor, with some other threads. -/
def init (num : Int) (clients : Nat) : WorkThreadPool where
  num := if num > 0 then num.toNat else 4
  queue := ⟨[], false⟩
  threads := List.replicate (if num > 0 then num.toNat else 4) .popping ++
    List.replicate clients (.client [])
  stopCall := .idle
  submitted := []
  log := []

def setThread (s : WorkThreadPool) (i : Nat) (thread : Thread) : WorkThreadPool :=
  { s with threads := s.threads.set i thread }

def record (s : WorkThreadPool) (task : Task) (event : Event) : WorkThreadPool :=
  { s with log := s.log ++ [(task, event)] }

inductive Act where
  /-- `submit`: the call, `tryPush`, its `notify_one` with the thread that it wakes, the end or
  the completion of a rejected task, the end of the completion -/
  | submit (i : Nat) (run onComplete : Bool)
  | tryPush (i : Nat)
  | notify (i : Nat) (woken : Option Nat)
  | reject (i : Nat)
  | rejectedDone (i : Nat) (outcome : Outcome)
  /-- `worker`: `pop`, a spurious wakeup, the test of `run_`, its end, the end of
  `onComplete_` -/
  | pop (i : Nat)
  | spurious (i : Nat)
  | test (i : Nat)
  | ran (i : Nat) (outcome : Outcome)
  | completed (i : Nat) (outcome : Outcome)
  /-- `stop`: the CAS, `queue_.stop()`, the end of the joins -/
  | stop
  | stopQueue
  | join
  deriving DecidableEq, Repr

/-- Whom a `notify_one` wakes. -/
def canWake (s : WorkThreadPool) : Option Nat → Bool
  | some j => s.threads[j]? = some .waiting
  | none => !s.threads.contains .waiting

/-- `notify_one`. -/
def notifyOne (s : WorkThreadPool) : Option Nat → WorkThreadPool
  | some j => s.setThread j .popping
  | none => s

def step (s : WorkThreadPool) : Act → Option WorkThreadPool
  | .submit i run onComplete =>
    match s.threads[i]? with
    | some thread =>
      match thread.calls with
      | some calls =>
        if canSubmit calls then
          let task : Task := ⟨s.submitted.length, run, onComplete⟩
          some { s.setThread i (thread.setCalls (.pushing task :: calls)) with
            submitted := s.submitted ++ [task] }
        else none
      | none => none
    | none => none
  | .tryPush i =>
    match s.threads[i]? with
    | some thread =>
      match thread.calls with
      | some (.pushing task :: calls) =>
        match s.queue.tryPush task with
        | (true, queue) =>
          some { (s.setThread i (thread.setCalls (.notifying :: calls))).record task .accepted with
            queue := queue }
        | (false, queue) =>
          some { (s.setThread i (thread.setCalls (.rejected task :: calls))).record task .rejected
            with queue := queue }
      | _ => none
    | none => none
  | .notify i woken =>
    match s.threads[i]? with
    | some thread =>
      match thread.calls with
      | some (.notifying :: calls) =>
        if s.canWake woken then
          some ((s.setThread i (thread.setCalls calls)).notifyOne woken)
        else none
      | _ => none
    | none => none
  | .reject i =>
    match s.threads[i]? with
    | some thread =>
      match thread.calls with
      | some (.rejected task :: calls) =>
        if task.onComplete then
          some ((s.setThread i (thread.setCalls (.completing task :: calls))).record task
            .onComplete)
        else some (s.setThread i (thread.setCalls calls))
      | _ => none
    | none => none
  -- what `onComplete_` throws is caught
  | .rejectedDone i _ =>
    match s.threads[i]? with
    | some thread =>
      match thread.calls with
      | some (.completing _ :: calls) => some (s.setThread i (thread.setCalls calls))
      | _ => none
    | none => none
  | .pop i =>
    match s.threads[i]? with
    | some .popping =>
      match s.queue.pop with
      | (.wait, _) => some (s.setThread i .waiting)
      -- an empty task has no `run_`
      | (.empty, _) => some (s.setThread i .exited)
      | (.task task, queue) =>
        some { (s.setThread i (.popped task)).record task .taken with queue := queue }
    | _ => none
  | .spurious i =>
    match s.threads[i]? with
    | some .waiting => some (s.setThread i .popping)
    | _ => none
  | .test i =>
    match s.threads[i]? with
    | some (.popped task) =>
      if task.run then some ((s.setThread i (.running task [])).record task .run)
      else some (s.setThread i .exited)
    | _ => none
  | .ran i _ =>
    match s.threads[i]? with
    | some (.running task []) =>
      if task.onComplete then
        some ((s.setThread i (.completing task [])).record task .onComplete)
      else some (s.setThread i .popping)
    | _ => none
  | .completed i _ =>
    match s.threads[i]? with
    | some (.completing _ []) => some (s.setThread i .popping)
    | _ => none
  | .stop =>
    match s.stopCall with
    | .idle => some { s with stopCall := .stopping }
    | _ => some s
  | .stopQueue =>
    match s.stopCall with
    | .stopping =>
      some { s with
        stopCall := .joining, queue := s.queue.stop, threads := s.threads.map Thread.wake }
    | _ => none
  | .join =>
    match s.stopCall with
    | .joining =>
      if s.threads.all (fun thread => !thread.isWorker || thread = .exited) then
        some { s with stopCall := .returned }
      else none
    | _ => none

/-! ## §3 Everything a step can do -/

/-- The steps, with their guards. -/
inductive Step (s : WorkThreadPool) : Act → WorkThreadPool → Prop
  | submit {i : Nat} {run onComplete : Bool} {thread : Thread} {calls : List Submit} :
      s.threads[i]? = some thread → thread.calls = some calls → canSubmit calls = true →
      Step s (.submit i run onComplete)
        { s.setThread i
            (thread.setCalls (.pushing ⟨s.submitted.length, run, onComplete⟩ :: calls)) with
          submitted := s.submitted ++ [⟨s.submitted.length, run, onComplete⟩] }
  | accept {i : Nat} {thread : Thread} {task : Task} {calls : List Submit} :
      s.threads[i]? = some thread → thread.calls = some (.pushing task :: calls) →
      s.queue.stopped = false →
      Step s (.tryPush i)
        { (s.setThread i (thread.setCalls (.notifying :: calls))).record task .accepted with
          queue := { s.queue with queue := s.queue.queue ++ [task] } }
  | refuse {i : Nat} {thread : Thread} {task : Task} {calls : List Submit} :
      s.threads[i]? = some thread → thread.calls = some (.pushing task :: calls) →
      s.queue.stopped = true →
      Step s (.tryPush i)
        ((s.setThread i (thread.setCalls (.rejected task :: calls))).record task .rejected)
  | notify {i : Nat} {woken : Option Nat} {thread : Thread} {calls : List Submit} :
      s.threads[i]? = some thread → thread.calls = some (.notifying :: calls) →
      s.canWake woken = true →
      Step s (.notify i woken) ((s.setThread i (thread.setCalls calls)).notifyOne woken)
  | reject {i : Nat} {thread : Thread} {task : Task} {calls : List Submit} :
      s.threads[i]? = some thread → thread.calls = some (.rejected task :: calls) →
      task.onComplete = true →
      Step s (.reject i)
        ((s.setThread i (thread.setCalls (.completing task :: calls))).record task .onComplete)
  | rejectSilent {i : Nat} {thread : Thread} {task : Task} {calls : List Submit} :
      s.threads[i]? = some thread → thread.calls = some (.rejected task :: calls) →
      task.onComplete = false →
      Step s (.reject i) (s.setThread i (thread.setCalls calls))
  | rejectedDone {i : Nat} {outcome : Outcome} {thread : Thread} {task : Task}
      {calls : List Submit} :
      s.threads[i]? = some thread → thread.calls = some (.completing task :: calls) →
      Step s (.rejectedDone i outcome) (s.setThread i (thread.setCalls calls))
  | take {i : Nat} {task : Task} {rest : List Task} : s.threads[i]? = some .popping →
      s.queue.queue = task :: rest →
      Step s (.pop i) { (s.setThread i (.popped task)).record task .taken with
        queue := { s.queue with queue := rest } }
  | wait {i : Nat} : s.threads[i]? = some .popping → s.queue.queue = [] →
      s.queue.stopped = false → Step s (.pop i) (s.setThread i .waiting)
  | exit {i : Nat} : s.threads[i]? = some .popping → s.queue.queue = [] →
      s.queue.stopped = true → Step s (.pop i) (s.setThread i .exited)
  | spurious {i : Nat} : s.threads[i]? = some .waiting →
      Step s (.spurious i) (s.setThread i .popping)
  | test {i : Nat} {task : Task} : s.threads[i]? = some (.popped task) → task.run = true →
      Step s (.test i) ((s.setThread i (.running task [])).record task .run)
  | testEmpty {i : Nat} {task : Task} : s.threads[i]? = some (.popped task) →
      task.run = false → Step s (.test i) (s.setThread i .exited)
  | ran {i : Nat} {outcome : Outcome} {task : Task} :
      s.threads[i]? = some (.running task []) → task.onComplete = true →
      Step s (.ran i outcome) ((s.setThread i (.completing task [])).record task .onComplete)
  | ranSilent {i : Nat} {outcome : Outcome} {task : Task} :
      s.threads[i]? = some (.running task []) → task.onComplete = false →
      Step s (.ran i outcome) (s.setThread i .popping)
  | completed {i : Nat} {outcome : Outcome} {task : Task} :
      s.threads[i]? = some (.completing task []) →
      Step s (.completed i outcome) (s.setThread i .popping)
  | stop : s.stopCall = .idle → Step s .stop { s with stopCall := .stopping }
  | stopped : s.stopCall ≠ .idle → Step s .stop s
  | stopQueue : s.stopCall = .stopping →
      Step s .stopQueue { s with
        stopCall := .joining, queue := s.queue.stop, threads := s.threads.map Thread.wake }
  | join : s.stopCall = .joining →
      (∀ thread ∈ s.threads, thread.isWorker = true → thread = .exited) →
      Step s .join { s with stopCall := .returned }

/-- Inversion of `step`. -/
theorem step_cases {s t : WorkThreadPool} {a : Act} (h : s.step a = some t) : Step s a t := by
  cases a with
  | submit i run onComplete =>
    simp only [step] at h
    split at h
    · split at h
      · split_ifs at h with hcan
        cases h
        exact .submit ‹_› ‹_› hcan
      · cases h
    · cases h
  | tryPush i =>
    simp only [step] at h
    split at h
    · split at h
      · rename_i hthread _ _ _ hcalls
        cases hstopped : s.queue.stopped with
        | false =>
          rw [TaskQueue.tryPush_of_not_stopped hstopped] at h
          cases h
          exact .accept hthread hcalls hstopped
        | true =>
          rw [TaskQueue.tryPush_of_stopped hstopped] at h
          cases h
          exact .refuse hthread hcalls hstopped
      · cases h
    · cases h
  | notify i woken =>
    simp only [step] at h
    split at h
    · split at h
      · split_ifs at h with hwake
        cases h
        exact .notify ‹_› ‹_› hwake
      · cases h
    · cases h
  | reject i =>
    simp only [step] at h
    split at h
    · split at h
      · split_ifs at h with hcomplete
        · cases h
          exact .reject ‹_› ‹_› hcomplete
        · cases h
          exact .rejectSilent ‹_› ‹_› (Bool.not_eq_true _ ▸ hcomplete)
      · cases h
    · cases h
  | rejectedDone i outcome =>
    simp only [step] at h
    split at h
    · split at h <;> cases h
      exact .rejectedDone ‹_› ‹_›
    · cases h
  | pop i =>
    simp only [step] at h
    split at h
    · rename_i hthread
      cases hqueue : s.queue.queue with
      | cons task rest =>
        rw [TaskQueue.pop_cons hqueue] at h
        cases h
        exact .take hthread hqueue
      | nil =>
        rw [TaskQueue.pop_nil hqueue] at h
        cases hstopped : s.queue.stopped with
        | false =>
          simp only [hstopped, Bool.false_eq_true, if_false] at h
          cases h
          exact .wait hthread hqueue hstopped
        | true =>
          simp only [hstopped, if_true] at h
          cases h
          exact .exit hthread hqueue hstopped
    · cases h
  | spurious i =>
    simp only [step] at h
    split at h <;> cases h
    exact .spurious ‹_›
  | test i =>
    simp only [step] at h
    split at h
    · split_ifs at h with hrun
      · cases h
        exact .test ‹_› hrun
      · cases h
        exact .testEmpty ‹_› (Bool.not_eq_true _ ▸ hrun)
    · cases h
  | ran i outcome =>
    simp only [step] at h
    split at h
    · split_ifs at h with hcomplete
      · cases h
        exact .ran ‹_› hcomplete
      · cases h
        exact .ranSilent ‹_› (Bool.not_eq_true _ ▸ hcomplete)
    · cases h
  | completed i outcome =>
    simp only [step] at h
    split at h <;> cases h
    exact .completed ‹_›
  | stop =>
    simp only [step] at h
    split at h
    · cases h
      exact .stop ‹_›
    · cases h
      exact .stopped ‹_›
  | stopQueue =>
    simp only [step] at h
    split at h <;> cases h
    exact .stopQueue ‹_›
  | join =>
    simp only [step] at h
    split at h
    · split_ifs at h with hexited
      cases h
      refine .join ‹_› fun thread hmem hworker => ?_
      have hthread := List.all_eq_true.mp hexited thread hmem
      simpa [hworker] using hthread
    · cases h

end WorkThreadPool

end EchoNet.ThreadPool
