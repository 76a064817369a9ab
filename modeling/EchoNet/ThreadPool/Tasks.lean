import EchoNet.Lib.Ledger
import EchoNet.Lib.Places
import EchoNet.ThreadPool.WorkThreadPool

/-!
# What Becomes of a Task

Every task that is submitted is accepted or rejected, and the pool owes it the calls of its
functions.

- `balanced_run`: every task is in one place at most, with the events of this place behind it,
  and a task with a `run_` that has left the pool has had all that it was owed;
- `inOrder_run`: the queue has what was accepted and is not taken yet, in the order of the
  acceptance.
-/

namespace EchoNet.ThreadPool

open EchoNet.Lib

/-! ## §1 What a task is owed -/

/-- The call of `onComplete_`, if there is one. -/
def Task.completion (task : Task) : List Event := if task.onComplete then [.onComplete] else []

theorem Task.completion_pos {task : Task} (h : task.onComplete = true) :
    task.completion = [.onComplete] := if_pos h

theorem Task.completion_neg {task : Task} (h : task.onComplete = false) : task.completion = [] :=
  if_neg (Bool.eq_false_iff.mp h)

/-- All that happens to a task: it is accepted, taken, run and completed, or it is rejected and
completed. -/
def Accounted (task : Task) (events : List Event) : Prop :=
  events = [.accepted, .taken, .run] ++ task.completion ∨ events = [.rejected] ++ task.completion

namespace Submit

/-- The task of a call, with what has happened to it. -/
def live : Submit → List (Task × List Event)
  | .pushing task => [(task, [])]
  | .notifying => []
  | .rejected task => [(task, [.rejected])]
  | .completing task => [(task, [.rejected] ++ task.completion)]

end Submit

namespace Thread

/-- The task of a worker, with what has happened to it. -/
def own : Thread → List (Task × List Event)
  | .client _ | .popping | .waiting | .exited => []
  | .popped task => [(task, [.accepted, .taken])]
  | .running task _ => [(task, [.accepted, .taken, .run])]
  | .completing task _ => [(task, [.accepted, .taken, .run] ++ task.completion)]

/-- The tasks that a thread holds. -/
def live (thread : Thread) : List (Task × List Event) :=
  (thread.calls.getD []).flatMap Submit.live ++ thread.own

variable {thread : Thread} {calls : List Submit}

@[simp] theorem own_setCalls (thread : Thread) (calls : List Submit) :
    (thread.setCalls calls).own = thread.own := by
  cases thread <;> rfl

theorem calls_setCalls (h : thread.calls = some calls) (calls' : List Submit) :
    (thread.setCalls calls').calls = some calls' := by
  cases thread <;> first | rfl | cases h

theorem live_of_calls (h : thread.calls = some calls) :
    thread.live = calls.flatMap Submit.live ++ thread.own := by
  rw [live, h]
  rfl

theorem live_setCalls (h : thread.calls = some calls) (calls' : List Submit) :
    (thread.setCalls calls').live = calls'.flatMap Submit.live ++ thread.own := by
  rw [live_of_calls (calls_setCalls h calls'), own_setCalls]

@[simp] theorem live_wake (thread : Thread) : thread.wake.live = thread.live := by
  cases thread <;> rfl

end Thread

namespace WorkThreadPool

/-- The tasks that are in the queue and in the hands of the threads. -/
def liveIn (queue : List Task) (threads : List Thread) : List (Task × List Event) :=
  queue.map (fun task => (task, [.accepted])) ++ threads.flatMap Thread.live

def live (s : WorkThreadPool) : List (Task × List Event) := liveIn s.queue.queue s.threads

section

variable {threads : List Thread} {i : Nat} {thread : Thread}

theorem liveIn_perm (queue : List Task) (h : threads[i]? = some thread) :
    (liveIn queue threads).Perm (thread.live ++ liveIn queue (threads.eraseIdx i)) :=
  ((flatMap_perm_of_getElem? h Thread.live).append_left _).trans
    (List.perm_append_comm_assoc ..)

theorem liveIn_set (queue : List Task) (h : threads[i]? = some thread) (thread' : Thread) :
    (liveIn queue (threads.set i thread')).Perm
      (thread'.live ++ liveIn queue (threads.eraseIdx i)) :=
  ((flatMap_set_perm h Thread.live thread').append_left _).trans
    (List.perm_append_comm_assoc ..)

theorem liveIn_push (queue : List Task) (task : Task) (threads : List Thread) :
    (liveIn (queue ++ [task]) threads).Perm ((task, [.accepted]) :: liveIn queue threads) := by
  simp [liveIn, List.perm_middle]

end

/-! ## §2 The ledger of the pool -/

/-- The submitted tasks are numbered, and their ledger is right. -/
structure Balanced (s : WorkThreadPool) : Prop where
  numbers : ∀ task ∈ s.submitted, task.number < s.submitted.length
  ledger : Ledger (fun task events => task.run = true → Accounted task events)
    s.submitted s.live s.log

theorem balanced_init (num : Int) (clients : Nat) : Balanced (init num clients) := by
  have hlive : (init num clients).live = [] := by
    simp [live, liveIn, init, Thread.live, Thread.calls, Thread.own]
  refine ⟨nofun, ?_⟩
  rw [hlive]
  exact Ledger.empty

section

variable {s : WorkThreadPool} {i : Nat} {thread thread' : Thread} {task : Task}
  {events : List Event} {event : Event} {rest : List (Task × List Event)}

/-- A thread goes on with the same tasks. -/
theorem Balanced.move (hs : s.Balanced) (h : s.threads[i]? = some thread)
    (hlive : thread'.live = thread.live) : (s.setThread i thread').Balanced := by
  refine ⟨hs.numbers, hs.ledger.perm ?_⟩
  have hset := liveIn_set s.queue.queue h thread'
  rw [hlive] at hset
  exact hset.trans (liveIn_perm _ h).symm

/-- Something happens to a task in the hands of a thread. -/
theorem Balanced.advance (hs : s.Balanced) (h : s.threads[i]? = some thread)
    (hlive : thread.live = (task, events) :: rest)
    (hlive' : thread'.live = (task, events ++ [event]) :: rest) :
    ((s.setThread i thread').record task event).Balanced := by
  have hperm := liveIn_perm s.queue.queue h
  have hset := liveIn_set s.queue.queue h thread'
  rw [hlive] at hperm
  rw [hlive'] at hset
  exact ⟨hs.numbers, hs.ledger.advance hperm hset⟩

/-- A thread lets go of a task. -/
theorem Balanced.leave (hs : s.Balanced) (h : s.threads[i]? = some thread)
    (hlive : thread.live = (task, events) :: rest) (hlive' : thread'.live = rest)
    (hdone : task.run = true → Accounted task events) : (s.setThread i thread').Balanced := by
  have hperm := liveIn_perm s.queue.queue h
  have hset := liveIn_set s.queue.queue h thread'
  rw [hlive] at hperm
  rw [hlive'] at hset
  exact ⟨hs.numbers, hs.ledger.leave hperm hset hdone⟩

/-- A thread submits a task. -/
theorem Balanced.enter (hs : s.Balanced) (h : s.threads[i]? = some thread)
    (hnumber : task.number = s.submitted.length)
    (hlive : thread'.live = (task, []) :: thread.live) :
    Balanced { s.setThread i thread' with submitted := s.submitted ++ [task] } := by
  have hperm := liveIn_perm s.queue.queue h
  have hset := liveIn_set s.queue.queue h thread'
  rw [hlive] at hset
  refine ⟨fun task' htask => ?_, hs.ledger.enter (fun hmem => ?_) ?_⟩
  · rw [List.length_append, List.length_singleton]
    rcases List.mem_append.mp htask with htask | htask
    · exact Nat.lt_succ_of_lt (hs.numbers task' htask)
    · rw [List.mem_singleton.mp htask, hnumber]
      exact Nat.lt_succ_self _
  · exact absurd (hs.numbers task hmem) (by omega)
  · exact hset.trans (hperm.symm.cons _)

/-- A task goes into the queue. -/
theorem Balanced.push (hs : s.Balanced) (h : s.threads[i]? = some thread)
    (hlive : thread.live = (task, []) :: rest) (hlive' : thread'.live = rest) :
    Balanced { (s.setThread i thread').record task .accepted with
      queue := { s.queue with queue := s.queue.queue ++ [task] } } := by
  have hperm := liveIn_perm s.queue.queue h
  have hset := liveIn_set (s.queue.queue ++ [task]) h thread'
  rw [hlive] at hperm
  rw [hlive'] at hset
  refine ⟨hs.numbers, hs.ledger.advance hperm (hset.trans ?_)⟩
  exact ((liveIn_push _ task _).append_left rest).trans List.perm_middle

/-- A worker takes the first task of the queue. -/
theorem Balanced.take {queue : List Task} (hs : s.Balanced)
    (h : s.threads[i]? = some .popping) (hqueue : s.queue.queue = task :: queue) :
    Balanced { (s.setThread i (.popped task)).record task .taken with
      queue := { s.queue with queue := queue } } := by
  have hperm := liveIn_perm queue h
  have hset := liveIn_set queue h (.popped task)
  have hlive : s.live.Perm ((task, [.accepted]) :: liveIn queue (s.threads.eraseIdx i)) := by
    rw [live, hqueue]
    exact hperm.cons _
  exact ⟨hs.numbers, hs.ledger.advance hlive hset⟩

end

/-- The thread that a `notify_one` wakes is not the one that notifies. -/
theorem getElem?_of_canWake {s : WorkThreadPool} {i j : Nat} {thread : Thread}
    {calls : List Submit} (h : s.threads[i]? = some thread) (hcalls : thread.calls = some calls)
    (hwake : s.canWake (some j) = true) (thread' : Thread) :
    (s.setThread i thread').threads[j]? = some .waiting := by
  have hj : s.threads[j]? = some .waiting := of_decide_eq_true hwake
  have hne : i ≠ j := by
    rintro rfl
    rw [hj, Option.some.injEq] at h
    rw [← h] at hcalls
    cases hcalls
  rw [setThread, List.getElem?_set_ne hne]
  exact hj

theorem balanced_step {s t : WorkThreadPool} {a : Act} (hs : s.Balanced)
    (h : s.step a = some t) : t.Balanced := by
  cases step_cases h with
  | submit hthread hcalls _ =>
    refine hs.enter hthread rfl ?_
    rw [Thread.live_setCalls hcalls, Thread.live_of_calls hcalls]
    rfl
  | accept hthread hcalls _ =>
    exact hs.push hthread (Thread.live_of_calls hcalls) (Thread.live_setCalls hcalls _)
  | refuse hthread hcalls _ =>
    exact hs.advance hthread (Thread.live_of_calls hcalls) (Thread.live_setCalls hcalls _)
  | @notify i woken thread calls hthread hcalls hwake =>
    have hmoved : (s.setThread i (thread.setCalls calls)).Balanced := by
      refine hs.move hthread ?_
      rw [Thread.live_setCalls hcalls, Thread.live_of_calls hcalls]
      rfl
    cases woken with
    | none => exact hmoved
    | some j => exact hmoved.move (getElem?_of_canWake hthread hcalls hwake _) rfl
  | reject hthread hcalls hcomplete =>
    refine hs.advance hthread (Thread.live_of_calls hcalls) ?_
    rw [Thread.live_setCalls hcalls, List.flatMap_cons, Submit.live, Task.completion_pos hcomplete]
    rfl
  | rejectSilent hthread hcalls hsilent =>
    refine hs.leave hthread (Thread.live_of_calls hcalls) (Thread.live_setCalls hcalls _) ?_
    exact fun _ => Or.inr (by rw [Task.completion_neg hsilent]; rfl)
  | rejectedDone hthread hcalls =>
    refine hs.leave hthread (Thread.live_of_calls hcalls) (Thread.live_setCalls hcalls _) ?_
    exact fun _ => Or.inr rfl
  | take hthread hqueue => exact hs.take hthread hqueue
  | wait hthread _ _ => exact hs.move hthread rfl
  | exit hthread _ _ => exact hs.move hthread rfl
  | spurious hthread => exact hs.move hthread rfl
  | test hthread _ => exact hs.advance hthread rfl rfl
  | testEmpty hthread hrun =>
    exact hs.leave hthread rfl rfl fun h => absurd h (by simp [hrun])
  | ran hthread hcomplete =>
    refine hs.advance hthread rfl ?_
    rw [Thread.live, Thread.own, Task.completion_pos hcomplete]
    rfl
  | ranSilent hthread hsilent =>
    exact hs.leave hthread rfl rfl fun _ => Or.inl (by rw [Task.completion_neg hsilent]; rfl)
  | completed hthread => exact hs.leave hthread rfl rfl fun _ => Or.inl rfl
  | stop _ => exact ⟨hs.numbers, hs.ledger⟩
  | stopped _ => exact hs
  | stopQueue _ =>
    refine ⟨hs.numbers, ?_⟩
    show Ledger _ s.submitted (liveIn s.queue.queue (s.threads.map Thread.wake)) s.log
    rw [liveIn, List.flatMap_map]
    simp only [Thread.live_wake]
    exact hs.ledger
  | join _ _ => exact ⟨hs.numbers, hs.ledger⟩

theorem balanced_run {num : Int} {clients : Nat} {acts : List Act} {s : WorkThreadPool}
    (hrun : run step (init num clients) acts = some s) : s.Balanced :=
  run_invariant (fun _ _ _ hs h => balanced_step hs h) (balanced_init num clients) hrun

/-! ## §3 The order of the queue -/

/-- The tasks that something has happened to, in the order in which it has. -/
def happened (s : WorkThreadPool) (event : Event) : List Task :=
  s.log.filterMap fun e => if e.2 = event then some e.1 else none

/-- The tasks that `tryPush` has queued, and those that `pop` has returned. -/
def accepted (s : WorkThreadPool) : List Task := s.happened .accepted

def taken (s : WorkThreadPool) : List Task := s.happened .taken

theorem happened_concat {s t : WorkThreadPool} {task : Task} {event : Event}
    (h : t.log = s.log ++ [(task, event)]) (event' : Event) :
    t.happened event' = s.happened event' ++ if event = event' then [task] else [] := by
  rw [happened, h, List.filterMap_append, ← happened]
  by_cases heq : event = event' <;> simp [heq]

theorem notifyOne_log (s : WorkThreadPool) (woken : Option Nat) :
    (s.notifyOne woken).log = s.log := by
  cases woken <;> rfl

theorem notifyOne_queue (s : WorkThreadPool) (woken : Option Nat) :
    (s.notifyOne woken).queue = s.queue := by
  cases woken <;> rfl

/-- The task that a step offers to the queue. -/
def offered (s : WorkThreadPool) : Act → Option Task
  | .tryPush i =>
    match (s.threads[i]?).bind Thread.calls with
    | some (.pushing task :: _) => some task
    | _ => none
  | _ => none

/-- What a step does to the queue: nothing, or it accepts a task, or it takes one. -/
inductive QueueStep (s : WorkThreadPool) (a : Act) (t : WorkThreadPool) : Prop
  | quiet : (∀ task ∈ s.offered a, s.queue.stopped = true) → t.queue.queue = s.queue.queue →
      t.accepted = s.accepted → t.taken = s.taken → QueueStep s a t
  | accept {task : Task} : s.offered a = some task → s.queue.stopped = false →
      t.queue.queue = s.queue.queue ++ [task] → t.accepted = s.accepted ++ [task] →
      t.taken = s.taken → QueueStep s a t
  | take {task : Task} : s.offered a = none → s.queue.queue = task :: t.queue.queue →
      t.accepted = s.accepted → t.taken = s.taken ++ [task] → QueueStep s a t

/-- Inversion of `step` for the queue. -/
theorem queueStep_of_step {s t : WorkThreadPool} {a : Act} (h : s.step a = some t) :
    QueueStep s a t := by
  -- steps that record neither event, and offer nothing
  have hquiet : s.offered a = none → t.queue.queue = s.queue.queue → t.log = s.log →
      QueueStep s a t := by
    intro hoffered hqueue hlog
    refine .quiet (by simp [hoffered]) hqueue ?_ ?_
    · rw [accepted, accepted, happened, happened, hlog]
    · rw [taken, taken, happened, happened, hlog]
  -- steps that record something else
  have hrecord : ∀ {task : Task} {event : Event}, t.log = s.log ++ [(task, event)] →
      event ≠ .accepted → event ≠ .taken → (∀ task ∈ s.offered a, s.queue.stopped = true) →
      t.queue.queue = s.queue.queue → QueueStep s a t := by
    intro task event hlog haccepted htaken hoffered hqueue
    refine .quiet hoffered hqueue ?_ ?_
    · rw [accepted, happened_concat hlog, if_neg haccepted, List.append_nil, ← accepted]
    · rw [taken, happened_concat hlog, if_neg htaken, List.append_nil, ← taken]
  have hconcat : ∀ task event, t.log = s.log ++ [(task, event)] → ∀ event',
      t.happened event' = s.happened event' ++ if event = event' then [task] else [] :=
    fun _ _ hlog => happened_concat hlog
  cases step_cases h with
  | submit _ _ _ => exact hquiet rfl rfl rfl
  | @accept i thread task calls hthread hcalls hrunning =>
    have hoffered : s.offered (.tryPush i) = some task := by
      rw [offered, hthread, Option.bind_some, hcalls]
    have hhappened := hconcat task .accepted rfl
    exact .accept hoffered hrunning rfl (hhappened .accepted)
      ((hhappened .taken).trans (List.append_nil _))
  | refuse _ _ hstopped =>
    exact hrecord rfl (by decide) (by decide) (fun _ _ => hstopped) rfl
  | notify _ _ _ =>
    exact hquiet rfl (congrArg TaskQueue.queue (notifyOne_queue ..)) (notifyOne_log ..)
  | reject _ _ _ => exact hrecord rfl (by decide) (by decide) nofun rfl
  | @take i task rest _ hqueue =>
    have hhappened := hconcat task .taken rfl
    exact .take rfl hqueue ((hhappened .accepted).trans (List.append_nil _)) (hhappened .taken)
  | test _ _ => exact hrecord rfl (by decide) (by decide) nofun rfl
  | ran _ _ => exact hrecord rfl (by decide) (by decide) nofun rfl
  | rejectSilent _ _ _ => exact hquiet rfl rfl rfl
  | rejectedDone _ _ => exact hquiet rfl rfl rfl
  | wait _ _ _ => exact hquiet rfl rfl rfl
  | exit _ _ _ => exact hquiet rfl rfl rfl
  | spurious _ => exact hquiet rfl rfl rfl
  | testEmpty _ _ => exact hquiet rfl rfl rfl
  | ranSilent _ _ => exact hquiet rfl rfl rfl
  | completed _ => exact hquiet rfl rfl rfl
  | stop _ => exact hquiet rfl rfl rfl
  | stopped _ => exact hquiet rfl rfl rfl
  | stopQueue _ => exact hquiet rfl rfl rfl
  | join _ _ => exact hquiet rfl rfl rfl

/-- The queue has what was accepted and is not taken yet. -/
def InOrder (s : WorkThreadPool) : Prop := s.accepted = s.taken ++ s.queue.queue

theorem inOrder_step {s t : WorkThreadPool} {a : Act} (hs : s.InOrder) (h : s.step a = some t) :
    t.InOrder := by
  unfold InOrder at hs ⊢
  cases queueStep_of_step h with
  | quiet _ hqueue haccepted htaken => rw [haccepted, htaken, hqueue, hs]
  | accept _ _ hqueue haccepted htaken =>
    rw [haccepted, htaken, hqueue, hs, List.append_assoc]
  | take _ hqueue haccepted htaken =>
    rw [haccepted, htaken, hs, hqueue, List.append_assoc, List.singleton_append]

theorem inOrder_run {num : Int} {clients : Nat} {acts : List Act} {s : WorkThreadPool}
    (hrun : run step (init num clients) acts = some s) : s.InOrder := by
  have hinit : InOrder (init num clients) := rfl
  exact run_invariant (fun _ _ _ hs h => inOrder_step hs h) hinit hrun

end WorkThreadPool

end EchoNet.ThreadPool
