import EchoNet.Lib.BatchQueue
import EchoNet.Reactor.EventLoop

/-!
# The Wakeup of an Event Loop

`EventLoop::runInLoop` from another thread pushes the callback under `mtx_` and then writes to the
eventfd, and `loop()`, when the eventfd is reported, reads it, swaps `task_queue_` under `mtx_` and
runs what it got.

- The critical sections of `mtx_` are one step each; between any two steps of the loop, others can
  take theirs.
- The eventfd is not blocking, and its counter ends at `2^64 - 2`: a write that finds it full has no
  effect, and nor has the read of a counter that is zero.
- A callback that calls `runInLoop` of its own loop runs its argument on the spot, as the handlers
  of the channels do, so neither shows in the queue.

## Main results

- `wakeup_kept`: a queue that is not empty has a wakeup on its way, and the callbacks are executed
  in the order in which they are pushed, each once;
- `drains`: a loop that waits with no call of `runInLoop` half done executes all of them.
-/

namespace EchoNet.Reactor

open EchoNet.Lib

/-! ## §1 The loop and its queue -/

variable {α : Type*}

/-- Where `loop()` is, with the rest of its batch of events and of the swapped callbacks. -/
inductive LoopPc (α : Type*) where
  | created
  /-- the test of `stop_` -/
  | top
  /-- in `epoll_wait` -/
  | polling
  | dispatching (events : List Event)
  /-- between the read of the eventfd and the swap -/
  | swapping (events : List Event)
  | running (tasks : List α) (events : List Event)
  | stopped

/-- The callbacks are of any type. -/
structure TaskLoop (α : Type*) where
  taskQueue : List α
  /-- the counter of `wakeup_fd_` -/
  counter : Nat
  /-- the calls of `runInLoop` between their push and their write -/
  posters : Nat
  /-- the calls of `stop` between setting `stop_` and their write -/
  stoppers : Nat
  stop : Bool
  loop : LoopPc α
  executed : List α

/-- The callbacks that the loop has swapped and not run. -/
def LoopPc.tasks : LoopPc α → List α
  | .running tasks _ => tasks
  | .created | .top | .polling | .dispatching _ | .swapping _ | .stopped => []

namespace TaskLoop

/-- `wakeUp`. -/
def wakeUp (s : TaskLoop α) : TaskLoop α :=
  { s with counter := if s.counter < 2 ^ 64 - 2 then s.counter + 1 else s.counter }

def init : TaskLoop α where
  taskQueue := []
  counter := 0
  posters := 0
  stoppers := 0
  stop := false
  loop := .created
  executed := []

inductive Act (α : Type*) where
  /-- `runInLoop` of another thread: the push, the write -/
  | post (cb : α)
  | wakeUp
  /-- `stop`: the flag, the write -/
  | stop
  | stopWakeUp
  /-- the loop: it starts, tests `stop_`, returns from `epoll_wait` -/
  | start
  | test
  | wait (events : List Event)
  | interrupted
  | waitFailed
  /-- the next event, or the end of the batch -/
  | next
  | swap
  /-- the next of the swapped callbacks, or their end -/
  | runTask
  deriving DecidableEq, Repr

/-- `epoll_wait` reports the eventfd as long as it can be read. -/
def reportable (s : TaskLoop α) : Event → Bool
  | .wakeup => 0 < s.counter
  | .channel _ _ => true

def step (s : TaskLoop α) : Act α → Option (TaskLoop α)
  | .post cb => some { s with taskQueue := s.taskQueue ++ [cb], posters := s.posters + 1 }
  | .wakeUp =>
    match s.posters with
    | 0 => none
    | n + 1 => some { s with posters := n }.wakeUp
  | .stop => some { s with stop := true, stoppers := s.stoppers + 1 }
  | .stopWakeUp =>
    match s.stoppers with
    | 0 => none
    | n + 1 => some { s with stoppers := n }.wakeUp
  | .start =>
    match s.loop with
    | .created => some { s with loop := .top }
    | _ => none
  | .test =>
    match s.loop with
    | .top => some { s with loop := if s.stop then .stopped else .polling }
    | _ => none
  -- `epoll_wait` has no timeout and reports each descriptor at most once
  | .wait events =>
    match s.loop with
    | .polling =>
      if events ≠ [] ∧ events.Nodup ∧ events.all s.reportable = true then
        some { s with loop := .dispatching events }
      else none
    | _ => none
  | .interrupted =>
    match s.loop with
    | .polling => some { s with loop := .top }
    | _ => none
  | .waitFailed =>
    match s.loop with
    | .polling => some { s with loop := .stopped }
    | _ => none
  | .next =>
    match s.loop with
    | .dispatching [] => some { s with loop := .top }
    | .dispatching (.wakeup :: rest) => some { s with loop := .swapping rest, counter := 0 }
    -- the handler of the channel runs and returns
    | .dispatching (.channel _ _ :: rest) => some { s with loop := .dispatching rest }
    | _ => none
  | .swap =>
    match s.loop with
    | .swapping rest => some { s with loop := .running s.taskQueue rest, taskQueue := [] }
    | _ => none
  | .runTask =>
    match s.loop with
    | .running [] rest => some { s with loop := .dispatching rest }
    | .running (cb :: tasks) rest =>
      some { s with loop := .running tasks rest, executed := s.executed ++ [cb] }
    | _ => none

/-! ## §2 Everything a step can do -/

/-- The steps, with their guards. -/
inductive Step (s : TaskLoop α) : Act α → TaskLoop α → Prop
  | post {cb : α} :
      Step s (.post cb) { s with taskQueue := s.taskQueue ++ [cb], posters := s.posters + 1 }
  | wakeUp {n : Nat} : s.posters = n + 1 →
      Step s .wakeUp { s with posters := n }.wakeUp
  | stop : Step s .stop { s with stop := true, stoppers := s.stoppers + 1 }
  | stopWakeUp {n : Nat} : s.stoppers = n + 1 →
      Step s .stopWakeUp { s with stoppers := n }.wakeUp
  | start : s.loop = .created → Step s .start { s with loop := .top }
  | leave : s.loop = .top → s.stop = true → Step s .test { s with loop := .stopped }
  | poll : s.loop = .top → s.stop = false → Step s .test { s with loop := .polling }
  | wait {events : List Event} : s.loop = .polling → events ≠ [] →
      events.all s.reportable = true →
      Step s (.wait events) { s with loop := .dispatching events }
  | interrupted : s.loop = .polling → Step s .interrupted { s with loop := .top }
  | waitFailed : s.loop = .polling → Step s .waitFailed { s with loop := .stopped }
  | done : s.loop = .dispatching [] → Step s .next { s with loop := .top }
  | read {rest : List Event} : s.loop = .dispatching (.wakeup :: rest) →
      Step s .next { s with loop := .swapping rest, counter := 0 }
  | handle {fd : Int} {reported : Reg} {rest : List Event} :
      s.loop = .dispatching (.channel fd reported :: rest) →
      Step s .next { s with loop := .dispatching rest }
  | swap {rest : List Event} : s.loop = .swapping rest →
      Step s .swap { s with loop := .running s.taskQueue rest, taskQueue := [] }
  | endTasks {rest : List Event} : s.loop = .running [] rest →
      Step s .runTask { s with loop := .dispatching rest }
  | runTask {cb : α} {tasks : List α} {rest : List Event} : s.loop = .running (cb :: tasks) rest →
      Step s .runTask { s with loop := .running tasks rest, executed := s.executed ++ [cb] }

/-- Inversion of `step`. -/
theorem step_cases {s t : TaskLoop α} {a : Act α} (h : s.step a = some t) : Step s a t := by
  cases a with
  | post cb =>
    cases h
    exact .post
  | wakeUp =>
    simp only [step] at h
    split at h <;> cases h
    exact .wakeUp ‹_›
  | stop =>
    cases h
    exact .stop
  | stopWakeUp =>
    simp only [step] at h
    split at h <;> cases h
    exact .stopWakeUp ‹_›
  | start =>
    simp only [step] at h
    split at h <;> cases h
    exact .start ‹_›
  | test =>
    simp only [step] at h
    split at h
    · cases h
      split_ifs with hstop
      · exact .leave ‹_› hstop
      · exact .poll ‹_› (Bool.not_eq_true _ ▸ hstop)
    · cases h
  | wait events =>
    simp only [step] at h
    split at h
    · split_ifs at h with hevents
      cases h
      exact .wait ‹_› hevents.1 hevents.2.2
    · cases h
  | interrupted =>
    simp only [step] at h
    split at h <;> cases h
    exact .interrupted ‹_›
  | waitFailed =>
    simp only [step] at h
    split at h <;> cases h
    exact .waitFailed ‹_›
  | next =>
    simp only [step] at h
    split at h <;> cases h
    · exact .done ‹_›
    · exact .read ‹_›
    · exact .handle ‹_›
  | swap =>
    simp only [step] at h
    split at h <;> cases h
    exact .swap ‹_›
  | runTask =>
    simp only [step] at h
    split at h <;> cases h
    · exact .endTasks ‹_›
    · exact .runTask ‹_›

/-! ## §3 The queue -/

/-- The callback that a step pushes. -/
def Act.posted : Act α → Option α
  | .post cb => some cb
  | _ => none

def tasks (s : TaskLoop α) : BatchQueue α := ⟨s.taskQueue, s.loop.tasks, s.executed⟩

/-- **Refinement**: the loop is a batch queue of its callbacks. -/
theorem refines_batchQueue : BatchQueue.Refines (step (α := α)) tasks Act.posted := by
  intro s a t h
  cases step_cases h with
  | post => exact ⟨[.push _], rfl, rfl⟩
  | swap hloop => exact ⟨[.swap], by simp [run, BatchQueue.step, tasks, LoopPc.tasks, hloop], rfl⟩
  | runTask hloop =>
    exact ⟨[.serve], by simp [run, BatchQueue.step, tasks, LoopPc.tasks, hloop], rfl⟩
  | wakeUp _ => exact BatchQueue.exists_run_of_eq rfl rfl
  | stop => exact BatchQueue.exists_run_of_eq rfl rfl
  | stopWakeUp _ => exact BatchQueue.exists_run_of_eq rfl rfl
  | start hloop => exact BatchQueue.exists_run_of_eq (by simp [tasks, LoopPc.tasks, hloop]) rfl
  | leave hloop _ => exact BatchQueue.exists_run_of_eq (by simp [tasks, LoopPc.tasks, hloop]) rfl
  | poll hloop _ => exact BatchQueue.exists_run_of_eq (by simp [tasks, LoopPc.tasks, hloop]) rfl
  | wait hloop _ _ => exact BatchQueue.exists_run_of_eq (by simp [tasks, LoopPc.tasks, hloop]) rfl
  | interrupted hloop => exact BatchQueue.exists_run_of_eq (by simp [tasks, LoopPc.tasks, hloop]) rfl
  | waitFailed hloop => exact BatchQueue.exists_run_of_eq (by simp [tasks, LoopPc.tasks, hloop]) rfl
  | done hloop => exact BatchQueue.exists_run_of_eq (by simp [tasks, LoopPc.tasks, hloop]) rfl
  | read hloop => exact BatchQueue.exists_run_of_eq (by simp [tasks, LoopPc.tasks, hloop]) rfl
  | handle hloop => exact BatchQueue.exists_run_of_eq (by simp [tasks, LoopPc.tasks, hloop]) rfl
  | endTasks hloop => exact BatchQueue.exists_run_of_eq (by simp [tasks, LoopPc.tasks, hloop]) rfl

/-- Every callback that was pushed is executed, swapped or in the queue, in this order. -/
theorem accounted {acts : List (Act α)} {s : TaskLoop α} (hrun : run step init acts = some s) :
    s.executed ++ s.loop.tasks ++ s.taskQueue = acts.filterMap Act.posted :=
  refines_batchQueue.contents hrun

/-! ## §4 The wakeup -/

/-- A queue that is not empty has a wakeup on its way. -/
def Awaited (s : TaskLoop α) : Prop :=
  s.taskQueue ≠ [] → 0 < s.counter ∨ 0 < s.posters ∨ ∃ events, s.loop = .swapping events

theorem awaited_init : Awaited (init : TaskLoop α) := fun h => absurd rfl h

theorem wakeUp_counter_pos (s : TaskLoop α) : 0 < s.wakeUp.counter := by
  unfold wakeUp
  simp only
  split_ifs <;> omega

/-- A step of the loop that neither reads the eventfd nor swaps the queue. -/
theorem Awaited.of_frame {s t : TaskLoop α} (hs : Awaited s)
    (hloop : ∀ events, s.loop ≠ .swapping events) (hqueue : t.taskQueue = s.taskQueue)
    (hcounter : t.counter = s.counter) (hposters : t.posters = s.posters) : Awaited t := by
  intro hne
  rw [hqueue] at hne
  rw [hcounter, hposters]
  rcases hs hne with hpos | hpos | ⟨events, heq⟩
  · exact Or.inl hpos
  · exact Or.inr (Or.inl hpos)
  · exact absurd heq (hloop events)

theorem awaited_step {s t : TaskLoop α} {a : Act α} (hs : Awaited s) (h : s.step a = some t) :
    Awaited t := by
  cases step_cases h with
  | post => exact fun _ => Or.inr (Or.inl (Nat.succ_pos _))
  | wakeUp _ => exact fun _ => Or.inl (wakeUp_counter_pos _)
  | stopWakeUp _ => exact fun _ => Or.inl (wakeUp_counter_pos _)
  | stop => exact hs
  -- the counter is read, and the swap comes next
  | read _ => exact fun _ => Or.inr (Or.inr ⟨_, rfl⟩)
  | swap _ => exact fun hne => absurd rfl hne
  | start hloop => exact hs.of_frame (by simp [hloop]) rfl rfl rfl
  | leave hloop _ => exact hs.of_frame (by simp [hloop]) rfl rfl rfl
  | poll hloop _ => exact hs.of_frame (by simp [hloop]) rfl rfl rfl
  | wait hloop _ _ => exact hs.of_frame (by simp [hloop]) rfl rfl rfl
  | interrupted hloop => exact hs.of_frame (by simp [hloop]) rfl rfl rfl
  | waitFailed hloop => exact hs.of_frame (by simp [hloop]) rfl rfl rfl
  | done hloop => exact hs.of_frame (by simp [hloop]) rfl rfl rfl
  | handle hloop => exact hs.of_frame (by simp [hloop]) rfl rfl rfl
  | endTasks hloop => exact hs.of_frame (by simp [hloop]) rfl rfl rfl
  | runTask hloop => exact hs.of_frame (by simp [hloop]) rfl rfl rfl

theorem awaited_run {acts : List (Act α)} {s : TaskLoop α} (hrun : run step init acts = some s) :
    Awaited s :=
  run_invariant (fun _ _ _ hs h => awaited_step hs h) awaited_init hrun

/-- In every reachable state a queue that is not empty has a wakeup on its way, and the executed
callbacks are the first of those that were pushed, in the order of their pushes, with the others
still to be executed. -/
theorem wakeup_kept {acts : List (Act α)} {s : TaskLoop α} (hrun : run step init acts = some s) :
    (s.taskQueue ≠ [] →
      0 < s.counter ∨ 0 < s.posters ∨ ∃ events, s.loop = .swapping events) ∧
      s.executed <+: acts.filterMap Act.posted ∧
      s.executed ++ s.loop.tasks ++ s.taskQueue = acts.filterMap Act.posted :=
  ⟨awaited_run hrun, refines_batchQueue.served_prefix rfl hrun, accounted hrun⟩

/-- A callback is pushed between the read of the eventfd and the swap, and its write comes after
it has been swapped. -/
theorem wakeup_kept_between : ∃ s : TaskLoop Nat,
    run step init [.start, .test, .post 1, .wakeUp, .wait [.wakeup], .next, .post 2, .swap,
      .runTask, .runTask, .wakeUp, .post 3] = some s ∧
    s.executed = [1, 2] ∧
    (s.taskQueue ≠ [] →
      0 < s.counter ∨ 0 < s.posters ∨ ∃ events, s.loop = .swapping events) ∧
    s.executed <+: [1, 2, 3] ∧ s.executed ++ s.loop.tasks ++ s.taskQueue = [1, 2, 3] := by
  have hany : (run step (init : TaskLoop Nat) [.start, .test, .post 1, .wakeUp, .wait [.wakeup],
      .next, .post 2, .swap, .runTask, .runTask, .wakeUp, .post 3]).any
      (fun s => decide (s.executed = [1, 2])) = true := by decide +kernel
  obtain ⟨s, hs, hexecuted⟩ := exists_of_run_any hany
  exact ⟨s, hs, decide_eq_true_iff.mp hexecuted, wakeup_kept hs⟩

/-! ## §5 Progress -/

/-- The steps of the loop. -/
def Act.ofLoop : Act α → Bool
  | .post _ | .wakeUp | .stop | .stopWakeUp => false
  | _ => true

/-- The loop over the swapped callbacks. -/
theorem run_tasks {s : TaskLoop α} {cbs : List α} {rest : List Event}
    (hloop : s.loop = .running cbs rest) :
    run step s (List.replicate cbs.length .runTask) =
      some { s with loop := .running [] rest, executed := s.executed ++ cbs } := by
  induction cbs generalizing s with
  | nil => simp [← hloop]
  | cons cb cbs ih =>
    have hstep : s.step .runTask =
        some { s with loop := .running cbs rest, executed := s.executed ++ [cb] } := by
      simp [step, hloop]
    rw [List.length_cons, List.replicate_succ, run_cons, hstep, Option.bind_some, ih rfl]
    simp

/-- A loop that waits, with no call of `runInLoop` half done, wakes up and executes every callback
that was pushed, by its own steps. -/
theorem drains {acts : List (Act α)} {s : TaskLoop α} (hrun : run step init acts = some s)
    (hloop : s.loop = .polling) (hposters : s.posters = 0) :
    ∃ more t, (∀ a ∈ more, a.ofLoop = true) ∧ run step s more = some t ∧
      t.executed = acts.filterMap Act.posted := by
  have haccounted := accounted hrun
  rw [hloop, LoopPc.tasks, List.append_nil] at haccounted
  by_cases hqueue : s.taskQueue = []
  · rw [hqueue, List.append_nil] at haccounted
    exact ⟨[], s, nofun, rfl, haccounted⟩
  · have hcounter : 0 < s.counter := by
      rcases awaited_run hrun hqueue with hpos | hpos | ⟨events, heq⟩
      · exact hpos
      · omega
      · rw [hloop] at heq
        cases heq
    have hswapped : run step s [.wait [.wakeup], .next, .swap] =
        some { s with taskQueue := [], counter := 0, loop := .running s.taskQueue [] } := by
      simp [run, step, hloop, reportable, hcounter]
    refine ⟨_, _, ?_, run_append.mpr ⟨_, hswapped, run_tasks rfl⟩, haccounted⟩
    intro a ha
    rcases List.mem_append.mp ha with ha | ha
    · simp only [List.mem_cons, List.not_mem_nil, or_false] at ha
      rcases ha with rfl | rfl | rfl <;> rfl
    · rw [List.eq_of_mem_replicate ha]
      rfl

end TaskLoop

end EchoNet.Reactor
