import EchoNet.Net.HalfClose

/-!
# FIFO Scheduling of a Connection's Tasks

The next task is chosen under `taskMutex_`, by `enqueueTask` on the loop thread or by
`onTaskComplete` wherever a task completes, and handed to the pool after the mutex has been
released.  A task on that way is in nobody's queue: `World.nextUp`.

`OrderInv` keeps the three places in order.  While connected the submitted tasks, the one on
its way and `pendingTasks_` are exactly the enqueued tasks; closing drops the last of the three
and never what has left it.

## Main result

`fifo_scheduling`: order, mutual exclusion and the unbroken chain, in every state of every
interleaving.
-/

namespace EchoNet.Net.PoolMachine

open EchoNet.Lib EchoNet.Protocol

open World

/-! ## §1 Between the queue and the pool -/

/-- The message a completed task has taken out of `pendingTasks_` and not yet submitted. -/
def Task.next (t : Task) : List MyMessage :=
  match t.pc with
  | .submitNext next => [next]
  | _ => []

/-- The task has been submitted and has not been completed. -/
def Task.isOutstanding (t : Task) : Bool :=
  match t.pc with
  | .submitNext _ => false
  | _ => true

/-- The task chosen under `taskMutex_` that is about to be submitted. -/
def World.nextUp (w : World) : List MyMessage :=
  w.loop.submits ++ w.tasks.flatMap Task.next

/-- The tasks submitted and not yet completed: those with the pool and a rejected one whose
completion the loop thread is about to run. -/
def World.outstanding (w : World) : Nat :=
  w.tasks.countP Task.isOutstanding + if w.loop = .completing then 1 else 0

/-- Where the enqueued tasks are, in the order in which they were enqueued. -/
structure OrderInv (w : World) : Prop where
  kept : w.conn.state = .connected →
    w.log.submitted ++ w.nextUp ++ w.conn.pendingTasks = w.log.enqueued
  order : w.log.submitted ++ w.nextUp <+: w.log.enqueued

theorem OrderInv.init (fd : Int) (stream : Bytes) : OrderInv (World.init fd stream) := by
  constructor <;> simp [World.init, Connection.create, World.nextUp]

/-! ## §2 One step -/

/-- What has been submitted or is about to be, in order. -/
private def submission (w : World) : List MyMessage := w.log.submitted ++ w.nextUp

/-- A step that only moves the chosen task along. -/
private theorem OrderInv.congr {w w' : World} (hi : OrderInv w)
    (hstate : w'.conn.state = .connected → w.conn.state = .connected)
    (hpending : w'.conn.state = .connected → w'.conn.pendingTasks = w.conn.pendingTasks)
    (henqueued : w'.log.enqueued = w.log.enqueued)
    (hsubmission : submission w' = submission w) : OrderInv w' := by
  unfold submission at hsubmission
  constructor
  · intro hc
    rw [hsubmission, hpending hc, henqueued]
    exact hi.kept (hstate hc)
  · rw [hsubmission, henqueued]
    exact hi.order

/-- A step that takes the chosen task out of `pendingTasks_`, or puts a task in. -/
private theorem OrderInv.of_kept {w : World}
    (h : w.log.submitted ++ w.nextUp ++ w.conn.pendingTasks = w.log.enqueued) : OrderInv w := by
  refine ⟨fun _ => h, ?_⟩
  rw [← h]
  exact List.prefix_append _ _

theorem OrderInv.step {w w' : World} {a : Act} (ht : TaskInv w) (hcl : CloseInv w)
    (hi : OrderInv w) (h : Step w a w') : OrderInv w' := by
  cases h with
  -- a send callback at most closes an overflown connection
  | runSend origin response rest hl hq =>
    obtain ⟨n, out, queue, wr, acc, pc, he, hpc⟩ :=
      runSend_frame { w with taskQueue := rest } origin response
    rw [he]
    refine hi.congr id (fun _ => rfl) rfl ?_
    obtain ⟨-, rfl⟩ | ⟨-, rfl | rfl⟩ := hpc <;> simp [submission, World.nextUp, hl]
  | inlineSend response hl =>
    obtain ⟨n, out, queue, wr, acc, pc, he, hpc⟩ := runSend_frame { w with
      conn := { w.conn with pendingSendCallbacks := w.conn.pendingSendCallbacks + 1 }
      log := { w.log with passed := w.log.passed ++ [(none, response)] } } none response
    rw [he]
    refine hi.congr id (fun _ => rfl) rfl ?_
    obtain ⟨-, rfl⟩ | ⟨hc, hpc⟩ := hpc
    · rfl
    · have hidle := hl.resolve_right (fun hne => hne hc)
      obtain rfl | rfl := hpc <;> simp [submission, World.nextUp, hidle]
  | removed ret fd hl =>
    -- `removeConnection` touches the loop's tables only
    obtain ⟨afd, st, r, wr, ch, co, he, hst⟩ := removeConnection_eq w fd
    rw [he]
    exact hi.congr hst (fun _ => rfl) rfl (by simp [submission, World.nextUp, hl])
  -- the loop thread enqueues: behind the queue, or straight through it
  | enqueueBehind msg hl hr =>
    have hkept := hi.kept (ht.scheduling (by simp [hl]))
    refine .of_kept ?_
    simpa [World.nextUp, hl, ← List.append_assoc] using hkept
  | enqueueFirst msg next rest hl hr hq =>
    have hkept := hi.kept (ht.scheduling (by simp [hl]))
    -- `taskRunning_` is false, so nothing is with the pool or on its way
    have htasks : w.tasks = [] := by
      have htok := ht.token
      simpa [hl, hr] using htok
    refine .of_kept ?_
    show w.log.submitted ++ ([next] ++ w.tasks.flatMap Task.next) ++ rest = w.log.enqueued ++ [msg]
    rw [← hkept]
    simp [World.nextUp, hl, htasks, hq]
  | submitAccepted msg hl hp =>
    have htasks : w.tasks = [] := ht.tasks_eq_nil (by simp [hl])
    exact hi.congr id (fun _ => rfl) rfl (by simp [submission, World.nextUp, hl, htasks, Task.next])
  | submitRejected msg hl hp =>
    exact hi.congr id (fun _ => rfl) rfl (by simp [submission, World.nextUp, hl])
  -- a completion takes the front of the queue, on the loop thread or on a worker
  | completeNext next rest hl hc hq =>
    have hkept := hi.kept hc
    have htasks : w.tasks = [] := ht.tasks_eq_nil (by simp [hl])
    refine .of_kept ?_
    simpa [World.nextUp, hl, hq, htasks] using hkept
  | completeFinalize hl hc hp => exact absurd (ht.scheduling (by simp [hl])) hc
  | completeClosed hl hc hp => exact absurd (ht.scheduling (by simp [hl])) hc
  | closeCas ret hl hc =>
    exact hi.congr (by simp) (by simp) rfl (by simp [submission, World.nextUp, hl])
  | taskNext i t next rest hti hpc hc hq =>
    have hsubmits := LoopPc.submits_of_token (ht.token_eq_zero hti)
    obtain ⟨htasks, rfl⟩ := ht.singleton hti
    have hkept := hi.kept hc
    refine .of_kept ?_
    simpa [World.nextUp, htasks, Task.next, hpc, hq, hsubmits] using hkept
  -- a worker submits what it has chosen, whether the pool takes it or not
  | nextAccepted i t next hti hpc hp =>
    have hsubmits := LoopPc.submits_of_token (ht.token_eq_zero hti)
    obtain ⟨htasks, rfl⟩ := ht.singleton hti
    refine hi.congr id (fun _ => rfl) rfl ?_
    simp [submission, World.nextUp, htasks, Task.next, hpc, hsubmits]
  | nextRejected i t next hti hpc hp =>
    have hsubmits := LoopPc.submits_of_token (ht.token_eq_zero hti)
    obtain ⟨htasks, rfl⟩ := ht.singleton hti
    refine hi.congr id (fun _ => rfl) rfl ?_
    simp [submission, World.nextUp, htasks, Task.next, hpc, hsubmits]
  -- the connection has closed: its queue may go
  | taskFinalize i t hti hpc hc hp =>
    obtain ⟨htasks, rfl⟩ := ht.singleton hti
    exact hi.congr id (fun hc' => absurd hc' hc) rfl
      (by simp [submission, World.nextUp, htasks, Task.next, hpc])
  | taskClosed i t hti hpc hc hp =>
    obtain ⟨htasks, rfl⟩ := ht.singleton hti
    exact hi.congr id (fun hc' => absurd hc' hc) rfl
      (by simp [submission, World.nextUp, htasks, Task.next, hpc])
  | closeTasks ret hl =>
    have hclosing := hcl.closing (by simp [hl])
    exact hi.congr id (fun hc => absurd hc hclosing) rfl (by simp [submission, World.nextUp, hl])
  -- the rest of a task's life leaves the queue alone
  | taskChecked i t hti hpc hc =>
    obtain ⟨htasks, rfl⟩ := ht.singleton hti
    exact hi.congr id (fun _ => rfl) rfl
      (by simp [submission, World.nextUp, htasks, Task.next, hpc])
  | taskSkipped i t hti hpc hc =>
    obtain ⟨htasks, rfl⟩ := ht.singleton hti
    exact hi.congr id (fun _ => rfl) rfl
      (by simp [submission, World.nextUp, htasks, Task.next, hpc])
  | handlerStart i t hti hpc =>
    obtain ⟨htasks, rfl⟩ := ht.singleton hti
    exact hi.congr id (fun _ => rfl) rfl
      (by simp [submission, World.nextUp, htasks, Task.next, hpc])
  | handlerPost i t response hti hpc =>
    obtain ⟨htasks, rfl⟩ := ht.singleton hti
    exact hi.congr id (fun _ => rfl) rfl
      (by simp [submission, World.nextUp, htasks, Task.next, hpc])
  | taskLast i t hti hpc hc hq =>
    obtain ⟨htasks, rfl⟩ := ht.singleton hti
    exact hi.congr id (fun _ => rfl) rfl
      (by simp [submission, World.nextUp, htasks, Task.next, hpc])
  | handlerSend i t response hti hpc =>
    obtain ⟨htasks, rfl⟩ := ht.singleton hti
    exact hi.congr id (fun _ => rfl) rfl
      (by simp [submission, World.nextUp, htasks, Task.next, hpc])
  | handlerReturn i t hti hpc =>
    obtain ⟨htasks, rfl⟩ := ht.singleton hti
    exact hi.congr id (fun _ => rfl) rfl
      (by simp [submission, World.nextUp, htasks, Task.next, hpc])
  | _ => exact hi.congr id (fun _ => rfl) rfl (by simp_all [submission, World.nextUp])

/-! ## §3 Whole runs -/

/-- What the scheduling of a connection's tasks promises in a state. -/
structure FifoScheduling (w : World) : Prop where
  exclusive : w.outstanding ≤ 1
  running : w.outstanding ≠ 0 → w.conn.taskRunning = true
  order : w.log.submitted <+: w.log.enqueued
  kept : w.conn.state = .connected →
    w.log.enqueued = w.log.submitted ++ w.nextUp ++ w.conn.pendingTasks
  chained : w.conn.pendingTasks ≠ [] →
    w.conn.taskRunning = true ∧ (w.outstanding ≠ 0 ∨ w.nextUp ≠ [])

/-- The outstanding tasks and the one on its way together are what `taskRunning_` counts. -/
theorem TaskInv.outstanding_add {w : World} (ht : TaskInv w) :
    w.outstanding + w.nextUp.length = w.conn.taskRunning.toNat := by
  -- one task at most is with the loop thread, and each of the others is either kind
  have hloop : w.loop.submits.length + (if w.loop = .completing then 1 else 0) = w.loop.token := by
    cases w.loop <;> rfl
  have htasks : ∀ tasks : List Task,
      tasks.countP Task.isOutstanding + (tasks.flatMap Task.next).length = tasks.length := by
    intro tasks
    induction tasks with
    | nil => rfl
    | cons t rest ih =>
      have hone : (if t.isOutstanding then 1 else 0) + t.next.length = 1 := by
        unfold Task.isOutstanding Task.next
        cases t.pc <;> rfl
      rw [List.countP_cons, List.flatMap_cons, List.length_append, List.length_cons]
      omega
  have htok := ht.token
  have hcount := htasks w.tasks
  unfold World.outstanding World.nextUp
  rw [List.length_append]
  omega

theorem FifoScheduling.of_invariants {w : World} (ht : TaskInv w) (ho : OrderInv w) :
    FifoScheduling w := by
  have hadd := ht.outstanding_add
  have hle := Bool.toNat_le w.conn.taskRunning
  refine ⟨by omega, fun hne => ?_, ?_, fun hc => (ho.kept hc).symm, fun hne => ?_⟩
  · cases hr : w.conn.taskRunning with
    | true => rfl
    | false =>
      rw [hr, Bool.toNat_false] at hadd
      omega
  · exact (List.prefix_append _ _).trans ho.order
  -- a queue without a task before it contradicts the count
  · have hrun := ht.queued hne
    refine ⟨hrun, ?_⟩
    by_contra hnone
    rw [not_or, not_not, not_not] at hnone
    rw [hnone.1, hnone.2, hrun] at hadd
    cases hadd

/-- **FIFO scheduling**: in every state of every interleaving of the loop thread, the workers
and `WorkThreadPool::stop`, at most one task of the connection is outstanding and
`taskRunning_` covers it; the tasks have been submitted in the order in which they were
enqueued; while connected none of them is lost; and a task waits in `pendingTasks_` only
behind one that is outstanding or about to be submitted. -/
theorem fifo_scheduling (fd : Int) (stream : Bytes) (acts : List Act) (w : World)
    (hrun : run World.step (World.init fd stream) acts = some w) : FifoScheduling w := by
  obtain ⟨hp, ho⟩ := run_invariant (P := fun w => PoolInv w ∧ OrderInv w)
    (fun _ _ _ hi h => ⟨hi.1.step (step_cases h),
      hi.2.step hi.1.task hi.1.close (step_cases h)⟩)
    ⟨.init fd stream, .init fd stream⟩ hrun
  exact .of_invariants hp.task ho

/-- Three heartbeats are enqueued; the pool stops, so that the second task is rejected on the
worker that completes the first and the third on the worker that completes the second. -/
def rejectedChain : List Act :=
  [.readEvent, .readv 30, .readvAgain, .loop, .loop, .loop, .loop, .loop, .loop, .loop, .worker 0,
    .worker 0, .stopPool, .handlerReturn 0, .worker 0, .worker 0, .worker 0]

theorem fifo_scheduling_rejected :
    ∃ w, run World.step (World.init 7 (encodeAll [⟨.heartbeatReq, 1, []⟩, ⟨.heartbeatReq, 2, []⟩,
        ⟨.heartbeatReq, 3, []⟩])) rejectedChain = some w ∧
      w.log.submitted.length = 2 ∧ w.nextUp = [⟨.heartbeatReq, 3, []⟩] ∧ FifoScheduling w := by
  have hlast : ((run World.step (World.init 7 (encodeAll [⟨.heartbeatReq, 1, []⟩,
      ⟨.heartbeatReq, 2, []⟩, ⟨.heartbeatReq, 3, []⟩])) rejectedChain).any fun w =>
        decide (w.log.submitted.length = 2 ∧ w.nextUp = [⟨.heartbeatReq, 3, []⟩])) = true := by
    decide
  obtain ⟨w, hw, hlast⟩ := exists_of_run_any hlast
  obtain ⟨hlen, hnext⟩ := of_decide_eq_true hlast
  exact ⟨w, hw, hlen, hnext, fifo_scheduling 7 _ rejectedChain w hw⟩

end EchoNet.Net.PoolMachine
