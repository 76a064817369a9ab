import EchoNet.Net.PoolMachine

/-!
# The Close Protocol of a Connection

`handleClose` decides under `taskMutex_` whether the close callback runs at once or waits
for the running task, after a CAS that happens outside the mutex; `onTaskComplete` claims
the deferred close under the same mutex, on a worker.

Two invariants carry the proof:
- `TaskInv`: `taskRunning_` counts the one task that is with the pool or on its way to it;
- `CloseInv`: once the state has left `connected`, the close callback has been invoked
  once, or exactly one party still owes it: `handleClose` before its decision, the flag
  `closeCallbackPending_`, a thread about to post the finalize callback, or the loop's
  queue.

## Main result

`closeCallback_protocol`: at most one invocation, none while a handler executes, no
handler starts after it, and none is missing once everything has come to rest.
-/

namespace EchoNet.Net.PoolMachine

open EchoNet.Lib EchoNet.Protocol

open World

/-! ## §1 What the composite operations leave alone -/

private theorem sendCallback_frame (c : Connection) (response : MyMessage) :
    ∃ n out queue wr, (c.sendCallback response).1 = { c with
      pendingSendCallbacks := n, outBuffer := out, sendQueue := queue, writing := wr } := by
  unfold Connection.sendCallback Connection.flushSendQueue
  dsimp only
  split_ifs <;> exact ⟨_, _, _, _, rfl⟩

/-- A send callback touches the output side of the connection, the accepted responses and,
while connected, the program counter: it goes on to the drain check or to `handleClose`. -/
theorem runSend_frame (w : World) (origin : Origin) (response : MyMessage) :
    ∃ n out queue wr acc pc, w.runSend origin response = { w with
      conn := { w.conn with
        pendingSendCallbacks := n, outBuffer := out, sendQueue := queue, writing := wr }
      loop := pc
      log := { w.log with accepted := acc } } ∧
      (w.conn.state ≠ .connected ∧ pc = w.loop ∨
        w.conn.state = .connected ∧ (pc = .closeCas .toFinish ∨ pc = .finishTasks .toLoop)) := by
  obtain ⟨n, out, queue, wr, hc⟩ := sendCallback_frame w.conn response
  unfold runSend
  split_ifs with h
  · have hconn : w.conn.state = .connected := by simpa using h
    cases hs : w.conn.sendCallback response with
    | mk c overflow =>
      rw [hs] at hc
      subst hc
      cases overflow with
      | true => exact ⟨n, out, queue, wr, _, _, rfl, Or.inr ⟨hconn, Or.inl rfl⟩⟩
      | false => exact ⟨n, out, queue, wr, _, _, rfl, Or.inr ⟨hconn, Or.inr rfl⟩⟩
  · have hconn : w.conn.state ≠ .connected := by simpa using h
    rw [hc]
    exact ⟨n, out, queue, wr, _, _, rfl, Or.inl ⟨hconn, rfl⟩⟩

section

variable (w : World) (origin : Origin) (response : MyMessage)

@[simp] theorem runSend_state : (w.runSend origin response).conn.state = w.conn.state := by
  obtain ⟨n, out, queue, wr, acc, pc, he, -⟩ := runSend_frame w origin response
  rw [he]

@[simp] theorem runSend_tasks : (w.runSend origin response).tasks = w.tasks := by
  obtain ⟨n, out, queue, wr, acc, pc, he, -⟩ := runSend_frame w origin response
  rw [he]

@[simp] theorem runSend_posting : (w.runSend origin response).posting = w.posting := by
  obtain ⟨n, out, queue, wr, acc, pc, he, -⟩ := runSend_frame w origin response
  rw [he]

@[simp] theorem runSend_taskQueue : (w.runSend origin response).taskQueue = w.taskQueue := by
  obtain ⟨n, out, queue, wr, acc, pc, he, -⟩ := runSend_frame w origin response
  rw [he]

@[simp] theorem runSend_inConnections :
    (w.runSend origin response).inConnections = w.inConnections := by
  obtain ⟨n, out, queue, wr, acc, pc, he, -⟩ := runSend_frame w origin response
  rw [he]

@[simp] theorem runSend_started : (w.runSend origin response).log.started = w.log.started := by
  obtain ⟨n, out, queue, wr, acc, pc, he, -⟩ := runSend_frame w origin response
  rw [he]

@[simp] theorem runSend_closeCalls :
    (w.runSend origin response).log.closeCalls = w.log.closeCalls := by
  obtain ⟨n, out, queue, wr, acc, pc, he, -⟩ := runSend_frame w origin response
  rw [he]

end

/-- What `removeConnection` can change, whatever its argument. -/
theorem removeConnection_eq (w : World) (fd : Int) :
    ∃ afd st r wr ch co, w.removeConnection fd = { w with
      conn := { w.conn with afd := afd, state := st, reading := r, writing := wr }
      inChannels := ch
      inConnections := co } ∧ (st = .connected → w.conn.state = .connected) := by
  unfold removeConnection clearEvents Connection.finishClose
  dsimp only
  split_ifs <;> exact ⟨_, _, _, _, _, _, rfl, by simp⟩

@[simp] theorem removeConnection_tasks (w : World) (fd : Int) :
    (w.removeConnection fd).tasks = w.tasks := by
  obtain ⟨afd, st, r, wr, ch, co, he, -⟩ := removeConnection_eq w fd
  rw [he]

@[simp] theorem removeConnection_posting (w : World) (fd : Int) :
    (w.removeConnection fd).posting = w.posting := by
  obtain ⟨afd, st, r, wr, ch, co, he, -⟩ := removeConnection_eq w fd
  rw [he]

@[simp] theorem removeConnection_taskQueue (w : World) (fd : Int) :
    (w.removeConnection fd).taskQueue = w.taskQueue := by
  obtain ⟨afd, st, r, wr, ch, co, he, -⟩ := removeConnection_eq w fd
  rw [he]

@[simp] theorem removeConnection_log (w : World) (fd : Int) :
    (w.removeConnection fd).log = w.log := by
  obtain ⟨afd, st, r, wr, ch, co, he, -⟩ := removeConnection_eq w fd
  rw [he]

/-- `removeConnection` for the right descriptor, while `connections_` holds it. -/
theorem removeConnection_frame {w : World} (h : w.inConnections = true)
    (hs : w.conn.state ≠ .closed) :
    ∃ r wr, w.removeConnection w.conn.fd = { w with
      conn := { w.conn with afd := -1, state := .closed, reading := r, writing := wr }
      inChannels := false
      inConnections := false } := by
  unfold removeConnection clearEvents Connection.finishClose
  cases hch : w.inChannels with
  | true => exact ⟨false, false, by simp [h, hs]⟩
  | false => exact ⟨w.conn.reading, w.conn.writing, by simp [h, hs, hch]⟩

theorem length_eraseIdx_task {w : World} {i : Nat} {t : Task} (h : w.tasks[i]? = some t) :
    (w.tasks.eraseIdx i).length + 1 = w.tasks.length := by
  have hi := (List.getElem?_eq_some_iff.mp h).1
  rw [List.length_eraseIdx_of_lt hi]
  omega

/-! ## §2 The task token -/

/-- The loop thread holds a task that it has taken out of `pendingTasks_`. -/
def LoopPc.token : LoopPc → Nat
  | .submitting _ | .completing => 1
  | _ => 0

/-- The loop thread is between the `isConnected` test of `read` and the end of the
submission of that message. -/
def LoopPc.schedules : LoopPc → Bool
  | .enqueueing _ | .submitting _ | .completing => true
  | _ => false

attribute [simp] LoopPc.token.eq_1 LoopPc.token.eq_2 LoopPc.token.eq_3
attribute [simp] LoopPc.schedules.eq_1 LoopPc.schedules.eq_2 LoopPc.schedules.eq_3
  LoopPc.schedules.eq_4

@[simp] theorem Return.token_pc (ret : Return) : ret.pc.token = 0 := by
  cases ret <;> rfl

@[simp] theorem Return.schedules_pc (ret : Return) : ret.pc.schedules = false := by
  cases ret <;> rfl

/-- `taskRunning_` is true exactly while one task is with the pool or on its way there. -/
structure TaskInv (w : World) : Prop where
  token : w.tasks.length + w.loop.token = w.conn.taskRunning.toNat
  queued : w.conn.pendingTasks ≠ [] → w.conn.taskRunning = true
  scheduling : w.loop.schedules = true → w.conn.state = .connected

theorem TaskInv.init (fd : Int) (stream : Bytes) : TaskInv (World.init fd stream) := by
  constructor <;> simp [World.init, Connection.create]

/-- A task in the pool holds the token. -/
theorem TaskInv.running {w : World} (hi : TaskInv w) {i : Nat} {t : Task}
    (ht : w.tasks[i]? = some t) : w.conn.taskRunning = true ∧ w.tasks.length = 1 := by
  have hpos : i < w.tasks.length := (List.getElem?_eq_some_iff.mp ht).1
  have htok := hi.token
  cases hr : w.conn.taskRunning with
  | true =>
    rw [hr, Bool.toNat_true] at htok
    exact ⟨rfl, by omega⟩
  | false =>
    rw [hr, Bool.toNat_false] at htok
    omega

/-- A task in the pool leaves the loop thread without the token. -/
theorem TaskInv.token_eq_zero {w : World} (hi : TaskInv w) {i : Nat} {t : Task}
    (ht : w.tasks[i]? = some t) : w.loop.token = 0 := by
  have hrun := hi.running ht
  have htok := hi.token
  rw [hrun.1, hrun.2, Bool.toNat_true] at htok
  omega

/-- The loop thread with the token leaves no task in the pool. -/
theorem TaskInv.tasks_eq_nil {w : World} (hi : TaskInv w) (h : w.loop.token = 1) :
    w.tasks = [] := by
  have htok := hi.token
  have hle := Bool.toNat_le w.conn.taskRunning
  exact List.eq_nil_of_length_eq_zero (by omega)

/-- A completed task gives the token back. -/
private theorem TaskInv.release {w : World} (hi : TaskInv w) {i : Nat} {t : Task}
    (ht : w.tasks[i]? = some t) : (w.tasks.eraseIdx i).length + w.loop.token = 0 := by
  have hlen := length_eraseIdx_task ht
  have hrun := hi.running ht
  have htok := hi.token
  rw [hrun.1, Bool.toNat_true] at htok
  omega

/-- A step that leaves the token where it is and puts nothing into `pendingTasks_`. -/
private theorem TaskInv.congr {w w' : World} (hi : TaskInv w)
    (htasks : w'.tasks.length = w.tasks.length) (hloop : w'.loop.token = w.loop.token)
    (hrun : w'.conn.taskRunning = w.conn.taskRunning)
    (hpending : w'.conn.pendingTasks = w.conn.pendingTasks)
    (hsched : w'.loop.schedules = true → w'.conn.state = .connected) : TaskInv w' := by
  constructor
  · rw [htasks, hloop, hrun]
    exact hi.token
  · rw [hpending, hrun]
    exact hi.queued
  · exact hsched

/-- A worker that completes its task without a next one gives the token back. -/
private theorem TaskInv.complete {w w' : World} (hi : TaskInv w) {i : Nat} {t : Task}
    (ht : w.tasks[i]? = some t) (htasks : w'.tasks = w.tasks.eraseIdx i)
    (hloop : w'.loop = w.loop) (hrun : w'.conn.taskRunning = false)
    (hpending : w'.conn.pendingTasks = []) (hstate : w'.conn.state = w.conn.state) :
    TaskInv w' := by
  constructor
  · rw [htasks, hloop, hrun]
    exact hi.release ht
  · exact fun hne => absurd hpending hne
  · rw [hloop, hstate]
    exact hi.scheduling

theorem TaskInv.step {w w' : World} {a : Act} (hi : TaskInv w) (h : Step w a w') :
    TaskInv w' := by
  have ⟨htok, hqueued, hsched⟩ := hi
  cases h with
  | runSend origin response rest hl hq =>
    obtain ⟨n, out, queue, wr, acc, pc, he, hpc⟩ :=
      runSend_frame { w with taskQueue := rest } origin response
    rw [he]
    obtain ⟨-, rfl⟩ | ⟨-, rfl | rfl⟩ := hpc
    · exact ⟨htok, hqueued, hsched⟩
    · exact hi.congr rfl (by simp [hl]) rfl rfl (by simp)
    · exact hi.congr rfl (by simp [hl]) rfl rfl (by simp)
  | inlineSend response hl =>
    obtain ⟨n, out, queue, wr, acc, pc, he, hpc⟩ := runSend_frame { w with
      conn := { w.conn with pendingSendCallbacks := w.conn.pendingSendCallbacks + 1 }
      log := { w.log with passed := w.log.passed ++ [(none, response)] } } none response
    rw [he]
    obtain ⟨-, rfl⟩ | ⟨hc, rfl | rfl⟩ := hpc
    · exact ⟨htok, hqueued, hsched⟩
    · have hidle := hl.resolve_right (fun hne => hne hc)
      exact hi.congr rfl (by simp [hidle]) rfl rfl (by simp)
    · have hidle := hl.resolve_right (fun hne => hne hc)
      exact hi.congr rfl (by simp [hidle]) rfl rfl (by simp)
  | removed ret fd hl =>
    obtain ⟨afd, st, r, wr, ch, co, he, -⟩ := removeConnection_eq w fd
    rw [he]
    exact hi.congr rfl (by simp [hl]) rfl rfl (by simp)
  -- the loop thread takes the token, hands it to the pool, or gives it back
  | enqueueBehind msg hl hr =>
    exact ⟨by simpa [hl] using htok, fun _ => hr, by simp⟩
  | enqueueFirst msg next rest hl hr hq =>
    exact ⟨by simpa [hl, hr] using htok, fun _ => rfl, fun _ => hsched (by simp [hl])⟩
  | submitAccepted msg hl hp =>
    exact ⟨by simpa [hl] using htok, hqueued, by simp⟩
  | submitRejected msg hl hp =>
    exact ⟨by simpa [hl] using htok, hqueued, fun _ => hsched (by simp [hl])⟩
  | completeNext next rest hl hc hq =>
    have htasks := hi.tasks_eq_nil (by simp [hl])
    exact ⟨by simp [htasks], fun _ => rfl, fun _ => hc⟩
  | completeLast hl hc hq =>
    have htasks := hi.tasks_eq_nil (by simp [hl])
    exact ⟨by simp [htasks], by simp [hq], by simp⟩
  | completeFinalize hl hc hp =>
    have htasks := hi.tasks_eq_nil (by simp [hl])
    exact ⟨by simp [htasks, invokeCloseCallback], by simp [invokeCloseCallback],
      by simp [invokeCloseCallback]⟩
  | completeClosed hl hc hp =>
    have htasks := hi.tasks_eq_nil (by simp [hl])
    exact ⟨by simp [htasks], by simp, by simp⟩
  | closeTasks ret hl => exact ⟨by simpa [hl] using htok, by simp, by simp⟩
  | closeCas ret hl hc => exact hi.congr rfl (by simp [hl]) rfl rfl (by simp)
  -- a worker completes its task
  | taskNext i t next rest ht hpc hc hq =>
    have hrun := hi.running ht
    have htoken := hi.token_eq_zero ht
    exact ⟨by simp [hrun.2, htoken], fun _ => rfl, hsched⟩
  | taskLast i t ht hpc hc hq => exact hi.complete ht rfl rfl rfl hq rfl
  | taskFinalize i t ht hpc hc hp => exact hi.complete ht rfl rfl rfl rfl rfl
  | taskClosed i t ht hpc hc hp => exact hi.complete ht rfl rfl rfl rfl rfl
  -- every other step leaves the token alone
  | _ => exact hi.congr (by simp) (by simp [*]) rfl rfl (by simp_all [invokeCloseCallback])

/-! ## §3 Who owes the close callback -/

/-- `handleClose` has won the CAS and not yet decided to defer. -/
def LoopPc.beforeDecision : LoopPc → Bool
  | .closeTasks _ => true
  | _ => false

/-- `handleClose` is going to invoke the callback itself. -/
def LoopPc.owesClose : LoopPc → Nat
  | .closeTasks _ | .closeBuffers _ false => 1
  | _ => 0

/-- `handleClose` past its CAS, or the close callback. -/
def LoopPc.closes : LoopPc → Bool
  | .closeTasks _ | .closeBuffers _ _ | .inCloseCallback _ _ | .removing _ _ => true
  | _ => false

/-- The argument of the close callback that is being executed. -/
def LoopPc.callbackFd : LoopPc → Option Int
  | .inCloseCallback _ fd | .removing _ fd => some fd
  | _ => none

attribute [simp] LoopPc.beforeDecision.eq_1 LoopPc.beforeDecision.eq_2
attribute [simp] LoopPc.owesClose.eq_1 LoopPc.owesClose.eq_2 LoopPc.owesClose.eq_3
attribute [simp] LoopPc.closes.eq_1 LoopPc.closes.eq_2 LoopPc.closes.eq_3 LoopPc.closes.eq_4
  LoopPc.closes.eq_5
attribute [simp] LoopPc.callbackFd.eq_1 LoopPc.callbackFd.eq_2 LoopPc.callbackFd.eq_3

@[simp] theorem Return.beforeDecision_pc (ret : Return) : ret.pc.beforeDecision = false := by
  cases ret <;> rfl

@[simp] theorem Return.owesClose_pc (ret : Return) : ret.pc.owesClose = 0 := by
  cases ret <;> rfl

@[simp] theorem Return.closes_pc (ret : Return) : ret.pc.closes = false := by
  cases ret <;> rfl

@[simp] theorem Return.callbackFd_pc (ret : Return) : ret.pc.callbackFd = none := by
  cases ret <;> rfl

/-- The invocations of the close callback that are still to come. -/
def closeOwed (w : World) : Nat :=
  w.loop.owesClose + w.conn.closeCallbackPending.toNat + w.posting.count .finalize +
    w.taskQueue.count .finalize

/-- One close callback per connection that has left `connected`, invoked or owed. -/
structure CloseInv (w : World) : Prop where
  owed : closeOwed w + w.log.closeCalls = if w.conn.state = .connected then 0 else 1
  pending : w.conn.state ≠ .connected → w.loop.beforeDecision = false →
    w.conn.closeCallbackPending = w.conn.taskRunning
  notPending : w.conn.state = .connected ∨ w.loop.beforeDecision = true →
    w.conn.closeCallbackPending = false
  closing : w.loop.closes = true → w.conn.state ≠ .connected
  held : w.log.closeCalls = 0 → w.inConnections = true
  callback : ∀ fd, w.loop.callbackFd = some fd →
    fd = w.conn.fd ∧ w.inConnections = true ∧ w.log.closeCalls ≠ 0
  descriptor : w.inConnections = true → w.conn.afd = w.conn.fd ∧ w.conn.state ≠ .closed

theorem CloseInv.init (fd : Int) (stream : Bytes) : CloseInv (World.init fd stream) := by
  constructor <;> simp [World.init, Connection.create, closeOwed]

/-- Handing a callback to the loop moves it from `posting` to the queue. -/
theorem count_post {posting queue : List Callback} {cb : Callback} (hm : cb ∈ posting)
    (x : Callback) :
    (posting.erase cb).count x + (queue ++ [cb]).count x = posting.count x + queue.count x := by
  have hperm := (List.perm_cons_erase hm).count_eq x
  rw [List.count_cons] at hperm
  rw [List.count_append, List.count_singleton]
  omega

theorem LoopPc.of_not_closes {pc : LoopPc} (h : pc.closes = false) :
    pc.beforeDecision = false ∧ pc.owesClose = 0 ∧ pc.callbackFd = none := by
  cases pc <;> simp_all

/-- The invariant survives a step that leaves the close bookkeeping alone and does not
move the loop thread into, within or out of the closing code.  The task flag may change as
long as the connection is connected. -/
theorem CloseInv.congr {w w' : World} (hi : CloseInv w)
    (hstate : w'.conn.state = w.conn.state)
    (hrun : w.conn.state ≠ .connected → w'.conn.taskRunning = w.conn.taskRunning)
    (hpend : w'.conn.closeCallbackPending = w.conn.closeCallbackPending)
    (hfd : w'.conn.fd = w.conn.fd) (hafd : w'.conn.afd = w.conn.afd)
    (hcalls : w'.log.closeCalls = w.log.closeCalls)
    (hheld : w'.inConnections = w.inConnections)
    (hcount : w'.posting.count .finalize + w'.taskQueue.count .finalize =
      w.posting.count .finalize + w.taskQueue.count .finalize)
    (hloop : w'.loop = w.loop ∨ w.loop.closes = false ∧ w'.loop.closes = false) :
    CloseInv w' := by
  have hviews : w'.loop.owesClose = w.loop.owesClose ∧
      w'.loop.beforeDecision = w.loop.beforeDecision ∧
      w'.loop.closes = w.loop.closes ∧ w'.loop.callbackFd = w.loop.callbackFd := by
    rcases hloop with heq | ⟨hl, hl'⟩
    · simp [heq]
    · have h1 := LoopPc.of_not_closes hl
      have h2 := LoopPc.of_not_closes hl'
      simp [h1, h2, hl, hl']
  obtain ⟨howes, hbefore, hcloses, hcbfd⟩ := hviews
  constructor
  · have := hi.owed
    unfold closeOwed at this ⊢
    rw [hstate, howes, hpend, hcalls]
    omega
  · intro hs hb
    rw [hpend, hrun (hstate ▸ hs)]
    exact hi.pending (hstate ▸ hs) (hbefore ▸ hb)
  · rw [hpend, hstate, hbefore]
    exact hi.notPending
  · rw [hstate, hcloses]
    exact hi.closing
  · rw [hcalls, hheld]
    exact hi.held
  · rw [hcbfd, hfd, hheld, hcalls]
    exact hi.callback
  · rw [hheld, hafd, hfd, hstate]
    exact hi.descriptor

/-- As long as a close is owed the callback has not run, so the loop still holds the
connection and its descriptor. -/
theorem CloseInv.held_of_owed {w : World} (hi : CloseInv w) (ho : closeOwed w ≠ 0) :
    w.conn.state ≠ .connected ∧ w.log.closeCalls = 0 ∧ closeOwed w = 1 ∧
      w.inConnections = true ∧ w.conn.afd = w.conn.fd := by
  have howed := hi.owed
  split_ifs at howed with hc
  · omega
  · have hcalls : w.log.closeCalls = 0 := by omega
    have hheld := hi.held hcalls
    exact ⟨hc, hcalls, by omega, hheld, (hi.descriptor hheld).1⟩

/-- The loop lets go of a connection only after it has left `connected`. -/
theorem CloseInv.not_connected_of_released {w : World} (hi : CloseInv w)
    (hh : w.inConnections = false) : w.conn.state ≠ .connected := by
  intro hc
  have howed := hi.owed
  rw [if_pos hc] at howed
  have hheld := hi.held (by omega)
  simp [hh] at hheld

/-- Invoking the callback pays what is owed. -/
theorem CloseInv.invoke {w w' : World} (hi : CloseInv w) (ho : closeOwed w ≠ 0)
    (ret : Return) (hconn : w'.conn.state = w.conn.state)
    (hafd : w'.conn.afd = w.conn.afd) (hfd : w'.conn.fd = w.conn.fd)
    (hlog : w'.log = w.log) (hin : w'.inConnections = w.inConnections)
    (hpaid : w'.conn.closeCallbackPending.toNat + w'.posting.count .finalize +
      w'.taskQueue.count .finalize = 0)
    (hrun : w'.conn.closeCallbackPending = w'.conn.taskRunning) :
    CloseInv (w'.invokeCloseCallback ret) := by
  obtain ⟨hstate, hcalls, -, hheld, hfds⟩ := hi.held_of_owed ho
  have hpend : w'.conn.closeCallbackPending = false := by
    cases hp : w'.conn.closeCallbackPending with
    | false => rfl
    | true =>
      rw [hp, Bool.toNat_true] at hpaid
      omega
  constructor
  · simp only [closeOwed, invokeCloseCallback, LoopPc.owesClose, hconn, hstate, if_false, hlog,
      hcalls]
    omega
  · intro _ _
    exact hrun
  · intro _
    simpa [invokeCloseCallback] using hpend
  · intro _
    simpa [invokeCloseCallback, hconn] using hstate
  · simp [invokeCloseCallback]
  · intro fd hf
    simp only [invokeCloseCallback, LoopPc.callbackFd, Option.some.injEq] at hf
    subst hf
    simp [invokeCloseCallback, hin, hheld, hafd, hfds, hfd]
  · intro _
    have := hi.descriptor hheld
    simpa [invokeCloseCallback, hafd, hfd, hconn] using this

/-- Every step keeps the close accounting. -/
theorem CloseInv.step {w w' : World} {a : Act} (ht : TaskInv w) (hi : CloseInv w)
    (h : Step w a w') : CloseInv w' := by
  cases h with
  | runSend origin response rest hl hq =>
    obtain ⟨n, out, queue, wr, acc, pc, he, hpc⟩ :=
      runSend_frame { w with taskQueue := rest } origin response
    rw [he]
    refine hi.congr rfl (fun _ => rfl) rfl rfl rfl rfl rfl (by simp [hq]) ?_
    obtain ⟨-, rfl⟩ | ⟨-, rfl | rfl⟩ := hpc <;> simp [hl]
  | inlineSend response hl =>
    obtain ⟨n, out, queue, wr, acc, pc, he, hpc⟩ := runSend_frame { w with
      conn := { w.conn with pendingSendCallbacks := w.conn.pendingSendCallbacks + 1 }
      log := { w.log with passed := w.log.passed ++ [(none, response)] } } none response
    rw [he]
    refine hi.congr rfl (fun _ => rfl) rfl rfl rfl rfl rfl rfl ?_
    obtain ⟨-, rfl⟩ | ⟨hc, hpc⟩ := hpc
    · exact Or.inl rfl
    · have hidle := hl.resolve_right (fun hne => hne hc)
      obtain rfl | rfl := hpc <;> simp [hidle]
  | post cb hm =>
    exact hi.congr rfl (fun _ => rfl) rfl rfl rfl rfl rfl (count_post hm _) (Or.inl rfl)
  | closeCas ret hl hc =>
    have howed := hi.owed
    have hnot := hi.notPending (Or.inl hc)
    have hheld := hi.held
    have hfd := hi.descriptor
    simp only [closeOwed, hl, hc, if_true, LoopPc.owesClose] at howed
    constructor <;> simp_all [closeOwed]
  | closeTasks ret hl =>
    -- the decision: the obligation passes to the flag or stays with `handleClose`
    have howed := hi.owed
    have hclosing := hi.closing (by simp [hl])
    have hnot := hi.notPending (Or.inr (by simp [hl]))
    simp only [closeOwed, hl, hclosing, if_false, LoopPc.owesClose, hnot, Bool.toNat_false]
      at howed
    refine ⟨?_, by simp, by simp [hclosing], by simp [hclosing], hi.held, by simp, hi.descriptor⟩
    simp only [closeOwed, hclosing, if_false]
    cases w.conn.taskRunning <;> simp <;> omega
  | closeDefer ret hl =>
    have hclosing := hi.closing (by simp [hl])
    have hpend := hi.pending hclosing (by simp [hl])
    have howed := hi.owed
    simp only [closeOwed, hl, LoopPc.owesClose] at howed
    refine ⟨?_, fun _ _ => hpend, by simp [hclosing], by simp, hi.held, by simp, hi.descriptor⟩
    simpa [closeOwed] using howed
  | closeNow ret hl =>
    have hclosing := hi.closing (by simp [hl])
    have hone := hi.held_of_owed (by simp [closeOwed, hl])
    have hpend := hi.pending hclosing (by simp [hl])
    have hsum := hone.2.2.1
    simp only [closeOwed, hl, LoopPc.owesClose] at hsum
    exact hi.invoke (by simp [closeOwed, hl]) ret rfl rfl rfl rfl rfl (by simp only; omega) hpend
  | businessClosed ret fd hl =>
    have hclosing := hi.closing (by simp [hl])
    have howed := hi.owed
    have hpend := hi.pending hclosing (by simp [hl])
    simp only [closeOwed, hl, LoopPc.owesClose] at howed
    refine ⟨?_, fun _ _ => hpend, by simp [hclosing], fun _ => hclosing, hi.held, ?_,
      hi.descriptor⟩
    · simpa [closeOwed] using howed
    · intro fd' hf
      exact hi.callback fd' (by simpa [hl] using hf)
  | removed ret fd hl =>
    obtain ⟨rfl, hheld, hcalls⟩ := hi.callback fd (by simp [hl])
    obtain ⟨-, hnotClosed⟩ := hi.descriptor hheld
    have hclosing := hi.closing (by simp [hl])
    have hpend := hi.pending hclosing (by simp [hl])
    have howed := hi.owed
    obtain ⟨r, wr, he⟩ := removeConnection_frame hheld hnotClosed
    rw [he]
    simp only [closeOwed, hl, hclosing, if_false, LoopPc.owesClose] at howed
    refine ⟨?_, fun _ _ => hpend, by simp, by simp, fun h => absurd h hcalls, by simp, by simp⟩
    simpa [closeOwed] using howed
  | completeFinalize hl hc hp => exact absurd (ht.scheduling (by simp [hl])) hc
  | completeClosed hl hc hp => exact absurd (ht.scheduling (by simp [hl])) hc
  | runFinalize rest hl hq =>
    have hone := hi.held_of_owed (by simp [closeOwed, hq])
    have hsum := hone.2.2.1
    have hpend := hi.pending hone.1 (by simp [hl])
    simp only [closeOwed, hl, hq, LoopPc.owesClose, List.count_cons_self] at hsum
    exact hi.invoke (by simp [closeOwed, hq]) .toLoop rfl rfl rfl rfl rfl (by simp only; omega)
      hpend
  | runExpired cb rest hl hq hh =>
    -- the connection can be gone only after the callback: nothing is owed in the queue
    have hnone : cb ≠ .finalize := by
      rintro rfl
      have hone := hi.held_of_owed (by simp [closeOwed, hq])
      simp [hh] at hone
    exact hi.congr rfl (fun _ => rfl) rfl rfl rfl rfl rfl (by simp [hq, hnone]) (Or.inl rfl)
  | taskFinalize i t hti hpc hc hp =>
    -- the claim: the flag is cleared, the posting thread owes the callback now
    have hone := hi.held_of_owed (by simp [closeOwed, hp])
    have hbefore : w.loop.beforeDecision = false := by
      cases hb : w.loop.beforeDecision with
      | false => rfl
      | true => simp [hi.notPending (Or.inr hb)] at hp
    refine ⟨?_, by simp, by simp, hi.closing, hi.held, hi.callback, hi.descriptor⟩
    have howed := hi.owed
    simp only [closeOwed, hp, Bool.toNat_true, hc, if_false] at howed ⊢
    simp only [List.count_append, List.count_singleton_self, Bool.toNat_false]
    omega
  | taskClosed i t hti hpc hc hp =>
    -- `handleClose` has not decided yet: it will find no task
    have hrun := (ht.running hti).1
    have hbefore : w.loop.beforeDecision = true := by
      cases hb : w.loop.beforeDecision with
      | true => rfl
      | false => simp [hi.pending hc hb, hrun] at hp
    refine ⟨?_, by simp [hbefore], fun _ => hp, hi.closing, hi.held, hi.callback, hi.descriptor⟩
    have howed := hi.owed
    simpa [closeOwed] using howed
  | enqueueFirst msg next rest hl hr hq =>
    have hconn := ht.scheduling (by simp [hl])
    exact hi.congr rfl (fun hne => absurd hconn hne) rfl rfl rfl rfl rfl rfl (by simp [hl])
  -- the other steps leave the close bookkeeping alone
  | _ => refine hi.congr rfl ?_ rfl rfl rfl rfl rfl ?_ ?_ <;> simp_all

/-! ## §4 The protocol -/

/-- Both invariants, over a whole run. -/
theorem run_closeInv {fd : Int} {stream : Bytes} {acts : List Act} {w : World}
    (hrun : run World.step (World.init fd stream) acts = some w) : TaskInv w ∧ CloseInv w :=
  run_invariant (P := fun w => TaskInv w ∧ CloseInv w)
    (fun _ _ _ hi h => ⟨hi.1.step (step_cases h), hi.2.step hi.1 (step_cases h)⟩)
    ⟨.init fd stream, .init fd stream⟩ hrun

/-- `handleClose` is in progress: it has been called and has neither returned nor reached
the close callback. -/
def LoopPc.inHandleClose : LoopPc → Bool
  | .closeCas _ | .closeTasks _ | .closeBuffers _ _ => true
  | _ => false

attribute [simp] LoopPc.inHandleClose.eq_1 LoopPc.inHandleClose.eq_2 LoopPc.inHandleClose.eq_3
  LoopPc.inHandleClose.eq_4

@[simp] theorem Return.inHandleClose_pc (ret : Return) : ret.pc.inHandleClose = false := by
  cases ret <;> rfl

/-- `onTaskComplete` is in progress on some thread: before its critical section, or with
the callback it decided on not yet posted. -/
def World.InOnTaskComplete (w : World) : Prop :=
  w.loop = .completing ∨ .finalize ∈ w.posting ∨ .check ∈ w.posting ∨
    ∃ t ∈ w.tasks, t.pc = .completing ∨ ∃ next, t.pc = .submitNext next

/-- A task is with the pool, or on its way there. -/
def World.TaskOutstanding (w : World) : Prop :=
  w.tasks ≠ [] ∨ ∃ msg, w.loop = .submitting msg

/-- The close callback has been or is being invoked only when it may be. -/
structure CloseProtocol (w : World) : Prop where
  atMostOnce : w.log.closeCalls ≤ 1
  notWhileExecuting : w.log.closeCalls ≠ 0 → ∀ t ∈ w.tasks, ¬ t.Executing
  invokedIdle : ∀ a w', w.step a = some w' → w'.log.closeCalls ≠ w.log.closeCalls →
    ∀ t ∈ w.tasks, ¬ t.Executing
  noStartAfter : ∀ a w', w.step a = some w' → w'.log.started ≠ w.log.started →
    w.log.closeCalls = 0
  notMissed : w.conn.state ≠ .connected → ¬ w.TaskOutstanding → w.loop.inHandleClose = false →
    ¬ w.InOnTaskComplete → .finalize ∉ w.taskQueue → w.log.closeCalls = 1

/-- A task that is with the pool keeps the callback from having been invoked. -/
theorem closeCalls_eq_zero_of_task {w : World} (ht : TaskInv w) (hc : CloseInv w) {t : Task}
    (hm : t ∈ w.tasks) : w.log.closeCalls = 0 := by
  obtain ⟨i, hti⟩ := List.getElem?_of_mem hm
  have hrun := (ht.running hti).1
  have howed := hc.owed
  split_ifs at howed with hstate
  · omega
  · -- past the CAS, a running task means that the close is still to be decided or deferred
    cases hb : w.loop.beforeDecision with
    | true =>
      have hpc : 1 ≤ w.loop.owesClose := by
        cases hl : w.loop <;> simp_all
      unfold closeOwed at howed
      omega
    | false =>
      have hp := hc.pending hstate hb
      unfold closeOwed at howed
      rw [hp, hrun, Bool.toNat_true] at howed
      omega

/-- A step starts a handler only for a task that is with the pool. -/
theorem task_of_started {w w' : World} {a : Act} (h : Step w a w')
    (hs : w'.log.started ≠ w.log.started) : ∃ t, t ∈ w.tasks := by
  cases h with
  | handlerStart i t hti hpc => exact ⟨t, List.mem_of_getElem? hti⟩
  | runSend origin response rest hl hq => exact absurd (runSend_started _ _ _) hs
  | inlineSend response hl => exact absurd (runSend_started _ _ _) hs
  | removed ret fd hl => exact absurd (congrArg Log.started (removeConnection_log w fd)) hs
  | _ => exact absurd rfl hs

/-- A step that invokes the close callback leaves the tasks of the pool alone. -/
private theorem tasks_of_invoked {w w' : World} {a : Act} (h : Step w a w')
    (hs : w'.log.closeCalls ≠ w.log.closeCalls) :
    w'.tasks = w.tasks ∧ w'.log.closeCalls ≠ 0 := by
  cases h with
  | closeNow ret hl => exact ⟨rfl, Nat.succ_ne_zero _⟩
  | completeFinalize hl hc hp => exact ⟨rfl, Nat.succ_ne_zero _⟩
  | runFinalize rest hl hq => exact ⟨rfl, Nat.succ_ne_zero _⟩
  | runSend origin response rest hl hq => exact absurd (runSend_closeCalls _ _ _) hs
  | inlineSend response hl => exact absurd (runSend_closeCalls _ _ _) hs
  | removed ret fd hl => exact absurd (congrArg Log.closeCalls (removeConnection_log w fd)) hs
  | _ => exact absurd rfl hs

/-- With every party at rest nothing is owed. -/
theorem closeOwed_eq_zero {w : World} (ht : TaskInv w) (hc : CloseInv w)
    (hstate : w.conn.state ≠ .connected) (hout : ¬ w.TaskOutstanding)
    (hclose : w.loop.inHandleClose = false) (hcomp : ¬ w.InOnTaskComplete)
    (hqueue : .finalize ∉ w.taskQueue) : closeOwed w = 0 := by
  unfold World.TaskOutstanding at hout
  unfold World.InOnTaskComplete at hcomp
  push Not at hout hcomp
  have hviews : w.loop.owesClose = 0 ∧ w.loop.beforeDecision = false ∧ w.loop.token = 0 := by
    cases hl : w.loop <;> simp_all
  have hidle : w.conn.taskRunning = false := by
    have htok := ht.token
    rw [hout.1, hviews.2.2] at htok
    cases hr : w.conn.taskRunning with
    | false => rfl
    | true => simp [hr] at htok
  have hpend : w.conn.closeCallbackPending = false := by
    rw [hc.pending hstate hviews.2.1, hidle]
  simp [closeOwed, hviews.1, hpend, List.count_eq_zero.mpr hcomp.2.1,
    List.count_eq_zero.mpr hqueue]

/-- **Close protocol of a connection under the worker pool**: in every state of every
interleaving the close callback has been invoked at most once, not while a handler of the
connection executes, no handler starts after it, and it is never missed. -/
theorem closeCallback_protocol (fd : Int) (stream : Bytes) (acts : List Act) (w : World)
    (hrun : run World.step (World.init fd stream) acts = some w) : CloseProtocol w := by
  obtain ⟨ht, hc⟩ := run_closeInv hrun
  have howed := hc.owed
  refine ⟨?_, ?_, ?_, ?_, ?_⟩
  · split_ifs at howed <;> omega
  · intro hcalls t hm
    exact absurd (closeCalls_eq_zero_of_task ht hc hm) hcalls
  · intro a w' hstep hne t hm
    have hstep' := step_cases hstep
    obtain ⟨htasks, hcalls⟩ := tasks_of_invoked hstep' hne
    -- the task would still be there after the invocation
    exact absurd (closeCalls_eq_zero_of_task (ht.step hstep') (hc.step ht hstep')
      (htasks ▸ hm)) hcalls
  · intro a w' hstep hne
    obtain ⟨t, hm⟩ := task_of_started (step_cases hstep) hne
    exact closeCalls_eq_zero_of_task ht hc hm
  · intro hstate hout hclose hcomp hqueue
    rw [closeOwed_eq_zero ht hc hstate hout hclose hcomp hqueue, if_neg hstate] at howed
    omega

/-- A login whose connection is reset while its handler runs: the close is deferred, the
worker claims it, and the loop invokes the callback once. -/
def deferredClose : List Act :=
  [.readEvent, .readv 10, .readvAgain, .loop, .loop, .loop, .loop, .loop, .worker 0, .worker 0,
    .closeEvent .errorEvent, .loop, .loop, .loop, .handlerReturn 0, .worker 0, .post .finalize,
    .runCallback true, .loop, .loop]

theorem closeCallback_protocol_deferred :
    ∃ w, run World.step (World.init 7 (encodeMessage ⟨.heartbeatReq, 1, []⟩)) deferredClose =
      some w ∧ (w.log.closeCalls = 1 ∧ w.conn.state = .closed) ∧ CloseProtocol w := by
  have hlast : ((run World.step (World.init 7 (encodeMessage ⟨.heartbeatReq, 1, []⟩))
      deferredClose).any fun w => decide (w.log.closeCalls = 1 ∧ w.conn.state = .closed)) =
      true := by
    decide
  obtain ⟨w, hw, hp⟩ := exists_of_run_any hlast
  exact ⟨w, hw, of_decide_eq_true hp, closeCallback_protocol 7 _ deferredClose w hw⟩

end EchoNet.Net.PoolMachine
