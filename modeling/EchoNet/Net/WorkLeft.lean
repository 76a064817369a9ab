import EchoNet.Lib.Places
import EchoNet.Net.CloseProtocol

/-!
# The Work Left in a Connection

What a connection still has to do when nobody asks anything more of it: the bytes in its buffers,
the tasks that wait or run, the closures that its threads hold or have posted, and the way of the
loop thread back to the event loop.

- An own step (`Act.own`) is a step of the loop thread or of a worker, with whatever the kernel
  answers to a `readv` that has no more bytes and to `send`, or the return of a handler.
- Events, input, and calls of `sendResponse` and `close` come from outside.

Each weight is what the item costs at most: a byte of `inBuffer` can be the last of a message, a
message becomes a task, a task ends with a closure, a closure takes the loop thread as far as the
close callback.

## Main results

- `rank_of_own`: an own step takes away some of the work;
- `idle_of_rest`: a connection with no own step left has no task, holds no closure, and its loop
  thread is back.
-/

namespace EchoNet.Net.PoolMachine

open EchoNet.Lib EchoNet.Protocol

/-! ## §1 Weights -/

/-- The steps that need nobody outside. -/
def Act.own : Act → Bool
  | .loop | .readvAgain | .readvEof | .readvError | .send _ | .sendAgain | .sendError => true
  | .worker _ | .handlerReturn _ | .post _ => true
  | _ => false

/-- The steps from where a call returns to. -/
def Return.rank : Return → Nat
  | .toLoop => 0
  | .toFinish => 8
  | .toParse => 14

def LoopPc.rank : LoopPc → Nat
  | .idle => 0
  | .removing ret _ => ret.rank + 1
  | .inCloseCallback ret _ => ret.rank + 2
  | .closeBuffers ret _ => ret.rank + 3
  | .closeTasks ret => ret.rank + 4
  | .closeCas ret => ret.rank + 5
  | .finishOutput ret => ret.rank + 6
  | .finishSends ret => ret.rank + 7
  | .finishTasks ret => ret.rank + 8
  | .writing => 9
  | .parsing => 14
  | .reading => 15
  | .completing => 23
  | .submitting _ => 34
  | .enqueueing _ => 35

attribute [simp] Return.rank.eq_1 Return.rank.eq_2 Return.rank.eq_3
  LoopPc.rank.eq_1 LoopPc.rank.eq_2 LoopPc.rank.eq_3 LoopPc.rank.eq_4
  LoopPc.rank.eq_5 LoopPc.rank.eq_6 LoopPc.rank.eq_7 LoopPc.rank.eq_8 LoopPc.rank.eq_9
  LoopPc.rank.eq_10 LoopPc.rank.eq_11 LoopPc.rank.eq_12 LoopPc.rank.eq_13 LoopPc.rank.eq_14
  LoopPc.rank.eq_15

@[simp] theorem Return.pc_rank (ret : Return) : ret.pc.rank = ret.rank := by cases ret <;> rfl

/-- The drain check of `sendResponse` or of a deferred close takes the loop thread thirteen steps
at most, and a response may have to be sent byte by byte. -/
def Callback.rank : Callback → Nat
  | .send _ response => 14 + (encodeMessage response).length
  | _ => 14

@[simp] theorem Callback.rank_send (origin : Origin) (response : MyMessage) :
    (Callback.send origin response).rank = 14 + (encodeMessage response).length := rfl

@[simp] theorem Callback.rank_close : Callback.close.rank = 14 := rfl

@[simp] theorem Callback.rank_finalize : Callback.finalize.rank = 14 := rfl

@[simp] theorem Callback.rank_check : Callback.check.rank = 14 := rfl

/-- A closure that a thread has yet to post. -/
def Callback.unposted (cb : Callback) : Nat := cb.rank + 1

@[simp] theorem Callback.unposted_eq (cb : Callback) : cb.unposted = cb.rank + 1 := rfl

def TaskPc.rank : TaskPc → Nat
  | .completing => 16
  | .handler => 17
  | .checked => 18
  | .submitted => 19
  | .submitNext _ => 20
  | .sending response => 32 + (encodeMessage response).length

attribute [simp] TaskPc.rank.eq_1 TaskPc.rank.eq_2 TaskPc.rank.eq_3 TaskPc.rank.eq_4
  TaskPc.rank.eq_5 TaskPc.rank.eq_6

namespace World

/-- The bytes, messages and closures that wait. -/
def load (w : World) : Nat :=
  22 * w.conn.inBuffer.length + 12 * w.conn.pendingTasks.length +
    (w.conn.outBuffer.length + w.conn.sendQueue.flatten.length) +
    (w.tasks.map fun t => t.pc.rank).sum + (w.posting.map Callback.unposted).sum +
    (w.taskQueue.map Callback.rank).sum

def rank (w : World) : Nat := w.load + w.loop.rank

@[simp] theorem rank_init (fd : Int) (stream : Bytes) : (World.init fd stream).rank = 0 := rfl

@[simp] theorem load_removeConnection (w : World) (fd : Int) :
    (w.removeConnection fd).load = w.load := by
  obtain ⟨afd, st, r, wr, ch, co, he, -⟩ := removeConnection_eq w fd
  rw [he]
  rfl

@[simp] theorem rank_removeConnection (w : World) (fd : Int) :
    (w.removeConnection fd).rank = w.rank := by
  obtain ⟨afd, st, r, wr, ch, co, he, -⟩ := removeConnection_eq w fd
  rw [he]
  rfl

/-- The loop thread leaves the close callback. -/
theorem rank_removed {w : World} {ret : Return} {fd : Int} (hl : w.loop = .removing ret fd) :
    World.rank { w.removeConnection fd with loop := ret.pc } < w.rank := by
  have hpc : w.loop.rank = ret.pc.rank + 1 := by rw [hl]; simp
  change (w.removeConnection fd).load + ret.pc.rank < w.load + w.loop.rank
  rw [load_removeConnection, hpc]
  omega

/-! ## §2 Own steps -/

/-- What a task gives up when it goes on, or ends with a closure in hand. -/
theorem tasks_set {w : World} {i : Nat} {t : Task} (ht : w.tasks[i]? = some t) (u : Task) :
    ((w.tasks.set i u).map fun t => t.pc.rank).sum + t.pc.rank =
      (w.tasks.map fun t => t.pc.rank).sum + u.pc.rank :=
  sum_map_set_add ht (fun t => t.pc.rank) u

theorem tasks_eraseIdx {w : World} {i : Nat} {t : Task} (ht : w.tasks[i]? = some t) :
    ((w.tasks.eraseIdx i).map fun t => t.pc.rank).sum + t.pc.rank =
      (w.tasks.map fun t => t.pc.rank).sum := by
  have hall := ((perm_cons_eraseIdx ht).map fun t => t.pc.rank).sum_nat
  rw [List.map_cons, List.sum_cons] at hall
  omega

theorem posting_erase {w : World} {cb : Callback} (hm : cb ∈ w.posting) :
    ((w.posting.erase cb).map Callback.unposted).sum + (cb.rank + 1) =
      (w.posting.map Callback.unposted).sum := by
  have hall := ((List.perm_cons_erase hm).map Callback.unposted).sum_nat
  rw [List.map_cons, List.sum_cons, Callback.unposted_eq] at hall
  omega

/-- A task goes on, and nothing else changes but the log. -/
theorem rank_lt_of_task {w w' : World} {i : Nat} {t u : Task} {log : Log}
    (ht : w.tasks[i]? = some t) (hw : w' = { w with tasks := w.tasks.set i u, log := log })
    (hlt : u.pc.rank < t.pc.rank) : w'.rank < w.rank := by
  have htasks := tasks_set ht u
  subst hw
  simp only [rank, load]
  omega

/-- A send callback moves the frame of its response to the output, or drops it. -/
theorem output_sendCallback (c : Connection) (response : MyMessage) :
    (c.sendCallback response).1.outBuffer.length +
        (c.sendCallback response).1.sendQueue.flatten.length ≤
      c.outBuffer.length + c.sendQueue.flatten.length + (encodeMessage response).length := by
  unfold Connection.sendCallback
  dsimp only
  split_ifs with hc
  · exact Nat.le_add_right _ _
  · unfold Connection.flushSendQueue
    dsimp only
    split_ifs <;> simp <;> omega

private theorem runSend_conn (w : World) (origin : Origin) (response : MyMessage) :
    (w.runSend origin response).conn = (w.conn.sendCallback response).1 := by
  unfold runSend
  split_ifs with hc
  · cases w.conn.sendCallback response with
    | mk c overflow => cases overflow <;> rfl
  · rfl

theorem load_runSend (w : World) (origin : Origin) (response : MyMessage) :
    (w.runSend origin response).load ≤ w.load + (encodeMessage response).length := by
  have hout := output_sendCallback w.conn response
  have hconn := runSend_conn w origin response
  obtain ⟨n, out, queue, wr, acc, pc, he, -⟩ := runSend_frame w origin response
  rw [he] at hconn ⊢
  rw [← hconn] at hout
  dsimp only at hout
  simp only [load]
  omega

/-- Running a closure costs no more than having it in the queue. -/
theorem rank_of_runCallback {w w' : World} {alive : Bool}
    (h : World.Step w (.runCallback alive) w') : w'.rank < w.rank := by
  cases h with
  | runSend origin response rest hl hq =>
    have hload := load_runSend { w with taskQueue := rest } origin response
    have hqueue : World.load { w with taskQueue := rest } + (14 + (encodeMessage response).length) =
        w.load := by
      simp only [load, hq, List.map_cons, List.sum_cons, Callback.rank_send]
      omega
    have hpc : (World.runSend { w with taskQueue := rest } origin response).loop.rank ≤ 13 := by
      obtain ⟨n, out, queue, wr, acc, pc, he, hpc⟩ :=
        runSend_frame { w with taskQueue := rest } origin response
      rw [he]
      obtain ⟨-, rfl⟩ | ⟨-, rfl | rfl⟩ := hpc
      · simp [hl]
      · simp
      · simp
    have hidle : w.loop.rank = 0 := by rw [hl]; exact LoopPc.rank.eq_1
    rw [rank, rank]
    omega
  | runClose rest hl hq | runFinalize rest hl hq | runCheck rest hl hq =>
    simp [rank, load, hq, hl]
    omega
  | runExpired cb rest hl hq hheld =>
    have hcb : 0 < cb.rank := by cases cb <;> simp
    simp [rank, load, hq]
    omega

/-- An own step takes away some of the work. -/
theorem rank_of_own {w w' : World} {a : Act} (ha : a.own = true) (h : World.Step w a w') :
    w'.rank < w.rank := by
  cases h with
  | parseOk msg rest hl hp hc =>
    have hlt := parse_ok_length_lt hp
    simp [rank, load, hl]
    omega
  | parseOkClosed msg rest hl hp hc =>
    have hlt := parse_ok_length_lt hp
    simp [rank, load, hl]
    omega
  | parseError rest hl hp =>
    have hle := parse_error_length_le hp
    simp [rank, load, hl]
    omega
  | enqueueFirst msg next rest hl hr hq =>
    have hlen := congrArg List.length hq
    simp only [List.length_append, List.length_cons, List.length_nil] at hlen
    simp [rank, load, hl]
    omega
  -- the pool takes a task over from the loop thread, or completes it there
  | submitAccepted msg hl hp =>
    simp [rank, load, hl]
    omega
  | completeNext next rest hl hc hq =>
    simp [rank, load, hl, hq]
    omega
  | removed ret fd hl => exact rank_removed hl
  | send n hl hpos hn =>
    simp [rank, load, hl]
    omega
  -- a task
  | taskChecked i t ht hpc hc => exact rank_lt_of_task ht rfl (by simp [hpc])
  | taskSkipped i t ht hpc hc => exact rank_lt_of_task ht rfl (by simp [hpc])
  | handlerStart i t ht hpc => exact rank_lt_of_task ht rfl (by simp [hpc])
  | handlerReturn i t ht hpc => exact rank_lt_of_task ht rfl (by simp [hpc])
  | nextAccepted i t next ht hpc hp => exact rank_lt_of_task ht rfl (by simp [hpc])
  | nextRejected i t next ht hpc hp => exact rank_lt_of_task ht rfl (by simp [hpc])
  | handlerPost i t response ht hpc =>
    have htasks := tasks_set ht { t with pc := .handler }
    simp [hpc] at htasks
    simp [rank, load]
    omega
  | taskNext i t next rest ht hpc hc hq =>
    have htasks := tasks_set ht { t with pc := .submitNext next }
    simp [hpc] at htasks
    simp [rank, load, hq]
    omega
  -- the worker leaves with a closure in hand
  | taskLast i t ht hpc hc hq =>
    have htasks := tasks_eraseIdx ht
    simp [hpc] at htasks
    simp [rank, load, hq]
    omega
  | taskFinalize i t ht hpc hc hp | taskClosed i t ht hpc hc hp =>
    have htasks := tasks_eraseIdx ht
    simp [hpc] at htasks
    simp [rank, load]
    omega
  | post cb hm =>
    have hposting := posting_erase hm
    simp [rank, load]
    omega
  -- these do not come from the threads of the connection
  | readEvent | readIgnored | readv | writeEvent | writeIgnored | closeEvent | runSend | runClose
  | runFinalize | runCheck | runExpired | inlineSend | handlerSend | extSend | extClose
  | stopPool => cases ha
  -- a message goes to the tasks that wait
  | enqueueBehind msg hl hr =>
    simp [rank, load, hl]
    omega
  -- something is thrown away
  | parseDiscard hl | completeFinalize hl | completeClosed hl | closeTasks ret hl
  | closeDefer ret hl | closeNow ret hl =>
    simp [rank, load, hl] <;> omega
  -- the loop thread goes on, and that is all
  | _ => simp [rank, load, *]

/-! ## §3 Connections at rest -/

theorem loopStep_ne_none {w : World} (hidle : w.loop ≠ .idle) (hread : w.loop ≠ .reading)
    (hwrite : w.loop = .writing → w.conn.outBuffer = []) : w.loopStep ≠ none := by
  unfold loopStep
  cases hl : w.loop with
  | idle => exact absurd hl hidle
  | reading => exact absurd hl hread
  | enqueueing msg =>
    dsimp only
    cases w.conn.enqueueTask msg with
    | mk c next => cases next <;> simp
  | writing => simp [hwrite hl]
  | finishTasks ret | finishSends ret | finishOutput ret | closeCas ret =>
    dsimp only
    split_ifs <;> simp
  | closeBuffers ret defer =>
    dsimp only
    split_ifs <;> simp
  | _ => simp

/-- A task can go on, if only by the return of its handler. -/
theorem exists_own_of_task {w : World} {t : Task} {ts : List Task} (hts : w.tasks = t :: ts) :
    ∃ a : Act, a.own = true ∧ w.step a ≠ none := by
  have ht : w.tasks[0]? = some t := by rw [hts]; exact List.getElem?_cons_zero
  cases hpc : t.pc with
  | handler => exact ⟨.handlerReturn 0, rfl, by simp [World.step, handlerReturn, ht, hpc]⟩
  | submitted | submitNext next =>
    refine ⟨.worker 0, rfl, ?_⟩
    simp only [World.step, workerStep, ht, hpc]
    split_ifs <;> simp
  | checked | sending response | completing =>
    exact ⟨.worker 0, rfl, by simp [World.step, workerStep, ht, hpc]⟩

/-- A connection with no own step left has no task, holds no closure, and its loop thread is
back in the event loop. -/
theorem idle_of_rest {w : World} (hrest : ∀ a : Act, a.own = true → w.step a = none) :
    w.tasks = [] ∧ w.posting = [] ∧ w.loop = .idle := by
  refine ⟨?_, ?_, ?_⟩
  · cases hts : w.tasks with
    | nil => rfl
    | cons t ts =>
      obtain ⟨a, ha, hstep⟩ := exists_own_of_task hts
      exact absurd (hrest a ha) hstep
  · cases hcbs : w.posting with
    | nil => rfl
    | cons cb cbs =>
      have hpost := hrest (.post cb) rfl
      simp [World.step, hcbs] at hpost
  · by_contra hidle
    by_cases hread : w.loop = .reading
    · have hagain := hrest .readvAgain rfl
      simp [World.step, kernelStep, hread] at hagain
    · refine loopStep_ne_none hidle hread (fun hwrite => ?_) (hrest .loop rfl)
      by_contra hout
      have hagain := hrest .sendAgain rfl
      simp [World.step, kernelStep, hwrite, hout] at hagain

end World

end EchoNet.Net.PoolMachine
