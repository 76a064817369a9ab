import EchoNet.Lib.Machine
import EchoNet.Net.Connection
import Mathlib.Tactic.Cases
import Mathlib.Tactic.SplitIfs

/-!
# A Connection under the Worker Pool

One connection of a server (`IoThreadPool::submit`), the thread of its event loop, the
tasks it has in the worker pool and every other thread that uses it, interleaved at the
granularity of the locks and atomics of src/Net/Connection.cpp.

- The event loop runs one callback at a time; `LoopPc` is where it stands.  Stretches that
  touch only data of the loop thread are one step, every `taskMutex_` section, every access
  to an atomic that another thread writes, and every hand-over to another thread is a step
  of its own.
- A task in the pool is a `Task` with its own program counter.  A thread that is about to
  hand a callback to `EventLoop::runInLoop` holds it in `posting`.
- `taskQueue` is the part of `EventLoop::task_queue_` that belongs to this connection.
- `Log` is history: no branch of the program reads it.

The kernel is the environment: it decides what `readv` and `send` return, and the bytes the
peer still has to deliver are in `toRecv`.
-/

namespace EchoNet.Net.PoolMachine

open EchoNet.Lib EchoNet.Protocol

/-! ## §1 States -/

/-- Where control goes when `handleClose` or `maybeFinishAfterPeerEof` returns: back to
the event loop, into the parse loop of `read` (a rejected task completes there), or to
the drain check that ends `read` and the send callback. -/
inductive Return where
  | toLoop
  | toParse
  | toFinish
  deriving DecidableEq, Repr

/-- The program counter of the event loop thread, as far as this connection goes. -/
inductive LoopPc where
  /-- between two callbacks of this connection -/
  | idle
  /-- `read`, in the `readv` loop -/
  | reading
  /-- `read`, at the head of the parse loop -/
  | parsing
  /-- `enqueueTask`, before `taskMutex_` -/
  | enqueueing (msg : MyMessage)
  /-- before `worksumbitcallback_` -/
  | submitting (msg : MyMessage)
  /-- `onTaskComplete` of a rejected task, before `taskMutex_` -/
  | completing
  /-- `maybeFinishAfterPeerEof`, before its first, second and last check -/
  | finishTasks (ret : Return)
  | finishSends (ret : Return)
  | finishOutput (ret : Return)
  /-- `handleClose`, before the CAS, before `taskMutex_` and before the buffers -/
  | closeCas (ret : Return)
  | closeTasks (ret : Return)
  | closeBuffers (ret : Return) (deferFinalClose : Bool)
  /-- inside `closeCallBack_(fd)`: before `onConnectionClosed` and before
  `removeConnection` -/
  | inCloseCallback (ret : Return) (fd : Int)
  | removing (ret : Return) (fd : Int)
  /-- `write`, in the `send` loop -/
  | writing
  deriving DecidableEq, Repr

/-- The program counter after a return. -/
def Return.pc : Return → LoopPc
  | .toLoop => .idle
  | .toParse => .parsing
  | .toFinish => .finishTasks .toLoop

@[simp] theorem Return.toLoop_pc : Return.toLoop.pc = .idle := rfl

/-- Which request's handler passed a response to `sendResponse`; `none` for any other
thread (a broadcast). -/
abbrev Origin := Option MyMessage

/-- The closures posted to the event loop. -/
inductive Callback where
  | send (origin : Origin) (response : MyMessage)
  | close
  | finalize
  | check
  deriving DecidableEq, Repr

/-- The program counter of a task in the pool. -/
inductive TaskPc where
  /-- in the task queue, or popped and before the `isConnected` test of `run_` -/
  | submitted
  /-- the test passed, the handler has not started -/
  | checked
  /-- the business handler is executing -/
  | handler
  /-- the handler is inside `sendResponse`, after the `fetch_add` -/
  | sending (response : MyMessage)
  /-- `run_` is over, `onTaskComplete` has not taken `taskMutex_` -/
  | completing
  /-- `onTaskComplete`, before `worksumbitcallback_(next)` -/
  | submitNext (next : MyMessage)
  deriving DecidableEq, Repr

structure Task where
  message : MyMessage
  pc : TaskPc
  deriving DecidableEq, Repr

/-- The business handler of this task is executing. -/
def Task.Executing (t : Task) : Prop :=
  match t.pc with
  | .handler | .sending _ => True
  | _ => False

/-- History of a run. -/
structure Log where
  enqueued : List MyMessage
  submitted : List MyMessage
  started : List MyMessage
  passed : List (Origin × MyMessage)
  accepted : List (Origin × MyMessage)
  sent : Bytes
  closeCalls : Nat
  deriving DecidableEq, Repr

structure World where
  conn : Connection
  toRecv : Bytes
  loop : LoopPc
  taskQueue : List Callback
  tasks : List Task
  posting : List Callback
  poolStopped : Bool
  inChannels : Bool
  inConnections : Bool
  log : Log
  deriving DecidableEq, Repr

/-- A freshly registered connection whose peer will send `stream` and then close its
sending side. -/
def World.init (fd : Int) (stream : Bytes) : World where
  conn := .create fd
  toRecv := stream
  loop := .idle
  taskQueue := []
  tasks := []
  posting := []
  poolStopped := false
  inChannels := true
  inConnections := true
  log := ⟨[], [], [], [], [], [], 0⟩

/-! ## §2 The event loop thread -/

namespace World

/-- `closeCallBack_(afd_)` is entered. -/
def invokeCloseCallback (w : World) (ret : Return) : World :=
  { w with loop := .inCloseCallback ret w.conn.afd
           log := { w.log with closeCalls := w.log.closeCalls + 1 } }

section

variable (w : World) (ret : Return)

@[simp] theorem invokeCloseCallback_conn : (w.invokeCloseCallback ret).conn = w.conn := rfl
@[simp] theorem invokeCloseCallback_tasks : (w.invokeCloseCallback ret).tasks = w.tasks := rfl
@[simp] theorem invokeCloseCallback_posting : (w.invokeCloseCallback ret).posting = w.posting := rfl
@[simp] theorem invokeCloseCallback_taskQueue :
    (w.invokeCloseCallback ret).taskQueue = w.taskQueue := rfl
@[simp] theorem invokeCloseCallback_toRecv : (w.invokeCloseCallback ret).toRecv = w.toRecv := rfl
@[simp] theorem invokeCloseCallback_poolStopped :
    (w.invokeCloseCallback ret).poolStopped = w.poolStopped := rfl
@[simp] theorem invokeCloseCallback_loop :
    (w.invokeCloseCallback ret).loop = .inCloseCallback ret w.conn.afd := rfl
@[simp] theorem invokeCloseCallback_log :
    (w.invokeCloseCallback ret).log = { w.log with closeCalls := w.log.closeCalls + 1 } := rfl

end

/-- `Channel::setEvents(0)`. -/
def clearEvents (w : World) : World :=
  { w with conn := { w.conn with reading := false, writing := false } }

/-- `EventLoop::removeConnection(fd)` in a loop whose maps hold this connection only. -/
def removeConnection (w : World) (fd : Int) : World :=
  if fd = w.conn.fd then
    let w := if w.inChannels then { w.clearEvents with inChannels := false } else w
    if w.inConnections then { w with conn := w.conn.finishClose, inConnections := false } else w
  else w

/-- One parse of the loop in `read`. -/
def parseStep (w : World) : World :=
  match parse w.conn.inBuffer with
  | .ok msg rest =>
    if w.conn.isConnected then
      { w with conn := { w.conn with inBuffer := rest }, loop := .enqueueing msg }
    else { w with conn := { w.conn with inBuffer := rest }, loop := .finishTasks .toLoop }
  | .error rest =>
    -- `MyProtocol` prepares no error response, so the connection is closed
    { w with conn := { w.conn with inBuffer := rest }, loop := .closeCas .toFinish }
  | .needMore =>
    if w.conn.peerReadClosed then
      { w with conn := { w.conn with inBuffer := [] }, loop := .finishTasks .toLoop }
    else { w with loop := .finishTasks .toLoop }

/-- `worksumbitcallback_` on the loop thread: `WorkThreadPool::submit` queues the task or,
when the pool has stopped, completes it on the spot. -/
def submitStep (w : World) (msg : MyMessage) : World :=
  let log := { w.log with submitted := w.log.submitted ++ [msg] }
  if w.poolStopped then { w with loop := .completing, log := log }
  else { w with tasks := w.tasks ++ [⟨msg, .submitted⟩], loop := .parsing, log := log }

/-- `onTaskComplete` on the loop thread, where `runInLoop` runs its argument at once. -/
def completeStep (w : World) : World :=
  match w.conn.onTaskComplete with
  | (c, .submit next) => { w with conn := c, loop := .submitting next }
  | (c, .finalize) => { w with conn := c }.invokeCloseCallback .toParse
  | (c, .check) => { w with conn := c, loop := .finishTasks .toParse }

/-- The next instruction of the event loop thread, where the kernel has no say. -/
def loopStep (w : World) : Option World :=
  match w.loop with
  | .idle | .reading => none
  | .parsing => some w.parseStep
  | .enqueueing msg =>
    let log := { w.log with enqueued := w.log.enqueued ++ [msg] }
    match w.conn.enqueueTask msg with
    | (c, some next) => some { w with conn := c, loop := .submitting next, log := log }
    | (c, none) => some { w with conn := c, loop := .parsing, log := log }
  | .submitting msg => some (w.submitStep msg)
  | .completing => some w.completeStep
  | .finishTasks ret =>
    if w.conn.peerReadClosed && w.conn.isConnected && w.conn.tasksDrained then
      some { w with loop := .finishSends ret }
    else some { w with loop := ret.pc }
  | .finishSends ret =>
    if w.conn.pendingSendCallbacks = 0 then some { w with loop := .finishOutput ret }
    else some { w with loop := ret.pc }
  | .finishOutput ret =>
    if w.conn.outputDrained then some { w with loop := .closeCas ret }
    else some { w with loop := ret.pc }
  | .closeCas ret =>
    if w.conn.isConnected then
      some { w with conn := { w.conn with state := .closing }, loop := .closeTasks ret }
    else some { w with loop := ret.pc }
  | .closeTasks ret =>
    let (c, defer) := w.conn.closeTasks
    some { w with conn := c, loop := .closeBuffers ret defer }
  | .closeBuffers ret defer =>
    let w := { w with conn := w.conn.closeBuffers }
    if defer then
      -- `removeChannel`: no more events, but `connections_` and the descriptor stay
      some { w.clearEvents with inChannels := false, loop := ret.pc }
    else some (w.invokeCloseCallback ret)
  | .inCloseCallback ret fd => some { w with loop := .removing ret fd }
  | .removing ret fd => some { w.removeConnection fd with loop := ret.pc }
  | .writing =>
    -- the `send` loop ends when the buffer is empty
    if w.conn.outBuffer = [] then
      some { w with conn := { w.conn with writing := false }, loop := .finishTasks .toLoop }
    else none

/-- The callback of `sendResponse`, run on the loop thread.  On overflow `flushSendQueue`
calls `handleClose`; the drain check follows in either case. -/
def runSend (w : World) (origin : Origin) (response : MyMessage) : World :=
  if w.conn.isConnected then
    let log := { w.log with accepted := w.log.accepted ++ [(origin, response)] }
    match w.conn.sendCallback response with
    | (c, true) => { w with conn := c, loop := .closeCas .toFinish, log := log }
    | (c, false) => { w with conn := c, loop := .finishTasks .toLoop, log := log }
  else { w with conn := (w.conn.sendCallback response).1 }

/-- The oldest posted callback is run.  `alive` is the outcome of `weakself.lock()`, which
can fail only once the loop no longer holds the connection. -/
def runCallback (w : World) (alive : Bool) : Option World :=
  match w.loop, w.taskQueue with
  | .idle, cb :: rest =>
    let w := { w with taskQueue := rest }
    if alive then
      match cb with
      | .send origin response => some (w.runSend origin response)
      | .close => some { w with loop := .closeCas .toLoop }
      | .finalize => some (w.invokeCloseCallback .toLoop)
      | .check => some { w with loop := .finishTasks .toLoop }
    else if w.inConnections then none
    else some w
  | _, _ => none

/-- A response sent by the loop thread itself, for which `runInLoop` is a plain call: from
the close callback of another connection of the loop, or from inside this one's. -/
def inlineSend (w : World) (response : MyMessage) : Option World :=
  let w' := { w with
    conn := { w.conn with pendingSendCallbacks := w.conn.pendingSendCallbacks + 1 }
    log := { w.log with passed := w.log.passed ++ [(none, response)] } }
  match w.loop with
  | .idle => some (w'.runSend none response)
  | .inCloseCallback .. | .removing .. =>
    if w.conn.isConnected then none else some (w'.runSend none response)
  | _ => none

/-! ## §3 The worker threads -/

/-- `onTaskComplete` on a worker: the callback it decides on is still to be posted. -/
def taskComplete (w : World) (i : Nat) (t : Task) : World :=
  match w.conn.onTaskComplete with
  | (c, .submit next) => { w with conn := c, tasks := w.tasks.set i { t with pc := .submitNext next } }
  | (c, .finalize) =>
    { w with conn := c, tasks := w.tasks.eraseIdx i, posting := w.posting ++ [.finalize] }
  | (c, .check) =>
    { w with conn := c, tasks := w.tasks.eraseIdx i, posting := w.posting ++ [.check] }

/-- The next instruction of the worker that has task `i`, outside the handler's own code. -/
def workerStep (w : World) (i : Nat) : Option World :=
  match w.tasks[i]? with
  | none => none
  | some t =>
    match t.pc with
    | .submitted =>
      if w.conn.isConnected then some { w with tasks := w.tasks.set i { t with pc := .checked } }
      else some { w with tasks := w.tasks.set i { t with pc := .completing } }
    | .checked =>
      some { w with tasks := w.tasks.set i { t with pc := .handler }
                    log := { w.log with started := w.log.started ++ [t.message] } }
    | .handler => none
    | .sending response =>
      some { w with tasks := w.tasks.set i { t with pc := .handler }
                    taskQueue := w.taskQueue ++ [.send (some t.message) response] }
    | .completing => some (w.taskComplete i t)
    | .submitNext next =>
      let log := { w.log with submitted := w.log.submitted ++ [next] }
      if w.poolStopped then
        some { w with tasks := w.tasks.set i ⟨next, .completing⟩, log := log }
      else some { w with tasks := w.tasks.set i ⟨next, .submitted⟩, log := log }

/-- The handler of task `i` calls `sendResponse`: the `fetch_add`. -/
def handlerSend (w : World) (i : Nat) (response : MyMessage) : Option World :=
  match w.tasks[i]? with
  | none => none
  | some t =>
    if t.pc = .handler then
      some { w with
        conn := { w.conn with pendingSendCallbacks := w.conn.pendingSendCallbacks + 1 }
        tasks := w.tasks.set i { t with pc := .sending response }
        log := { w.log with passed := w.log.passed ++ [(some t.message, response)] } }
    else none

/-- The handler of task `i` returns or throws. -/
def handlerReturn (w : World) (i : Nat) : Option World :=
  match w.tasks[i]? with
  | none => none
  | some t =>
    if t.pc = .handler then some { w with tasks := w.tasks.set i { t with pc := .completing } }
    else none

end World

/-! ## §4 Steps -/

/-- What the loop thread calls `handleClose` for without a request of this connection:
`EPOLLERR`, the idle scan, `closeAllConnections`. -/
inductive CloseCause where
  | errorEvent
  | idleTimeout
  | closeAll
  deriving DecidableEq, Repr

inductive Act where
  /-- the loop thread goes on -/
  | loop
  /-- `EPOLLIN`, `EPOLLHUP` or `EPOLLRDHUP` is reported -/
  | readEvent
  /-- `readv` returns `n > 0`, `EAGAIN`, end of file, or an error -/
  | readv (n : Nat)
  | readvAgain
  | readvEof
  | readvError
  /-- `EPOLLOUT` is reported -/
  | writeEvent
  /-- `send` returns `n > 0`, `EAGAIN`, or zero or an error -/
  | send (n : Nat)
  | sendAgain
  | sendError
  | closeEvent (cause : CloseCause)
  | runCallback (alive : Bool)
  | inlineSend (response : MyMessage)
  /-- the worker that has task `i` goes on -/
  | worker (i : Nat)
  | handlerSend (i : Nat) (response : MyMessage)
  | handlerReturn (i : Nat)
  /-- another thread calls `sendResponse` or `close` -/
  | extSend (response : MyMessage)
  | extClose
  /-- a thread that holds a callback hands it to `runInLoop` -/
  | post (cb : Callback)
  /-- `WorkThreadPool::stop`: the queue rejects from now on -/
  | stopPool
  deriving DecidableEq, Repr

namespace World

/-- The steps of the kernel's answers to the loop thread. -/
def kernelStep (w : World) : Act → Option World
  | .readEvent =>
    if w.loop = .idle ∧ w.inChannels = true then
      if w.conn.isConnected && !w.conn.peerReadClosed then some { w with loop := .reading }
      else some w
    else none
  | .readv n =>
    if w.loop = .reading ∧ 0 < n ∧ n ≤ w.toRecv.length then
      some { w with conn := { w.conn with inBuffer := w.conn.inBuffer ++ w.toRecv.take n }
                    toRecv := w.toRecv.drop n }
    else none
  | .readvAgain => if w.loop = .reading then some { w with loop := .parsing } else none
  | .readvEof =>
    if w.loop = .reading ∧ w.toRecv = [] then
      some { w with conn := { w.conn with peerReadClosed := true, reading := false }
                    loop := .parsing }
    else none
  | .readvError =>
    if w.loop = .reading then some { w with loop := .closeCas .toLoop } else none
  | .writeEvent =>
    if w.loop = .idle then
      if w.conn.isConnected then
        if w.conn.writing then some { w with loop := .writing } else none
      else some w
    else none
  | .send n =>
    if w.loop = .writing ∧ 0 < n ∧ n ≤ w.conn.outBuffer.length then
      some { w with conn := { w.conn with outBuffer := w.conn.outBuffer.drop n }
                    log := { w.log with sent := w.log.sent ++ w.conn.outBuffer.take n } }
    else none
  | .sendAgain =>
    if w.loop = .writing ∧ w.conn.outBuffer ≠ [] then some { w with loop := .idle } else none
  | .sendError =>
    if w.loop = .writing ∧ w.conn.outBuffer ≠ [] then some { w with loop := .closeCas .toLoop }
    else none
  | _ => none

/-- One step of the whole system. -/
def step (w : World) : Act → Option World
  | .loop => w.loopStep
  | .closeEvent _ =>
    if w.loop = .idle ∧ w.inConnections = true then some { w with loop := .closeCas .toLoop }
    else none
  | .runCallback alive => w.runCallback alive
  | .inlineSend response => w.inlineSend response
  | .worker i => w.workerStep i
  | .handlerSend i response => w.handlerSend i response
  | .handlerReturn i => w.handlerReturn i
  | .extSend response =>
    some { w with
      conn := { w.conn with pendingSendCallbacks := w.conn.pendingSendCallbacks + 1 }
      posting := w.posting ++ [.send none response]
      log := { w.log with passed := w.log.passed ++ [(none, response)] } }
  | .extClose => some { w with posting := w.posting ++ [.close] }
  | .post cb =>
    if cb ∈ w.posting then
      some { w with posting := w.posting.erase cb, taskQueue := w.taskQueue ++ [cb] }
    else none
  | .stopPool => some { w with poolStopped := true }
  | act => w.kernelStep act

/-! ## §5 Everything a step can do -/

/-- The steps of the machine, one constructor for each way through the code.  `step_cases`
is the inversion of `step`; every invariant below is a case analysis over `Step`. -/
inductive Step (w : World) : Act → World → Prop where
  | parseOk (msg : MyMessage) (rest : Bytes) (hl : w.loop = .parsing)
      (hp : parse w.conn.inBuffer = .ok msg rest) (hc : w.conn.state = .connected) :
      Step w .loop { w with conn := { w.conn with inBuffer := rest }, loop := .enqueueing msg }
  | parseOkClosed (msg : MyMessage) (rest : Bytes) (hl : w.loop = .parsing)
      (hp : parse w.conn.inBuffer = .ok msg rest) (hc : w.conn.state ≠ .connected) :
      Step w .loop
        { w with conn := { w.conn with inBuffer := rest }, loop := .finishTasks .toLoop }
  | parseError (rest : Bytes) (hl : w.loop = .parsing)
      (hp : parse w.conn.inBuffer = .error rest) :
      Step w .loop { w with conn := { w.conn with inBuffer := rest }, loop := .closeCas .toFinish }
  | parseDiscard (hl : w.loop = .parsing) (hp : parse w.conn.inBuffer = .needMore)
      (he : w.conn.peerReadClosed = true) :
      Step w .loop { w with conn := { w.conn with inBuffer := [] }, loop := .finishTasks .toLoop }
  | parseNeedMore (hl : w.loop = .parsing) (hp : parse w.conn.inBuffer = .needMore)
      (he : w.conn.peerReadClosed = false) :
      Step w .loop { w with loop := .finishTasks .toLoop }
  | enqueueBehind (msg : MyMessage) (hl : w.loop = .enqueueing msg)
      (hr : w.conn.taskRunning = true) :
      Step w .loop { w with
        conn := { w.conn with pendingTasks := w.conn.pendingTasks ++ [msg] }
        loop := .parsing
        log := { w.log with enqueued := w.log.enqueued ++ [msg] } }
  | enqueueFirst (msg next : MyMessage) (rest : List MyMessage) (hl : w.loop = .enqueueing msg)
      (hr : w.conn.taskRunning = false) (hq : w.conn.pendingTasks ++ [msg] = next :: rest) :
      Step w .loop { w with
        conn := { w.conn with taskRunning := true, pendingTasks := rest }
        loop := .submitting next
        log := { w.log with enqueued := w.log.enqueued ++ [msg] } }
  | submitAccepted (msg : MyMessage) (hl : w.loop = .submitting msg)
      (hp : w.poolStopped = false) :
      Step w .loop { w with
        tasks := w.tasks ++ [⟨msg, .submitted⟩]
        loop := .parsing
        log := { w.log with submitted := w.log.submitted ++ [msg] } }
  | submitRejected (msg : MyMessage) (hl : w.loop = .submitting msg)
      (hp : w.poolStopped = true) :
      Step w .loop { w with
        loop := .completing
        log := { w.log with submitted := w.log.submitted ++ [msg] } }
  | completeNext (next : MyMessage) (rest : List MyMessage) (hl : w.loop = .completing)
      (hc : w.conn.state = .connected) (hq : w.conn.pendingTasks = next :: rest) :
      Step w .loop { w with
        conn := { w.conn with pendingTasks := rest, taskRunning := true }
        loop := .submitting next }
  | completeLast (hl : w.loop = .completing) (hc : w.conn.state = .connected)
      (hq : w.conn.pendingTasks = []) :
      Step w .loop { w with
        conn := { w.conn with taskRunning := false }, loop := .finishTasks .toParse }
  | completeFinalize (hl : w.loop = .completing) (hc : w.conn.state ≠ .connected)
      (hp : w.conn.closeCallbackPending = true) :
      Step w .loop ({ w with
        conn := { w.conn with
          pendingTasks := [], taskRunning := false, closeCallbackPending := false } }
        |>.invokeCloseCallback .toParse)
  | completeClosed (hl : w.loop = .completing) (hc : w.conn.state ≠ .connected)
      (hp : w.conn.closeCallbackPending = false) :
      Step w .loop { w with
        conn := { w.conn with pendingTasks := [], taskRunning := false }
        loop := .finishTasks .toParse }
  | tasksDrained (ret : Return) (hl : w.loop = .finishTasks ret)
      (he : w.conn.peerReadClosed = true) (hc : w.conn.state = .connected)
      (hr : w.conn.taskRunning = false) (hq : w.conn.pendingTasks = []) :
      Step w .loop { w with loop := .finishSends ret }
  | tasksNotDrained (ret : Return) (hl : w.loop = .finishTasks ret)
      (hn : w.conn.peerReadClosed = true → w.conn.state = .connected →
        w.conn.taskRunning = true ∨ w.conn.pendingTasks ≠ []) :
      Step w .loop { w with loop := ret.pc }
  | sendsDrained (ret : Return) (hl : w.loop = .finishSends ret)
      (hs : w.conn.pendingSendCallbacks = 0) :
      Step w .loop { w with loop := .finishOutput ret }
  | sendsNotDrained (ret : Return) (hl : w.loop = .finishSends ret)
      (hs : w.conn.pendingSendCallbacks ≠ 0) :
      Step w .loop { w with loop := ret.pc }
  | outputDrained (ret : Return) (hl : w.loop = .finishOutput ret)
      (hq : w.conn.sendQueue = []) (ho : w.conn.outBuffer = []) :
      Step w .loop { w with loop := .closeCas ret }
  | outputNotDrained (ret : Return) (hl : w.loop = .finishOutput ret)
      (hn : w.conn.sendQueue = [] → w.conn.outBuffer ≠ []) :
      Step w .loop { w with loop := ret.pc }
  | closeCas (ret : Return) (hl : w.loop = .closeCas ret) (hc : w.conn.state = .connected) :
      Step w .loop { w with conn := { w.conn with state := .closing }, loop := .closeTasks ret }
  | closeAgain (ret : Return) (hl : w.loop = .closeCas ret) (hc : w.conn.state ≠ .connected) :
      Step w .loop { w with loop := ret.pc }
  | closeTasks (ret : Return) (hl : w.loop = .closeTasks ret) :
      Step w .loop { w with
        conn := { w.conn with pendingTasks := [], closeCallbackPending := w.conn.taskRunning }
        loop := .closeBuffers ret w.conn.taskRunning }
  | closeDefer (ret : Return) (hl : w.loop = .closeBuffers ret true) :
      Step w .loop { w with
        conn := { w.conn with
          sendQueue := [], inBuffer := [], outBuffer := [], reading := false, writing := false }
        inChannels := false
        loop := ret.pc }
  | closeNow (ret : Return) (hl : w.loop = .closeBuffers ret false) :
      Step w .loop ({ w with
        conn := { w.conn with sendQueue := [], inBuffer := [], outBuffer := [] } }
        |>.invokeCloseCallback ret)
  | businessClosed (ret : Return) (fd : Int) (hl : w.loop = .inCloseCallback ret fd) :
      Step w .loop { w with loop := .removing ret fd }
  | removed (ret : Return) (fd : Int) (hl : w.loop = .removing ret fd) :
      Step w .loop { w.removeConnection fd with loop := ret.pc }
  | writeDone (hl : w.loop = .writing) (ho : w.conn.outBuffer = []) :
      Step w .loop { w with
        conn := { w.conn with writing := false }, loop := .finishTasks .toLoop }
  | readEvent (hl : w.loop = .idle) (hc : w.conn.state = .connected)
      (he : w.conn.peerReadClosed = false) : Step w .readEvent { w with loop := .reading }
  | readIgnored (hl : w.loop = .idle) : Step w .readEvent w
  | readv (n : Nat) (hl : w.loop = .reading) (hpos : 0 < n) (hn : n ≤ w.toRecv.length) :
      Step w (.readv n) { w with
        conn := { w.conn with inBuffer := w.conn.inBuffer ++ w.toRecv.take n }
        toRecv := w.toRecv.drop n }
  | readvAgain (hl : w.loop = .reading) : Step w .readvAgain { w with loop := .parsing }
  | readvEof (hl : w.loop = .reading) (ht : w.toRecv = []) :
      Step w .readvEof { w with
        conn := { w.conn with peerReadClosed := true, reading := false }, loop := .parsing }
  | readvError (hl : w.loop = .reading) :
      Step w .readvError { w with loop := .closeCas .toLoop }
  | writeEvent (hl : w.loop = .idle) (hc : w.conn.state = .connected)
      (hw : w.conn.writing = true) : Step w .writeEvent { w with loop := .writing }
  | writeIgnored (hl : w.loop = .idle) (hc : w.conn.state ≠ .connected) : Step w .writeEvent w
  | send (n : Nat) (hl : w.loop = .writing) (hpos : 0 < n) (hn : n ≤ w.conn.outBuffer.length) :
      Step w (.send n) { w with
        conn := { w.conn with outBuffer := w.conn.outBuffer.drop n }
        log := { w.log with sent := w.log.sent ++ w.conn.outBuffer.take n } }
  | sendAgain (hl : w.loop = .writing) (ho : w.conn.outBuffer ≠ []) :
      Step w .sendAgain { w with loop := .idle }
  | sendError (hl : w.loop = .writing) (ho : w.conn.outBuffer ≠ []) :
      Step w .sendError { w with loop := .closeCas .toLoop }
  | closeEvent (cause : CloseCause) (hl : w.loop = .idle) :
      Step w (.closeEvent cause) { w with loop := .closeCas .toLoop }
  | runSend (origin : Origin) (response : MyMessage) (rest : List Callback)
      (hl : w.loop = .idle) (hq : w.taskQueue = .send origin response :: rest) :
      Step w (.runCallback true) ({ w with taskQueue := rest }.runSend origin response)
  | runClose (rest : List Callback) (hl : w.loop = .idle) (hq : w.taskQueue = .close :: rest) :
      Step w (.runCallback true) { w with taskQueue := rest, loop := .closeCas .toLoop }
  | runFinalize (rest : List Callback) (hl : w.loop = .idle)
      (hq : w.taskQueue = .finalize :: rest) :
      Step w (.runCallback true) ({ w with taskQueue := rest }.invokeCloseCallback .toLoop)
  | runCheck (rest : List Callback) (hl : w.loop = .idle) (hq : w.taskQueue = .check :: rest) :
      Step w (.runCallback true) { w with taskQueue := rest, loop := .finishTasks .toLoop }
  | runExpired (cb : Callback) (rest : List Callback) (hl : w.loop = .idle)
      (hq : w.taskQueue = cb :: rest) (hh : w.inConnections = false) :
      Step w (.runCallback false) { w with taskQueue := rest }
  | inlineSend (response : MyMessage) (hl : w.loop = .idle ∨ w.conn.state ≠ .connected) :
      Step w (.inlineSend response) ({ w with
        conn := { w.conn with pendingSendCallbacks := w.conn.pendingSendCallbacks + 1 }
        log := { w.log with passed := w.log.passed ++ [(none, response)] } }
        |>.runSend none response)
  | taskChecked (i : Nat) (t : Task) (ht : w.tasks[i]? = some t) (hpc : t.pc = .submitted)
      (hc : w.conn.state = .connected) :
      Step w (.worker i) { w with tasks := w.tasks.set i { t with pc := .checked } }
  | taskSkipped (i : Nat) (t : Task) (ht : w.tasks[i]? = some t) (hpc : t.pc = .submitted)
      (hc : w.conn.state ≠ .connected) :
      Step w (.worker i) { w with tasks := w.tasks.set i { t with pc := .completing } }
  | handlerStart (i : Nat) (t : Task) (ht : w.tasks[i]? = some t) (hpc : t.pc = .checked) :
      Step w (.worker i) { w with
        tasks := w.tasks.set i { t with pc := .handler }
        log := { w.log with started := w.log.started ++ [t.message] } }
  | handlerPost (i : Nat) (t : Task) (response : MyMessage) (ht : w.tasks[i]? = some t)
      (hpc : t.pc = .sending response) :
      Step w (.worker i) { w with
        tasks := w.tasks.set i { t with pc := .handler }
        taskQueue := w.taskQueue ++ [.send (some t.message) response] }
  | taskNext (i : Nat) (t : Task) (next : MyMessage) (rest : List MyMessage)
      (ht : w.tasks[i]? = some t) (hpc : t.pc = .completing) (hc : w.conn.state = .connected)
      (hq : w.conn.pendingTasks = next :: rest) :
      Step w (.worker i) { w with
        conn := { w.conn with pendingTasks := rest, taskRunning := true }
        tasks := w.tasks.set i { t with pc := .submitNext next } }
  | taskLast (i : Nat) (t : Task) (ht : w.tasks[i]? = some t) (hpc : t.pc = .completing)
      (hc : w.conn.state = .connected) (hq : w.conn.pendingTasks = []) :
      Step w (.worker i) { w with
        conn := { w.conn with taskRunning := false }
        tasks := w.tasks.eraseIdx i
        posting := w.posting ++ [.check] }
  | taskFinalize (i : Nat) (t : Task) (ht : w.tasks[i]? = some t) (hpc : t.pc = .completing)
      (hc : w.conn.state ≠ .connected) (hp : w.conn.closeCallbackPending = true) :
      Step w (.worker i) { w with
        conn := { w.conn with
          pendingTasks := [], taskRunning := false, closeCallbackPending := false }
        tasks := w.tasks.eraseIdx i
        posting := w.posting ++ [.finalize] }
  | taskClosed (i : Nat) (t : Task) (ht : w.tasks[i]? = some t) (hpc : t.pc = .completing)
      (hc : w.conn.state ≠ .connected) (hp : w.conn.closeCallbackPending = false) :
      Step w (.worker i) { w with
        conn := { w.conn with pendingTasks := [], taskRunning := false }
        tasks := w.tasks.eraseIdx i
        posting := w.posting ++ [.check] }
  | nextAccepted (i : Nat) (t : Task) (next : MyMessage) (ht : w.tasks[i]? = some t)
      (hpc : t.pc = .submitNext next) (hp : w.poolStopped = false) :
      Step w (.worker i) { w with
        tasks := w.tasks.set i ⟨next, .submitted⟩
        log := { w.log with submitted := w.log.submitted ++ [next] } }
  | nextRejected (i : Nat) (t : Task) (next : MyMessage) (ht : w.tasks[i]? = some t)
      (hpc : t.pc = .submitNext next) (hp : w.poolStopped = true) :
      Step w (.worker i) { w with
        tasks := w.tasks.set i ⟨next, .completing⟩
        log := { w.log with submitted := w.log.submitted ++ [next] } }
  | handlerSend (i : Nat) (t : Task) (response : MyMessage) (ht : w.tasks[i]? = some t)
      (hpc : t.pc = .handler) :
      Step w (.handlerSend i response) { w with
        conn := { w.conn with pendingSendCallbacks := w.conn.pendingSendCallbacks + 1 }
        tasks := w.tasks.set i { t with pc := .sending response }
        log := { w.log with passed := w.log.passed ++ [(some t.message, response)] } }
  | handlerReturn (i : Nat) (t : Task) (ht : w.tasks[i]? = some t) (hpc : t.pc = .handler) :
      Step w (.handlerReturn i) { w with tasks := w.tasks.set i { t with pc := .completing } }
  | extSend (response : MyMessage) :
      Step w (.extSend response) { w with
        conn := { w.conn with pendingSendCallbacks := w.conn.pendingSendCallbacks + 1 }
        posting := w.posting ++ [.send none response]
        log := { w.log with passed := w.log.passed ++ [(none, response)] } }
  | extClose : Step w .extClose { w with posting := w.posting ++ [.close] }
  | post (cb : Callback) (hm : cb ∈ w.posting) :
      Step w (.post cb) { w with
        posting := w.posting.erase cb, taskQueue := w.taskQueue ++ [cb] }
  | stopPool : Step w .stopPool { w with poolStopped := true }

private theorem loop_cases {w w' : World} (h : w.loopStep = some w') : Step w .loop w' := by
  unfold loopStep at h
  cases hl : w.loop with
  | idle => simp [hl] at h
  | reading => simp [hl] at h
  | parsing =>
    simp only [hl, Option.some.injEq] at h
    subst h
    unfold parseStep
    split
    next msg rest hp =>
      split_ifs with hc
      · exact .parseOk msg rest hl hp (by simpa using hc)
      · exact .parseOkClosed msg rest hl hp (by simpa using hc)
    next rest hp => exact .parseError rest hl hp
    next hp =>
      split_ifs with he
      · exact .parseDiscard hl hp he
      · exact .parseNeedMore hl hp (by simpa using he)
  | enqueueing msg =>
    cases hr : w.conn.taskRunning with
    | true =>
      simp only [hl, Connection.enqueueTask_of_running hr, Option.some.injEq] at h
      subst h
      exact .enqueueBehind msg hl hr
    | false =>
      obtain ⟨next, rest, hq⟩ : ∃ next rest, w.conn.pendingTasks ++ [msg] = next :: rest :=
        List.exists_cons_of_ne_nil (by simp)
      simp only [hl, Connection.enqueueTask, hr, hq, Option.some.injEq] at h
      subst h
      exact .enqueueFirst msg next rest hl hr hq
  | submitting msg =>
    simp only [hl, Option.some.injEq] at h
    subst h
    unfold submitStep
    split_ifs with hp
    · exact .submitRejected msg hl hp
    · exact .submitAccepted msg hl (by simpa using hp)
  | completing =>
    simp only [hl, Option.some.injEq] at h
    subst h
    unfold completeStep
    by_cases hc : w.conn.state = .connected
    · cases hq : w.conn.pendingTasks with
      | nil =>
        rw [Connection.onTaskComplete_last hc hq]
        exact .completeLast hl hc hq
      | cons next rest =>
        rw [Connection.onTaskComplete_next hc hq]
        exact .completeNext next rest hl hc hq
    · cases hp : w.conn.closeCallbackPending with
      | true =>
        rw [Connection.onTaskComplete_finalize hc hp]
        exact .completeFinalize hl hc hp
      | false =>
        rw [Connection.onTaskComplete_closed hc hp]
        exact .completeClosed hl hc hp
  | finishTasks ret =>
    simp only [hl, Connection.tasksDrained, Bool.and_eq_true, Connection.isConnected_iff,
      Bool.not_eq_true', List.isEmpty_iff] at h
    split_ifs at h with hd <;> cases h
    · exact .tasksDrained ret hl hd.1.1 hd.1.2 hd.2.1 hd.2.2
    · refine .tasksNotDrained ret hl fun he hc => ?_
      rw [and_assoc, not_and, not_and, not_and_or, Bool.not_eq_false] at hd
      exact hd he hc
  | finishSends ret =>
    simp only [hl] at h
    split_ifs at h with hs <;> cases h
    · exact .sendsDrained ret hl hs
    · exact .sendsNotDrained ret hl hs
  | finishOutput ret =>
    simp only [hl, Connection.outputDrained, Bool.and_eq_true, List.isEmpty_iff] at h
    split_ifs at h with ho <;> cases h
    · exact .outputDrained ret hl ho.1 ho.2
    · exact .outputNotDrained ret hl fun hq ho' => ho ⟨hq, ho'⟩
  | closeCas ret =>
    simp only [hl, Connection.isConnected_iff] at h
    split_ifs at h with hc <;> cases h
    · exact .closeCas ret hl hc
    · exact .closeAgain ret hl hc
  | closeTasks ret =>
    simp only [hl, Option.some.injEq] at h
    subst h
    exact .closeTasks ret hl
  | closeBuffers ret defer =>
    cases defer with
    | true =>
      simp only [hl, if_true, Option.some.injEq] at h
      subst h
      exact .closeDefer ret hl
    | false =>
      simp only [hl, Bool.false_eq_true, if_false, Option.some.injEq] at h
      subst h
      exact .closeNow ret hl
  | inCloseCallback ret fd =>
    simp only [hl, Option.some.injEq] at h
    subst h
    exact .businessClosed ret fd hl
  | removing ret fd =>
    simp only [hl, Option.some.injEq] at h
    subst h
    exact .removed ret fd hl
  | writing =>
    simp only [hl] at h
    split_ifs at h with ho
    cases h
    exact .writeDone hl ho

private theorem runCallback_cases {w w' : World} {alive : Bool}
    (h : w.runCallback alive = some w') : Step w (.runCallback alive) w' := by
  unfold runCallback at h
  split at h
  next cb rest hl hq =>
    cases alive with
    | false =>
      simp only [Bool.false_eq_true, if_false] at h
      split_ifs at h with hh
      cases h
      exact .runExpired cb rest hl hq (by simpa using hh)
    | true =>
      simp only [if_true] at h
      cases cb with
      | send origin response => cases h; exact .runSend origin response rest hl hq
      | close => cases h; exact .runClose rest hl hq
      | finalize => cases h; exact .runFinalize rest hl hq
      | check => cases h; exact .runCheck rest hl hq
  next => cases h

private theorem inlineSend_cases {w w' : World} {response : MyMessage}
    (h : w.inlineSend response = some w') : Step w (.inlineSend response) w' := by
  unfold inlineSend at h
  split at h
  next hl => cases h; exact .inlineSend response (Or.inl hl)
  next => split_ifs at h with hc; cases h; exact .inlineSend response (Or.inr (by simpa using hc))
  next => split_ifs at h with hc; cases h; exact .inlineSend response (Or.inr (by simpa using hc))
  next => cases h

private theorem worker_cases {w w' : World} {i : Nat} (h : w.workerStep i = some w') :
    Step w (.worker i) w' := by
  unfold workerStep at h
  split at h
  next => cases h
  next t ht =>
    cases hpc : t.pc with
    | submitted =>
      simp only [hpc, Connection.isConnected_iff] at h
      split_ifs at h with hc <;> cases h
      · exact .taskChecked i t ht hpc hc
      · exact .taskSkipped i t ht hpc hc
    | checked =>
      simp only [hpc, Option.some.injEq] at h
      subst h
      exact .handlerStart i t ht hpc
    | handler => simp [hpc] at h
    | sending response =>
      simp only [hpc, Option.some.injEq] at h
      subst h
      exact .handlerPost i t response ht hpc
    | completing =>
      simp only [hpc, Option.some.injEq] at h
      subst h
      unfold taskComplete
      by_cases hc : w.conn.state = .connected
      · cases hq : w.conn.pendingTasks with
        | nil =>
          rw [Connection.onTaskComplete_last hc hq]
          exact .taskLast i t ht hpc hc hq
        | cons next rest =>
          rw [Connection.onTaskComplete_next hc hq]
          exact .taskNext i t next rest ht hpc hc hq
      · cases hp : w.conn.closeCallbackPending with
        | true =>
          rw [Connection.onTaskComplete_finalize hc hp]
          exact .taskFinalize i t ht hpc hc hp
        | false =>
          rw [Connection.onTaskComplete_closed hc hp]
          exact .taskClosed i t ht hpc hc hp
    | submitNext next =>
      simp only [hpc] at h
      split_ifs at h with hp <;> cases h
      · exact .nextRejected i t next ht hpc hp
      · exact .nextAccepted i t next ht hpc (by simpa using hp)

private theorem kernel_cases {w w' : World} {a : Act} (h : w.kernelStep a = some w') :
    Step w a w' := by
  cases a <;> simp only [kernelStep, reduceCtorEq] at h
  case readEvent =>
    split_ifs at h with hl hc <;> cases h
    · simp only [Bool.and_eq_true, Connection.isConnected_iff, Bool.not_eq_true'] at hc
      exact .readEvent hl.1 hc.1 hc.2
    · exact .readIgnored hl.1
  case readv n =>
    split_ifs at h with hl
    cases h
    exact .readv n hl.1 hl.2.1 hl.2.2
  case readvAgain => split_ifs at h with hl; cases h; exact .readvAgain hl
  case readvEof => split_ifs at h with hl; cases h; exact .readvEof hl.1 hl.2
  case readvError => split_ifs at h with hl; cases h; exact .readvError hl
  case writeEvent =>
    simp only [Connection.isConnected_iff] at h
    split_ifs at h with hl hc hw <;> cases h
    · exact .writeEvent hl hc hw
    · exact .writeIgnored hl hc
  case send n =>
    split_ifs at h with hl
    cases h
    exact .send n hl.1 hl.2.1 hl.2.2
  case sendAgain => split_ifs at h with hl; cases h; exact .sendAgain hl.1 hl.2
  case sendError => split_ifs at h with hl; cases h; exact .sendError hl.1 hl.2

/-- Inversion of `step`: a step takes one of the ways listed in `Step`. -/
theorem step_cases {w w' : World} {a : Act} (h : w.step a = some w') : Step w a w' := by
  cases a with
  | loop => exact loop_cases h
  | closeEvent cause =>
    simp only [step] at h
    split_ifs at h with hl
    cases h
    exact .closeEvent cause hl.1
  | runCallback alive => exact runCallback_cases h
  | inlineSend response => exact inlineSend_cases h
  | worker i => exact worker_cases h
  | handlerSend i response =>
    simp only [step, World.handlerSend] at h
    split at h
    next => cases h
    next t ht => split_ifs at h with hpc; cases h; exact .handlerSend i t response ht hpc
  | handlerReturn i =>
    simp only [step, World.handlerReturn] at h
    split at h
    next => cases h
    next t ht => split_ifs at h with hpc; cases h; exact .handlerReturn i t ht hpc
  | extSend response => cases h; exact .extSend response
  | extClose => cases h; exact .extClose
  | post cb =>
    simp only [step] at h
    split_ifs at h with hm
    cases h
    exact .post cb hm
  | stopPool => cases h; exact .stopPool
  | readEvent => exact kernel_cases h
  | readv n => exact kernel_cases h
  | readvAgain => exact kernel_cases h
  | readvEof => exact kernel_cases h
  | readvError => exact kernel_cases h
  | writeEvent => exact kernel_cases h
  | send n => exact kernel_cases h
  | sendAgain => exact kernel_cases h
  | sendError => exact kernel_cases h

end World

end EchoNet.Net.PoolMachine
