import EchoNet.Protocol.MyProtocol

/-!
# Connection State and its Critical Sections

The data of `class Connection` (include/Net/Connection.h) and the pieces of its member
functions that run without interference: the bodies of the `taskMutex_` and `sendMutex_`
sections and the stretches that touch only data of the owning event loop.

Two submit callbacks drive the same code, the worker pool's
(`EchoNet.Net.PoolMachine`) and the gateway's inline one (`EchoNet.Net.InlineSubmit`);
both are built from the definitions here.
-/

namespace EchoNet.Net

open EchoNet.Lib EchoNet.Protocol

/-! ## §1 Data -/

/-- `Connection::State`. -/
inductive State where
  | connected
  | closing
  | closed
  deriving DecidableEq, Repr

/-- The data members of `Connection`.  A `Task` is its message: `run_` and `onComplete_`
are the same closures for every task.  `fd` is the descriptor recorded in `channel_`,
which outlives the close; `afd` becomes `-1` in `finishClose`.  `reading` and `writing`
are the `EPOLLIN` and `EPOLLOUT` bits of the channel. -/
structure Connection where
  fd : Int
  afd : Int
  state : State
  peerReadClosed : Bool
  pendingSendCallbacks : Nat
  inBuffer : Bytes
  outBuffer : Bytes
  pendingTasks : List MyMessage
  taskRunning : Bool
  closeCallbackPending : Bool
  sendQueue : List Bytes
  reading : Bool
  writing : Bool
  deriving DecidableEq, Repr

namespace Connection

/-- A connection on `fd` right after `init` and `updateChannel(channel, EPOLLIN)`. -/
def create (fd : Int) : Connection where
  fd := fd
  afd := fd
  state := .connected
  peerReadClosed := false
  pendingSendCallbacks := 0
  inBuffer := []
  outBuffer := []
  pendingTasks := []
  taskRunning := false
  closeCallbackPending := false
  sendQueue := []
  reading := true
  writing := false

/-- `isConnected`. -/
def isConnected (c : Connection) : Bool := c.state = .connected

@[simp] theorem isConnected_iff {c : Connection} : c.isConnected = true ↔ c.state = .connected := by
  simp [isConnected]

@[simp] theorem isConnected_eq_false_iff {c : Connection} :
    c.isConnected = false ↔ c.state ≠ .connected := by
  simp [isConnected]

/-- `HIGH_WATER_MARK`: 64 MiB. -/
def highWaterMark : Nat := 64 * 1024 * 1024

/-! ## §2 Task scheduling -/

/-- The `taskMutex_` section of `enqueueTask`: the new state and the task to submit. -/
def enqueueTask (c : Connection) (task : MyMessage) : Connection × Option MyMessage :=
  match c.taskRunning, c.pendingTasks ++ [task] with
  | false, next :: rest => ({ c with taskRunning := true, pendingTasks := rest }, some next)
  | _, queue => ({ c with pendingTasks := queue }, none)

/-- What `onTaskComplete` does after its critical section: submit the next task, post the
deferred close callback, or post a drain check. -/
inductive Completion where
  | submit (next : MyMessage)
  | finalize
  | check
  deriving DecidableEq, Repr

/-- The `taskMutex_` section of `onTaskComplete`. -/
def onTaskComplete (c : Connection) : Connection × Completion :=
  if c.state ≠ .connected then
    if c.closeCallbackPending then
      ({ c with pendingTasks := [], taskRunning := false, closeCallbackPending := false },
        .finalize)
    else ({ c with pendingTasks := [], taskRunning := false }, .check)
  else
    match c.pendingTasks with
    | [] => ({ c with taskRunning := false }, .check)
    | next :: rest => ({ c with pendingTasks := rest, taskRunning := true }, .submit next)

/-! ## §3 Closing -/

/-- The `taskMutex_` section of `handleClose`; the flag is `deferFinalClose`. -/
def closeTasks (c : Connection) : Connection × Bool :=
  ({ c with pendingTasks := [], closeCallbackPending := c.taskRunning }, c.taskRunning)

/-- The rest of `handleClose` up to the decision: the queued responses and both buffers
are discarded. -/
def closeBuffers (c : Connection) : Connection :=
  { c with sendQueue := [], inBuffer := [], outBuffer := [] }

/-- Condition one of `maybeFinishAfterPeerEof`, read under `taskMutex_`. -/
def tasksDrained (c : Connection) : Bool := !c.taskRunning && c.pendingTasks.isEmpty

/-- Conditions three and four of `maybeFinishAfterPeerEof`. -/
def outputDrained (c : Connection) : Bool := c.sendQueue.isEmpty && c.outBuffer.isEmpty

/-- `finishClose`, without the `::close` of the descriptor. -/
def finishClose (c : Connection) : Connection :=
  if c.state = .closed then c else { c with state := .closed, afd := -1 }

/-! ## §4 Output -/

/-- `flushSendQueue`: the new state, and whether the high water mark was exceeded. -/
def flushSendQueue (c : Connection) : Connection × Bool :=
  if c.state ≠ .connected then (c, false)
  else
    let c := { c with outBuffer := c.outBuffer ++ c.sendQueue.flatten, sendQueue := [] }
    if highWaterMark < c.outBuffer.length then (c, true)
    else if c.outBuffer = [] then (c, false)
    else ({ c with writing := true }, false)

/-- The callback `sendResponse` posts, up to its final drain check: end the wait count,
and while connected encode, queue and flush.  The flag is the high water one. -/
def sendCallback (c : Connection) (response : MyMessage) : Connection × Bool :=
  let c := { c with pendingSendCallbacks := c.pendingSendCallbacks - 1 }
  if c.state ≠ .connected then (c, false)
  else flushSendQueue { c with sendQueue := c.sendQueue ++ [encodeMessage response] }

/-! ## §5 What the sections change -/

theorem enqueueTask_of_running {c : Connection} (h : c.taskRunning = true) (task : MyMessage) :
    c.enqueueTask task = ({ c with pendingTasks := c.pendingTasks ++ [task] }, none) := by
  simp [enqueueTask, h]

/-- An idle connection with an empty queue submits the new task at once. -/
theorem onTaskComplete_next {c : Connection} {next : MyMessage} {rest : List MyMessage}
    (hc : c.state = .connected) (hq : c.pendingTasks = next :: rest) :
    c.onTaskComplete =
      ({ c with pendingTasks := rest, taskRunning := true }, .submit next) := by
  simp [onTaskComplete, hc, hq]

theorem onTaskComplete_last {c : Connection} (hc : c.state = .connected)
    (hq : c.pendingTasks = []) :
    c.onTaskComplete = ({ c with taskRunning := false }, .check) := by
  simp [onTaskComplete, hc, hq]

/-- A completion that finds the close deferred claims it. -/
theorem onTaskComplete_finalize {c : Connection} (hc : c.state ≠ .connected)
    (hp : c.closeCallbackPending = true) :
    c.onTaskComplete =
      ({ c with pendingTasks := [], taskRunning := false, closeCallbackPending := false },
        .finalize) := by
  simp [onTaskComplete, hc, hp]

theorem onTaskComplete_closed {c : Connection} (hc : c.state ≠ .connected)
    (hp : c.closeCallbackPending = false) :
    c.onTaskComplete = ({ c with pendingTasks := [], taskRunning := false }, .check) := by
  simp [onTaskComplete, hc, hp]

theorem sendCallback_of_not_connected {c : Connection} (h : c.state ≠ .connected)
    (response : MyMessage) :
    c.sendCallback response =
      ({ c with pendingSendCallbacks := c.pendingSendCallbacks - 1 }, false) := by
  simp [sendCallback, h]

/-- While connected, with nothing left in `sendQueue_`, the callback appends exactly the
frame of its response to `outBuffer_` and asks for `EPOLLOUT`, unless that exceeds the
high water mark. -/
theorem sendCallback_of_connected {c : Connection} (h : c.state = .connected)
    (hq : c.sendQueue = []) (response : MyMessage) :
    c.sendCallback response =
      if highWaterMark < (c.outBuffer ++ encodeMessage response).length then
        ({ c with pendingSendCallbacks := c.pendingSendCallbacks - 1
                  outBuffer := c.outBuffer ++ encodeMessage response }, true)
      else
        ({ c with pendingSendCallbacks := c.pendingSendCallbacks - 1
                  outBuffer := c.outBuffer ++ encodeMessage response
                  writing := true }, false) := by
  simp [sendCallback, flushSendQueue, h, hq, encodeMessage_ne_nil]

end Connection

end EchoNet.Net
