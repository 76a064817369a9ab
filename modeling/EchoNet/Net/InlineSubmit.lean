import EchoNet.Net.HalfClose

/-!
# The Outbound Connections of the Gateway

src/src/gateway_main.cpp gives its connections to the backends a submit callback that runs
the task and its completion on the loop thread, inside the parse loop of `read`:
`t.run_(); t.onComplete_();`.  Everything else is the code of `EchoNet.Net.PoolMachine`.

With the worker pool the drain check of a completed task is queued behind `read`; here it
is made in the middle of it, with the following frames still in `inBuffer_`.  `EofSafe` is
the condition under which that does no harm.

## Main result

`outbound_complete_iff`: nothing is lost before the end of file, and after it every frame is
handled before the connection closes in every continuation exactly when the read that sees
the end of file is `EofSafe`.
-/

namespace EchoNet.Net.InlineSubmit

open EchoNet.Lib EchoNet.Protocol

open EchoNet.Net.PoolMachine (World Act LoopPc Return Callback Undisturbed TaskInv)

/-! ## §1 The machine -/

/-- A freshly connected backend that will send `stream` and then close its sending side.
`updateConnection` is not called for it, so `connections_` does not hold it. -/
def outbound (fd : Int) (stream : Bytes) : World :=
  { World.init fd stream with inConnections := false }

/-- The submit callback: `run_` with its test of `isConnected`, then `onComplete_`. -/
def runInline (w : World) (msg : MyMessage) : World :=
  let log := { w.log with submitted := w.log.submitted ++ [msg] }
  if w.conn.isConnected then
    { w with loop := .completing, log := { log with started := log.started ++ [msg] } }
  else { w with loop := .completing, log := log }

theorem runInline_of_connected {w : World} (hc : w.conn.state = .connected) (msg : MyMessage) :
    runInline w msg = { w with
      loop := .completing
      log := { w.log with
        submitted := w.log.submitted ++ [msg], started := w.log.started ++ [msg] } } := by
  simp [runInline, hc]

/-- One step.  There is no worker, `EPOLLERR` is the only event that closes the connection
on its own, and `GatewayState::backends` keeps the connection alive while it is connected. -/
def step (w : World) : Act → Option World
  | .loop =>
    match w.loop with
    | .submitting msg => some (runInline w msg)
    | _ => w.loopStep
  | .closeEvent cause =>
    if w.loop = .idle ∧ w.inChannels = true ∧ cause = .errorEvent then
      some { w with loop := .closeCas .toLoop }
    else none
  | .runCallback alive =>
    if alive = true ∨ w.conn.state ≠ .connected then w.runCallback alive else none
  | .worker _ | .handlerSend _ _ | .handlerReturn _ | .stopPool => none
  | act => w.step act

/-- Everything a step can do. -/
theorem step_cases {w w' : World} {a : Act} (h : step w a = some w') :
    (∃ msg, a = .loop ∧ w.loop = .submitting msg ∧ w' = runInline w msg) ∨
    (∃ cause, a = .closeEvent cause) ∨
    (World.Step w a w' ∧ (a = .loop → ∀ msg, w.loop ≠ .submitting msg) ∧ a ≠ .stopPool) := by
  cases a with
  | loop =>
    simp only [step] at h
    split at h
    next msg hl =>
      cases h
      exact Or.inl ⟨msg, rfl, hl, rfl⟩
    next hl =>
      exact Or.inr (Or.inr ⟨World.step_cases (a := .loop) h, fun _ msg he => hl msg he, by simp⟩)
  | closeEvent cause => exact Or.inr (Or.inl ⟨cause, rfl⟩)
  | runCallback alive =>
    simp only [step] at h
    split_ifs at h with ha
    exact Or.inr (Or.inr ⟨World.step_cases (a := .runCallback alive) h, by simp, by simp⟩)
  | worker i => cases h
  | handlerSend i response => cases h
  | handlerReturn i => cases h
  | stopPool => cases h
  | _ => exact Or.inr (Or.inr ⟨World.step_cases h, by simp, by simp⟩)

/-! ## §2 Where the frames are -/

/-- The return goes back into `read`. -/
def inReadRet : Return → Bool
  | .toParse => true
  | .toLoop | .toFinish => false

/-- The loop thread is inside `read`, or in a drain check made from there. -/
def inRead : LoopPc → Bool
  | .reading | .parsing | .enqueueing _ | .submitting _ | .completing => true
  | .finishTasks ret | .finishSends ret | .finishOutput ret | .closeCas ret => inReadRet ret
  | _ => false

attribute [simp] inReadRet
attribute [simp] inRead.eq_1 inRead.eq_2 inRead.eq_3 inRead.eq_4 inRead.eq_5 inRead.eq_6 inRead.eq_7
  inRead.eq_8 inRead.eq_9 inRead.eq_10

@[simp] theorem inRead_pc (ret : Return) : inRead ret.pc = inReadRet ret := by
  cases ret <;> rfl

@[simp] theorem returns_pc (ret : Return) : ret.pc.returns ≠ some .toFinish := by
  cases ret <;> simp [Return.pc]

@[simp] theorem pc_ne_reading (ret : Return) : ret.pc ≠ .reading := by
  cases ret <;> simp [Return.pc]

/-- The messages that have left `inBuffer_`, in stream order. -/
def scheduled (w : World) : List MyMessage :=
  w.log.started ++ w.loop.submits ++ w.loop.enqueues

/-- Nothing but the running task and send callbacks is queued anywhere. -/
structure QueueInv (w : World) : Prop where
  tasks : w.tasks = []
  pendingTasks : w.conn.pendingTasks = []
  flushed : w.conn.sendQueue = []
  posting : ∀ cb ∈ w.posting, cb.isSend = true
  taskQueue : ∀ cb ∈ w.taskQueue, cb.isSend = true

/-- The program points of an undisturbed run: only a drain check after the end of file
closes the connection. -/
structure PathInv (w : World) : Prop where
  returns : w.loop.returns ≠ some .toFinish
  closing : w.loop.closes = true → w.conn.state ≠ .connected
  reads : w.loop = .reading → w.conn.state = .connected ∧ w.conn.peerReadClosed = false
  emptied : w.conn.state ≠ .connected → w.loop.inHandleClose = false → w.conn.inBuffer = []
  drained : 1 ≤ w.loop.drained → w.conn.state = .connected ∧ w.conn.peerReadClosed = true
  ended : w.conn.state ≠ .connected → w.conn.peerReadClosed = true
  eof : w.conn.peerReadClosed = true → w.toRecv = []

/-- The frames of the stream have been scheduled or are still in front of the parser. -/
def FlowInv (s : Stream) (w : World) : Prop :=
  w.conn.state = .connected → ∃ rest, scheduled w ++ rest = s.frames ∧
    (w.conn.peerReadClosed = false ∨ inRead w.loop = true →
      w.conn.inBuffer ++ w.toRecv = encodeAll rest ++ s.tail) ∧
    (w.conn.peerReadClosed = true → inRead w.loop = false → rest = [])

/-- What holds in every undisturbed run. -/
structure InlineInv (s : Stream) (w : World) : Prop where
  task : TaskInv w
  queue : QueueInv w
  path : PathInv w
  flow : FlowInv s w

theorem InlineInv.init (fd : Int) (s : Stream) :
    InlineInv s (outbound fd (encodeAll s.frames ++ s.tail)) := by
  constructor
  · constructor <;> simp [outbound, World.init, Connection.create]
  · constructor <;> simp [outbound, World.init, Connection.create]
  · constructor <;> simp [outbound, World.init, Connection.create]
  · intro _
    refine ⟨s.frames, ?_, ?_, ?_⟩
    · simp [scheduled, outbound, World.init]
    · simp [outbound, World.init, Connection.create]
    · simp [outbound, World.init, Connection.create]

/-- The rest of the stream, with what the parser makes of it. -/
theorem InlineInv.parse_cases {s : Stream} {w : World} (hi : InlineInv s w)
    (hl : w.loop = .parsing) :
    (∃ m ms rest, w.conn.state = .connected ∧ parse w.conn.inBuffer = .ok m rest ∧
      scheduled w ++ m :: ms = s.frames ∧ rest ++ w.toRecv = encodeAll ms ++ s.tail) ∨
    parse w.conn.inBuffer = .needMore := by
  by_cases hc : w.conn.state = .connected
  · obtain ⟨frames, hsched, hbytes, -⟩ := hi.flow hc
    have hfits : ∀ m ∈ frames, m.Fits := fun m hm =>
      s.fits m (hsched ▸ List.mem_append_right _ hm)
    obtain ⟨m, ms, rest, rfl, hok, hrest⟩ | hmore :=
      parse_stream_part hfits s.incomplete (hbytes (Or.inr (by simp [hl])))
    · exact Or.inl ⟨m, ms, rest, hc, hok, hsched, hrest⟩
    · exact Or.inr hmore
  · rw [hi.path.emptied hc (by simp [hl])]
    exact Or.inr (by decide)

/-- The parser reports no error. -/
theorem InlineInv.parse_ne_error {s : Stream} {w : World} (hi : InlineInv s w)
    (hl : w.loop = .parsing) (rest : Bytes) : parse w.conn.inBuffer ≠ .error rest := by
  obtain ⟨m, ms, rest', -, hok, -⟩ | hmore := hi.parse_cases hl
  · simp [hok]
  · simp [hmore]

/-- A message is enqueued only when no task is running. -/
theorem InlineInv.idle_of_enqueueing {s : Stream} {w : World} (hi : InlineInv s w)
    {msg : MyMessage} (hl : w.loop = .enqueueing msg) : w.conn.taskRunning = false := by
  have htok := hi.task.token
  cases hr : w.conn.taskRunning with
  | false => rfl
  | true => simp [hl, hi.queue.tasks, hr] at htok

/-! ## §3 One step -/

/-- What a step of an undisturbed run can be, apart from the submit callback. -/
theorem InlineInv.step_ind {s : Stream} {w w' : World} {a : Act} {P : World → Prop}
    (hi : InlineInv s w) (hG : Undisturbed w a) (h : step w a = some w')
    (hinline : ∀ msg, w.loop = .submitting msg → w.conn.state = .connected → P { w with
      loop := .completing
      log := { w.log with
        submitted := w.log.submitted ++ [msg], started := w.log.started ++ [msg] } })
    (hother : World.Step w a w' → (∀ msg, a = .loop → w.loop ≠ .submitting msg) → P w') :
    P w' := by
  obtain ⟨msg, rfl, hl, rfl⟩ | ⟨cause, rfl⟩ | ⟨hstep, hsub, -⟩ := step_cases h
  · have hc := hi.task.scheduling (by simp [hl])
    rw [runInline_of_connected hc]
    exact hinline msg hl hc
  · exact hG.elim
  · exact hother hstep fun msg ha => hsub ha msg

theorem InlineInv.step_task {s : Stream} {w w' : World} {a : Act} (hi : InlineInv s w)
    (hG : Undisturbed w a) (h : step w a = some w') : TaskInv w' := by
  refine hi.step_ind hG h (fun msg hl hc => ?_) (fun hstep _ => hi.task.step hstep)
  obtain ⟨htok, hqueued, -⟩ := hi.task
  exact ⟨by simpa [hl] using htok, hqueued, fun _ => hc⟩

/-- A step of the loop thread that queues nothing. -/
private theorem QueueInv.congr {w w' : World} (hi : QueueInv w) (htasks : w'.tasks = w.tasks)
    (hpending : w'.conn.pendingTasks = w.conn.pendingTasks)
    (hflushed : w'.conn.sendQueue = w.conn.sendQueue) (hposting : w'.posting = w.posting)
    (hqueue : ∀ cb ∈ w'.taskQueue, cb ∈ w.taskQueue) : QueueInv w' :=
  ⟨htasks.trans hi.tasks, hpending.trans hi.pendingTasks, hflushed.trans hi.flushed,
    hposting ▸ hi.posting, fun cb hcb => hi.taskQueue cb (hqueue cb hcb)⟩

/-- No worker has a task. -/
private theorem QueueInv.no_task {w : World} (hi : QueueInv w) {i : Nat} {t : PoolMachine.Task} :
    w.tasks[i]? ≠ some t := by
  simp [hi.tasks]

theorem InlineInv.step_queue {s : Stream} {w w' : World} {a : Act} (hi : InlineInv s w)
    (hG : Undisturbed w a) (h : step w a = some w') : QueueInv w' := by
  have ⟨htasks, hpending, hflushed, hposting, hqueue⟩ := hi.queue
  refine hi.step_ind hG h (fun _ _ _ => ⟨htasks, hpending, hflushed, hposting, hqueue⟩)
    (fun hstep hsub => ?_)
  clear h
  cases hstep with
  | runSend origin response rest hl hq =>
    refine PoolMachine.of_runSend hflushed (hG response (by simp [hq, Callback.response]))
        (fun hc => ?_) (fun hc => ?_) <;>
      exact ⟨htasks, hpending, hflushed, hposting, fun cb hcb => hqueue cb (by simp [hq, hcb])⟩
  | inlineSend response hl =>
    refine PoolMachine.of_runSend hflushed hG (fun hc => ?_) (fun hc => ?_) <;>
      exact ⟨htasks, hpending, hflushed, hposting, hqueue⟩
  | submitAccepted msg hl hp => exact absurd hl (hsub msg rfl)
  | enqueueBehind msg hl hr => simp [hi.idle_of_enqueueing hl] at hr
  | removed ret fd hl =>
    obtain ⟨afd, st, r, wr, ch, co, he, hst⟩ := PoolMachine.removeConnection_eq w fd
    rw [he]
    exact ⟨htasks, hpending, hflushed, hposting, hqueue⟩
  | extClose => exact hG.elim
  | post cb hm =>
    refine ⟨htasks, hpending, hflushed, fun x hx => hposting x (List.mem_of_mem_erase hx), ?_⟩
    intro x hx
    rcases List.mem_append.mp hx with hold | hnew
    · exact hqueue x hold
    · exact List.mem_singleton.mp hnew ▸ hposting cb hm
  | extSend response =>
    refine ⟨htasks, hpending, hflushed, fun cb hcb => ?_, hqueue⟩
    rcases List.mem_append.mp hcb with hold | hnew
    · exact hposting cb hold
    · exact List.mem_singleton.mp hnew ▸ rfl
  | enqueueFirst msg next rest hl hr hq =>
    rw [hpending, List.nil_append, List.cons.injEq] at hq
    exact ⟨htasks, hq.2.symm, hflushed, hposting, hqueue⟩
  | completeNext next rest hl hc hq => simp [hpending] at hq
  | completeFinalize hl hc hp => exact ⟨htasks, rfl, hflushed, hposting, hqueue⟩
  | completeClosed hl hc hp => exact ⟨htasks, rfl, hflushed, hposting, hqueue⟩
  | closeTasks ret hl => exact ⟨htasks, rfl, hflushed, hposting, hqueue⟩
  | closeDefer ret hl => exact ⟨htasks, hpending, rfl, hposting, hqueue⟩
  | closeNow ret hl => exact ⟨htasks, hpending, rfl, hposting, hqueue⟩
  | runClose rest hl hq => exact hi.queue.congr rfl rfl rfl rfl (fun _ hcb => hq ▸ .tail _ hcb)
  | runFinalize rest hl hq => exact hi.queue.congr rfl rfl rfl rfl (fun _ hcb => hq ▸ .tail _ hcb)
  | runCheck rest hl hq => exact hi.queue.congr rfl rfl rfl rfl (fun _ hcb => hq ▸ .tail _ hcb)
  | runExpired cb rest hl hq hh =>
    exact hi.queue.congr rfl rfl rfl rfl (fun _ hcb => hq ▸ .tail _ hcb)
  | taskChecked i t hti => exact absurd hti hi.queue.no_task
  | taskSkipped i t hti => exact absurd hti hi.queue.no_task
  | handlerStart i t hti => exact absurd hti hi.queue.no_task
  | handlerPost i t response hti => exact absurd hti hi.queue.no_task
  | taskNext i t next rest hti => exact absurd hti hi.queue.no_task
  | taskLast i t hti => exact absurd hti hi.queue.no_task
  | taskFinalize i t hti => exact absurd hti hi.queue.no_task
  | taskClosed i t hti => exact absurd hti hi.queue.no_task
  | nextAccepted i t next hti => exact absurd hti hi.queue.no_task
  | nextRejected i t next hti => exact absurd hti hi.queue.no_task
  | handlerSend i t response hti => exact absurd hti hi.queue.no_task
  | handlerReturn i t hti => exact absurd hti hi.queue.no_task
  | _ => exact hi.queue.congr rfl rfl rfl rfl (fun _ hcb => hcb)

/-- A program point about which `PathInv` says nothing. -/
def Plain (pc : LoopPc) : Prop :=
  pc.returns ≠ some .toFinish ∧ pc.closes = false ∧ pc.inHandleClose = false ∧ pc.drained = 0 ∧
    pc ≠ .reading

@[simp] theorem plain_pc (ret : Return) : Plain ret.pc := by
  cases ret <;> simp [Plain, Return.pc]

/-- A step that touches nothing of `PathInv`, or only goes on to a plain program point. -/
private theorem PathInv.congr {w w' : World} (hi : PathInv w)
    (hstate : w'.conn.state = w.conn.state)
    (hpeer : w'.conn.peerReadClosed = w.conn.peerReadClosed) (hrecv : w'.toRecv = w.toRecv)
    (hbuf : w.conn.state ≠ .connected → w.conn.inBuffer = [] → w'.conn.inBuffer = [])
    (hloop : w'.loop = w.loop ∨ w.loop.inHandleClose = false ∧ Plain w'.loop) : PathInv w' := by
  have ⟨hreturns, hclosing, hreads, hemptied, hdrained, hended, heof⟩ := hi
  rcases hloop with hl | ⟨hh, hret, hcl, hh', hdr, hrd⟩
  · constructor
    · rwa [hl]
    · rwa [hl, hstate]
    · rwa [hl, hstate, hpeer]
    · rw [hl, hstate]
      exact fun hc hh => hbuf hc (hemptied hc hh)
    · rwa [hl, hstate, hpeer]
    · rwa [hstate, hpeer]
    · rwa [hpeer, hrecv]
  · constructor
    · exact hret
    · simp [hcl]
    · exact fun h => absurd h hrd
    · rw [hstate]
      exact fun hc _ => hbuf hc (hemptied hc hh)
    · simp [hdr]
    · rwa [hstate, hpeer]
    · rwa [hpeer, hrecv]

theorem InlineInv.step_path {s : Stream} {w w' : World} {a : Act} (hi : InlineInv s w)
    (hG : Undisturbed w a) (h : step w a = some w') : PathInv w' := by
  have ⟨hreturns, hclosing, hreads, hemptied, hdrained, hended, heof⟩ := hi.path
  have hqueue := hi.queue.taskQueue
  refine hi.step_ind hG h (fun msg hl hc => ?_) (fun hstep hsub => ?_)
  · exact hi.path.congr rfl rfl rfl (fun _ he => he) (by simp [Plain, hl])
  clear h
  cases hstep with
  | runSend origin response rest hl hq =>
    refine PoolMachine.of_runSend hi.queue.flushed
      (hG response (by simp [hq, Callback.response])) (fun hc => ?_) (fun hc => ?_) <;>
      exact hi.path.congr rfl rfl rfl (fun _ he => he) (by simp [Plain, hl])
  | inlineSend response hl =>
    refine PoolMachine.of_runSend hi.queue.flushed hG (fun hc => ?_) (fun hc => ?_)
    · have hidle := hl.resolve_right (fun hne => hne hc)
      exact hi.path.congr rfl rfl rfl (fun _ he => he) (by simp [Plain, hidle])
    · exact hi.path.congr rfl rfl rfl (fun _ he => he) (Or.inl rfl)
  | parseOk msg rest hl he hc =>
    exact hi.path.congr rfl rfl rfl (fun hne => absurd hc hne) (by simp [Plain, hl])
  | parseOkClosed msg rest hl he hc =>
    have hempty := hemptied hc (by simp [hl])
    have hmore : parse [] = .needMore := by decide
    simp [hempty, hmore] at he
  | parseError rest hl he => exact absurd he (hi.parse_ne_error hl rest)
  | parseDiscard hl he hpeer =>
    exact hi.path.congr rfl rfl rfl (fun _ _ => rfl) (by simp [Plain, hl])
  | submitAccepted msg hl hp => exact absurd hl (hsub msg rfl)
  | submitRejected msg hl hp => exact absurd hl (hsub msg rfl)
  | completeFinalize hl hc hp => exact absurd (hi.task.scheduling (by simp [hl])) hc
  | runFinalize rest hl hq => simp [hq, Callback.isSend] at hqueue
  | runCheck rest hl hq => simp [hq, Callback.isSend] at hqueue
  | runClose rest hl hq => simp [hq, Callback.isSend] at hqueue
  -- the drain check, from its first finding to the CAS
  | tasksDrained ret hl hpeer hc hr hq =>
    exact ⟨by simpa [hl] using hreturns, by simp, by simp, fun hne => absurd hc hne,
      fun _ => ⟨hc, hpeer⟩, hended, heof⟩
  | sendsDrained ret hl hs =>
    have hd := hdrained (by simp [hl])
    exact ⟨by simpa [hl] using hreturns, by simp, by simp, fun hne => absurd hd.1 hne,
      fun _ => hd, hended, heof⟩
  | outputDrained ret hl hq ho =>
    have hd := hdrained (by simp [hl])
    exact ⟨by simpa [hl] using hreturns, by simp, by simp, fun hne => absurd hd.1 hne,
      fun _ => hd, hended, heof⟩
  | sendsNotDrained ret hl hn =>
    exact hi.path.congr rfl rfl rfl (fun _ he => he) (by simp [hl])
  | closeCas ret hl hc =>
    have hd := hdrained (by simp [hl])
    exact ⟨by simpa [hl] using hreturns, by simp, by simp, by simp, by simp, fun _ => hd.2, heof⟩
  | closeAgain ret hl hc => exact absurd (hdrained (by simp [hl])).1 hc
  | closeTasks ret hl =>
    have hc := hclosing (by simp [hl])
    exact ⟨by simpa [hl] using hreturns, fun _ => hc, by simp, by simp, by simp, hended, heof⟩
  | closeDefer ret hl =>
    have hc := hclosing (by simp [hl])
    exact ⟨by simp, by simp, by simp, fun _ _ => rfl, by simp, hended, heof⟩
  | closeNow ret hl =>
    have hc := hclosing (by simp [hl])
    exact ⟨by simpa [hl] using hreturns, fun _ => hc, by simp, fun _ _ => rfl, by simp, hended,
      heof⟩
  | businessClosed ret fd hl =>
    have hc := hclosing (by simp [hl])
    exact ⟨by simpa [hl] using hreturns, fun _ => hc, by simp,
      fun _ _ => hemptied hc (by simp [hl]), by simp, hended, heof⟩
  | removed ret fd hl =>
    have hc := hclosing (by simp [hl])
    obtain ⟨afd, st, r, wr, ch, co, he, hst⟩ := PoolMachine.removeConnection_eq w fd
    rw [he]
    exact ⟨by simp, by simp, by simp, fun _ _ => hemptied hc (by simp [hl]), by simp,
      fun _ => hended hc, heof⟩
  | readEvent hl hc he =>
    exact ⟨by simp, by simp, fun _ => ⟨hc, he⟩, fun hne => absurd hc hne, by simp, hended, heof⟩
  | readv n hl hpos hn =>
    have hc := (hreads hl).1
    exact ⟨hreturns, hclosing, hreads, fun hne => absurd hc hne, hdrained, hended,
      fun he => by simp [heof he]⟩
  | readvEof hl ht =>
    have hc := (hreads hl).1
    exact ⟨by simp, by simp, by simp, fun hne => absurd hc hne, by simp, fun hne => absurd hc hne,
      fun _ => ht⟩
  | extClose => exact hG.elim
  | readvError hl => exact hG.elim
  | sendError hl ho => exact hG.elim
  | closeEvent cause hl => exact hG.elim
  -- the other steps go from one plain point to another, or leave the loop thread alone
  | _ => exact hi.path.congr rfl rfl rfl (fun _ he => he) (by simp [Plain, *])

/-- The frames stay where they are. -/
private theorem FlowInv.congr {s : Stream} {w w' : World} (hi : FlowInv s w)
    (hstate : w'.conn.state = .connected → w.conn.state = .connected)
    (hpeer : w'.conn.peerReadClosed = w.conn.peerReadClosed) (hrecv : w'.toRecv = w.toRecv)
    (hbuf : w'.conn.inBuffer = w.conn.inBuffer) (hsched : scheduled w' = scheduled w)
    (hread : inRead w'.loop = inRead w.loop) : FlowInv s w' := by
  intro hc
  rw [hsched, hbuf, hpeer, hrecv, hread]
  exact hi (hstate hc)

theorem InlineInv.step_flow {s : Stream} {w w' : World} {a : Act} (hi : InlineInv s w)
    (hG : Undisturbed w a) (h : step w a = some w') : FlowInv s w' := by
  have hflow := hi.flow
  have htasks := hi.queue.tasks
  refine hi.step_ind hG h (fun msg hl hc => ?_) (fun hstep hsub => ?_)
  · exact hflow.congr id rfl rfl rfl (by simp [scheduled, hl]) (by simp [hl])
  clear h
  cases hstep with
  | runSend origin response rest hl hq =>
    refine PoolMachine.of_runSend hi.queue.flushed
      (hG response (by simp [hq, Callback.response])) (fun hc => ?_) (fun hc => ?_) <;>
      exact hflow.congr id rfl rfl rfl (by simp [scheduled, hl]) (by simp [hl])
  | inlineSend response hl =>
    refine PoolMachine.of_runSend hi.queue.flushed hG (fun hc => ?_) (fun hc => ?_)
    · have hidle := hl.resolve_right (fun hne => hne hc)
      exact hflow.congr id rfl rfl rfl (by simp [scheduled, hidle]) (by simp [hidle])
    · exact hflow.congr id rfl rfl rfl rfl rfl
  | parseOk msg rest hl he hc =>
    obtain ⟨m, ms, rest', -, hok, hsched, hrest⟩ | hmore := hi.parse_cases hl
    · rw [he] at hok
      cases hok
      refine fun _ => ⟨ms, ?_, fun _ => hrest, by simp⟩
      rw [← hsched]
      simp [scheduled, hl]
    · simp [he] at hmore
  | parseOkClosed msg rest hl he hc => exact fun hc' => absurd hc' hc
  | parseError rest hl he => exact absurd he (hi.parse_ne_error hl rest)
  | parseDiscard hl he hpeer =>
    intro hc
    obtain ⟨frames, hsched, hbytes, -⟩ := hflow hc
    have hall := hbytes (Or.inr (by simp [hl]))
    rw [hi.path.eof hpeer, List.append_nil] at hall
    have hnil : frames = [] := by
      refine frames_nil_of_needMore (t := s.tail) (fun m hm => ?_) (hall ▸ he)
      exact s.fits m (hsched ▸ List.mem_append_right _ hm)
    subst hnil
    exact ⟨[], by simpa [scheduled, hl] using hsched, by simp [hpeer], by simp⟩
  | parseNeedMore hl he hpeer =>
    intro hc
    obtain ⟨frames, hsched, hbytes, -⟩ := hflow hc
    exact ⟨frames, by simpa [scheduled, hl] using hsched, fun _ => hbytes (Or.inl hpeer),
      by simp [hpeer]⟩
  | enqueueFirst msg next rest hl hr hq =>
    rw [hi.queue.pendingTasks, List.nil_append, List.cons.injEq] at hq
    obtain ⟨rfl, -⟩ := hq
    exact hflow.congr id rfl rfl rfl (by simp [scheduled, hl]) (by simp [hl])
  | enqueueBehind msg hl hr => simp [hi.idle_of_enqueueing hl] at hr
  | submitAccepted msg hl hp => exact absurd hl (hsub msg rfl)
  | submitRejected msg hl hp => exact absurd hl (hsub msg rfl)
  | completeNext next rest hl hc hq => simp [hi.queue.pendingTasks] at hq
  | closeCas ret hl hc => exact fun hc' => by simp at hc'
  | closeTasks ret hl => exact fun hc => absurd hc (hi.path.closing (by simp [hl]))
  | closeDefer ret hl => exact fun hc => absurd hc (hi.path.closing (by simp [hl]))
  | closeNow ret hl => exact fun hc => absurd hc (hi.path.closing (by simp [hl]))
  | businessClosed ret fd hl => exact fun hc => absurd hc (hi.path.closing (by simp [hl]))
  | removed ret fd hl =>
    obtain ⟨afd, st, r, wr, ch, co, he, hst⟩ := PoolMachine.removeConnection_eq w fd
    rw [he]
    exact fun hc => absurd (hst hc) (hi.path.closing (by simp [hl]))
  | readEvent hl hc he =>
    intro _
    obtain ⟨frames, hsched, hbytes, -⟩ := hflow hc
    exact ⟨frames, by simpa [scheduled, hl] using hsched, fun _ => hbytes (Or.inl he), by simp⟩
  | readv n hl hpos hn =>
    intro hc
    obtain ⟨frames, hsched, hbytes, hnil⟩ := hflow hc
    refine ⟨frames, hsched, fun hor => ?_, hnil⟩
    rw [← hbytes hor]
    simp
  | readvEof hl ht =>
    intro hc
    obtain ⟨frames, hsched, hbytes, -⟩ := hflow hc
    exact ⟨frames, by simpa [scheduled, hl] using hsched,
      fun _ => hbytes (Or.inr (by simp [hl])), by simp⟩
  | handlerStart i t hti hpc => simp [htasks] at hti
  | extClose => exact hG.elim
  | readvError hl => exact hG.elim
  | sendError hl ho => exact hG.elim
  | closeEvent cause hl => exact hG.elim
  | runClose rest hl hq => exact absurd (hi.queue.taskQueue .close (by simp [hq])) (by decide)
  | runFinalize rest hl hq =>
    exact absurd (hi.queue.taskQueue .finalize (by simp [hq])) (by decide)
  | completeFinalize hl hc hp => exact absurd (hi.task.scheduling (by simp [hl])) hc
  | _ => exact hflow.congr id rfl rfl rfl (by simp_all [scheduled]) (by simp_all)

theorem InlineInv.step {s : Stream} {w w' : World} {a : Act} (hi : InlineInv s w)
    (hG : Undisturbed w a) (h : InlineSubmit.step w a = some w') : InlineInv s w' :=
  ⟨hi.step_task hG h, hi.step_queue hG h, hi.step_path hG h, hi.step_flow hG h⟩

/-! ## §4 After the end of file -/

/-- At most one complete frame is in front of the parser. -/
def atMostOneFrame (buf : Bytes) : Bool :=
  match parse buf with
  | .ok _ rest =>
    match parse rest with
    | .ok _ _ => false
    | .needMore | .error _ => true
  | .needMore | .error _ => true

/-- The test counts the frames of a stream whose bytes have all arrived. -/
theorem atMostOneFrame_iff {frames : List MyMessage} {tail : Bytes}
    (hfits : ∀ m ∈ frames, m.Fits) (htail : parse tail = .needMore) :
    atMostOneFrame (encodeAll frames ++ tail) = true ↔ frames.length ≤ 1 := by
  have hstep : ∀ m ∈ frames, ∀ rest, parse (encodeMessage m ++ rest) = .ok m rest :=
    fun m hm rest => parse_encodeMessage m (hfits m hm) rest
  unfold atMostOneFrame
  match frames, hstep with
  | [], _ => simp [htail]
  | [m], hstep => simp [hstep m (by simp), htail]
  | m :: m' :: ms, hstep => simp [hstep m (by simp), hstep m' (by simp)]

/-- Output that the drain check will find, and that no step of `read` can finish. -/
def OutputPending (c : Connection) : Prop :=
  c.pendingSendCallbacks ≠ 0 ∨ c.outBuffer ≠ []

/-- The end of file does no harm: at most one complete frame is left to parse, or the drain
check will find output on its way. -/
def EofSafe (w : World) : Prop :=
  atMostOneFrame w.conn.inBuffer = true ∨ OutputPending w.conn

/-- What keeps the frames `rest` from being discarded, at each point of a `read` that has
seen the end of file. -/
def Guarded (w : World) (rest : List MyMessage) : Prop :=
  match w.loop with
  | .parsing => rest.length ≤ 1 ∨ OutputPending w.conn
  | .enqueueing _ | .submitting _ | .completing | .finishTasks _ | .finishSends _ =>
    rest = [] ∨ OutputPending w.conn
  | .finishOutput _ => rest = [] ∨ w.conn.outBuffer ≠ []
  | .closeCas _ => rest = []
  | _ => True

theorem guarded_nil (w : World) : Guarded w [] := by
  unfold Guarded
  split <;> simp

/-- A check that has found something pending lets the parse loop go on. -/
theorem guarded_of_pending {w : World} (hp : OutputPending w.conn) (ret : Return)
    (rest : List MyMessage) : Guarded { w with loop := ret.pc } rest := by
  cases ret <;> simp [Guarded, Return.pc, hp]

/-- From a safe end of file on: the frames in front of the parser are guarded, and the
connection closes after the last one. -/
structure SafeInv (s : Stream) (w : World) : Prop where
  ended : w.conn.peerReadClosed = true
  guarded : w.conn.state = .connected → ∀ rest, scheduled w ++ rest = s.frames → Guarded w rest
  complete : w.conn.state ≠ .connected → w.log.started = s.frames

theorem SafeInv.of_eof {s : Stream} {w w' : World} (hi : InlineInv s w) (hsafe : EofSafe w)
    (h : InlineSubmit.step w .readvEof = some w') : SafeInv s w' := by
  obtain ⟨msg, ha, -⟩ | ⟨cause, ha⟩ | ⟨hstep, -, -⟩ := step_cases h
  · cases ha
  · cases ha
  cases hstep with
  | readvEof hl ht =>
    have hc := (hi.path.reads hl).1
    refine ⟨rfl, fun _ rest hrest => ?_, fun hne => absurd hc hne⟩
    obtain ⟨frames, hsched, hbytes, -⟩ := hi.flow hc
    have hsame : rest = frames := by
      have hrest' : scheduled w ++ rest = s.frames := by
        simpa [scheduled, hl] using hrest
      exact List.append_cancel_left (hrest'.trans hsched.symm)
    subst hsame
    have hbuf := hbytes (Or.inr (by simp [hl]))
    rw [ht, List.append_nil] at hbuf
    refine hsafe.imp (fun hone => ?_) id
    rw [hbuf] at hone
    exact (atMostOneFrame_iff (fun m hm => s.fits m (hsched ▸ List.mem_append_right _ hm))
      s.incomplete).mp hone

/-- No frame is left outside of `read`. -/
theorem InlineInv.rest_nil {s : Stream} {w : World} (hi : InlineInv s w)
    (hc : w.conn.state = .connected) (hpeer : w.conn.peerReadClosed = true)
    (hread : inRead w.loop = false) {rest : List MyMessage}
    (hrest : scheduled w ++ rest = s.frames) : rest = [] := by
  obtain ⟨frames, hsched, -, hnil⟩ := hi.flow hc
  rw [hnil hpeer hread] at hsched
  exact List.append_cancel_left (hrest.trans hsched.symm)

/-- Nothing the guard reads has changed. -/
private theorem SafeInv.congr {s : Stream} {w w' : World} (hi : SafeInv s w)
    (hpeer : w'.conn.peerReadClosed = w.conn.peerReadClosed)
    (hstate : w'.conn.state = w.conn.state) (hstarted : w'.log.started = w.log.started)
    (hloop : w'.loop = w.loop) (hout : w'.conn.outBuffer = w.conn.outBuffer)
    (hpend : w.conn.pendingSendCallbacks ≠ 0 → w'.conn.pendingSendCallbacks ≠ 0) :
    SafeInv s w' := by
  refine ⟨hpeer.trans hi.ended, fun hc rest hrest => ?_, fun hc => ?_⟩
  · have hg := hi.guarded (hstate ▸ hc) rest (by simpa [scheduled, hloop, hstarted] using hrest)
    have himp : OutputPending w.conn → OutputPending w'.conn := by
      unfold OutputPending
      rw [hout]
      exact Or.imp_left hpend
    unfold Guarded at hg ⊢
    rw [hloop]
    split at hg
    · exact hg.imp_right himp
    all_goals first | exact hg.imp_right himp | exact hout ▸ hg | exact hg
  · rw [hstarted]
    exact hi.complete (hstate ▸ hc)

/-- Outside of `read` there is nothing left to guard. -/
private theorem SafeInv.of_outside {s : Stream} {w : World} (hi : InlineInv s w)
    (hpeer : w.conn.peerReadClosed = true) (hread : inRead w.loop = false)
    (hcomplete : w.conn.state ≠ .connected → w.log.started = s.frames) : SafeInv s w := by
  refine ⟨hpeer, fun hc rest hrest => ?_, hcomplete⟩
  rw [hi.rest_nil hc hpeer hread hrest]
  exact guarded_nil w

theorem SafeInv.step {s : Stream} {w w' : World} {a : Act} (hi : InlineInv s w)
    (hsafe : SafeInv s w) (hG : Undisturbed w a) (h : InlineSubmit.step w a = some w') :
    SafeInv s w' := by
  have hi' := hi.step hG h
  have ⟨hended, hguarded, hcomplete⟩ := hsafe
  have htasks := hi.queue.tasks
  revert hi'
  refine hi.step_ind (P := fun v => InlineInv s v → SafeInv s v) hG h
    (fun msg hl hc _ => ?_) (fun hstep hsub hi' => ?_)
  · refine ⟨hended, fun _ rest hrest => ?_, fun hne => absurd hc hne⟩
    have hg := hguarded hc rest (by simpa [scheduled, hl] using hrest)
    simpa [Guarded, hl, OutputPending] using hg
  clear h
  cases hstep with
  | runSend origin response rest hl hq =>
    revert hi'
    refine PoolMachine.of_runSend (P := fun v => InlineInv s v → SafeInv s v) hi.queue.flushed
      (hG response (by simp [hq, Callback.response])) (fun hc hi' => ?_) (fun hc hi' => ?_)
    · exact .of_outside hi' hended rfl hcomplete
    · exact .of_outside hi' hended (by simp [hl]) hcomplete
  | inlineSend response hl =>
    revert hi'
    refine PoolMachine.of_runSend (P := fun v => InlineInv s v → SafeInv s v) hi.queue.flushed hG
      (fun hc hi' => ?_) (fun hc hi' => ?_)
    · exact .of_outside hi' hended rfl hcomplete
    · exact ⟨hended, fun hc' => absurd hc' hc, hcomplete⟩
  | parseOk msg rest hl he hc =>
    refine ⟨hended, fun _ frames hrest => ?_, fun hne => absurd hc hne⟩
    have hg := hguarded hc (msg :: frames) (by simpa [scheduled, hl] using hrest)
    simpa [Guarded, hl, OutputPending] using hg
  | parseOkClosed msg rest hl he hc => exact .of_outside hi' hended rfl hcomplete
  | parseError rest hl he => exact absurd he (hi.parse_ne_error hl rest)
  | parseDiscard hl he hpeer => exact .of_outside hi' hended rfl hcomplete
  | parseNeedMore hl he hpeer => simp [hended] at hpeer
  | enqueueFirst msg next rest hl hr hq =>
    have hc := hi.task.scheduling (by simp [hl])
    rw [hi.queue.pendingTasks, List.nil_append, List.cons.injEq] at hq
    obtain ⟨rfl, -⟩ := hq
    refine ⟨hended, fun _ frames hrest => ?_, fun hne => absurd hc hne⟩
    have hg := hguarded hc frames (by simpa [scheduled, hl] using hrest)
    simpa [Guarded, hl, OutputPending] using hg
  | enqueueBehind msg hl hr => simp [hi.idle_of_enqueueing hl] at hr
  | submitAccepted msg hl hp => exact absurd hl (hsub msg rfl)
  | submitRejected msg hl hp => exact absurd hl (hsub msg rfl)
  | completeNext next rest hl hc hq => simp [hi.queue.pendingTasks] at hq
  | completeLast hl hc hq =>
    refine ⟨hended, fun _ frames hrest => ?_, fun hne => absurd hc hne⟩
    have hg := hguarded hc frames (by simpa [scheduled, hl] using hrest)
    simpa [Guarded, hl, OutputPending] using hg
  | completeFinalize hl hc hp => exact absurd (hi.task.scheduling (by simp [hl])) hc
  | completeClosed hl hc hp => exact absurd (hi.task.scheduling (by simp [hl])) hc
  -- the drain check passes only what is not guarded by output
  | tasksDrained ret hl hpeer hc hr hq =>
    refine ⟨hended, fun _ frames hrest => ?_, fun hne => absurd hc hne⟩
    have hg := hguarded hc frames (by simpa [scheduled, hl] using hrest)
    simpa [Guarded, hl, OutputPending] using hg
  | tasksNotDrained ret hl hn =>
    refine ⟨hended, fun hc frames hrest => ?_, hcomplete⟩
    have hidle : w.conn.taskRunning = false := by
      have htok := hi.task.token
      cases hr : w.conn.taskRunning with
      | false => rfl
      | true => simp [hl, htasks, hr] at htok
    simp [hidle, hi.queue.pendingTasks] at hn
    exact absurd hc (hn hended)
  | sendsDrained ret hl hs =>
    have hc := (hi.path.drained (by simp [hl])).1
    refine ⟨hended, fun _ frames hrest => ?_, fun hne => absurd hc hne⟩
    have hg := hguarded hc frames (by simpa [scheduled, hl] using hrest)
    simpa [Guarded, hl, OutputPending, hs] using hg
  | sendsNotDrained ret hl hs =>
    exact ⟨hended, fun _ frames _ => guarded_of_pending (Or.inl hs) ret frames, hcomplete⟩
  | outputDrained ret hl hq ho =>
    have hc := (hi.path.drained (by simp [hl])).1
    refine ⟨hended, fun _ frames hrest => ?_, fun hne => absurd hc hne⟩
    have hg := hguarded hc frames (by simpa [scheduled, hl] using hrest)
    simpa [Guarded, hl, ho] using hg
  | outputNotDrained ret hl hn =>
    exact ⟨hended, fun _ frames _ => guarded_of_pending (Or.inr (hn hi.queue.flushed)) ret frames,
      hcomplete⟩
  | closeCas ret hl hc =>
    refine ⟨hended, fun hc' => by simp at hc', fun _ => ?_⟩
    obtain ⟨frames, hsched, -, -⟩ := hi.flow hc
    have hnil : frames = [] := by simpa [Guarded, hl] using hguarded hc frames hsched
    simpa [scheduled, hl, hnil] using hsched
  | closeAgain ret hl hc => exact ⟨hended, fun hc' => absurd hc' hc, hcomplete⟩
  | closeTasks ret hl =>
    have hc := hi.path.closing (by simp [hl])
    exact ⟨hended, fun hc' => absurd hc' hc, hcomplete⟩
  | closeDefer ret hl =>
    have hc := hi.path.closing (by simp [hl])
    exact ⟨hended, fun hc' => absurd hc' hc, hcomplete⟩
  | closeNow ret hl =>
    have hc := hi.path.closing (by simp [hl])
    exact ⟨hended, fun hc' => absurd hc' hc, hcomplete⟩
  | businessClosed ret fd hl =>
    have hc := hi.path.closing (by simp [hl])
    exact ⟨hended, fun hc' => absurd hc' hc, hcomplete⟩
  | removed ret fd hl =>
    have hc := hi.path.closing (by simp [hl])
    obtain ⟨afd, st, r, wr, ch, co, he, hst⟩ := PoolMachine.removeConnection_eq w fd
    rw [he]
    exact ⟨hended, fun hc' => absurd (hst hc') hc, fun _ => hcomplete hc⟩
  | readEvent hl hc he => simp [hended] at he
  | readv n hl hpos hn => simp [(hi.path.reads hl).2] at hended
  | readvAgain hl => simp [(hi.path.reads hl).2] at hended
  | readvEof hl ht => simp [(hi.path.reads hl).2] at hended
  | writeDone hl ho => exact .of_outside hi' hended rfl hcomplete
  | writeEvent hl hc hw => exact .of_outside hi' hended rfl hcomplete
  | sendAgain hl ho => exact .of_outside hi' hended rfl hcomplete
  | send n hl hpos hn => exact .of_outside hi' hended (by simp [hl]) hcomplete
  | runClose rest hl hq => exact absurd (hi.queue.taskQueue .close (by simp [hq])) (by decide)
  | runFinalize rest hl hq =>
    exact absurd (hi.queue.taskQueue .finalize (by simp [hq])) (by decide)
  | runCheck rest hl hq => exact absurd (hi.queue.taskQueue .check (by simp [hq])) (by decide)
  | handlerStart i t hti hpc => simp [htasks] at hti
  | extClose => exact hG.elim
  | readvError hl => exact hG.elim
  | sendError hl ho => exact hG.elim
  | closeEvent cause hl => exact hG.elim
  | _ => exact hsafe.congr rfl rfl rfl rfl rfl (by simp)

/-! ## §5 Exactly when nothing is lost -/

/-- From the `readv` that returns zero to the CAS of the drain check of the first task. -/
def lossyRead : List Act := .readvEof :: List.replicate 8 .loop

/-- The first frame of the buffer, handled inside the submit callback: from the parser to the
drain check. -/
private theorem run_frame {w : World} {m : MyMessage} {rest : Bytes} (hl : w.loop = .parsing)
    (hc : w.conn.state = .connected) (hparse : parse w.conn.inBuffer = .ok m rest)
    (hidle : w.conn.taskRunning = false) (hpending : w.conn.pendingTasks = []) :
    run step w (List.replicate 4 .loop) = some { w with
      conn := { w.conn with inBuffer := rest }
      loop := .finishTasks .toParse
      log := { w.log with
        enqueued := w.log.enqueued ++ [m], submitted := w.log.submitted ++ [m]
        started := w.log.started ++ [m] } } := by
  simp [run, step, World.loopStep, World.parseStep, runInline, World.completeStep,
    Connection.enqueueTask, Connection.onTaskComplete, Connection.isConnected, List.replicate, hl,
    hc, hparse, hidle, hpending]

/-- The drain check finds everything drained, and closes the connection. -/
private theorem run_drainCheck {w : World} {ret : Return} (hl : w.loop = .finishTasks ret)
    (hc : w.conn.state = .connected) (he : w.conn.peerReadClosed = true)
    (hidle : w.conn.taskRunning = false) (hpending : w.conn.pendingTasks = [])
    (hsends : w.conn.pendingSendCallbacks = 0) (hflushed : w.conn.sendQueue = [])
    (hout : w.conn.outBuffer = []) :
    run step w (List.replicate 4 .loop) = some { w with
      conn := { w.conn with state := .closing }, loop := .closeTasks ret } := by
  simp [run, step, World.loopStep, Connection.tasksDrained, Connection.outputDrained,
    Connection.isConnected, List.replicate, hl, hc, he, hidle, hpending, hsends, hflushed, hout]

/-- An unsafe end of file: the drain check after the first of the remaining frames finds
everything drained and closes the connection. -/
theorem InlineInv.loses {s : Stream} {w : World} (hi : InlineInv s w) (hl : w.loop = .reading)
    (ht : w.toRecv = []) (hloss : ¬ EofSafe w) :
    ∃ w', run InlineSubmit.step w lossyRead = some w' ∧ w'.conn.state ≠ .connected ∧
      w'.log.started ≠ s.frames := by
  have hc := (hi.path.reads hl).1
  obtain ⟨frames, hsched, hbytes, -⟩ := hi.flow hc
  have hbuf := hbytes (Or.inr (by simp [hl]))
  rw [ht, List.append_nil] at hbuf
  have hfits : ∀ m ∈ frames, m.Fits := fun m hm =>
    s.fits m (hsched ▸ List.mem_append_right _ hm)
  simp only [EofSafe, OutputPending, not_or, hbuf, atMostOneFrame_iff hfits s.incomplete,
    ne_eq, not_not, not_le] at hloss
  obtain ⟨htwo, hpend, hout⟩ := hloss
  match frames, htwo with
  | m :: m' :: ms, _ =>
    have hparse : parse w.conn.inBuffer = .ok m (encodeAll (m' :: ms) ++ s.tail) := by
      rw [hbuf, encodeAll_cons, List.append_assoc]
      exact parse_encodeMessage m (hfits m (by simp)) _
    have hidle : w.conn.taskRunning = false := by
      have htok := hi.task.token
      cases hr : w.conn.taskRunning with
      | false => rfl
      | true => simp [hl, hi.queue.tasks, hr] at htok
    -- the end of file, the first of the two frames, and the drain check after it
    have heof : InlineSubmit.step w .readvEof = some { w with
        conn := { w.conn with peerReadClosed := true, reading := false }, loop := .parsing } := by
      simp [InlineSubmit.step, World.step, World.kernelStep, hl, ht]
    have hframe := run_frame (w := { w with
      conn := { w.conn with peerReadClosed := true, reading := false }, loop := .parsing })
      rfl hc hparse hidle hi.queue.pendingTasks
    have hsplit :
        lossyRead = .readvEof :: (List.replicate 4 .loop ++ List.replicate 4 .loop) := rfl
    rw [hsplit]
    refine ⟨_, run_cons_eq_some.mpr ⟨_, heof, run_append.mpr ⟨_, hframe,
      run_drainCheck rfl hc rfl hidle hi.queue.pendingTasks hpend hi.queue.flushed hout⟩⟩, ?_, ?_⟩
    · simp
    · rw [← hsched]
      simp [scheduled, hl]

/-- In every undisturbed continuation of the read that now sees the end of file, all of
`frames` have been handled, in order, once the connection has left `connected` or the loop
thread is done with it. -/
def HandlesAll (frames : List MyMessage) (w : World) : Prop :=
  ∀ acts w', run step w (.readvEof :: acts) = some w' →
    Meets step Undisturbed w (.readvEof :: acts) →
    w'.conn.state ≠ .connected ∨ w'.loop = .idle → w'.log.started = frames

theorem InlineInv.handlesAll {s : Stream} {w : World} (hi : InlineInv s w) (hsafe : EofSafe w) :
    HandlesAll s.frames w := by
  intro acts w' hrun hmeets hend
  obtain ⟨w₁, hstep, hrest⟩ := run_cons_eq_some.mp hrun
  obtain ⟨hG, hmeets₁⟩ := hmeets
  have hstart : InlineInv s w₁ ∧ SafeInv s w₁ := ⟨hi.step hG hstep, .of_eof hi hsafe hstep⟩
  obtain ⟨hi', hs'⟩ := run_invariant_of_meets (P := fun w => InlineInv s w ∧ SafeInv s w)
    (fun _ _ _ hi hG h => ⟨hi.1.step hG h, hi.2.step hi.1 hG h⟩) hstart (hmeets₁ w₁ hstep) hrest
  rcases hend with hne | hidle
  · exact hs'.complete hne
  · by_cases hc : w'.conn.state = .connected
    · obtain ⟨frames, hsched, -, hnil⟩ := hi'.flow hc
      simpa [scheduled, hidle, hnil hs'.ended (by simp [hidle])] using hsched
    · exact hs'.complete hc

/-- **The outbound connection and the end of file**: in every undisturbed run the connection
stays connected until the end of file, with the frames handled in stream order, and from the
`readv` that sees it on every frame is handled before the close, in every continuation,
exactly when that read is `EofSafe`. -/
theorem outbound_complete_iff (fd : Int) (s : Stream) (acts : List Act) (w : World)
    (hrun : run step (outbound fd (encodeAll s.frames ++ s.tail)) acts = some w)
    (hmeets : Meets step Undisturbed (outbound fd (encodeAll s.frames ++ s.tail)) acts) :
    (w.conn.peerReadClosed = false →
      w.conn.state = .connected ∧ w.log.started <+: s.frames) ∧
    (w.loop = .reading → w.toRecv = [] → (HandlesAll s.frames w ↔ EofSafe w)) := by
  have hi : InlineInv s w := run_invariant_of_meets (fun _ _ _ hi hG h => hi.step hG h)
    (.init fd s) hmeets hrun
  refine ⟨fun hpeer => ?_, fun hl ht => ⟨fun hall => ?_, hi.handlesAll⟩⟩
  · have hc : w.conn.state = .connected := by
      by_contra hne
      simp [hi.path.ended hne] at hpeer
    obtain ⟨rest, hsched, -, -⟩ := hi.flow hc
    refine ⟨hc, ?_⟩
    rw [← hsched]
    simp only [scheduled, List.append_assoc]
    exact List.prefix_append _ _
  · by_contra hloss
    obtain ⟨w', hw', hstate, hlost⟩ := hi.loses hl ht hloss
    refine hlost (hall _ w' hw' (meets_of_forall (fun a ha v => ?_) w) (Or.inl hstate))
    have hlabel : a = .readvEof ∨ a = .loop := by
      simpa [List.mem_replicate] using ha
    rcases hlabel with rfl | rfl <;> trivial

/-- One answer, read together with the end of file. -/
def oneAnswer : Stream where
  frames := [⟨.loginResp, 1, []⟩]
  tail := []
  fits := by decide
  incomplete := by decide

theorem outbound_complete_iff_one :
    ∃ w, run step (outbound 9 (encodeAll oneAnswer.frames ++ oneAnswer.tail))
        [.readEvent, .readv 10] = some w ∧ HandlesAll oneAnswer.frames w := by
  have hlast : ((run step (outbound 9 (encodeAll oneAnswer.frames ++ oneAnswer.tail))
      [.readEvent, .readv 10]).any fun w => decide (w.loop = .reading ∧ w.toRecv = [] ∧
        atMostOneFrame w.conn.inBuffer = true)) = true := by
    decide
  have hmeets : Meets step Undisturbed
      (outbound 9 (encodeAll oneAnswer.frames ++ oneAnswer.tail)) [.readEvent, .readv 10] := by
    decide
  obtain ⟨w, hw, hlast⟩ := exists_of_run_any hlast
  obtain ⟨hl, ht, hone⟩ := of_decide_eq_true hlast
  exact ⟨w, hw, ((outbound_complete_iff 9 oneAnswer _ w hw hmeets).2 hl ht).mpr (Or.inl hone)⟩

/-- Two answers. -/
def twoAnswers : Stream where
  frames := [⟨.loginResp, 1, []⟩, ⟨.joinRoomResp, 2, []⟩]
  tail := []
  fits := by decide
  incomplete := by decide

/-- Both answers and the end of file arrive in one `read` while no output is on its way: the
connection closes after the first answer, and the second is discarded. -/
theorem outbound_loses_second_answer :
    ∃ acts w, run step (outbound 9 (encodeAll twoAnswers.frames ++ twoAnswers.tail)) acts = some w ∧
      Meets step Undisturbed (outbound 9 (encodeAll twoAnswers.frames ++ twoAnswers.tail)) acts ∧
      w.conn.state ≠ .connected ∧ w.log.started = [⟨.loginResp, 1, []⟩] ∧
      w.log.started ≠ twoAnswers.frames := by
  have hlast : ((run step (outbound 9 (encodeAll twoAnswers.frames ++ twoAnswers.tail))
      (.readEvent :: .readv 20 :: lossyRead)).any fun w =>
        decide (w.conn.state ≠ .connected ∧ w.log.started = [⟨.loginResp, 1, []⟩])) = true := by
    decide
  obtain ⟨w, hw, hlast⟩ := exists_of_run_any hlast
  obtain ⟨hstate, hstarted⟩ := of_decide_eq_true hlast
  exact ⟨_, w, hw, by decide, hstate, hstarted, by rw [hstarted]; decide⟩

end EchoNet.Net.InlineSubmit
