import EchoNet.Net.SendPath

/-!
# Half-Close Completeness

The peer sends any number of frames and an incomplete tail and closes its sending side.
As long as nothing else ends the connection, `maybeFinishAfterPeerEof` alone decides when
`handleClose` leaves `connected`, and it decides so only after every frame has been handled
and every response of the handlers has been handed to `send`.

- `Undisturbed`: what must not happen for the claim to be about the end of file;
- `FlowInv`: where each frame of the stream is, and what the drain check has established at
  each of its program points;
- `World.Quiet`: nothing of this connection is left to run.

## Main results

- `drained_not_connected`: no half-closed connection is left open once it is drained;
- `halfClose_complete`.
-/

namespace EchoNet.Net.PoolMachine

open EchoNet.Lib EchoNet.Protocol

open World

/-! ## §1 Undisturbed runs -/

/-- The response makes `outBuffer_` exceed the high water mark. -/
def World.Overflows (w : World) (response : MyMessage) : Prop :=
  Connection.highWaterMark < (w.conn.outBuffer ++ encodeMessage response).length

/-- The response of a send callback. -/
def Callback.response : Callback → Option MyMessage
  | .send _ response => some response
  | .close | .finalize | .check => none

/-- A step without a socket error, an overflow, an idle timeout or an explicit `close()`.
`Server::stop` closes every connection before it stops the pool. -/
def Undisturbed (w : World) : Act → Prop
  | .readvError | .sendError | .closeEvent _ | .extClose => False
  | .stopPool => w.conn.state ≠ .connected
  | .runCallback _ =>
    ∀ response, w.taskQueue.head?.bind Callback.response = some response →
      w.conn.state = .connected → ¬ w.Overflows response
  | .inlineSend response => w.conn.state = .connected → ¬ w.Overflows response
  | _ => True

instance (w : World) (response : MyMessage) : Decidable (w.Overflows response) :=
  inferInstanceAs (Decidable (_ < _))

instance (w : World) : (a : Act) → Decidable (Undisturbed w a)
  | .readvError | .sendError | .closeEvent _ | .extClose => isFalse id
  | .stopPool => inferInstanceAs (Decidable (w.conn.state ≠ .connected))
  | .runCallback _ =>
    match h : w.taskQueue.head?.bind Callback.response with
    | none => isTrue fun response hr => by simp [h] at hr
    | some r =>
      decidable_of_iff (w.conn.state = .connected → ¬ w.Overflows r)
        ⟨fun hr response he => by rw [h] at he; cases he; exact hr, fun hr => hr r h⟩
  | .inlineSend response =>
    inferInstanceAs (Decidable (w.conn.state = .connected → ¬ w.Overflows response))
  | .loop | .readEvent | .readv _ | .readvAgain | .readvEof | .writeEvent | .send _ | .sendAgain
  | .worker _ | .handlerSend _ _ | .handlerReturn _ | .extSend _ | .post _ => isTrue trivial

/-! ## §2 Where the frames are -/

/-- The message of a task whose handler has still to start. -/
def Task.unstarted (t : Task) : List MyMessage :=
  match t.pc with
  | .submitted | .checked => [t.message]
  | .submitNext next => [next]
  | .handler | .sending _ | .completing => []

/-- The message the loop thread is about to submit. -/
def LoopPc.submits : LoopPc → List MyMessage
  | .submitting msg => [msg]
  | _ => []

/-- The message the loop thread is about to enqueue. -/
def LoopPc.enqueues : LoopPc → List MyMessage
  | .enqueueing msg => [msg]
  | _ => []

/-- The loop thread is in the part of `read` that still looks at `inBuffer_`. -/
def LoopPc.parses : LoopPc → Bool
  | .reading | .parsing | .enqueueing _ | .submitting _ | .completing => true
  | _ => false

/-- The return address of a drain check or a close in progress. -/
def LoopPc.returns : LoopPc → Option Return
  | .finishTasks ret | .finishSends ret | .finishOutput ret | .closeCas ret | .closeTasks ret
  | .closeBuffers ret _ | .inCloseCallback ret _ | .removing ret _ => some ret
  | _ => none

/-- How far the drain check has come: `1` after the tasks, `2` after the send callbacks,
`3` after the output buffers. -/
def LoopPc.drained : LoopPc → Nat
  | .finishSends _ => 1
  | .finishOutput _ => 2
  | .closeCas _ => 3
  | _ => 0

attribute [simp] LoopPc.submits.eq_1 LoopPc.submits.eq_2
attribute [simp] LoopPc.enqueues.eq_1 LoopPc.enqueues.eq_2
attribute [simp] LoopPc.parses.eq_1 LoopPc.parses.eq_2 LoopPc.parses.eq_3 LoopPc.parses.eq_4
  LoopPc.parses.eq_5 LoopPc.parses.eq_6
attribute [simp] LoopPc.returns.eq_1 LoopPc.returns.eq_2 LoopPc.returns.eq_3 LoopPc.returns.eq_4
  LoopPc.returns.eq_5 LoopPc.returns.eq_6 LoopPc.returns.eq_7 LoopPc.returns.eq_8
  LoopPc.returns.eq_9
attribute [simp] LoopPc.drained.eq_1 LoopPc.drained.eq_2 LoopPc.drained.eq_3 LoopPc.drained.eq_4

@[simp] theorem Return.submits_pc (ret : Return) : ret.pc.submits = [] := by
  cases ret <;> rfl

@[simp] theorem Return.enqueues_pc (ret : Return) : ret.pc.enqueues = [] := by
  cases ret <;> rfl

@[simp] theorem Return.drained_pc (ret : Return) : ret.pc.drained = 0 := by
  cases ret <;> rfl

theorem LoopPc.submits_of_token {pc : LoopPc} (h : pc.token = 0) : pc.submits = [] := by
  cases pc <;> first | rfl | cases h

/-- A drain check or a close holds no message and is not in the part of `read` that parses. -/
theorem LoopPc.of_returns {pc : LoopPc} {ret : Return} (h : pc.returns = some ret) :
    pc.submits = [] ∧ pc.enqueues = [] ∧ pc.parses = false := by
  cases pc <;> first | exact ⟨rfl, rfl, rfl⟩ | cases h

/-- The messages that have left `inBuffer_`, in stream order. -/
def World.scheduled (w : World) : List MyMessage :=
  w.log.started ++ w.tasks.flatMap Task.unstarted ++ w.loop.submits ++ w.conn.pendingTasks ++
    w.loop.enqueues

/-- The program points that an undisturbed connection does not reach. -/
structure PathInv (w : World) : Prop where
  running : w.conn.state = .connected → w.poolStopped = false
  unclosed : .close ∉ w.posting ∧ .close ∉ w.taskQueue
  returns : ∀ ret, w.loop.returns = some ret → ret = .toLoop
  accepts : w.loop ≠ .completing
  closed : w.conn.state ≠ .connected → w.loop.parses = false ∧ w.loop ≠ .writing

/-- The frames of the stream have been scheduled or are still in front of the parser. -/
structure FrameInv (s : Stream) (w : World) : Prop where
  eof : w.conn.peerReadClosed = true → w.toRecv = []
  flow : w.conn.state = .connected → ∃ rest, w.scheduled ++ rest = s.frames ∧
    (w.conn.peerReadClosed = false ∨ w.loop.parses = true →
      w.conn.inBuffer ++ w.toRecv = encodeAll rest ++ s.tail) ∧
    (w.conn.peerReadClosed = true → w.loop.parses = false → rest = [])

/-- What the drain check has found still holds at its next program point. -/
structure DrainInv (w : World) : Prop where
  tasks : 1 ≤ w.loop.drained → w.conn.state = .connected ∧
    w.conn.peerReadClosed = true ∧ w.conn.taskRunning = false ∧ w.conn.pendingTasks = []
  sends : 2 ≤ w.loop.drained → handlerSends (queuedSends w.taskQueue) = []
  output : 3 ≤ w.loop.drained → w.conn.outBuffer = []

/-- Everything is done: every frame has been handled and no handler is executing, and every
response the handlers passed to `sendResponse` has been handed to `send`. -/
structure Complete (frames : List MyMessage) (w : World) : Prop where
  handled : w.log.started = frames
  returned : w.tasks = []
  accepted : handlerSends w.log.passed = handlerSends w.log.accepted
  sent : w.log.sent = encodeAll (w.log.accepted.map Prod.snd)

structure FlowInv (s : Stream) (w : World) : Prop where
  path : PathInv w
  frame : FrameInv s w
  drain : DrainInv w
  complete : w.conn.state ≠ .connected → Complete s.frames w

theorem FlowInv.init (fd : Int) (s : Stream) :
    FlowInv s (World.init fd (encodeAll s.frames ++ s.tail)) := by
  refine ⟨?_, ⟨?_, fun _ => ⟨s.frames, ?_⟩⟩, ?_, ?_⟩
  · constructor <;> simp [World.init, Connection.create]
  · simp [World.init, Connection.create]
  · simp [World.init, Connection.create, World.scheduled]
  · constructor <;> simp [World.init]
  · simp [World.init, Connection.create]

/-! ## §3 One step -/

/-- What a send callback of an undisturbed connection leaves. -/
theorem of_runSend {P : World → Prop} {w : World} {origin : Origin} {response : MyMessage}
    (hq : w.conn.sendQueue = []) (ho : w.conn.state = .connected → ¬ w.Overflows response)
    (hsend : w.conn.state = .connected → P { w with
      conn := { w.conn with
        pendingSendCallbacks := w.conn.pendingSendCallbacks - 1
        outBuffer := w.conn.outBuffer ++ encodeMessage response
        writing := true }
      loop := .finishTasks .toLoop
      log := { w.log with accepted := w.log.accepted ++ [(origin, response)] } })
    (hskip : w.conn.state ≠ .connected → P { w with
      conn := { w.conn with pendingSendCallbacks := w.conn.pendingSendCallbacks - 1 } }) :
    P (w.runSend origin response) := by
  by_cases hc : w.conn.state = .connected
  · have hconn : w.conn.isConnected = true := by simpa using hc
    have hfits := ho hc
    unfold World.Overflows at hfits
    unfold World.runSend
    rw [if_pos hconn, Connection.sendCallback_of_connected hc hq, if_neg hfits]
    exact hsend hc
  · have hconn : w.conn.isConnected = false := by simpa using hc
    unfold World.runSend
    rw [hconn, Connection.sendCallback_of_not_connected hc]
    exact hskip hc

/-- The parser reports no error on a stream of frames. -/
theorem FlowInv.parse_ne_error {s : Stream} {w : World} (hi : FlowInv s w)
    (hl : w.loop = .parsing) (rest : Bytes) : parse w.conn.inBuffer ≠ .error rest := by
  intro hp
  have hc : w.conn.state = .connected := by
    by_contra hne
    simpa [hl] using (hi.path.closed hne).1
  obtain ⟨frames, hsched, hbytes, -⟩ := hi.frame.flow hc
  have hfits : ∀ m ∈ frames, m.Fits := by
    intro m hm
    exact s.fits m (hsched ▸ List.mem_append_right _ hm)
  obtain ⟨m, ms, rest', -, hok, -⟩ | hmore :=
    parse_stream_part hfits s.incomplete (hbytes (Or.inr (by simp [hl])))
  · simp [hp] at hok
  · simp [hp] at hmore

/-- A step that leaves the loop thread where it is, or takes it to a program point it may reach. -/
private theorem PathInv.congr {w w' : World} (hi : PathInv w)
    (hstate : w'.conn.state = w.conn.state) (hstopped : w'.poolStopped = w.poolStopped)
    (hposting : .close ∈ w'.posting → .close ∈ w.posting)
    (hqueue : .close ∈ w'.taskQueue → .close ∈ w.taskQueue)
    (hreturns : ∀ ret, w'.loop.returns = some ret → ret = .toLoop)
    (haccepts : w'.loop ≠ .completing)
    (hclosed : w.conn.state ≠ .connected → w'.loop.parses = false ∧ w'.loop ≠ .writing) :
    PathInv w' := by
  constructor
  · rw [hstate, hstopped]
    exact hi.running
  · exact ⟨fun h => hi.unclosed.1 (hposting h), fun h => hi.unclosed.2 (hqueue h)⟩
  · exact hreturns
  · exact haccepts
  · rw [hstate]
    exact hclosed

/-- A step of another thread. -/
private theorem PathInv.frame {w w' : World} (hi : PathInv w) (hloop : w'.loop = w.loop)
    (hstate : w'.conn.state = w.conn.state) (hstopped : w'.poolStopped = w.poolStopped)
    (hposting : .close ∈ w'.posting → .close ∈ w.posting)
    (hqueue : .close ∈ w'.taskQueue → .close ∈ w.taskQueue) : PathInv w' := by
  refine hi.congr hstate hstopped hposting hqueue ?_ ?_ ?_
  · rw [hloop]
    exact hi.returns
  · rw [hloop]
    exact hi.accepts
  · rw [hloop]
    exact hi.closed

/-- The loop thread returns from a drain check or a close, which the event loop has called. -/
private theorem PathInv.back {w w' : World} (hi : PathInv w) {ret : Return}
    (hret : w.loop.returns = some ret) (hloop : w'.loop = ret.pc)
    (hstate : w'.conn.state = w.conn.state) (hstopped : w'.poolStopped = w.poolStopped)
    (hposting : w'.posting = w.posting) (hqueue : w'.taskQueue = w.taskQueue) : PathInv w' := by
  obtain rfl := hi.returns ret hret
  have hidle : w'.loop = .idle := hloop
  exact hi.congr hstate hstopped (by rw [hposting]; exact id) (by rw [hqueue]; exact id)
    (by simp [hidle]) (by simp [hidle]) (by simp [hidle])

theorem FlowInv.step_path {s : Stream} {w w' : World} {a : Act} (hp : PoolInv w)
    (hi : FlowInv s w) (hG : Undisturbed w a) (h : Step w a w') : PathInv w' := by
  cases h with
  | runSend origin response rest hl hq =>
    have hunclosed := hi.path.unclosed.2
    refine of_runSend hp.send.flushed (hG response (by simp [hq, Callback.response]))
      (fun hc => ?_) (fun hc => ?_)
    · exact hi.path.congr rfl rfl id (by simp [hq]) (by simp) (by simp) (fun hne => absurd hc hne)
    · exact hi.path.frame rfl rfl rfl id (by simp [hq])
  | inlineSend response hl =>
    refine of_runSend hp.send.flushed hG (fun hc => ?_) (fun hc => ?_)
    · exact hi.path.congr rfl rfl id id (by simp) (by simp) (fun hne => absurd hc hne)
    · exact hi.path.frame rfl rfl rfl id id
  | parseError rest hl he => exact absurd he (hi.parse_ne_error hl rest)
  | removed ret fd hl =>
    have hclosing := hp.close.closing (by simp [hl])
    obtain rfl := hi.path.returns ret (by simp [hl])
    obtain ⟨afd, st, r, wr, ch, co, he, hst⟩ := removeConnection_eq w fd
    rw [he]
    exact ⟨fun hc => hi.path.running (hst hc), hi.path.unclosed, by simp, by simp, by simp⟩
  | submitRejected msg hl hpool =>
    have hrunning := hi.path.running (hp.task.scheduling (by simp [hl]))
    simp [hpool] at hrunning
  | completeNext next rest hl hc hq => exact absurd hl hi.path.accepts
  | completeLast hl hc hq => exact absurd hl hi.path.accepts
  | completeFinalize hl hc hq => exact absurd hl hi.path.accepts
  | completeClosed hl hc hq => exact absurd hl hi.path.accepts
  | runClose rest hl hq => exact absurd (by simp [hq]) hi.path.unclosed.2
  | readvError hl => exact hG.elim
  | sendError hl ho => exact hG.elim
  | closeEvent cause hl => exact hG.elim
  | extClose => exact hG.elim
  | stopPool =>
    exact ⟨fun hc => absurd hc hG, hi.path.unclosed, hi.path.returns, hi.path.accepts,
      hi.path.closed⟩
  | post cb hm =>
    have hcb : cb ≠ .close := by
      rintro rfl
      exact hi.path.unclosed.1 hm
    exact hi.path.frame rfl rfl rfl List.mem_of_mem_erase (by simp [hcb.symm])
  | taskChecked i t hti hpc hc => exact hi.path.frame rfl rfl rfl id id
  | taskSkipped i t hti hpc hc => exact hi.path.frame rfl rfl rfl id id
  | handlerStart i t hti hpc => exact hi.path.frame rfl rfl rfl id id
  | handlerPost i t response hti hpc => exact hi.path.frame rfl rfl rfl id (by simp)
  | taskNext i t next rest hti hpc hc hq => exact hi.path.frame rfl rfl rfl id id
  | taskLast i t hti hpc hc hq => exact hi.path.frame rfl rfl rfl (by simp) id
  | taskFinalize i t hti hpc hc hpend => exact hi.path.frame rfl rfl rfl (by simp) id
  | taskClosed i t hti hpc hc hpend => exact hi.path.frame rfl rfl rfl (by simp) id
  | nextAccepted i t next hti hpc hpool => exact hi.path.frame rfl rfl rfl id id
  | nextRejected i t next hti hpc hpool => exact hi.path.frame rfl rfl rfl id id
  | handlerSend i t response hti hpc => exact hi.path.frame rfl rfl rfl id id
  | handlerReturn i t hti hpc => exact hi.path.frame rfl rfl rfl id id
  | extSend response => exact hi.path.frame rfl rfl rfl (by simp) id
  -- the loop thread goes back into the event loop
  | tasksNotDrained ret hl hn => exact hi.path.back (by simp [hl]) rfl rfl rfl rfl rfl
  | sendsNotDrained ret hl hn => exact hi.path.back (by simp [hl]) rfl rfl rfl rfl rfl
  | outputNotDrained ret hl hn => exact hi.path.back (by simp [hl]) rfl rfl rfl rfl rfl
  | closeAgain ret hl hc => exact hi.path.back (by simp [hl]) rfl rfl rfl rfl rfl
  | closeDefer ret hl => exact hi.path.back (by simp [hl]) rfl rfl rfl rfl rfl
  | closeCas ret hl hc =>
    obtain rfl := hi.path.returns ret (by simp [hl])
    exact ⟨by simp, hi.path.unclosed, by simp, by simp, by simp⟩
  | closeNow ret hl =>
    obtain rfl := hi.path.returns ret (by simp [hl])
    exact hi.path.congr rfl rfl id id (by simp [invokeCloseCallback])
      (by simp [invokeCloseCallback]) (by simp [invokeCloseCallback])
  | runFinalize rest hl hq =>
    exact hi.path.congr rfl rfl id (by simp [hq]) (by simp [invokeCloseCallback])
      (by simp [invokeCloseCallback]) (by simp [invokeCloseCallback])
  | runCheck rest hl hq =>
    exact hi.path.congr rfl rfl id (by simp [hq]) (by simp) (by simp) (by simp)
  | runExpired cb rest hl hq hh => exact hi.path.frame rfl rfl rfl id (fun h => by simp [hq, h])
  -- or goes on to where it may go
  | _ =>
    have hreturns := hi.path.returns
    have hclosed := hi.path.closed
    exact hi.path.congr rfl rfl id id (by simp_all) (by simp_all) (by simp_all)

/-- The frames stay where they are. -/
private theorem FrameInv.congr {s : Stream} {w w' : World} (hi : FrameInv s w)
    (hstate : w'.conn.state = .connected → w.conn.state = .connected)
    (heof : w'.conn.peerReadClosed = w.conn.peerReadClosed) (hrecv : w'.toRecv = w.toRecv)
    (hbuf : w'.conn.state = .connected → w'.conn.inBuffer = w.conn.inBuffer)
    (hsched : w'.conn.state = .connected → w'.scheduled = w.scheduled)
    (hparses : w'.loop.parses = w.loop.parses) : FrameInv s w' := by
  refine ⟨?_, fun hc => ?_⟩
  · rw [heof, hrecv]
    exact hi.eof
  · rw [hsched hc, hbuf hc, heof, hrecv, hparses]
    exact hi.flow (hstate hc)

/-- The loop thread returns from a drain check or a close, which the event loop has called. -/
private theorem FlowInv.frame_back {s : Stream} {w : World} (hi : FlowInv s w) {ret : Return}
    (hret : w.loop.returns = some ret) : FrameInv s { w with loop := ret.pc } := by
  obtain rfl := hi.path.returns ret hret
  obtain ⟨hsubmits, henqueues, hparses⟩ := LoopPc.of_returns hret
  exact hi.frame.congr id rfl rfl (fun _ => rfl)
    (fun _ => by simp [World.scheduled, hsubmits, henqueues]) (by simp [hparses])

/-- A step of a worker: the message of its task and `pendingTasks_` behind it keep their order. -/
private theorem FrameInv.work {s : Stream} {w w' : World} (hi : FrameInv s w) (ht : TaskInv w)
    {i : Nat} {t : Task} (hti : w.tasks[i]? = some t) (hstate : w'.conn.state = w.conn.state)
    (heof : w'.conn.peerReadClosed = w.conn.peerReadClosed) (hrecv : w'.toRecv = w.toRecv)
    (hbuf : w'.conn.inBuffer = w.conn.inBuffer) (hloop : w'.loop = w.loop)
    (horder : w'.log.started ++ w'.tasks.flatMap Task.unstarted ++ w'.conn.pendingTasks =
      w.log.started ++ t.unstarted ++ w.conn.pendingTasks) : FrameInv s w' := by
  obtain ⟨htasks, -⟩ := ht.singleton hti
  -- the loop thread holds no task of its own while one is with the pool
  have hsubmits := LoopPc.submits_of_token (ht.token_eq_zero hti)
  refine hi.congr (fun hc => hstate ▸ hc) heof hrecv (fun _ => hbuf) (fun _ => ?_) (by rw [hloop])
  simp only [World.scheduled, hloop, hsubmits, htasks, List.append_nil, List.flatMap_singleton]
  rw [horder]

theorem FlowInv.step_frame {s : Stream} {w w' : World} {a : Act} (hp : PoolInv w)
    (hi : FlowInv s w) (hG : Undisturbed w a) (h : Step w a w') : FrameInv s w' := by
  have ⟨heof, hflow⟩ := hi.frame
  have htask := hp.task
  cases h with
  | runSend origin response rest hl hq =>
    refine of_runSend hp.send.flushed (hG response (by simp [hq, Callback.response]))
      (fun hc => ?_) (fun hc => ?_)
    · exact hi.frame.congr id rfl rfl (fun _ => rfl) (fun _ => by simp [World.scheduled, hl])
        (by simp [hl])
    · exact hi.frame.congr id rfl rfl (fun _ => rfl) (fun _ => rfl) rfl
  | inlineSend response hl =>
    refine of_runSend hp.send.flushed hG (fun hc => ?_) (fun hc => ?_)
    · have hidle := hl.resolve_right (fun hne => hne hc)
      exact hi.frame.congr id rfl rfl (fun _ => rfl) (fun _ => by simp [World.scheduled, hidle])
        (by simp [hidle])
    · exact hi.frame.congr id rfl rfl (fun _ => rfl) (fun _ => rfl) rfl
  | parseError rest hl he => exact absurd he (hi.parse_ne_error hl rest)
  | parseOk msg rest hl he hc =>
    obtain ⟨frames, hsched, hbytes, -⟩ := hflow hc
    have hfits : ∀ m ∈ frames, m.Fits := fun m hm =>
      s.fits m (hsched ▸ List.mem_append_right _ hm)
    obtain ⟨m, ms, rest', rfl, hok, hrest⟩ | hmore :=
      parse_stream_part hfits s.incomplete (hbytes (Or.inr (by simp [hl])))
    · rw [he] at hok
      cases hok
      refine ⟨heof, fun _ => ⟨ms, ?_, fun _ => hrest, by simp⟩⟩
      rw [← hsched]
      simp [World.scheduled, hl]
    · simp [he] at hmore
  | parseOkClosed msg rest hl he hc => simpa [hl] using (hi.path.closed hc).1
  | parseDiscard hl he heof' =>
    refine ⟨heof, fun hc => ?_⟩
    obtain ⟨frames, hsched, hbytes, -⟩ := hflow hc
    have hall := hbytes (Or.inr (by simp [hl]))
    rw [heof heof', List.append_nil] at hall
    have hnil : frames = [] := by
      refine frames_nil_of_needMore (t := s.tail) (fun m hm => ?_) (hall ▸ he)
      exact s.fits m (hsched ▸ List.mem_append_right _ hm)
    subst hnil
    exact ⟨[], by simpa [World.scheduled, hl] using hsched, by simp [heof'], by simp⟩
  | parseNeedMore hl he heof' =>
    refine ⟨heof, fun hc => ?_⟩
    obtain ⟨frames, hsched, hbytes, -⟩ := hflow hc
    exact ⟨frames, by simpa [World.scheduled, hl] using hsched,
      fun _ => hbytes (Or.inl heof'), by simp [heof']⟩
  | enqueueFirst msg next rest hl hr hq =>
    have htasks : w.tasks = [] := by
      have htok := htask.token
      simpa [hl, hr] using htok
    refine hi.frame.congr id rfl rfl (fun _ => rfl) (fun _ => ?_) (by simp [hl])
    simp [World.scheduled, hl, htasks, hq]
  | submitAccepted msg hl hpool =>
    have htasks : w.tasks = [] := htask.tasks_eq_nil (by simp [hl])
    refine hi.frame.congr id rfl rfl (fun _ => rfl) (fun _ => ?_) (by simp [hl])
    simp [World.scheduled, hl, htasks, Task.unstarted]
  | readEvent hl hc he =>
    refine ⟨heof, fun _ => ?_⟩
    obtain ⟨frames, hsched, hbytes, -⟩ := hflow hc
    exact ⟨frames, by simpa [World.scheduled, hl] using hsched, fun _ => hbytes (Or.inl he),
      by simp⟩
  | readv n hl hpos hn =>
    refine ⟨fun he => by simp [heof he], fun hc => ?_⟩
    obtain ⟨frames, hsched, hbytes, hnil⟩ := hflow hc
    refine ⟨frames, hsched, fun hor => ?_, hnil⟩
    rw [← hbytes hor]
    simp
  | readvEof hl ht =>
    refine ⟨fun _ => ht, fun hc => ?_⟩
    obtain ⟨frames, hsched, hbytes, -⟩ := hflow hc
    exact ⟨frames, by simpa [World.scheduled, hl] using hsched,
      fun _ => hbytes (Or.inr (by simp [hl])), by simp⟩
  -- a worker's step moves the message of its task along
  | taskChecked i t hti hpc hc =>
    obtain ⟨htasks, rfl⟩ := htask.singleton hti
    exact hi.frame.work htask hti rfl rfl rfl rfl rfl (by simp [htasks, Task.unstarted, hpc])
  | handlerStart i t hti hpc =>
    obtain ⟨htasks, rfl⟩ := htask.singleton hti
    exact hi.frame.work htask hti rfl rfl rfl rfl rfl (by simp [htasks, Task.unstarted, hpc])
  | handlerPost i t response hti hpc =>
    obtain ⟨htasks, rfl⟩ := htask.singleton hti
    exact hi.frame.work htask hti rfl rfl rfl rfl rfl (by simp [htasks, Task.unstarted, hpc])
  | handlerSend i t response hti hpc =>
    obtain ⟨htasks, rfl⟩ := htask.singleton hti
    exact hi.frame.work htask hti rfl rfl rfl rfl rfl (by simp [htasks, Task.unstarted, hpc])
  | handlerReturn i t hti hpc =>
    obtain ⟨htasks, rfl⟩ := htask.singleton hti
    exact hi.frame.work htask hti rfl rfl rfl rfl rfl (by simp [htasks, Task.unstarted, hpc])
  | taskNext i t next rest hti hpc hc hq =>
    obtain ⟨htasks, rfl⟩ := htask.singleton hti
    exact hi.frame.work htask hti rfl rfl rfl rfl rfl (by simp [htasks, Task.unstarted, hpc, hq])
  | taskLast i t hti hpc hc hq =>
    obtain ⟨htasks, rfl⟩ := htask.singleton hti
    exact hi.frame.work htask hti rfl rfl rfl rfl rfl (by simp [htasks, Task.unstarted, hpc])
  | nextAccepted i t next hti hpc hpool =>
    obtain ⟨htasks, rfl⟩ := htask.singleton hti
    exact hi.frame.work htask hti rfl rfl rfl rfl rfl (by simp [htasks, Task.unstarted, hpc])
  | nextRejected i t next hti hpc hpool =>
    refine hi.frame.congr id rfl rfl (fun _ => rfl) (fun hc => ?_) rfl
    have hrunning := hi.path.running hc
    simp [hpool] at hrunning
  | removed ret fd hl =>
    obtain ⟨afd, st, r, wr, ch, co, he, hst⟩ := removeConnection_eq w fd
    rw [he]
    obtain rfl := hi.path.returns ret (by simp [hl])
    exact hi.frame.congr hst rfl rfl (fun _ => rfl) (fun _ => by simp [World.scheduled, hl])
      (by simp [hl])
  | closeDefer ret hl =>
    have hclosing := hp.close.closing (by simp [hl])
    obtain rfl := hi.path.returns ret (by simp [hl])
    exact hi.frame.congr id rfl rfl (fun hc => absurd hc hclosing)
      (fun hc => absurd hc hclosing) (by simp [hl])
  | closeNow ret hl =>
    have hclosing := hp.close.closing (by simp [hl])
    exact hi.frame.congr id rfl rfl (fun hc => absurd hc hclosing)
      (fun hc => absurd hc hclosing) (by simp [hl])
  | tasksNotDrained ret hl hn => exact hi.frame_back (by simp [hl])
  | sendsNotDrained ret hl hn => exact hi.frame_back (by simp [hl])
  | outputNotDrained ret hl hn => exact hi.frame_back (by simp [hl])
  | closeAgain ret hl hc => exact hi.frame_back (by simp [hl])
  | closeTasks ret hl =>
    have hclosing := hp.close.closing (by simp [hl])
    exact hi.frame.congr id rfl rfl (fun _ => rfl) (fun hc => absurd hc hclosing) (by simp [hl])
  | submitRejected msg hl hpool =>
    have hrunning := hi.path.running (htask.scheduling (by simp [hl]))
    simp [hpool] at hrunning
  | completeNext next rest hl hc hq => exact absurd hl hi.path.accepts
  | completeLast hl hc hq => exact absurd hl hi.path.accepts
  | completeFinalize hl hc hq => exact absurd hl hi.path.accepts
  | completeClosed hl hc hq => exact absurd hl hi.path.accepts
  | closeCas ret hl hc =>
    exact hi.frame.congr (by simp) rfl rfl (fun _ => rfl) (by simp) (by simp [hl])
  | enqueueBehind msg hl hr =>
    exact hi.frame.congr id rfl rfl (fun _ => rfl) (fun _ => by simp [World.scheduled, hl])
      (by simp [hl])
  | taskSkipped i t hti hpc hc =>
    exact hi.frame.congr id rfl rfl (fun _ => rfl) (fun hc' => absurd hc' hc) rfl
  | taskFinalize i t hti hpc hc hpend =>
    exact hi.frame.congr id rfl rfl (fun _ => rfl) (fun hc' => absurd hc' hc) rfl
  | taskClosed i t hti hpc hc hpend =>
    exact hi.frame.congr id rfl rfl (fun _ => rfl) (fun hc' => absurd hc' hc) rfl
  | readvError hl => exact hG.elim
  -- the other steps are made outside `read`, by the loop thread or another one
  | _ =>
    clear hflow
    exact hi.frame.congr id rfl rfl (fun _ => rfl)
      (fun _ => by simp [World.scheduled, invokeCloseCallback, *])
      (by simp [invokeCloseCallback, *])

/-- No task is with the pool once the drain check has looked at the tasks. -/
private theorem DrainInv.of_task {w : World} (hi : DrainInv w) (ht : TaskInv w) {i : Nat}
    {t : Task} (hti : w.tasks[i]? = some t) : w.loop.drained = 0 := by
  by_contra hne
  have hidle := (hi.tasks (by omega)).2.2.1
  have hrun := (ht.running hti).1
  simp [hidle] at hrun

/-- Outside the drain check nothing has been found. -/
private theorem DrainInv.of_drained {w : World} (h : w.loop.drained = 0) : DrainInv w := by
  constructor <;> simp [h]

theorem FlowInv.step_drain {s : Stream} {w w' : World} {a : Act} (hp : PoolInv w)
    (hi : FlowInv s w) (hG : Undisturbed w a) (h : Step w a w') : DrainInv w' := by
  have ⟨htasks, hsends, houtput⟩ := hi.drain
  cases h with
  | runSend origin response rest hl hq =>
    refine of_runSend hp.send.flushed (hG response (by simp [hq, Callback.response]))
      (fun hc => ?_) (fun hc => ?_)
    · exact .of_drained (by simp)
    · exact .of_drained (by simp [hl])
  | inlineSend response hl =>
    refine of_runSend hp.send.flushed hG (fun hc => ?_) (fun hc => ?_)
    · exact .of_drained (by simp)
    · exact ⟨htasks, hsends, houtput⟩
  | parseError rest hl he => exact absurd he (hi.parse_ne_error hl rest)
  -- the drain check goes on with what it has found
  | tasksDrained ret hl he hc hr hq =>
    exact ⟨fun _ => ⟨hc, he, hr, hq⟩, by simp, by simp⟩
  | sendsDrained ret hl hs =>
    have hd := htasks (by simp [hl])
    have hw := hp.send.waiting hd.1
    refine ⟨fun _ => hd, fun _ => ?_, by simp⟩
    have hnone : queuedSends w.taskQueue = [] := List.eq_nil_of_length_eq_zero (by omega)
    simp [hnone]
  | outputDrained ret hl hq ho =>
    exact ⟨fun _ => htasks (by simp [hl]), fun _ => hsends (by simp [hl]), fun _ => ho⟩
  -- no worker has a task meanwhile
  | taskChecked i t hti hpc hc => exact .of_drained (hi.drain.of_task hp.task hti)
  | taskSkipped i t hti hpc hc => exact .of_drained (hi.drain.of_task hp.task hti)
  | handlerStart i t hti hpc => exact .of_drained (hi.drain.of_task hp.task hti)
  | handlerPost i t response hti hpc => exact .of_drained (hi.drain.of_task hp.task hti)
  | taskNext i t next rest hti hpc hc hq => exact .of_drained (hi.drain.of_task hp.task hti)
  | taskLast i t hti hpc hc hq => exact .of_drained (hi.drain.of_task hp.task hti)
  | taskFinalize i t hti hpc hc hpend => exact .of_drained (hi.drain.of_task hp.task hti)
  | taskClosed i t hti hpc hc hpend => exact .of_drained (hi.drain.of_task hp.task hti)
  | nextAccepted i t next hti hpc hpool => exact .of_drained (hi.drain.of_task hp.task hti)
  | nextRejected i t next hti hpc hpool => exact .of_drained (hi.drain.of_task hp.task hti)
  | handlerSend i t response hti hpc => exact .of_drained (hi.drain.of_task hp.task hti)
  | handlerReturn i t hti hpc => exact .of_drained (hi.drain.of_task hp.task hti)
  -- and what another thread posts is no response of a handler
  | post cb hm =>
    refine ⟨htasks, fun hd => ?_, houtput⟩
    simp [hsends hd, hp.send.external cb hm]
  | extSend response => exact ⟨htasks, hsends, houtput⟩
  | stopPool => exact ⟨htasks, hsends, houtput⟩
  | readvError hl => exact hG.elim
  | sendError hl ho => exact hG.elim
  | closeEvent cause hl => exact hG.elim
  | extClose => exact hG.elim
  | runClose rest hl hq => exact absurd (by simp [hq]) hi.path.unclosed.2
  -- the other steps of the loop thread are made outside the drain check
  | _ => exact .of_drained (by simp [invokeCloseCallback, *])

/-- The CAS of an undisturbed `handleClose` comes after everything is done. -/
private theorem FlowInv.complete_of_closeCas {s : Stream} {w : World} (hp : PoolInv w)
    (hi : FlowInv s w) {ret : Return} (hl : w.loop = .closeCas ret) : Complete s.frames w := by
  obtain ⟨hc, heof, hidle, hpending⟩ := hi.drain.tasks (by simp [hl])
  have hqueued := hi.drain.sends (by simp [hl])
  have hout := hi.drain.output (by simp [hl])
  have htasks : w.tasks = [] := by
    have htok := hp.task.token
    simpa [hl, hidle] using htok
  obtain ⟨rest, hsched, -, hnil⟩ := hi.frame.flow hc
  refine ⟨?_, htasks, ?_, ?_⟩
  · simpa [World.scheduled, hl, htasks, hpending, hnil heof (by simp [hl])] using hsched
  · simpa [htasks, hqueued] using hp.send.order hc
  · simpa [hout] using hp.send.bytes hc

/-- A complete connection with the same log and tasks, but for responses of others. -/
private theorem Complete.congr {frames : List MyMessage} {w w' : World}
    (hi : Complete frames w) (hstarted : w'.log.started = w.log.started)
    (htasks : w'.tasks = w.tasks) (hacc : w'.log.accepted = w.log.accepted)
    (hpassed : handlerSends w'.log.passed = handlerSends w.log.passed)
    (hsent : w'.log.sent = w.log.sent) : Complete frames w' :=
  ⟨hstarted.trans hi.handled, htasks.trans hi.returned,
    by rw [hpassed, hacc]; exact hi.accepted, by rw [hsent, hacc]; exact hi.sent⟩

theorem FlowInv.step_complete {s : Stream} {w w' : World} {a : Act} (hp : PoolInv w)
    (hi : FlowInv s w) (hG : Undisturbed w a) (h : Step w a w') :
    w'.conn.state ≠ .connected → Complete s.frames w' := by
  have hcomplete := hi.complete
  -- a closed connection has no task in the pool
  have hnoTask : ∀ {i : Nat} {t : Task}, w.tasks[i]? = some t → w.conn.state = .connected := by
    intro i t hti
    by_contra hc
    simp [(hcomplete hc).returned] at hti
  cases h with
  | closeCas ret hl hc => exact fun _ => (hi.complete_of_closeCas hp hl).congr rfl rfl rfl rfl rfl
  | runSend origin response rest hl hq =>
    refine of_runSend (P := fun v => v.conn.state ≠ .connected → Complete s.frames v)
      hp.send.flushed (hG response (by simp [hq, Callback.response]))
      (fun hc hne => absurd hc hne) (fun hc _ => ?_)
    exact (hcomplete hc).congr rfl rfl rfl rfl rfl
  | inlineSend response hl =>
    refine of_runSend (P := fun v => v.conn.state ≠ .connected → Complete s.frames v)
      hp.send.flushed hG (fun hc hne => absurd hc hne) (fun hc _ => ?_)
    exact (hcomplete hc).congr rfl rfl rfl (by simp) rfl
  | removed ret fd hl =>
    intro _
    obtain ⟨afd, st, r, wr, ch, co, he, hst⟩ := removeConnection_eq w fd
    rw [he]
    exact (hcomplete (hp.close.closing (by simp [hl]))).congr rfl rfl rfl rfl rfl
  | extSend response => exact fun hc => (hcomplete hc).congr rfl rfl rfl (by simp) rfl
  | submitAccepted msg hl hpool =>
    exact fun hc => absurd (hp.task.scheduling (by simp [hl])) hc
  | send n hl hpos hn => exact fun hc => absurd hl (hi.path.closed hc).2
  | taskChecked i t hti hpc hc => exact fun hne => absurd (hnoTask hti) hne
  | taskSkipped i t hti hpc hc => exact fun hne => absurd (hnoTask hti) hne
  | handlerStart i t hti hpc => exact fun hne => absurd (hnoTask hti) hne
  | handlerPost i t response hti hpc => exact fun hne => absurd (hnoTask hti) hne
  | taskNext i t next rest hti hpc hc hq => exact fun hne => absurd (hnoTask hti) hne
  | taskLast i t hti hpc hc hq => exact fun hne => absurd (hnoTask hti) hne
  | taskFinalize i t hti hpc hc hpend => exact fun hne => absurd (hnoTask hti) hne
  | taskClosed i t hti hpc hc hpend => exact fun hne => absurd (hnoTask hti) hne
  | nextAccepted i t next hti hpc hpool => exact fun hne => absurd (hnoTask hti) hne
  | nextRejected i t next hti hpc hpool => exact fun hne => absurd (hnoTask hti) hne
  | handlerSend i t response hti hpc => exact fun hne => absurd (hnoTask hti) hne
  | handlerReturn i t hti hpc => exact fun hne => absurd (hnoTask hti) hne
  | _ => exact fun hc => (hcomplete hc).congr rfl rfl rfl rfl rfl

theorem FlowInv.step {s : Stream} {w w' : World} {a : Act} (hp : PoolInv w) (hi : FlowInv s w)
    (hG : Undisturbed w a) (h : Step w a w') : FlowInv s w' :=
  ⟨hi.step_path hp hG h, hi.step_frame hp hG h, hi.step_drain hp hG h, hi.step_complete hp hG h⟩

/-! ## §4 Whole runs -/

/-- Nothing of the connection is left to run: no thread holds anything of it, and `epoll`
has nothing to watch for. -/
structure World.Quiet (w : World) : Prop where
  loop : w.loop = .idle
  tasks : w.tasks = []
  posting : w.posting = []
  taskQueue : w.taskQueue = []
  events : w.conn.reading = false ∧ w.conn.writing = false

/-- Nothing holds a half-closed connection open: the peer's input has ended, every request is
done, every response has been handed to `send`, and the loop has nothing of it at hand. -/
structure World.Drained (w : World) : Prop where
  eof : w.conn.peerReadClosed = true
  tasks : w.conn.pendingTasks = [] ∧ w.tasks = []
  completions : ¬ w.InOnTaskComplete
  sends : w.conn.pendingSendCallbacks = 0
  output : w.conn.sendQueue = [] ∧ w.conn.outBuffer = []
  loop : w.loop = .idle ∧ w.taskQueue = []

/-- A drained connection has been closed: whichever of the drain events came last has run the
check. -/
theorem PoolInv.not_connected_of_drained {w : World} (hp : PoolInv w) (hd : w.Drained) :
    w.conn.state ≠ .connected := by
  intro hc
  have hidle : w.conn.taskRunning = false := by
    have htok := hp.task.token
    cases hr : w.conn.taskRunning with
    | false => rfl
    | true => simp [hd.loop.1, hd.tasks.2, hr] at htok
  obtain hrun | hsend | hout | hposting | hqueue := hp.alarm.due hc hd.eof hd.loop.1
  · simp [hidle] at hrun
  · exact hsend hd.sends
  · exact hout hd.output.2
  · exact hd.completions (Or.inr (Or.inr (Or.inl hposting)))
  · simp [hd.loop.2] at hqueue

/-- A connection at rest has been closed. -/
theorem PoolInv.not_connected_of_quiet {w : World} (hp : PoolInv w) (hq : w.Quiet) :
    w.conn.state ≠ .connected := by
  intro hc
  have heof : w.conn.peerReadClosed = true := by
    by_contra hne
    have hreading := hp.alarm.reading hc (by simpa using hne)
    simp [hq.events.1] at hreading
  have hpending : w.conn.pendingTasks = [] := by
    by_contra hne
    have htok := hp.task.token
    simp [hq.loop, hq.tasks, hp.task.queued hne] at htok
  have hwaiting : w.conn.pendingSendCallbacks = 0 := by
    simpa [hq.posting, hq.taskQueue, hq.tasks] using hp.send.waiting hc
  have hout : w.conn.outBuffer = [] := by
    by_contra hne
    have hwriting := hp.alarm.writing hc hne (by simp [hq.loop])
    simp [hq.events.2] at hwriting
  have hcompletions : ¬ w.InOnTaskComplete := by
    simp [World.InOnTaskComplete, hq.loop, hq.posting, hq.tasks]
  exact hp.not_connected_of_drained ⟨heof, ⟨hpending, hq.tasks⟩, hcompletions, hwaiting,
    ⟨hp.send.flushed, hout⟩, ⟨hq.loop, hq.taskQueue⟩⟩ hc

/-- **No leaked half-closed connection**: in every state of every interleaving, a connection
that is drained has left `connected`. -/
theorem drained_not_connected (fd : Int) (stream : Bytes) (acts : List Act) (w : World)
    (hrun : run World.step (World.init fd stream) acts = some w) (hdrained : w.Drained) :
    w.conn.state ≠ .connected := by
  have hp : PoolInv w :=
    run_invariant (fun _ _ _ hi h => PoolInv.step hi (step_cases h)) (.init fd stream) hrun
  exact hp.not_connected_of_drained hdrained

/-- A heartbeat and the end of file; the last response is written while a broadcast of another
thread is on its way, and the callback of the broadcast runs the last check. -/
def drainedByBroadcast : List Act :=
  [.readEvent, .readv 10, .readvEof, .loop, .loop, .loop, .loop, .loop, .worker 0, .worker 0,
    .handlerSend 0 ⟨.heartbeatResp, 1, []⟩, .worker 0, .extSend ⟨.broadcastMsg, 0, [0x68]⟩,
    .handlerReturn 0, .worker 0, .post .check, .runCallback true, .loop, .loop,
    .runCallback true, .loop, .loop, .writeEvent, .send 10, .loop, .loop, .loop,
    .post (.send none ⟨.broadcastMsg, 0, [0x68]⟩), .runCallback true, .loop, .loop, .loop,
    .writeEvent, .send 11, .loop, .loop, .loop, .loop, .loop, .loop, .loop, .loop, .loop]

theorem drained_not_connected_broadcast :
    ∃ w, run World.step (World.init 7 (encodeMessage ⟨.heartbeatReq, 1, []⟩)) drainedByBroadcast =
      some w ∧ w.Drained ∧ w.conn.state ≠ .connected := by
  have hlast : ((run World.step (World.init 7 (encodeMessage ⟨.heartbeatReq, 1, []⟩))
      drainedByBroadcast).any fun w => decide (w.conn.peerReadClosed = true ∧
        (w.conn.pendingTasks = [] ∧ w.tasks = []) ∧ w.posting = [] ∧
        w.conn.pendingSendCallbacks = 0 ∧ (w.conn.sendQueue = [] ∧ w.conn.outBuffer = []) ∧
        (w.loop = .idle ∧ w.taskQueue = []))) = true := by
    decide
  obtain ⟨w, hw, hp⟩ := exists_of_run_any hlast
  obtain ⟨heof, htasks, hposting, hsends, houtput, hloop⟩ := of_decide_eq_true hp
  have hdrained : w.Drained := ⟨heof, htasks, by
    simp [World.InOnTaskComplete, hloop.1, hposting, htasks.2], hsends, houtput, hloop⟩
  exact ⟨w, hw, hdrained, drained_not_connected 7 _ drainedByBroadcast w hw hdrained⟩

/-- **Half-close completeness**: for a stream of frames with an incomplete tail and then the
end of file, in every undisturbed interleaving and every chunking, handlers are started in
stream order and once for each frame; when the state has left `connected` all of them have
been started and have returned, and every response they passed to `sendResponse` has been
handed to `send`; and a connection with nothing left to run has left `connected`. -/
theorem halfClose_complete (fd : Int) (s : Stream) (acts : List Act) (w : World)
    (hrun : run World.step (World.init fd (encodeAll s.frames ++ s.tail)) acts = some w)
    (hmeets : Meets World.step Undisturbed (World.init fd (encodeAll s.frames ++ s.tail)) acts) :
    w.log.started <+: s.frames ∧
      (w.conn.state ≠ .connected →
        w.log.started = s.frames ∧ (∀ t ∈ w.tasks, ¬ t.Executing) ∧
        handlerSends w.log.passed = handlerSends w.log.accepted ∧
        w.log.sent = encodeAll (w.log.accepted.map Prod.snd)) ∧
      (w.Quiet → w.conn.state ≠ .connected) := by
  obtain ⟨hp, hi⟩ := run_invariant_of_meets (P := fun w => PoolInv w ∧ FlowInv s w)
    (fun _ _ _ hi hG h => ⟨hi.1.step (step_cases h), hi.2.step hi.1 hG (step_cases h)⟩)
    ⟨.init fd _, .init fd s⟩ hmeets hrun
  refine ⟨?_, fun hc => ?_, hp.not_connected_of_quiet⟩
  · by_cases hc : w.conn.state = .connected
    · obtain ⟨rest, hsched, -, -⟩ := hi.frame.flow hc
      rw [← hsched]
      simp only [World.scheduled, List.append_assoc]
      exact List.prefix_append _ _
    · exact (hi.complete hc).handled ▸ List.prefix_refl _
  · have hdone := hi.complete hc
    exact ⟨hdone.handled, by simp [hdone.returned], hdone.accepted, hdone.sent⟩

/-- Two heartbeats and two bytes of a third frame, then the end of file. -/
def halfClosedStream : Stream where
  frames := [⟨.heartbeatReq, 1, []⟩, ⟨.heartbeatReq, 2, []⟩]
  tail := [0, 0]
  fits := by decide
  incomplete := by decide

/-- The data and the end of file arrive in one `read`; both handlers run before the loop
gets to their responses. -/
def halfClosedRun : List Act :=
  [.readEvent, .readv 22, .readvEof, .loop, .loop, .loop, .loop, .loop, .loop, .loop,
    .worker 0, .worker 0, .handlerSend 0 ⟨.heartbeatResp, 1, []⟩, .worker 0, .handlerReturn 0,
    .worker 0, .worker 0, .worker 0, .worker 0, .handlerSend 0 ⟨.heartbeatResp, 2, []⟩,
    .worker 0, .handlerReturn 0, .worker 0, .post .check,
    .runCallback true, .loop, .loop, .runCallback true, .loop, .loop, .loop,
    .runCallback true, .loop, .loop, .loop, .writeEvent, .send 15, .send 5, .loop, .loop, .loop,
    .loop, .loop]

theorem halfClose_complete_two :
    ∃ w, run World.step (World.init 7 (encodeAll halfClosedStream.frames ++ halfClosedStream.tail))
        halfClosedRun = some w ∧
      w.conn.state = .closing ∧ w.log.started = halfClosedStream.frames ∧
      w.log.sent = encodeAll (w.log.accepted.map Prod.snd) ∧ w.log.accepted.length = 2 := by
  have hlast : ((run World.step
      (World.init 7 (encodeAll halfClosedStream.frames ++ halfClosedStream.tail))
      halfClosedRun).any fun w =>
        decide (w.conn.state = .closing ∧ w.log.accepted.length = 2)) = true := by
    decide
  have hmeets : Meets World.step Undisturbed
      (World.init 7 (encodeAll halfClosedStream.frames ++ halfClosedStream.tail))
      halfClosedRun := by
    decide
  obtain ⟨w, hw, hlast⟩ := exists_of_run_any hlast
  obtain ⟨hstate, hlen⟩ := of_decide_eq_true hlast
  have hdone := (halfClose_complete 7 halfClosedStream halfClosedRun w hw hmeets).2.1
    (by simp [hstate])
  exact ⟨w, hw, hstate, hdone.1, hdone.2.2.2, hlen⟩

end EchoNet.Net.PoolMachine
