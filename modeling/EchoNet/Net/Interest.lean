import EchoNet.Net.InlineSubmit

/-!
# Event Interest

What `epoll` watches on the descriptor of a connection, next to the `events_` of its
`Channel`.  The two are written separately: `enableWriting`, `disableWriting` and
`disableReading` change the channel, and `EventLoop::updateChannel`, `updateChannelEvent`,
`removeChannel` and `removeConnection` make the system call.  `epoll_ctl` succeeds here.

`Polled` adds the kernel's set to the machines of both submit callbacks, the worker pool's
(`EchoNet.Net.PoolMachine`) and the gateway's (`EchoNet.Net.InlineSubmit`).

## Main result

`interest_matches`: between two callbacks of the loop a connected connection waits for
`EPOLLOUT` exactly if it has output, for `EPOLLIN` and `EPOLLRDHUP` exactly until the end of
file, has an empty `sendQueue_`, and its channel says the same as the kernel.
-/

namespace EchoNet.Net

open EchoNet.Lib EchoNet.Protocol

open PoolMachine (World Act LoopPc Callback)
open PoolMachine.World (Step)

/-! ## §1 The kernel's set -/

/-- The bits of `epoll_event::events` that the event loop asks for. -/
structure Interest where
  input : Bool
  output : Bool
  rdhup : Bool
  deriving DecidableEq, Repr

/-- `ev.events` of `updateChannel` and `updateChannelEvent`: `EPOLLRDHUP` goes with `EPOLLIN`. -/
def Interest.ofChannel (c : Connection) : Interest := ⟨c.reading, c.writing, c.reading⟩

/-- A call of `epoll_ctl` after the registration. -/
inductive EpollCtl where
  | mod
  | del
  deriving DecidableEq, Repr

/-- The set after the call; `c` is the connection whose channel it is made for. -/
def EpollCtl.apply (c : Connection) : EpollCtl → Option Interest → Option Interest
  | .mod, some _ => some (.ofChannel c)
  | .mod, none => none
  | .del, _ => none

/-- `flushSendQueue`, in the callback of `sendResponse`, comes to its `updateChannelEvent`. -/
def Connection.flushes (c : Connection) (response : MyMessage) : Bool :=
  c.isConnected && !(c.sendCallback response).2 && !(c.sendCallback response).1.outBuffer.isEmpty

/-- The call that a step makes. -/
def epollCtl (w : World) : Act → Option EpollCtl
  -- `read`, after `disableReading`
  | .readvEof => some .mod
  | .runCallback true =>
    match w.taskQueue with
    | .send _ response :: _ => if w.conn.flushes response then some .mod else none
    | _ => none
  | .inlineSend response => if w.conn.flushes response then some .mod else none
  | .loop =>
    match w.loop with
    -- `write`, after `disableWriting`
    | .writing => some .mod
    -- `removeChannel`, and `removeConnection` for a channel that is still there
    | .closeBuffers _ true => some .del
    | .removing _ fd => if fd = w.conn.fd ∧ w.inChannels = true then some .del else none
    | _ => none
  | _ => none

structure Polled where
  world : World
  interest : Option Interest

namespace Polled

/-- Right after `updateChannel(channel, EPOLLIN)`. -/
def init (w : World) : Polled := ⟨w, some (.ofChannel w.conn)⟩

/-- The set after a step from `w` to `w'`. -/
def interestAfter (w w' : World) (a : Act) (interest : Option Interest) : Option Interest :=
  match epollCtl w a with
  | some call => call.apply w'.conn interest
  | none => interest

/-- One step of the machine `next`, with its system call. -/
def step (next : World → Act → Option World) (p : Polled) (a : Act) : Option Polled :=
  (next p.world a).map fun w => ⟨w, interestAfter p.world w a p.interest⟩

/-! ## §2 The invariant -/

/-- What holds in every state of both machines. -/
structure Inv (w : World) (interest : Option Interest) : Prop where
  flushed : w.conn.sendQueue = []
  closing : w.loop.closes = true → w.conn.state ≠ .connected
  finalizes : .finalize ∈ w.posting ++ w.taskQueue → w.conn.state ≠ .connected
  kernel : w.conn.state = .connected → interest = some (.ofChannel w.conn)
  reading : w.conn.state = .connected → (w.conn.reading = true ↔ w.conn.peerReadClosed = false)
  /-- output that nobody waits for is about to be discarded -/
  output : w.conn.state = .connected → w.conn.outBuffer ≠ [] → w.loop.inHandleClose = false →
    w.conn.writing = true
  /-- the bit is set until `write` has made the system call -/
  writing : w.conn.state = .connected → w.conn.writing = true →
    w.conn.outBuffer ≠ [] ∨ w.loop = .writing

theorem Inv.init (fd : Int) (stream : Bytes) :
    Inv (World.init fd stream) (Polled.init (World.init fd stream)).interest := by
  constructor <;> simp [World.init, Connection.create, Polled.init]

theorem Inv.init_outbound (fd : Int) (stream : Bytes) :
    Inv (InlineSubmit.outbound fd stream)
      (Polled.init (InlineSubmit.outbound fd stream)).interest := by
  constructor <;> simp [InlineSubmit.outbound, World.init, Connection.create, Polled.init]

/-- A connection that is not connected waits for nothing. -/
private theorem Inv.of_not_connected {w : World} {interest : Option Interest}
    (hflushed : w.conn.sendQueue = []) (h : w.conn.state ≠ .connected) : Inv w interest :=
  ⟨hflushed, fun _ => h, fun _ => h, fun hc => absurd hc h, fun hc => absurd hc h,
    fun hc => absurd hc h, fun hc => absurd hc h⟩

/-- A step that leaves the channel and the output alone. -/
private theorem Inv.congr {w w' : World} {interest : Option Interest} (hi : Inv w interest)
    (hstate : w'.conn.state = w.conn.state) (hqueue : w'.conn.sendQueue = w.conn.sendQueue)
    (hpeer : w'.conn.peerReadClosed = w.conn.peerReadClosed)
    (hreading : w'.conn.reading = w.conn.reading) (hwriting : w'.conn.writing = w.conn.writing)
    (houtput : w'.conn.outBuffer = w.conn.outBuffer)
    (hcloses : w'.loop.closes = true → w.loop.closes = true)
    (hhandle : w'.loop.inHandleClose = false → w.loop.inHandleClose = false)
    (hwrite : w.loop = .writing → w.conn.outBuffer ≠ [] ∨ w'.loop = .writing)
    (hfinal : .finalize ∈ w'.posting ++ w'.taskQueue → .finalize ∈ w.posting ++ w.taskQueue) :
    Inv w' interest := by
  constructor
  · exact hqueue.trans hi.flushed
  · exact fun hc => hstate ▸ hi.closing (hcloses hc)
  · exact fun hm => hstate ▸ hi.finalizes (hfinal hm)
  · intro hc
    rw [Interest.ofChannel, hreading, hwriting]
    exact hi.kernel (hstate ▸ hc)
  · rw [hstate, hreading, hpeer]
    exact hi.reading
  · rw [hstate, houtput, hwriting]
    exact fun hc ho hh => hi.output hc ho (hhandle hh)
  · rw [hstate, houtput, hwriting]
    exact fun hc hw => (hi.writing hc hw).elim Or.inl hwrite

/-- The wait count plays no part in the flush. -/
private theorem flushes_waiting (c : Connection) (n : Nat) (response : MyMessage) :
    ({ c with pendingSendCallbacks := n } : Connection).flushes response = c.flushes response := by
  unfold Connection.flushes Connection.sendCallback Connection.flushSendQueue
  dsimp only
  split_ifs <;> rfl

/-- The callback of a response: below the high water mark the output is waited for. -/
private theorem Inv.runSend {w : World} {interest : Option Interest} (hi : Inv w interest)
    (origin : PoolMachine.Origin) (response : MyMessage) :
    Inv (w.runSend origin response)
      (if w.conn.flushes response then EpollCtl.mod.apply (w.runSend origin response).conn interest
        else interest) := by
  have hfinal := hi.finalizes
  by_cases hc : w.conn.state = .connected
  · have hconn : w.conn.isConnected = true := by simpa using hc
    have hsend := Connection.sendCallback_of_connected hc hi.flushed response
    by_cases hover : Connection.highWaterMark <
        (w.conn.outBuffer ++ encodeMessage response).length
    -- overflow: `handleClose` comes before the call, with the response still in the buffer
    · rw [if_pos hover] at hsend
      have hno : w.conn.flushes response = false := by simp [Connection.flushes, hsend]
      have hsome : w.conn.outBuffer ++ encodeMessage response ≠ [] := by
        simp [encodeMessage_ne_nil]
      simp only [World.runSend, hconn, hsend, hno, if_true]
      exact ⟨hi.flushed, by simp, hfinal, hi.kernel, hi.reading, by simp, fun _ _ => Or.inl hsome⟩
    -- otherwise there is output, and the call turns `EPOLLOUT` on
    · rw [if_neg hover] at hsend
      have hyes : w.conn.flushes response = true := by
        simp [Connection.flushes, hsend, hconn, encodeMessage_ne_nil]
      simp only [World.runSend, hconn, hsend, hyes, if_true, hi.kernel hc]
      exact ⟨hi.flushed, by simp, hfinal, fun _ => rfl, hi.reading, by simp,
        fun _ _ => Or.inl (by simp [encodeMessage_ne_nil])⟩
  -- a response for a closed connection is dropped
  · have hconn : w.conn.isConnected = false := by simpa using hc
    have hno : w.conn.flushes response = false := by simp [Connection.flushes, hconn]
    simp only [World.runSend, hconn, hno, Connection.sendCallback_of_not_connected hc]
    exact .of_not_connected hi.flushed hc

/-- A step without a system call that leaves the channel and the output alone. -/
private theorem Inv.quiet {w w' : World} {a : Act} {interest : Option Interest} (hi : Inv w interest)
    (hcall : epollCtl w a = none) (hstate : w'.conn.state = w.conn.state)
    (hqueue : w'.conn.sendQueue = w.conn.sendQueue)
    (hpeer : w'.conn.peerReadClosed = w.conn.peerReadClosed)
    (hreading : w'.conn.reading = w.conn.reading) (hwriting : w'.conn.writing = w.conn.writing)
    (houtput : w'.conn.outBuffer = w.conn.outBuffer)
    (hloop : w'.loop = w.loop ∨ w'.loop.closes = false ∧ w.loop.inHandleClose = false ∧
      (w.loop = .writing → w.conn.outBuffer ≠ []))
    (hfinal : .finalize ∈ w'.posting ++ w'.taskQueue → .finalize ∈ w.posting ++ w.taskQueue) :
    Inv w' (interestAfter w w' a interest) := by
  rw [interestAfter, hcall]
  rcases hloop with hloop | ⟨hcloses, hhandle, hwrite⟩
  · exact hi.congr hstate hqueue hpeer hreading hwriting houtput (hloop ▸ id) (hloop ▸ id)
      (fun hl => Or.inr (hloop.trans hl)) hfinal
  · refine hi.congr hstate hqueue hpeer hreading hwriting houtput (fun h => ?_) (fun _ => hhandle)
      (fun hl => Or.inl (hwrite hl)) hfinal
    rw [hcloses] at h
    cases h

/-- **A step** of the code that both machines share. -/
theorem Inv.step {w w' : World} {a : Act} {interest : Option Interest} (hi : Inv w interest)
    (h : Step w a w') : Inv w' (interestAfter w w' a interest) := by
  cases h with
  | runSend origin response rest hl hq =>
    -- the callback leaves the queue, then it runs
    have hkept : Inv { w with taskQueue := rest } interest :=
      hi.congr rfl rfl rfl rfl rfl rfl id id Or.inr fun hm => by
        simp only [hq, List.mem_append, List.mem_cons] at hm ⊢
        exact hm.imp_right Or.inr
    have hsent := hkept.runSend origin response
    rw [interestAfter, epollCtl, hq]
    dsimp only at hsent ⊢
    split_ifs at hsent ⊢ <;> exact hsent
  | inlineSend response hl =>
    have hkept : Inv { w with
        conn := { w.conn with pendingSendCallbacks := w.conn.pendingSendCallbacks + 1 }
        log := { w.log with passed := w.log.passed ++ [(none, response)] } } interest :=
      hi.congr rfl rfl rfl rfl rfl rfl id id Or.inr id
    have hsent := hkept.runSend none response
    rw [flushes_waiting] at hsent
    rw [interestAfter, epollCtl]
    dsimp only at hsent ⊢
    split_ifs at hsent ⊢ <;> exact hsent
  | readvEof hl ht =>
    refine ⟨hi.flushed, by simp, hi.finalizes, fun hc => ?_, by simp, fun hc ho _ => ?_,
      fun hc hw => ?_⟩
    · rw [interestAfter, epollCtl, hi.kernel hc]
      rfl
    · exact hi.output hc ho (by simp [hl])
    · exact Or.inl ((hi.writing hc hw).resolve_right (by simp [hl]))
  | writeDone hl ho =>
    refine ⟨hi.flushed, by simp, hi.finalizes, fun hc => ?_, hi.reading, fun _ hne => ?_, by simp⟩
    · rw [interestAfter, epollCtl, hl, hi.kernel hc]
      rfl
    · exact absurd ho hne
  | closeCas ret hl hc => exact .of_not_connected hi.flushed (by simp)
  | closeTasks ret hl => exact .of_not_connected hi.flushed (hi.closing (by simp [hl]))
  | closeDefer ret hl => exact .of_not_connected rfl (hi.closing (by simp [hl]))
  | closeNow ret hl => exact .of_not_connected rfl (hi.closing (by simp [hl]))
  | businessClosed ret fd hl => exact .of_not_connected hi.flushed (hi.closing (by simp [hl]))
  | removed ret fd hl =>
    obtain ⟨afd, st, r, wr, ch, co, he, hst⟩ := PoolMachine.removeConnection_eq w fd
    rw [he]
    exact .of_not_connected hi.flushed fun hc => hi.closing (by simp [hl]) (hst hc)
  | closeAgain ret hl hc => exact .of_not_connected hi.flushed hc
  | runFinalize rest hl hq =>
    exact .of_not_connected hi.flushed (hi.finalizes (by simp [hq]))
  | completeFinalize hl hc hp => exact .of_not_connected hi.flushed hc
  | taskFinalize i t hti hpc hc hp => exact .of_not_connected hi.flushed hc
  | send n hl hpos hn =>
    refine ⟨hi.flushed, by simp [hl], hi.finalizes, hi.kernel, hi.reading, fun hc ho hh => ?_,
      fun _ _ => Or.inr hl⟩
    refine hi.output hc (fun hnil => ho ?_) hh
    simp [hnil]
  | runExpired cb rest hl hq hh =>
    refine hi.quiet rfl rfl rfl rfl rfl rfl rfl (Or.inl rfl) fun hf => ?_
    simp only [hq, List.mem_append, List.mem_cons] at hf ⊢
    exact hf.imp_right Or.inr
  | post cb hm =>
    refine hi.quiet rfl rfl rfl rfl rfl rfl rfl (Or.inl rfl) fun hf => ?_
    simp only [List.mem_append, List.mem_singleton] at hf ⊢
    rcases hf with hf | hf | rfl
    · exact Or.inl (List.mem_of_mem_erase hf)
    · exact Or.inr hf
    · exact Or.inl hm
  -- the other steps make no system call
  | _ => exact hi.quiet (by simp_all [epollCtl]) rfl rfl rfl rfl rfl rfl (by simp_all) (by simp_all)

/-- A step of the worker pool's machine. -/
theorem Inv.step_pool {p p' : Polled} {a : Act} (hi : Inv p.world p.interest)
    (h : Polled.step World.step p a = some p') : Inv p'.world p'.interest := by
  obtain ⟨w, hw, rfl⟩ := Option.map_eq_some_iff.mp h
  exact hi.step (PoolMachine.World.step_cases hw)

/-- A step of the inline machine: its own submit callback and its own event make no call. -/
theorem Inv.step_inline {p p' : Polled} {a : Act} (hi : Inv p.world p.interest)
    (h : Polled.step InlineSubmit.step p a = some p') : Inv p'.world p'.interest := by
  obtain ⟨w, hw, rfl⟩ := Option.map_eq_some_iff.mp h
  obtain ⟨msg, rfl, hl, rfl⟩ | ⟨cause, rfl⟩ | ⟨hstep, -, -⟩ := InlineSubmit.step_cases hw
  · unfold InlineSubmit.runInline
    dsimp only
    split_ifs <;>
      exact hi.quiet (by simp [epollCtl, hl]) rfl rfl rfl rfl rfl rfl (by simp [hl]) id
  · simp only [InlineSubmit.step] at hw
    split_ifs at hw with hcause
    cases hw
    exact hi.quiet (a := .closeEvent cause) rfl rfl rfl rfl rfl rfl rfl (by simp [hcause.1]) id
  · exact hi.step hstep

/-! ## §3 Between two callbacks -/

/-- The kernel's set `i` is the one that the connection needs, and the one its channel records. -/
structure Matches (i : Interest) (c : Connection) : Prop where
  output : i.output = true ↔ c.outBuffer ≠ []
  input : i.input = true ↔ c.peerReadClosed = false
  rdhup : i.rdhup = i.input
  flushed : c.sendQueue = []
  channel : c.reading = i.input ∧ c.writing = i.output

theorem Inv.matches {w : World} {interest : Option Interest} (hi : Inv w interest)
    (hidle : w.loop = .idle) (hc : w.conn.state = .connected) :
    ∃ i, interest = some i ∧ Matches i w.conn := by
  refine ⟨.ofChannel w.conn, hi.kernel hc, ?_, hi.reading hc, rfl, hi.flushed, rfl, rfl⟩
  constructor
  · exact fun hw => (hi.writing hc hw).resolve_right (by simp [hidle])
  · exact fun ho => hi.output hc ho (by simp [hidle])

/-- **Event interest**: in every state of every run of a registered connection, under either
submit callback, in which the loop is between two callbacks and the connection is connected,
the kernel's set matches the work that is left. -/
theorem interest_matches {fd : Int} {stream : Bytes} {acts : List Act} {p : Polled}
    (hrun : run (step World.step) (init (World.init fd stream)) acts = some p ∨
      run (step InlineSubmit.step) (init (InlineSubmit.outbound fd stream)) acts = some p)
    (hidle : p.world.loop = .idle) (hc : p.world.conn.state = .connected) :
    ∃ i, p.interest = some i ∧ Matches i p.world.conn := by
  have hi : Inv p.world p.interest := by
    rcases hrun with hrun | hrun
    · exact run_invariant (P := fun q => Inv q.world q.interest) (fun _ _ _ => Inv.step_pool)
        (Inv.init fd stream) hrun
    · exact run_invariant (P := fun q => Inv q.world q.interest) (fun _ _ _ => Inv.step_inline)
        (Inv.init_outbound fd stream) hrun
  exact hi.matches hidle hc

/-- A request is answered, half of the answer is sent, the peer closes its sending side, and
the rest is sent. -/
def answered : List Act :=
  [.readEvent, .readv 10, .readvAgain, .loop, .loop, .loop, .loop, .loop, .worker 0, .worker 0,
    .handlerSend 0 ⟨.heartbeatResp, 1, []⟩, .worker 0, .handlerReturn 0, .worker 0,
    .runCallback true, .loop, .writeEvent, .send 4, .sendAgain, .readEvent, .readvEof, .loop,
    .loop, .loop, .loop]

theorem interest_matches_answered :
    ∃ p, run (step World.step) (init (World.init 7 (encodeMessage ⟨.heartbeatReq, 1, []⟩)))
      answered = some p ∧ p.world.conn.outBuffer.length = 6 ∧
      ∃ i, p.interest = some i ∧ Matches i p.world.conn := by
  have hlast : ((run (step World.step)
      (init (World.init 7 (encodeMessage ⟨.heartbeatReq, 1, []⟩))) answered).any fun p =>
        decide (p.world.conn.outBuffer.length = 6 ∧ p.world.loop = .idle ∧
          p.world.conn.state = .connected)) = true := by
    decide +kernel
  obtain ⟨p, hp, hlast⟩ := exists_of_run_any hlast
  obtain ⟨hout, hidle, hc⟩ := of_decide_eq_true hlast
  exact ⟨p, hp, hout, interest_matches (Or.inl hp) hidle hc⟩

end Polled

end EchoNet.Net
