import EchoNet.Net.CloseProtocol

/-!
# The Output Side of a Connection

What holds of the responses of a connection in every run of the pool machine: where a
response is between the call of `sendResponse` and `send`, that the bytes handed to `send`
are those of the accepted responses, and that a connection that still has something to
finish after the end of file has something that will bring it back to the drain check.

- `SendInv`: bytes, order and the count of waiting send callbacks;
- `AlarmInv`: event interest and the drain check that is still to come.
-/

namespace EchoNet.Net.PoolMachine

open EchoNet.Lib EchoNet.Protocol

open World

/-! ## §1 Responses on their way -/

/-- The response a posted callback carries. -/
def Callback.sends : Callback → List (Origin × MyMessage)
  | .send origin response => [(origin, response)]
  | .close | .finalize | .check => []

def Callback.isSend : Callback → Bool
  | .send _ _ => true
  | .close | .finalize | .check => false

theorem Callback.length_sends (cb : Callback) : cb.sends.length = cb.isSend.toNat := by
  cases cb <;> rfl

/-- The response a handler has announced and not yet posted. -/
def Task.sends (t : Task) : List (Origin × MyMessage) :=
  match t.pc with
  | .sending response => [(some t.message, response)]
  | _ => []

/-- The responses in the loop's queue, oldest first. -/
def queuedSends (queue : List Callback) : List (Origin × MyMessage) :=
  queue.flatMap Callback.sends

@[simp] theorem queuedSends_nil : queuedSends [] = [] := rfl

@[simp] theorem queuedSends_cons (cb : Callback) (queue : List Callback) :
    queuedSends (cb :: queue) = cb.sends ++ queuedSends queue := rfl

@[simp] theorem queuedSends_append (queue : List Callback) (cb : Callback) :
    queuedSends (queue ++ [cb]) = queuedSends queue ++ cb.sends := by
  simp [queuedSends]

/-- The responses announced by the handlers in the pool. -/
def announcedSends (tasks : List Task) : List (Origin × MyMessage) := tasks.flatMap Task.sends

@[simp] theorem announcedSends_nil : announcedSends [] = [] := rfl

@[simp] theorem announcedSends_singleton (t : Task) : announcedSends [t] = t.sends := by
  simp [announcedSends]

/-- The responses passed by handlers of this connection. -/
def handlerSends (rs : List (Origin × MyMessage)) : List (Origin × MyMessage) :=
  rs.filter fun r => r.1.isSome

@[simp] theorem handlerSends_append (rs qs : List (Origin × MyMessage)) :
    handlerSends (rs ++ qs) = handlerSends rs ++ handlerSends qs := by
  simp [handlerSends]

@[simp] theorem handlerSends_nil : handlerSends [] = [] := rfl

@[simp] theorem handlerSends_external (response : MyMessage) :
    handlerSends [(none, response)] = [] := rfl

@[simp] theorem handlerSends_handler (request response : MyMessage) :
    handlerSends [(some request, response)] = [(some request, response)] := rfl

/-- A task of the pool is the only one. -/
theorem TaskInv.singleton {w : World} (hi : TaskInv w) {i : Nat} {t : Task}
    (ht : w.tasks[i]? = some t) : w.tasks = [t] ∧ i = 0 := by
  have hlen := (hi.running ht).2
  obtain ⟨u, hu⟩ := List.length_eq_one_iff.mp hlen
  rw [hu] at ht ⊢
  cases i with
  | zero => simpa using ht
  | succ i => simp at ht

/-! ## §2 Bytes, order and count -/

/-- While connected, the accepted responses are what has been sent or waits in
`outBuffer_`; the handlers' responses are accepted in the order in which they were passed;
and `pendingSendCallbacks_` counts the callbacks on their way. -/
structure SendInv (w : World) : Prop where
  flushed : w.conn.sendQueue = []
  bytes : w.conn.state = .connected →
    w.log.sent ++ w.conn.outBuffer = encodeAll (w.log.accepted.map Prod.snd)
  order : w.conn.state = .connected →
    handlerSends w.log.passed = handlerSends w.log.accepted ++
      handlerSends (queuedSends w.taskQueue) ++ announcedSends w.tasks
  waiting : w.conn.state = .connected →
    w.conn.pendingSendCallbacks = w.posting.countP Callback.isSend +
      (queuedSends w.taskQueue).length + (announcedSends w.tasks).length
  external : ∀ cb ∈ w.posting, handlerSends cb.sends = []

theorem SendInv.init (fd : Int) (stream : Bytes) : SendInv (World.init fd stream) := by
  constructor <;> simp [World.init, Connection.create]

/-- What the invariant reads. -/
private def sendView (w : World) :=
  (w.conn.sendQueue, w.conn.outBuffer, w.conn.pendingSendCallbacks, w.log.sent, w.log.accepted,
    w.log.passed, w.posting.filter Callback.isSend, queuedSends w.taskQueue,
    announcedSends w.tasks)

private theorem external_iff (l : List Callback) :
    (∀ cb ∈ l, handlerSends cb.sends = []) ↔
      ∀ cb ∈ l.filter Callback.isSend, handlerSends cb.sends = [] := by
  constructor
  · intro h cb hcb
    exact h cb (List.mem_of_mem_filter hcb)
  · intro h cb hcb
    cases hs : cb.isSend with
    | true => exact h cb (List.mem_filter.mpr ⟨hcb, hs⟩)
    | false => cases cb <;> first | rfl | cases hs

private theorem SendInv.congr {w w' : World} (hi : SendInv w)
    (hstate : w'.conn.state = .connected → w.conn.state = .connected)
    (hview : sendView w' = sendView w) : SendInv w' := by
  simp only [sendView, Prod.mk.injEq] at hview
  obtain ⟨hsq, hout, hpend, hsent, hacc, hpass, hpost, hqueue, htasks⟩ := hview
  constructor
  · rw [hsq]
    exact hi.flushed
  · intro hc
    rw [hsent, hout, hacc]
    exact hi.bytes (hstate hc)
  · intro hc
    rw [hpass, hacc, hqueue, htasks]
    exact hi.order (hstate hc)
  · intro hc
    rw [hpend, hqueue, htasks, List.countP_eq_length_filter, hpost,
      ← List.countP_eq_length_filter]
    exact hi.waiting (hstate hc)
  · rw [external_iff, hpost, ← external_iff]
    exact hi.external

/-- The callback of a response that was waiting, in the queue or nowhere: it leaves the
wait count and joins the accepted responses. -/
private theorem SendInv.runSend {w : World} {origin : Origin} {response : MyMessage}
    (hflushed : w.conn.sendQueue = [])
    (hbytes : w.conn.state = .connected →
      w.log.sent ++ w.conn.outBuffer = encodeAll (w.log.accepted.map Prod.snd))
    (horder : w.conn.state = .connected →
      handlerSends w.log.passed = handlerSends (w.log.accepted ++ [(origin, response)]) ++
        handlerSends (queuedSends w.taskQueue) ++ announcedSends w.tasks)
    (hwaiting : w.conn.state = .connected →
      w.conn.pendingSendCallbacks = w.posting.countP Callback.isSend +
        (queuedSends w.taskQueue).length + (announcedSends w.tasks).length + 1)
    (hexternal : ∀ cb ∈ w.posting, handlerSends cb.sends = []) :
    SendInv (w.runSend origin response) := by
  by_cases hc : w.conn.state = .connected
  · have hconn : w.conn.isConnected = true := by simpa using hc
    have hw := hwaiting hc
    have hb : w.log.sent ++ (w.conn.outBuffer ++ encodeMessage response) =
        encodeAll ((w.log.accepted ++ [(origin, response)]).map Prod.snd) := by
      rw [List.map_append, encodeAll_append, ← hbytes hc]
      simp
    unfold World.runSend
    rw [if_pos hconn, Connection.sendCallback_of_connected hc hflushed]
    by_cases hover : Connection.highWaterMark <
        (w.conn.outBuffer ++ encodeMessage response).length
    · rw [if_pos hover]
      exact ⟨hflushed, fun _ => hb, fun _ => horder hc, fun _ => by simp only; omega, hexternal⟩
    · rw [if_neg hover]
      exact ⟨hflushed, fun _ => hb, fun _ => horder hc, fun _ => by simp only; omega, hexternal⟩
  · have hconn : w.conn.isConnected = false := by simpa using hc
    unfold World.runSend
    rw [hconn, Connection.sendCallback_of_not_connected hc]
    exact ⟨hflushed, fun h => absurd h hc, fun h => absurd h hc, fun h => absurd h hc, hexternal⟩

theorem SendInv.step {w w' : World} {a : Act} (ht : TaskInv w) (hcl : CloseInv w)
    (hi : SendInv w) (h : Step w a w') : SendInv w' := by
  cases h with
  | runSend origin response rest hl hq =>
    refine SendInv.runSend hi.flushed hi.bytes (fun hc => ?_) (fun hc => ?_) hi.external
    · have horder := hi.order hc
      rw [hq, queuedSends_cons, handlerSends_append] at horder
      simpa [Callback.sends] using horder
    · have hwaiting := hi.waiting hc
      rw [hq, queuedSends_cons, List.length_append, Callback.length_sends] at hwaiting
      simp only [Callback.isSend, Bool.toNat_true] at hwaiting ⊢
      omega
  | inlineSend response hl =>
    refine SendInv.runSend hi.flushed hi.bytes (fun hc => ?_) (fun hc => ?_) hi.external
    · simpa using hi.order hc
    · simpa using hi.waiting hc
  | send n hl hpos hn =>
    refine ⟨hi.flushed, fun hc => ?_, hi.order, hi.waiting, hi.external⟩
    rw [← hi.bytes hc]
    simp
  | removed ret fd hl =>
    obtain ⟨afd, st, r, wr, ch, co, he, hst⟩ := removeConnection_eq w fd
    rw [he]
    exact hi.congr hst rfl
  | closeDefer ret hl =>
    have hc := hcl.closing (by simp [hl])
    exact ⟨rfl, fun h => absurd h hc, fun h => absurd h hc, fun h => absurd h hc, hi.external⟩
  | closeNow ret hl =>
    have hc := hcl.closing (by simp [hl])
    exact ⟨rfl, fun h => absurd h hc, fun h => absurd h hc, fun h => absurd h hc, hi.external⟩
  | runExpired cb rest hl hq hh =>
    have hc := hcl.not_connected_of_released hh
    exact ⟨hi.flushed, fun h => absurd h hc, fun h => absurd h hc, fun h => absurd h hc,
      hi.external⟩
  | post cb hm =>
    have hperm := List.perm_cons_erase hm
    have hcount := hperm.countP_eq Callback.isSend
    have hext := hi.external cb hm
    refine ⟨hi.flushed, hi.bytes, fun hc => ?_, fun hc => ?_,
      fun x hx => hi.external x (List.mem_of_mem_erase hx)⟩
    · rw [hi.order hc]
      simp [hext]
    · have hw := hi.waiting hc
      rw [List.countP_cons] at hcount
      simp only [queuedSends_append, List.length_append, Callback.length_sends]
      cases hs : cb.isSend <;> simp [hs] at hcount ⊢ <;> omega
  | extSend response =>
    refine ⟨hi.flushed, hi.bytes, fun hc => ?_, fun hc => ?_, ?_⟩
    · simpa using hi.order hc
    · have hw := hi.waiting hc
      simp [Callback.isSend]
      omega
    · intro cb hcb
      rcases List.mem_append.mp hcb with hold | hnew
      · exact hi.external cb hold
      · rw [List.mem_singleton.mp hnew]
        rfl
  | handlerSend i t response hti hpc =>
    obtain ⟨htasks, rfl⟩ := ht.singleton hti
    refine ⟨hi.flushed, hi.bytes, fun hc => ?_, fun hc => ?_, hi.external⟩
    · have horder := hi.order hc
      simp only [htasks, announcedSends_singleton, Task.sends, hpc, List.append_nil] at horder
      simp [htasks, Task.sends, horder]
    · have hw := hi.waiting hc
      simp only [htasks, announcedSends_singleton, Task.sends, hpc, List.length_nil] at hw
      simp [htasks, Task.sends, hw]
  | handlerPost i t response hti hpc =>
    obtain ⟨htasks, rfl⟩ := ht.singleton hti
    refine ⟨hi.flushed, hi.bytes, fun hc => ?_, fun hc => ?_, hi.external⟩
    · have horder := hi.order hc
      simp only [htasks, announcedSends_singleton, Task.sends, hpc] at horder
      simp [htasks, Task.sends, horder, Callback.sends]
    · have hw := hi.waiting hc
      simp only [htasks, announcedSends_singleton, Task.sends, hpc, List.length_singleton] at hw
      simp [htasks, Task.sends, Callback.sends, hw]
      omega
  -- the other steps of a worker neither announce nor post a response
  | taskChecked i t hti hpc hc =>
    obtain ⟨htasks, rfl⟩ := ht.singleton hti
    exact hi.congr id (by simp [sendView, htasks, Task.sends, hpc])
  | taskSkipped i t hti hpc hc =>
    obtain ⟨htasks, rfl⟩ := ht.singleton hti
    exact hi.congr id (by simp [sendView, htasks, Task.sends, hpc])
  | handlerStart i t hti hpc =>
    obtain ⟨htasks, rfl⟩ := ht.singleton hti
    exact hi.congr id (by simp [sendView, htasks, Task.sends, hpc])
  | taskNext i t next rest hti hpc hc hq =>
    obtain ⟨htasks, rfl⟩ := ht.singleton hti
    exact hi.congr id (by simp [sendView, htasks, Task.sends, hpc])
  | taskLast i t hti hpc hc hq =>
    obtain ⟨htasks, rfl⟩ := ht.singleton hti
    exact hi.congr id (by simp [sendView, htasks, Task.sends, hpc, Callback.isSend])
  | taskFinalize i t hti hpc hc hp =>
    obtain ⟨htasks, rfl⟩ := ht.singleton hti
    exact hi.congr id (by simp [sendView, htasks, Task.sends, hpc, Callback.isSend])
  | taskClosed i t hti hpc hc hp =>
    obtain ⟨htasks, rfl⟩ := ht.singleton hti
    exact hi.congr id (by simp [sendView, htasks, Task.sends, hpc, Callback.isSend])
  | nextAccepted i t next hti hpc hp =>
    obtain ⟨htasks, rfl⟩ := ht.singleton hti
    exact hi.congr id (by simp [sendView, htasks, Task.sends, hpc])
  | nextRejected i t next hti hpc hp =>
    obtain ⟨htasks, rfl⟩ := ht.singleton hti
    exact hi.congr id (by simp [sendView, htasks, Task.sends, hpc])
  | handlerReturn i t hti hpc =>
    obtain ⟨htasks, rfl⟩ := ht.singleton hti
    exact hi.congr id (by simp [sendView, htasks, Task.sends, hpc])
  | submitAccepted msg hl hp =>
    exact hi.congr id (by simp [sendView, announcedSends, Task.sends])
  -- and the other steps of the loop touch nothing the invariant reads
  | _ => exact hi.congr (by simp_all) (by simp_all [sendView, Callback.isSend, Callback.sends])

/-! ## §3 What brings the connection back -/

/-- Something of this connection will bring the loop back to the drain check. -/
def World.CheckDue (w : World) : Prop :=
  w.conn.taskRunning = true ∨ w.conn.pendingSendCallbacks ≠ 0 ∨ w.conn.outBuffer ≠ [] ∨
    .check ∈ w.posting ∨ .check ∈ w.taskQueue

/-- While connected the channel is registered, listens for input until the end of file and
for `EPOLLOUT` as long as there is output, and after the end of file the loop does not go
idle with nothing to bring it back. -/
structure AlarmInv (w : World) : Prop where
  channel : w.conn.state = .connected → w.inChannels = true
  reading : w.conn.state = .connected → w.conn.peerReadClosed = false → w.conn.reading = true
  writing : w.conn.state = .connected → w.conn.outBuffer ≠ [] → w.loop.inHandleClose = false →
    w.conn.writing = true
  due : w.conn.state = .connected → w.conn.peerReadClosed = true → w.loop = .idle → w.CheckDue

theorem AlarmInv.init (fd : Int) (stream : Bytes) : AlarmInv (World.init fd stream) := by
  constructor <;> simp [World.init, Connection.create]

/-- A closed connection has no alarm to keep. -/
private theorem AlarmInv.of_not_connected {w : World} (h : w.conn.state ≠ .connected) :
    AlarmInv w :=
  ⟨fun hc => absurd hc h, fun hc => absurd hc h, fun hc => absurd hc h, fun hc => absurd hc h⟩

/-- A send callback asks for `EPOLLOUT` and goes on to the drain check itself. -/
private theorem AlarmInv.runSend {w : World} (hq : w.conn.sendQueue = [])
    (hch : w.conn.state = .connected → w.inChannels = true)
    (hrd : w.conn.state = .connected → w.conn.peerReadClosed = false → w.conn.reading = true)
    (origin : Origin) (response : MyMessage) : AlarmInv (w.runSend origin response) := by
  by_cases hc : w.conn.state = .connected
  · have hconn : w.conn.isConnected = true := by simpa using hc
    unfold World.runSend
    rw [if_pos hconn, Connection.sendCallback_of_connected hc hq]
    by_cases hover : Connection.highWaterMark <
        (w.conn.outBuffer ++ encodeMessage response).length
    · rw [if_pos hover]
      exact ⟨hch, hrd, by simp, by simp⟩
    · rw [if_neg hover]
      exact ⟨hch, hrd, by simp, by simp⟩
  · refine .of_not_connected ?_
    obtain ⟨n, out, queue, wr, acc, pc, he, -⟩ := runSend_frame w origin response
    rw [he]
    exact hc

/-- A step that touches neither the channel nor the output, and after which an idle loop still
has something to bring it back. -/
private theorem AlarmInv.congr {w w' : World} (hi : AlarmInv w)
    (hstate : w'.conn.state = .connected → w.conn.state = .connected)
    (hpeer : w'.conn.peerReadClosed = w.conn.peerReadClosed)
    (hch : w'.inChannels = w.inChannels) (hrd : w'.conn.reading = w.conn.reading)
    (hout : w'.conn.outBuffer = w.conn.outBuffer) (hwr : w'.conn.writing = w.conn.writing)
    (hclose : w'.loop.inHandleClose = false → w.loop.inHandleClose = false)
    (hdue : w'.loop = .idle → w.loop = .idle ∧ (w.CheckDue → w'.CheckDue)) : AlarmInv w' := by
  constructor
  · rw [hch]
    exact fun hc => hi.channel (hstate hc)
  · rw [hpeer, hrd]
    exact fun hc => hi.reading (hstate hc)
  · rw [hout, hwr]
    exact fun hc ho hh => hi.writing (hstate hc) ho (hclose hh)
  · rw [hpeer]
    intro hc he hl
    obtain ⟨hidle, hkeep⟩ := hdue hl
    exact hkeep (hi.due (hstate hc) he hidle)

/-- The loop thread goes on, with something to bring it back. -/
private theorem AlarmInv.goto {w : World} (hi : AlarmInv w) {pc : LoopPc}
    (hclose : w.loop.inHandleClose = false)
    (hdue : w.conn.state = .connected → w.conn.peerReadClosed = true → w.CheckDue) :
    AlarmInv { w with loop := pc } :=
  ⟨hi.channel, hi.reading, fun hc ho _ => hi.writing hc ho hclose, fun hc he _ => hdue hc he⟩

theorem AlarmInv.step {w w' : World} {a : Act} (ht : TaskInv w) (hcl : CloseInv w)
    (hs : SendInv w) (hi : AlarmInv w) (h : Step w a w') : AlarmInv w' := by
  cases h with
  | runSend origin response rest hl hq =>
    refine AlarmInv.runSend ?_ ?_ ?_ origin response
    · exact hs.flushed
    · exact hi.channel
    · exact hi.reading
  | inlineSend response hl =>
    refine AlarmInv.runSend ?_ ?_ ?_ none response
    · exact hs.flushed
    · exact hi.channel
    · exact hi.reading
  -- the checks that fail name what the connection still waits for
  | tasksNotDrained ret hl hn =>
    exact hi.goto (by simp [hl]) fun hc he => Or.inl ((hn he hc).elim id ht.queued)
  | sendsNotDrained ret hl hn => exact hi.goto (by simp [hl]) fun _ _ => Or.inr (Or.inl hn)
  | outputNotDrained ret hl hn =>
    exact hi.goto (by simp [hl]) fun _ _ => Or.inr (Or.inr (Or.inl (hn hs.flushed)))
  | sendAgain hl ho => exact hi.goto (by simp [hl]) fun _ _ => Or.inr (Or.inr (Or.inl ho))
  | closeCas ret hl hc => exact .of_not_connected (by simp)
  | closeAgain ret hl hc => exact .of_not_connected hc
  | closeDefer ret hl => exact .of_not_connected (hcl.closing (by simp [hl]))
  | closeNow ret hl => exact .of_not_connected (hcl.closing (by simp [hl]))
  | closeTasks ret hl => exact .of_not_connected (hcl.closing (by simp [hl]))
  | removed ret fd hl =>
    obtain ⟨afd, st, r, wr, ch, co, he, hst⟩ := removeConnection_eq w fd
    rw [he]
    exact .of_not_connected fun hc => hcl.closing (by simp [hl]) (hst hc)
  | runFinalize rest hl hq =>
    exact .of_not_connected (hcl.held_of_owed (by simp [closeOwed, hq])).1
  | runExpired cb rest hl hq hh => exact .of_not_connected (hcl.not_connected_of_released hh)
  | send n hl hpos hn =>
    refine ⟨hi.channel, hi.reading, fun hc ho hh => hi.writing hc ?_ hh, by simp [hl]⟩
    rintro hnil
    simp [hnil] at ho
  | post cb hm =>
    refine ⟨hi.channel, hi.reading, hi.writing, fun hc he hl => ?_⟩
    have hmoved : ∀ x ∈ w.posting, x ∈ w.posting.erase cb ∨ x ∈ w.taskQueue ++ [cb] := by
      intro x hx
      by_cases hxcb : x = cb
      · exact Or.inr (by simp [hxcb])
      · exact Or.inl ((List.mem_erase_of_ne hxcb).mpr hx)
    obtain h1 | h2 | h3 | h4 | h5 := hi.due hc he hl
    · exact Or.inl h1
    · exact Or.inr (Or.inl h2)
    · exact Or.inr (Or.inr (Or.inl h3))
    · exact Or.inr (Or.inr (Or.inr (hmoved _ h4)))
    · exact Or.inr (Or.inr (Or.inr (Or.inr (List.mem_append_left _ h5))))
  | readvEof hl htr =>
    exact ⟨hi.channel, by simp, fun hc ho _ => hi.writing hc ho (by simp [hl]), by simp⟩
  | writeDone hl ho => exact ⟨hi.channel, hi.reading, fun _ hne => absurd ho hne, by simp⟩
  | completeFinalize hl hc hp => exact .of_not_connected hc
  | taskFinalize i t hti hpc hc hp => exact .of_not_connected hc
  -- the other steps make the loop busy, or leave it something to come back for
  | _ => exact hi.congr id rfl rfl rfl rfl rfl (by simp_all) (by simp_all [World.CheckDue])

/-! ## §4 All invariants together -/

/-- What holds in every state of every run. -/
structure PoolInv (w : World) : Prop where
  task : TaskInv w
  close : CloseInv w
  send : SendInv w
  alarm : AlarmInv w

theorem PoolInv.init (fd : Int) (stream : Bytes) : PoolInv (World.init fd stream) :=
  ⟨.init fd stream, .init fd stream, .init fd stream, .init fd stream⟩

theorem PoolInv.step {w w' : World} {a : Act} (hi : PoolInv w) (h : Step w a w') : PoolInv w' :=
  ⟨hi.task.step h, hi.close.step hi.task h, hi.send.step hi.task hi.close h,
    hi.alarm.step hi.task hi.close hi.send h⟩

end EchoNet.Net.PoolMachine
