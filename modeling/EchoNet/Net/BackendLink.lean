import EchoNet.Lib.Duplex
import EchoNet.Net.InlineSubmit
import EchoNet.Net.OutputStream
import EchoNet.Protocol.BufferParse

/-!
# The Link between the Gateway and a Backend

At one end of the link is an outbound connection of the gateway (`EchoNet.Net.InlineSubmit`), at the
other one a connection of a server (`EchoNet.Net.PoolMachine`), each with all the threads that use
it.  The bytes that one end hands to `send` are what the other end has yet to read.  An end of file,
or a socket error, may come to either end at any time.

## Main results

- `WireInv`: what an end has taken, holds and has still to read is what has come in, and what has
  gone out are the frames of the responses that it has accepted;
- `serverContract`, `gatewayContract`: both ends assume frames, and guarantee them;
- `link_exchanges`: the requests and the responses of a link.
-/

namespace EchoNet.Net.BackendLink

open EchoNet.Lib EchoNet.Protocol
open EchoNet.Net.PoolMachine hiding OutputStream

/-! ## §1 Frames -/

/-- A part of a stream of acceptable frames. -/
def FrameStream (bs : Bytes) : Prop := ∃ msgs, (∀ m ∈ msgs, m.Fits) ∧ bs <+: encodeAll msgs

/-- Frames begin in only one way. -/
theorem prefix_of_encodeAll {ms ns : List MyMessage} (hm : ∀ m ∈ ms, m.Fits)
    (hn : ∀ n ∈ ns, n.Fits) (h : encodeAll ms <+: encodeAll ns) : ms <+: ns := by
  induction ms generalizing ns with
  | nil => exact List.nil_prefix
  | cons m ms ih =>
    obtain ⟨later, hlater⟩ := h
    rw [encodeAll_cons, List.append_assoc] at hlater
    have hparse := parse_encodeMessage m (hm m (List.mem_cons_self ..)) (encodeAll ms ++ later)
    rw [hlater] at hparse
    cases ns with
    | nil =>
      have hnil : parse (encodeAll []) = .needMore := by decide
      rw [hnil] at hparse
      cases hparse
    | cons n ns =>
      rw [encodeAll_cons, parse_encodeMessage n (hn n (List.mem_cons_self ..))] at hparse
      obtain ⟨rfl, hrest⟩ := ParseResult.ok.inj hparse
      apply (List.cons_prefix_cons).mpr
      refine ⟨rfl, ih (fun m' hm' => hm m' (List.mem_cons_of_mem _ hm'))
        (fun n' hn' => hn n' (List.mem_cons_of_mem _ hn')) ⟨later, hrest.symm⟩⟩

/-- Behind frames that have been taken out of it, a stream of frames parses without an error. -/
theorem parse_ne_error {taken : List MyMessage} {buf later received rest : Bytes}
    (hfits : ∀ m ∈ taken, m.Fits) (hbytes : encodeAll taken ++ (buf ++ later) = received)
    (hstream : FrameStream received) : parse buf ≠ .error rest := by
  obtain ⟨msgs, hmsgs, more, hmore⟩ := hstream
  rw [← hbytes] at hmore
  have htaken : encodeAll taken <+: encodeAll msgs :=
    ⟨buf ++ later ++ more, by rw [← List.append_assoc, hmore]⟩
  obtain ⟨next, rfl⟩ := prefix_of_encodeAll hfits hmsgs htaken
  rw [encodeAll_append, List.append_assoc, List.append_cancel_left_eq, List.append_assoc] at hmore
  have hnext : ∀ m ∈ next, m.Fits := fun m hm => hmsgs m (List.mem_append_right _ hm)
  have hnil : parse [] = .needMore := by decide
  intro herror
  obtain ⟨m, ms, rest', -, hok, -⟩ | hmore' :=
    parse_stream_part hnext hnil (hmore.trans (List.append_nil _).symm)
  · rw [herror] at hok
    cases hok
  · rw [herror] at hmore'
    cases hmore'

/-! ## §2 What one end keeps -/

/-- The loop thread is in `read`, or comes back to it. -/
def mayParse (pc : LoopPc) : Bool := pc.parses || pc.returns = some .toParse

/-- `handleClose` is past its CAS, and has still to empty the buffers. -/
def clears : LoopPc → Bool
  | .closeTasks _ | .closeBuffers _ _ => true
  | _ => false

@[simp] theorem clears_pc (ret : Return) : clears ret.pc = false := by
  cases ret <;> rfl

/-- The messages that have left `inBuffer_`. -/
def taken (w : World) : List MyMessage := w.log.enqueued ++ w.loop.enqueues

/-- Every byte that has come in belongs to a message that was taken, is in `inBuffer_`, or has
still to be read. -/
structure Incoming (w : World) (received : Bytes) : Prop where
  fits : ∀ m ∈ taken w, m.Fits
  order : encodeAll (taken w) <+: received
  kept : w.conn.state = .connected → w.conn.peerReadClosed = false ∨ mayParse w.loop = true →
    encodeAll (taken w) ++ (w.conn.inBuffer ++ w.toRecv) = received

/-- What was handed to `send` never runs ahead of the accepted responses, and while connected the
rest of them is in `outBuffer_`. -/
structure Outgoing (w : World) : Prop where
  flushed : w.conn.sendQueue = []
  ahead : w.log.sent <+: encodeAll (w.log.accepted.map Prod.snd)
  kept : w.conn.state = .connected →
    w.log.sent ++ w.conn.outBuffer = encodeAll (w.log.accepted.map Prod.snd)
  writing : w.loop = .writing → w.conn.state = .connected

/-- The responses that were passed to `sendResponse`, wherever they are. -/
def passing (w : World) : List (Origin × MyMessage) :=
  w.log.accepted ++ queuedSends w.taskQueue ++ announcedSends w.tasks ++ queuedSends w.posting

/-- Every end of a link keeps this. -/
structure WireInv (w : World) (received : Bytes) : Prop where
  clearing : clears w.loop = true → w.conn.state ≠ .connected
  incoming : Incoming w received
  outgoing : Outgoing w
  fits : ∀ p ∈ passing w, p.2.Fits

/-- The response that a step passes to `sendResponse`. -/
def passedResponse : Act → Option MyMessage
  | .handlerSend _ response | .extSend response | .inlineSend response => some response
  | _ => none

/-- It fits into a frame. -/
def PassesFit (_ : World) (a : Act) : Prop := ∀ response ∈ passedResponse a, response.Fits

instance (w : World) (a : Act) : Decidable (PassesFit w a) :=
  inferInstanceAs (Decidable (∀ response ∈ passedResponse a, response.Fits))

theorem WireInv.init (fd : Int) : WireInv (World.init fd []) [] := by
  refine ⟨by simp [World.init, clears], ⟨?_, ?_, fun _ _ => ?_⟩, ⟨rfl, ?_, fun _ => rfl, ?_⟩, ?_⟩
  · simp [World.init, taken]
  · simp [World.init, taken]
  · simp [World.init, taken, Connection.create]
  · simp [World.init]
  · simp [World.init]
  · simp [World.init, passing]

/-! ## §3 One step -/

/-- A step that takes nothing out of `inBuffer_`. -/
theorem Incoming.congr {w w' : World} {received : Bytes} (hi : Incoming w received)
    (htaken : taken w' = taken w) (hstate : w'.conn.state = .connected → w.conn.state = .connected)
    (heof : w'.conn.peerReadClosed = w.conn.peerReadClosed)
    (hbuf : w'.conn.state = .connected → w'.conn.inBuffer ++ w'.toRecv = w.conn.inBuffer ++ w.toRecv)
    (hparse : mayParse w'.loop = true → mayParse w.loop = true) : Incoming w' received := by
  refine ⟨?_, ?_, fun hc hread => ?_⟩
  · rw [htaken]
    exact hi.fits
  · rw [htaken]
    exact hi.order
  · rw [htaken, hbuf hc]
    rw [heof] at hread
    exact hi.kept (hstate hc) (hread.imp_right hparse)

/-- A step of a closing or closed connection that takes nothing. -/
theorem Incoming.of_not_connected {w w' : World} {received : Bytes} (hi : Incoming w received)
    (htaken : taken w' = taken w) (hstate : w'.conn.state ≠ .connected) : Incoming w' received := by
  refine ⟨?_, ?_, fun hc => absurd hc hstate⟩
  · rw [htaken]
    exact hi.fits
  · rw [htaken]
    exact hi.order

attribute [simp] clears.eq_1 clears.eq_2 clears.eq_3

theorem clearing_step {w w' : World} {a : Act} (hi : clears w.loop = true → w.conn.state ≠ .connected)
    (h : World.Step w a w') : clears w'.loop = true → w'.conn.state ≠ .connected := by
  cases h with
  | runSend origin response rest hl hq =>
    obtain ⟨n, out, queue, wr, acc, pc, he, hpc⟩ :=
      runSend_frame { w with taskQueue := rest } origin response
    rw [he]
    obtain ⟨hc, -⟩ | ⟨-, rfl | rfl⟩ := hpc
    · exact fun _ => hc
    · simp
    · simp
  | inlineSend response hl =>
    obtain ⟨n, out, queue, wr, acc, pc, he, hpc⟩ := runSend_frame { w with
      conn := { w.conn with pendingSendCallbacks := w.conn.pendingSendCallbacks + 1 }
      log := { w.log with passed := w.log.passed ++ [(none, response)] } } none response
    rw [he]
    obtain ⟨hc, -⟩ | ⟨-, rfl | rfl⟩ := hpc
    · exact fun _ => hc
    · simp
    · simp
  | removed ret fd hl => simp
  | closeTasks ret hl => exact fun _ => hi (by simp [hl])
  | closeCas ret hl hc => simp
  | _ => simp_all

theorem Incoming.step {w w' : World} {a : Act} {received : Bytes}
    (hclears : clears w.loop = true → w.conn.state ≠ .connected) (hi : Incoming w received)
    (hstream : FrameStream received) (h : World.Step w a w') : Incoming w' received := by
  cases h with
  | runSend origin response rest hl hq =>
    obtain ⟨n, out, queue, wr, acc, pc, he, hpc⟩ :=
      runSend_frame { w with taskQueue := rest } origin response
    rw [he]
    obtain ⟨hc, rfl⟩ | ⟨-, rfl | rfl⟩ := hpc
    · exact hi.of_not_connected rfl hc
    · exact hi.congr (by simp [taken, hl]) id rfl (fun _ => rfl) (by simp [mayParse])
    · exact hi.congr (by simp [taken, hl]) id rfl (fun _ => rfl) (by simp [mayParse])
  | inlineSend response hl =>
    obtain ⟨n, out, queue, wr, acc, pc, he, hpc⟩ := runSend_frame { w with
      conn := { w.conn with pendingSendCallbacks := w.conn.pendingSendCallbacks + 1 }
      log := { w.log with passed := w.log.passed ++ [(none, response)] } } none response
    rw [he]
    obtain ⟨hc, rfl⟩ | ⟨hc, hpc⟩ := hpc
    · exact hi.of_not_connected rfl hc
    · have hidle := hl.resolve_right fun hne => hne hc
      obtain rfl | rfl := hpc
      · exact hi.congr (by simp [taken, hidle]) id rfl (fun _ => rfl) (by simp [mayParse])
      · exact hi.congr (by simp [taken, hidle]) id rfl (fun _ => rfl) (by simp [mayParse])
  | removed ret fd hl =>
    obtain ⟨afd, st, r, wr, ch, co, he, hst⟩ := removeConnection_eq w fd
    rw [he]
    refine hi.congr (by simp [taken, hl]) hst rfl (fun _ => rfl) ?_
    cases ret <;> simp [mayParse, hl, Return.pc]
  -- the parser takes a frame, or finds none
  | parseOk msg rest hl hp hc =>
    have hbytes := hi.kept hc (Or.inr (by simp [mayParse, hl]))
    obtain ⟨hmsg, hbuf⟩ := parse_eq_ok hp
    have htaken : taken { w with conn := { w.conn with inBuffer := rest }, loop := .enqueueing msg } =
        taken w ++ [msg] := by simp [taken, hl]
    have hmore : encodeAll (taken w ++ [msg]) ++ (rest ++ w.toRecv) = received := by
      rw [← hbytes, hbuf, encodeAll_append]
      simp
    refine ⟨?_, ?_, fun _ _ => ?_⟩
    · rw [htaken]
      intro m hm
      rcases List.mem_append.mp hm with hm | hm
      · exact hi.fits m hm
      · exact List.mem_singleton.mp hm ▸ hmsg
    · rw [htaken, ← hmore]
      exact List.prefix_append _ _
    · rw [htaken]
      exact hmore
  | parseOkClosed msg rest hl hp hc => exact hi.of_not_connected (by simp [taken, hl]) hc
  | parseError rest hl hp =>
    by_cases hc : w.conn.state = .connected
    · have hbytes := hi.kept hc (Or.inr (by simp [mayParse, hl]))
      exact absurd hp (parse_ne_error hi.fits hbytes hstream)
    · exact hi.of_not_connected (by simp [taken, hl]) hc
  | parseDiscard hl hp he =>
    -- after the end of file the rest of the buffer is given up
    refine ⟨by simpa [taken, hl] using hi.fits, by simpa [taken, hl] using hi.order, fun _ hread => ?_⟩
    simp [mayParse, he] at hread
  -- `read` begins, and goes on until the end of file
  | readEvent hl hc he =>
    refine ⟨by simpa [taken, hl] using hi.fits, by simpa [taken, hl] using hi.order, fun hc' _ => ?_⟩
    have hbytes := hi.kept hc' (Or.inl he)
    simpa [taken, hl] using hbytes
  | readv n hl hpos hn =>
    refine hi.congr rfl id rfl (fun _ => ?_) id
    simp
  | readvEof hl ht =>
    refine ⟨by simpa [taken, hl] using hi.fits, by simpa [taken, hl] using hi.order, fun hc _ => ?_⟩
    have hbytes := hi.kept hc (Or.inr (by simp [mayParse, hl]))
    simpa [taken, hl] using hbytes
  -- `handleClose`
  | closeCas ret hl hc => exact hi.of_not_connected (by simp [taken, hl]) (by simp)
  | closeTasks ret hl =>
    exact hi.of_not_connected (by simp [taken, hl]) (hclears (by simp [hl]))
  | closeDefer ret hl =>
    exact hi.of_not_connected (by simp [taken, hl]) (hclears (by simp [hl]))
  | closeNow ret hl =>
    exact hi.of_not_connected (by simp [taken, hl]) (hclears (by simp [hl]))
  -- a drain check, or the close callback, returns
  | tasksNotDrained ret hl hn =>
    refine hi.congr (by simp [taken, hl]) id rfl (fun _ => rfl) ?_
    cases ret <;> simp [mayParse, hl, Return.pc]
  | sendsNotDrained ret hl hn =>
    refine hi.congr (by simp [taken, hl]) id rfl (fun _ => rfl) ?_
    cases ret <;> simp [mayParse, hl, Return.pc]
  | outputNotDrained ret hl hn =>
    refine hi.congr (by simp [taken, hl]) id rfl (fun _ => rfl) ?_
    cases ret <;> simp [mayParse, hl, Return.pc]
  | closeAgain ret hl hc => exact hi.of_not_connected (by simp [taken, hl]) hc
  | _ => exact hi.congr (by simp_all [taken]) (by simp_all) rfl (by simp_all) (by simp_all [mayParse])

/-- A step that hands nothing to `send`, and accepts nothing. -/
theorem Outgoing.congr {w w' : World} (hi : Outgoing w)
    (hstate : w'.conn.state = .connected → w.conn.state = .connected)
    (hqueue : w'.conn.sendQueue = w.conn.sendQueue) (hsent : w'.log.sent = w.log.sent)
    (haccepted : w'.log.accepted = w.log.accepted)
    (hout : w'.conn.state = .connected → w'.conn.outBuffer = w.conn.outBuffer)
    (hwriting : w'.loop = .writing → w'.conn.state = .connected) : Outgoing w' := by
  refine ⟨hqueue.trans hi.flushed, ?_, fun hc => ?_, hwriting⟩
  · rw [hsent, haccepted]
    exact hi.ahead
  · rw [hsent, haccepted, hout hc]
    exact hi.kept (hstate hc)

/-- A send callback accepts its response, or drops it. -/
theorem Outgoing.runSend {w : World} (hflushed : w.conn.sendQueue = [])
    (hahead : w.log.sent <+: encodeAll (w.log.accepted.map Prod.snd))
    (hkept : w.conn.state = .connected →
      w.log.sent ++ w.conn.outBuffer = encodeAll (w.log.accepted.map Prod.snd))
    (hloop : w.loop ≠ .writing) (origin : Origin) (response : MyMessage) :
    Outgoing (w.runSend origin response) := by
  by_cases hc : w.conn.state = .connected
  · have hconn : w.conn.isConnected = true := by simpa using hc
    have hbytes : w.log.sent ++ (w.conn.outBuffer ++ encodeMessage response) =
        encodeAll ((w.log.accepted ++ [(origin, response)]).map Prod.snd) := by
      rw [List.map_append, encodeAll_append, ← hkept hc]
      simp
    have hmore : w.log.sent <+: encodeAll ((w.log.accepted ++ [(origin, response)]).map Prod.snd) :=
      ⟨_, hbytes⟩
    unfold World.runSend
    rw [if_pos hconn, Connection.sendCallback_of_connected hc hflushed]
    by_cases hover : Connection.highWaterMark <
        (w.conn.outBuffer ++ encodeMessage response).length
    · rw [if_pos hover]
      exact ⟨hflushed, hmore, fun _ => hbytes, by simp⟩
    · rw [if_neg hover]
      exact ⟨hflushed, hmore, fun _ => hbytes, by simp⟩
  · have hconn : w.conn.isConnected = false := by simpa using hc
    unfold World.runSend
    rw [hconn, Connection.sendCallback_of_not_connected hc]
    exact ⟨hflushed, hahead, fun hc' => absurd hc' hc, fun hl => absurd hl hloop⟩

theorem Outgoing.step {w w' : World} {a : Act}
    (hclears : clears w.loop = true → w.conn.state ≠ .connected) (hi : Outgoing w)
    (h : World.Step w a w') : Outgoing w' := by
  cases h with
  | runSend origin response rest hl hq =>
    have hloop : w.loop ≠ .writing := by simp [hl]
    exact Outgoing.runSend (w := { w with taskQueue := rest }) hi.flushed hi.ahead hi.kept hloop
      origin response
  | inlineSend response hl =>
    have hloop : w.loop ≠ .writing := by
      intro hwriting
      rcases hl with hl | hl
      · rw [hwriting] at hl
        cases hl
      · exact hl (hi.writing hwriting)
    apply Outgoing.runSend
    · exact hi.flushed
    · exact hi.ahead
    · exact hi.kept
    · exact hloop
  | removed ret fd hl =>
    obtain ⟨afd, st, r, wr, ch, co, he, hst⟩ := removeConnection_eq w fd
    rw [he]
    exact hi.congr hst rfl rfl rfl (fun _ => rfl) (by simp)
  -- what `send` takes leaves `outBuffer_`
  | send n hl hpos hn =>
    have hc := hi.writing hl
    have hbytes : w.log.sent ++ w.conn.outBuffer.take n ++ w.conn.outBuffer.drop n =
        encodeAll (w.log.accepted.map Prod.snd) := by
      rw [List.append_assoc, List.take_append_drop]
      exact hi.kept hc
    exact ⟨hi.flushed, ⟨_, hbytes⟩, fun _ => hbytes, fun _ => hc⟩
  | writeEvent hl hc hw => exact hi.congr id rfl rfl rfl (fun _ => rfl) fun _ => hc
  | closeDefer ret hl =>
    have hclosing := hclears (by simp [hl])
    exact ⟨rfl, hi.ahead, fun hc => absurd hc hclosing, by simp⟩
  | closeNow ret hl =>
    have hclosing := hclears (by simp [hl])
    exact ⟨rfl, hi.ahead, fun hc => absurd hc hclosing, by simp⟩
  | closeCas ret hl hc => exact hi.congr (by simp) rfl rfl rfl (by simp) (by simp)
  | _ => exact hi.congr (by simp_all) (by simp_all) rfl rfl (by simp_all) (by simp_all [hi.writing])

theorem mem_announcedSends_set {tasks : List Task} {i : Nat} {t : Task} {p : Origin × MyMessage}
    (h : p ∈ announcedSends (tasks.set i t)) : p ∈ announcedSends tasks ∨ p ∈ t.sends := by
  obtain ⟨u, hu, hp⟩ := List.mem_flatMap.mp h
  rcases List.mem_or_eq_of_mem_set hu with hu | rfl
  · exact Or.inl (List.mem_flatMap.mpr ⟨u, hu, hp⟩)
  · exact Or.inr hp

theorem mem_announcedSends_eraseIdx {tasks : List Task} {i : Nat} {p : Origin × MyMessage}
    (h : p ∈ announcedSends (tasks.eraseIdx i)) : p ∈ announcedSends tasks := by
  obtain ⟨u, hu, hp⟩ := List.mem_flatMap.mp h
  exact List.mem_flatMap.mpr ⟨u, List.mem_of_mem_eraseIdx hu, hp⟩

theorem mem_queuedSends_erase {posting : List Callback} {cb : Callback} {p : Origin × MyMessage}
    (h : p ∈ queuedSends (posting.erase cb)) : p ∈ queuedSends posting := by
  obtain ⟨u, hu, hp⟩ := List.mem_flatMap.mp h
  exact List.mem_flatMap.mpr ⟨u, List.mem_of_mem_erase hu, hp⟩

theorem mem_passing {w : World} {p : Origin × MyMessage} : p ∈ passing w ↔
    p ∈ w.log.accepted ∨ p ∈ queuedSends w.taskQueue ∨ p ∈ announcedSends w.tasks ∨
      p ∈ queuedSends w.posting := by
  simp [passing]

section

variable {w : World} {p : Origin × MyMessage}

theorem passing_of_queued (h : p ∈ queuedSends w.taskQueue) : p ∈ passing w :=
  mem_passing.mpr (Or.inr (Or.inl h))

theorem passing_of_announced (h : p ∈ announcedSends w.tasks) : p ∈ passing w :=
  mem_passing.mpr (Or.inr (Or.inr (Or.inl h)))

theorem passing_of_posting (h : p ∈ queuedSends w.posting) : p ∈ passing w :=
  mem_passing.mpr (Or.inr (Or.inr (Or.inr h)))

variable {w' : World}

theorem mem_passing_of (hp : p ∈ passing w') (haccepted : w'.log.accepted = w.log.accepted)
    (hqueue : ∀ p ∈ queuedSends w'.taskQueue, p ∈ passing w)
    (htasks : ∀ p ∈ announcedSends w'.tasks, p ∈ passing w)
    (hposting : ∀ p ∈ queuedSends w'.posting, p ∈ passing w) : p ∈ passing w := by
  rcases mem_passing.mp hp with hp | hp | hp | hp
  · exact mem_passing.mpr (Or.inl (haccepted ▸ hp))
  · exact hqueue p hp
  · exact htasks p hp
  · exact hposting p hp

/-- A task that announces nothing takes the place of another one. -/
theorem mem_passing_of_set (hp : p ∈ passing w') {i : Nat} {t : Task}
    (htasks : w'.tasks = w.tasks.set i t) (hsends : t.sends = [])
    (haccepted : w'.log.accepted = w.log.accepted) (hqueue : w'.taskQueue = w.taskQueue)
    (hposting : w'.posting = w.posting) : p ∈ passing w := by
  apply mem_passing_of (w := w) hp haccepted
  · exact fun q hq => passing_of_queued (hqueue ▸ hq)
  · intro q hq
    rw [htasks] at hq
    rcases mem_announcedSends_set hq with hq | hq
    · exact passing_of_announced hq
    · rw [hsends] at hq
      cases hq
  · exact fun q hq => passing_of_posting (hposting ▸ hq)

/-- A task is over, and a callback that is no response is to be posted. -/
theorem mem_passing_of_eraseIdx (hp : p ∈ passing w') {i : Nat} {cb : Callback}
    (htasks : w'.tasks = w.tasks.eraseIdx i) (haccepted : w'.log.accepted = w.log.accepted)
    (hqueue : w'.taskQueue = w.taskQueue) (hposting : w'.posting = w.posting ++ [cb])
    (hcb : cb.sends = []) : p ∈ passing w := by
  apply mem_passing_of (w := w) hp haccepted
  · exact fun q hq => passing_of_queued (hqueue ▸ hq)
  · intro q hq
    rw [htasks] at hq
    exact passing_of_announced (mem_announcedSends_eraseIdx hq)
  · intro q hq
    rw [hposting, queuedSends_append, hcb, List.append_nil] at hq
    exact passing_of_posting hq

/-- The oldest callback leaves the queue. -/
theorem mem_passing_of_tail (hp : p ∈ passing w') {cb : Callback}
    (hqueue : w.taskQueue = cb :: w'.taskQueue) (htasks : w'.tasks = w.tasks)
    (haccepted : w'.log.accepted = w.log.accepted) (hposting : w'.posting = w.posting) :
    p ∈ passing w := by
  apply mem_passing_of (w := w) hp haccepted
  · intro q hq
    apply passing_of_queued
    rw [hqueue, queuedSends_cons]
    exact List.mem_append_right _ hq
  · exact fun q hq => passing_of_announced (htasks ▸ hq)
  · exact fun q hq => passing_of_posting (hposting ▸ hq)

end

/-- What a send callback leaves has been on its way. -/
theorem mem_passing_runSend {w : World} {origin : Origin} {response : MyMessage}
    {p : Origin × MyMessage} (h : p ∈ passing (w.runSend origin response)) :
    p ∈ passing w ∨ p = (origin, response) := by
  have hacc := runSend_accepted w origin response
  obtain ⟨n, out, queue, wr, acc, pc, he, -⟩ := runSend_frame w origin response
  rw [he] at h hacc
  have hacc' : acc = if w.conn.state = .connected then w.log.accepted ++ [(origin, response)]
    else w.log.accepted := hacc
  rw [mem_passing] at h ⊢
  rcases h with h | h
  · have hp : p ∈ acc := h
    rw [hacc'] at hp
    split_ifs at hp
    · rcases List.mem_append.mp hp with hp | hp
      · exact Or.inl (Or.inl hp)
      · exact Or.inr (List.mem_singleton.mp hp)
    · exact Or.inl (Or.inl hp)
  · exact Or.inl (Or.inr h)

/-- A step passes on what is there, or its own response. -/
theorem mem_passing_step {w w' : World} {a : Act} (h : World.Step w a w') {p : Origin × MyMessage}
    (hp : p ∈ passing w') : p ∈ passing w ∨ p.2 ∈ passedResponse a := by
  cases h with
  | runSend origin response rest hl hq =>
    rcases mem_passing_runSend hp with hp | rfl
    · rw [mem_passing] at hp
      refine Or.inl (mem_passing.mpr (hp.imp_right fun hp => hp.imp_left fun hp => ?_))
      rw [hq, queuedSends_cons]
      exact List.mem_append_right _ hp
    · refine Or.inl (mem_passing.mpr (Or.inr (Or.inl ?_)))
      rw [hq, queuedSends_cons]
      exact List.mem_append_left _ (by simp [Callback.sends])
  | inlineSend response hl =>
    rcases mem_passing_runSend hp with hp | rfl
    · exact Or.inl hp
    · exact Or.inr rfl
  | removed ret fd hl =>
    obtain ⟨afd, st, r, wr, ch, co, he, hst⟩ := removeConnection_eq w fd
    rw [he] at hp
    exact Or.inl hp
  | extSend response =>
    rw [mem_passing] at hp
    simp only [queuedSends_append, List.mem_append, Callback.sends, List.mem_singleton] at hp
    rw [mem_passing]
    rcases hp with hp | hp | hp | hp | rfl
    · exact Or.inl (Or.inl hp)
    · exact Or.inl (Or.inr (Or.inl hp))
    · exact Or.inl (Or.inr (Or.inr (Or.inl hp)))
    · exact Or.inl (Or.inr (Or.inr (Or.inr hp)))
    · exact Or.inr rfl
  | handlerSend i t response hti hpc =>
    rcases mem_passing.mp hp with hp | hp | hp | hp
    · exact Or.inl (mem_passing.mpr (Or.inl hp))
    · exact Or.inl (passing_of_queued hp)
    · rcases mem_announcedSends_set hp with hp | hp
      · exact Or.inl (passing_of_announced hp)
      · rw [List.mem_singleton.mp hp]
        exact Or.inr rfl
    · exact Or.inl (passing_of_posting hp)
  -- from the handler into the queue, and from another thread
  | handlerPost i t response hti hpc =>
    left
    apply mem_passing_of (w := w) hp rfl
    · intro q hq
      rw [queuedSends_append, List.mem_append] at hq
      rcases hq with hq | hq
      · exact passing_of_queued hq
      · apply passing_of_announced
        refine List.mem_flatMap.mpr ⟨t, List.mem_of_getElem? hti, ?_⟩
        simpa [Task.sends, hpc, Callback.sends] using hq
    · intro q hq
      rcases mem_announcedSends_set hq with hq | hq
      · exact passing_of_announced hq
      · cases hq
    · exact fun q hq => passing_of_posting hq
  | post cb hm =>
    left
    apply mem_passing_of (w := w) hp rfl
    · intro q hq
      rw [queuedSends_append, List.mem_append] at hq
      rcases hq with hq | hq
      · exact passing_of_queued hq
      · exact passing_of_posting (List.mem_flatMap.mpr ⟨cb, hm, hq⟩)
    · exact fun q hq => passing_of_announced hq
    · exact fun q hq => passing_of_posting (mem_queuedSends_erase hq)
  | submitAccepted msg hl hpool =>
    left
    apply mem_passing_of (w := w) hp rfl
    · exact fun q hq => passing_of_queued hq
    · intro q hq
      apply passing_of_announced
      simpa [announcedSends, Task.sends] using hq
    · exact fun q hq => passing_of_posting hq
  -- the other steps of a task announce nothing
  | taskChecked i t hti hpc hc => exact Or.inl (mem_passing_of_set hp rfl rfl rfl rfl rfl)
  | taskSkipped i t hti hpc hc => exact Or.inl (mem_passing_of_set hp rfl rfl rfl rfl rfl)
  | handlerStart i t hti hpc => exact Or.inl (mem_passing_of_set hp rfl rfl rfl rfl rfl)
  | handlerReturn i t hti hpc => exact Or.inl (mem_passing_of_set hp rfl rfl rfl rfl rfl)
  | taskNext i t next rest hti hpc hc hq => exact Or.inl (mem_passing_of_set hp rfl rfl rfl rfl rfl)
  | nextAccepted i t next hti hpc hpool => exact Or.inl (mem_passing_of_set hp rfl rfl rfl rfl rfl)
  | nextRejected i t next hti hpc hpool => exact Or.inl (mem_passing_of_set hp rfl rfl rfl rfl rfl)
  | taskLast i t hti hpc hc hq => exact Or.inl (mem_passing_of_eraseIdx hp rfl rfl rfl rfl rfl)
  | taskFinalize i t hti hpc hc hpend =>
    exact Or.inl (mem_passing_of_eraseIdx hp rfl rfl rfl rfl rfl)
  | taskClosed i t hti hpc hc hpend => exact Or.inl (mem_passing_of_eraseIdx hp rfl rfl rfl rfl rfl)
  | extClose =>
    left
    apply mem_passing_of (w := w) hp rfl
    · exact fun q hq => passing_of_queued hq
    · exact fun q hq => passing_of_announced hq
    · intro q hq
      have hclose : Callback.close.sends = [] := rfl
      rw [queuedSends_append, hclose, List.append_nil] at hq
      exact passing_of_posting hq
  | runClose rest hl hq => exact Or.inl (mem_passing_of_tail hp hq rfl rfl rfl)
  | runFinalize rest hl hq => exact Or.inl (mem_passing_of_tail hp hq rfl rfl rfl)
  | runCheck rest hl hq => exact Or.inl (mem_passing_of_tail hp hq rfl rfl rfl)
  | runExpired cb rest hl hq hh => exact Or.inl (mem_passing_of_tail hp hq rfl rfl rfl)
  | _ => exact Or.inl hp

theorem WireInv.step {w w' : World} {a : Act} {received : Bytes} (hi : WireInv w received)
    (hstream : FrameStream received) (hfit : PassesFit w a) (h : World.Step w a w') :
    WireInv w' received := by
  refine ⟨clearing_step hi.clearing h, hi.incoming.step hi.clearing hstream h,
    hi.outgoing.step hi.clearing h, fun p hp => ?_⟩
  rcases mem_passing_step h hp with hp | hp
  · exact hi.fits p hp
  · exact hfit p.2 hp

/-! ## §4 Bytes arrive -/

/-- More bytes can be read. -/
def arrive (w : World) (more : Bytes) : World := { w with toRecv := w.toRecv ++ more }

theorem WireInv.arrive {w : World} {received : Bytes} (hi : WireInv w received) (more : Bytes) :
    WireInv (arrive w more) (received ++ more) := by
  refine ⟨hi.clearing, ⟨hi.incoming.fits, hi.incoming.order.trans (List.prefix_append _ _),
    fun hc hread => ?_⟩, ⟨hi.outgoing.flushed, hi.outgoing.ahead, hi.outgoing.kept,
    hi.outgoing.writing⟩, hi.fits⟩
  have hbytes := hi.incoming.kept hc hread
  show encodeAll (taken w) ++ (w.conn.inBuffer ++ (w.toRecv ++ more)) = received ++ more
  rw [← hbytes]
  simp

theorem WireInv.guarantee {w : World} {received : Bytes} (hi : WireInv w received) :
    FrameStream w.log.sent := by
  refine ⟨w.log.accepted.map Prod.snd, fun m hm => ?_, hi.outgoing.ahead⟩
  obtain ⟨p, hp, rfl⟩ := List.mem_map.mp hm
  exact hi.fits p (mem_passing.mpr (Or.inl hp))

theorem runSend_sent (w : World) (origin : Origin) (response : MyMessage) :
    (w.runSend origin response).log.sent = w.log.sent := by
  obtain ⟨n, out, queue, wr, acc, pc, he, -⟩ := runSend_frame w origin response
  rw [he]

theorem removeConnection_sent (w : World) (fd : Int) :
    (w.removeConnection fd).log.sent = w.log.sent := by
  obtain ⟨afd, st, r, wr, ch, co, he, -⟩ := removeConnection_eq w fd
  rw [he]

/-- `send` appends to what has gone out, and nothing else touches it. -/
theorem sent_prefix_of_step {w w' : World} {a : Act} (h : World.Step w a w') :
    w.log.sent <+: w'.log.sent := by
  cases h with
  | runSend origin response rest hl hq => exact ⟨[], by rw [List.append_nil, runSend_sent]⟩
  | inlineSend response hl => exact ⟨[], by rw [List.append_nil, runSend_sent]⟩
  | removed ret fd hl =>
    exact ⟨[], by rw [List.append_nil]; exact (removeConnection_sent w fd).symm⟩
  | send n hl hpos hn => exact List.prefix_append _ _
  | _ => exact List.prefix_rfl

/-! ## §5 The server's end -/

/-- A connection of a server with its worker pool. -/
def server : Endpoint World Act UInt8 where
  step := World.step
  sent w := w.log.sent
  deliver := arrive
  sent_prefix h := sent_prefix_of_step (World.step_cases h)
  sent_deliver _ _ := rfl

/-- The invariants of `EchoNet.Net.PoolMachine`, and those of the wire. -/
structure ServerInv (w : World) (received : Bytes) : Prop where
  wire : WireInv w received
  pool : PoolInv w
  order : OrderInv w
  stream : StreamInv w
  start : StartInv w

theorem ServerInv.init (fd : Int) : ServerInv (World.init fd []) [] :=
  ⟨.init fd, .init fd [], .init fd [], .init fd [], .init fd []⟩

theorem ServerInv.step {w w' : World} {a : Act} {received : Bytes} (hi : ServerInv w received)
    (hstream : FrameStream received) (hfit : PassesFit w a) (h : World.Step w a w') :
    ServerInv w' received := by
  have hpool := hi.pool.step h
  exact ⟨hi.wire.step hstream hfit h, hpool, hi.order.step hi.pool.task hi.pool.close h,
    hi.stream.step hi.pool hpool h, hi.start.step hi.pool.task h⟩

theorem PoolInv.arrive {w : World} (hi : PoolInv w) (more : Bytes) : PoolInv (arrive w more) := by
  obtain ⟨htask, hclose, hsend, halarm⟩ := hi
  exact ⟨⟨htask.token, htask.queued, htask.scheduling⟩,
    ⟨hclose.owed, hclose.pending, hclose.notPending, hclose.closing, hclose.held, hclose.callback,
      hclose.descriptor⟩,
    ⟨hsend.flushed, hsend.bytes, hsend.order, hsend.waiting, hsend.external⟩,
    ⟨halarm.channel, halarm.reading, halarm.writing, halarm.due⟩⟩

/-- None of the invariants speaks of the bytes that have still to be read, but for the wire's. -/
theorem ServerInv.arrive {w : World} {received : Bytes} (hi : ServerInv w received)
    (more : Bytes) : ServerInv (arrive w more) (received ++ more) :=
  ⟨hi.wire.arrive more, PoolInv.arrive hi.pool more, ⟨hi.order.kept, hi.order.order⟩,
    ⟨hi.stream.writing, hi.stream.sent, hi.stream.order, hi.stream.conserved⟩,
    ⟨hi.start.order, hi.start.waiting, hi.start.caught⟩⟩

/-- The server assumes frames, and guarantees them. -/
theorem serverContract : Contract server PassesFit FrameStream FrameStream ServerInv where
  step hi hstream hfit h := hi.step hstream hfit (World.step_cases h)
  deliver hi _ := hi.arrive _
  guarantee hi := hi.wire.guarantee

/-- With one response for each request, the responses also follow the requests. -/
theorem serverContract_replies : Contract server (fun w a => PassesFit w a ∧ OneResponse w a)
    FrameStream FrameStream (fun w received => ServerInv w received ∧ ReplyInv w) where
  step hi hstream hcond h :=
    ⟨hi.1.step hstream hcond.1 (World.step_cases h),
      hi.2.step hi.1.pool.task hcond.2 (World.step_cases h)⟩
  deliver hi _ := ⟨hi.1.arrive _, ⟨hi.2.order, hi.2.idle, hi.2.busy⟩⟩
  guarantee hi := hi.1.wire.guarantee

/-! ## §6 The gateway's end -/

/-- What an outbound connection adds: nothing is ever queued for a worker, and what was enqueued
has been handled, but for the message that is about to be. -/
structure GatewayInv (w : World) (received : Bytes) : Prop where
  wire : WireInv w received
  task : TaskInv w
  tasks : w.tasks = []
  pendingTasks : w.conn.pendingTasks = []
  started : w.log.started ++ w.loop.submits = w.log.enqueued

theorem GatewayInv.init (fd : Int) : GatewayInv (InlineSubmit.outbound fd []) [] := by
  have hwire := WireInv.init fd
  have htask := TaskInv.init fd []
  exact ⟨⟨hwire.clearing, ⟨hwire.incoming.fits, hwire.incoming.order, hwire.incoming.kept⟩,
    ⟨hwire.outgoing.flushed, hwire.outgoing.ahead, hwire.outgoing.kept, hwire.outgoing.writing⟩,
    hwire.fits⟩, ⟨htask.token, htask.queued, htask.scheduling⟩, rfl, rfl, rfl⟩

/-- A message that is enqueued goes straight to the submit callback. -/
theorem GatewayInv.idle {w : World} {received : Bytes} (hi : GatewayInv w received)
    {msg : MyMessage} (hl : w.loop = .enqueueing msg) : w.conn.taskRunning = false := by
  have htok := hi.task.token
  cases hr : w.conn.taskRunning with
  | false => rfl
  | true => simp [hl, hi.tasks, hr] at htok

/-- The steps that an outbound connection shares with one of a server. -/
theorem GatewayInv.shared {w w' : World} {a : Act} {received : Bytes} (hi : GatewayInv w received)
    (hstream : FrameStream received) (hfit : PassesFit w a) (h : World.Step w a w')
    (hsubmit : a = .loop → ∀ msg, w.loop ≠ .submitting msg) : GatewayInv w' received := by
  have hwire := hi.wire.step hstream hfit h
  have htask := hi.task.step h
  have hidle : ∀ {msg}, w.loop = .enqueueing msg → w.conn.taskRunning = false := hi.idle
  have hnone : ∀ {i : Nat} {t : Task}, w.tasks[i]? ≠ some t := by simp [hi.tasks]
  obtain ⟨-, -, htasks, hpending, hstarted⟩ := hi
  cases h with
  | runSend origin response rest hl hq =>
    obtain ⟨n, out, queue, wr, acc, pc, he, hpc⟩ :=
      runSend_frame { w with taskQueue := rest } origin response
    rw [he] at hwire htask ⊢
    have hsubmits : pc.submits = [] := by
      obtain ⟨-, rfl⟩ | ⟨-, rfl | rfl⟩ := hpc
      · simp [hl]
      · rfl
      · rfl
    refine ⟨hwire, htask, htasks, hpending, ?_⟩
    simpa [hl, hsubmits] using hstarted
  | inlineSend response hl =>
    obtain ⟨n, out, queue, wr, acc, pc, he, hpc⟩ := runSend_frame { w with
      conn := { w.conn with pendingSendCallbacks := w.conn.pendingSendCallbacks + 1 }
      log := { w.log with passed := w.log.passed ++ [(none, response)] } } none response
    rw [he] at hwire htask ⊢
    have hsubmits : pc.submits = w.loop.submits := by
      obtain ⟨-, rfl⟩ | ⟨hc, hpc⟩ := hpc
      · rfl
      · have hidle' := hl.resolve_right fun hne => hne hc
        obtain rfl | rfl := hpc
        · simp [hidle']
        · simp [hidle']
    refine ⟨hwire, htask, htasks, hpending, ?_⟩
    rw [hsubmits]
    exact hstarted
  | removed ret fd hl =>
    obtain ⟨afd, st, r, wr, ch, co, he, -⟩ := removeConnection_eq w fd
    rw [he] at hwire htask ⊢
    refine ⟨hwire, htask, htasks, hpending, ?_⟩
    simpa [hl] using hstarted
  -- straight through the queue
  | enqueueFirst msg next rest hl hr hq =>
    rw [hpending, List.nil_append, List.cons.injEq] at hq
    obtain ⟨rfl, hrest⟩ := hq
    refine ⟨hwire, htask, htasks, hrest.symm, ?_⟩
    simpa [hl] using hstarted
  | enqueueBehind msg hl hr =>
    rw [hidle hl] at hr
    cases hr
  | submitAccepted msg hl hpool => exact absurd hl (hsubmit rfl msg)
  | submitRejected msg hl hpool => exact absurd hl (hsubmit rfl msg)
  | completeNext next rest hl hc hq =>
    rw [hpending] at hq
    cases hq
  -- there is no worker
  | taskChecked i t hti => exact absurd hti hnone
  | taskSkipped i t hti => exact absurd hti hnone
  | handlerStart i t hti => exact absurd hti hnone
  | handlerPost i t response hti => exact absurd hti hnone
  | taskNext i t next rest hti => exact absurd hti hnone
  | taskLast i t hti => exact absurd hti hnone
  | taskFinalize i t hti => exact absurd hti hnone
  | taskClosed i t hti => exact absurd hti hnone
  | nextAccepted i t next hti => exact absurd hti hnone
  | nextRejected i t next hti => exact absurd hti hnone
  | handlerSend i t response hti => exact absurd hti hnone
  | handlerReturn i t hti => exact absurd hti hnone
  | _ => exact ⟨hwire, htask, htasks, by simp_all, by simp_all⟩

/-- `run_`, then `onComplete_`. -/
theorem GatewayInv.runInline {w : World} {received : Bytes} (hi : GatewayInv w received)
    {msg : MyMessage} (hl : w.loop = .submitting msg) :
    GatewayInv (InlineSubmit.runInline w msg) received := by
  have hc := hi.task.scheduling (by simp [hl])
  obtain ⟨⟨-, hin, hout, hfits⟩, htask, htasks, hpending, hstarted⟩ := hi
  rw [InlineSubmit.runInline_of_connected hc]
  refine ⟨⟨by simp, ?_, ?_, hfits⟩, ⟨?_, htask.queued, fun _ => hc⟩, htasks, hpending, ?_⟩
  · exact hin.congr (by simp [taken, hl]) id rfl (fun _ => rfl) (by simp [mayParse, hl])
  · exact hout.congr id rfl rfl rfl (fun _ => rfl) (by simp)
  · simpa [hl] using htask.token
  · simpa [hl] using hstarted

/-- `EPOLLERR`. -/
theorem GatewayInv.closeEvent {w : World} {received : Bytes} (hi : GatewayInv w received)
    (hl : w.loop = .idle) : GatewayInv { w with loop := .closeCas .toLoop } received := by
  obtain ⟨⟨-, hin, hout, hfits⟩, htask, htasks, hpending, hstarted⟩ := hi
  refine ⟨⟨by simp, ?_, ?_, hfits⟩, ⟨?_, htask.queued, by simp⟩, htasks, hpending, ?_⟩
  · exact hin.congr (by simp [taken, hl]) id rfl (fun _ => rfl) (by simp [mayParse])
  · exact hout.congr id rfl rfl rfl (fun _ => rfl) (by simp)
  · simpa [hl] using htask.token
  · simpa [hl] using hstarted

/-- What a step of the gateway's end is. -/
theorem step_ind {w w' : World} {a : Act} {P : World → Prop}
    (h : InlineSubmit.step w a = some w')
    (hinline : ∀ msg, w.loop = .submitting msg → P (InlineSubmit.runInline w msg))
    (hclose : w.loop = .idle → P { w with loop := .closeCas .toLoop })
    (hshared : World.Step w a w' → (a = .loop → ∀ msg, w.loop ≠ .submitting msg) → P w') : P w' := by
  obtain ⟨msg, rfl, hl, rfl⟩ | ⟨cause, rfl⟩ | ⟨hstep, hsubmit, -⟩ := InlineSubmit.step_cases h
  · exact hinline msg hl
  · simp only [InlineSubmit.step] at h
    split_ifs at h with hguard
    cases h
    exact hclose hguard.1
  · exact hshared hstep hsubmit

theorem GatewayInv.step {w w' : World} {a : Act} {received : Bytes} (hi : GatewayInv w received)
    (hstream : FrameStream received) (hfit : PassesFit w a)
    (h : InlineSubmit.step w a = some w') : GatewayInv w' received := by
  apply step_ind (P := fun t => GatewayInv t received) h
  · exact fun _ hl => hi.runInline hl
  · exact fun hl => hi.closeEvent hl
  · exact fun hstep hsubmit => hi.shared hstream hfit hstep hsubmit

theorem GatewayInv.arrive {w : World} {received : Bytes} (hi : GatewayInv w received)
    (more : Bytes) : GatewayInv (arrive w more) (received ++ more) :=
  ⟨hi.wire.arrive more, ⟨hi.task.token, hi.task.queued, hi.task.scheduling⟩, hi.tasks,
    hi.pendingTasks, hi.started⟩

theorem runInline_sent (w : World) (msg : MyMessage) :
    (InlineSubmit.runInline w msg).log.sent = w.log.sent := by
  unfold InlineSubmit.runInline
  dsimp only
  split_ifs
  · rfl
  · rfl

/-- An outbound connection of the gateway. -/
def gateway : Endpoint World Act UInt8 where
  step := InlineSubmit.step
  sent w := w.log.sent
  deliver := arrive
  sent_prefix {w _ _} h := by
    apply step_ind (P := fun t => w.log.sent <+: t.log.sent) h
    · intro msg _
      exact ⟨[], by rw [List.append_nil, runInline_sent]⟩
    · exact fun _ => List.prefix_rfl
    · exact fun hstep _ => sent_prefix_of_step hstep
  sent_deliver _ _ := rfl

/-- So does the gateway. -/
theorem gatewayContract : Contract gateway PassesFit FrameStream FrameStream GatewayInv where
  step hi hstream hfit h := hi.step hstream hfit h
  deliver hi _ := hi.arrive _
  guarantee hi := hi.wire.guarantee

/-! ## §7 Whole runs -/

/-- The gateway's end on the left. -/
abbrev Link := Duplex World World

/-- A link right after `connect` and `accept`. -/
def connected (fd fd' : Int) : Link := ⟨InlineSubmit.outbound fd [], World.init fd' []⟩

abbrev linkStep : Link → Duplex.Act Act Act → Option Link := Duplex.step gateway server

/-- Between open ends, the frames of the responses that one end has accepted are those that the
other one has taken, and what is in the buffers and on the wire. -/
def Conserves (u v : World) : Prop :=
  u.conn.state = .connected → v.conn.state = .connected → v.conn.peerReadClosed = false →
    encodeAll (taken v) ++ v.conn.inBuffer ++ v.toRecv ++ u.conn.outBuffer =
      encodeAll (u.log.accepted.map Prod.snd)

/-- The parser of an open end finds no error. -/
def WellFormed (w : World) : Prop :=
  w.conn.state = .connected → w.loop = .parsing → ∀ rest, parse w.conn.inBuffer ≠ .error rest

/-- What a link promises in a state. -/
structure Exchanges (d : Link) : Prop where
  requests : d.right.log.enqueued <+: d.left.log.accepted.map Prod.snd
  handled : d.right.log.started <+: d.right.log.enqueued
  responses : d.left.log.started <+: d.right.log.accepted.map Prod.snd
  requestBytes : Conserves d.left d.right
  responseBytes : Conserves d.right d.left
  wellFormed : WellFormed d.left ∧ WellFormed d.right

/-- One direction. -/
theorem WireInv.taken_prefix {u v : World} (hv : WireInv v u.log.sent) {received : Bytes}
    (hu : WireInv u received) : taken v <+: u.log.accepted.map Prod.snd := by
  apply prefix_of_encodeAll hv.incoming.fits
  · intro m hm
    obtain ⟨p, hp, rfl⟩ := List.mem_map.mp hm
    exact hu.fits p (mem_passing.mpr (Or.inl hp))
  · exact hv.incoming.order.trans hu.outgoing.ahead

theorem WireInv.conserves {u v : World} (hv : WireInv v u.log.sent) {received : Bytes}
    (hu : WireInv u received) : Conserves u v := by
  intro hu' hv' hread
  have hin := hv.incoming.kept hv' (Or.inl hread)
  have hout := hu.outgoing.kept hu'
  rw [← hout, ← hin]
  simp

theorem WireInv.wellFormed {w : World} {received : Bytes} (hi : WireInv w received)
    (hstream : FrameStream received) : WellFormed w := fun hc hl _ =>
  parse_ne_error hi.incoming.fits (hi.incoming.kept hc (Or.inr (by simp [mayParse, hl]))) hstream

theorem Exchanges.of_kept {d : Link} (h : Duplex.Kept gateway server GatewayInv ServerInv d) :
    Exchanges d := by
  obtain ⟨hleft, hright⟩ := h
  have htaken := hright.wire.taken_prefix hleft.wire
  have htaken' := hleft.wire.taken_prefix hright.wire
  refine ⟨(List.prefix_append _ _).trans htaken, ?_, ?_, hright.wire.conserves hleft.wire,
    hleft.wire.conserves hright.wire, hleft.wire.wellFormed hright.wire.guarantee,
    hright.wire.wellFormed hleft.wire.guarantee⟩
  · exact hright.start.order.trans ((List.prefix_append _ _).trans hright.order.order)
  · have hstarted : d.left.log.started <+: d.left.log.enqueued :=
      ⟨d.left.loop.submits, hleft.started⟩
    exact hstarted.trans ((List.prefix_append _ _).trans htaken')

/-- The first responses that a server has accepted, and how they answer the gateway: those of its
handlers answer the gateway's requests, in their order. -/
def Answers (d : Link) (answers : List (Origin × MyMessage)) : Prop :=
  answers <+: d.right.log.accepted ∧ d.left.log.started = answers.map Prod.snd ∧
    (handlerSends answers).map Prod.fst <+: (d.left.log.accepted.map Prod.snd).map some

theorem Exchanges.answers {d : Link} (h : Exchanges d) (hserver : StreamInv d.right)
    (hreply : ReplyInv d.right) : ∃ answers, Answers d answers := by
  refine ⟨d.right.log.accepted.take d.left.log.started.length, List.take_prefix _ _, ?_, ?_⟩
  · rw [List.map_take]
    exact List.prefix_iff_eq_take.mp h.responses
  · have hfirst : handlerSends (d.right.log.accepted.take d.left.log.started.length) <+:
        handlerSends d.right.log.accepted := (List.take_prefix _ _).filter _
    have hrequests : (handlerSends d.right.log.passed).map Prod.fst <+:
        (d.left.log.accepted.map Prod.snd).map some :=
      hreply.order.trans ((h.handled.trans h.requests).map _)
    exact ((hfirst.trans hserver.order).map _).trans hrequests

/-- **The link, end to end.**  In every interleaving of the threads of both processes, with whatever
`send` takes and `readv` returns, if every response fits into a frame: the server handles the
gateway's messages, and the gateway the server's, in the order in which they were accepted, each at
most once; between open ends none is lost, and no parser finds an error.  If each of the server's
handlers calls `sendResponse` once, the answers that the gateway gets follow its requests. -/
theorem link_exchanges {fd fd' : Int} {acts : List (Duplex.Act Act Act)} {d : Link}
    (hrun : run linkStep (connected fd fd') acts = some d)
    (hfit : Meets linkStep (Duplex.Both PassesFit PassesFit) (connected fd fd') acts) :
    Exchanges d ∧
      (Meets linkStep (Duplex.Both (fun _ _ => True) OneResponse) (connected fd fd') acts →
        ∃ answers, Answers d answers) := by
  have hkept : Duplex.Kept gateway server GatewayInv ServerInv d :=
    Duplex.run_contract gatewayContract serverContract ⟨.init fd, .init fd'⟩ hfit hrun
  refine ⟨.of_kept hkept, fun hone => ?_⟩
  have hboth : Meets linkStep (Duplex.Both PassesFit fun w a => PassesFit w a ∧ OneResponse w a)
      (connected fd fd') acts := by
    apply Meets.imp (I := fun _ => True) _ _ trivial (hfit.and hone)
    · intro d a _ hcond
      cases a with
      | left a => exact hcond.1
      | right c => exact hcond
    · exact fun _ _ _ _ _ _ => trivial
  have hreply := Duplex.run_contract gatewayContract serverContract_replies
    ⟨.init fd, .init fd', .init fd' []⟩ hboth hrun
  exact (Exchanges.of_kept hkept).answers hkept.right.stream hreply.right.2

/-- A request, a broadcast that overtakes its answer, and both of them back at the gateway. -/
def roundTrip : List (Duplex.Act Act Act) :=
  ([.extSend ⟨.sendMsgReq, 1, [0x68]⟩, .post (.send none ⟨.sendMsgReq, 1, [0x68]⟩),
    .runCallback true, .loop, .writeEvent, .send 11, .loop, .loop].map .left) ++
  ([.readEvent, .readv 11, .readvAgain, .loop, .loop, .loop, .loop, .loop, .worker 0, .worker 0,
    .extSend ⟨.broadcastMsg, 0, []⟩, .handlerSend 0 ⟨.sendMsgResp, 1, []⟩,
    .post (.send none ⟨.broadcastMsg, 0, []⟩), .worker 0, .handlerReturn 0, .worker 0,
    .runCallback true, .loop, .runCallback true, .loop, .writeEvent, .send 20, .loop, .loop].map
      .right) ++
  ([.readEvent, .readv 20, .readvAgain, .loop, .loop, .loop, .loop, .loop, .loop, .loop, .loop].map
    .left)

theorem link_exchanges_roundTrip :
    ∃ d, run linkStep (connected 7 9) roundTrip = some d ∧
      d.left.log.started = [⟨.broadcastMsg, 0, []⟩, ⟨.sendMsgResp, 1, []⟩] ∧ Exchanges d ∧
      ∃ answers, Answers d answers := by
  have hlast : ((run linkStep (connected 7 9) roundTrip).any fun d =>
      decide (d.left.log.started = [⟨.broadcastMsg, 0, []⟩, ⟨.sendMsgResp, 1, []⟩])) = true := by
    decide +kernel
  have hfit : Meets linkStep (Duplex.Both PassesFit PassesFit) (connected 7 9) roundTrip := by
    decide +kernel
  have hone : Meets linkStep (Duplex.Both (fun _ _ => True) OneResponse) (connected 7 9)
      roundTrip := by
    decide +kernel
  obtain ⟨d, hrun, hd⟩ := exists_of_run_any hlast
  obtain ⟨hexchanges, hanswers⟩ := link_exchanges hrun hfit
  exact ⟨d, hrun, of_decide_eq_true hd, hexchanges, hanswers hone⟩

end EchoNet.Net.BackendLink
