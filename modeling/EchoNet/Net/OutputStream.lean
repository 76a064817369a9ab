import EchoNet.Net.TaskOrder

/-!
# The Output Stream of a Connection

A response passed to `sendResponse` is announced, posted, queued in the event loop, encoded
into `outBuffer_` and written out piece by piece.  The handlers of the connection and any other
thread use this path at the same time.

- `StreamInv`: what has been written never runs ahead of the accepted responses, and while
  connected no response is anywhere but on that path;
- `StartInv`: handlers start in the order in which the tasks were submitted;
- `ReplyInv`: with one response for each request, the responses follow the requests.

## Main result

`output_stream`.
-/

namespace EchoNet.Net.PoolMachine

open EchoNet.Lib EchoNet.Protocol

open World

/-! ## §1 What has been written -/

@[simp] theorem Return.pc_ne_writing (ret : Return) : ret.pc ≠ .writing := by
  cases ret <;> exact LoopPc.noConfusion

/-- The responses between the `fetch_add` of `sendResponse` and the execution of its callback:
in the loop's queue, announced by a handler, or in the hands of another thread. -/
def World.inTransit (w : World) : List (Origin × MyMessage) :=
  queuedSends w.taskQueue ++ announcedSends w.tasks ++ queuedSends w.posting

/-- The output never runs ahead of the accepted responses, nor these of the passed ones; and
while connected every passed response is accepted or in transit. -/
structure StreamInv (w : World) : Prop where
  writing : w.loop = .writing → w.conn.state = .connected
  sent : w.log.sent <+: encodeAll (w.log.accepted.map Prod.snd)
  order : handlerSends w.log.accepted <+: handlerSends w.log.passed
  conserved : w.conn.state = .connected → (w.log.accepted ++ w.inTransit).Perm w.log.passed

theorem StreamInv.init (fd : Int) (stream : Bytes) : StreamInv (World.init fd stream) := by
  constructor <;> simp [World.init, Connection.create, World.inTransit]

/-- A step that leaves the responses where they are. -/
private theorem StreamInv.congr {w w' : World} (hi : StreamInv w)
    (hwriting : w'.loop = .writing → w'.conn.state = .connected)
    (hstate : w'.conn.state = .connected → w.conn.state = .connected)
    (hsent : w'.log.sent = w.log.sent) (haccepted : w'.log.accepted = w.log.accepted)
    (hpassed : w'.log.passed = w.log.passed)
    (htransit : w'.conn.state = .connected → w'.inTransit = w.inTransit) : StreamInv w' := by
  refine ⟨hwriting, ?_, ?_, fun hc => ?_⟩
  · rw [hsent, haccepted]
    exact hi.sent
  · rw [haccepted, hpassed]
    exact hi.order
  · rw [haccepted, hpassed, htransit hc]
    exact hi.conserved (hstate hc)

/-- What an open connection's invariants say of the output at once. -/
private theorem StreamInv.of_connected {w : World} (hs : SendInv w)
    (hc : w.conn.state = .connected)
    (hperm : (w.log.accepted ++ w.inTransit).Perm w.log.passed) : StreamInv w := by
  refine ⟨fun _ => hc, ?_, ?_, fun _ => hperm⟩
  · rw [← hs.bytes hc]
    exact List.prefix_append _ _
  · rw [hs.order hc, List.append_assoc]
    exact List.prefix_append _ _

theorem queuedSends_erase {posting : List Callback} {cb : Callback} (hm : cb ∈ posting) :
    (cb.sends ++ queuedSends (posting.erase cb)).Perm (queuedSends posting) :=
  ((List.perm_cons_erase hm).flatMap_right Callback.sends).symm

/-- Only an open connection accepts. -/
theorem runSend_accepted (w : World) (origin : Origin) (response : MyMessage) :
    (w.runSend origin response).log.accepted =
      if w.conn.state = .connected then w.log.accepted ++ [(origin, response)]
      else w.log.accepted := by
  unfold World.runSend
  split_ifs with hconn hc hc
  · cases w.conn.sendCallback response with
    | mk c overflow => cases overflow <;> rfl
  · exact absurd (by simpa using hconn) hc
  · exact absurd hc (by simpa using hconn)
  · rfl

/-- A send callback accepts its response, which has been passed before, or drops it. -/
private theorem StreamInv.runSend {w : World} {origin : Origin} {response : MyMessage}
    (hp' : PoolInv (w.runSend origin response)) (hwriting : w.loop ≠ .writing)
    (hsent : w.log.sent <+: encodeAll (w.log.accepted.map Prod.snd))
    (horder : handlerSends w.log.accepted <+: handlerSends w.log.passed)
    (hperm : w.conn.state = .connected →
      (w.log.accepted ++ (origin, response) :: w.inTransit).Perm w.log.passed) :
    StreamInv (w.runSend origin response) := by
  have hacc := runSend_accepted w origin response
  obtain ⟨n, out, queue, wr, acc, pc, he, hpc⟩ := runSend_frame w origin response
  rw [he] at hp' hacc ⊢
  simp only at hacc
  -- an open connection accepts, and what has been sent is a prefix of all bytes
  by_cases hc : w.conn.state = .connected
  · rw [if_pos hc] at hacc
    subst hacc
    refine .of_connected hp'.send hc ?_
    show ((w.log.accepted ++ [(origin, response)]) ++ w.inTransit).Perm w.log.passed
    rw [List.append_assoc]
    exact hperm hc
  · rw [if_neg hc] at hacc
    subst hacc
    -- a closed one drops the response, and the loop thread goes on
    have hpc' : pc = w.loop := by
      obtain ⟨-, h⟩ | ⟨h, -⟩ := hpc
      · exact h
      · exact absurd h hc
    subst hpc'
    exact ⟨fun hl => absurd hl hwriting, hsent, horder, fun h => absurd h hc⟩

theorem StreamInv.step {w w' : World} {a : Act} (hp : PoolInv w) (hp' : PoolInv w')
    (hi : StreamInv w) (h : Step w a w') : StreamInv w' := by
  have ⟨hwriting, hsent, horder, hperm⟩ := hi
  have ht := hp.task
  cases h with
  | runSend origin response rest hl hq =>
    refine StreamInv.runSend hp' (by simp [hl]) hsent horder fun hc => ?_
    simpa [World.inTransit, hq, Callback.sends] using hperm hc
  | inlineSend response hl =>
    have hnot : w.loop ≠ .writing := by
      intro hw
      obtain hidle | hne := hl
      · simp [hw] at hidle
      · exact hne (hwriting hw)
    refine StreamInv.runSend hp' hnot hsent ?_ fun hc => ?_
    · simpa using horder
    · exact (List.perm_middle.trans ((hperm hc).cons _)).trans (List.perm_append_singleton _ _).symm
  | removed ret fd hl =>
    obtain ⟨afd, st, r, wr, ch, co, he, hst⟩ := removeConnection_eq w fd
    rw [he]
    exact hi.congr (by simp) hst rfl rfl rfl (fun _ => rfl)
  | send n hl hpos hn =>
    exact .of_connected hp'.send (hwriting hl) (hperm (hwriting hl))
  -- from the hands of a thread to the loop's queue
  | post cb hm =>
    refine ⟨hwriting, hsent, horder, fun hc => ?_⟩
    refine List.Perm.trans (List.Perm.append_left _ ?_) (hperm hc)
    show (queuedSends (w.taskQueue ++ [cb]) ++ announcedSends w.tasks ++
      queuedSends (w.posting.erase cb)).Perm w.inTransit
    calc queuedSends (w.taskQueue ++ [cb]) ++ announcedSends w.tasks ++
          queuedSends (w.posting.erase cb)
        = queuedSends w.taskQueue ++ (cb.sends ++ announcedSends w.tasks) ++
          queuedSends (w.posting.erase cb) := by simp
      _ |>.Perm (queuedSends w.taskQueue ++ (announcedSends w.tasks ++ cb.sends) ++
          queuedSends (w.posting.erase cb)) := (List.perm_append_comm.append_left _).append_right _
      _ = queuedSends w.taskQueue ++ announcedSends w.tasks ++
          (cb.sends ++ queuedSends (w.posting.erase cb)) := by simp
      _ |>.Perm w.inTransit := (queuedSends_erase hm).append_left _
  | extSend response =>
    refine ⟨hwriting, hsent, by simpa using horder, fun hc => ?_⟩
    have hmoved := (hperm hc).append_right [(none, response)]
    simpa [World.inTransit, Callback.sends] using hmoved
  -- passed and announced at once
  | handlerSend i t response hti hpc =>
    obtain ⟨htasks, rfl⟩ := ht.singleton hti
    refine ⟨hwriting, hsent, ?_, fun hc => ?_⟩
    · have hmore : handlerSends w.log.passed <+:
          handlerSends (w.log.passed ++ [(some t.message, response)]) := by simp
      exact horder.trans hmore
    · have hold := hperm hc
      have hnone : announcedSends w.tasks = [] := by simp [htasks, Task.sends, hpc]
      simp only [World.inTransit, hnone, List.append_nil] at hold
      have hnew : announcedSends (w.tasks.set 0 { t with pc := .sending response }) =
          [(some t.message, response)] := by simp [htasks, Task.sends]
      simp only [World.inTransit, hnew]
      rw [List.append_assoc, ← List.append_assoc w.log.accepted, List.singleton_append]
      refine List.perm_middle.trans ?_
      rw [List.append_assoc]
      exact (hold.cons _).trans (List.perm_append_singleton _ _).symm
  | handlerPost i t response hti hpc =>
    obtain ⟨htasks, rfl⟩ := ht.singleton hti
    refine hi.congr hwriting id rfl rfl rfl fun _ => ?_
    simp [World.inTransit, htasks, Task.sends, hpc, Callback.sends]
  -- the other steps of a worker neither announce nor post a response
  | taskChecked i t hti hpc hc =>
    obtain ⟨htasks, rfl⟩ := ht.singleton hti
    exact hi.congr hwriting id rfl rfl rfl
      (fun _ => by simp [World.inTransit, htasks, Task.sends, hpc])
  | taskSkipped i t hti hpc hc =>
    obtain ⟨htasks, rfl⟩ := ht.singleton hti
    exact hi.congr hwriting id rfl rfl rfl
      (fun _ => by simp [World.inTransit, htasks, Task.sends, hpc])
  | handlerStart i t hti hpc =>
    obtain ⟨htasks, rfl⟩ := ht.singleton hti
    exact hi.congr hwriting id rfl rfl rfl
      (fun _ => by simp [World.inTransit, htasks, Task.sends, hpc])
  | taskNext i t next rest hti hpc hc hq =>
    obtain ⟨htasks, rfl⟩ := ht.singleton hti
    exact hi.congr hwriting id rfl rfl rfl
      (fun _ => by simp [World.inTransit, htasks, Task.sends, hpc])
  | nextAccepted i t next hti hpc hpool =>
    obtain ⟨htasks, rfl⟩ := ht.singleton hti
    exact hi.congr hwriting id rfl rfl rfl
      (fun _ => by simp [World.inTransit, htasks, Task.sends, hpc])
  | nextRejected i t next hti hpc hpool =>
    obtain ⟨htasks, rfl⟩ := ht.singleton hti
    exact hi.congr hwriting id rfl rfl rfl
      (fun _ => by simp [World.inTransit, htasks, Task.sends, hpc])
  | handlerReturn i t hti hpc =>
    obtain ⟨htasks, rfl⟩ := ht.singleton hti
    exact hi.congr hwriting id rfl rfl rfl
      (fun _ => by simp [World.inTransit, htasks, Task.sends, hpc])
  | taskLast i t hti hpc hc hq =>
    obtain ⟨htasks, rfl⟩ := ht.singleton hti
    exact hi.congr hwriting id rfl rfl rfl
      (fun _ => by simp [World.inTransit, htasks, Task.sends, hpc, Callback.sends])
  | taskFinalize i t hti hpc hc hpend =>
    obtain ⟨htasks, rfl⟩ := ht.singleton hti
    exact hi.congr hwriting id rfl rfl rfl
      (fun _ => by simp [World.inTransit, htasks, Task.sends, hpc, Callback.sends])
  | taskClosed i t hti hpc hc hpend =>
    obtain ⟨htasks, rfl⟩ := ht.singleton hti
    exact hi.congr hwriting id rfl rfl rfl
      (fun _ => by simp [World.inTransit, htasks, Task.sends, hpc, Callback.sends])
  | submitAccepted msg hl hpool =>
    exact hi.congr (by simp) id rfl rfl rfl
      (fun _ => by simp [World.inTransit, announcedSends, Task.sends])
  -- callbacks that are no responses, and the rest of the loop thread's code
  | runClose rest hl hq =>
    exact hi.congr (by simp) id rfl rfl rfl (fun _ => by simp [World.inTransit, hq, Callback.sends])
  | runFinalize rest hl hq =>
    exact hi.congr (by simp) id rfl rfl rfl (fun _ => by simp [World.inTransit, hq, Callback.sends])
  | runCheck rest hl hq =>
    exact hi.congr (by simp) id rfl rfl rfl (fun _ => by simp [World.inTransit, hq, Callback.sends])
  | runExpired cb rest hl hq hh =>
    have hc := hp.close.not_connected_of_released hh
    exact hi.congr hwriting id rfl rfl rfl (fun h => absurd h hc)
  | extClose =>
    exact hi.congr hwriting id rfl rfl rfl (fun _ => by simp [World.inTransit, Callback.sends])
  | _ => exact hi.congr (by simp_all) (by simp_all) rfl rfl rfl (fun _ => rfl)

/-! ## §2 The order of the handlers -/

/-- The task has been accepted by the pool and its handler may still start. -/
def Task.waits (t : Task) : Bool :=
  match t.pc with
  | .submitted | .checked => true
  | _ => false

/-- Handlers start in the order of the submissions.  A task that is skipped or rejected is
followed by none that starts: the first finds the connection closed, the second the pool
stopped. -/
structure StartInv (w : World) : Prop where
  order : w.log.started <+: w.log.submitted
  waiting : ∀ t ∈ w.tasks, t.pc = .checked ∨ t.pc = .submitted ∧ w.conn.state = .connected →
    w.log.submitted = w.log.started ++ [t.message]
  caught : w.conn.state = .connected → w.poolStopped = false →
    (∀ t ∈ w.tasks, t.waits = false) → w.log.started = w.log.submitted

theorem StartInv.init (fd : Int) (stream : Bytes) : StartInv (World.init fd stream) := by
  constructor <;> simp [World.init, Connection.create]

/-- A step that neither submits nor starts a task. -/
private theorem StartInv.congr {w w' : World} (hi : StartInv w)
    (hstate : w'.conn.state = .connected → w.conn.state = .connected)
    (hpool : w'.poolStopped = false → w.poolStopped = false)
    (htasks : w'.tasks = w.tasks) (hstarted : w'.log.started = w.log.started)
    (hsubmitted : w'.log.submitted = w.log.submitted) : StartInv w' := by
  refine ⟨?_, fun t hmem hpc => ?_, fun hc hp hnone => ?_⟩
  · rw [hstarted, hsubmitted]
    exact hi.order
  · rw [hstarted, hsubmitted]
    exact hi.waiting t (htasks ▸ hmem) (hpc.imp_right (And.imp_right hstate))
  · rw [hstarted, hsubmitted]
    exact hi.caught (hstate hc) (hpool hp) (htasks ▸ hnone)

/-- A step of a task whose handler has started or never will: nothing waits, and nothing is
submitted or started. -/
private theorem StartInv.of_idle {w w' : World} (hi : StartInv w)
    (hstate : w'.conn.state = w.conn.state) (hpool : w'.poolStopped = w.poolStopped)
    (hbefore : w.conn.state = .connected → ∀ t ∈ w.tasks, t.waits = false)
    (hafter : ∀ t ∈ w'.tasks, t.waits = false)
    (hstarted : w'.log.started = w.log.started)
    (hsubmitted : w'.log.submitted = w.log.submitted) : StartInv w' := by
  refine ⟨?_, fun t hmem hpc => ?_, fun hc hp _ => ?_⟩
  · rw [hstarted, hsubmitted]
    exact hi.order
  · have hwaits := hafter t hmem
    unfold Task.waits at hwaits
    obtain hpc | ⟨hpc, -⟩ := hpc <;> simp [hpc] at hwaits
  · rw [hstarted, hsubmitted]
    exact hi.caught (hstate ▸ hc) (hpool ▸ hp) (hbefore (hstate ▸ hc))

theorem StartInv.step {w w' : World} {a : Act} (ht : TaskInv w) (hi : StartInv w)
    (h : Step w a w') : StartInv w' := by
  have ⟨horder, hwaiting, hcaught⟩ := hi
  cases h with
  | runSend origin response rest hl hq =>
    obtain ⟨n, out, queue, wr, acc, pc, he, -⟩ :=
      runSend_frame { w with taskQueue := rest } origin response
    rw [he]
    exact hi.congr id id rfl rfl rfl
  | inlineSend response hl =>
    obtain ⟨n, out, queue, wr, acc, pc, he, -⟩ := runSend_frame { w with
      conn := { w.conn with pendingSendCallbacks := w.conn.pendingSendCallbacks + 1 }
      log := { w.log with passed := w.log.passed ++ [(none, response)] } } none response
    rw [he]
    exact hi.congr id id rfl rfl rfl
  | removed ret fd hl =>
    obtain ⟨afd, st, r, wr, ch, co, he, hst⟩ := removeConnection_eq w fd
    rw [he]
    exact hi.congr hst id rfl rfl rfl
  -- a submission finds every earlier task started, unless the pool has stopped
  | submitAccepted msg hl hp =>
    have htasks := ht.tasks_eq_nil (by simp [hl])
    have heq := hcaught (ht.scheduling (by simp [hl])) hp (by simp [htasks])
    refine ⟨?_, ?_, ?_⟩
    · rw [heq]
      exact List.prefix_append _ _
    · simp [htasks, heq]
    · simp [Task.waits]
  | submitRejected msg hl hp =>
    have htasks := ht.tasks_eq_nil (by simp [hl])
    refine ⟨horder.trans (List.prefix_append _ _), ?_, ?_⟩
    · simp [htasks]
    · simp [hp]
  | nextAccepted i t next hti hpc hp =>
    obtain ⟨htasks, rfl⟩ := ht.singleton hti
    have heq : w.conn.state = .connected → w.log.started = w.log.submitted :=
      fun hc => hcaught hc hp (by simp [htasks, Task.waits, hpc])
    refine ⟨horder.trans (List.prefix_append _ _), ?_, ?_⟩
    · intro u hu hupc
      simp only [htasks, List.set_cons_zero, List.mem_singleton] at hu
      subst hu
      obtain hchecked | ⟨-, hc⟩ := hupc
      · cases hchecked
      · rw [heq hc]
    · simp [htasks, Task.waits]
  | nextRejected i t next hti hpc hp =>
    obtain ⟨htasks, rfl⟩ := ht.singleton hti
    refine ⟨horder.trans (List.prefix_append _ _), ?_, ?_⟩
    · simp [htasks]
    · simp [hp]
  -- a task on its way to the handler
  | taskChecked i t hti hpc hc =>
    obtain ⟨htasks, rfl⟩ := ht.singleton hti
    have hlast := hwaiting t (by simp [htasks]) (Or.inr ⟨hpc, hc⟩)
    refine ⟨horder, ?_, ?_⟩
    · simp [htasks, hlast]
    · simp [htasks, Task.waits]
  -- it will not start, and the connection is closed
  | taskSkipped i t hti hpc hc =>
    obtain ⟨htasks, rfl⟩ := ht.singleton hti
    exact hi.of_idle rfl rfl (fun h => absurd h hc) (by simp [htasks, Task.waits]) rfl rfl
  | handlerStart i t hti hpc =>
    obtain ⟨htasks, rfl⟩ := ht.singleton hti
    have hlast := hwaiting t (by simp [htasks]) (Or.inl hpc)
    refine ⟨?_, ?_, ?_⟩
    · simp [hlast]
    · simp [htasks]
    · simp [hlast]
  | handlerPost i t response hti hpc =>
    obtain ⟨htasks, rfl⟩ := ht.singleton hti
    exact hi.of_idle rfl rfl (by simp [htasks, Task.waits, hpc]) (by simp [htasks, Task.waits])
      rfl rfl
  | handlerSend i t response hti hpc =>
    obtain ⟨htasks, rfl⟩ := ht.singleton hti
    exact hi.of_idle rfl rfl (by simp [htasks, Task.waits, hpc]) (by simp [htasks, Task.waits])
      rfl rfl
  | handlerReturn i t hti hpc =>
    obtain ⟨htasks, rfl⟩ := ht.singleton hti
    exact hi.of_idle rfl rfl (by simp [htasks, Task.waits, hpc]) (by simp [htasks, Task.waits])
      rfl rfl
  | taskNext i t next rest hti hpc hc hq =>
    obtain ⟨htasks, rfl⟩ := ht.singleton hti
    exact hi.of_idle rfl rfl (by simp [htasks, Task.waits, hpc]) (by simp [htasks, Task.waits])
      rfl rfl
  | taskLast i t hti hpc hc hq =>
    obtain ⟨htasks, rfl⟩ := ht.singleton hti
    exact hi.of_idle rfl rfl (by simp [htasks, Task.waits, hpc]) (by simp [htasks]) rfl rfl
  | taskFinalize i t hti hpc hc hpend =>
    obtain ⟨htasks, rfl⟩ := ht.singleton hti
    exact hi.of_idle rfl rfl (by simp [htasks, Task.waits, hpc]) (by simp [htasks]) rfl rfl
  | taskClosed i t hti hpc hc hpend =>
    obtain ⟨htasks, rfl⟩ := ht.singleton hti
    exact hi.of_idle rfl rfl (by simp [htasks, Task.waits, hpc]) (by simp [htasks]) rfl rfl
  | closeCas ret hl hc => exact hi.congr (by simp) id rfl rfl rfl
  | stopPool => exact hi.congr id (by simp) rfl rfl rfl
  | _ => exact hi.congr id id rfl rfl rfl

/-! ## §3 One response for each request -/

/-- Each handler calls `sendResponse` once before it returns.  The handlers of a connection do
not overlap, so the calls of the executing handler are those beyond one for every handler that
has started before it. -/
def OneResponse (w : World) : Act → Prop
  | .handlerSend _ _ => (handlerSends w.log.passed).length < w.log.started.length
  | .handlerReturn _ => (handlerSends w.log.passed).length = w.log.started.length
  | _ => True

instance (w : World) (a : Act) : Decidable (OneResponse w a) := by
  unfold OneResponse
  split <;> infer_instance

/-- The responses answer the started requests in order, and only the executing handler may have
its response still to pass. -/
structure ReplyInv (w : World) : Prop where
  order : (handlerSends w.log.passed).map Prod.fst <+: w.log.started.map some
  idle : (∀ t ∈ w.tasks, ¬ t.Executing) →
    (handlerSends w.log.passed).length = w.log.started.length
  busy : ∀ t ∈ w.tasks, t.Executing → (∃ earlier, w.log.started = earlier ++ [t.message]) ∧
    w.log.started.length ≤ (handlerSends w.log.passed).length + 1

theorem ReplyInv.init (fd : Int) (stream : Bytes) : ReplyInv (World.init fd stream) := by
  constructor <;> simp [World.init]

/-- A step that touches no handler. -/
private theorem ReplyInv.congr {w w' : World} (hi : ReplyInv w) (htasks : w'.tasks = w.tasks)
    (hstarted : w'.log.started = w.log.started)
    (hpassed : handlerSends w'.log.passed = handlerSends w.log.passed) : ReplyInv w' := by
  constructor
  · rw [hpassed, hstarted]
    exact hi.order
  · rw [htasks, hpassed, hstarted]
    exact hi.idle
  · rw [htasks, hpassed, hstarted]
    exact hi.busy

/-- A step of a task outside its handler. -/
private theorem ReplyInv.of_idle {w w' : World} (hi : ReplyInv w)
    (hbefore : ∀ t ∈ w.tasks, ¬ t.Executing) (hafter : ∀ t ∈ w'.tasks, ¬ t.Executing)
    (hlog : w'.log.started = w.log.started ∧ w'.log.passed = w.log.passed) : ReplyInv w' := by
  obtain ⟨hstarted, hpassed⟩ := hlog
  refine ⟨?_, fun _ => ?_, fun t hmem hexec => absurd hexec (hafter t hmem)⟩
  · rw [hpassed, hstarted]
    exact hi.order
  · rw [hpassed, hstarted]
    exact hi.idle hbefore

theorem ReplyInv.step {w w' : World} {a : Act} (ht : TaskInv w) (hi : ReplyInv w)
    (hG : OneResponse w a) (h : Step w a w') : ReplyInv w' := by
  have ⟨horder, hidle, hbusy⟩ := hi
  cases h with
  | runSend origin response rest hl hq =>
    obtain ⟨n, out, queue, wr, acc, pc, he, -⟩ :=
      runSend_frame { w with taskQueue := rest } origin response
    rw [he]
    exact hi.congr rfl rfl rfl
  | inlineSend response hl =>
    obtain ⟨n, out, queue, wr, acc, pc, he, -⟩ := runSend_frame { w with
      conn := { w.conn with pendingSendCallbacks := w.conn.pendingSendCallbacks + 1 }
      log := { w.log with passed := w.log.passed ++ [(none, response)] } } none response
    rw [he]
    exact hi.congr rfl rfl (by simp)
  | extSend response => exact hi.congr rfl rfl (by simp)
  | removed ret fd hl =>
    obtain ⟨afd, st, r, wr, ch, co, he, hst⟩ := removeConnection_eq w fd
    rw [he]
    exact hi.congr rfl rfl rfl
  | handlerStart i t hti hpc =>
    obtain ⟨htasks, rfl⟩ := ht.singleton hti
    -- every request before this one has been answered
    have hall := hidle (by simp [htasks, Task.Executing, hpc])
    refine ⟨?_, ?_, ?_⟩
    · have hmore : w.log.started.map some <+: (w.log.started ++ [t.message]).map some := by simp
      exact horder.trans hmore
    · simp [htasks, Task.Executing]
    · intro u hu _
      simp only [htasks, List.set_cons_zero, List.mem_singleton] at hu
      subst hu
      exact ⟨⟨w.log.started, rfl⟩, by simp [hall]⟩
  | handlerSend i t response hti hpc =>
    obtain ⟨htasks, rfl⟩ := ht.singleton hti
    -- the executing handler's request is the last that has started
    obtain ⟨⟨earlier, hstarted⟩, hlen⟩ := hbusy t (by simp [htasks]) (by simp [Task.Executing, hpc])
    -- the responses so far answer everything before this request
    have heq : (handlerSends w.log.passed).length = earlier.length := by
      have hlt : (handlerSends w.log.passed).length < w.log.started.length := hG
      rw [hstarted, List.length_append, List.length_singleton] at hlt hlen
      omega
    have hearlier : (handlerSends w.log.passed).map Prod.fst = earlier.map some := by
      rw [hstarted, List.map_append] at horder
      obtain ⟨rest, hrest⟩ := horder
      exact (List.append_inj hrest (by simpa using heq)).1
    refine ⟨?_, ?_, ?_⟩
    · simp [hstarted, hearlier]
    · simp [htasks, Task.Executing]
    · intro u hu _
      simp only [htasks, List.set_cons_zero, List.mem_singleton] at hu
      subst hu
      exact ⟨⟨earlier, hstarted⟩, by simp [hstarted, heq]⟩
  | handlerPost i t response hti hpc =>
    obtain ⟨htasks, rfl⟩ := ht.singleton hti
    have hown := hbusy t (by simp [htasks]) (by simp [Task.Executing, hpc])
    refine ⟨horder, ?_, ?_⟩
    · simp [htasks, Task.Executing]
    · intro u hu _
      simp only [htasks, List.set_cons_zero, List.mem_singleton] at hu
      subst hu
      exact hown
  | handlerReturn i t hti hpc =>
    obtain ⟨htasks, rfl⟩ := ht.singleton hti
    exact ⟨horder, fun _ => hG, by simp [htasks, Task.Executing]⟩
  -- outside the handlers
  | submitAccepted msg hl hp =>
    have htasks := ht.tasks_eq_nil (by simp [hl])
    exact hi.of_idle (by simp [htasks]) (by simp [htasks, Task.Executing]) ⟨rfl, rfl⟩
  | nextAccepted i t next hti hpc hp =>
    obtain ⟨htasks, rfl⟩ := ht.singleton hti
    exact hi.of_idle (by simp [htasks, Task.Executing, hpc]) (by simp [htasks, Task.Executing])
      ⟨rfl, rfl⟩
  | nextRejected i t next hti hpc hp =>
    obtain ⟨htasks, rfl⟩ := ht.singleton hti
    exact hi.of_idle (by simp [htasks, Task.Executing, hpc]) (by simp [htasks, Task.Executing])
      ⟨rfl, rfl⟩
  | taskChecked i t hti hpc hc =>
    obtain ⟨htasks, rfl⟩ := ht.singleton hti
    exact hi.of_idle (by simp [htasks, Task.Executing, hpc]) (by simp [htasks, Task.Executing])
      ⟨rfl, rfl⟩
  | taskSkipped i t hti hpc hc =>
    obtain ⟨htasks, rfl⟩ := ht.singleton hti
    exact hi.of_idle (by simp [htasks, Task.Executing, hpc]) (by simp [htasks, Task.Executing])
      ⟨rfl, rfl⟩
  | taskNext i t next rest hti hpc hc hq =>
    obtain ⟨htasks, rfl⟩ := ht.singleton hti
    exact hi.of_idle (by simp [htasks, Task.Executing, hpc]) (by simp [htasks, Task.Executing])
      ⟨rfl, rfl⟩
  | taskLast i t hti hpc hc hq =>
    obtain ⟨htasks, rfl⟩ := ht.singleton hti
    exact hi.of_idle (by simp [htasks, Task.Executing, hpc]) (by simp [htasks]) ⟨rfl, rfl⟩
  | taskFinalize i t hti hpc hc hpend =>
    obtain ⟨htasks, rfl⟩ := ht.singleton hti
    exact hi.of_idle (by simp [htasks, Task.Executing, hpc]) (by simp [htasks]) ⟨rfl, rfl⟩
  | taskClosed i t hti hpc hc hpend =>
    obtain ⟨htasks, rfl⟩ := ht.singleton hti
    exact hi.of_idle (by simp [htasks, Task.Executing, hpc]) (by simp [htasks]) ⟨rfl, rfl⟩
  | _ => exact hi.congr rfl rfl rfl

/-! ## §4 Whole runs -/

/-- What the output side of a connection promises in a state. -/
structure OutputStream (w : World) : Prop where
  sent : w.log.sent <+: encodeAll (w.log.accepted.map Prod.snd)
  whole : w.conn.state = .connected →
    w.log.sent ++ w.conn.outBuffer ++ w.conn.sendQueue.flatten =
      encodeAll (w.log.accepted.map Prod.snd)
  conserved : w.conn.state = .connected → (w.log.accepted ++ w.inTransit).Perm w.log.passed

/-- **Output stream integrity and order**: in every state of every interleaving of handlers,
other senders and the loop thread, with whatever `send` takes, the bytes handed to `send` are
a prefix of the frames of the accepted responses in the order of their callbacks.  While
connected the rest of these frames is in the buffers and every other response passed to
`sendResponse` is on its way.  If each handler calls `sendResponse` once before it returns, the
accepted responses of the handlers answer the requests in their order. -/
theorem output_stream (fd : Int) (stream : Bytes) (acts : List Act) (w : World)
    (hrun : run World.step (World.init fd stream) acts = some w) :
    OutputStream w ∧
      (Meets World.step OneResponse (World.init fd stream) acts →
        (handlerSends w.log.accepted).map Prod.fst <+: w.log.enqueued.map some) := by
  obtain ⟨hp, ho, hs, hstart⟩ := run_invariant
    (P := fun w => PoolInv w ∧ OrderInv w ∧ StreamInv w ∧ StartInv w)
    (fun _ _ _ hi h =>
      have hst := step_cases h
      have hp' := hi.1.step hst
      ⟨hp', hi.2.1.step hi.1.task hi.1.close hst, hi.2.2.1.step hi.1 hp' hst,
        hi.2.2.2.step hi.1.task hst⟩)
    ⟨.init fd stream, .init fd stream, .init fd stream, .init fd stream⟩ hrun
  refine ⟨⟨hs.sent, fun hc => ?_, hs.conserved⟩, fun hmeets => ?_⟩
  · rw [hp.send.flushed, List.flatten_nil, List.append_nil]
    exact hp.send.bytes hc
  · obtain ⟨-, hreply⟩ := run_invariant_of_meets (P := fun w => PoolInv w ∧ ReplyInv w)
      (fun _ _ _ hi hG h => ⟨hi.1.step (step_cases h), hi.2.step hi.1.task hG (step_cases h)⟩)
      ⟨.init fd stream, .init fd stream⟩ hmeets hrun
    -- responses follow the started requests, these the submitted, and these the enqueued
    have hsubmitted : w.log.submitted <+: w.log.enqueued :=
      (List.prefix_append _ _).trans ho.order
    have hstarted : (handlerSends w.log.passed).map Prod.fst <+: w.log.enqueued.map some :=
      hreply.order.trans ((hstart.order.trans hsubmitted).map _)
    exact (hs.order.map _).trans hstarted

/-- Two heartbeats; a broadcast is queued before the first response, and `send` takes the
output in pieces. -/
def interleavedSends : List Act :=
  [.readEvent, .readv 20, .readvAgain, .loop, .loop, .loop, .loop, .loop, .loop, .loop,
    .worker 0, .worker 0, .extSend ⟨.broadcastMsg, 0, [0x68]⟩,
    .handlerSend 0 ⟨.heartbeatResp, 1, []⟩, .post (.send none ⟨.broadcastMsg, 0, [0x68]⟩),
    .worker 0, .handlerReturn 0, .worker 0, .worker 0, .worker 0, .worker 0,
    .handlerSend 0 ⟨.heartbeatResp, 2, []⟩, .worker 0, .handlerReturn 0, .runCallback true, .loop,
    .writeEvent, .send 4, .sendAgain, .runCallback true, .loop, .runCallback true, .loop,
    .writeEvent, .send 20]

theorem output_stream_interleaved :
    ∃ w, run World.step (World.init 7 (encodeAll [⟨.heartbeatReq, 1, []⟩, ⟨.heartbeatReq, 2, []⟩]))
        interleavedSends = some w ∧
      w.log.sent.length = 24 ∧ w.log.accepted.length = 3 ∧ OutputStream w ∧
      (handlerSends w.log.accepted).map Prod.fst <+: w.log.enqueued.map some := by
  have hlast : ((run World.step (World.init 7 (encodeAll [⟨.heartbeatReq, 1, []⟩,
      ⟨.heartbeatReq, 2, []⟩])) interleavedSends).any fun w =>
        decide (w.log.sent.length = 24 ∧ w.log.accepted.length = 3)) = true := by
    decide
  have hmeets : Meets World.step OneResponse
      (World.init 7 (encodeAll [⟨.heartbeatReq, 1, []⟩, ⟨.heartbeatReq, 2, []⟩]))
      interleavedSends := by
    decide
  obtain ⟨w, hw, hlast⟩ := exists_of_run_any hlast
  obtain ⟨hsent, haccepted⟩ := of_decide_eq_true hlast
  obtain ⟨hstream, hreplies⟩ := output_stream 7 _ interleavedSends w hw
  exact ⟨w, hw, hsent, haccepted, hstream, hreplies hmeets⟩

end EchoNet.Net.PoolMachine
