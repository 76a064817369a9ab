import EchoNet.Server.SessionIsolation

/-!
# The Way out of a Connection

What the connections of the server go through from `handleClose` to the end of the close callback,
without a clock or an order between them.

- `Doomed`, `Retired`, `Released` and `Settled` are properties of one connection that its steps
  keep.
- `peer_of_step`: a step of the server is a step of one connection or of none, so that a property
  of this kind holds of all connections (`forall_peer_of_step`).
-/

namespace EchoNet.Server

open EchoNet.Lib EchoNet.Protocol EchoNet.Net.PoolMachine EchoNet.Chat

/-! ## §1 One connection -/

/-- A step takes back neither the close, nor its callback, nor the removal. -/
structure Later (w w' : World) : Prop where
  calls : w.log.closeCalls ≤ w'.log.closeCalls
  held : w'.inConnections = true → w.inConnections = true
  state : w.conn.state ≠ .connected → w'.conn.state ≠ .connected

private theorem removeConnection_later (w : World) (fd : Int) :
    ((w.removeConnection fd).inConnections = true → w.inConnections = true) ∧
      (w.conn.state ≠ .connected → (w.removeConnection fd).conn.state ≠ .connected) := by
  unfold World.removeConnection World.clearEvents Net.Connection.finishClose
  dsimp only
  split_ifs <;> simp_all

theorem later_of_step {w w' : World} {a : Net.PoolMachine.Act} (h : World.Step w a w') :
    Later w w' := by
  cases h with
  | runSend => constructor <;> simp
  | inlineSend => constructor <;> simp
  | removed ret fd hl =>
    obtain ⟨hheld, hstate⟩ := removeConnection_later w fd
    exact ⟨by simp, hheld, hstate⟩
  | closeCas ret hl hc => exact ⟨le_rfl, id, fun _ => by simp⟩
  | closeNow ret hl => exact ⟨Nat.le_succ _, id, id⟩
  | completeFinalize hl hc hp => exact ⟨Nat.le_succ _, id, id⟩
  | runFinalize rest hl hq => exact ⟨Nat.le_succ _, id, id⟩
  | _ => exact ⟨le_rfl, id, id⟩

/-- `handleClose` has come to its CAS or is about to. -/
def Doomed (w : World) : Prop :=
  w.conn.state ≠ .connected ∨ ∃ ret, w.loop = .closeCas ret

theorem Doomed.step {w w' : World} {a : Net.PoolMachine.Act} (hi : Doomed w)
    (h : World.Step w a w') : Doomed w' := by
  rcases hi with hstate | ⟨ret, hpc⟩
  · exact Or.inl ((later_of_step h).state hstate)
  · cases h with
    -- a send from a close callback leaves a connection in `handleClose` alone unless it is closed
    | inlineSend response hl =>
      have hstate : w.conn.state ≠ .connected := hl.resolve_left (by simp [hpc])
      exact Or.inl ((later_of_step (.inlineSend response hl)).state hstate)
    | closeCas => exact Or.inl (by simp)
    | closeAgain ret hl hc => exact Or.inl hc
    -- a step of the loop thread starts elsewhere, and the others leave the loop thread where it is
    | _ => first | exact Or.inr ⟨ret, hpc⟩ | simp_all

/-- The worker pool is through with a connection that is not connected any more. -/
structure Retired (w : World) : Prop where
  state : w.conn.state ≠ .connected
  tasks : w.tasks = []
  finalize : .finalize ∉ w.posting
  check : .check ∉ w.posting

theorem Retired.step {w w' : World} {a : Net.PoolMachine.Act} (hi : Retired w) (ht : TaskInv w)
    (h : World.Step w a w') : Retired w' := by
  have ⟨hstate, htasks, hfin, hcheck⟩ := hi
  have hnone : ∀ (i : Nat) (t : Task), w.tasks[i]? ≠ some t := by simp [htasks]
  have hstate' := (later_of_step h).state hstate
  cases h with
  | runSend => exact ⟨hstate', by simp [htasks], by simp [hfin], by simp [hcheck]⟩
  | inlineSend => exact ⟨hstate', by simp [htasks], by simp [hfin], by simp [hcheck]⟩
  | removed => exact ⟨hstate', by simp [htasks], by simp [hfin], by simp [hcheck]⟩
  -- only a connected connection hands a task to the pool
  | submitAccepted msg hl hp => exact absurd (ht.scheduling (by simp [hl])) hstate
  | extSend response => exact ⟨hstate', htasks, by simp [hfin], by simp [hcheck]⟩
  | extClose => exact ⟨hstate', htasks, by simp [hfin], by simp [hcheck]⟩
  -- posting empties the hands of a thread
  | post cb hm =>
    exact ⟨hstate', htasks, fun h => hfin (List.mem_of_mem_erase h),
      fun h => hcheck (List.mem_of_mem_erase h)⟩
  -- a step of a worker needs a task
  | _ => first | exact ⟨hstate', htasks, hfin, hcheck⟩ | exact absurd ‹_› (hnone _ _)

/-- The close callback, once invoked, has taken the connection out of `connections_` when it
returns, and that has closed it. -/
structure Released (w : World) : Prop where
  returned : w.inConnections = true → w.log.closeCalls ≠ 0 → w.loop.callbackFd ≠ none
  closed : w.inConnections = false → w.conn.state = .closed

theorem Released.init (fd : Int) (stream : Bytes) : Released (World.init fd stream) := by
  constructor <;> simp [World.init]

theorem Released.step {w w' : World} {a : Net.PoolMachine.Act} (hi : Released w) (hc : CloseInv w)
    (h : World.Step w a w') : Released w' := by
  have ⟨hreturned, hclosed⟩ := hi
  cases h with
  | runSend origin response rest hl hq =>
    refine ⟨fun hheld hcalls => ?_, by simpa using hclosed⟩
    exact absurd (by simp [hl]) (hreturned (by simpa using hheld) (by simpa using hcalls))
  | inlineSend response hl =>
    obtain ⟨n, out, queue, wr, acc, pc, he, hpc⟩ := runSend_frame { w with
      conn := { w.conn with pendingSendCallbacks := w.conn.pendingSendCallbacks + 1 }
      log := { w.log with passed := w.log.passed ++ [(none, response)] } } none response
    rw [he]
    obtain ⟨-, rfl⟩ | ⟨hstate, -⟩ := hpc
    · exact ⟨hreturned, hclosed⟩
    · have hidle := hl.resolve_right (fun hne => hne hstate)
      exact ⟨fun hheld hcalls => absurd (by simp [hidle]) (hreturned hheld hcalls), hclosed⟩
  | closeCas ret hl hstate =>
    refine ⟨fun hheld hcalls => absurd (by simp [hl]) (hreturned hheld hcalls), fun hheld => ?_⟩
    simp [hclosed hheld] at hstate
  | removed ret fd hl =>
    obtain ⟨rfl, hheld, -⟩ := hc.callback fd (by simp [hl])
    obtain ⟨r, wr, he⟩ := removeConnection_frame hheld (hc.descriptor hheld).2
    rw [he]
    exact ⟨fun hheld' => (nomatch hheld'), fun _ => rfl⟩
  -- the callback is entered, or stays
  | closeNow => exact ⟨fun _ _ => by simp, hclosed⟩
  | completeFinalize => exact ⟨fun _ _ => by simp, hclosed⟩
  | runFinalize => exact ⟨fun _ _ => by simp, hclosed⟩
  | businessClosed => exact ⟨fun _ _ => by simp, hclosed⟩
  -- the loop thread is not in the close callback, or stays where it is
  | _ => exact ⟨fun hheld hcalls => by have := hreturned hheld hcalls; simp_all, hclosed⟩

/-- The close callback has run to its end. -/
structure Settled (w : World) : Prop where
  called : w.log.closeCalls ≠ 0
  released : w.inConnections = false

theorem Settled.step {w w' : World} {a : Net.PoolMachine.Act} (hi : Settled w)
    (h : World.Step w a w') : Settled w' := by
  have hlater := later_of_step h
  refine ⟨fun h0 => hi.called (by have := hlater.calls; omega), ?_⟩
  cases hheld : w'.inConnections with
  | false => rfl
  | true => exact absurd (hlater.held hheld) (by simp [hi.released])

/-- What a retired connection still owes is in its part of the queue. -/
theorem Retired.settled {w : World} (hi : Retired w) (hs : Sound w) (hr : Released w)
    (hidle : w.loop = .idle) (hqueue : .finalize ∉ w.taskQueue) : Settled w := by
  have hout : ¬ w.TaskOutstanding := by simp [World.TaskOutstanding, hi.tasks, hidle]
  have hcomp : ¬ w.InOnTaskComplete := by
    simp [World.InOnTaskComplete, hidle, hi.finalize, hi.check, hi.tasks]
  have howed := hs.close.owed
  rw [closeOwed_eq_zero hs.task hs.close hi.state hout (by simp [hidle]) hcomp hqueue,
    if_neg hi.state, Nat.zero_add] at howed
  have hcalls : w.log.closeCalls ≠ 0 := by omega
  refine ⟨hcalls, ?_⟩
  cases hheld : w.inConnections with
  | false => rfl
  | true => exact absurd (by simp [hidle]) (hr.returned hheld hcalls)

/-- What a step other than the run of a closure adds to the queue was in the hands of a thread. -/
theorem taskQueue_of_step {w w' : World} {a : Net.PoolMachine.Act} (h : World.Step w a w')
    (ha : ∀ alive, a ≠ .runCallback alive) :
    ∃ posted, w'.taskQueue = w.taskQueue ++ posted ∧
      (.finalize ∈ posted → .finalize ∈ w.posting) := by
  have hnone {q : List Callback} (hq : q = w.taskQueue) :
      ∃ posted, q = w.taskQueue ++ posted ∧ (.finalize ∈ posted → .finalize ∈ w.posting) :=
    ⟨[], by simp [hq], by simp⟩
  cases h with
  | post cb hm => exact ⟨[cb], rfl, by rintro hfin; simpa [List.mem_singleton.mp hfin] using hm⟩
  | handlerPost i t response hti hpc => exact ⟨[.send (some t.message) response], rfl, by simp⟩
  -- these run a closure
  | runSend | runClose | runFinalize | runCheck | runExpired => exact absurd rfl (ha _)
  | inlineSend => exact hnone (by simp)
  | removed => exact hnone (by simp)
  | _ => exact hnone rfl

theorem taskQueue_of_runCallback {w w' : World} {alive : Bool}
    (h : World.Step w (.runCallback alive) w') : w'.taskQueue = w.taskQueue.tail := by
  cases h with
  | runSend origin response rest hl hq => simp [hq]
  | runClose rest hl hq => simp [hq]
  | runFinalize rest hl hq => simp [hq]
  | runCheck rest hl hq => simp [hq]
  | runExpired cb rest hl hq => simp [hq]

/-! ## §2 The connections of the server -/

namespace System

/-- Where a connection comes from in a step: nothing happens to it, the step is its own, or it
has just been created. -/
inductive PeerStep (s : System) (a : Act) (j : Nat) (q' : Peer) : Prop where
  | same (hq : s.conns[j]? = some q') (ha : ∀ b, a ≠ .conn j b)
  | step {q : Peer} {b : Net.PoolMachine.Act} (hq : s.conns[j]? = some q) (ha : a = .conn j b)
      (hloop : q'.loop = q.loop) (hstep : World.Step q.world b q'.world)
  | created {loop : Nat} {fd : Int} {stream : Bytes} (ha : a = .register loop fd stream)
      (hj : j = s.conns.length) (hq : q' = ⟨loop, .init fd stream⟩)

private theorem PeerStep.of_setWorld {s : System} {i j : Nat} {p q' : Peer} {w : World}
    {b : Net.PoolMachine.Act} (hp : s.conns[i]? = some p) (hstep : World.Step p.world b w)
    (hq' : (s.setWorld i p w).conns[j]? = some q') : PeerStep s (.conn i b) j q' := by
  obtain ⟨rfl, rfl⟩ | ⟨hij, hq⟩ := conns_setWorld hp hq'
  · exact .step hp rfl rfl hstep
  · exact .same hq fun b' heq => hij (by cases heq; rfl)

/-- A step of the server is a step of one of its connections, or of none. -/
theorem peer_of_step {s s' : System} {a : Act} (h : Descriptors s) (hstep : Step s a s') {j : Nat}
    {q' : Peer} (hq' : s'.conns[j]? = some q') : PeerStep s a j q' := by
  cases hstep with
  | accept => exact .same hq' (by simp)
  | register hposted =>
    -- the new connection takes nobody out of the maps
    rw [evict_eq h hposted] at hq'
    obtain hq | ⟨hj, rfl⟩ := conns_register hq'
    · exact .same hq (by simp)
    · exact .created rfl hj rfl
  | conn hp hw => exact .of_setWorld hp (World.step_cases hw) hq'
  | businessClosed hp hl => exact .of_setWorld hp (.businessClosed _ _ hl) hq'
  | removed hp hl =>
    -- `removeConnection` finds no other connection
    rw [(removed_eq h hp hl).1] at hq'
    exact .of_setWorld hp (.removed _ _ hl) hq'
  | login => exact .same hq' (by simp)
  | room => exact .same hq' (by simp)

/-- Connections stay. -/
theorem length_le_of_step {s s' : System} {a : Act} (hstep : Step s a s') :
    s.conns.length ≤ s'.conns.length := by
  cases hstep <;> simp [evict, setWorld, removeConnection, setLoop]

/-- A property of the connections that a creation establishes and their own steps keep. -/
theorem forall_peer_of_step {s s' : System} {a : Act} {P : Nat → Peer → Prop} (h : Descriptors s)
    (hstep : s.step a = some s') (hP : ∀ (j : Nat) q, s.conns[j]? = some q → P j q)
    (hkeep : ∀ (j : Nat) q q' b, s.conns[j]? = some q → P j q → q'.loop = q.loop →
      World.Step q.world b q'.world → P j q')
    (hcreated : ∀ loop fd stream, a = .register loop fd stream →
      P s.conns.length ⟨loop, .init fd stream⟩) :
    ∀ (j : Nat) q', s'.conns[j]? = some q' → P j q' := by
  intro j q' hq'
  cases peer_of_step h (step_cases hstep) hq' with
  | same hq => exact hP j q' hq
  | @step q b hq _ hloop hstep => exact hkeep j q q' b hq (hP j q hq) hloop hstep
  | created ha hj hq => exact hj ▸ hq ▸ hcreated _ _ _ ha

/-- A connection keeps its number and its loop. -/
theorem peer_stays {s s' : System} {a : Act} (h : Descriptors s) (hstep : s.step a = some s')
    {i : Nat} {p : Peer} (hp : s.conns[i]? = some p) :
    ∃ p', s'.conns[i]? = some p' ∧ p'.loop = p.loop := by
  have hlt := (List.getElem?_eq_some_iff.mp hp).1
  have hlt' := hlt.trans_le (length_le_of_step (step_cases hstep))
  refine ⟨s'.conns[i], List.getElem?_eq_getElem hlt', ?_⟩
  cases peer_of_step h (step_cases hstep) (List.getElem?_eq_getElem hlt') with
  | same hq => rw [Option.some.inj (hp.symm.trans hq)]
  | step hq _ hloop => rw [hloop, Option.some.inj (hp.symm.trans hq)]
  | created _ hj => omega

end System

end EchoNet.Server
