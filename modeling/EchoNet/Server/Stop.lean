import EchoNet.Server.Machine

/-!
# Stopping the Server

`Server::stop` over the server of `Machine.lean`.  The main thread asks every event loop to close
its connections and waits for the promises, stops the worker pool and joins it, puts a barrier
into every event loop and waits again, and joins the loops.

- `task_queue_` of a loop holds the creations, the closures of the connections, of which
  `World.taskQueue` is the part of one connection, and what `Server::stop` posts.
- A loop thread takes an event or a closure only when it has returned from the last one.  Only a
  send from inside a close callback reaches another connection of the loop in between.
- The workers can be joined when no connection has a task left and none has a callback of
  `onTaskComplete` left to post.

`IoThreadPool::submit` may choose any loop, the snapshot of `closeAllConnections` is gone through
in any order, each connection sees the stop of the worker pool for itself, and a loop that has been
told to stop may leave closures in its queue: this only adds runs.
-/

namespace EchoNet.Server

open EchoNet.Lib EchoNet.Protocol EchoNet.Net.PoolMachine EchoNet.Chat

/-! ## §1 States -/

/-- A closure in `EventLoop::task_queue_`. -/
inductive Item where
  /-- a creation of `IoThreadPool::submit` -/
  | create (fd : Int)
  /-- a closure of connection `i` -/
  | callback (i : Nat) (cb : Callback)
  /-- the closure of `EventLoop::closeAllConnections` -/
  | closeAll
  /-- the closure of `IoThreadPool::waitForPendingCallbacks` -/
  | barrier
  deriving DecidableEq, Repr

/-- An `EventLoop` of the pool and the promises that `Server::stop` waits for. -/
structure LoopThread where
  taskQueue : List Item
  /-- the connections that a running `closeAllConnections` has yet to close -/
  snapshot : Option (List Nat)
  closed : Bool
  drained : Bool
  stop : Bool
  /-- `loop()` has returned -/
  finished : Bool
  deriving DecidableEq, Repr

def LoopThread.init : LoopThread := ⟨[], none, false, false, false, false⟩

/-- `task_queue_.emplace_back`. -/
def LoopThread.post (L : LoopThread) (items : List Item) : LoopThread :=
  { L with taskQueue := L.taskQueue ++ items }

@[simp] theorem LoopThread.post_taskQueue (L : LoopThread) (items : List Item) :
    (L.post items).taskQueue = L.taskQueue ++ items := rfl

/-- Where the main thread is in `Server::stop`, with the loop or the connection it has got to. -/
inductive MainPc where
  /-- in `start`: the acceptor takes connections -/
  | serving
  /-- `iopool_.closeAllConnections()`, posting and waiting -/
  | closeAll (k : Nat)
  | awaitClosed (k : Nat)
  /-- `workpool_.stop()`: the queue stops, and the workers are joined -/
  | stopPool (k : Nat)
  | joinPool
  /-- `iopool_.waitForPendingCallbacks()`, posting and waiting -/
  | drain (k : Nat)
  | awaitDrained (k : Nat)
  /-- `iopool_.stop()`: `stop_` of every loop, and the loops are joined -/
  | stopLoops (k : Nat)
  | joinLoops (k : Nat)
  | returned
  deriving DecidableEq, Repr

structure Shutdown where
  system : System
  loops : List LoopThread
  main : MainPc

/-- The closures of connection `i` that its loop has yet to run. -/
def System.pendingCallbacks (t : System) (i : Nat) : List Callback :=
  (t.conns[i]?).elim [] fun p => p.world.taskQueue

/-- The loop thread is in none of its connections. -/
def System.loopIdle (t : System) (ℓ : Nat) : Bool :=
  t.conns.all fun p => p.loop ≠ ℓ || p.world.loop = .idle

/-- `connections_` of a loop. -/
def System.connectionsOf (t : System) (ℓ : Nat) : List Nat :=
  (List.range t.conns.length).filter fun i =>
    (t.conns[i]?).any fun p => p.loop = ℓ && p.world.inConnections

/-- No worker has a task of this connection, or is on its way out of one. -/
def workersDone (w : World) : Bool :=
  w.tasks.isEmpty && !w.posting.contains .finalize && !w.posting.contains .check

namespace Shutdown

/-- A server with `n` event loops, before its first connection. -/
def init (n : Nat) (firstRoomId : UInt32) : Shutdown where
  system := .init firstRoomId
  loops := List.replicate n .init
  main := .serving

/-! ## §2 Steps -/

inductive Act where
  /-- `accept4` returns `fd`, and `IoThreadPool::submit` posts the creation -/
  | accept (loop : Nat) (fd : Int)
  /-- the oldest closure of a loop is run; the arguments are those of a creation, on which the
  peer will send `stream`, and of a callback -/
  | runItem (loop : Nat) (stream : Bytes) (alive : Bool)
  /-- `closeAllConnections` closes connection `i` of its snapshot, or is through with it -/
  | closeOne (loop i : Nat)
  | closeDone (loop : Nat)
  /-- any other step of connection `i` -/
  | conn (i : Nat) (a : Net.PoolMachine.Act)
  | login (i k : Nat) (env : Env)
  | room (sec : RoomSection)
  /-- the main thread goes on -/
  | main
  /-- a loop thread leaves `loop()` -/
  | exit (loop : Nat)
  deriving DecidableEq, Repr

def update (s : Shutdown) (t : System) (ℓ : Nat) (L : LoopThread) : Shutdown :=
  { s with system := t, loops := s.loops.set ℓ L }

/-- The loop thread waits in `epoll_wait`, or goes through what that returned. -/
def atRest (s : Shutdown) (ℓ : Nat) : Bool :=
  (s.loops[ℓ]?).any (fun L => L.snapshot.isNone && !L.finished) && s.system.loopIdle ℓ

/-- Some close callback of the loop is being executed. -/
def inCloseCallback (s : Shutdown) (ℓ : Nat) : Bool :=
  s.system.conns.any fun p => p.loop = ℓ && p.world.loop.callbackFd.isSome

/-- What has to hold of the loop thread before it takes a step in one of its connections. -/
def mayStep (s : Shutdown) (ℓ : Nat) : Net.PoolMachine.Act → Bool
  | .readEvent | .writeEvent => s.atRest ℓ
  | .closeEvent .errorEvent | .closeEvent .idleTimeout => s.atRest ℓ
  | .inlineSend _ => s.inCloseCallback ℓ
  -- these are the steps `runItem`, `closeOne` and `main`
  | .runCallback _ | .closeEvent .closeAll | .stopPool => false
  | _ => true

/-- The step of connection `i` to `t`, with what it has posted. -/
def connStep (s : Shutdown) (i ℓ : Nat) (t : System) : Shutdown :=
  let posted := (t.pendingCallbacks i).drop (s.system.pendingCallbacks i).length
  { s with system := t, loops := s.loops.modify ℓ (·.post (posted.map (.callback i))) }

def runItem (s : Shutdown) (ℓ : Nat) (L : LoopThread) (stream : Bytes) (alive : Bool) :
    Option Shutdown :=
  match L.taskQueue with
  | [] => none
  | .create fd :: rest =>
    (s.system.step (.register ℓ fd stream)).map (s.update · ℓ { L with taskQueue := rest })
  -- the closure is the oldest of its connection as well
  | .callback i _ :: rest =>
    (s.system.step (.conn i (.runCallback alive))).map (s.update · ℓ { L with taskQueue := rest })
  | .closeAll :: rest =>
    some (s.update s.system ℓ
      { L with taskQueue := rest, snapshot := some (s.system.connectionsOf ℓ) })
  | .barrier :: rest => some (s.update s.system ℓ { L with taskQueue := rest, drained := true })

/-- `conn->close()`, which on the loop thread is `handleClose`. -/
def closeOne (s : Shutdown) (ℓ : Nat) (L : LoopThread) (ids : List Nat) (i : Nat) :
    Option Shutdown :=
  match s.system.conns[i]? with
  | none => none
  | some p =>
    let L' := { L with snapshot := some (ids.erase i) }
    if p.world.inConnections then
      (s.system.step (.conn i (.closeEvent .closeAll))).map (s.update · ℓ L')
    -- removed since the snapshot was taken: `handleClose` returns at its CAS
    else some (s.update s.system ℓ L')

/-- `Server::stop`. -/
def mainStep (s : Shutdown) : Option Shutdown :=
  match s.main with
  -- the acceptor is stopped
  | .serving => some { s with main := .closeAll 0 }
  | .closeAll k =>
    match s.loops[k]? with
    | some L =>
      some { s with loops := s.loops.set k (L.post [.closeAll]), main := .closeAll (k + 1) }
    | none => some { s with main := .awaitClosed 0 }
  | .awaitClosed k =>
    match s.loops[k]? with
    | some L => if L.closed then some { s with main := .awaitClosed (k + 1) } else none
    | none => some { s with main := .stopPool 0 }
  | .stopPool k =>
    match s.system.conns[k]? with
    | some _ =>
      (s.system.step (.conn k .stopPool)).map fun t =>
        { s with system := t, main := .stopPool (k + 1) }
    | none => some { s with main := .joinPool }
  -- `queue_` is empty and every worker has left `worker()`
  | .joinPool =>
    if s.system.conns.all fun p => workersDone p.world then some { s with main := .drain 0 }
    else none
  | .drain k =>
    match s.loops[k]? with
    | some L => some { s with loops := s.loops.set k (L.post [.barrier]), main := .drain (k + 1) }
    | none => some { s with main := .awaitDrained 0 }
  | .awaitDrained k =>
    match s.loops[k]? with
    | some L => if L.drained then some { s with main := .awaitDrained (k + 1) } else none
    | none => some { s with main := .stopLoops 0 }
  | .stopLoops k =>
    match s.loops[k]? with
    | some L =>
      some { s with loops := s.loops.set k { L with stop := true }, main := .stopLoops (k + 1) }
    | none => some { s with main := .joinLoops 0 }
  | .joinLoops k =>
    match s.loops[k]? with
    | some L => if L.finished then some { s with main := .joinLoops (k + 1) } else none
    | none => some { s with main := .returned }
  | .returned => none

def step (s : Shutdown) : Act → Option Shutdown
  | .accept ℓ fd =>
    match s.loops[ℓ]? with
    | none => none
    | some L =>
      if s.main = .serving then
        (s.system.step (.accept ℓ fd)).map (s.update · ℓ (L.post [.create fd]))
      else none
  | .runItem ℓ stream alive =>
    match s.loops[ℓ]? with
    | none => none
    | some L => if s.atRest ℓ then s.runItem ℓ L stream alive else none
  | .closeOne ℓ i =>
    match s.loops[ℓ]? with
    | none => none
    | some L =>
      match L.snapshot with
      | none => none
      | some ids =>
        if s.system.loopIdle ℓ && ids.contains i then s.closeOne ℓ L ids i else none
  | .closeDone ℓ =>
    match s.loops[ℓ]? with
    | none => none
    | some L =>
      if L.snapshot = some [] ∧ s.system.loopIdle ℓ = true then
        some (s.update s.system ℓ { L with snapshot := none, closed := true })
      else none
  | .conn i a =>
    match s.system.conns[i]? with
    | none => none
    | some p =>
      if s.mayStep p.loop a then (s.system.step (.conn i a)).map (s.connStep i p.loop) else none
  | .login i k env =>
    (s.system.step (.login i k env)).map fun t => { s with system := t }
  | .room sec => (s.system.step (.room sec)).map fun t => { s with system := t }
  | .main => s.mainStep
  | .exit ℓ =>
    match s.loops[ℓ]? with
    | none => none
    | some L =>
      if L.stop && s.atRest ℓ then some (s.update s.system ℓ { L with finished := true })
      else none

/-! ## §3 Everything a step can do -/

/-- Inversion of `step`. -/
inductive Step (s : Shutdown) : Act → Shutdown → Prop where
  | accept {ℓ : Nat} {fd : Int} {L : LoopThread} {t : System} (hL : s.loops[ℓ]? = some L)
      (hm : s.main = .serving) (ht : s.system.step (.accept ℓ fd) = some t) :
      Step s (.accept ℓ fd) (s.update t ℓ (L.post [.create fd]))
  | create {ℓ : Nat} {stream : Bytes} {alive : Bool} {L : LoopThread} {fd : Int}
      {rest : List Item} {t : System} (hL : s.loops[ℓ]? = some L)
      (hq : L.taskQueue = .create fd :: rest)
      (ht : s.system.step (.register ℓ fd stream) = some t) :
      Step s (.runItem ℓ stream alive) (s.update t ℓ { L with taskQueue := rest })
  | callback {ℓ : Nat} {stream : Bytes} {alive : Bool} {L : LoopThread} {i : Nat} {cb : Callback}
      {rest : List Item} {t : System} (hL : s.loops[ℓ]? = some L)
      (hq : L.taskQueue = .callback i cb :: rest)
      (ht : s.system.step (.conn i (.runCallback alive)) = some t) :
      Step s (.runItem ℓ stream alive) (s.update t ℓ { L with taskQueue := rest })
  | closeAll {ℓ : Nat} {stream : Bytes} {alive : Bool} {L : LoopThread} {rest : List Item}
      (hL : s.loops[ℓ]? = some L) (hq : L.taskQueue = .closeAll :: rest) :
      Step s (.runItem ℓ stream alive) (s.update s.system ℓ
        { L with taskQueue := rest, snapshot := some (s.system.connectionsOf ℓ) })
  | barrier {ℓ : Nat} {stream : Bytes} {alive : Bool} {L : LoopThread} {rest : List Item}
      (hL : s.loops[ℓ]? = some L) (hidle : s.system.loopIdle ℓ = true)
      (hq : L.taskQueue = .barrier :: rest) :
      Step s (.runItem ℓ stream alive)
        (s.update s.system ℓ { L with taskQueue := rest, drained := true })
  | closeOne {ℓ i : Nat} {L : LoopThread} {ids : List Nat} {t : System}
      (hL : s.loops[ℓ]? = some L) (hsnap : L.snapshot = some ids)
      (ht : s.system.step (.conn i (.closeEvent .closeAll)) = some t) :
      Step s (.closeOne ℓ i) (s.update t ℓ { L with snapshot := some (ids.erase i) })
  | closeGone {ℓ i : Nat} {L : LoopThread} {ids : List Nat} {p : Peer}
      (hL : s.loops[ℓ]? = some L) (hsnap : L.snapshot = some ids)
      (hp : s.system.conns[i]? = some p) (hheld : p.world.inConnections = false) :
      Step s (.closeOne ℓ i) (s.update s.system ℓ { L with snapshot := some (ids.erase i) })
  | closeDone {ℓ : Nat} {L : LoopThread} (hL : s.loops[ℓ]? = some L)
      (hsnap : L.snapshot = some []) (hidle : s.system.loopIdle ℓ = true) :
      Step s (.closeDone ℓ) (s.update s.system ℓ { L with snapshot := none, closed := true })
  | conn {i : Nat} {a : Net.PoolMachine.Act} {p : Peer} {t : System}
      (hp : s.system.conns[i]? = some p) (hmay : s.mayStep p.loop a = true)
      (ht : s.system.step (.conn i a) = some t) : Step s (.conn i a) (s.connStep i p.loop t)
  | login {i k : Nat} {env : Env} {t : System} (ht : s.system.step (.login i k env) = some t) :
      Step s (.login i k env) { s with system := t }
  | room {sec : RoomSection} {t : System} (ht : s.system.step (.room sec) = some t) :
      Step s (.room sec) { s with system := t }
  | stopAccepting (hm : s.main = .serving) : Step s .main { s with main := .closeAll 0 }
  | askClose {k : Nat} {L : LoopThread} (hm : s.main = .closeAll k) (hL : s.loops[k]? = some L) :
      Step s .main { s with
        loops := s.loops.set k (L.post [.closeAll]), main := .closeAll (k + 1) }
  | allAsked {k : Nat} (hm : s.main = .closeAll k) :
      Step s .main { s with main := .awaitClosed 0 }
  | loopClosed {k : Nat} {L : LoopThread} (hm : s.main = .awaitClosed k)
      (hL : s.loops[k]? = some L) (hclosed : L.closed = true) :
      Step s .main { s with main := .awaitClosed (k + 1) }
  | allClosed {k : Nat} (hm : s.main = .awaitClosed k) (hk : s.loops[k]? = none) :
      Step s .main { s with main := .stopPool 0 }
  | stopPool {k : Nat} {t : System} (hm : s.main = .stopPool k)
      (ht : s.system.step (.conn k .stopPool) = some t) :
      Step s .main { s with system := t, main := .stopPool (k + 1) }
  | poolStopped {k : Nat} (hm : s.main = .stopPool k) : Step s .main { s with main := .joinPool }
  | joined (hm : s.main = .joinPool) (hdone : ∀ p ∈ s.system.conns, workersDone p.world = true) :
      Step s .main { s with main := .drain 0 }
  | askDrain {k : Nat} {L : LoopThread} (hm : s.main = .drain k) (hL : s.loops[k]? = some L) :
      Step s .main { s with loops := s.loops.set k (L.post [.barrier]), main := .drain (k + 1) }
  | allDraining {k : Nat} (hm : s.main = .drain k) : Step s .main { s with main := .awaitDrained 0 }
  | loopDrained {k : Nat} {L : LoopThread} (hm : s.main = .awaitDrained k)
      (hL : s.loops[k]? = some L) (hdrained : L.drained = true) :
      Step s .main { s with main := .awaitDrained (k + 1) }
  | allDrained {k : Nat} (hm : s.main = .awaitDrained k) (hk : s.loops[k]? = none) :
      Step s .main { s with main := .stopLoops 0 }
  | stopLoop {k : Nat} {L : LoopThread} (hm : s.main = .stopLoops k) (hL : s.loops[k]? = some L) :
      Step s .main { s with
        loops := s.loops.set k { L with stop := true }, main := .stopLoops (k + 1) }
  | loopsStopped {k : Nat} (hm : s.main = .stopLoops k) :
      Step s .main { s with main := .joinLoops 0 }
  | loopJoined {k : Nat} (hm : s.main = .joinLoops k) :
      Step s .main { s with main := .joinLoops (k + 1) }
  | returned {k : Nat} (hm : s.main = .joinLoops k) : Step s .main { s with main := .returned }
  | exit {ℓ : Nat} {L : LoopThread} (hL : s.loops[ℓ]? = some L) :
      Step s (.exit ℓ) (s.update s.system ℓ { L with finished := true })

private theorem runItem_cases {s s' : Shutdown} {ℓ : Nat} {L : LoopThread} {stream : Bytes}
    {alive : Bool} (hL : s.loops[ℓ]? = some L) (hrest : s.atRest ℓ = true)
    (h : s.runItem ℓ L stream alive = some s') : Step s (.runItem ℓ stream alive) s' := by
  unfold runItem at h
  split at h
  next => cases h
  next fd rest hq =>
    obtain ⟨t, ht, rfl⟩ := Option.map_eq_some_iff.mp h
    exact .create hL hq ht
  next i cb rest hq =>
    obtain ⟨t, ht, rfl⟩ := Option.map_eq_some_iff.mp h
    exact .callback hL hq ht
  next rest hq =>
    cases h
    exact .closeAll hL hq
  next rest hq =>
    cases h
    exact .barrier hL (Bool.and_eq_true_iff.mp hrest).2 hq

private theorem closeOne_cases {s s' : Shutdown} {ℓ i : Nat} {L : LoopThread} {ids : List Nat}
    (hL : s.loops[ℓ]? = some L) (hsnap : L.snapshot = some ids)
    (h : s.closeOne ℓ L ids i = some s') : Step s (.closeOne ℓ i) s' := by
  unfold closeOne at h
  split at h
  next => cases h
  next p hp =>
    dsimp only at h
    split_ifs at h with hheld
    · obtain ⟨t, ht, rfl⟩ := Option.map_eq_some_iff.mp h
      exact .closeOne hL hsnap ht
    · cases h
      exact .closeGone hL hsnap hp (Bool.eq_false_iff.mpr hheld)

private theorem mainStep_cases {s s' : Shutdown} (h : s.mainStep = some s') : Step s .main s' := by
  unfold mainStep at h
  split at h
  next hm => cases h; exact .stopAccepting hm
  next k hm =>
    split at h
    next L hL => cases h; exact .askClose hm hL
    next => cases h; exact .allAsked hm
  next k hm =>
    split at h
    next L hL => split_ifs at h with hclosed; cases h; exact .loopClosed hm hL hclosed
    next hk => cases h; exact .allClosed hm hk
  next k hm =>
    split at h
    next => obtain ⟨t, ht, rfl⟩ := Option.map_eq_some_iff.mp h; exact .stopPool hm ht
    next => cases h; exact .poolStopped hm
  next hm => split_ifs at h with hdone; cases h; exact .joined hm (List.all_eq_true.mp hdone)
  next k hm =>
    split at h
    next L hL => cases h; exact .askDrain hm hL
    next => cases h; exact .allDraining hm
  next k hm =>
    split at h
    next L hL => split_ifs at h with hdrained; cases h; exact .loopDrained hm hL hdrained
    next hk => cases h; exact .allDrained hm hk
  next k hm =>
    split at h
    next L hL => cases h; exact .stopLoop hm hL
    next => cases h; exact .loopsStopped hm
  next k hm =>
    split at h
    next L hL => split_ifs at h with hfinished; cases h; exact .loopJoined hm
    next => cases h; exact .returned hm
  next => cases h

theorem step_cases {s s' : Shutdown} {a : Act} (h : s.step a = some s') : Step s a s' := by
  cases a with
  | accept ℓ fd =>
    simp only [step] at h
    split at h
    · cases h
    · rename_i L hL
      split_ifs at h with hm
      obtain ⟨t, ht, rfl⟩ := Option.map_eq_some_iff.mp h
      exact .accept hL hm ht
  | runItem ℓ stream alive =>
    simp only [step] at h
    split at h
    · cases h
    · rename_i L hL
      split_ifs at h with hrest
      exact runItem_cases hL hrest h
  | closeOne ℓ i =>
    simp only [step] at h
    split at h
    · cases h
    · rename_i L hL
      split at h
      · cases h
      · rename_i ids hsnap
        split_ifs at h with hmem
        exact closeOne_cases hL hsnap h
  | closeDone ℓ =>
    simp only [step] at h
    split at h
    · cases h
    · rename_i L hL
      split_ifs at h with hdone
      cases h
      exact .closeDone hL hdone.1 hdone.2
  | conn i a =>
    simp only [step] at h
    split at h
    · cases h
    · rename_i p hp
      split_ifs at h with hmay
      obtain ⟨t, ht, rfl⟩ := Option.map_eq_some_iff.mp h
      exact .conn hp hmay ht
  | login i k env =>
    obtain ⟨t, ht, rfl⟩ := Option.map_eq_some_iff.mp h
    exact .login ht
  | room sec =>
    simp only [step] at h
    obtain ⟨t, ht, rfl⟩ := Option.map_eq_some_iff.mp h
    exact .room ht
  | main => exact mainStep_cases h
  | exit ℓ =>
    simp only [step] at h
    split at h
    · cases h
    · rename_i L hL
      split_ifs at h
      cases h
      exact .exit hL

end Shutdown

end EchoNet.Server
