import EchoNet.Gateway.Machine

/-!
# The Monitor Thread and the Main Loop

`World` lets the tables of backends change at any time.  Here the changes are made by the
threads of src/src/gateway_main.cpp that make them: the main thread connects the first backends,
then `monitor_thread` takes snapshots of the registry, drops, unregisters and closes what is not
in them, and connects what is new, while the main loop runs the callbacks that the monitor
posts, one at a time, and the handlers of the backends' messages.

- An instance of the registry is its address.
- The connection object of a posted addition exists from `m_connect` on; its channel is
  registered when the main loop runs the addition.
- An outbound connection is not in `connections_`, so its descriptor is closed by the destructor
  only; an accepted one's is closed by `finishClose`, which waits for a running handler.

## Main result

`Supervised.refines`: the gateway's part of a run is a run of the gateway.
-/

namespace EchoNet.Gateway

open EchoNet.Lib EchoNet.Protocol

/-! ## §1 States -/

/-- The program counter of the main thread up to `server.start()`, then of `monitor_thread`. -/
inductive MonitorPc where
  /-- the main thread connects the first backends, and no other thread runs -/
  | starting
  /-- in `wait_for` -/
  | waiting
  /-- with a snapshot, before `backends_mutex` -/
  | removing (instances : List String)
  /-- before the next entry of `to_remove` -/
  | unregistering (instances : List String)
  /-- the descriptor is erased: before `conn->close()` -/
  | closing (c : ConnId) (instances : List String)
  /-- before `has_addr` for the next instance -/
  | checking (instances : List String)
  /-- before `m_connect` -/
  | connecting (addr : String) (instances : List String)
  deriving DecidableEq, Repr

/-- A callback in `task_queue_` of the main loop: `Connection::close`, or an addition. -/
inductive Posted where
  | close (c : ConnId)
  | add
  deriving DecidableEq, Repr

/-- Why the main loop calls `handleClose`: the peer's EOF, or a socket error, a bad frame or an
overflow. -/
inductive CloseCause where
  | eof
  | failure
  deriving DecidableEq, Repr

/-- `posted` says in which order the additions of `gateway.adding` come among the closes;
`toRemove` holds its connections to the end of the pass; the peers of `eof` have closed, and
`handleClose` has run for the connections of `disconnected`. -/
structure Supervised where
  gateway : World
  monitor : MonitorPc
  toRemove : List ConnId
  posted : List Posted
  eof : List ConnId
  disconnected : List ConnId

namespace MonitorPc

def started : MonitorPc → Bool
  | starting => false
  | _ => true

/-- The connection that is unregistered and not yet told to close. -/
def unregistered : MonitorPc → List ConnId
  | closing c _ => [c]
  | _ => []

end MonitorPc

/-- The backend a handler holds a reference to. -/
def Handler.backend (h : Handler) : Option ConnId :=
  match h.pc with
  | .allocate backend | .record backend _ _ | .forward backend _ => some backend
  | .start | .backendResponse | .respond _ | .clientRequest => none

namespace World

def isOpen (w : World) (c : ConnId) : Bool := (w.conns[c]?.map Conn.isOpen).getD false

/-- `has_addr`. -/
def hasAddr (w : World) (addr : String) : Bool := w.backends.any fun e => e.addr = addr

end World

/-! ## §2 Steps -/

namespace Supervised

def init : Supervised where
  gateway := .init
  monitor := .starting
  toRemove := []
  posted := []
  eof := []
  disconnected := []

inductive Act where
  /-- the main thread connects to a backend of the first snapshot, and goes on to serve -/
  | startBackend (addr : String) (fd : Int)
  | serve
  /-- the monitor thread: `GetSnapshot`, the critical section, the loop over `to_remove`, the
  loop over the instances -/
  | snapshot (instances : List String)
  | remove
  | unregister
  | close
  | check
  | connect (fd : Int)
  | connectFailed
  /-- the main loop: the next posted callback, the second half of an addition -/
  | runPosted
  | insertFd
  | peerClose (c : ConnId)
  | handleClose (c : ConnId) (cause : CloseCause)
  /-- the clients, the handlers, the cleanup and the health thread -/
  | gateway (a : Gateway.Act)
  deriving DecidableEq, Repr

/-- The main loop is not in a callback: neither in an addition nor in the handler of a
backend's message. -/
def mainIdle (s : Supervised) : Bool :=
  s.gateway.inserting.isEmpty && s.gateway.handlers.all fun h => !s.gateway.outbound h.conn

/-- The channel of an outbound connection is in `channels_`. -/
def registered (s : Supervised) (c : ConnId) : Bool :=
  s.gateway.outbound c && s.gateway.alive c && s.gateway.adding.all (fun e => e.2 ≠ c) &&
    !s.disconnected.contains c

/-- `Connection::handleClose` of an outbound connection, under `weak_ptr::lock`. -/
def disconnect (s : Supervised) (c : ConnId) : Supervised :=
  if s.gateway.alive c && !s.disconnected.contains c then
    { s with disconnected := c :: s.disconnected }
  else s

/-- What the other threads may do. -/
def allows (s : Supervised) : Gateway.Act → Bool
  | .accept _ => s.mainIdle
  | .closeFd c =>
    !s.gateway.outbound c && s.gateway.isOpen c && s.gateway.handlers.all fun h => h.conn ≠ c
  | .destroy c =>
    s.gateway.alive c &&
      if s.gateway.outbound c then
        !s.toRemove.contains c && s.gateway.handlers.all fun h => h.backend ≠ some c
      else !s.gateway.isOpen c
  | .receive c _ =>
    s.gateway.isOpen c && s.gateway.handlers.all (fun h => h.conn ≠ c) &&
      (!s.gateway.outbound c || s.mainIdle && s.registered c)
  | .handler _ | .healthPass | .cleanupBegin | .cleanupCollect | .cleanupSend _ | .tick _ => true
  | .connect _ _ | .addBackend | .insertFd | .removeBackends _ | .eraseFd => false

def step (s : Supervised) : Act → Option Supervised
  | .startBackend addr fd =>
    match s.monitor with
    | .starting =>
      -- nothing else runs yet, so the three steps are one
      (run World.step s.gateway [.connect addr fd, .addBackend, .insertFd]).map fun w =>
        { s with gateway := w }
    | _ => none
  | .serve =>
    match s.monitor with
    | .starting => some { s with monitor := .waiting }
    | _ => none
  | .snapshot instances =>
    match s.monitor with
    | .waiting => some { s with monitor := .removing instances }
    | _ => none
  | .remove =>
    match s.monitor with
    | .removing instances =>
      (s.gateway.step (.removeBackends instances)).map fun w =>
        { s with gateway := w, monitor := .unregistering instances, toRemove := w.removing }
    | _ => none
  | .unregister =>
    match s.monitor with
    | .unregistering instances =>
      match s.gateway.removing with
      -- end of the loop over `to_remove`
      | [] => some { s with monitor := .checking instances }
      | c :: _ =>
        (s.gateway.step .eraseFd).map fun w =>
          { s with gateway := w, monitor := .closing c instances }
    | _ => none
  | .close =>
    match s.monitor with
    | .closing c instances =>
      some { s with monitor := .unregistering instances, posted := s.posted ++ [.close c] }
    | _ => none
  | .check =>
    match s.monitor with
    -- the pass is over and its copies of the connections go out of scope
    | .checking [] => some { s with monitor := .waiting, toRemove := [] }
    | .checking (addr :: instances) =>
      if s.gateway.hasAddr addr then some { s with monitor := .checking instances }
      else some { s with monitor := .connecting addr instances }
    | _ => none
  | .connect fd =>
    match s.monitor with
    | .connecting addr instances =>
      (s.gateway.step (.connect addr fd)).map fun w =>
        { s with gateway := w, monitor := .checking instances, posted := s.posted ++ [.add] }
    | _ => none
  | .connectFailed =>
    match s.monitor with
    | .connecting _ instances => some { s with monitor := .checking instances }
    | _ => none
  | .runPosted =>
    if s.mainIdle then
      match s.posted with
      | [] => none
      -- a close that was posted twice, or after the peer's EOF, finds `Closing` and returns
      | .close c :: rest => some { s.disconnect c with posted := rest }
      | .add :: rest =>
        (s.gateway.step .addBackend).map fun w => { s with gateway := w, posted := rest }
    else none
  | .insertFd => (s.gateway.step .insertFd).map fun w => { s with gateway := w }
  | .peerClose c =>
    if s.gateway.outbound c && s.gateway.alive c then some { s with eof := c :: s.eof } else none
  | .handleClose c cause =>
    if s.monitor.started && s.mainIdle && s.registered c && (cause ≠ .eof || s.eof.contains c) then
      some (s.disconnect c)
    else none
  | .gateway a =>
    if s.monitor.started && s.allows a then
      (s.gateway.step a).map fun w => { s with gateway := w }
    else none

/-! ## §3 Everything a step can do -/

/-- The steps, with their guards. -/
inductive Step (s : Supervised) : Act → Supervised → Prop
  | startBackend {addr : String} {fd : Int} {w : World} : s.monitor = .starting →
      run World.step s.gateway [.connect addr fd, .addBackend, .insertFd] = some w →
      Step s (.startBackend addr fd) { s with gateway := w }
  | serve : s.monitor = .starting → Step s .serve { s with monitor := .waiting }
  | snapshot {instances : List String} : s.monitor = .waiting →
      Step s (.snapshot instances) { s with monitor := .removing instances }
  | remove {instances : List String} {w : World} : s.monitor = .removing instances →
      s.gateway.step (.removeBackends instances) = some w →
      Step s .remove
        { s with gateway := w, monitor := .unregistering instances, toRemove := w.removing }
  | unregister {c : ConnId} {instances : List String} {rest : List ConnId} {w : World} :
      s.monitor = .unregistering instances → s.gateway.removing = c :: rest →
      s.gateway.step .eraseFd = some w →
      Step s .unregister { s with gateway := w, monitor := .closing c instances }
  | unregistered {instances : List String} : s.monitor = .unregistering instances →
      s.gateway.removing = [] → Step s .unregister { s with monitor := .checking instances }
  | close {c : ConnId} {instances : List String} : s.monitor = .closing c instances →
      Step s .close
        { s with monitor := .unregistering instances, posted := s.posted ++ [.close c] }
  | passed : s.monitor = .checking [] →
      Step s .check { s with monitor := .waiting, toRemove := [] }
  | known {addr : String} {instances : List String} : s.monitor = .checking (addr :: instances) →
      s.gateway.hasAddr addr = true → Step s .check { s with monitor := .checking instances }
  | unknown {addr : String} {instances : List String} : s.monitor = .checking (addr :: instances) →
      s.gateway.hasAddr addr = false →
      Step s .check { s with monitor := .connecting addr instances }
  | connect {addr : String} {instances : List String} {fd : Int} {w : World} :
      s.monitor = .connecting addr instances → s.gateway.step (.connect addr fd) = some w →
      Step s (.connect fd)
        { s with gateway := w, monitor := .checking instances, posted := s.posted ++ [.add] }
  | connectFailed {addr : String} {instances : List String} :
      s.monitor = .connecting addr instances →
      Step s .connectFailed { s with monitor := .checking instances }
  | runClose {c : ConnId} {rest : List Posted} : s.mainIdle = true → s.posted = .close c :: rest →
      Step s .runPosted { s.disconnect c with posted := rest }
  | runAdd {rest : List Posted} {w : World} : s.mainIdle = true → s.posted = .add :: rest →
      s.gateway.step .addBackend = some w →
      Step s .runPosted { s with gateway := w, posted := rest }
  | insertFd {w : World} : s.gateway.step .insertFd = some w →
      Step s .insertFd { s with gateway := w }
  | peerClose {c : ConnId} : s.gateway.outbound c = true →
      Step s (.peerClose c) { s with eof := c :: s.eof }
  | handleClose {c : ConnId} {cause : CloseCause} : s.registered c = true →
      Step s (.handleClose c cause) (s.disconnect c)
  | gateway {a : Gateway.Act} {w : World} : s.monitor.started = true → s.allows a = true →
      s.gateway.step a = some w → Step s (.gateway a) { s with gateway := w }

/-- Inversion of `step`. -/
theorem step_cases {s t : Supervised} {a : Act} (h : s.step a = some t) : Step s a t := by
  cases a with
  | startBackend addr fd =>
    simp only [step] at h
    split at h
    · obtain ⟨w, hw, rfl⟩ := Option.map_eq_some_iff.mp h
      exact .startBackend ‹_› hw
    · cases h
  | serve =>
    simp only [step] at h
    split at h <;> cases h
    exact .serve ‹_›
  | snapshot instances =>
    simp only [step] at h
    split at h <;> cases h
    exact .snapshot ‹_›
  | remove =>
    simp only [step] at h
    split at h
    · obtain ⟨w, hw, rfl⟩ := Option.map_eq_some_iff.mp h
      exact .remove ‹_› hw
    · cases h
  | unregister =>
    simp only [step] at h
    split at h
    · split at h
      · cases h
        exact .unregistered ‹_› ‹_›
      · obtain ⟨w, hw, rfl⟩ := Option.map_eq_some_iff.mp h
        exact .unregister ‹_› ‹_› hw
    · cases h
  | close =>
    simp only [step] at h
    split at h <;> cases h
    exact .close ‹_›
  | check =>
    simp only [step] at h
    split at h
    · cases h
      exact .passed ‹_›
    · split_ifs at h with hknown
      · cases h
        exact .known ‹_› hknown
      · cases h
        exact .unknown ‹_› (by simpa using hknown)
    · cases h
  | connect fd =>
    simp only [step] at h
    split at h
    · obtain ⟨w, hw, rfl⟩ := Option.map_eq_some_iff.mp h
      exact .connect ‹_› hw
    · cases h
  | connectFailed =>
    simp only [step] at h
    split at h <;> cases h
    exact .connectFailed ‹_›
  | runPosted =>
    simp only [step] at h
    split_ifs at h with hidle
    split at h
    · cases h
    · cases h
      exact .runClose hidle ‹_›
    · obtain ⟨w, hw, rfl⟩ := Option.map_eq_some_iff.mp h
      exact .runAdd hidle ‹_› hw
  | insertFd =>
    obtain ⟨w, hw, rfl⟩ := Option.map_eq_some_iff.mp h
    exact .insertFd hw
  | peerClose c =>
    simp only [step] at h
    split_ifs at h with hc
    cases h
    exact .peerClose (by simp_all)
  | handleClose c cause =>
    simp only [step] at h
    split_ifs at h with hc
    cases h
    exact .handleClose (by simp_all)
  | gateway a =>
    simp only [step] at h
    split_ifs at h with ha
    obtain ⟨w, hw, rfl⟩ := Option.map_eq_some_iff.mp h
    rw [Bool.and_eq_true] at ha
    exact .gateway ha.1 ha.2 hw

@[simp] theorem disconnect_gateway (s : Supervised) (c : ConnId) :
    (s.disconnect c).gateway = s.gateway := by
  unfold disconnect
  split_ifs <;> rfl

@[simp] theorem disconnect_monitor (s : Supervised) (c : ConnId) :
    (s.disconnect c).monitor = s.monitor := by
  unfold disconnect
  split_ifs <;> rfl

@[simp] theorem disconnect_posted (s : Supervised) (c : ConnId) :
    (s.disconnect c).posted = s.posted := by
  unfold disconnect
  split_ifs <;> rfl

theorem mem_disconnect {s : Supervised} {c c' : ConnId} (h : c' ∈ (s.disconnect c).disconnected) :
    c' = c ∧ s.gateway.alive c = true ∨ c' ∈ s.disconnected := by
  unfold disconnect at h
  split_ifs at h with hc
  · rcases List.mem_cons.mp h with rfl | h
    · exact Or.inl ⟨rfl, (Bool.and_eq_true_iff.mp hc).1⟩
    · exact Or.inr h
  · exact Or.inr h

/-- The gateway's part of a step is a run of the gateway. -/
theorem refines_step {s t : Supervised} {a : Act} (h : s.step a = some t) :
    ∃ acts, run World.step s.gateway acts = some t.gateway := by
  have hnone : t.gateway = s.gateway → ∃ acts, run World.step s.gateway acts = some t.gateway :=
    fun heq => ⟨[], by rw [heq]; rfl⟩
  -- one step of the gateway, or none
  have hone : ∀ {b w}, s.gateway.step b = some w → ∃ acts, run World.step s.gateway acts = some w :=
    fun {b w} hb => ⟨[b], run_cons_eq_some.mpr ⟨w, hb, rfl⟩⟩
  cases step_cases h with
  -- the main thread connects, appends and inserts in one go
  | startBackend _ hw => exact ⟨_, hw⟩
  | remove _ hw => exact hone hw
  | unregister _ _ hw => exact hone hw
  | connect _ hw => exact hone hw
  | runAdd _ _ hw => exact hone hw
  | insertFd hw => exact hone hw
  | gateway _ _ hw => exact hone hw
  | runClose _ _ => exact hnone (disconnect_gateway ..)
  | handleClose _ => exact hnone (disconnect_gateway ..)
  | _ => exact hnone rfl

/-- **Refinement**: what holds along every run of the gateway holds of the gateway here. -/
theorem refines {acts : List Act} {s : Supervised} (hrun : run step init acts = some s) :
    ∃ gacts, run World.step .init gacts = some s.gateway := by
  refine run_invariant (P := fun s => ∃ gacts, run World.step .init gacts = some s.gateway)
    (fun s a t hs h => ?_) ⟨[], rfl⟩ hrun
  obtain ⟨before, hbefore⟩ := hs
  obtain ⟨more, hmore⟩ := refines_step h
  exact ⟨before ++ more, run_append.mpr ⟨_, hbefore, hmore⟩⟩

end Supervised

end EchoNet.Gateway
