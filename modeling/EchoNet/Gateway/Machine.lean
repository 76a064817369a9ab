import EchoNet.Lib.Machine
import EchoNet.Protocol.MyProtocol
import Mathlib.Data.List.AList
import Mathlib.Tactic.Cases
import Mathlib.Tactic.SplitIfs

/-!
# The Gateway

`GatewayState` of src/src/gateway_main.cpp and the threads that work on it: the business
handlers (on workers for clients, on the main loop for backends), the cleanup thread, the
health thread and the monitor thread, interleaved at the granularity of the three mutexes
and the atomics.

- A connection object is its index in `conns`; `fd` is the number in its channel, `alive`
  says whether `weak_ptr::lock` still finds it, and `isOpen` whether the kernel still has the
  descriptor.
- A running business handler is a `Handler` with a program counter.
- Time is in nanoseconds of `steady_clock`.
- `Log` is history: no branch of the program reads it.  The field `request` of a pending
  entry is history too; it says which of the logged requests the entry belongs to.
-/

namespace EchoNet.Gateway

open EchoNet.Lib EchoNet.Protocol

/-! ## §1 States -/

abbrev ConnId := Nat

structure Conn where
  fd : Int
  outbound : Bool
  alive : Bool
  isOpen : Bool
  deriving DecidableEq, Repr

/-- `PendingRequest`. -/
structure PendingRequest where
  clientConn : ConnId
  originalId : UInt32
  createdAt : Nat
  request : Nat
  deriving DecidableEq, Repr

abbrev PendingMap := AList fun _ : UInt32 => PendingRequest

/-- `GatewayState::BackendEntry`. -/
structure BackendEntry where
  addr : String
  conn : ConnId
  lastPongMs : Nat
  healthy : Bool
  requestCount : Nat
  deriving DecidableEq, Repr

/-- `GatewayState::Metrics`. -/
structure Metrics where
  totalRequests : Nat
  forwarded : Nat
  noBackend : Nat
  backendResponses : Nat
  pendingTimeouts : Nat
  unknownResponses : Nat
  droppedClientGone : Nat
  deriving DecidableEq, Repr

/-- The program counter of `business_handler`. -/
inductive HandlerPc where
  /-- before `backend_fds_mutex` -/
  | start
  /-- `is_backend`: before the heartbeat branch or the lookup in `pending` -/
  | backendResponse
  /-- found: before `client_conn.lock()` and `sendResponse` -/
  | respond (req : PendingRequest)
  /-- not `is_backend`: before `pick_backend` -/
  | clientRequest
  /-- before `next_new_id++` -/
  | allocate (backend : ConnId)
  /-- before `pending_mutex` -/
  | record (backend : ConnId) (newId : UInt32) (request : Nat)
  /-- before `backend->sendResponse` -/
  | forward (backend : ConnId) (newId : UInt32)
  deriving DecidableEq, Repr

structure Handler where
  conn : ConnId
  msg : MyMessage
  pc : HandlerPc
  deriving DecidableEq, Repr

/-- A client to be told `TIMEOUT`: what `cleanup_thread` collects. -/
structure Timeout where
  client : ConnId
  originalId : UInt32
  request : Nat
  deriving DecidableEq, Repr

/-- A request that a handler has taken to forward. -/
structure Request where
  client : ConnId
  message : MyMessage
  key : UInt32
  deriving DecidableEq, Repr

/-- A message passed to a client's `sendResponse`: which request it answers, and the backend
message it was made from, if it is not a timeout. -/
structure Delivery where
  client : ConnId
  message : MyMessage
  request : Nat
  answer : Option MyMessage
  deriving DecidableEq, Repr

/-- A message that a backend sent under the id of a pending request of a live client. -/
structure Answered where
  request : Nat
  client : ConnId
  originalId : UInt32
  message : MyMessage
  deriving DecidableEq, Repr

structure Log where
  requests : List Request
  toBackends : List (ConnId × MyMessage)
  deliveries : List Delivery
  answered : List Answered
  /-- the requests that were answered, in this order, with the connections of the answers -/
  sources : List (Nat × ConnId)
  deriving DecidableEq, Repr

/-- `GatewayState` and the threads. -/
structure World where
  conns : List Conn
  backends : List BackendEntry
  backendFds : List Int
  pending : PendingMap
  nextNewId : UInt32
  rrIndex : UInt64
  metrics : Metrics
  clock : Nat
  handlers : List Handler
  cleanupNow : Option Nat
  timeouts : List Timeout
  /-- posted by the monitor, to be added by the main loop -/
  adding : List (String × ConnId)
  /-- in `backends`, the descriptor not yet in `backend_fds` -/
  inserting : List ConnId
  /-- erased from `backends` by the monitor, the descriptor still in `backend_fds` -/
  removing : List ConnId
  log : Log

/-- The state right after construction. -/
def World.init : World where
  conns := []
  backends := []
  backendFds := []
  pending := ∅
  nextNewId := 1
  rrIndex := 0
  metrics := ⟨0, 0, 0, 0, 0, 0, 0⟩
  clock := 0
  handlers := []
  cleanupNow := none
  timeouts := []
  adding := []
  inserting := []
  removing := []
  log := ⟨[], [], [], [], []⟩

/-! ## §2 The operations of the state -/

/-- The `for` loop of `pick_backend`: `tries` more slots to probe. -/
def pickLoop (backends : List BackendEntry) (rr : UInt64) : Nat → UInt64 × Option Nat
  | 0 => (rr, none)
  | tries + 1 =>
    let idx := rr.toNat % backends.length
    if (backends[idx]?.map BackendEntry.healthy).getD false then (rr + 1, some idx)
    else pickLoop backends (rr + 1) tries

/-- The error response of `cleanup_thread`: `"TIMEOUT"`. -/
def timeoutMessage (originalId : UInt32) : MyMessage :=
  ⟨.errorResp, originalId, [0x54, 0x49, 0x4D, 0x45, 0x4F, 0x55, 0x54]⟩

/-- `elapsed > 30`, with `duration_cast<seconds>`. -/
def expired (now : Nat) (req : PendingRequest) : Bool :=
  30 < (now - req.createdAt) / 1000000000

/-- One entry of the health thread's pass: 15 seconds without a pong. -/
def BackendEntry.check (nowMs : Nat) (e : BackendEntry) : BackendEntry :=
  if e.lastPongMs = 0 then e
  else if 15000 < nowMs - e.lastPongMs then { e with healthy := false }
  else { e with healthy := true }

namespace World

def alive (w : World) (c : ConnId) : Bool := (w.conns[c]?.map Conn.alive).getD false

def outbound (w : World) (c : ConnId) : Bool := (w.conns[c]?.map Conn.outbound).getD false

def fd (w : World) (c : ConnId) : Option Int := w.conns[c]?.map Conn.fd

def isBackendFd (w : World) (c : ConnId) : Bool :=
  (w.fd c).any fun fd => w.backendFds.contains fd

/-- `pick_backend`. -/
def pickBackend (w : World) : World × Option ConnId :=
  if w.backends.isEmpty then (w, none)
  else
    match pickLoop w.backends w.rrIndex w.backends.length with
    | (rr, none) => ({ w with rrIndex := rr }, none)
    | (rr, some idx) =>
      ({ w with
          rrIndex := rr
          backends := w.backends.modify idx fun e => { e with requestCount := e.requestCount + 1 } },
        w.backends[idx]?.map BackendEntry.conn)

/-- A `HEARTBEAT_RESP` on the connection: the first entry with its descriptor is alive. -/
def pong (w : World) (c : ConnId) : World :=
  let idx := w.backends.findIdx fun e => w.fd e.conn = w.fd c
  { w with backends := w.backends.modify idx fun e =>
      { e with lastPongMs := w.clock / 1000000, healthy := true } }

/-- History: what the backend behind connection `h.conn` has answered. -/
def noteAnswer (w : World) (h : Handler) : Log :=
  match w.pending.lookup h.msg.id with
  | some req =>
    if w.outbound h.conn && w.alive req.clientConn then
      { w.log with answered := w.log.answered ++
          [⟨req.request, req.clientConn, req.originalId, h.msg⟩] }
    else w.log
  | none => w.log

@[simp] theorem noteAnswer_requests (w : World) (h : Handler) :
    (w.noteAnswer h).requests = w.log.requests := by
  unfold noteAnswer
  split
  · split_ifs <;> rfl
  · rfl

@[simp] theorem noteAnswer_deliveries (w : World) (h : Handler) :
    (w.noteAnswer h).deliveries = w.log.deliveries := by
  unfold noteAnswer
  split
  · split_ifs <;> rfl
  · rfl

@[simp] theorem noteAnswer_sources (w : World) (h : Handler) :
    (w.noteAnswer h).sources = w.log.sources := by
  unfold noteAnswer
  split
  · split_ifs <;> rfl
  · rfl

/-! ## §3 The threads -/

/-- The handler at index `i` goes on to `pc`, or returns. -/
def goto (w : World) (i : Nat) (h : Handler) (pc : HandlerPc) : World :=
  { w with handlers := w.handlers.set i { h with pc := pc } }

def finish (w : World) (i : Nat) : World := { w with handlers := w.handlers.eraseIdx i }

@[simp] theorem goto_log (w : World) (i : Nat) (h : Handler) (pc : HandlerPc) :
    (w.goto i h pc).log = w.log := rfl

@[simp] theorem finish_log (w : World) (i : Nat) : (w.finish i).log = w.log := rfl

/-- One step of `business_handler`. -/
def handlerStep (w : World) (i : Nat) (h : Handler) : World :=
  match h.pc with
  | .start =>
    if w.isBackendFd h.conn then w.goto i h .backendResponse
    else { w.goto i h .clientRequest with log := w.noteAnswer h }
  | .backendResponse =>
    if h.msg.type = .heartbeatResp then { (w.pong h.conn).finish i with log := w.noteAnswer h }
    else
      match w.pending.lookup h.msg.id with
      | some req =>
        { w.goto i h (.respond req) with
          pending := w.pending.erase h.msg.id, log := w.noteAnswer h }
      | none =>
        { w.finish i with
          metrics := { w.metrics with unknownResponses := w.metrics.unknownResponses + 1 } }
  | .respond req =>
    if w.alive req.clientConn then
      { w.finish i with
        metrics := { w.metrics with backendResponses := w.metrics.backendResponses + 1 }
        log := { w.log with
          deliveries := w.log.deliveries ++
            [⟨req.clientConn, { h.msg with id := req.originalId }, req.request, some h.msg⟩]
          sources := w.log.sources ++ [(req.request, h.conn)] } }
    else
      { w.finish i with
        metrics := { w.metrics with droppedClientGone := w.metrics.droppedClientGone + 1 } }
  | .clientRequest =>
    match w.pickBackend with
    | (w, some backend) => w.goto i h (.allocate backend)
    | (w, none) =>
      { w.finish i with metrics := { w.metrics with noBackend := w.metrics.noBackend + 1 } }
  | .allocate backend =>
    { w.goto i h (.record backend w.nextNewId w.log.requests.length) with
      nextNewId := w.nextNewId + 1
      log := { w.log with requests := w.log.requests ++ [⟨h.conn, h.msg, w.nextNewId⟩] } }
  | .record backend newId request =>
    { w.goto i h (.forward backend newId) with
      pending := w.pending.insert newId ⟨h.conn, h.msg.id, w.clock, request⟩ }
  | .forward backend newId =>
    { w.finish i with
      metrics := { w.metrics with
        totalRequests := w.metrics.totalRequests + 1, forwarded := w.metrics.forwarded + 1 }
      log := { w.log with
        toBackends := w.log.toBackends ++ [(backend, { h.msg with id := newId })] } }

/-- The entries of `pending` that are older than 30 seconds. -/
def expiredEntries (w : World) (now : Nat) : List (Σ _ : UInt32, PendingRequest) :=
  w.pending.entries.filter fun e => expired now e.2

/-- The critical section of `cleanup_thread`. -/
def collect (w : World) (now : Nat) : World :=
  let old := w.expiredEntries now
  { w with
    pending := old.foldl (fun m e => m.erase e.1) w.pending
    timeouts := (old.filter fun e => w.alive e.2.clientConn).map fun e =>
      ⟨e.2.clientConn, e.2.originalId, e.2.request⟩
    cleanupNow := none }

/-- One collected client is told; the order is that of the hash table. -/
def tellTimeout (w : World) (i : Nat) (t : Timeout) : World :=
  { w with
    timeouts := w.timeouts.eraseIdx i
    metrics := { w.metrics with pendingTimeouts := w.metrics.pendingTimeouts + 1 }
    log := { w.log with deliveries := w.log.deliveries ++
      [⟨t.client, timeoutMessage t.originalId, t.request, none⟩] } }

/-- A thread or a table holds a `shared_ptr` to the connection. -/
def held (w : World) (c : ConnId) : Bool :=
  w.handlers.any (fun h => h.conn = c) || w.timeouts.any (fun t => t.client = c) ||
    w.backends.any (fun e => e.conn = c) || w.adding.any (fun e => e.2 = c) ||
    w.inserting.contains c || w.removing.contains c

end World

/-! ## §4 Steps -/

inductive Act where
  /-- the acceptor gets a client on `fd`, or the monitor a connection to a backend -/
  | accept (fd : Int)
  | connect (addr : String) (fd : Int)
  /-- the descriptor is closed; the last reference to the object goes away -/
  | closeFd (c : ConnId)
  | destroy (c : ConnId)
  /-- a complete frame arrives on a connection: its handler is started -/
  | receive (c : ConnId) (msg : MyMessage)
  | handler (i : Nat)
  /-- the main loop runs an addition posted by the monitor, in two critical sections -/
  | addBackend
  | insertFd
  /-- the monitor drops the backends that are not expected any more, then unregisters them
  one by one -/
  | removeBackends (expected : List String)
  | eraseFd
  | healthPass
  /-- the cleanup thread reads the clock, takes `pending_mutex`, and sends outside of it -/
  | cleanupBegin
  | cleanupCollect
  | cleanupSend (i : Nat)
  | tick (elapsed : Nat)
  deriving DecidableEq, Repr

namespace World

/-- A fresh connection object; the kernel hands out a number that is not open. -/
def newConn (w : World) (fd : Int) (outbound : Bool) : Option World :=
  if w.conns.any (fun c => c.isOpen && c.fd = fd) then none
  else some { w with conns := w.conns ++ [⟨fd, outbound, true, true⟩] }

def step (w : World) : Act → Option World
  | .accept fd => w.newConn fd false
  | .connect addr fd =>
    (w.newConn fd true).map fun w' => { w' with adding := w.adding ++ [(addr, w.conns.length)] }
  | .closeFd c => some { w with conns := w.conns.modify c fun s => { s with isOpen := false } }
  | .destroy c =>
    if w.held c then none
    else some { w with conns := w.conns.modify c fun s => { s with alive := false, isOpen := false } }
  | .receive c msg =>
    if w.alive c then some { w with handlers := w.handlers ++ [⟨c, msg, .start⟩] } else none
  | .handler i => w.handlers[i]?.map (w.handlerStep i)
  | .addBackend =>
    match w.adding with
    | [] => none
    | (addr, c) :: rest =>
      some { w with
        adding := rest, inserting := w.inserting ++ [c]
        backends := w.backends ++ [⟨addr, c, 0, true, 0⟩] }
  | .insertFd =>
    match w.inserting with
    | [] => none
    | c :: rest => some { w with
        inserting := rest, backendFds := (w.fd c).toList ++ w.backendFds }
  | .removeBackends expected =>
    some { w with
      backends := w.backends.filter fun e => expected.contains e.addr
      removing := w.removing ++
        (w.backends.filter fun e => !expected.contains e.addr).map BackendEntry.conn }
  | .eraseFd =>
    match w.removing with
    | [] => none
    | c :: rest => some { w with
        removing := rest, backendFds := w.backendFds.filter fun fd => some fd ≠ w.fd c }
  | .healthPass => some { w with backends := w.backends.map (BackendEntry.check (w.clock / 1000000)) }
  | .cleanupBegin =>
    if w.cleanupNow = none ∧ w.timeouts = [] then some { w with cleanupNow := some w.clock } else none
  | .cleanupCollect => w.cleanupNow.map w.collect
  | .cleanupSend i => w.timeouts[i]?.map (w.tellTimeout i)
  | .tick elapsed => some { w with clock := w.clock + elapsed }

/-! ## §5 Everything a step can do -/

/-- `pick_backend` changes the round robin index and a request count. -/
theorem pickBackend_frame (w : World) :
    ∃ rr bs, w.pickBackend.1 = { w with rrIndex := rr, backends := bs } := by
  unfold pickBackend
  split_ifs
  · exact ⟨_, _, rfl⟩
  · split <;> exact ⟨_, _, rfl⟩

/-- The branches of `business_handler`. -/
inductive HandlerStep (w : World) (i : Nat) (h : Handler) : World → Prop where
  | fromBackend (hpc : h.pc = .start) (hfd : w.isBackendFd h.conn = true) :
      HandlerStep w i h (w.goto i h .backendResponse)
  | fromClient (hpc : h.pc = .start) (hfd : w.isBackendFd h.conn = false) :
      HandlerStep w i h { w.goto i h .clientRequest with log := w.noteAnswer h }
  | pong (hpc : h.pc = .backendResponse) (htype : h.msg.type = .heartbeatResp) :
      HandlerStep w i h { (w.pong h.conn).finish i with log := w.noteAnswer h }
  | found (req : PendingRequest) (hpc : h.pc = .backendResponse)
      (htype : h.msg.type ≠ .heartbeatResp) (hk : w.pending.lookup h.msg.id = some req) :
      HandlerStep w i h { w.goto i h (.respond req) with
        pending := w.pending.erase h.msg.id, log := w.noteAnswer h }
  | unknown (hpc : h.pc = .backendResponse) (htype : h.msg.type ≠ .heartbeatResp)
      (hk : w.pending.lookup h.msg.id = none) :
      HandlerStep w i h { w.finish i with
        metrics := { w.metrics with unknownResponses := w.metrics.unknownResponses + 1 } }
  | delivered (req : PendingRequest) (hpc : h.pc = .respond req)
      (halive : w.alive req.clientConn = true) :
      HandlerStep w i h { w.finish i with
        metrics := { w.metrics with backendResponses := w.metrics.backendResponses + 1 }
        log := { w.log with
          deliveries := w.log.deliveries ++
            [⟨req.clientConn, { h.msg with id := req.originalId }, req.request, some h.msg⟩]
          sources := w.log.sources ++ [(req.request, h.conn)] } }
  | dropped (req : PendingRequest) (hpc : h.pc = .respond req)
      (halive : w.alive req.clientConn = false) :
      HandlerStep w i h { w.finish i with
        metrics := { w.metrics with droppedClientGone := w.metrics.droppedClientGone + 1 } }
  | picked (rr : UInt64) (bs : List BackendEntry) (backend : ConnId) (hpc : h.pc = .clientRequest)
      (hpick : w.pickBackend = ({ w with rrIndex := rr, backends := bs }, some backend)) :
      HandlerStep w i h ({ w with rrIndex := rr, backends := bs }.goto i h (.allocate backend))
  | noBackend (rr : UInt64) (bs : List BackendEntry) (hpc : h.pc = .clientRequest)
      (hpick : w.pickBackend = ({ w with rrIndex := rr, backends := bs }, none)) :
      HandlerStep w i h { { w with rrIndex := rr, backends := bs }.finish i with
        metrics := { w.metrics with noBackend := w.metrics.noBackend + 1 } }
  | allocated (backend : ConnId) (hpc : h.pc = .allocate backend) :
      HandlerStep w i h { w.goto i h (.record backend w.nextNewId w.log.requests.length) with
        nextNewId := w.nextNewId + 1
        log := { w.log with requests := w.log.requests ++ [⟨h.conn, h.msg, w.nextNewId⟩] } }
  | recorded (backend : ConnId) (newId : UInt32) (request : Nat)
      (hpc : h.pc = .record backend newId request) :
      HandlerStep w i h { w.goto i h (.forward backend newId) with
        pending := w.pending.insert newId ⟨h.conn, h.msg.id, w.clock, request⟩ }
  | forwarded (backend : ConnId) (newId : UInt32) (hpc : h.pc = .forward backend newId) :
      HandlerStep w i h { w.finish i with
        metrics := { w.metrics with
          totalRequests := w.metrics.totalRequests + 1, forwarded := w.metrics.forwarded + 1 }
        log := { w.log with
          toBackends := w.log.toBackends ++ [(backend, { h.msg with id := newId })] } }

/-- Inversion of `handlerStep`. -/
theorem handlerStep_cases (w : World) (i : Nat) (h : Handler) :
    HandlerStep w i h (w.handlerStep i h) := by
  unfold handlerStep
  cases hpc : h.pc with
  | start =>
    dsimp only
    split_ifs with hfd
    · exact .fromBackend hpc hfd
    · exact .fromClient hpc (Bool.not_eq_true _ ▸ hfd)
  | backendResponse =>
    dsimp only
    split_ifs with htype
    · exact .pong hpc htype
    · cases hk : w.pending.lookup h.msg.id with
      | some req => exact .found req hpc htype hk
      | none => exact .unknown hpc htype hk
  | respond req =>
    dsimp only
    split_ifs with halive
    · exact .delivered req hpc halive
    · exact .dropped req hpc (Bool.not_eq_true _ ▸ halive)
  | clientRequest =>
    obtain ⟨rr, bs, hframe⟩ := w.pickBackend_frame
    cases hpick : w.pickBackend with
    | mk w₁ backend =>
      obtain rfl : w₁ = { w with rrIndex := rr, backends := bs } := by rw [← hframe, hpick]
      cases backend with
      | some backend => exact .picked rr bs backend hpc hpick
      | none => exact .noBackend rr bs hpc hpick
  | allocate backend => exact .allocated backend hpc
  | record backend newId request => exact .recorded backend newId request hpc
  | forward backend newId => exact .forwarded backend newId hpc

/-- A step of the environment or of the tables of backends: nothing of the routing changes,
but for a handler that is started, and no dead connection comes back to life. -/
structure Quiet (w w' : World) : Prop where
  pending : w'.pending = w.pending
  nextNewId : w'.nextNewId = w.nextNewId
  timeouts : w'.timeouts = w.timeouts
  log : w'.log = w.log
  handlers : w'.handlers = w.handlers ∨
    ∃ c msg, w'.handlers = w.handlers ++ [⟨c, msg, .start⟩]
  conns : w.conns.length ≤ w'.conns.length
  alive : ∀ c, c < w.conns.length → w'.alive c = true → w.alive c = true

/-- A quiet step that leaves the connections alone. -/
private theorem Quiet.of_conns {w w' : World} (hpending : w'.pending = w.pending)
    (hnext : w'.nextNewId = w.nextNewId) (htimeouts : w'.timeouts = w.timeouts)
    (hlog : w'.log = w.log) (hhandlers : w'.handlers = w.handlers ∨
      ∃ c msg, w'.handlers = w.handlers ++ [⟨c, msg, .start⟩]) (hconns : w'.conns = w.conns) :
    Quiet w w' :=
  ⟨hpending, hnext, htimeouts, hlog, hhandlers, hconns ▸ le_refl _, fun c _ hc => by
    simpa [World.alive, hconns] using hc⟩

private theorem newConn_quiet {w w' : World} {fd : Int} {out : Bool}
    (h : w.newConn fd out = some w') : Quiet w w' ∧ w'.handlers = w.handlers := by
  unfold newConn at h
  split_ifs at h
  cases h
  refine ⟨⟨rfl, rfl, rfl, rfl, Or.inl rfl, by simp, fun c hc halive => ?_⟩, rfl⟩
  simpa [World.alive, List.getElem?_append_left hc] using halive

/-- A change of one connection that does not bring it back. -/
private theorem modify_quiet {w : World} {c : ConnId} {f : Conn → Conn}
    (hf : ∀ s, (f s).alive = true → s.alive = true) :
    Quiet w { w with conns := w.conns.modify c f } := by
  refine ⟨rfl, rfl, rfl, rfl, Or.inl rfl, by simp, fun c' _ halive => ?_⟩
  unfold World.alive at halive ⊢
  simp only [List.getElem?_modify] at halive
  cases hs : w.conns[c']? with
  | none => simp [hs] at halive
  | some s =>
    by_cases hc : c = c'
    · simp only [hs, if_pos hc, Option.map_some, Option.getD_some] at halive ⊢
      exact hf s halive
    · simpa [hs, if_neg hc] using halive

/-- Inversion of `step`. -/
theorem step_cases {w w' : World} {a : Act} (h : w.step a = some w') :
    (∃ i x, a = .handler i ∧ w.handlers[i]? = some x ∧ w' = w.handlerStep i x) ∨
    (∃ now, a = .cleanupCollect ∧ w.cleanupNow = some now ∧ w' = w.collect now) ∨
    (∃ i t, a = .cleanupSend i ∧ w.timeouts[i]? = some t ∧ w' = w.tellTimeout i t) ∨
    (∀ i, a ≠ .handler i) ∧ Quiet w w' := by
  cases a with
  | handler i =>
    obtain ⟨x, hx, rfl⟩ := Option.map_eq_some_iff.mp h
    exact Or.inl ⟨i, x, rfl, hx, rfl⟩
  | cleanupCollect =>
    obtain ⟨now, hnow, rfl⟩ := Option.map_eq_some_iff.mp h
    exact Or.inr (Or.inl ⟨now, rfl, hnow, rfl⟩)
  | cleanupSend i =>
    obtain ⟨t, ht, rfl⟩ := Option.map_eq_some_iff.mp h
    exact Or.inr (Or.inr (Or.inl ⟨i, t, rfl, ht, rfl⟩))
  | accept fd => exact Or.inr (Or.inr (Or.inr ⟨by simp, (newConn_quiet h).1⟩))
  | connect addr fd =>
    obtain ⟨w₁, h₁, rfl⟩ := Option.map_eq_some_iff.mp h
    have hq := (newConn_quiet h₁).1
    exact Or.inr (Or.inr (Or.inr ⟨by simp,
      ⟨hq.pending, hq.nextNewId, hq.timeouts, hq.log, hq.handlers, hq.conns, hq.alive⟩⟩))
  | receive c msg =>
    simp only [step] at h
    split_ifs at h
    cases h
    exact Or.inr (Or.inr (Or.inr ⟨by simp, .of_conns rfl rfl rfl rfl (Or.inr ⟨c, msg, rfl⟩) rfl⟩))
  | closeFd c =>
    cases h
    exact Or.inr (Or.inr (Or.inr ⟨by simp, modify_quiet fun s hs => hs⟩))
  | destroy c =>
    simp only [step] at h
    split_ifs at h
    cases h
    exact Or.inr (Or.inr (Or.inr ⟨by simp, modify_quiet fun s hs => by simp at hs⟩))
  | addBackend =>
    simp only [step] at h
    split at h
    · cases h
    · cases h
      exact Or.inr (Or.inr (Or.inr ⟨by simp, .of_conns rfl rfl rfl rfl (Or.inl rfl) rfl⟩))
  | insertFd =>
    simp only [step] at h
    split at h
    · cases h
    · cases h
      exact Or.inr (Or.inr (Or.inr ⟨by simp, .of_conns rfl rfl rfl rfl (Or.inl rfl) rfl⟩))
  | eraseFd =>
    simp only [step] at h
    split at h
    · cases h
    · cases h
      exact Or.inr (Or.inr (Or.inr ⟨by simp, .of_conns rfl rfl rfl rfl (Or.inl rfl) rfl⟩))
  | cleanupBegin =>
    simp only [step] at h
    split_ifs at h
    cases h
    exact Or.inr (Or.inr (Or.inr ⟨by simp, .of_conns rfl rfl rfl rfl (Or.inl rfl) rfl⟩))
  | removeBackends expected =>
    cases h
    exact Or.inr (Or.inr (Or.inr ⟨by simp, .of_conns rfl rfl rfl rfl (Or.inl rfl) rfl⟩))
  | healthPass =>
    cases h
    exact Or.inr (Or.inr (Or.inr ⟨by simp, .of_conns rfl rfl rfl rfl (Or.inl rfl) rfl⟩))
  | tick elapsed =>
    cases h
    exact Or.inr (Or.inr (Or.inr ⟨by simp, .of_conns rfl rfl rfl rfl (Or.inl rfl) rfl⟩))

end World

end EchoNet.Gateway
