import EchoNet.Chat.Tables
import EchoNet.Net.CloseProtocol

/-!
# The Chat Server

The server that `main` puts together: the acceptor, the event loops of `IoThreadPool`, the
worker pool, any number of connections, and the tables of `ChatService`.

- A connection is a `PoolMachine.World` with the index of its event loop; its number in
  `conns` is its identity, the descriptor is not.
- `channels_` and `connections_` of a loop are the flags `inChannels` and `inConnections` of
  its connections.
- The kernel hands out any number that is not open.  Other descriptors of the process only
  restrict its choice.
- A handler is as many steps as it has critical sections.  `getSessionByConn` only reads, so it
  is a function of the state, and what is proved of every state holds of every lookup.

The connections of one loop are interleaved as freely as those of different loops, the
sections of a handler come in any order, and each connection sees `WorkThreadPool::stop` for
itself: this only adds runs.
-/

namespace EchoNet.Server

open EchoNet.Lib EchoNet.Protocol EchoNet.Net.PoolMachine EchoNet.Chat

/-! ## §1 States -/

/-- A `Connection` and its event loop. -/
structure Peer where
  loop : Nat
  world : World

/-- History: a successful `LOGIN_REQ` and the `Session` that `handleLogin` made for it. -/
structure Login where
  conn : Nat
  session : SessionRef
  request : MyMessage
  env : Env
  username : Bytes
  isLogin : request.type = .loginReq
  accepted : authenticate env request = .ok username

structure System where
  conns : List Peer
  /-- the creations that `IoThreadPool::submit` has posted: the loop and the descriptor -/
  posted : List (Nat × Int)
  openFds : List Int
  tables : Tables
  logins : List Login

/-- The critical sections of the service that leave `sessions_` alone. -/
inductive RoomSection where
  | setRoomId (x : SessionRef) (id : UInt32)
  | addMember (ρ : RoomRef) (x : SessionRef)
  | removeFromRoom (id : UInt32) (x : SessionRef)
  | removeEmptyRoom (id : UInt32)
  | drawRoomId
  | newRoom (id : UInt32) (name : Bytes)
  deriving DecidableEq, Repr

def RoomSection.apply (t : Tables) : RoomSection → Tables
  | .setRoomId x id => t.setRoomId x id
  | .addMember ρ x => t.addMember ρ x
  | .removeFromRoom id x => t.removeFromRoom id x
  | .removeEmptyRoom id => t.removeEmptyRoom id
  | .drawRoomId => t.drawRoomId
  | .newRoom id name => t.newRoom id name

@[simp] theorem RoomSection.apply_sessions (t : Tables) (sec : RoomSection) :
    (sec.apply t).sessions = t.sessions := by
  cases sec <;> simp [RoomSection.apply, Tables.newRoom]

@[simp] theorem RoomSection.apply_freshSession (t : Tables) (sec : RoomSection) :
    (sec.apply t).freshSession = t.freshSession := by
  cases sec <;> simp [RoomSection.apply, Tables.newRoom, Tables.drawRoomId]

/-- `finishClose`, called by `removeConnection(fd)`, gets to the `::close` of the descriptor. -/
def closesDescriptor (w : World) (fd : Int) : Bool :=
  fd = w.conn.fd && w.inConnections && w.conn.state ≠ .closed && w.conn.afd ≠ -1

namespace System

def init (firstRoomId : UInt32) : System where
  conns := []
  posted := []
  openFds := []
  tables := .init firstRoomId
  logins := []

/-- The session that `getSessionByConn` finds for a connection. -/
def getSessionByConn (s : System) (p : Peer) : Option SessionRef :=
  s.tables.sessions.lookup p.world.conn.fd

/-! ## §2 Steps -/

inductive Act where
  /-- `accept4` returns `fd`, and the connection goes to a loop -/
  | accept (loop : Nat) (fd : Int)
  /-- that loop creates the connection, on which the peer will send `stream` -/
  | register (loop : Nat) (fd : Int) (stream : Bytes)
  /-- a step of connection `i` -/
  | conn (i : Nat) (a : Net.PoolMachine.Act)
  /-- the handler of task `k` of connection `i` gets through `handleLogin` -/
  | login (i k : Nat) (env : Env)
  /-- some handler, or an `onConnectionClosed`, is in another section -/
  | room (sec : RoomSection)
  deriving DecidableEq, Repr

def setWorld (s : System) (i : Nat) (p : Peer) (w : World) : System :=
  { s with conns := s.conns.set i { p with world := w } }

/-- `channels_[fd] = ch` and `connections_[fd] = conn` drop what was there. -/
def evict (s : System) (loop : Nat) (fd : Int) : System :=
  { s with conns := s.conns.map fun p =>
      if p.loop = loop ∧ p.world.conn.fd = fd then
        { p with world := { p.world with inChannels := false, inConnections := false } }
      else p }

/-- `EventLoop::removeConnection(fd)`. -/
def removeConnection (s : System) (loop : Nat) (fd : Int) : System :=
  { s with
    conns := s.conns.map fun p =>
      if p.loop = loop then { p with world := p.world.removeConnection fd } else p
    openFds := s.openFds.filter fun d => !s.conns.any fun p =>
      p.loop = loop && closesDescriptor p.world fd && p.world.conn.afd = d }

def setLoop (s : System) (i : Nat) (pc : LoopPc) : System :=
  { s with conns := s.conns.modify i fun p => { p with world := { p.world with loop := pc } } }

/-- A step of connection `i`.  The close callback that `IoThreadPool::submit` installs reaches
out of the connection: `onConnectionClosed` takes the session out of `sessions_`, and
`removeConnection` looks the descriptor up in the maps of the loop. -/
def connStep (s : System) (i : Nat) (p : Peer) (a : Net.PoolMachine.Act) : Option System :=
  match a, p.world.loop with
  | .loop, .inCloseCallback ret fd =>
    some { s.setWorld i p { p.world with loop := .removing ret fd } with
      tables := s.tables.dropSession fd }
  | .loop, .removing ret fd => some ((s.removeConnection p.loop fd).setLoop i ret.pc)
  | a, _ => (p.world.step a).map (s.setWorld i p)

/-- The rest of `handleLogin` after the password check. -/
def loginStep (s : System) (i : Nat) (p : Peer) (env : Env) (msg : MyMessage) : Option System :=
  if hlogin : msg.type = .loginReq then
    match hauth : authenticate env msg with
    | .error _ => none
    | .ok username =>
      some { s with
        tables := s.tables.openSession ⟨i, p.world.conn.fd⟩ username
        logins := s.logins ++
          [⟨i, s.tables.freshSession, msg, env, username, hlogin, hauth⟩] }
  else none

def step (s : System) : Act → Option System
  | .accept loop fd =>
    if 0 ≤ fd ∧ fd ∉ s.openFds then
      some { s with posted := s.posted ++ [(loop, fd)], openFds := fd :: s.openFds }
    else none
  | .register loop fd stream =>
    if (loop, fd) ∈ s.posted then
      some { s with
        posted := s.posted.erase (loop, fd)
        conns := (s.evict loop fd).conns ++ [⟨loop, .init fd stream⟩] }
    else none
  | .conn i a =>
    match s.conns[i]? with
    | none => none
    | some p => s.connStep i p a
  | .login i k env =>
    match s.conns[i]? with
    | none => none
    | some p =>
      match p.world.tasks[k]? with
      | some ⟨msg, .handler⟩ => s.loginStep i p env msg
      | _ => none
  | .room sec => some { s with tables := sec.apply s.tables }

/-! ## §3 Everything a step can do -/

/-- Inversion of `step`. -/
inductive Step (s : System) : Act → System → Prop where
  | accept {loop : Nat} {fd : Int} (hfree : fd ∉ s.openFds) :
      Step s (.accept loop fd)
        { s with posted := s.posted ++ [(loop, fd)], openFds := fd :: s.openFds }
  | register {loop : Nat} {fd : Int} {stream : Bytes} (hposted : (loop, fd) ∈ s.posted) :
      Step s (.register loop fd stream) { s with
        posted := s.posted.erase (loop, fd)
        conns := (s.evict loop fd).conns ++ [⟨loop, .init fd stream⟩] }
  | conn {i : Nat} {a : Net.PoolMachine.Act} {p : Peer} {w : World} (hp : s.conns[i]? = some p)
      (hw : p.world.step a = some w) (hpc : a = .loop → p.world.loop.callbackFd = none) :
      Step s (.conn i a) (s.setWorld i p w)
  | businessClosed {i : Nat} {p : Peer} {ret : Return} {fd : Int} (hp : s.conns[i]? = some p)
      (hl : p.world.loop = .inCloseCallback ret fd) :
      Step s (.conn i .loop) { s.setWorld i p { p.world with loop := .removing ret fd } with
        tables := s.tables.dropSession fd }
  | removed {i : Nat} {p : Peer} {ret : Return} {fd : Int} (hp : s.conns[i]? = some p)
      (hl : p.world.loop = .removing ret fd) :
      Step s (.conn i .loop) ((s.removeConnection p.loop fd).setLoop i ret.pc)
  | login {i k : Nat} {p : Peer} {t : Task} (l : Login) (hp : s.conns[i]? = some p)
      (ht : p.world.tasks[k]? = some t) (hconn : l.conn = i)
      (hsession : l.session = s.tables.freshSession) :
      Step s (.login i k l.env) { s with
        tables := s.tables.openSession ⟨i, p.world.conn.fd⟩ l.username
        logins := s.logins ++ [l] }
  | room (sec : RoomSection) : Step s (.room sec) { s with tables := sec.apply s.tables }

private theorem connStep_cases {s s' : System} {i : Nat} {p : Peer} {a : Net.PoolMachine.Act}
    (hp : s.conns[i]? = some p) (h : s.connStep i p a = some s') : Step s (.conn i a) s' := by
  unfold connStep at h
  split at h
  · rename_i hl
    cases h
    exact .businessClosed hp hl
  · rename_i hl
    cases h
    exact .removed hp hl
  · rename_i hcallback hremoving
    obtain ⟨w, hw, rfl⟩ := Option.map_eq_some_iff.mp h
    refine .conn hp hw ?_
    rintro rfl
    cases hl : p.world.loop with
    | inCloseCallback ret fd => exact absurd hl (hcallback ret fd rfl)
    | removing ret fd => exact absurd hl (hremoving ret fd rfl)
    | _ => rfl

theorem step_cases {s s' : System} {a : Act} (h : s.step a = some s') : Step s a s' := by
  cases a with
  | accept loop fd =>
    simp only [step] at h
    split_ifs at h with hfree
    cases h
    exact .accept hfree.2
  | register loop fd stream =>
    simp only [step] at h
    split_ifs at h with hposted
    cases h
    exact .register hposted
  | conn i a =>
    simp only [step] at h
    split at h
    · cases h
    · rename_i p hp
      exact connStep_cases hp h
  | login i k env =>
    simp only [step] at h
    split at h
    · cases h
    · rename_i p hp
      split at h
      · rename_i msg ht
        unfold loginStep at h
        split_ifs at h with hlogin
        split at h
        · cases h
        · rename_i username hauth
          cases h
          exact .login ⟨i, s.tables.freshSession, msg, env, username, hlogin, hauth⟩ hp ht rfl rfl
      · cases h
  | room sec =>
    cases h
    exact .room sec

end System

end EchoNet.Server
