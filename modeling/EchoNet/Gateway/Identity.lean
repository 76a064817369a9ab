import EchoNet.Chat.Membership
import EchoNet.Gateway.Machine

/-!
# Identity through the Gateway

The gateway of `EchoNet.Gateway` in front of any number of chat services.  A chat service
keeps its sessions by connection, and the gateway forwards the requests of all its clients
over one connection per backend.

- A `Link` is a connection of the gateway to a backend, with both ends: the connection object
  in the gateway, and the one that the backend has accepted.
- The requests that were forwarded on a link and not handled yet are its `queue`, in order.
  The client in front of each is history: it is not on the wire.
- A handler of a backend is one step: its connection runs one handler at a time, and other
  connections of the backend have other sessions.

## Main results

- `authenticated_iff`: every room request is executed under a login of its own client exactly
  when it meets, on its link, a last login under a name that its client has logged in with.
- `stranger_creates_room`: a client that never logged in creates a room in another's name.
-/

namespace EchoNet.Gateway

open EchoNet.Lib EchoNet.Protocol EchoNet.Chat EchoNet.Chat.Service

/-! ## §1 The deployment -/

structure Link where
  conn : ConnId
  addr : String
  peer : Chat.Conn
  isOpen : Bool
  queue : List (ConnId × MyMessage)
  /-- how many of the backend's messages have reached the gateway -/
  received : Nat
  /-- history: the client and the name of the last accepted login -/
  lastLogin : Option (ConnId × Bytes)
  deriving DecidableEq, Repr

namespace Link

/-- A request is appended to the queue of its link. -/
def push (l : Link) (item : Option (ConnId × ConnId × MyMessage)) : Link :=
  match item with
  | some (backend, client, msg) =>
    if l.conn = backend then { l with queue := l.queue ++ [(client, msg)] } else l
  | none => l

/-- The next message of the backend has reached the gateway's end `c`. -/
def receive (l : Link) (c : ConnId) : Link :=
  if l.conn = c then { l with received := l.received + 1 } else l

/-- The link after its first request was handled. -/
def advance (l : Link) (svc : Service) (env : Env) (client : ConnId) (msg : MyMessage)
    (rest : List (ConnId × MyMessage)) : Link :=
  { l with
    queue := rest
    lastLogin := ((svc.acceptsLogin env l.peer msg).map fun username => (client, username)).or
      l.lastLogin }

end Link

/-- What the backends did: an accepted login, a room request executed under a session. -/
inductive Event where
  | login (client : ConnId) (username : Bytes)
  | executed (client : ConnId) (type : MyType) (username : Bytes)
  deriving DecidableEq, Repr

/-- The gateway, the chat services by address, the links between them. -/
structure Deployment where
  gateway : World
  services : String → Service
  links : List Link
  events : List Event

namespace Deployment

/-- No connection yet; each backend has read its first room id from its database. -/
def init (firstRoomId : String → UInt32) : Deployment where
  gateway := .init
  services := fun addr => .init (firstRoomId addr)
  links := []
  events := []

inductive Act where
  /-- a step of the gateway -/
  | gateway (a : Gateway.Act)
  /-- the monitor connects to a backend, which accepts on `peerFd` -/
  | connect (addr : String) (fd peerFd : Int)
  /-- the backend of a link handles the next request on it -/
  | handle (i : Nat) (env : Env)
  /-- the backend of a link is told that the connection has ended -/
  | closeLink (i : Nat) (env : Env)
  deriving DecidableEq, Repr

/-- What the handler at index `i` is about to pass to a backend's connection. -/
def forwarded (w : World) (i : Nat) : Option (ConnId × ConnId × MyMessage) :=
  match w.handlers[i]? with
  | some ⟨client, msg, .forward backend newId⟩ => some (backend, client, { msg with id := newId })
  | _ => none

/-- The messages that a backend has sent on one of its connections. -/
def output (svc : Service) (peer : Chat.Conn) : List MyMessage :=
  svc.sent.filterMap fun o =>
    match o with
    | .response conn msg => if conn = peer then some msg else none
    | .push x msg => if (svc.sessionAt x).conn = peer then some msg else none

/-- A step of the gateway.  On a link it receives what the backend has sent. -/
def gatewayStep (s : Deployment) (a : Gateway.Act) : Option Deployment :=
  match a with
  | .connect .. => none
  | .handler i => (s.gateway.step a).map fun w =>
      { s with gateway := w, links := s.links.map fun l => l.push (forwarded s.gateway i) }
  | .receive c msg =>
    if s.links.all fun l => l.conn ≠ c || (output (s.services l.addr) l.peer)[l.received]? = some msg then
      (s.gateway.step a).map fun w =>
        { s with gateway := w, links := s.links.map fun l => l.receive c }
    else none
  | a => (s.gateway.step a).map fun w => { s with gateway := w }

/-- The room requests of which `ChatService` demands a session. -/
def needsSession : MyType → Bool
  | .createRoomReq | .joinRoomReq | .sendMsgReq => true
  | _ => false

/-- The backend executes a room request under this session. -/
def executes (svc : Service) (env : Env) (peer : Chat.Conn) (msg : MyMessage) :
    Option SessionRef :=
  if svc.Admitted env peer msg ∧ needsSession msg.type = true then svc.getSessionByConn peer
  else none

/-- History of one handler. -/
def observe (svc : Service) (env : Env) (peer : Chat.Conn) (client : ConnId) (msg : MyMessage) :
    List Event :=
  ((svc.acceptsLogin env peer msg).map fun username => Event.login client username).toList ++
  ((executes svc env peer msg).map fun x =>
    Event.executed client msg.type (svc.sessionAt x).username).toList

def step (s : Deployment) : Act → Option Deployment
  | .gateway a => s.gatewayStep a
  | .connect addr fd peerFd =>
    -- the backend's kernel hands out a number that is not open there
    if s.links.any fun l => l.isOpen && l.addr = addr && l.peer.fd = peerFd then none
    else
      (s.gateway.step (.connect addr fd)).map fun w =>
        { s with
          gateway := w
          links := s.links ++
            [⟨s.gateway.conns.length, addr, ⟨s.links.length, peerFd⟩, true, [], 0, none⟩] }
  | .handle i env =>
    match s.links[i]? with
    | none => none
    | some l =>
      match l.isOpen, l.queue with
      | true, (client, msg) :: rest =>
        some { s with
          services := Function.update s.services l.addr
            ((s.services l.addr).handleMessage env l.peer msg)
          links := s.links.set i (l.advance (s.services l.addr) env client msg rest)
          events := s.events ++ observe (s.services l.addr) env l.peer client msg }
      | _, _ => none
  | .closeLink i env =>
    match s.links[i]? with
    | none => none
    | some l =>
      if l.isOpen then
        some { s with
          services := Function.update s.services l.addr
            ((s.services l.addr).onConnectionClosed env l.peer.fd)
          links := s.links.set i { l with isOpen := false } }
      else none

/-! ## §2 Everything a step can do -/

/-- The parts of a link that the gateway does not touch. -/
structure SameEnd (l l' : Link) : Prop where
  addr : l'.addr = l.addr
  peer : l'.peer = l.peer
  isOpen : l'.isOpen = l.isOpen
  lastLogin : l'.lastLogin = l.lastLogin

private theorem SameEnd.push (l : Link) (item : Option (ConnId × ConnId × MyMessage)) :
    SameEnd l (l.push item) := by
  unfold Link.push
  split
  · split_ifs <;> exact ⟨rfl, rfl, rfl, rfl⟩
  · exact ⟨rfl, rfl, rfl, rfl⟩

private theorem SameEnd.receive (l : Link) (c : ConnId) : SameEnd l (l.receive c) := by
  unfold Link.receive
  split_ifs <;> exact ⟨rfl, rfl, rfl, rfl⟩

/-- Inversion of `step`. -/
inductive Step (s : Deployment) : Act → Deployment → Prop where
  | gateway {a : Gateway.Act} {w : World} {f : Link → Link} (hf : ∀ l, SameEnd l (f l)) :
      Step s (.gateway a) { s with gateway := w, links := s.links.map f }
  | connect {addr : String} {fd peerFd : Int} {w : World} {l : Link} (hopen : l.isOpen = true)
      (hlogin : l.lastLogin = none)
      (hfree : ∀ l' ∈ s.links, l'.isOpen = true → l'.addr = l.addr → l'.peer.fd ≠ l.peer.fd) :
      Step s (.connect addr fd peerFd) { s with gateway := w, links := s.links ++ [l] }
  | handle {i : Nat} {env : Env} {l : Link} {client : ConnId} {msg : MyMessage}
      {rest : List (ConnId × MyMessage)} (hl : s.links[i]? = some l) (hopen : l.isOpen = true)
      (hqueue : l.queue = (client, msg) :: rest) :
      Step s (.handle i env) { s with
        services := Function.update s.services l.addr
          ((s.services l.addr).handleMessage env l.peer msg)
        links := s.links.set i (l.advance (s.services l.addr) env client msg rest)
        events := s.events ++ observe (s.services l.addr) env l.peer client msg }
  | closeLink {i : Nat} {env : Env} {l : Link} (hl : s.links[i]? = some l)
      (hopen : l.isOpen = true) :
      Step s (.closeLink i env) { s with
        services := Function.update s.services l.addr
          ((s.services l.addr).onConnectionClosed env l.peer.fd)
        links := s.links.set i { l with isOpen := false } }

private theorem gatewayStep_cases {s s' : Deployment} {a : Gateway.Act}
    (h : s.gatewayStep a = some s') : ∃ w f, (∀ l, SameEnd l (f l)) ∧
      s' = { s with gateway := w, links := s.links.map f } := by
  have hid : ∀ l : Link, SameEnd l (id l) := fun l => ⟨rfl, rfl, rfl, rfl⟩
  unfold gatewayStep at h
  split at h
  · cases h
  · obtain ⟨w, -, rfl⟩ := Option.map_eq_some_iff.mp h
    exact ⟨w, _, fun l => .push l _, rfl⟩
  · split_ifs at h
    obtain ⟨w, -, rfl⟩ := Option.map_eq_some_iff.mp h
    exact ⟨w, _, fun l => .receive l _, rfl⟩
  · obtain ⟨w, -, rfl⟩ := Option.map_eq_some_iff.mp h
    exact ⟨w, id, hid, by rw [List.map_id]⟩

theorem step_cases {s s' : Deployment} {a : Act} (h : s.step a = some s') : Step s a s' := by
  cases a with
  | gateway a =>
    obtain ⟨w, f, hf, rfl⟩ := gatewayStep_cases h
    exact .gateway hf
  | connect addr fd peerFd =>
    simp only [step] at h
    split_ifs at h with hfree
    obtain ⟨w, -, rfl⟩ := Option.map_eq_some_iff.mp h
    refine .connect rfl rfl fun l' hl' hopen haddr hfd => hfree ?_
    exact List.any_eq_true.mpr ⟨l', hl', by simp [hopen, haddr, hfd]⟩
  | handle i env =>
    simp only [step] at h
    split at h
    · cases h
    · rename_i l hl
      split at h
      · rename_i hopen hqueue
        cases h
        exact .handle hl hopen hqueue
      · cases h
  | closeLink i env =>
    simp only [step] at h
    split at h
    · cases h
    · rename_i l hl
      split_ifs at h with hopen
      cases h
      exact .closeLink hl hopen

/-! ## §3 Sessions and logins -/

/-- The session of a link is that of the last login on it. -/
structure Inv (s : Deployment) : Prop where
  consistent : ∀ addr, (s.services addr).toTables.Consistent
  session : ∀ (i : Nat) l x, s.links[i]? = some l → l.isOpen = true →
    (s.services l.addr).sessions.lookup l.peer.fd = some x →
    ∃ client, l.lastLogin = some (client, ((s.services l.addr).sessionAt x).username)
  free : ∀ addr fd, (∀ l ∈ s.links, l.isOpen = true → l.addr = addr → l.peer.fd ≠ fd) →
    (s.services addr).sessions.lookup fd = none
  distinct : ∀ (i j : Nat) l l', s.links[i]? = some l → s.links[j]? = some l' →
    l.isOpen = true → l'.isOpen = true → l.addr = l'.addr → l.peer.fd = l'.peer.fd → i = j

theorem Inv.init (firstRoomId : String → UInt32) : (Deployment.init firstRoomId).Inv :=
  ⟨fun addr => .init (firstRoomId addr), fun _ _ _ h => by simp [Deployment.init] at h,
    fun _ _ _ => rfl, fun _ _ _ _ h => by simp [Deployment.init] at h⟩

private theorem inv_gateway {s : Deployment} (h : s.Inv) {w : World} {f : Link → Link}
    (hf : ∀ l, SameEnd l (f l)) : Inv { s with gateway := w, links := s.links.map f } := by
  have hlink : ∀ (i : Nat) l', (s.links.map f)[i]? = some l' →
      ∃ l, s.links[i]? = some l ∧ SameEnd l l' := by
    intro i l' hl'
    rw [List.getElem?_map, Option.map_eq_some_iff] at hl'
    obtain ⟨l, hl, rfl⟩ := hl'
    exact ⟨l, hl, hf l⟩
  refine ⟨h.consistent, fun i l' x hl' hopen hx => ?_, fun addr fd hfree => ?_,
    fun i j l₁ l₂ h₁ h₂ ho₁ ho₂ haddr hfd => ?_⟩
  · obtain ⟨l, hl, hsame⟩ := hlink i l' hl'
    dsimp only at hx ⊢
    rw [hsame.addr, hsame.peer] at hx
    rw [hsame.addr, hsame.lastLogin]
    exact h.session i l x hl (hsame.isOpen ▸ hopen) hx
  · refine h.free addr fd fun l hl hopen haddr => ?_
    have hsame := hf l
    rw [← hsame.peer]
    exact hfree (f l) (List.mem_map_of_mem hl) (hsame.isOpen ▸ hopen) (hsame.addr ▸ haddr)
  · obtain ⟨l, hl, hsame⟩ := hlink i l₁ h₁
    obtain ⟨l', hl', hsame'⟩ := hlink j l₂ h₂
    exact h.distinct i j l l' hl hl' (hsame.isOpen ▸ ho₁) (hsame'.isOpen ▸ ho₂)
      (by rw [← hsame.addr, ← hsame'.addr, haddr]) (by rw [← hsame.peer, ← hsame'.peer, hfd])

private theorem inv_connect {s : Deployment} (h : s.Inv) {w : World} {l : Link}
    (hfree : ∀ l' ∈ s.links, l'.isOpen = true → l'.addr = l.addr → l'.peer.fd ≠ l.peer.fd) :
    Inv { s with gateway := w, links := s.links ++ [l] } := by
  have hlink : ∀ (i : Nat) l', (s.links ++ [l])[i]? = some l' →
      s.links[i]? = some l' ∨ (i = s.links.length ∧ l' = l) := by
    intro i l' hl'
    rcases Nat.lt_trichotomy i s.links.length with hi | rfl | hi
    · rw [List.getElem?_append_left hi] at hl'
      exact Or.inl hl'
    · rw [List.getElem?_concat_length] at hl'
      exact Or.inr ⟨rfl, (Option.some.inj hl').symm⟩
    · rw [List.getElem?_eq_none (by simp; omega)] at hl'
      cases hl'
  refine ⟨h.consistent, fun i l' x hl' hopen hx => ?_, fun addr fd hnone => ?_,
    fun i j l₁ l₂ h₁ h₂ ho₁ ho₂ haddr hfd => ?_⟩
  · rcases hlink i l' hl' with hl' | ⟨-, rfl⟩
    · exact h.session i l' x hl' hopen hx
    · -- the number was not open, so no session is left under it
      cases (h.free l'.addr l'.peer.fd hfree).symm.trans hx
  · exact h.free addr fd fun l' hl' => hnone l' (List.mem_append_left _ hl')
  · rcases hlink i l₁ h₁ with hold₁ | ⟨hi, rfl⟩ <;> rcases hlink j l₂ h₂ with hold₂ | ⟨hj, rfl⟩
    · exact h.distinct i j l₁ l₂ hold₁ hold₂ ho₁ ho₂ haddr hfd
    · exact absurd hfd (hfree l₁ (List.mem_of_getElem? hold₁) ho₁ haddr)
    · exact absurd hfd.symm (hfree l₂ (List.mem_of_getElem? hold₂) ho₂ haddr.symm)
    · rw [hi, hj]

/-- The backend of link `i` has worked: its own entry is described by `hown`, the others are
as before. -/
private theorem inv_service {s : Deployment} (h : s.Inv) {i : Nat} {l l' : Link} {svc : Service}
    {events : List Event} (hl : s.links[i]? = some l) (hopen : l.isOpen = true)
    (haddr : l'.addr = l.addr) (hpeer : l'.peer = l.peer) (hc : svc.toTables.Consistent)
    (hother : ∀ fd, fd ≠ l.peer.fd →
      svc.sessions.lookup fd = (s.services l.addr).sessions.lookup fd)
    (hname : ∀ x, x < (s.services l.addr).freshSession →
      (svc.sessionAt x).username = ((s.services l.addr).sessionAt x).username)
    (hown : l'.isOpen = true → ∀ x, svc.sessions.lookup l.peer.fd = some x →
      ∃ client, l'.lastLogin = some (client, (svc.sessionAt x).username))
    (hclosed : l'.isOpen = false → svc.sessions.lookup l.peer.fd = none) :
    Inv { s with
      services := Function.update s.services l.addr svc
      links := s.links.set i l'
      events := events } := by
  have hi : i < s.links.length := (List.getElem?_eq_some_iff.mp hl).1
  have hlink : ∀ (j : Nat) l₂, (s.links.set i l')[j]? = some l₂ →
      (j = i ∧ l₂ = l') ∨ (j ≠ i ∧ s.links[j]? = some l₂) := by
    intro j l₂ h₂
    rw [List.getElem?_set] at h₂
    split_ifs at h₂ with hij
    · exact Or.inl ⟨hij.symm, (Option.some.inj h₂).symm⟩
    · exact Or.inr ⟨Ne.symm hij, h₂⟩
  refine ⟨fun addr => ?_, fun j l₂ x h₂ hopen₂ hx => ?_, fun addr fd hfree => ?_,
    fun j k l₁ l₂ h₁ h₂ ho₁ ho₂ haddr₂ hfd => ?_⟩
  · dsimp only
    rw [Function.update_apply]
    split_ifs
    · exact hc
    · exact h.consistent addr
  · dsimp only at hx ⊢
    rcases hlink j l₂ h₂ with ⟨rfl, rfl⟩ | ⟨hji, h₂⟩
    · rw [haddr, Function.update_self] at hx ⊢
      exact hown hopen₂ x (hpeer ▸ hx)
    · by_cases hsame : l₂.addr = l.addr
      · have hfd : l₂.peer.fd ≠ l.peer.fd := fun hfd =>
          hji (h.distinct j i l₂ l h₂ hl hopen₂ hopen hsame hfd)
        rw [hsame, Function.update_self] at hx ⊢
        rw [hother _ hfd, ← hsame] at hx
        obtain ⟨client, hlogin⟩ := h.session j l₂ x h₂ hopen₂ hx
        refine ⟨client, ?_⟩
        rw [hname x (hsame ▸ (h.consistent l₂.addr).session_lt _ x hx), ← hsame]
        exact hlogin
      · rw [Function.update_of_ne hsame] at hx ⊢
        exact h.session j l₂ x h₂ hopen₂ hx
  · dsimp only
    have hold : ∀ l₂ ∈ s.links, l₂ ≠ l → l₂.isOpen = true → l₂.addr = addr → l₂.peer.fd ≠ fd := by
      intro l₂ hl₂ hne
      obtain ⟨j, hj, rfl⟩ := List.mem_iff_getElem.mp hl₂
      have hji : j ≠ i := fun hji => by
        subst hji
        rw [List.getElem?_eq_getElem hj] at hl
        exact hne (Option.some.inj hl)
      refine hfree _ (List.mem_of_getElem? (i := j) ?_)
      rw [List.getElem?_set, if_neg (Ne.symm hji), List.getElem?_eq_getElem hj]
    by_cases haddr₂ : addr = l.addr
    · subst haddr₂
      rw [Function.update_self]
      by_cases hfd : fd = l.peer.fd
      · subst hfd
        cases hopen' : l'.isOpen with
        | false => exact hclosed hopen'
        | true =>
          have hmem : l' ∈ s.links.set i l' := List.mem_set hi l'
          exact absurd (congrArg Chat.Conn.fd hpeer) (hfree l' hmem hopen' haddr)
      · rw [hother fd hfd]
        refine h.free l.addr fd fun l₂ hl₂ hopen₂ haddr₂ => ?_
        by_cases hne : l₂ = l
        · rw [hne]
          exact Ne.symm hfd
        · exact hold l₂ hl₂ hne hopen₂ haddr₂
    · rw [Function.update_of_ne haddr₂]
      refine h.free addr fd fun l₂ hl₂ hopen₂ haddr₃ => ?_
      by_cases hne : l₂ = l
      · exact absurd (haddr₃.symm.trans (congrArg Link.addr hne)) haddr₂
      · exact hold l₂ hl₂ hne hopen₂ haddr₃
  · -- the ends of link `i` are the old ones
    have hends : ∀ (m : Nat) l₃, (s.links.set i l')[m]? = some l₃ → l₃.isOpen = true →
        ∃ l₄, s.links[m]? = some l₄ ∧ l₄.isOpen = true ∧ l₄.addr = l₃.addr ∧
          l₄.peer.fd = l₃.peer.fd := by
      intro m l₃ h₃ ho₃
      rcases hlink m l₃ h₃ with ⟨rfl, rfl⟩ | ⟨-, h₃⟩
      · exact ⟨l, hl, hopen, haddr.symm, congrArg Chat.Conn.fd hpeer.symm⟩
      · exact ⟨l₃, h₃, ho₃, rfl, rfl⟩
    obtain ⟨l₃, h₃, ho₃, ha₃, hf₃⟩ := hends j l₁ h₁ ho₁
    obtain ⟨l₄, h₄, ho₄, ha₄, hf₄⟩ := hends k l₂ h₂ ho₂
    exact h.distinct j k l₃ l₄ h₃ h₄ ho₃ ho₄ (by rw [ha₃, ha₄, haddr₂]) (by rw [hf₃, hf₄, hfd])

theorem step_inv {s s' : Deployment} {a : Act} (h : s.Inv) (hstep : s.step a = some s') :
    s'.Inv := by
  cases step_cases hstep with
  | gateway hf => exact inv_gateway h hf
  | connect _ _ hfree => exact inv_connect h hfree
  | @handle i env l client msg rest hl hopen hqueue =>
    have hc := h.consistent l.addr
    refine inv_service h hl hopen rfl rfl
      (((s.services l.addr).apply_effect (.message env l.peer msg)).consistent hc)
      (fun fd hfd => handleMessage_lookup_of_ne _ _ _ hfd)
      (fun x hx => (handleMessage_identity _ _ _ _ hx).1) (fun _ x hx => ?_)
      (fun hclosed => absurd (hopen.symm.trans hclosed) (by decide))
    cases hlogin : (s.services l.addr).acceptsLogin env l.peer msg with
    | some username =>
      -- the session is the one that the login has opened
      rw [handleMessage_login hlogin] at hx ⊢
      obtain rfl : (s.services l.addr).freshSession = x :=
        Option.some.inj ((AList.lookup_insert _).symm.trans hx)
      exact ⟨client, by simp [Link.advance, hlogin, Tables.openSession]⟩
    | none =>
      obtain ⟨hsessions, -, hidentity⟩ := handleMessage_other hlogin
      rw [hsessions] at hx
      obtain ⟨client', hlast⟩ := h.session i l x hl hopen hx
      refine ⟨client', ?_⟩
      rw [(hidentity x).1]
      simp [Link.advance, hlogin, hlast]
  | @closeLink i env l hl hopen =>
    have hc := h.consistent l.addr
    refine inv_service h hl hopen rfl rfl
      (((s.services l.addr).apply_effect (.closed env l.peer.fd)).consistent hc)
      (fun fd hfd => lookup_closed_of_ne _ env hfd)
      (fun x _ => by rw [sessionAt_closed]) (fun hopen' => absurd hopen' Bool.false_ne_true)
      (fun _ => lookup_closed _ env _)

/-! ## §4 Authentication -/

/-- Every room request was executed under a name that its client had logged in with. -/
def Authenticated (events : List Event) : Prop :=
  ∀ pre client type username post, events = pre ++ .executed client type username :: post →
    .login client username ∈ pre

theorem authenticated_nil : Authenticated [] := fun pre _ _ _ _ h => by simp at h

theorem authenticated_concat {events : List Event} {e : Event} :
    Authenticated (events ++ [e]) ↔ Authenticated events ∧
      ∀ client type username, e = .executed client type username →
        .login client username ∈ events := by
  constructor
  · intro h
    refine ⟨fun pre client type username post heq => ?_, fun client type username heq => ?_⟩
    · exact h pre client type username (post ++ [e]) (by rw [heq]; simp)
    · exact h events client type username [] (by rw [heq])
  · rintro ⟨hold, hlast⟩ pre client type username post heq
    rcases List.eq_nil_or_concat post with rfl | ⟨post', e', rfl⟩
    · obtain ⟨rfl, he⟩ := List.append_inj' heq rfl
      exact hlast client type username (List.cons.inj he).1
    · have heq' : events ++ [e] = (pre ++ .executed client type username :: post') ++ [e'] := by
        rw [heq]
        simp
      exact hold pre client type username post' (List.append_inj' heq' rfl).1

/-- A room request that a backend executes meets, on its link, a last accepted login under a
name that the request's own client has logged in with before. -/
def IdentitySafe (s : Deployment) : Act → Prop
  | .handle i env =>
    ∀ l ∈ s.links[i]?, ∀ request ∈ l.queue.head?,
      (executes (s.services l.addr) env l.peer request.2).isSome = true →
        ∀ last ∈ l.lastLogin, Event.login request.1 last.2 ∈ s.events
  | _ => True

instance (s : Deployment) : (a : Act) → Decidable (s.IdentitySafe a)
  | .handle .. => inferInstanceAs (Decidable (∀ l ∈ _, ∀ request ∈ _, _ → ∀ last ∈ _, _))
  | .gateway _ => isTrue trivial
  | .connect .. => isTrue trivial
  | .closeLink .. => isTrue trivial

private theorem executes_eq_some {svc : Service} {env : Env} {peer : Chat.Conn} {msg : MyMessage}
    {x : SessionRef} (h : executes svc env peer msg = some x) :
    needsSession msg.type = true ∧ svc.sessions.lookup peer.fd = some x := by
  unfold executes at h
  split_ifs at h with hmsg
  exact ⟨hmsg.2, h⟩

/-- A room request that passes the limiters and is not executed is answered
`"Not logged in"`. -/
theorem not_logged_in_of_not_executes {svc : Service} {env : Env} {peer : Chat.Conn}
    {msg : MyMessage} (hpass : svc.Admitted env peer msg) (hneeds : needsSession msg.type = true)
    (h : executes svc env peer msg = none) :
    (svc.handleMessage env peer msg).sent =
      svc.sent ++ [.response peer ⟨.errorResp, msg.id, ascii "Not logged in"⟩] := by
  unfold executes at h
  rw [if_pos ⟨hpass, hneeds⟩] at h
  obtain ⟨s', htables, hsent, heq⟩ := handleMessage_eq_dispatch hpass
  have hnone : s'.getSessionByConn peer = none := by
    unfold getSessionByConn getSessionByFd
    rw [htables]
    exact h
  rw [heq, ← hsent]
  unfold dispatch
  cases htype : msg.type with
  | createRoomReq =>
    exact congrArg Service.sent (handleCreateRoom_of_no_session (s := s'.countRequest) hnone env msg)
  | joinRoomReq =>
    exact congrArg Service.sent (handleJionRoom_of_no_session (s := s'.countRequest) hnone env msg)
  | sendMsgReq =>
    exact congrArg Service.sent (handleSendMessage_of_no_session (s := s'.countRequest) hnone msg)
  | _ =>
    rw [htype] at hneeds
    cases hneeds

/-- What one handler adds to the history. -/
private theorem authenticated_observe {events : List Event} {svc : Service} {env : Env}
    {peer : Chat.Conn} {client : ConnId} {msg : MyMessage} :
    Authenticated (events ++ observe svc env peer client msg) ↔ Authenticated events ∧
      ∀ x, executes svc env peer msg = some x →
        .login client (svc.sessionAt x).username ∈ events := by
  unfold observe
  cases hx : executes svc env peer msg with
  | none =>
    cases svc.acceptsLogin env peer msg with
    | none => simp
    | some username => simp [authenticated_concat]
  | some x =>
    have hlogin : svc.acceptsLogin env peer msg = none := by
      cases hlogin : svc.acceptsLogin env peer msg with
      | none => rfl
      | some username =>
        have htype := (acceptsLogin_eq_some.mp hlogin).2.1
        have hneeds := (executes_eq_some hx).1
        rw [htype] at hneeds
        cases hneeds
    simp only [hlogin, Option.map_none, Option.toList_none, List.nil_append, Option.map_some,
      Option.toList_some, authenticated_concat, Event.executed.injEq, Option.some.injEq]
    refine and_congr_right fun _ => ⟨?_, ?_⟩
    · rintro h y rfl
      exact h client msg.type _ ⟨rfl, rfl, rfl⟩
    · rintro h _ _ _ ⟨rfl, -, rfl⟩
      exact h x rfl

/-- The step lemma. -/
private theorem authenticated_step {s s' : Deployment} {a : Act} (h : s.Inv)
    (hstep : s.step a = some s') :
    Authenticated s'.events ↔ Authenticated s.events ∧ s.IdentitySafe a := by
  cases step_cases hstep with
  | gateway => exact (and_iff_left trivial).symm
  | connect => exact (and_iff_left trivial).symm
  | closeLink => exact (and_iff_left trivial).symm
  | @handle i env l client msg rest hl hopen hqueue =>
    refine authenticated_observe.trans (and_congr_right fun _ => ⟨?_, ?_⟩)
    · intro hx l' hl' request hrequest hsome last hlast
      obtain rfl : l = l' := Option.some.inj (hl.symm.trans hl')
      rw [hqueue] at hrequest
      obtain rfl : (client, msg) = request := Option.some.inj hrequest
      obtain ⟨x, hexec⟩ := Option.isSome_iff_exists.mp hsome
      obtain ⟨client', hlogin⟩ := h.session i l x hl hopen (executes_eq_some hexec).2
      obtain rfl := Option.some.inj (hlogin.symm.trans hlast)
      exact hx x hexec
    · intro hsafe x hexec
      obtain ⟨client', hlogin⟩ := h.session i l x hl hopen (executes_eq_some hexec).2
      exact hsafe l hl (client, msg) (by rw [hqueue]; rfl) (by rw [hexec]; rfl) _ hlogin

/-- **Authentication, exactly.**  In every run of the gateway and its backends, each room
request is executed under a name that its own client has logged in with before, exactly when
each of them meets, on its link, a last accepted login under such a name. -/
theorem authenticated_iff {firstRoomId : String → UInt32} {acts : List Act} {s : Deployment}
    (hrun : run Deployment.step (.init firstRoomId) acts = some s) :
    Authenticated s.events ↔ Meets Deployment.step IdentitySafe (.init firstRoomId) acts := by
  have hlast := last_iff_meets (G := IdentitySafe) (I := Inv)
    (P := fun s => Authenticated s.events) (fun _ _ _ h hstep => step_inv h hstep)
    (fun _ _ _ h hstep => authenticated_step h hstep) (Inv.init firstRoomId) hrun
  exact hlast.trans (and_iff_right authenticated_nil)

/-- The gateway gets a request from a client, and its handler runs to the end. -/
def relay (client : ConnId) (type : MyType) (payload : String) : List Act :=
  .gateway (.receive client ⟨type, 7, ascii payload⟩) ::
    List.replicate 5 (.gateway (.handler 0))

/-- The backend handles the next request; its database knows the password `"pw"`. -/
def serve : Act := .handle 0 ⟨0, .executed (.row (ascii "pw")), .executed (), .reply⟩

/-- One backend, and the clients 1 and 2. -/
def oneBackend : List Act :=
  [.connect "b" 3 5, .gateway .addBackend, .gateway .insertFd, .gateway (.accept 4),
    .gateway (.accept 6)]

theorem authenticated_iff_two :
    ∃ s, run Deployment.step (.init fun _ => 1) (oneBackend ++ relay 1 .loginReq "ann|pw" ++
        [serve] ++ relay 1 .createRoomReq "r" ++ [serve] ++ relay 2 .loginReq "bob|pw" ++
        [serve] ++ relay 2 .joinRoomReq "1" ++ [serve]) = some s ∧
      s.events = [.login 1 (ascii "ann"), .executed 1 .createRoomReq (ascii "ann"),
        .login 2 (ascii "bob"), .executed 2 .joinRoomReq (ascii "bob")] ∧
      Authenticated s.events := by
  have hlast : ((run Deployment.step (.init fun _ => 1) (oneBackend ++
      relay 1 .loginReq "ann|pw" ++ [serve] ++ relay 1 .createRoomReq "r" ++ [serve] ++
      relay 2 .loginReq "bob|pw" ++ [serve] ++ relay 2 .joinRoomReq "1" ++ [serve])).any fun s =>
      decide (s.events = [.login 1 (ascii "ann"), .executed 1 .createRoomReq (ascii "ann"),
        .login 2 (ascii "bob"), .executed 2 .joinRoomReq (ascii "bob")])) = true := by
    decide +kernel
  obtain ⟨s, hrun, hs⟩ := exists_of_run_any hlast
  exact ⟨s, hrun, of_decide_eq_true hs, (authenticated_iff hrun).mpr (by decide +kernel)⟩

/-- Client 2 only ever asks for a room, and the backend makes it under Ann's session. -/
theorem stranger_creates_room :
    ∃ s, run Deployment.step (.init fun _ => 1) (oneBackend ++ relay 1 .loginReq "ann|pw" ++
        [serve] ++ relay 2 .createRoomReq "r" ++ [serve]) = some s ∧
      (∀ r ∈ s.gateway.log.requests, r.client = 2 → r.message.type = .createRoomReq) ∧
      s.events = [.login 1 (ascii "ann"), .executed 2 .createRoomReq (ascii "ann")] ∧
      ¬ Authenticated s.events := by
  have hlast : ((run Deployment.step (.init fun _ => 1) (oneBackend ++
      relay 1 .loginReq "ann|pw" ++ [serve] ++ relay 2 .createRoomReq "r" ++ [serve])).any fun s =>
      decide ((∀ r ∈ s.gateway.log.requests, r.client = 2 → r.message.type = .createRoomReq) ∧
        s.events = [.login 1 (ascii "ann"), .executed 2 .createRoomReq (ascii "ann")])) = true := by
    decide +kernel
  obtain ⟨s, hrun, hs⟩ := exists_of_run_any hlast
  obtain ⟨hrequests, hevents⟩ := of_decide_eq_true hs
  refine ⟨s, hrun, hrequests, hevents, fun h => ?_⟩
  have hlogin := h [.login 1 (ascii "ann")] 2 .createRoomReq (ascii "ann") [] hevents
  simp at hlogin

end Deployment

end EchoNet.Gateway
