import EchoNet.Gateway.Monitor

/-!
# Where the Connections of the Backends Are

A connection to a backend is in a posted addition, in `backends`, on the list of the monitor's
pass, or in a posted close, and never in two of these places.  As long as it has not been
unregistered, somebody holds it, so its descriptor is open and nobody else has the number.

## Main results

- `elsewhere_of_step`: what the clients and the other threads do to the tables, which is nothing;
- `Supervised.Inv`: the invariant, kept by every step.
-/

namespace EchoNet.Gateway

open EchoNet.Lib EchoNet.Protocol

/-! ## §1 The tables -/

namespace World

/-- The connections of the entries. -/
def entryConns (w : World) : List ConnId := w.backends.map BackendEntry.conn

/-- A step that leaves the tables of backends alone, but for pongs, health and counts. -/
structure TablesKept (w w' : World) : Prop where
  entries : w'.backends.map (fun e => (e.addr, e.conn)) =
    w.backends.map fun e => (e.addr, e.conn)
  backendFds : w'.backendFds = w.backendFds
  adding : w'.adding = w.adding
  inserting : w'.inserting = w.inserting
  removing : w'.removing = w.removing

theorem TablesKept.refl (w : World) : TablesKept w w := ⟨rfl, rfl, rfl, rfl, rfl⟩

theorem TablesKept.entryConns {w w' : World} (h : TablesKept w w') :
    w'.entryConns = w.entryConns := by
  -- the entries kept address and connection: forget the address
  have hsnd := congrArg (List.map Prod.snd) h.entries
  simpa [World.entryConns, Function.comp_def] using hsnd

theorem TablesKept.addrs {w w' : World} (h : TablesKept w w') :
    w'.backends.map BackendEntry.addr = w.backends.map BackendEntry.addr := by
  have hfst := congrArg (List.map Prod.fst) h.entries
  simpa [Function.comp_def] using hfst

/-- Changing entries in place. -/
private theorem map_key_modify {l : List BackendEntry} {i : Nat} {f : BackendEntry → BackendEntry}
    (hf : ∀ e, (f e).addr = e.addr ∧ (f e).conn = e.conn) :
    (l.modify i f).map (fun e => (e.addr, e.conn)) = l.map fun e => (e.addr, e.conn) := by
  refine List.ext_getElem (by simp) fun j hj₁ hj₂ => ?_
  simp only [List.getElem_map, List.getElem_modify]
  split_ifs
  · rw [(hf _).1, (hf _).2]
  · rfl

theorem tablesKept_pong (w : World) (c : ConnId) : TablesKept w (w.pong c) :=
  ⟨map_key_modify fun _ => ⟨rfl, rfl⟩, rfl, rfl, rfl, rfl⟩

theorem tablesKept_pickBackend (w : World) : TablesKept w w.pickBackend.1 := by
  unfold World.pickBackend
  split_ifs
  · exact .refl w
  · split
    · exact ⟨rfl, rfl, rfl, rfl, rfl⟩
    · exact ⟨map_key_modify fun _ => ⟨rfl, rfl⟩, rfl, rfl, rfl, rfl⟩

end World

/-- What a handler has taken its message for: `some true` for a backend's. -/
def HandlerPc.direction : HandlerPc → Option Bool
  | .start => none
  | .backendResponse | .respond _ => some true
  | .clientRequest | .allocate _ | .record _ _ _ | .forward _ _ => some false

/-- A handler's step: it returns, or goes on in the direction that it found at its start. -/
structure HandlerMoves (w : World) (i : Nat) (h : Handler) (w' : World) : Prop where
  tables : w.TablesKept w'
  conns : w'.conns = w.conns
  handlers : w'.handlers = w.handlers.eraseIdx i ∧ h.pc ≠ .start ∨
    ∃ pc, w'.handlers = w.handlers.set i { h with pc := pc } ∧
      pc.direction = some (h.pc.direction.getD (w.isBackendFd h.conn))

theorem handlerStep_moves (w : World) (i : Nat) (h : Handler) :
    HandlerMoves w i h (w.handlerStep i h) := by
  -- only pongs and picks write to an entry
  have hsame : ∀ {w'}, w'.backends = w.backends → w'.backendFds = w.backendFds →
      w'.adding = w.adding → w'.inserting = w.inserting → w'.removing = w.removing →
      w.TablesKept w' := fun h₁ h₂ h₃ h₄ h₅ => ⟨by rw [h₁], h₂, h₃, h₄, h₅⟩
  have hstep := w.handlerStep_cases i h
  generalize w.handlerStep i h = w' at hstep ⊢
  cases hstep with
  -- the direction is found once, at the start
  | fromBackend hpc hfd =>
    exact ⟨hsame rfl rfl rfl rfl rfl, rfl, Or.inr ⟨.backendResponse, rfl, by rw [hpc, hfd]; rfl⟩⟩
  | fromClient hpc hfd =>
    exact ⟨hsame rfl rfl rfl rfl rfl, rfl, Or.inr ⟨.clientRequest, rfl, by rw [hpc, hfd]; rfl⟩⟩
  | pong hpc htype =>
    obtain ⟨h₁, h₂, h₃, h₄, h₅⟩ := World.tablesKept_pong w h.conn
    exact ⟨⟨h₁, h₂, h₃, h₄, h₅⟩, rfl, Or.inl ⟨rfl, by simp [hpc]⟩⟩
  | found req hpc htype hk =>
    exact ⟨hsame rfl rfl rfl rfl rfl, rfl, Or.inr ⟨.respond _, rfl, by rw [hpc]; rfl⟩⟩
  | unknown hpc htype hk =>
    exact ⟨hsame rfl rfl rfl rfl rfl, rfl, Or.inl ⟨rfl, by simp [hpc]⟩⟩
  | delivered req hpc halive =>
    exact ⟨hsame rfl rfl rfl rfl rfl, rfl, Or.inl ⟨rfl, by simp [hpc]⟩⟩
  | dropped req hpc halive =>
    exact ⟨hsame rfl rfl rfl rfl rfl, rfl, Or.inl ⟨rfl, by simp [hpc]⟩⟩
  | picked rr bs backend hpc hpick =>
    have hkept := w.tablesKept_pickBackend
    rw [hpick] at hkept
    obtain ⟨h₁, h₂, h₃, h₄, h₅⟩ := hkept
    exact ⟨⟨h₁, h₂, h₃, h₄, h₅⟩, rfl, Or.inr ⟨.allocate backend, rfl, by rw [hpc]; rfl⟩⟩
  | noBackend rr bs hpc hpick =>
    have hkept := w.tablesKept_pickBackend
    rw [hpick] at hkept
    obtain ⟨h₁, h₂, h₃, h₄, h₅⟩ := hkept
    exact ⟨⟨h₁, h₂, h₃, h₄, h₅⟩, rfl, Or.inl ⟨rfl, by simp [hpc]⟩⟩
  | allocated backend hpc =>
    exact ⟨hsame rfl rfl rfl rfl rfl, rfl, Or.inr ⟨.record _ _ _, rfl, by rw [hpc]; rfl⟩⟩
  | recorded backend newId request hpc =>
    exact ⟨hsame rfl rfl rfl rfl rfl, rfl, Or.inr ⟨.forward _ _, rfl, by rw [hpc]; rfl⟩⟩
  | forwarded backend newId hpc =>
    exact ⟨hsame rfl rfl rfl rfl rfl, rfl, Or.inl ⟨rfl, by simp [hpc]⟩⟩

/-- Whoever is in `handlers` after the step was there before it, on the same connection. -/
theorem HandlerMoves.mem {w w' : World} {i : Nat} {h x : Handler} (hm : HandlerMoves w i h w')
    (hh : w.handlers[i]? = some h) (hx : x ∈ w'.handlers) : ∃ y ∈ w.handlers, y.conn = x.conn := by
  rcases hm.handlers with ⟨herase, -⟩ | ⟨pc, hset, -⟩
  · rw [herase] at hx
    exact ⟨x, List.mem_of_mem_eraseIdx hx, rfl⟩
  -- the handler at `i` has moved on, the others are as they were
  · rw [hset] at hx
    rcases List.mem_or_eq_of_mem_set hx with hx | rfl
    · exact ⟨x, hx, rfl⟩
    · exact ⟨h, List.mem_of_getElem? hh, rfl⟩

/-- What the clients and the other threads do to connections and handlers. -/
inductive Elsewhere (w w' : World) : Act → Prop
  | accept {fd : Int} : (∀ x ∈ w.conns, x.isOpen = true → x.fd ≠ fd) →
      w'.conns = w.conns ++ [⟨fd, false, true, true⟩] → w'.handlers = w.handlers →
      Elsewhere w w' (.accept fd)
  | closeFd {c : ConnId} : w'.conns = (w.conns.modify c fun s => { s with isOpen := false }) →
      w'.handlers = w.handlers → Elsewhere w w' (.closeFd c)
  | destroy {c : ConnId} : w.held c = false →
      w'.conns = (w.conns.modify c fun s => { s with alive := false, isOpen := false }) →
      w'.handlers = w.handlers → Elsewhere w w' (.destroy c)
  | receive {c : ConnId} {msg : MyMessage} : w'.conns = w.conns →
      w'.handlers = w.handlers ++ [⟨c, msg, .start⟩] → Elsewhere w w' (.receive c msg)
  | handler {i : Nat} {h : Handler} : w.handlers[i]? = some h → HandlerMoves w i h w' →
      Elsewhere w w' (.handler i)
  | other {a : Act} : (∀ i, a ≠ .handler i) → w'.conns = w.conns → w'.handlers = w.handlers →
      Elsewhere w w' a

/-- They leave the tables alone. -/
theorem elsewhere_of_step {s : Supervised} {a : Act} {w : World} (ha : s.allows a = true)
    (h : s.gateway.step a = some w) : s.gateway.TablesKept w ∧ Elsewhere s.gateway w a := by
  cases a with
  | accept fd =>
    simp only [World.step, World.newConn] at h
    split_ifs at h with hfree
    cases h
    refine ⟨⟨rfl, rfl, rfl, rfl, rfl⟩, .accept (fun x hx hopen hfd => ?_) rfl rfl⟩
    exact hfree (List.any_eq_true.mpr ⟨x, hx, by simp [hopen, hfd]⟩)
  | closeFd c =>
    cases h
    exact ⟨⟨rfl, rfl, rfl, rfl, rfl⟩, .closeFd rfl rfl⟩
  | destroy c =>
    simp only [World.step] at h
    split_ifs at h with hheld
    cases h
    exact ⟨⟨rfl, rfl, rfl, rfl, rfl⟩, .destroy (by simpa using hheld) rfl rfl⟩
  | receive c msg =>
    simp only [World.step] at h
    split_ifs at h
    cases h
    exact ⟨⟨rfl, rfl, rfl, rfl, rfl⟩, .receive rfl rfl⟩
  | handler i =>
    obtain ⟨x, hx, rfl⟩ := Option.map_eq_some_iff.mp h
    have hmoves := handlerStep_moves s.gateway i x
    exact ⟨hmoves.tables, .handler hx hmoves⟩
  -- a health check changes `is_healthy` and nothing else of an entry
  | healthPass =>
    cases h
    refine ⟨⟨?_, rfl, rfl, rfl, rfl⟩, .other (by simp) rfl rfl⟩
    rw [List.map_map]
    refine List.map_congr_left fun e _ => ?_
    simp only [Function.comp, BackendEntry.check]
    split_ifs <;> rfl
  | cleanupBegin =>
    simp only [World.step] at h
    split_ifs at h
    cases h
    exact ⟨⟨rfl, rfl, rfl, rfl, rfl⟩, .other (by simp) rfl rfl⟩
  | cleanupCollect =>
    obtain ⟨now, -, rfl⟩ := Option.map_eq_some_iff.mp h
    exact ⟨⟨rfl, rfl, rfl, rfl, rfl⟩, .other (by simp) rfl rfl⟩
  | cleanupSend i =>
    obtain ⟨t, -, rfl⟩ := Option.map_eq_some_iff.mp h
    exact ⟨⟨rfl, rfl, rfl, rfl, rfl⟩, .other (by simp) rfl rfl⟩
  | tick elapsed =>
    cases h
    exact ⟨⟨rfl, rfl, rfl, rfl, rfl⟩, .other (by simp) rfl rfl⟩
  -- these are steps of the monitor and of the main loop's callbacks
  | connect addr fd => simp [Supervised.allows] at ha
  | addBackend => simp [Supervised.allows] at ha
  | insertFd => simp [Supervised.allows] at ha
  | removeBackends expected => simp [Supervised.allows] at ha
  | eraseFd => simp [Supervised.allows] at ha

/-! ## §2 The steps that change them -/

namespace World

theorem step_connect {w w' : World} {addr : String} {fd : Int}
    (h : w.step (.connect addr fd) = some w') :
    (∀ x ∈ w.conns, x.isOpen = true → x.fd ≠ fd) ∧
      w' = { w with
        conns := w.conns ++ [⟨fd, true, true, true⟩]
        adding := w.adding ++ [(addr, w.conns.length)] } := by
  obtain ⟨v, hv, rfl⟩ := Option.map_eq_some_iff.mp h
  unfold newConn at hv
  split_ifs at hv with hfree
  cases hv
  refine ⟨fun x hx hopen hfd => ?_, rfl⟩
  exact hfree (List.any_eq_true.mpr ⟨x, hx, by simp [hopen, hfd]⟩)

theorem step_addBackend {w w' : World} (h : w.step .addBackend = some w') :
    ∃ addr c rest, w.adding = (addr, c) :: rest ∧
      w' = { w with
        adding := rest, inserting := w.inserting ++ [c]
        backends := w.backends ++ [⟨addr, c, 0, true, 0⟩] } := by
  simp only [step] at h
  split at h <;> cases h
  exact ⟨_, _, _, ‹_›, rfl⟩

theorem step_insertFd {w w' : World} (h : w.step .insertFd = some w') :
    ∃ c rest, w.inserting = c :: rest ∧
      w' = { w with inserting := rest, backendFds := (w.fd c).toList ++ w.backendFds } := by
  simp only [step] at h
  split at h <;> cases h
  exact ⟨_, _, ‹_›, rfl⟩

theorem step_eraseFd {w w' : World} (h : w.step .eraseFd = some w') :
    ∃ c rest, w.removing = c :: rest ∧
      w' = { w with
        removing := rest, backendFds := w.backendFds.filter fun fd => some fd ≠ w.fd c } := by
  simp only [step] at h
  split at h <;> cases h
  exact ⟨_, _, ‹_›, rfl⟩

/-- The main thread adds a backend, with nothing else going on. -/
theorem run_startBackend {w w' : World} {addr : String} {fd : Int} (hadding : w.adding = [])
    (hinserting : w.inserting = [])
    (h : run World.step w [.connect addr fd, .addBackend, .insertFd] = some w') :
    (∀ x ∈ w.conns, x.isOpen = true → x.fd ≠ fd) ∧
      w' = { w with
        conns := w.conns ++ [⟨fd, true, true, true⟩]
        backends := w.backends ++ [⟨addr, w.conns.length, 0, true, 0⟩]
        backendFds := fd :: w.backendFds } := by
  obtain ⟨u, hu, h⟩ := run_cons_eq_some.mp h
  obtain ⟨v, hv, h⟩ := run_cons_eq_some.mp h
  obtain ⟨t, ht, h⟩ := run_cons_eq_some.mp h
  cases h
  obtain ⟨hfree, rfl⟩ := step_connect hu
  obtain ⟨addr', c, rest, hadd, rfl⟩ := step_addBackend hv
  obtain ⟨c', rest', hins, rfl⟩ := step_insertFd ht
  -- the addition that runs is the one just posted, and so is the insertion
  simp only [hadding, List.nil_append, List.cons.injEq, Prod.mk.injEq] at hadd
  obtain ⟨⟨rfl, rfl⟩, rfl⟩ := hadd
  simp only [hinserting, List.nil_append, List.cons.injEq] at hins
  obtain ⟨rfl, rfl⟩ := hins
  exact ⟨hfree, by simp [World.fd, hadding, hinserting]⟩

/-! ## §3 Descriptors -/

/-- Descriptors that are open have different numbers, and the descriptor of an outbound connection
is open as long as the object is there. -/
structure ConnInv (w : World) : Prop where
  distinct : ∀ (c c' : ConnId) (x x' : Conn), w.conns[c]? = some x → w.conns[c']? = some x' →
    x.isOpen = true → x'.isOpen = true → x.fd = x'.fd → c = c'
  outbound : ∀ (c : ConnId) (x : Conn), w.conns[c]? = some x → x.outbound = true →
    x.alive = true → x.isOpen = true

theorem ConnInv.init : ConnInv World.init := by
  constructor <;> simp [World.init]

/-- The last element of a list that grew by one. -/
private theorem getElem?_concat {l : List Conn} {x y : Conn} {c : ConnId}
    (h : (l ++ [x])[c]? = some y) : l[c]? = some y ∨ c = l.length ∧ y = x := by
  rw [List.getElem?_append] at h
  split_ifs at h with hlt
  · exact Or.inl h
  · obtain ⟨hlast, heq⟩ : c - l.length = 0 ∧ x = y := by simpa [List.getElem?_singleton] using h
    exact Or.inr ⟨le_antisymm (Nat.sub_eq_zero_iff_le.mp hlast) (not_lt.mp hlt), heq.symm⟩

theorem ConnInv.newConn {w w' : World} {fd : Int} {out : Bool} (h : ConnInv w)
    (hfree : ∀ x ∈ w.conns, x.isOpen = true → x.fd ≠ fd)
    (hconns : w'.conns = w.conns ++ [⟨fd, out, true, true⟩]) : ConnInv w' := by
  constructor
  · intro c c' x x' hx hx' hopen hopen' hfd
    rw [hconns] at hx hx'
    rcases getElem?_concat hx with hx | ⟨rfl, rfl⟩ <;>
      rcases getElem?_concat hx' with hx' | ⟨rfl, rfl⟩
    · exact h.distinct c c' x x' hx hx' hopen hopen' hfd
    -- the kernel does not give out a number that is open
    · exact absurd hfd (hfree x (List.mem_of_getElem? hx) hopen)
    · exact absurd hfd.symm (hfree x' (List.mem_of_getElem? hx') hopen')
    · rfl
  · intro c x hx
    rw [hconns] at hx
    rcases getElem?_concat hx with hx | ⟨rfl, rfl⟩
    · exact h.outbound c x hx
    · exact fun _ _ => rfl

theorem ConnInv.modify {w w' : World} {c₀ : ConnId} {f : Conn → Conn} (h : ConnInv w)
    (hconns : w'.conns = w.conns.modify c₀ f) (hfd : ∀ x, (f x).fd = x.fd)
    (hopen : ∀ x, (f x).isOpen = true → x.isOpen = true)
    (hout : ∀ x, w.conns[c₀]? = some x → (f x).outbound = true → (f x).alive = true →
      (f x).isOpen = true) : ConnInv w' := by
  -- what a connection was before
  have hback : ∀ c y, w'.conns[c]? = some y → ∃ x, w.conns[c]? = some x ∧
      y.fd = x.fd ∧ (y.isOpen = true → x.isOpen = true) ∧ (y = x ∨ c = c₀ ∧ y = f x) := by
    intro c y hy
    rw [hconns, List.getElem?_modify] at hy
    obtain ⟨x, hx, rfl⟩ := Option.map_eq_some_iff.mp hy
    refine ⟨x, hx, ?_⟩
    split_ifs with hc
    · exact ⟨hfd x, hopen x, Or.inr ⟨hc.symm, rfl⟩⟩
    · exact ⟨rfl, id, Or.inl rfl⟩
  constructor
  · intro c c' y y' hy hy' hyopen hyopen' hyfd
    obtain ⟨x, hx, hxfd, hxopen, -⟩ := hback c y hy
    obtain ⟨x', hx', hxfd', hxopen', -⟩ := hback c' y' hy'
    exact h.distinct c c' x x' hx hx' (hxopen hyopen) (hxopen' hyopen')
      (by rw [← hxfd, ← hxfd', hyfd])
  · intro c y hy hyout hyalive
    obtain ⟨x, hx, -, -, rfl | ⟨rfl, rfl⟩⟩ := hback c y hy
    · exact h.outbound c y hx hyout hyalive
    · exact hout x hx hyout hyalive

theorem alive_of_conns {w w' : World} (h : w'.conns = w.conns) (c : ConnId) :
    w'.alive c = w.alive c := by
  simp only [World.alive, h]

theorem outbound_of_conns {w w' : World} (h : w'.conns = w.conns) (c : ConnId) :
    w'.outbound c = w.outbound c := by
  simp only [World.outbound, h]

theorem isOpen_of_conns {w w' : World} (h : w'.conns = w.conns) (c : ConnId) :
    w'.isOpen c = w.isOpen c := by
  simp only [World.isOpen, h]

/-- Everything known of a connection is in its record. -/
theorem same_of_getElem? {w w' : World} {c : ConnId} (h : w'.conns[c]? = w.conns[c]?) :
    w'.alive c = w.alive c ∧ w'.outbound c = w.outbound c ∧ w'.isOpen c = w.isOpen c ∧
      w'.fd c = w.fd c := by
  simp [World.alive, World.outbound, World.isOpen, World.fd, h]

theorem lt_of_outbound {w : World} {c : ConnId} (h : w.outbound c = true) :
    c < w.conns.length := by
  by_contra hge
  simp [World.outbound, List.getElem?_eq_none (Nat.le_of_not_lt hge)] at h

theorem lt_of_isOpen {w : World} {c : ConnId} (h : w.isOpen c = true) : c < w.conns.length := by
  by_contra hge
  simp [World.isOpen, List.getElem?_eq_none (Nat.le_of_not_lt hge)] at h

/-- The old connections after a new one is made. -/
theorem getElem?_of_newConn {w w' : World} {x : Conn} (h : w'.conns = w.conns ++ [x]) {c : ConnId}
    (hc : c < w.conns.length) : w'.conns[c]? = w.conns[c]? := by
  rw [h, List.getElem?_append_left hc]

end World

/-! ## §4 The invariant -/

/-- The connection that a posted callback closes. -/
def Posted.closing : Posted → Option ConnId
  | .close c => some c
  | .add => none

namespace Supervised

/-- The connections to backends that somebody holds and nobody has unregistered. -/
def live (w : World) : List ConnId := w.entryConns ++ w.adding.map Prod.snd ++ w.removing

/-- The connections that are unregistered and have not been closed. -/
def closing (s : Supervised) : List ConnId :=
  s.monitor.unregistered ++ s.posted.filterMap Posted.closing

/-- The connections to backends on their way from `m_connect` to `close`. -/
def owned (s : Supervised) : List ConnId := live s.gateway ++ s.closing

structure Inv (s : Supervised) : Prop where
  conns : s.gateway.ConnInv
  nodup : s.owned.Nodup
  outbound : ∀ c ∈ s.owned, s.gateway.outbound c = true
  alive : ∀ c ∈ live s.gateway, s.gateway.alive c = true
  handlers : ∀ h ∈ s.gateway.handlers, s.gateway.isOpen h.conn = true
  /-- during an addition the main loop handles no message -/
  busy : ∀ h ∈ s.gateway.handlers, s.gateway.outbound h.conn = true → s.gateway.inserting = []
  disconnected : ∀ c ∈ s.disconnected, s.gateway.outbound c = true ∧
    c ∉ s.gateway.adding.map Prod.snd
  adds : s.posted.count .add = s.gateway.adding.length
  starting : s.monitor = .starting →
    s.gateway.handlers = [] ∧ s.gateway.adding = [] ∧ s.gateway.inserting = []

theorem Inv.init : Inv init := by
  refine ⟨.init, ?_, ?_, ?_, ?_, ?_, ?_, rfl, fun _ => ⟨rfl, rfl, rfl⟩⟩ <;>
    simp [Supervised.init, owned, live, closing, World.entryConns, World.init,
      MonitorPc.unregistered]

theorem not_mem_handlers_of_mainIdle {s : Supervised} (hidle : s.mainIdle = true) {h : Handler}
    (hh : h ∈ s.gateway.handlers) : s.gateway.outbound h.conn = false := by
  have hall := (Bool.and_eq_true_iff.mp hidle).2
  simpa using List.all_eq_true.mp hall h hh

theorem inserting_of_mainIdle {s : Supervised} (hidle : s.mainIdle = true) :
    s.gateway.inserting = [] :=
  List.isEmpty_iff.mp (Bool.and_eq_true_iff.mp hidle).1

/-- The tables change, connections and handlers do not. -/
private theorem Inv.rearrange {s t : Supervised} (h : Inv s)
    (hconns : t.gateway.conns = s.gateway.conns)
    (hhandlers : t.gateway.handlers = s.gateway.handlers)
    (rest : List ConnId) (howned : s.owned.Perm (t.owned ++ rest))
    (hlive : ∀ c ∈ live t.gateway, c ∈ live s.gateway)
    (hbusy : ∀ x ∈ s.gateway.handlers, s.gateway.outbound x.conn = true → t.gateway.inserting = [])
    (hdisconnected : ∀ c ∈ t.disconnected, s.gateway.outbound c = true ∧
      c ∉ t.gateway.adding.map Prod.snd)
    (hadds : t.posted.count .add = t.gateway.adding.length)
    (hstarting : t.monitor ≠ .starting) : Inv t := by
  have hout := World.outbound_of_conns hconns
  constructor
  · exact ⟨hconns ▸ h.conns.distinct, hconns ▸ h.conns.outbound⟩
  · exact (List.nodup_append.mp (howned.nodup_iff.mp h.nodup)).1
  · intro c hc
    rw [hout]
    exact h.outbound c (howned.mem_iff.mpr (List.mem_append_left _ hc))
  · intro c hc
    rw [World.alive_of_conns hconns]
    exact h.alive c (hlive c hc)
  · rw [hhandlers]
    intro x hx
    rw [World.isOpen_of_conns hconns]
    exact h.handlers x hx
  · rw [hhandlers]
    intro x hx hxout
    rw [hout] at hxout
    exact hbusy x hx hxout
  · intro c hc
    rw [hout]
    exact hdisconnected c hc
  · exact hadds
  · exact fun hst => absurd hst hstarting

/-- A connection to a backend is made. -/
private theorem Inv.newConn {s t : Supervised} (h : Inv s) {fd : Int}
    (hfree : ∀ x ∈ s.gateway.conns, x.isOpen = true → x.fd ≠ fd)
    (hconns : t.gateway.conns = s.gateway.conns ++ [⟨fd, true, true, true⟩])
    (hhandlers : t.gateway.handlers = s.gateway.handlers)
    (hinserting : t.gateway.inserting = s.gateway.inserting)
    (hlive : (live t.gateway).Perm (s.gateway.conns.length :: live s.gateway))
    (hclosing : t.closing = s.closing)
    (hadding : ∀ c ∈ t.gateway.adding.map Prod.snd,
      c = s.gateway.conns.length ∨ c ∈ s.gateway.adding.map Prod.snd)
    (hdisconnected : t.disconnected = s.disconnected)
    (hadds : t.posted.count .add = t.gateway.adding.length)
    (hstarting : t.monitor = .starting →
      t.gateway.handlers = [] ∧ t.gateway.adding = [] ∧ t.gateway.inserting = []) : Inv t := by
  -- the new connection, and the old ones
  have hnew : ∀ c, c = s.gateway.conns.length →
      t.gateway.outbound c = true ∧ t.gateway.alive c = true := by
    rintro c rfl
    simp [World.outbound, World.alive, hconns]
  have hold : ∀ {c}, c < s.gateway.conns.length → t.gateway.conns[c]? = s.gateway.conns[c]? :=
    fun hc => World.getElem?_of_newConn hconns hc
  have howned : t.owned.Perm (s.gateway.conns.length :: s.owned) := by
    rw [owned, owned, hclosing]
    exact hlive.append_right _
  have hout : ∀ {c}, s.gateway.outbound c = true → t.gateway.outbound c = true := fun {c} hc => by
    rw [(World.same_of_getElem? (hold (World.lt_of_outbound hc))).2.1, hc]
  constructor
  · exact h.conns.newConn hfree hconns
  -- a connection that somebody owns is older than the new one
  · refine howned.nodup_iff.mpr (List.nodup_cons.mpr ⟨fun hmem => ?_, h.nodup⟩)
    exact lt_irrefl _ (World.lt_of_outbound (h.outbound _ hmem))
  · intro c hc
    rcases List.mem_cons.mp (howned.mem_iff.mp hc) with rfl | hc
    · exact (hnew _ rfl).1
    · exact hout (h.outbound c hc)
  · intro c hc
    rcases List.mem_cons.mp (hlive.mem_iff.mp hc) with rfl | hc
    · exact (hnew _ rfl).2
    · have hlt := World.lt_of_outbound (h.outbound c (List.mem_append_left _ hc))
      rw [(World.same_of_getElem? (hold hlt)).1]
      exact h.alive c hc
  · rw [hhandlers]
    intro x hx
    have hopen := h.handlers x hx
    rw [(World.same_of_getElem? (hold (World.lt_of_isOpen hopen))).2.2.1]
    exact hopen
  · rw [hhandlers, hinserting]
    intro x hx hxout
    rw [(World.same_of_getElem? (hold (World.lt_of_isOpen (h.handlers x hx)))).2.1] at hxout
    exact h.busy x hx hxout
  · rw [hdisconnected]
    intro c hc
    obtain ⟨hcout, hcadding⟩ := h.disconnected c hc
    refine ⟨hout hcout, fun hmem => ?_⟩
    rcases hadding c hmem with rfl | hmem
    · exact lt_irrefl _ (World.lt_of_outbound hcout)
    · exact hcadding hmem
  · exact hadds
  · exact hstarting

theorem ne_starting_of_started {m : MonitorPc} (h : m.started = true) : m ≠ .starting := by
  rintro rfl
  cases h

/-- A change of one connection that keeps its number and its direction. -/
private theorem getElem?_modify_of_ne {w w' : World} {c c₀ : ConnId} {f : Conn → Conn}
    (hconns : w'.conns = w.conns.modify c₀ f) (hne : c ≠ c₀) : w'.conns[c]? = w.conns[c]? := by
  rw [hconns, List.getElem?_modify_ne _ _ hne.symm]

private theorem identity_modify {w w' : World} {c₀ : ConnId} {f : Conn → Conn}
    (hconns : w'.conns = w.conns.modify c₀ f)
    (hf : ∀ x, (f x).outbound = x.outbound ∧ (f x).fd = x.fd) (c : ConnId) :
    w'.outbound c = w.outbound c ∧ w'.fd c = w.fd c := by
  simp only [World.outbound, World.fd, hconns, List.getElem?_modify]
  cases w.conns[c]? with
  | none => exact ⟨rfl, rfl⟩
  | some x =>
    by_cases hc : c₀ = c
    · simpa [hc] using hf x
    · simp [hc]

/-- No connection changes its direction or its number. -/
theorem identity_of_elsewhere {w w' : World} {a : Gateway.Act} (h : Elsewhere w w' a) {c : ConnId}
    (hc : c < w.conns.length) : w'.outbound c = w.outbound c ∧ w'.fd c = w.fd c := by
  have hsame : w'.conns = w.conns → w'.outbound c = w.outbound c ∧ w'.fd c = w.fd c := by
    intro hconns
    simp only [World.outbound, World.fd, hconns]
    exact ⟨trivial, trivial⟩
  cases h with
  | accept _ hconns _ =>
    have hold := World.same_of_getElem? (World.getElem?_of_newConn hconns hc)
    exact ⟨hold.2.1, hold.2.2.2⟩
  | closeFd hconns _ => exact identity_modify hconns (fun _ => ⟨rfl, rfl⟩) c
  | destroy _ hconns _ => exact identity_modify hconns (fun _ => ⟨rfl, rfl⟩) c
  | receive hconns _ => exact hsame hconns
  | handler _ hmoves => exact hsame hmoves.conns
  | other _ hconns _ => exact hsame hconns

theorem held_of_mem_live {w : World} {c : ConnId} (h : c ∈ live w) : w.held c = true := by
  simp only [live, World.entryConns, List.mem_append, List.mem_map, or_assoc] at h
  -- in `backends`, in a posted addition, or on the list of the pass
  obtain ⟨e, he, rfl⟩ | ⟨e, he, rfl⟩ | hc := h
  · have hany : w.backends.any (fun e' => e'.conn = e.conn) = true :=
      List.any_eq_true.mpr ⟨e, he, by simp⟩
    simp [World.held, hany]
  · have hany : w.adding.any (fun e' => e'.2 = e.2) = true :=
      List.any_eq_true.mpr ⟨e, he, by simp⟩
    simp [World.held, hany]
  · simp [World.held, hc]

theorem held_of_mem_handlers {w : World} {h : Handler} (hh : h ∈ w.handlers) :
    w.held h.conn = true := by
  have hany : w.handlers.any (fun h' => h'.conn = h.conn) = true :=
    List.any_eq_true.mpr ⟨h, hh, by simp⟩
  simp [World.held, hany]

/-- The connections in the tables and those of running handlers stay as they are. -/
private theorem Inv.status {s : Supervised} {a : Gateway.Act} {w : World} (h : Inv s)
    (hallows : s.allows a = true) (heffect : Elsewhere s.gateway w a) {c : ConnId}
    (hc : c ∈ live s.gateway ∨ ∃ x ∈ s.gateway.handlers, x.conn = c) :
    w.alive c = s.gateway.alive c ∧ w.isOpen c = s.gateway.isOpen c := by
  have hlt : c < s.gateway.conns.length := by
    rcases hc with hc | ⟨x, hx, rfl⟩
    · exact World.lt_of_outbound (h.outbound c (List.mem_append_left _ hc))
    · exact World.lt_of_isOpen (h.handlers x hx)
  have hsame : w.conns[c]? = s.gateway.conns[c]? := by
    cases heffect with
    | accept _ hconns _ => exact World.getElem?_of_newConn hconns hlt
    | receive hconns _ => rw [hconns]
    | handler _ hmoves => rw [hmoves.conns]
    | other _ hconns _ => rw [hconns]
    | closeFd hconns _ =>
      -- only an accepted connection without a handler is closed
      simp only [Supervised.allows, Bool.and_eq_true, Bool.not_eq_true'] at hallows
      obtain ⟨⟨hclient, -⟩, hnone⟩ := hallows
      refine getElem?_modify_of_ne hconns ?_
      rintro rfl
      rcases hc with hc | ⟨x, hx, rfl⟩
      · have hout := h.outbound _ (List.mem_append_left _ hc)
        rw [hclient] at hout
        cases hout
      · simpa using List.all_eq_true.mp hnone x hx
    -- nothing that is held is destroyed
    | destroy hheld hconns _ =>
      refine getElem?_modify_of_ne hconns ?_
      rintro rfl
      rcases hc with hc | ⟨x, hx, rfl⟩
      · rw [held_of_mem_live hc] at hheld
        cases hheld
      · rw [held_of_mem_handlers hx] at hheld
        cases hheld
  have hrecord := World.same_of_getElem? hsame
  exact ⟨hrecord.1, hrecord.2.2.1⟩

/-- A running handler was there before, or is the one that has just been started. -/
private theorem handlers_of_elsewhere {w w' : World} {a : Gateway.Act} (h : Elsewhere w w' a)
    {x : Handler} (hx : x ∈ w'.handlers) :
    (∃ y ∈ w.handlers, y.conn = x.conn) ∨ ∃ msg, a = .receive x.conn msg ∧ w'.conns = w.conns := by
  cases h with
  | handler hi hmoves => exact Or.inl (hmoves.mem hi hx)
  | @receive c msg hconns hhandlers =>
    rw [hhandlers] at hx
    rcases List.mem_append.mp hx with hx | hx
    · exact Or.inl ⟨x, hx, rfl⟩
    · rw [List.mem_singleton.mp hx]
      exact Or.inr ⟨msg, rfl, hconns⟩
  | accept _ _ hhandlers => exact Or.inl ⟨x, hhandlers ▸ hx, rfl⟩
  | closeFd _ hhandlers => exact Or.inl ⟨x, hhandlers ▸ hx, rfl⟩
  | destroy _ _ hhandlers => exact Or.inl ⟨x, hhandlers ▸ hx, rfl⟩
  | other _ _ hhandlers => exact Or.inl ⟨x, hhandlers ▸ hx, rfl⟩

private theorem ConnInv.elsewhere {s : Supervised} {a : Gateway.Act} {w : World}
    (h : s.gateway.ConnInv) (hallows : s.allows a = true) (heffect : Elsewhere s.gateway w a) :
    w.ConnInv := by
  cases heffect with
  | accept hfree hconns _ => exact h.newConn hfree hconns
  | @closeFd c hconns _ =>
    simp only [Supervised.allows, Bool.and_eq_true, Bool.not_eq_true'] at hallows
    obtain ⟨⟨hclient, -⟩, -⟩ := hallows
    refine h.modify hconns (fun _ => rfl) (by simp) fun x hx hxout => ?_
    simp only [World.outbound, hx, Option.map_some, Option.getD_some] at hclient
    rw [hclient] at hxout
    cases hxout
  | destroy _ hconns _ => exact h.modify hconns (fun _ => rfl) (by simp) (by simp)
  | receive hconns _ => exact ⟨hconns ▸ h.distinct, hconns ▸ h.outbound⟩
  | handler _ hmoves => exact ⟨hmoves.conns ▸ h.distinct, hmoves.conns ▸ h.outbound⟩
  | other _ hconns _ => exact ⟨hconns ▸ h.distinct, hconns ▸ h.outbound⟩

/-- The clients and the other threads keep the invariant. -/
private theorem Inv.gateway {s : Supervised} {a : Gateway.Act} {w : World} (h : Inv s)
    (hstarted : s.monitor.started = true) (hallows : s.allows a = true)
    (hstep : s.gateway.step a = some w) : Inv { s with gateway := w } := by
  obtain ⟨htables, heffect⟩ := elsewhere_of_step hallows hstep
  have hlive : live w = live s.gateway := by
    simp only [live, htables.entryConns, htables.adding, htables.removing]
  have howned : ({ s with gateway := w } : Supervised).owned = s.owned := by
    simp only [owned, hlive, closing]
  have hout : ∀ c, s.gateway.outbound c = true → w.outbound c = true := fun c hc => by
    rw [(identity_of_elsewhere heffect (World.lt_of_outbound hc)).1, hc]
  -- a handler's connection is open when it is started
  have hreceive : ∀ {c msg}, a = .receive c msg → s.gateway.isOpen c = true ∧
      (s.gateway.outbound c = true → s.gateway.inserting = []) := by
    rintro c msg rfl
    simp only [Supervised.allows, Bool.and_eq_true, Bool.or_eq_true, Bool.not_eq_true'] at hallows
    refine ⟨hallows.1.1, fun hc => ?_⟩
    rcases hallows.2 with hclient | ⟨hidle, -⟩
    · rw [hclient] at hc
      cases hc
    · exact inserting_of_mainIdle hidle
  constructor
  · exact ConnInv.elsewhere h.conns hallows heffect
  · rw [howned]
    exact h.nodup
  · rw [howned]
    exact fun c hc => hout c (h.outbound c hc)
  · show ∀ c ∈ live w, w.alive c = true
    rw [hlive]
    intro c hc
    rw [(h.status hallows heffect (Or.inl hc)).1, h.alive c hc]
  · show ∀ x ∈ w.handlers, w.isOpen x.conn = true
    intro x hx
    obtain ⟨y, hy, hsame⟩ | ⟨msg, ha, hconns⟩ := handlers_of_elsewhere heffect hx
    · rw [← hsame, (h.status hallows heffect (Or.inr ⟨y, hy, rfl⟩)).2, h.handlers y hy]
    · rw [World.isOpen_of_conns hconns, (hreceive ha).1]
  · show ∀ x ∈ w.handlers, w.outbound x.conn = true → w.inserting = []
    intro x hx hxout
    rw [htables.inserting]
    obtain ⟨y, hy, hsame⟩ | ⟨msg, ha, hconns⟩ := handlers_of_elsewhere heffect hx
    · have hlt := World.lt_of_isOpen (h.handlers y hy)
      rw [← hsame, (identity_of_elsewhere heffect hlt).1] at hxout
      exact h.busy y hy hxout
    · rw [World.outbound_of_conns hconns] at hxout
      exact (hreceive ha).2 hxout
  · show ∀ c ∈ s.disconnected, w.outbound c = true ∧ c ∉ w.adding.map Prod.snd
    rw [htables.adding]
    exact fun c hc => ⟨hout c (h.disconnected c hc).1, (h.disconnected c hc).2⟩
  · show s.posted.count .add = w.adding.length
    rw [htables.adding]
    exact h.adds
  · exact fun hst => absurd hst (ne_starting_of_started hstarted)

theorem perm_live_remove (w : World) (expected : List String) :
    ((w.backends.filter fun e => expected.contains e.addr).map BackendEntry.conn ++
      w.adding.map Prod.snd ++ (w.removing ++
        (w.backends.filter fun e => !expected.contains e.addr).map BackendEntry.conn)).Perm
      (live w) := by
  have hsplit := (List.filter_append_perm (fun e => expected.contains e.addr) w.backends).map
    BackendEntry.conn
  rw [List.map_append] at hsplit
  -- the removed entries go from the table to the end of the list
  have hmove : ∀ A B C D : List ConnId, (A ++ B ++ (C ++ D)).Perm (A ++ D ++ B ++ C) := by
    intro A B C D
    rw [List.perm_iff_count]
    intro x
    simp only [List.count_append]
    omega
  refine (hmove _ _ _ _).trans ?_
  exact (hsplit.append_right _).append_right _

/-- The monitor goes on without touching the tables. -/
private theorem Inv.goto {s : Supervised} (h : Inv s) {m : MonitorPc} (toRemove : List ConnId)
    (hm : m.unregistered = s.monitor.unregistered) (hst : m ≠ .starting) :
    Inv { s with monitor := m, toRemove := toRemove } := by
  refine h.rearrange rfl rfl [] ?_ (fun c hc => hc) h.busy h.disconnected h.adds hst
  show s.owned.Perm (live s.gateway ++ (m.unregistered ++ s.posted.filterMap Posted.closing) ++ [])
  rw [hm, List.append_nil]
  rfl

/-- The main loop closes a connection. -/
private theorem Inv.disconnect {s : Supervised} (h : Inv s) {c : ConnId}
    (hout : s.gateway.outbound c = true) (hadding : c ∉ s.gateway.adding.map Prod.snd) :
    Inv (s.disconnect c) := by
  unfold Supervised.disconnect
  split_ifs
  · refine ⟨h.conns, h.nodup, h.outbound, h.alive, h.handlers, h.busy, ?_, h.adds, h.starting⟩
    intro c' hc'
    rcases List.mem_cons.mp hc' with rfl | hc'
    · exact ⟨hout, hadding⟩
    · exact h.disconnected c' hc'
  · exact h

/-- The main loop takes a close off its queue. -/
private theorem Inv.dequeue {s : Supervised} (h : Inv s) {c : ConnId} {rest : List Posted}
    (hposted : s.posted = .close c :: rest) : Inv { s with posted := rest } := by
  have hperm : s.owned.Perm (({ s with posted := rest } : Supervised).owned ++ [c]) := by
    simp only [owned, closing, hposted, Posted.closing, List.filterMap_cons, ← List.append_assoc]
    exact List.perm_middle.trans (List.perm_append_singleton _ _).symm
  refine ⟨h.conns, (List.nodup_append.mp (hperm.nodup_iff.mp h.nodup)).1, fun x hx => ?_, h.alive,
    h.handlers, h.busy, h.disconnected, ?_, h.starting⟩
  · exact h.outbound x (hperm.mem_iff.mpr (List.mem_append_left _ hx))
  · have hadds := h.adds
    rw [hposted] at hadds
    simpa using hadds

/-- Every step keeps the invariant. -/
theorem Inv.step {s t : Supervised} {a : Act} (h : Inv s) (hstep : s.step a = some t) : Inv t := by
  have hbusy := h.busy
  cases step_cases hstep with
  | startBackend hpc hw =>
    obtain ⟨hhandlers, hadding, hinserting⟩ := h.starting hpc
    obtain ⟨hfree, rfl⟩ := World.run_startBackend hadding hinserting hw
    refine h.newConn hfree rfl rfl rfl ?_ rfl (fun c hc => Or.inr hc) rfl h.adds
      fun _ => ⟨hhandlers, hadding, hinserting⟩
    simp [live, World.entryConns]
  | serve hpc => exact h.goto s.toRemove (by rw [hpc]; rfl) (by simp)
  | snapshot hpc => exact h.goto s.toRemove (by rw [hpc]; rfl) (by simp)
  | unregistered hpc _ => exact h.goto s.toRemove (by rw [hpc]; rfl) (by simp)
  | passed hpc => exact h.goto [] (by rw [hpc]; rfl) (by simp)
  | known hpc _ => exact h.goto s.toRemove (by rw [hpc]; rfl) (by simp)
  | unknown hpc _ => exact h.goto s.toRemove (by rw [hpc]; rfl) (by simp)
  | connectFailed hpc => exact h.goto s.toRemove (by rw [hpc]; rfl) (by simp)
  | @remove instances w hpc hw =>
    cases hw
    have hlive := perm_live_remove s.gateway instances
    refine h.rearrange rfl rfl [] ?_ (fun c hc => hlive.mem_iff.mp hc) hbusy h.disconnected h.adds
      (by simp)
    simp only [owned, closing, hpc, MonitorPc.unregistered, List.append_nil]
    exact hlive.symm.append_right _
  | @unregister c instances rest w hpc hremoving hw =>
    obtain ⟨c', rest', heq, rfl⟩ := World.step_eraseFd hw
    rw [hremoving] at heq
    obtain ⟨rfl, rfl⟩ := List.cons.inj heq
    -- from the list of the pass to the monitor's hands
    refine h.rearrange rfl rfl [] ?_ (fun x hx => ?_) hbusy h.disconnected h.adds (by simp)
    · simp only [owned, live, closing, hpc, hremoving, MonitorPc.unregistered, World.entryConns,
        List.append_nil, List.nil_append, List.append_assoc, List.cons_append]
      exact List.Perm.append_left _ (List.Perm.append_left _ List.perm_middle.symm)
    · simp only [live, hremoving, World.entryConns, List.mem_append, List.mem_cons] at hx ⊢
      exact hx.imp_right Or.inr
  | @close c instances hpc =>
    refine h.rearrange rfl rfl [] ?_ (fun x hx => hx) hbusy h.disconnected ?_ (by simp)
    -- from the monitor's hands to the queue of the main loop
    · simp only [owned, closing, hpc, MonitorPc.unregistered, List.filterMap_append,
        List.append_nil, List.nil_append]
      exact List.Perm.append_left _ (List.perm_append_singleton c _).symm
    · simp [h.adds]
  | @connect addr instances fd w hpc hw =>
    obtain ⟨hfree, rfl⟩ := World.step_connect hw
    refine h.newConn hfree rfl rfl rfl ?_ ?_ ?_ rfl ?_ (by simp)
    · simp only [live, World.entryConns, List.map_append, List.map_cons, List.map_nil,
        List.append_assoc, List.singleton_append]
      exact (List.Perm.append_left _ List.perm_middle).trans List.perm_middle
    · simp [closing, hpc, MonitorPc.unregistered, Posted.closing]
    · intro c hc
      rw [List.map_append, List.mem_append] at hc
      exact hc.symm.imp_left List.mem_singleton.mp
    · simp [h.adds]
  | @runClose c rest hidle hposted =>
    -- the connection is in a posted close, so in no posted addition
    have hmem : c ∈ s.closing := by
      simp [closing, hposted, Posted.closing]
    have hadding : c ∉ s.gateway.adding.map Prod.snd := fun hc =>
      (List.nodup_append.mp h.nodup).2.2 c (List.mem_append_left _ (List.mem_append_right _ hc)) c
        hmem rfl
    have hclosed := h.disconnect (h.outbound c (List.mem_append_right _ hmem)) hadding
    exact hclosed.dequeue ((disconnect_posted s c).trans hposted)
  | @runAdd rest w hidle hposted hw =>
    obtain ⟨addr, c, more, hadding, rfl⟩ := World.step_addBackend hw
    have hnone : ∀ x ∈ s.gateway.handlers, s.gateway.outbound x.conn ≠ true := fun x hx hout => by
      rw [not_mem_handlers_of_mainIdle hidle hx] at hout
      cases hout
    -- from the posted addition to the table
    have hlive : live s.gateway =
        (s.gateway.entryConns ++ [c]) ++ more.map Prod.snd ++ s.gateway.removing := by
      simp [live, hadding]
    refine h.rearrange rfl rfl [] ?_ ?_ (fun x hx hout => absurd hout (hnone x hx)) ?_ ?_ ?_
    · simp only [owned, hlive]
      simp only [live, closing, World.entryConns, hposted, List.append_nil, List.map_append]
      exact List.Perm.refl _
    · rw [hlive]
      simp [live, World.entryConns]
    · intro x hx
      obtain ⟨hout, hnot⟩ := h.disconnected x hx
      rw [hadding, List.map_cons] at hnot
      exact ⟨hout, fun hmem => hnot (List.mem_cons_of_mem _ hmem)⟩
    · have hadds := h.adds
      rw [hposted, hadding] at hadds
      simpa using hadds
    · intro hst
      have hnil := (h.starting hst).2.1
      rw [hadding] at hnil
      cases hnil
  | insertFd hw =>
    obtain ⟨c, rest, hinserting, rfl⟩ := World.step_insertFd hw
    refine ⟨⟨h.conns.distinct, h.conns.outbound⟩, h.nodup, h.outbound, h.alive, h.handlers,
      fun x hx hout => ?_, h.disconnected, h.adds, fun hst => ?_⟩
    -- no backend's handler runs while the main loop is in the addition
    · have hnil := hbusy x hx hout
      rw [hinserting] at hnil
      cases hnil
    · have hnil := (h.starting hst).2.2
      rw [hinserting] at hnil
      cases hnil
  | peerClose hout =>
    exact ⟨h.conns, h.nodup, h.outbound, h.alive, h.handlers, h.busy, h.disconnected, h.adds,
      h.starting⟩
  | @handleClose c cause hreg =>
    simp only [registered, Bool.and_eq_true] at hreg
    refine h.disconnect hreg.1.1.1 fun hmem => ?_
    obtain ⟨e, he, rfl⟩ := List.mem_map.mp hmem
    simpa using List.all_eq_true.mp hreg.1.2 e he
  | gateway hstarted hallows hw => exact h.gateway hstarted hallows hw

end Supervised

end EchoNet.Gateway
