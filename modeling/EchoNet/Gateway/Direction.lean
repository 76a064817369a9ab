import EchoNet.Gateway.Backends

/-!
# The Direction of a Message

`business_handler` finds out where a message came from by looking up the descriptor of its
connection in `backend_fds`.  The monitor erases a descriptor before the main loop closes the
connection, so a message of the removed backend that arrives in between is forwarded to another
backend like a client's request.  An entry that is removed while the main loop is adding it
leaves its descriptor in the set, for the next connection with that number.

## Main results

- `isBackendFd_iff`: whose descriptors are in the set;
- `direction_sound_iff`: as long as no entry is removed in the middle of its addition, every message
  is handled in the right direction exactly if no handler starts for an unregistered backend;
- `direction_lost`: a run with either mistake.
-/

namespace EchoNet.Gateway

open EchoNet.Lib EchoNet.Protocol

namespace Supervised

/-! ## §1 The set of descriptors -/

/-- The connections whose descriptors belong in `backend_fds`. -/
def InBackendFds (w : World) (c : ConnId) : Prop :=
  c ∈ w.entryConns ∧ c ∉ w.inserting ∨ c ∈ w.removing

structure FdInv (w : World) : Prop where
  inserting : ∀ c ∈ w.inserting, c ∈ w.entryConns
  /-- the main loop is in one addition at most -/
  single : w.inserting.length ≤ 1
  fds : ∀ fd, fd ∈ w.backendFds ↔ ∃ c, InBackendFds w c ∧ w.fd c = some fd

theorem FdInv.init : FdInv World.init := by
  constructor <;> simp [World.init, InBackendFds, World.entryConns]

theorem InBackendFds.live {w : World} {c : ConnId} (h : InBackendFds w c) : c ∈ live w := by
  rcases h with ⟨hc, -⟩ | hc
  · exact List.mem_append_left _ (List.mem_append_left _ hc)
  · exact List.mem_append_right _ hc

theorem Inv.outbound_of_live {s : Supervised} (h : Inv s) {c : ConnId} (hc : c ∈ live s.gateway) :
    s.gateway.outbound c = true :=
  h.outbound c (List.mem_append_left _ hc)

/-- The record of a connection, from what is known of it. -/
private theorem record_of_isOpen {w : World} {c : ConnId} (h : w.isOpen c = true) :
    ∃ x, w.conns[c]? = some x ∧ x.isOpen = true ∧ w.fd c = some x.fd := by
  cases hx : w.conns[c]? with
  | none => simp [World.isOpen, hx] at h
  | some x => exact ⟨x, rfl, by simpa [World.isOpen, hx] using h, by simp [World.fd, hx]⟩

theorem Inv.isOpen_of_live {s : Supervised} (h : Inv s) {c : ConnId} (hc : c ∈ live s.gateway) :
    s.gateway.isOpen c = true := by
  have hout := h.outbound_of_live hc
  have halive := h.alive c hc
  cases hx : s.gateway.conns[c]? with
  | none => simp [World.alive, hx] at halive
  | some x =>
    simp only [World.alive, World.outbound, hx, Option.map_some, Option.getD_some] at halive hout
    simpa [World.isOpen, hx] using h.conns.outbound c x hx hout halive

/-- Two open connections with one number are the same. -/
theorem eq_of_fd_eq {w : World} (h : w.ConnInv) {c c' : ConnId} (hc : w.isOpen c = true)
    (hc' : w.isOpen c' = true) (hfd : w.fd c = w.fd c') : c = c' := by
  obtain ⟨x, hx, hopen, hxfd⟩ := record_of_isOpen hc
  obtain ⟨x', hx', hopen', hxfd'⟩ := record_of_isOpen hc'
  refine h.distinct c c' x x' hx hx' hopen hopen' ?_
  rw [hxfd, hxfd'] at hfd
  exact Option.some.inj hfd

/-- **The lookup** of an open connection's descriptor. -/
theorem isBackendFd_iff {s : Supervised} (h : Inv s) (hf : FdInv s.gateway) {c : ConnId}
    (hc : s.gateway.isOpen c = true) :
    s.gateway.isBackendFd c = true ↔ InBackendFds s.gateway c := by
  obtain ⟨x, -, -, hfd⟩ := record_of_isOpen hc
  have hlookup : s.gateway.isBackendFd c = true ↔ x.fd ∈ s.gateway.backendFds := by
    simp [World.isBackendFd, hfd]
  rw [hlookup, hf.fds]
  constructor
  · rintro ⟨c', hin, hfd'⟩
    -- the number in the set is that of an open connection, so of this one
    have hsame := eq_of_fd_eq h.conns hc (h.isOpen_of_live hin.live) (hfd.trans hfd'.symm)
    exact hsame ▸ hin
  · exact fun hin => ⟨c, hin, hfd⟩

/-! ## §2 Steps -/

/-- No pass of the monitor removes an entry whose descriptor the main loop has yet to insert. -/
def RemovesInserted (s : Supervised) : Act → Prop
  | .remove =>
    match s.monitor with
    | .removing instances =>
      ∀ e ∈ s.gateway.backends, e.addr ∉ instances → e.conn ∉ s.gateway.inserting
    | _ => True
  | _ => True

instance (s : Supervised) : (a : Act) → Decidable (RemovesInserted s a)
  | .remove =>
    match hpc : s.monitor with
    | .removing instances =>
      decidable_of_iff (∀ e ∈ s.gateway.backends, e.addr ∉ instances → e.conn ∉ s.gateway.inserting)
        (by simp [RemovesInserted, hpc])
    | .starting | .waiting | .unregistering _ | .closing _ _ | .checking _ | .connecting _ _ =>
      isTrue (by simp [RemovesInserted, hpc])
  | .startBackend _ _ | .serve | .snapshot _ | .unregister | .close | .check | .connect _
  | .connectFailed | .runPosted | .insertFd | .peerClose _ | .handleClose _ _ | .gateway _ =>
    isTrue trivial

/-- The set and the descriptors change alike. -/
private theorem FdInv.congr {w w' : World} (h : FdInv w)
    (hinserting : ∀ c ∈ w'.inserting, c ∈ w'.entryConns) (hsingle : w'.inserting.length ≤ 1)
    (hin : ∀ c, InBackendFds w' c ↔ InBackendFds w c)
    (hfd : ∀ c, InBackendFds w c → w'.fd c = w.fd c)
    (hfds : w'.backendFds = w.backendFds) : FdInv w' := by
  refine ⟨hinserting, hsingle, fun fd => ?_⟩
  rw [hfds, h.fds]
  constructor
  · rintro ⟨c, hc, hcfd⟩
    exact ⟨c, (hin c).mpr hc, (hfd c hc).trans hcfd⟩
  · rintro ⟨c, hc, hcfd⟩
    have hc := (hin c).mp hc
    exact ⟨c, hc, (hfd c hc).symm.trans hcfd⟩

/-- One connection more, and its descriptor. -/
private theorem FdInv.grow {w w' : World} (h : FdInv w) {n : ConnId} {fd : Int}
    (hinserting : w'.inserting = []) (hin : ∀ c, InBackendFds w' c ↔ c = n ∨ InBackendFds w c)
    (hnew : w'.fd n = some fd) (hfd : ∀ c, InBackendFds w c → w'.fd c = w.fd c)
    (hfds : w'.backendFds = fd :: w.backendFds) : FdInv w' := by
  refine ⟨by simp [hinserting], by simp [hinserting], fun fd' => ?_⟩
  rw [hfds, List.mem_cons, h.fds]
  constructor
  · rintro (rfl | ⟨c, hc, hcfd⟩)
    · exact ⟨n, (hin n).mpr (Or.inl rfl), hnew⟩
    · exact ⟨c, (hin c).mpr (Or.inr hc), (hfd c hc).trans hcfd⟩
  · rintro ⟨c, hc, hcfd⟩
    rcases (hin c).mp hc with rfl | hc
    · rw [hnew] at hcfd
      exact Or.inl (Option.some.inj hcfd).symm
    · exact Or.inr ⟨c, hc, (hfd c hc).symm.trans hcfd⟩

/-- The monitor erases a descriptor, which nobody else has. -/
private theorem FdInv.erase {s : Supervised} (h : Inv s) (hf : FdInv s.gateway) {c : ConnId}
    {rest : List ConnId} (hremoving : s.gateway.removing = c :: rest) :
    FdInv { s.gateway with
      removing := rest
      backendFds := s.gateway.backendFds.filter fun fd => some fd ≠ s.gateway.fd c } := by
  have hlive : c ∈ live s.gateway := by
    simp [live, hremoving]
  -- a connection on the list is neither in the table nor on the list again
  have hnodup := (List.nodup_append.mp h.nodup).1
  have hnot : c ∉ s.gateway.entryConns ∧ c ∉ rest := by
    rw [live, hremoving, List.append_assoc] at hnodup
    obtain ⟨-, hright, hdisj⟩ := List.nodup_append.mp hnodup
    refine ⟨fun hc => hdisj c hc c (List.mem_append_right _ (List.mem_cons_self ..)) rfl, ?_⟩
    exact (List.nodup_cons.mp (List.nodup_append.mp hright).2.1).1
  -- whoever stays has another number
  have hin : ∀ x, (x ∈ s.gateway.entryConns ∧ x ∉ s.gateway.inserting ∨ x ∈ rest) ↔
      InBackendFds s.gateway x ∧ x ≠ c := by
    intro x
    simp only [InBackendFds, hremoving, List.mem_cons]
    constructor
    · rintro (⟨hx, hni⟩ | hx)
      · exact ⟨Or.inl ⟨hx, hni⟩, fun heq => hnot.1 (heq ▸ hx)⟩
      · exact ⟨Or.inr (Or.inr hx), fun heq => hnot.2 (heq ▸ hx)⟩
    · rintro ⟨hx | rfl | hx, hne⟩
      · exact Or.inl hx
      · exact absurd rfl hne
      · exact Or.inr hx
  refine ⟨hf.inserting, hf.single, fun fd => ?_⟩
  show fd ∈ s.gateway.backendFds.filter _ ↔ ∃ x, (x ∈ s.gateway.entryConns ∧
    x ∉ s.gateway.inserting ∨ x ∈ rest) ∧ s.gateway.fd x = some fd
  rw [List.mem_filter, hf.fds]
  constructor
  · rintro ⟨⟨x, hx, hxfd⟩, hne⟩
    refine ⟨x, (hin x).mpr ⟨hx, ?_⟩, hxfd⟩
    rintro rfl
    simp [hxfd] at hne
  · rintro ⟨x, hx, hxfd⟩
    obtain ⟨hx, hne⟩ := (hin x).mp hx
    refine ⟨⟨x, hx, hxfd⟩, ?_⟩
    simp only [ne_eq, decide_eq_true_eq]
    intro heq
    exact hne (eq_of_fd_eq h.conns (h.isOpen_of_live hx.live) (h.isOpen_of_live hlive)
      (hxfd.trans heq))

/-- The monitor moves entries to the list of the pass. -/
private theorem inBackendFds_remove {w : World} {expected : List String}
    (hok : ∀ e ∈ w.backends, e.addr ∉ expected → e.conn ∉ w.inserting) (c : ConnId) :
    InBackendFds { w with
      backends := w.backends.filter fun e => expected.contains e.addr
      removing := w.removing ++
        (w.backends.filter fun e => !expected.contains e.addr).map BackendEntry.conn } c ↔
      InBackendFds w c := by
  simp only [InBackendFds, World.entryConns, List.mem_map, List.mem_filter, List.mem_append,
    List.contains_iff_mem, Bool.not_eq_true']
  constructor
  · rintro (⟨⟨e, ⟨he, -⟩, rfl⟩, hni⟩ | hc | ⟨e, ⟨he, hnot⟩, rfl⟩)
    · exact Or.inl ⟨⟨e, he, rfl⟩, hni⟩
    · exact Or.inr hc
    · exact Or.inl ⟨⟨e, he, rfl⟩, hok e he (by simpa using hnot)⟩
  · rintro (⟨⟨e, he, rfl⟩, hni⟩ | hc)
    -- an entry stays in the table or goes to the list
    · by_cases haddr : e.addr ∈ expected
      · exact Or.inl ⟨⟨e, ⟨he, haddr⟩, rfl⟩, hni⟩
      · exact Or.inr (Or.inr ⟨e, ⟨he, by simpa using haddr⟩, rfl⟩)
    · exact Or.inr (Or.inl hc)

private theorem fd_of_newConn {w w' : World} {x : Conn} (h : w'.conns = w.conns ++ [x]) {c : ConnId}
    (hc : c < w.conns.length) : w'.fd c = w.fd c :=
  (World.same_of_getElem? (World.getElem?_of_newConn h hc)).2.2.2

theorem FdInv.step {s t : Supervised} {a : Act} (h : Inv s) (hf : FdInv s.gateway)
    (hok : RemovesInserted s a) (hstep : s.step a = some t) : FdInv t.gateway := by
  have hlt : ∀ {c}, InBackendFds s.gateway c → c < s.gateway.conns.length := fun hc =>
    World.lt_of_outbound (h.outbound_of_live hc.live)
  cases step_cases hstep with
  | startBackend hpc hw =>
    obtain ⟨-, hadding, hinserting⟩ := h.starting hpc
    obtain ⟨-, rfl⟩ := World.run_startBackend hadding hinserting hw
    refine hf.grow (n := s.gateway.conns.length) hinserting (fun c => ?_) (by simp [World.fd])
      (fun c hc => ?_) rfl
    · simp only [InBackendFds, World.entryConns, hinserting, List.map_append, List.mem_append,
        List.map_cons, List.map_nil, List.mem_singleton, List.not_mem_nil, not_false_eq_true,
        and_true]
      rw [or_comm (b := c = s.gateway.conns.length), or_assoc]
    -- the older connections keep their numbers
    · exact fd_of_newConn rfl (hlt hc)
  | @remove instances w hpc hw =>
    cases hw
    have hok : ∀ e ∈ s.gateway.backends, e.addr ∉ instances → e.conn ∉ s.gateway.inserting := by
      simpa only [RemovesInserted, hpc] using hok
    have hin := inBackendFds_remove hok
    refine hf.congr (fun c hc => ?_) hf.single hin (fun _ _ => rfl) rfl
    -- what is being inserted is not removed
    obtain ⟨e, he, rfl⟩ := List.mem_map.mp (hf.inserting c hc)
    have haddr : e.addr ∈ instances := by
      by_contra hnot
      exact hok e he hnot hc
    exact List.mem_map.mpr ⟨e, List.mem_filter.mpr ⟨he, by simpa using haddr⟩, rfl⟩
  | @unregister c instances rest w hpc hremoving hw =>
    obtain ⟨c', rest', heq, rfl⟩ := World.step_eraseFd hw
    rw [hremoving] at heq
    obtain ⟨rfl, rfl⟩ := List.cons.inj heq
    exact hf.erase h hremoving
  | connect hpc hw =>
    obtain ⟨-, rfl⟩ := World.step_connect hw
    exact hf.congr hf.inserting hf.single (fun _ => Iff.rfl)
      (fun c hc => fd_of_newConn rfl (hlt hc)) rfl
  | @runAdd rest w hidle hposted hw =>
    obtain ⟨addr, c, more, hadding, rfl⟩ := World.step_addBackend hw
    have hinserting := inserting_of_mainIdle hidle
    -- a posted addition is in no other place
    have hnot : c ∉ s.gateway.entryConns := by
      have hnodup := (List.nodup_append.mp (List.nodup_append.mp h.nodup).1).1
      rw [hadding, List.map_cons] at hnodup
      exact fun hc => (List.nodup_append.mp hnodup).2.2 c hc c (List.mem_cons_self ..) rfl
    refine hf.congr ?_ ?_ (fun x => ?_) (fun _ _ => rfl) rfl
    · simp [hinserting, World.entryConns]
    · simp [hinserting]
    · -- in `backends`, and being inserted
      have hentry : x ∈ s.gateway.entryConns → x ≠ c := fun hx heq => hnot (heq ▸ hx)
      simp only [InBackendFds, World.entryConns, hinserting, List.map_append, List.mem_append,
        List.map_cons, List.map_nil, List.mem_singleton, List.nil_append, List.not_mem_nil,
        not_false_eq_true, and_true]
      constructor
      · rintro (⟨hx | rfl, hne⟩ | hx)
        · exact Or.inl hx
        · exact absurd rfl hne
        · exact Or.inr hx
      · rintro (hx | hx)
        · exact Or.inl ⟨Or.inl hx, hentry hx⟩
        · exact Or.inr hx
  | insertFd hw =>
    obtain ⟨c, rest, hinserting, rfl⟩ := World.step_insertFd hw
    -- the addition that is finished is the only one
    obtain rfl : rest = [] := by
      have hsingle := hf.single
      rw [hinserting] at hsingle
      exact List.length_eq_zero_iff.mp (Nat.le_zero.mp (Nat.le_of_succ_le_succ hsingle))
    have hc : c ∈ s.gateway.entryConns := hf.inserting c (by simp [hinserting])
    have hlive : c ∈ live s.gateway := List.mem_append_left _ (List.mem_append_left _ hc)
    obtain ⟨x, -, -, hfd⟩ := record_of_isOpen (h.isOpen_of_live hlive)
    refine hf.grow rfl (fun y => ?_) hfd (fun _ _ => rfl) (by simp [hfd])
    simp only [InBackendFds, hinserting, List.mem_singleton, List.not_mem_nil, not_false_eq_true,
      and_true]
    constructor
    · rintro (hy | hy)
      · exact (em (y = c)).imp_right fun hne => Or.inl ⟨hy, hne⟩
      · exact Or.inr (Or.inr hy)
    · rintro (rfl | ⟨hy, -⟩ | hy)
      · exact Or.inl hc
      · exact Or.inl hy
      · exact Or.inr hy
  | gateway hstarted hallows hw =>
    obtain ⟨htables, heffect⟩ := elsewhere_of_step hallows hw
    refine hf.congr ?_ ?_ (fun c => ?_) (fun c hc => ?_) htables.backendFds
    · show ∀ c ∈ World.inserting _, c ∈ World.entryConns _
      rw [htables.inserting, htables.entryConns]
      exact hf.inserting
    · rw [htables.inserting]
      exact hf.single
    · simp only [InBackendFds, htables.inserting, htables.entryConns, htables.removing]
    · exact (identity_of_elsewhere heffect (hlt hc)).2
  | runClose hidle hposted =>
    show FdInv (s.disconnect _).gateway
    rw [disconnect_gateway]
    exact hf
  | handleClose hreg =>
    rw [disconnect_gateway]
    exact hf
  | _ => exact hf

/-! ## §3 Directions -/

/-- Every handler has taken its message for what it is: a backend's on a connection that the
gateway opened, a client's on one that it accepted. -/
def Directed (w : World) : Prop :=
  ∀ h ∈ w.handlers, ∀ fromBackend, h.pc.direction = some fromBackend →
    fromBackend = w.outbound h.conn

/-- No handler starts for a backend that is unregistered: its entry is in `backends`, or the
monitor has not come to it in `to_remove`. -/
def StartsRegistered (s : Supervised) : Act → Prop
  | .gateway (.handler i) => ∀ h ∈ s.gateway.handlers[i]?, h.pc = .start →
      s.gateway.outbound h.conn = true →
      h.conn ∈ s.gateway.entryConns ∨ h.conn ∈ s.gateway.removing
  | _ => True

instance (s : Supervised) : (a : Act) → Decidable (StartsRegistered s a)
  | .gateway a =>
    match a with
    | .handler i => inferInstanceAs (Decidable (∀ h ∈ s.gateway.handlers[i]?, _))
    | .accept _ | .connect _ _ | .closeFd _ | .destroy _ | .receive _ _ | .addBackend | .insertFd
    | .removeBackends _ | .eraseFd | .healthPass | .cleanupBegin | .cleanupCollect
    | .cleanupSend _ | .tick _ => isTrue trivial
  | .remove | .startBackend _ _ | .serve | .snapshot _ | .unregister | .close | .check | .connect _
  | .connectFailed | .runPosted | .insertFd | .peerClose _ | .handleClose _ _ => isTrue trivial

instance (w : World) : Decidable (Directed w) :=
  inferInstanceAs (Decidable (∀ h ∈ w.handlers, ∀ fromBackend, h.pc.direction = some fromBackend →
    fromBackend = w.outbound h.conn))

theorem direction_eq_none_iff {pc : HandlerPc} : pc.direction = none ↔ pc = .start := by
  cases pc <;> simp [HandlerPc.direction]

/-- What the lookup at the start of a handler finds. -/
theorem isBackendFd_eq_outbound_iff {s : Supervised} (h : Inv s) (hf : FdInv s.gateway)
    {x : Handler} (hx : x ∈ s.gateway.handlers) :
    s.gateway.isBackendFd x.conn = s.gateway.outbound x.conn ↔
      (s.gateway.outbound x.conn = true →
        x.conn ∈ s.gateway.entryConns ∨ x.conn ∈ s.gateway.removing) := by
  have hlookup := isBackendFd_iff h hf (h.handlers x hx)
  cases hout : s.gateway.outbound x.conn with
  | true =>
    -- the main loop runs this handler, and no addition
    have hnone := h.busy x hx hout
    rw [hlookup]
    simp [InBackendFds, hnone]
  | false =>
    have hnot : s.gateway.isBackendFd x.conn = false := by
      rw [← Bool.not_eq_true, hlookup]
      intro hin
      -- a connection in the tables is outbound, and this one is not
      rw [h.outbound_of_live hin.live] at hout
      cases hout
    simp [hnot]

/-- A step of a handler. -/
private theorem directed_handler_iff {s : Supervised} (h : Inv s) (hf : FdInv s.gateway)
    (hd : Directed s.gateway) {w : World} {i : Nat} {x : Handler}
    (hx : s.gateway.handlers[i]? = some x) (hmoves : HandlerMoves s.gateway i x w) :
    Directed w ↔ (x.pc = .start → s.gateway.outbound x.conn = true →
      x.conn ∈ s.gateway.entryConns ∨ x.conn ∈ s.gateway.removing) := by
  have hmem := List.mem_of_getElem? hx
  have hout := World.outbound_of_conns hmoves.conns
  obtain ⟨herase, hpc⟩ | ⟨pc, hset, hdir⟩ := hmoves.handlers
  -- the handler returns, and it was past its start
  · refine ⟨fun _ hstart => absurd hstart hpc, fun _ y hy d hyd => ?_⟩
    rw [herase] at hy
    rw [hout]
    exact hd y (List.mem_of_mem_eraseIdx hy) d hyd
  · -- only the new direction counts
    have hnew : Directed w ↔
        x.pc.direction.getD (s.gateway.isBackendFd x.conn) = s.gateway.outbound x.conn := by
      constructor
      · intro hw
        have hin : ({ x with pc := pc } : Handler) ∈ w.handlers := by
          rw [hset]
          exact List.mem_set (List.getElem?_eq_some_iff.mp hx).1 _
        have heq := hw _ hin _ hdir
        rwa [hout] at heq
      · intro heq y hy d hyd
        rw [hset] at hy
        rw [hout]
        rcases List.mem_or_eq_of_mem_set hy with hy | rfl
        · exact hd y hy d hyd
        · rw [hdir, Option.some.injEq] at hyd
          rw [← hyd, heq]
    rw [hnew]
    -- at its start the handler looks the descriptor up; later it keeps its direction
    cases hold : x.pc.direction with
    | none =>
      have hstart := direction_eq_none_iff.mp hold
      rw [Option.getD_none, isBackendFd_eq_outbound_iff h hf hmem]
      exact ⟨fun hreg _ => hreg, fun hreg => hreg hstart⟩
    | some d =>
      refine ⟨fun _ hstart => ?_, fun _ => hd x hmem d hold⟩
      rw [direction_eq_none_iff.mpr hstart] at hold
      cases hold

/-- Handlers and connections stay; a handler that has just been started has no direction. -/
private theorem Directed.mono {w w' : World} (hd : Directed w)
    (hhandlers : ∀ x ∈ w'.handlers, x ∈ w.handlers ∨ x.pc = .start)
    (hout : ∀ x ∈ w.handlers, w'.outbound x.conn = w.outbound x.conn) : Directed w' := by
  intro x hx d hxd
  rcases hhandlers x hx with hx | hstart
  · rw [hout x hx]
    exact hd x hx d hxd
  · rw [direction_eq_none_iff.mpr hstart] at hxd
    cases hxd

/-- The monitor and the main loop's callbacks start no handler and send nothing. -/
theorem handlers_of_monitor_step {s t : Supervised} {a : Act} (h : Inv s)
    (hne : ∀ b, a ≠ .gateway b) (hstep : s.step a = some t) :
    t.gateway.handlers = s.gateway.handlers ∧ t.gateway.log = s.gateway.log ∧
      ∀ c < s.gateway.conns.length, t.gateway.outbound c = s.gateway.outbound c := by
  have hnew : ∀ {w : World} {x : Conn}, w.conns = s.gateway.conns ++ [x] →
      ∀ c < s.gateway.conns.length, w.outbound c = s.gateway.outbound c := fun hconns c hc =>
    (World.same_of_getElem? (World.getElem?_of_newConn hconns hc)).2.1
  cases step_cases hstep with
  | @gateway a w _ _ _ => exact absurd rfl (hne a)
  | startBackend hpc hw =>
    obtain ⟨-, hadding, hinserting⟩ := h.starting hpc
    obtain ⟨-, rfl⟩ := World.run_startBackend hadding hinserting hw
    exact ⟨rfl, rfl, hnew rfl⟩
  | connect _ hw =>
    obtain ⟨-, rfl⟩ := World.step_connect hw
    exact ⟨rfl, rfl, hnew rfl⟩
  | remove _ hw =>
    cases hw
    exact ⟨rfl, rfl, fun _ _ => rfl⟩
  | unregister _ _ hw =>
    obtain ⟨c, rest, -, rfl⟩ := World.step_eraseFd hw
    exact ⟨rfl, rfl, fun _ _ => rfl⟩
  | runAdd _ _ hw =>
    obtain ⟨addr, c, rest, -, rfl⟩ := World.step_addBackend hw
    exact ⟨rfl, rfl, fun _ _ => rfl⟩
  | insertFd hw =>
    obtain ⟨c, rest, -, rfl⟩ := World.step_insertFd hw
    exact ⟨rfl, rfl, fun _ _ => rfl⟩
  | runClose _ _ =>
    show (s.disconnect _).gateway.handlers = _ ∧ (s.disconnect _).gateway.log = _ ∧
      ∀ c < _, (s.disconnect _).gateway.outbound c = _
    rw [disconnect_gateway]
    exact ⟨rfl, rfl, fun _ _ => rfl⟩
  | handleClose _ =>
    rw [disconnect_gateway]
    exact ⟨rfl, rfl, fun _ _ => rfl⟩
  | _ => exact ⟨rfl, rfl, fun _ _ => rfl⟩

theorem directed_step_iff {s t : Supervised} {a : Act} (h : Inv s) (hf : FdInv s.gateway)
    (hd : Directed s.gateway) (hstep : s.step a = some t) :
    Directed t.gateway ↔ StartsRegistered s a := by
  have hlt : ∀ {x}, x ∈ s.gateway.handlers → x.conn < s.gateway.conns.length := fun hx =>
    World.lt_of_isOpen (h.handlers _ hx)
  have hother : (∀ i, a ≠ .gateway (.handler i)) → StartsRegistered s a := by
    intro hne
    unfold StartsRegistered
    split
    · exact absurd rfl (hne _)
    · trivial
  -- of the other steps only `receive` adds a handler, which has no direction yet
  by_cases hgateway : ∀ b, a ≠ .gateway b
  · obtain ⟨hhandlers, -, hout⟩ := handlers_of_monitor_step h hgateway hstep
    refine iff_of_true
      (hd.mono (fun x hx => Or.inl (hhandlers ▸ hx)) fun x hx => hout _ (hlt hx)) ?_
    exact hother fun i => hgateway _
  cases step_cases hstep with
  | @gateway a w hstarted hallows hw =>
    obtain ⟨-, heffect⟩ := elsewhere_of_step hallows hw
    have hout : ∀ x ∈ s.gateway.handlers, w.outbound x.conn = s.gateway.outbound x.conn :=
      fun x hx => (identity_of_elsewhere heffect (hlt hx)).1
    cases heffect with
    | @handler i x hx hmoves =>
      rw [directed_handler_iff h hf hd hx hmoves]
      simp only [StartsRegistered, hx, Option.mem_def, Option.some.injEq, forall_eq']
    | receive _ hhandlers =>
      refine iff_of_true (hd.mono (fun x hx => ?_) hout) (hother (by simp))
      rw [hhandlers] at hx
      refine (List.mem_append.mp hx).imp_right fun hx => ?_
      rw [List.mem_singleton.mp hx]
    | accept _ _ hhandlers =>
      exact iff_of_true (hd.mono (fun x hx => Or.inl (hhandlers ▸ hx)) hout) (hother (by simp))
    | closeFd _ hhandlers =>
      exact iff_of_true (hd.mono (fun x hx => Or.inl (hhandlers ▸ hx)) hout) (hother (by simp))
    | destroy _ _ hhandlers =>
      exact iff_of_true (hd.mono (fun x hx => Or.inl (hhandlers ▸ hx)) hout) (hother (by simp))
    | other hne _ hhandlers =>
      exact iff_of_true (hd.mono (fun x hx => Or.inl (hhandlers ▸ hx)) hout)
        (hother fun i heq => hne i (Act.gateway.inj heq))
  | _ => exact absurd (fun b => by simp) hgateway

/-! ## §4 Runs -/

theorem Directed.init : Directed World.init := by
  intro h hh
  cases hh

/-- **Direction soundness**: in a run in which no entry is removed in the middle of its addition,
every message is handled in the direction that it came from, in every state, exactly if no handler
starts for a backend that is unregistered. -/
theorem direction_sound_iff (acts : List Act) (s : Supervised) (hrun : run step init acts = some s)
    (hinserted : Meets step RemovesInserted init acts) :
    Meets step StartsRegistered init acts ↔
      ∀ pre post v, acts = pre ++ post → run step init pre = some v → Directed v.gateway := by
  refine meets_iff_forall_state_of_meets (I := fun v => Inv v ∧ FdInv v.gateway)
    (P := fun v => Directed v.gateway) (fun v a v' hv hok h => ?_) (fun v a v' hv _ hd h => ?_)
    ⟨.init, .init⟩ .init hinserted hrun
  · exact ⟨hv.1.step h, hv.2.step hv.1 hok h⟩
  · exact directed_step_iff hv.1 hv.2 hd h

def twoBackends : List Act :=
  [.startBackend "127.0.0.1:9001" 7, .startBackend "127.0.0.1:9002" 8, .serve]

def handlerSteps (n : Nat) : List Act := List.replicate n (.gateway (.handler 0))

/-- A backend is removed after it has answered, and a client gets its number. -/
def removedAndReused : List Act :=
  twoBackends ++ [Act.gateway (.accept 9), .gateway (.receive 2 ⟨.loginReq, 1, []⟩)] ++
    handlerSteps 5 ++ [Act.snapshot ["127.0.0.1:9002"], .remove,
    .gateway (.receive 0 ⟨.loginResp, 1, []⟩), .gateway (.handler 0), .unregister] ++
    handlerSteps 2 ++ [Act.close, .unregister, .check, .check, .runPosted, .gateway (.destroy 0),
    .gateway (.accept 7), .gateway (.receive 3 ⟨.loginReq, 1, []⟩)] ++ handlerSteps 5

theorem direction_sound_iff_reused :
    ∃ s, run step init removedAndReused = some s ∧ s.gateway.log.deliveries.length = 1 ∧
      s.gateway.log.requests.map Request.client = [2, 3] ∧
      ∀ pre post v, removedAndReused = pre ++ post → run step init pre = some v →
        Directed v.gateway := by
  have hlast : ((run step init removedAndReused).any fun s =>
      decide (s.gateway.log.deliveries.length = 1 ∧
        s.gateway.log.requests.map Request.client = [2, 3])) = true := by
    decide +kernel
  obtain ⟨s, hs, hlast⟩ := exists_of_run_any hlast
  obtain ⟨hsent, hclients⟩ := of_decide_eq_true hlast
  have hinserted : Meets step RemovesInserted init removedAndReused := by decide +kernel
  have hstarts : Meets step StartsRegistered init removedAndReused := by decide +kernel
  exact ⟨s, hs, hsent, hclients,
    (direction_sound_iff removedAndReused s hs hinserted).mp hstarts⟩

/-- The first backend is unregistered, and the main loop reads a broadcast from it before it runs
the posted close. -/
def lateBroadcast : List Act :=
  twoBackends ++ [Act.snapshot ["127.0.0.1:9002"], .remove, .unregister,
    .gateway (.receive 0 ⟨.broadcastMsg, 0, []⟩), .gateway (.handler 0)]

/-- A backend is removed between the two halves of its addition, and a client gets its number. -/
def staleDescriptor : List Act :=
  [.serve, .snapshot ["127.0.0.1:9001"], .remove, .unregister, .check, .connect 7, .check,
    .snapshot [], .runPosted, .remove, .unregister, .insertFd, .close, .unregister, .check,
    .runPosted, .gateway (.destroy 0), .gateway (.accept 7),
    .gateway (.receive 1 ⟨.loginReq, 1, []⟩), .gateway (.handler 0)]

/-- The broadcast of the one backend is forwarded to the other as a request, and the login of the
client is taken for an answer. -/
theorem direction_lost :
    (∃ s t, run step init lateBroadcast = some s ∧ ¬Directed s.gateway ∧
      run step s (handlerSteps 4) = some t ∧
      t.gateway.log.toBackends = [(1, ⟨.broadcastMsg, 1, []⟩)]) ∧
    ∃ s, run step init staleDescriptor = some s ∧ ¬Directed s.gateway ∧
      s.gateway.handlers = [⟨1, ⟨.loginReq, 1, []⟩, .backendResponse⟩] := by
  constructor
  · have hlate : ((run step init lateBroadcast).any fun s => !decide (Directed s.gateway) &&
        (run step s (handlerSteps 4)).any fun t =>
          decide (t.gateway.log.toBackends = [(1, ⟨.broadcastMsg, 1, []⟩)])) = true := by
      decide +kernel
    obtain ⟨s, hs, hlate⟩ := exists_of_run_any hlate
    obtain ⟨hlost, hforwarded⟩ := Bool.and_eq_true_iff.mp hlate
    obtain ⟨t, ht, hforwarded⟩ := exists_of_run_any hforwarded
    exact ⟨s, t, hs, by simpa using hlost, ht, of_decide_eq_true hforwarded⟩
  · have hstale : ((run step init staleDescriptor).any fun s =>
        decide (¬Directed s.gateway ∧
          s.gateway.handlers = [⟨1, ⟨.loginReq, 1, []⟩, .backendResponse⟩])) = true := by
      decide +kernel
    obtain ⟨s, hs, hstale⟩ := exists_of_run_any hstale
    obtain ⟨hlost, hhandlers⟩ := of_decide_eq_true hstale
    exact ⟨s, hs, hlost, hhandlers⟩

end Supervised

end EchoNet.Gateway
