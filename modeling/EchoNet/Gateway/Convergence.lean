import EchoNet.Gateway.Backends

/-!
# Convergence of the Backend Table

A pass of the monitor drops the entries whose address is not in the snapshot of the registry and
connects the addresses that have no entry.  Presence is judged by the address alone, and an entry
is appended later, by a callback on the main loop.  So a pass that begins before the additions of
an earlier one have run connects the same address twice, or leaves an entry that nobody expects;
and the entry of a backend that has closed its connection stays, and is never connected again.

## Main results

- `backends_converge_iff`: when a pass and the additions posted so far are done, the table is the
  snapshot exactly if the pass met no posted addition of that kind, and its connections are in
  state `Connected` exactly if it kept no closed one;
- `backends_diverge`: a backend that restarts, and a slow main loop.
-/

namespace EchoNet.Gateway

open EchoNet.Lib

namespace Supervised

/-! ## §1 A pass -/

/-- The addresses of the entries and of the posted additions. -/
def addrs (w : World) : List String :=
  w.backends.map BackendEntry.addr ++ w.adding.map Prod.fst

/-- A step of a pass that takes no other snapshot and fails in no `m_connect`. -/
def ofOnePass : Act → Bool
  | .snapshot _ | .connectFailed => false
  | _ => true

/-- From `s` to `t`, the monitor completes one pass over a snapshot, every `m_connect` of which
succeeds, and the main loop completes the additions that this pass and the ones before posted. -/
structure CompletePass (instances : List String) (s : Supervised) (acts : List Act)
    (t : Supervised) : Prop where
  run : run step s (.snapshot instances :: acts) = some t
  onePass : acts.all ofOnePass = true
  done : t.monitor = .waiting
  added : Posted.add ∉ t.posted
  inserted : t.gateway.inserting = []

/-- The table is the snapshot, and its connections are in state `Connected` if no peer closed. -/
structure Converged (instances : List String) (acts : List Act) (t : Supervised) : Prop where
  table : (t.gateway.backends.map BackendEntry.addr).Perm instances
  connected : (∀ c, Act.peerClose c ∉ acts) →
    ∀ e ∈ t.gateway.backends, e.conn ∉ t.disconnected

/-! ## §2 Conditions -/

/-- When the pass takes `backends_mutex`, what it keeps and the posted additions are distinct
addresses of the snapshot; an address that `has_addr` does not find is not in a posted addition. -/
def AdditionsSettled (s : Supervised) : Act → Prop
  | .remove =>
    match s.monitor with
    | .removing instances =>
      ((s.gateway.backends.map BackendEntry.addr).filter instances.contains ++
        s.gateway.adding.map Prod.fst).Nodup ∧
      ∀ addr ∈ s.gateway.adding.map Prod.fst, addr ∈ instances
    | _ => True
  | .check =>
    match s.monitor with
    | .checking (addr :: _) =>
      s.gateway.hasAddr addr = false → addr ∉ s.gateway.adding.map Prod.fst
    | _ => True
  | _ => True

/-- The entries that the pass keeps are connected, and the main loop closes none of the table's
connections from then on. -/
def KeepsConnected (s : Supervised) : Act → Prop
  | .remove =>
    match s.monitor with
    | .removing instances =>
      ∀ e ∈ s.gateway.backends, e.addr ∈ instances → e.conn ∉ s.disconnected
    | _ => True
  | .handleClose c _ =>
    match s.monitor with
    | .removing _ => True
    | _ => c ∉ s.gateway.entryConns
  | _ => True

instance (s : Supervised) : (a : Act) → Decidable (AdditionsSettled s a)
  | .remove =>
    match hpc : s.monitor with
    | .removing instances =>
      decidable_of_iff (((s.gateway.backends.map BackendEntry.addr).filter instances.contains ++
          s.gateway.adding.map Prod.fst).Nodup ∧
          ∀ addr ∈ s.gateway.adding.map Prod.fst, addr ∈ instances)
        (by simp [AdditionsSettled, hpc])
    | .starting | .waiting | .unregistering _ | .closing _ _ | .checking _ | .connecting _ _ =>
      isTrue (by simp [AdditionsSettled, hpc])
  | .check =>
    match hpc : s.monitor with
    | .checking (addr :: _) =>
      decidable_of_iff (s.gateway.hasAddr addr = false → addr ∉ s.gateway.adding.map Prod.fst)
        (by simp [AdditionsSettled, hpc])
    | .checking [] | .starting | .waiting | .removing _ | .unregistering _ | .closing _ _
    | .connecting _ _ => isTrue (by simp [AdditionsSettled, hpc])
  | .startBackend _ _ | .serve | .snapshot _ | .unregister | .close | .connect _ | .connectFailed
  | .runPosted | .insertFd | .peerClose _ | .handleClose _ _ | .gateway _ => isTrue trivial

instance (s : Supervised) : (a : Act) → Decidable (KeepsConnected s a)
  | .remove =>
    match hpc : s.monitor with
    | .removing instances =>
      decidable_of_iff (∀ e ∈ s.gateway.backends, e.addr ∈ instances → e.conn ∉ s.disconnected)
        (by simp [KeepsConnected, hpc])
    | .starting | .waiting | .unregistering _ | .closing _ _ | .checking _ | .connecting _ _ =>
      isTrue (by simp [KeepsConnected, hpc])
  | .handleClose c _ =>
    match hpc : s.monitor with
    | .removing _ => isTrue (by simp [KeepsConnected, hpc])
    | .starting | .waiting | .unregistering _ | .closing _ _ | .checking _ | .connecting _ _ =>
      decidable_of_iff (c ∉ s.gateway.entryConns) (by simp [KeepsConnected, hpc])
  | .startBackend _ _ | .serve | .snapshot _ | .unregister | .close | .check | .connect _
  | .connectFailed | .runPosted | .insertFd | .peerClose _ | .gateway _ => isTrue trivial

/-! ## §3 The monitor in a pass -/

/-- The instances that the monitor has yet to look up. -/
def todo : MonitorPc → List String
  | .removing instances | .unregistering instances | .closing _ instances
  | .checking instances => instances
  | .connecting addr instances => addr :: instances
  | .starting | .waiting => []

/-- The monitor is in a pass over `instances`, or done with it. -/
structure InPass (instances : List String) (m : MonitorPc) : Prop where
  started : m ≠ .starting
  todo : ∀ addr ∈ todo m, addr ∈ instances
  removing : ∀ l, m = .removing l → l = instances
  unregistering : ∀ l, m = .unregistering l → l = instances
  closing : ∀ c l, m = .closing c l → l = instances

theorem InPass.step {instances : List String} {s t : Supervised} {a : Act}
    (h : InPass instances s.monitor) (ha : ofOnePass a = true) (hstep : s.step a = some t) :
    InPass instances t.monitor := by
  cases step_cases hstep with
  | startBackend hpc hw => exact absurd hpc h.started
  | serve hpc => exact absurd hpc h.started
  | snapshot hpc => cases ha
  | connectFailed hpc => cases ha
  | @remove l w hpc hw =>
    obtain rfl := h.removing _ hpc
    exact ⟨by simp, fun addr ha => ha, by simp, by simp, by simp⟩
  | unregister hpc _ _ =>
    obtain rfl := h.unregistering _ hpc
    exact ⟨by simp, fun addr ha => ha, by simp, by simp, by simp⟩
  | unregistered hpc _ =>
    obtain rfl := h.unregistering _ hpc
    exact ⟨by simp, fun addr ha => ha, by simp, by simp, by simp⟩
  | close hpc =>
    obtain rfl := h.closing _ _ hpc
    exact ⟨by simp, fun addr ha => ha, by simp, by simp, by simp⟩
  | passed hpc => exact ⟨by simp, by simp [Supervised.todo], by simp, by simp, by simp⟩
  -- the address leaves the list, whether it was found or not
  | known hpc _ =>
    have htodo := h.todo
    rw [hpc] at htodo
    exact ⟨by simp, fun addr ha => htodo addr (List.mem_cons_of_mem _ ha), by simp, by simp,
      by simp⟩
  | unknown hpc _ =>
    have htodo := h.todo
    rw [hpc] at htodo
    exact ⟨by simp, htodo, by simp, by simp, by simp⟩
  | connect hpc _ =>
    have htodo := h.todo
    rw [hpc] at htodo
    exact ⟨by simp, fun addr ha => htodo addr (List.mem_cons_of_mem _ ha), by simp, by simp,
      by simp⟩
  | runClose _ _ =>
    show InPass instances (s.disconnect _).monitor
    rw [disconnect_monitor]
    exact h
  | handleClose _ =>
    rw [disconnect_monitor]
    exact h
  | _ => exact h

/-! ## §4 The table -/

/-- Every instance is in the table or still to be looked up, and nothing else is in the table. -/
structure Progress (instances : List String) (s : Supervised) : Prop where
  nodup : (addrs s.gateway).Nodup
  subset : ∀ addr ∈ addrs s.gateway, addr ∈ instances
  cover : ∀ addr ∈ instances, addr ∈ addrs s.gateway ∨ addr ∈ todo s.monitor

/-- Nothing is asked before the critical section; an address is about to be connected because it
is not in the table. -/
def TableOk (instances : List String) (s : Supervised) : Prop :=
  match s.monitor with
  | .removing _ => True
  | .connecting addr _ => addr ∉ addrs s.gateway ∧ Progress instances s
  | .starting | .waiting | .unregistering _ | .closing _ _ | .checking _ => Progress instances s

private theorem progress_congr {instances : List String} {s t : Supervised}
    (haddrs : addrs t.gateway = addrs s.gateway) (htodo : todo t.monitor = todo s.monitor) :
    Progress instances t ↔ Progress instances s := by
  constructor
  · exact fun h => ⟨haddrs ▸ h.nodup, haddrs ▸ h.subset, haddrs ▸ htodo ▸ h.cover⟩
  · exact fun h => ⟨haddrs ▸ h.nodup, haddrs ▸ h.subset, haddrs ▸ htodo ▸ h.cover⟩

private theorem tableOk_congr {instances : List String} {s t : Supervised}
    (haddrs : addrs t.gateway = addrs s.gateway) (hmonitor : t.monitor = s.monitor) :
    TableOk instances t ↔ TableOk instances s := by
  have hprogress : Progress instances t ↔ Progress instances s :=
    progress_congr haddrs (by rw [hmonitor])
  unfold TableOk
  rw [hmonitor]
  cases s.monitor with
  | removing l => exact Iff.rfl
  | connecting addr l => rw [haddrs, hprogress]
  | _ => exact hprogress

theorem mem_addrs_of_hasAddr {w : World} {addr : String} (h : w.hasAddr addr = true) :
    addr ∈ addrs w := by
  obtain ⟨e, he, haddr⟩ := List.any_eq_true.mp h
  exact List.mem_append_left _ (List.mem_map.mpr ⟨e, he, of_decide_eq_true haddr⟩)

theorem mem_addrs_iff_of_not_hasAddr {w : World} {addr : String} (h : w.hasAddr addr = false) :
    addr ∈ addrs w ↔ addr ∈ w.adding.map Prod.fst := by
  have hnot : addr ∉ w.backends.map BackendEntry.addr := by
    intro hmem
    obtain ⟨e, he, rfl⟩ := List.mem_map.mp hmem
    have hany : w.hasAddr e.addr = true := List.any_eq_true.mpr ⟨e, he, by simp⟩
    rw [h] at hany
    cases hany
  rw [addrs, List.mem_append]
  exact or_iff_right hnot

/-- The critical section. -/
private theorem tableOk_remove_iff {instances : List String} {s : Supervised} {w : World}
    (hpc : s.monitor = .removing instances)
    (hw : s.gateway.step (.removeBackends instances) = some w) :
    TableOk instances { s with
        gateway := w, monitor := .unregistering instances, toRemove := w.removing } ↔
      AdditionsSettled s .remove := by
  cases hw
  have haddrs :
      (s.gateway.backends.filter fun e => instances.contains e.addr).map BackendEntry.addr =
      (s.gateway.backends.map BackendEntry.addr).filter instances.contains := by
    rw [List.filter_map]
    rfl
  simp only [TableOk, AdditionsSettled, hpc, ← haddrs]
  constructor
  · intro h
    exact ⟨h.nodup, fun addr ha => h.subset addr (List.mem_append_right _ ha)⟩
  · rintro ⟨hnodup, hsub⟩
    -- the whole snapshot is still to be looked up
    refine ⟨hnodup, fun addr ha => ?_, fun addr ha => Or.inr ha⟩
    rcases List.mem_append.mp ha with ha | ha
    · obtain ⟨e, he, rfl⟩ := List.mem_map.mp ha
      simpa using (List.mem_filter.mp he).2
    · exact hsub addr ha

/-- An address is connected. -/
private theorem tableOk_connect_iff {instances : List String} {s t : Supervised} {addr : String}
    {l : List String} (hin : addr ∈ instances) (hpc : s.monitor = .connecting addr l)
    (hmonitor : t.monitor = .checking l) (haddrs : addrs t.gateway = addrs s.gateway ++ [addr]) :
    TableOk instances t ↔ TableOk instances s := by
  simp only [TableOk, hpc, hmonitor]
  constructor
  · intro h
    have hnodup := h.nodup
    rw [haddrs] at hnodup
    -- the address is once in the table, so it was not there before
    obtain ⟨hleft, -, hdisj⟩ := List.nodup_append.mp hnodup
    refine ⟨fun ha => hdisj addr ha addr (List.mem_singleton_self _) rfl, hleft, fun a ha => ?_,
      fun a ha => ?_⟩
    · exact h.subset a (haddrs ▸ List.mem_append_left _ ha)
    · have hcover := h.cover a ha
      rw [haddrs, hmonitor, List.mem_append, List.mem_singleton] at hcover
      rw [hpc]
      rcases hcover with (ha | rfl) | ha
      · exact Or.inl ha
      · exact Or.inr (List.mem_cons_self ..)
      · exact Or.inr (List.mem_cons_of_mem _ ha)
  · rintro ⟨hnot, h⟩
    refine ⟨?_, fun a ha => ?_, fun a ha => ?_⟩
    · rw [haddrs]
      exact List.nodup_append.mpr ⟨h.nodup, List.nodup_singleton _, fun a ha b hb hab =>
        hnot (List.mem_singleton.mp hb ▸ hab ▸ ha)⟩
    · rw [haddrs, List.mem_append, List.mem_singleton] at ha
      rcases ha with ha | rfl
      · exact h.subset a ha
      · exact hin
    · have hcover := h.cover a ha
      rw [hpc] at hcover
      rw [haddrs, hmonitor, List.mem_append, List.mem_singleton]
      rcases hcover with ha | ha
      · exact Or.inl (Or.inl ha)
      · exact (List.mem_cons.mp ha).imp_left Or.inr

theorem tableOk_step_iff {instances : List String} {s t : Supervised} {a : Act}
    (h : InPass instances s.monitor) (ha : ofOnePass a = true) (hstep : s.step a = some t) :
    TableOk instances t ↔ TableOk instances s ∧ AdditionsSettled s a := by
  cases step_cases hstep with
  | startBackend hpc hw => exact absurd hpc h.started
  | serve hpc => exact absurd hpc h.started
  | snapshot hpc => cases ha
  | connectFailed hpc => cases ha
  | @remove l w hpc hw =>
    obtain rfl := h.removing _ hpc
    rw [tableOk_remove_iff hpc hw]
    exact (and_iff_right (by simp [TableOk, hpc])).symm
  | unregister hpc _ hw =>
    obtain ⟨c, rest, -, rfl⟩ := World.step_eraseFd hw
    rw [and_iff_left (by trivial)]
    simp only [TableOk, hpc]
    exact progress_congr rfl (by rw [hpc]; rfl)
  | unregistered hpc _ =>
    rw [and_iff_left (by trivial)]
    simp only [TableOk, hpc]
    exact progress_congr rfl (by rw [hpc]; rfl)
  | close hpc =>
    rw [and_iff_left (by trivial)]
    simp only [TableOk, hpc]
    exact progress_congr rfl (by rw [hpc]; rfl)
  | passed hpc =>
    rw [and_iff_left (by simp [AdditionsSettled, hpc])]
    simp only [TableOk, hpc]
    exact progress_congr rfl (by rw [hpc]; rfl)
  | @known addr l hpc hknown =>
    rw [and_iff_left (by simp [AdditionsSettled, hpc, hknown])]
    simp only [TableOk, hpc]
    constructor
    -- one address less to look up, and it is in the table
    · refine fun hp => ⟨hp.nodup, hp.subset, fun x hx => ?_⟩
      rw [hpc]
      exact (hp.cover x hx).imp_right (List.mem_cons_of_mem _)
    · refine fun hp => ⟨hp.nodup, hp.subset, fun x hx => ?_⟩
      have hcover := hp.cover x hx
      rw [hpc] at hcover
      rcases hcover with hx | hx
      · exact Or.inl hx
      · -- the address that has been found
        rcases List.mem_cons.mp hx with rfl | hx
        · exact Or.inl (mem_addrs_of_hasAddr hknown)
        · exact Or.inr hx
  | @unknown addr l hpc hunknown =>
    simp only [TableOk, AdditionsSettled, hpc, hunknown, forall_const]
    -- `has_addr` sees the entries only, the posted additions decide
    rw [← mem_addrs_iff_of_not_hasAddr hunknown, and_comm]
    exact and_congr_left' (progress_congr rfl (by rw [hpc]; rfl))
  | @connect addr l fd w hpc hw =>
    obtain ⟨-, rfl⟩ := World.step_connect hw
    rw [and_iff_left (by trivial)]
    refine tableOk_connect_iff (h.todo addr (by simp [hpc, todo])) hpc rfl ?_
    simp [addrs]
  | runAdd _ _ hw =>
    obtain ⟨addr, c, more, hadding, rfl⟩ := World.step_addBackend hw
    rw [and_iff_left (by trivial)]
    -- from the posted additions to the entries: the addresses are the same
    exact tableOk_congr (by simp [addrs, hadding]) rfl
  | insertFd hw =>
    obtain ⟨c, rest, -, rfl⟩ := World.step_insertFd hw
    rw [and_iff_left (by trivial)]
    exact tableOk_congr rfl rfl
  | gateway _ hallows hw =>
    have htables := (elsewhere_of_step hallows hw).1
    rw [and_iff_left (by trivial)]
    exact tableOk_congr (by simp only [addrs, htables.addrs, htables.adding]) rfl
  | runClose _ _ =>
    rw [and_iff_left (by trivial)]
    refine tableOk_congr ?_ (disconnect_monitor ..)
    show addrs (s.disconnect _).gateway = _
    rw [disconnect_gateway]
  | handleClose _ =>
    rw [and_iff_left (by trivial)]
    exact tableOk_congr (by rw [disconnect_gateway]) (disconnect_monitor ..)
  | peerClose _ =>
    rw [and_iff_left (by trivial)]
    exact tableOk_congr rfl rfl

/-! ## §5 The connections -/

/-- The connections of the table are in state `Connected`. -/
def Connected (s : Supervised) : Prop := ∀ c ∈ s.gateway.entryConns, c ∉ s.disconnected

/-- Nothing is asked before the critical section. -/
def ConnectedOk (s : Supervised) : Prop := (∀ l, s.monitor ≠ .removing l) → Connected s

/-- The main loop closes a connection. -/
private theorem connected_disconnect_iff {s : Supervised} {c : ConnId}
    (halive : s.gateway.alive c = true) (hc : c ∉ s.disconnected) :
    Connected (s.disconnect c) ↔ Connected s ∧ c ∉ s.gateway.entryConns := by
  have hdisc : (s.disconnect c).disconnected = c :: s.disconnected := by
    simp [disconnect, halive, hc]
  unfold Connected
  rw [hdisc, disconnect_gateway]
  constructor
  · intro h
    refine ⟨fun x hx hmem => h x hx (List.mem_cons_of_mem _ hmem), fun hmem => ?_⟩
    exact h c hmem (List.mem_cons_self ..)
  · rintro ⟨h, hnot⟩ x hx hmem
    rcases List.mem_cons.mp hmem with rfl | hmem
    · exact hnot hx
    · exact h x hx hmem

private theorem keepsConnected_handleClose_iff {s : Supervised} {c : ConnId} {cause : CloseCause} :
    KeepsConnected s (.handleClose c cause) ↔
      ((∀ l, s.monitor ≠ .removing l) → c ∉ s.gateway.entryConns) := by
  unfold KeepsConnected
  cases s.monitor with
  | removing l => simp
  | _ => simp

/-- The connection of a posted close is in no table. -/
private theorem connected_runClose_iff {s : Supervised} (hi : Inv s) {c : ConnId}
    {rest : List Posted} (hposted : s.posted = .close c :: rest) :
    Connected { s.disconnect c with posted := rest } ↔ Connected s := by
  have hmem : c ∈ s.closing := by
    simp [closing, hposted, Posted.closing]
  have hnot : c ∉ s.gateway.entryConns := fun hc =>
    (List.nodup_append.mp hi.nodup).2.2 c
      (List.mem_append_left _ (List.mem_append_left _ hc)) c hmem rfl
  show (∀ x ∈ (s.disconnect c).gateway.entryConns, x ∉ (s.disconnect c).disconnected) ↔ _
  rw [disconnect_gateway]
  constructor
  · intro h x hx hmem'
    refine h x hx ?_
    unfold disconnect
    split_ifs
    · exact List.mem_cons_of_mem _ hmem'
    · exact hmem'
  · intro h x hx hmem'
    rcases mem_disconnect hmem' with ⟨rfl, -⟩ | hmem'
    · exact hnot hx
    · exact h x hx hmem'

private theorem connectedOk_congr {s t : Supervised} (hconnected : Connected t ↔ Connected s)
    (hmonitor : (∀ l, s.monitor ≠ .removing l) ∧ (∀ l, t.monitor ≠ .removing l) ∨
      t.monitor = s.monitor) : ConnectedOk t ↔ ConnectedOk s := by
  unfold ConnectedOk
  rcases hmonitor with ⟨hs, ht⟩ | hsame
  · exact ⟨fun h _ => hconnected.mp (h ht), fun h _ => hconnected.mpr (h hs)⟩
  · rw [hsame, hconnected]

theorem connectedOk_step_iff {instances : List String} {s t : Supervised} {a : Act} (hi : Inv s)
    (h : InPass instances s.monitor) (ha : ofOnePass a = true) (hstep : s.step a = some t) :
    ConnectedOk t ↔ ConnectedOk s ∧ KeepsConnected s a := by
  cases step_cases hstep with
  | startBackend hpc hw => exact absurd hpc h.started
  | serve hpc => exact absurd hpc h.started
  | snapshot hpc => cases ha
  | connectFailed hpc => cases ha
  | @remove l w hpc hw =>
    cases hw
    -- this is where the connections begin to count
    have hbefore : ConnectedOk s := fun hne => absurd hpc (hne l)
    rw [and_iff_right hbefore]
    simp only [ConnectedOk, Connected, KeepsConnected, hpc, World.entryConns]
    -- what stays in the table are the entries of the snapshot
    constructor
    · intro hconn e he hin
      refine hconn (by simp) e.conn (List.mem_map.mpr ⟨e, List.mem_filter.mpr ⟨he, ?_⟩, rfl⟩)
      simpa using hin
    · rintro hkept - c hc
      obtain ⟨e, he, rfl⟩ := List.mem_map.mp hc
      obtain ⟨he, hin⟩ := List.mem_filter.mp he
      exact hkept e he (by simpa using hin)
  | unregister hpc _ hw =>
    obtain ⟨c, rest, -, rfl⟩ := World.step_eraseFd hw
    rw [and_iff_left (by trivial)]
    exact connectedOk_congr Iff.rfl (Or.inl (by simp [hpc]))
  | unregistered hpc _ =>
    rw [and_iff_left (by trivial)]
    exact connectedOk_congr Iff.rfl (Or.inl (by simp [hpc]))
  | close hpc =>
    rw [and_iff_left (by trivial)]
    exact connectedOk_congr Iff.rfl (Or.inl (by simp [hpc]))
  | passed hpc =>
    rw [and_iff_left (by trivial)]
    exact connectedOk_congr Iff.rfl (Or.inl (by simp [hpc]))
  | known hpc _ =>
    rw [and_iff_left (by trivial)]
    exact connectedOk_congr Iff.rfl (Or.inl (by simp [hpc]))
  | unknown hpc _ =>
    rw [and_iff_left (by trivial)]
    exact connectedOk_congr Iff.rfl (Or.inl (by simp [hpc]))
  | connect hpc hw =>
    obtain ⟨-, rfl⟩ := World.step_connect hw
    rw [and_iff_left (by trivial)]
    exact connectedOk_congr Iff.rfl (Or.inl (by simp [hpc]))
  | @runAdd rest w hidle hposted hw =>
    obtain ⟨addr, c, more, hadding, rfl⟩ := World.step_addBackend hw
    rw [and_iff_left (by trivial)]
    refine connectedOk_congr ?_ (Or.inr rfl)
    -- nobody has closed it before it is added
    have hnot : c ∉ s.disconnected := fun hc => by
      have hadd := (hi.disconnected c hc).2
      simp [hadding] at hadd
    simp only [Connected, World.entryConns, List.map_append, List.map_cons, List.map_nil]
    constructor
    · exact fun hconn x hx => hconn x (List.mem_append_left _ hx)
    · intro hconn x hx
      rcases List.mem_append.mp hx with hx | hx
      · exact hconn x hx
      · exact List.mem_singleton.mp hx ▸ hnot
  | insertFd hw =>
    obtain ⟨c, rest, -, rfl⟩ := World.step_insertFd hw
    rw [and_iff_left (by trivial)]
    exact connectedOk_congr Iff.rfl (Or.inr rfl)
  | gateway _ hallows hw =>
    have htables := (elsewhere_of_step hallows hw).1
    rw [and_iff_left (by trivial)]
    refine connectedOk_congr ?_ (Or.inr rfl)
    unfold Connected
    rw [htables.entryConns]
  | runClose _ hposted =>
    rw [and_iff_left (by trivial)]
    exact connectedOk_congr (connected_runClose_iff hi hposted) (Or.inr (disconnect_monitor ..))
  | @handleClose c cause hreg =>
    simp only [registered, Bool.and_eq_true, Bool.not_eq_true'] at hreg
    have hiff := connected_disconnect_iff hreg.1.1.2 (by simpa using hreg.2)
    unfold ConnectedOk
    rw [disconnect_monitor, hiff, keepsConnected_handleClose_iff]
    exact ⟨fun h' => ⟨fun hne => (h' hne).1, fun hne => (h' hne).2⟩,
      fun h' hne => ⟨h'.1 hne, h'.2 hne⟩⟩
  | peerClose _ =>
    rw [and_iff_left (by trivial)]
    exact connectedOk_congr Iff.rfl (Or.inr rfl)

/-! ## §6 Runs -/

theorem run_inv {acts : List Act} {s : Supervised} (hrun : run step init acts = some s) : Inv s :=
  run_invariant (fun _ _ _ hi h => hi.step h) .init hrun

/-- Nothing is posted or half done: the table is all there is. -/
private theorem CompletePass.addrs_eq {instances : List String} {s t : Supervised} {acts : List Act}
    (h : CompletePass instances s acts t) (hi : Inv t) :
    addrs t.gateway = t.gateway.backends.map BackendEntry.addr := by
  have hnil : t.gateway.adding = [] := by
    rw [← List.length_eq_zero_iff, ← hi.adds, List.count_eq_zero]
    exact h.added
  rw [addrs, hnil, List.map_nil, List.append_nil]

/-- At the end of the pass, the table is the snapshot. -/
private theorem progress_iff_perm {instances : List String} {t : Supervised}
    (hdistinct : instances.Nodup) (htodo : todo t.monitor = [])
    (haddrs : addrs t.gateway = t.gateway.backends.map BackendEntry.addr) :
    Progress instances t ↔ (t.gateway.backends.map BackendEntry.addr).Perm instances := by
  constructor
  · intro h
    rw [← haddrs]
    refine (List.perm_ext_iff_of_nodup h.nodup hdistinct).mpr fun addr =>
      ⟨h.subset addr, fun ha => ?_⟩
    have hcover := h.cover addr ha
    rw [htodo] at hcover
    exact hcover.resolve_right List.not_mem_nil
  · intro h
    rw [← haddrs] at h
    exact ⟨h.nodup_iff.mpr hdistinct, fun addr => h.mem_iff.mp, fun addr ha =>
      Or.inl (h.mem_iff.mpr ha)⟩

/-- **Convergence**: after one more complete pass from any reachable state, over a snapshot with
pairwise distinct addresses, the table is the snapshot exactly if the pass met no stray addition,
and its connections are in state `Connected`, provided no peer closed in the meantime, exactly if
the pass kept none that was closed. -/
theorem backends_converge_iff (before acts : List Act) (s t : Supervised) (instances : List String)
    (hreach : run step init before = some s) (hpass : CompletePass instances s acts t)
    (hdistinct : instances.Nodup) :
    Converged instances acts t ↔
      Meets step AdditionsSettled s (.snapshot instances :: acts) ∧
        ((∀ c, Act.peerClose c ∉ acts) →
          Meets step KeepsConnected s (.snapshot instances :: acts)) := by
  obtain ⟨s₁, hs₁, hrun⟩ := run_cons_eq_some.mp hpass.run
  have hi₁ : Inv s₁ := (run_inv hreach).step hs₁
  have hone : Meets step (fun _ a => ofOnePass a = true) s₁ acts :=
    meets_of_forall (fun a ha _ => List.all_eq_true.mp hpass.onePass a ha) s₁
  have hmonitor : s₁.monitor = .removing instances := by
    cases step_cases hs₁ with
    | snapshot hpc => rfl
  have hin₁ : InPass instances s₁.monitor := by
    rw [hmonitor]
    exact ⟨by simp, fun _ ha => ha, by simp, by simp, by simp⟩
  have hI : ∀ v a v', (Inv v ∧ InPass instances v.monitor) → ofOnePass a = true →
      step v a = some v' → Inv v' ∧ InPass instances v'.monitor :=
    fun v a v' hv ha h => ⟨hv.1.step h, hv.2.step ha h⟩
  -- what the last state says of the table and of the connections, step by step
  have htable := last_iff_meets_of_meets (G := AdditionsSettled) (P := TableOk instances) hI
    (fun v a v' hv ha h => tableOk_step_iff hv.2 ha h) ⟨hi₁, hin₁⟩ hone hrun
  have hconn := last_iff_meets_of_meets (G := KeepsConnected) (P := ConnectedOk) hI
    (fun v a v' hv ha h => connectedOk_step_iff hv.1 hv.2 ha h) ⟨hi₁, hin₁⟩ hone hrun
  -- the first step takes the snapshot, and no condition is about it
  have hfirst : ∀ {G : Supervised → Act → Prop}, G s (.snapshot instances) →
      (Meets step G s (.snapshot instances :: acts) ↔ Meets step G s₁ acts) := fun hG =>
    ⟨fun h => h.2 s₁ hs₁, fun h => ⟨hG, fun u hu => Option.some.inj (hs₁.symm.trans hu) ▸ h⟩⟩
  rw [hfirst (G := AdditionsSettled) trivial, hfirst (G := KeepsConnected) trivial]
  have hstart : TableOk instances s₁ ∧ ConnectedOk s₁ := by
    unfold TableOk ConnectedOk
    rw [hmonitor]
    exact ⟨trivial, fun hne => absurd rfl (hne instances)⟩
  have hiₜ : Inv t := run_invariant (fun _ _ _ hi h => hi.step h) hi₁ hrun
  -- the monitor waits again
  have htable' : (t.gateway.backends.map BackendEntry.addr).Perm instances ↔
      Meets step AdditionsSettled s₁ acts := by
    rw [← progress_iff_perm hdistinct (by rw [hpass.done]; rfl) (hpass.addrs_eq hiₜ),
      ← and_iff_right (a := TableOk instances s₁) (b := Meets _ _ _ _) hstart.1, ← htable]
    simp only [TableOk, hpass.done]
  have hconn' : Connected t ↔ Meets step KeepsConnected s₁ acts := by
    rw [← and_iff_right (a := ConnectedOk s₁) (b := Meets _ _ _ _) hstart.2, ← hconn]
    simp [ConnectedOk, hpass.done]
  have hentry : Connected t ↔ ∀ e ∈ t.gateway.backends, e.conn ∉ t.disconnected := by
    simp [Connected, World.entryConns]
  rw [← htable', ← hconn', hentry]
  exact ⟨fun h => ⟨h.table, h.connected⟩, fun h => ⟨h.1, h.2⟩⟩

/-- A backend goes away and another one comes. -/
def oneForAnother : List Act :=
  [.remove, .unregister, .close, .unregister, .check, .connect 8, .check, .runPosted, .runPosted,
    .insertFd]

theorem backends_converge_iff_one :
    ∃ s t, run step init [.startBackend "127.0.0.1:9001" 7, .serve] = some s ∧
      CompletePass ["127.0.0.1:9002"] s oneForAnother t ∧
      Converged ["127.0.0.1:9002"] oneForAnother t := by
  have hlast : ((run step init [.startBackend "127.0.0.1:9001" 7, .serve]).any fun s =>
      decide (Meets step AdditionsSettled s (.snapshot ["127.0.0.1:9002"] :: oneForAnother)) &&
      decide (Meets step KeepsConnected s (.snapshot ["127.0.0.1:9002"] :: oneForAnother)) &&
      (run step s (.snapshot ["127.0.0.1:9002"] :: oneForAnother)).any fun t =>
        decide (t.monitor = .waiting ∧ Posted.add ∉ t.posted ∧ t.gateway.inserting = [])) = true := by
    decide +kernel
  obtain ⟨s, hs, hlast⟩ := exists_of_run_any hlast
  obtain ⟨hmeets, hlast⟩ := Bool.and_eq_true_iff.mp hlast
  obtain ⟨hsettled, hkept⟩ := Bool.and_eq_true_iff.mp hmeets
  obtain ⟨t, ht, hlast⟩ := exists_of_run_any hlast
  obtain ⟨hdone, hadded, hinserted⟩ := of_decide_eq_true hlast
  have hpass : CompletePass ["127.0.0.1:9002"] s oneForAnother t :=
    ⟨ht, by decide, hdone, hadded, hinserted⟩
  exact ⟨s, t, hs, hpass, (backends_converge_iff _ _ s t _ hs hpass (by simp)).mpr
    ⟨of_decide_eq_true hsettled, fun _ => of_decide_eq_true hkept⟩⟩

/-- A backend closes its connection. -/
def restarted : List Act :=
  [.startBackend "127.0.0.1:9001" 7, .serve, .peerClose 0, .handleClose 0 .eof]

/-- It is back before the registry has missed it: `has_addr` finds the old entry. -/
def idlePass : List Act := [.remove, .unregister, .check, .check]

/-- A pass has posted an addition, which the main loop has not run. -/
def slowLoop : List Act :=
  [.serve, .snapshot ["127.0.0.1:9001"], .remove, .unregister, .check, .connect 7, .check]

/-- The next pass does not find the address, and connects it again. -/
def secondPass : List Act :=
  [.remove, .unregister, .check, .connect 8, .check, .runPosted, .insertFd, .runPosted, .insertFd]

/-- The restarted backend has an entry with a closed connection; the other one has two entries. -/
theorem backends_diverge :
    (∃ s t, run step init restarted = some s ∧
      CompletePass ["127.0.0.1:9001"] s idlePass t ∧
      (∀ e ∈ t.gateway.backends, e.conn ∈ t.disconnected) ∧
      ¬Converged ["127.0.0.1:9001"] idlePass t) ∧
    ∃ s t, run step init slowLoop = some s ∧
      CompletePass ["127.0.0.1:9001"] s secondPass t ∧
      t.gateway.backends.map BackendEntry.addr = ["127.0.0.1:9001", "127.0.0.1:9001"] ∧
      ¬Converged ["127.0.0.1:9001"] secondPass t := by
  constructor
  · have hlast : ((run step init restarted).any fun s =>
        (run step s (.snapshot ["127.0.0.1:9001"] :: idlePass)).any fun t =>
          decide (t.monitor = .waiting ∧ Posted.add ∉ t.posted ∧ t.gateway.inserting = [] ∧
            t.gateway.backends ≠ [] ∧ ∀ e ∈ t.gateway.backends, e.conn ∈ t.disconnected)) = true := by
      decide +kernel
    obtain ⟨s, hs, hlast⟩ := exists_of_run_any hlast
    obtain ⟨t, ht, hlast⟩ := exists_of_run_any hlast
    obtain ⟨hdone, hadded, hinserted, hsome, hclosed⟩ := of_decide_eq_true hlast
    refine ⟨s, t, hs, ⟨ht, by decide, hdone, hadded, hinserted⟩, hclosed, fun h => ?_⟩
    obtain ⟨e, he⟩ := List.exists_mem_of_ne_nil _ hsome
    exact h.connected (by simp [idlePass]) e he (hclosed e he)
  · have hlast : ((run step init slowLoop).any fun s =>
        (run step s (.snapshot ["127.0.0.1:9001"] :: secondPass)).any fun t =>
          decide (t.monitor = .waiting ∧ Posted.add ∉ t.posted ∧ t.gateway.inserting = [] ∧
            t.gateway.backends.map BackendEntry.addr = ["127.0.0.1:9001", "127.0.0.1:9001"])) =
        true := by
      decide +kernel
    obtain ⟨s, hs, hlast⟩ := exists_of_run_any hlast
    obtain ⟨t, ht, hlast⟩ := exists_of_run_any hlast
    obtain ⟨hdone, hadded, hinserted, htwice⟩ := of_decide_eq_true hlast
    refine ⟨s, t, hs, ⟨ht, by decide, hdone, hadded, hinserted⟩, htwice, fun h => ?_⟩
    have hlength := h.table.length_eq
    rw [htwice] at hlength
    cases hlength

end Supervised

end EchoNet.Gateway
