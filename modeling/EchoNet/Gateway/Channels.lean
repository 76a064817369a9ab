import EchoNet.Gateway.Direction

/-!
# The Channels of the Main Loop

`channels_` of the main loop maps a descriptor to the `Channel` of a connection, by a plain
pointer.  The connection to a backend is not in `connections_`: its owners are the entry in
`backends`, the monitor's list and the running handlers.  `Connection::close` posts a callback
with a `weak_ptr`, so if the last owner lets go before the main loop runs it, the callback finds
nobody and the channel stays registered.

## Main results

- `channel_of_registered`: a connection that is registered and not closed has its channel in the
  map;
- `channels_alive_iff`: no channel outlives its connection, exactly if every connection to a backend
  that is destroyed has been closed by the main loop before;
- `channel_outlives_connection`: a run in which the monitor is faster.
-/

namespace EchoNet.Gateway

open EchoNet.Lib EchoNet.Protocol

/-! ## §1 States -/

/-- The part of `channels_` that is about backends: the connection a channel belongs to. -/
abbrev ChannelMap := AList fun _ : Int => ConnId

structure Looped where
  system : Supervised
  channels : ChannelMap

namespace Looped

def init : Looped where
  system := .init
  channels := ∅

/-- `EventLoop::updateChannel`, in an addition. -/
def updateChannel (channels : ChannelMap) (w : World) (c : ConnId) : ChannelMap :=
  match w.fd c with
  | some fd => channels.insert fd c
  | none => channels

/-- `Connection::handleClose` under `weak_ptr::lock`, to `EventLoop::removeConnection`. -/
def removeConnection (channels : ChannelMap) (s : Supervised) (c : ConnId) : ChannelMap :=
  if s.gateway.alive c && !s.disconnected.contains c then
    match s.gateway.fd c with
    | some fd => channels.erase fd
    | none => channels
  else channels

/-- What a step that leads from `s` to `t` does to the map. -/
def channelsAfter (channels : ChannelMap) (s t : Supervised) : Supervised.Act → ChannelMap
  | .startBackend _ _ => updateChannel channels t.gateway s.gateway.conns.length
  | .runPosted =>
    match s.posted with
    | .close c :: _ => removeConnection channels s c
    | .add :: _ =>
      match s.gateway.adding with
      | (_, c) :: _ => updateChannel channels s.gateway c
      | [] => channels
    | [] => channels
  | .handleClose c _ => removeConnection channels s c
  | _ => channels

def step (l : Looped) (a : Supervised.Act) : Option Looped :=
  (l.system.step a).map fun t => ⟨t, channelsAfter l.channels l.system t a⟩

/-! ## §2 Whose channels are in the map -/

structure Inv (l : Looped) : Prop where
  system : l.system.Inv
  /-- a channel is that of a connection that was registered and has not been closed -/
  entry : ∀ fd c, l.channels.lookup fd = some c →
    l.system.gateway.outbound c = true ∧ l.system.gateway.fd c = some fd ∧
      c ∉ l.system.gateway.adding.map Prod.snd ∧ c ∉ l.system.disconnected
  channel : ∀ c, l.system.registered c = true → ∀ fd, l.system.gateway.fd c = some fd →
    l.channels.lookup fd = some c

theorem Inv.init : Inv init := by
  refine ⟨.init, fun fd c h => ?_, fun c h => ?_⟩
  · cases h
  · simp [Looped.init, Supervised.registered, Supervised.init, World.outbound, World.init] at h

theorem registered_iff {s : Supervised} {c : ConnId} :
    s.registered c = true ↔ s.gateway.outbound c = true ∧ s.gateway.alive c = true ∧
      c ∉ s.gateway.adding.map Prod.snd ∧ c ∉ s.disconnected := by
  simp only [Supervised.registered, Bool.and_eq_true, Bool.not_eq_true', List.all_eq_true,
    decide_eq_true_eq, and_assoc, List.mem_map, not_exists, not_and, Bool.eq_false_iff, ne_eq,
    List.contains_iff_mem]

/-- An outbound connection that is there has its descriptor. -/
theorem isOpen_of_alive {w : World} (h : w.ConnInv) {c : ConnId} (hout : w.outbound c = true)
    (halive : w.alive c = true) : w.isOpen c = true := by
  cases hx : w.conns[c]? with
  | none => simp [World.alive, hx] at halive
  | some x =>
    simp only [World.alive, World.outbound, hx, Option.map_some, Option.getD_some] at halive hout
    simpa [World.isOpen, hx] using h.outbound c x hx hout halive

theorem fd_of_outbound {w : World} {c : ConnId} (h : w.outbound c = true) :
    ∃ fd, w.fd c = some fd := by
  cases hx : w.conns[c]? with
  | none => simp [World.outbound, hx] at h
  | some x => exact ⟨x.fd, by simp [World.fd, hx]⟩

/-- The step leaves the map alone, and the connections that are registered: no connection is
registered or closed, and none comes back. -/
private theorem Inv.keep {l : Looped} {t : Supervised} (h : Inv l) (ht : t.Inv)
    (hold : ∀ c < l.system.gateway.conns.length,
      t.gateway.outbound c = l.system.gateway.outbound c ∧
        t.gateway.fd c = l.system.gateway.fd c ∧
        (t.gateway.alive c = true → l.system.gateway.alive c = true))
    (hnew : ∀ c, l.system.gateway.conns.length ≤ c → t.gateway.outbound c = true →
      c ∈ t.gateway.adding.map Prod.snd)
    (hadding : ∀ c < l.system.gateway.conns.length,
      (c ∈ t.gateway.adding.map Prod.snd ↔ c ∈ l.system.gateway.adding.map Prod.snd))
    (hdisc : t.disconnected = l.system.disconnected) : Inv ⟨t, l.channels⟩ := by
  refine ⟨ht, fun fd c hc => ?_, fun c hc fd hfd => ?_⟩
  · obtain ⟨hout, hcfd, hnot, hopen⟩ := h.entry fd c hc
    have hlt := World.lt_of_outbound hout
    obtain ⟨hsame, hsamefd, -⟩ := hold c hlt
    exact ⟨hsame.trans hout, hsamefd.trans hcfd, (hadding c hlt).not.mpr hnot, hdisc ▸ hopen⟩
  · obtain ⟨hout, halive, hnot, hopen⟩ := registered_iff.mp hc
    -- a connection that is new has its addition still posted
    have hlt : c < l.system.gateway.conns.length := by
      by_contra hge
      exact hnot (hnew c (not_lt.mp hge) hout)
    obtain ⟨hsame, hsamefd, hback⟩ := hold c hlt
    refine h.channel c (registered_iff.mpr ⟨hsame ▸ hout, hback halive, ?_, hdisc ▸ hopen⟩) fd ?_
    · exact (hadding c hlt).not.mp hnot
    · exact hsamefd ▸ hfd

/-- A connection is registered: nobody else who is registered has its descriptor. -/
private theorem Inv.register {channels : ChannelMap} {w : World} {t : Supervised} {c : ConnId}
    (ht : t.Inv) (hc : t.registered c = true) (hw : w.fd c = t.gateway.fd c)
    (hentry : ∀ fd' c', channels.lookup fd' = some c' →
      t.gateway.outbound c' = true ∧ t.gateway.fd c' = some fd' ∧
        c' ∉ t.gateway.adding.map Prod.snd ∧ c' ∉ t.disconnected)
    (hold : ∀ c', c' ≠ c → t.registered c' = true → ∀ fd', t.gateway.fd c' = some fd' →
      channels.lookup fd' = some c') : Inv ⟨t, updateChannel channels w c⟩ := by
  obtain ⟨hout, halive, hadding, hdisc⟩ := registered_iff.mp hc
  obtain ⟨fd, hfd⟩ := fd_of_outbound hout
  have hmap : updateChannel channels w c = channels.insert fd c := by
    simp [updateChannel, hw, hfd]
  rw [hmap]
  refine ⟨ht, fun fd' c' hc' => ?_, fun c' hc' fd' hfd' => ?_⟩
  · by_cases heq : fd' = fd
    · subst heq
      rw [AList.lookup_insert, Option.some.injEq] at hc'
      subst hc'
      exact ⟨hout, hfd, hadding, hdisc⟩
    · rw [AList.lookup_insert_ne heq] at hc'
      exact hentry fd' c' hc'
  · by_cases heq : c' = c
    · subst heq
      rw [hfd, Option.some.injEq] at hfd'
      rw [hfd']
      exact AList.lookup_insert _
    · obtain ⟨hout', halive', -, -⟩ := registered_iff.mp hc'
      -- two connections that are open have two descriptors
      have hne : fd' ≠ fd := by
        rintro rfl
        exact heq (Supervised.eq_of_fd_eq ht.conns (isOpen_of_alive ht.conns hout' halive')
          (isOpen_of_alive ht.conns hout halive) (hfd'.trans hfd.symm))
      rw [AList.lookup_insert_ne hne]
      exact hold c' heq hc' fd' hfd'

/-- The main loop closes a connection: its channel goes, and no other. -/
private theorem Inv.disconnect {l : Looped} (h : Inv l) {c : ConnId} {t : Supervised}
    (hout : l.system.gateway.outbound c = true) (ht : t.Inv)
    (hgateway : t.gateway = l.system.gateway)
    (hdisc : t.disconnected = (l.system.disconnect c).disconnected) :
    Inv ⟨t, removeConnection l.channels l.system c⟩ := by
  unfold Supervised.disconnect at hdisc
  unfold removeConnection
  split_ifs at hdisc ⊢ with hopen
  swap
  · exact ⟨ht, fun fd c' hc' => hgateway ▸ hdisc ▸ h.entry fd c' hc', fun c' hc' fd hfd =>
      h.channel c' (registered_iff.mpr (hgateway ▸ hdisc ▸ registered_iff.mp hc')) fd
        (hgateway ▸ hfd)⟩
  obtain ⟨halive, -⟩ := Bool.and_eq_true_iff.mp hopen
  obtain ⟨fd, hfd⟩ := fd_of_outbound hout
  simp only [hfd]
  refine ⟨ht, fun fd' c' hc' => ?_, fun c' hc' fd' hfd' => ?_⟩
  · have hne : fd' ≠ fd := by
      rintro rfl
      rw [AList.lookup_erase] at hc'
      cases hc'
    rw [AList.lookup_erase_ne hne] at hc'
    obtain ⟨hout', hcfd, hadding, hnot⟩ := h.entry fd' c' hc'
    rw [hgateway, hdisc, List.mem_cons, not_or]
    refine ⟨hout', hcfd, hadding, ?_, hnot⟩
    rintro rfl
    rw [hfd, Option.some.injEq] at hcfd
    exact hne hcfd.symm
  · obtain ⟨hout', halive', hadding, hnot⟩ := registered_iff.mp hc'
    rw [hgateway] at hout' halive' hadding hfd'
    rw [hdisc, List.mem_cons, not_or] at hnot
    -- two connections that are there have two descriptors
    have hne : fd' ≠ fd := by
      rintro rfl
      exact hnot.1 (Supervised.eq_of_fd_eq h.system.conns
        (isOpen_of_alive h.system.conns hout' halive')
        (isOpen_of_alive h.system.conns hout halive) (hfd'.trans hfd.symm))
    rw [AList.lookup_erase_ne hne]
    exact h.channel c' (registered_iff.mpr ⟨hout', halive', hadding, hnot.2⟩) fd' hfd'

/-- The older connections after a new one is made, and the new one. -/
private theorem same_of_newConn {w w' : World} {x : Conn} (h : w'.conns = w.conns ++ [x])
    {c : ConnId} (hc : c < w.conns.length) : w'.outbound c = w.outbound c ∧ w'.fd c = w.fd c ∧
      (w'.alive c = true → w.alive c = true) := by
  obtain ⟨halive, hout, -, hfd⟩ := World.same_of_getElem? (World.getElem?_of_newConn h hc)
  exact ⟨hout, hfd, fun ha => halive ▸ ha⟩

private theorem lt_or_eq_of_newConn {w w' : World} {x : Conn} (h : w'.conns = w.conns ++ [x])
    {c : ConnId} (hout : w'.outbound c = true) : c < w.conns.length ∨ c = w.conns.length := by
  have hlt := World.lt_of_outbound hout
  rw [h, List.length_append, List.length_singleton] at hlt
  exact Nat.lt_succ_iff_lt_or_eq.mp hlt

/-- The other threads bring no connection back. -/
private theorem alive_of_elsewhere {w w' : World} {a : Act} (h : Elsewhere w w' a) {c : ConnId}
    (hc : c < w.conns.length) : (w'.alive c = true → w.alive c = true) ∧
      (a ≠ .destroy c → w'.alive c = w.alive c) := by
  have hsame : w'.conns[c]? = w.conns[c]? → (w'.alive c = true → w.alive c = true) ∧
      (a ≠ .destroy c → w'.alive c = w.alive c) := fun heq =>
    ⟨fun halive => (World.same_of_getElem? heq).1 ▸ halive,
      fun _ => (World.same_of_getElem? heq).1⟩
  cases h with
  | accept _ hconns _ => exact hsame (World.getElem?_of_newConn hconns hc)
  | receive hconns _ => exact hsame (by rw [hconns])
  | handler _ hmoves => exact hsame (by rw [hmoves.conns])
  | other _ hconns _ => exact hsame (by rw [hconns])
  -- closing the descriptor leaves the object
  | @closeFd c' hconns _ =>
    have heq : w'.alive c = w.alive c := by
      simp only [World.alive, hconns, List.getElem?_modify]
      split_ifs <;> cases w.conns[c]? <;> rfl
    exact ⟨fun halive => heq ▸ halive, fun _ => heq⟩
  | @destroy c' _ hconns _ =>
    by_cases heq : c' = c
    · subst heq
      have hdead : w'.alive c' = false := by
        simp only [World.alive, hconns, List.getElem?_modify, if_pos]
        cases w.conns[c']? <;> rfl
      exact ⟨fun halive => by simp [hdead] at halive, fun hne => absurd rfl hne⟩
    · exact hsame (by rw [hconns, List.getElem?_modify_ne _ _ heq])

/-- They connect to no backend. -/
private theorem lt_of_elsewhere {w w' : World} {a : Act} (h : Elsewhere w w' a) {c : ConnId}
    (hout : w'.outbound c = true) : c < w.conns.length := by
  cases h with
  | accept _ hconns _ =>
    by_contra hge
    simp only [World.outbound, hconns, List.getElem?_append_right (not_lt.mp hge)] at hout
    cases hrest : c - w.conns.length <;> simp [hrest] at hout
  | receive hconns _ => exact hconns ▸ World.lt_of_outbound hout
  | handler _ hmoves => exact hmoves.conns ▸ World.lt_of_outbound hout
  | other _ hconns _ => exact hconns ▸ World.lt_of_outbound hout
  | closeFd hconns _ => simpa [hconns] using World.lt_of_outbound hout
  | destroy _ hconns _ => simpa [hconns] using World.lt_of_outbound hout

/-- The main thread adds a backend. -/
private theorem Inv.startBackend {l : Looped} (h : Inv l) {addr : String} {fd : Int} {w : World}
    (hpc : l.system.monitor = .starting)
    (hw : run World.step l.system.gateway [.connect addr fd, .addBackend, .insertFd] = some w)
    (ht : ({ l.system with gateway := w } : Supervised).Inv) :
    Inv ⟨{ l.system with gateway := w },
      updateChannel l.channels w l.system.gateway.conns.length⟩ := by
  obtain ⟨-, hadding, hinserting⟩ := h.system.starting hpc
  obtain ⟨-, rfl⟩ := World.run_startBackend hadding hinserting hw
  set w : World := { l.system.gateway with
    conns := l.system.gateway.conns ++ [⟨fd, true, true, true⟩] }
  have hconns : w.conns = l.system.gateway.conns ++ [⟨fd, true, true, true⟩] := rfl
  refine Inv.register ht (registered_iff.mpr ⟨?_, ?_, ?_, fun hmem => ?_⟩) rfl
    (fun fd' c' hc' => ?_) fun c' hne hc' fd' hfd' => ?_
  · simp [World.outbound]
  · simp [World.alive]
  · simp [hadding]
  -- the connection is new, and nobody has closed it
  · exact lt_irrefl _ (World.lt_of_outbound (h.system.disconnected _ hmem).1)
  · obtain ⟨hout, hcfd, hrest⟩ := h.entry fd' c' hc'
    obtain ⟨hsame, hsamefd, -⟩ := same_of_newConn hconns (World.lt_of_outbound hout)
    exact ⟨hsame.trans hout, hsamefd.trans hcfd, hrest⟩
  · obtain ⟨hout, halive, hrest⟩ := registered_iff.mp hc'
    have hlt := (lt_or_eq_of_newConn hconns hout).resolve_right hne
    obtain ⟨hsame, hsamefd, hback⟩ := same_of_newConn hconns hlt
    exact h.channel c' (registered_iff.mpr ⟨hsame ▸ hout, hback halive, hrest⟩) fd'
      (hsamefd ▸ hfd')

/-- The main loop runs a posted addition. -/
private theorem Inv.runAdd {l : Looped} (h : Inv l) {addr : String} {c : ConnId}
    {more : List (String × ConnId)} (hadding : l.system.gateway.adding = (addr, c) :: more)
    {t : Supervised} (ht : t.Inv) (hconns : t.gateway.conns = l.system.gateway.conns)
    (hmore : t.gateway.adding = more) (hdisc : t.disconnected = l.system.disconnected) :
    Inv ⟨t, updateChannel l.channels l.system.gateway c⟩ := by
  have hget (c' : ConnId) : t.gateway.conns[c']? = l.system.gateway.conns[c']? := by rw [hconns]
  have hsame (c' : ConnId) := World.same_of_getElem? (hget c')
  have hmem : c ∈ l.system.gateway.adding.map Prod.snd := by simp [hadding]
  have hlive : c ∈ Supervised.live l.system.gateway :=
    List.mem_append_left _ (List.mem_append_right _ hmem)
  -- a posted addition is posted once, and its connection is not closed
  have hnodup : (l.system.gateway.adding.map Prod.snd).Nodup :=
    (List.nodup_append.mp (List.nodup_append.mp (List.nodup_append.mp h.system.nodup).1).1).2.1
  rw [hadding, List.map_cons] at hnodup
  have hnot : c ∉ l.system.disconnected := fun hc => (h.system.disconnected c hc).2 hmem
  refine Inv.register ht (registered_iff.mpr ⟨?_, ?_, ?_, hdisc ▸ hnot⟩) (hsame c).2.2.2.symm
    (fun fd' c' hc' => ?_) fun c' hne hc' fd' hfd' => ?_
  · rw [(hsame c).2.1]
    exact h.system.outbound_of_live hlive
  · rw [(hsame c).1]
    exact h.system.alive c hlive
  · rw [hmore]
    exact (List.nodup_cons.mp hnodup).1
  · obtain ⟨hout, hcfd, hnadd, hndisc⟩ := h.entry fd' c' hc'
    rw [hadding, List.map_cons, List.mem_cons, not_or] at hnadd
    exact ⟨(hsame c').2.1.trans hout, (hsame c').2.2.2.trans hcfd, hmore ▸ hnadd.2,
      hdisc ▸ hndisc⟩
  · obtain ⟨hout, halive, hnadd, hndisc⟩ := registered_iff.mp hc'
    refine h.channel c' (registered_iff.mpr ⟨(hsame c').2.1 ▸ hout, (hsame c').1 ▸ halive, ?_,
      hdisc ▸ hndisc⟩) fd' ((hsame c').2.2.2 ▸ hfd')
    rw [hadding, List.map_cons, List.mem_cons, not_or]
    exact ⟨hne, hmore ▸ hnadd⟩

theorem Inv.step {l l' : Looped} {a : Supervised.Act} (h : Inv l) (hstep : l.step a = some l') :
    Inv l' := by
  obtain ⟨t, ht, rfl⟩ := Option.map_eq_some_iff.mp hstep
  have hinv := h.system.step ht
  -- connections and additions stay
  have hquiet : t.gateway.conns = l.system.gateway.conns →
      t.gateway.adding = l.system.gateway.adding → t.disconnected = l.system.disconnected →
      Inv ⟨t, l.channels⟩ := by
    intro hconns hadding hdisc
    refine h.keep hinv (fun c _ => ?_) (fun c hge hout => ?_) (fun c _ => by rw [hadding]) hdisc
    · have hget : t.gateway.conns[c]? = l.system.gateway.conns[c]? := by rw [hconns]
      obtain ⟨halive, hout, -, hfd⟩ := World.same_of_getElem? hget
      exact ⟨hout, hfd, fun ha => halive ▸ ha⟩
    · rw [World.outbound_of_conns hconns] at hout
      exact absurd (World.lt_of_outbound hout) (not_lt.mpr hge)
  cases Supervised.step_cases ht with
  | startBackend hpc hw => exact h.startBackend hpc hw hinv
  | @connect addr instances fd w hpc hw =>
    obtain ⟨hfree, rfl⟩ := World.step_connect hw
    refine h.keep hinv (fun c hc => ?_) (fun c hge hout => ?_) (fun c hc => ?_) rfl
    · exact same_of_newConn rfl hc
    -- the new connection is posted
    · obtain rfl := (lt_or_eq_of_newConn rfl hout).resolve_left (not_lt.mpr hge)
      simp
    · simp only [List.map_append, List.mem_append, List.map_cons, List.map_nil,
        List.mem_singleton]
      exact or_iff_left hc.ne
  | @runAdd rest w hidle hposted hw =>
    obtain ⟨addr, c, more, hadding, rfl⟩ := World.step_addBackend hw
    simp only [channelsAfter, hposted, hadding]
    exact h.runAdd hadding hinv rfl rfl rfl
  | @runClose c rest hidle hposted =>
    simp only [channelsAfter, hposted]
    have hmem : c ∈ l.system.owned :=
      List.mem_append_right _ (by simp [Supervised.closing, hposted, Posted.closing])
    exact h.disconnect (h.system.outbound c hmem) hinv (Supervised.disconnect_gateway ..) rfl
  | @handleClose c cause hreg =>
    exact h.disconnect (registered_iff.mp hreg).1 hinv (Supervised.disconnect_gateway ..) rfl
  | gateway hstarted hallows hw =>
    obtain ⟨htables, heffect⟩ := elsewhere_of_step hallows hw
    refine h.keep hinv (fun c hc => ?_) (fun c hge hout => ?_) (fun c _ => ?_) rfl
    · obtain ⟨hout, hfd⟩ := Supervised.identity_of_elsewhere heffect hc
      exact ⟨hout, hfd, (alive_of_elsewhere heffect hc).1⟩
    · exact absurd (lt_of_elsewhere heffect hout) (not_lt.mpr hge)
    · rw [htables.adding]
  | remove _ hw =>
    cases hw
    exact hquiet rfl rfl rfl
  | unregister _ _ hw =>
    obtain ⟨c, rest, -, rfl⟩ := World.step_eraseFd hw
    exact hquiet rfl rfl rfl
  | insertFd hw =>
    obtain ⟨c, rest, -, rfl⟩ := World.step_insertFd hw
    exact hquiet rfl rfl rfl
  | _ => exact hquiet rfl rfl rfl

/-! ## §3 Who is there -/

/-- Every channel of the map belongs to a connection that has not been destroyed. -/
def ChannelsAlive (l : Looped) : Prop :=
  ∀ fd c, l.channels.lookup fd = some c → l.system.gateway.alive c = true

/-- A connection to a backend is destroyed after the main loop has closed it. -/
def ClosedFirst (l : Looped) : Supervised.Act → Prop
  | .gateway (.destroy c) => l.system.gateway.outbound c = true → c ∈ l.system.disconnected
  | _ => True

/-- **The map**: a connection that is registered with the main loop is under its descriptor. -/
theorem channel_of_registered {acts : List Supervised.Act} {l : Looped}
    (hrun : run step init acts = some l) {c : ConnId} (hc : l.system.registered c = true) {fd : Int}
    (hfd : l.system.gateway.fd c = some fd) : l.channels.lookup fd = some c :=
  (run_invariant (fun _ _ _ => Inv.step) Inv.init hrun).channel c hc fd hfd

private theorem lookup_updateChannel {channels : ChannelMap} {w : World} {c c' : ConnId} {fd : Int}
    (h : (updateChannel channels w c).lookup fd = some c') :
    channels.lookup fd = some c' ∨ c' = c := by
  unfold updateChannel at h
  split at h
  · rename_i fd' _
    by_cases heq : fd = fd'
    · subst heq
      rw [AList.lookup_insert, Option.some.injEq] at h
      exact Or.inr h.symm
    · rw [AList.lookup_insert_ne heq] at h
      exact Or.inl h
  · exact Or.inl h

private theorem lookup_removeConnection {channels : ChannelMap} {s : Supervised} {c c' : ConnId}
    {fd : Int} (h : (removeConnection channels s c).lookup fd = some c') :
    channels.lookup fd = some c' := by
  unfold removeConnection at h
  split_ifs at h
  · split at h
    · rename_i fd' _
      by_cases heq : fd = fd'
      · subst heq
        rw [AList.lookup_erase] at h
        cases h
      · rwa [AList.lookup_erase_ne heq] at h
    · exact h
  · exact h

/-- A channel that a step puts in the map is that of a connection that is there. -/
private theorem lookup_channelsAfter {l : Looped} (h : Inv l) {t : Supervised} {a : Supervised.Act}
    (ht : l.system.step a = some t) {fd : Int} {c : ConnId}
    (hc : (channelsAfter l.channels l.system t a).lookup fd = some c) :
    l.channels.lookup fd = some c ∨ t.gateway.alive c = true := by
  have hinv := h.system.step ht
  cases Supervised.step_cases ht with
  | startBackend hpc hw =>
    refine (lookup_updateChannel hc).imp_right ?_
    rintro rfl
    obtain ⟨-, hadding, hinserting⟩ := h.system.starting hpc
    obtain ⟨-, rfl⟩ := World.run_startBackend hadding hinserting hw
    simp [World.alive]
  | @runAdd rest w hidle hposted hw =>
    obtain ⟨addr, c', more, hadding, rfl⟩ := World.step_addBackend hw
    -- a posted addition is still owned
    simp only [channelsAfter, hposted, hadding] at hc
    refine (lookup_updateChannel hc).imp_right ?_
    rintro rfl
    refine h.system.alive c (List.mem_append_left _ (List.mem_append_right _ ?_))
    simp [hadding]
  | runClose _ hposted =>
    simp only [channelsAfter, hposted] at hc
    exact Or.inl (lookup_removeConnection hc)
  | handleClose _ => exact Or.inl (lookup_removeConnection hc)
  | _ => exact Or.inl hc

/-- Only the destructor ends a connection. -/
private theorem alive_of_step {s t : Supervised} {a : Supervised.Act} (h : s.Inv)
    (ht : s.step a = some t) {c : ConnId} (ha : a ≠ .gateway (.destroy c))
    (hc : c < s.gateway.conns.length) (halive : s.gateway.alive c = true) :
    t.gateway.alive c = true := by
  cases Supervised.step_cases ht with
  | startBackend hpc hw =>
    obtain ⟨-, hadding, hinserting⟩ := h.starting hpc
    obtain ⟨-, rfl⟩ := World.run_startBackend hadding hinserting hw
    rwa [World.alive, List.getElem?_append_left hc]
  | connect _ hw =>
    obtain ⟨-, rfl⟩ := World.step_connect hw
    rwa [World.alive, List.getElem?_append_left hc]
  | remove _ hw =>
    cases hw
    exact halive
  | unregister _ _ hw =>
    obtain ⟨c', rest, -, rfl⟩ := World.step_eraseFd hw
    exact halive
  | runAdd _ _ hw =>
    obtain ⟨addr, c', rest, -, rfl⟩ := World.step_addBackend hw
    exact halive
  | insertFd hw =>
    obtain ⟨c', rest, -, rfl⟩ := World.step_insertFd hw
    exact halive
  -- only `destroy` ends a connection
  | @gateway b w _ hallows hw =>
    have hne : b ≠ .destroy c := by
      rintro rfl
      exact ha rfl
    exact ((alive_of_elsewhere (elsewhere_of_step hallows hw).2 hc).2 hne).trans halive
  | runClose _ _ =>
    show (s.disconnect _).gateway.alive c = true
    rwa [Supervised.disconnect_gateway]
  | handleClose _ => rwa [Supervised.disconnect_gateway]
  | _ => exact halive

/-- The destructor runs: its connection was there, and nobody holds it. -/
private theorem destroyed {s t : Supervised} {c : ConnId}
    (ht : s.step (.gateway (.destroy c)) = some t) :
    s.gateway.alive c = true ∧ s.gateway.held c = false ∧ t.gateway.alive c = false ∧
      ∀ c', c' ≠ c → t.gateway.alive c' = s.gateway.alive c' := by
  cases Supervised.step_cases ht with
  | gateway _ hallows hw =>
    simp only [Supervised.allows, Bool.and_eq_true] at hallows
    simp only [World.step] at hw
    split_ifs at hw with hheld
    cases hw
    refine ⟨hallows.1, by simpa using hheld, ?_, fun c' hne => ?_⟩
    · simp only [World.alive, List.getElem?_modify, if_pos]
      cases s.gateway.conns[c]? <;> rfl
    · rw [World.alive, World.alive, List.getElem?_modify_ne _ _ hne.symm]

/-- **A step** keeps every channel's connection exactly if it does not destroy one that is still
registered. -/
theorem channelsAlive_step_iff {l l' : Looped} {a : Supervised.Act} (h : Inv l)
    (hok : ChannelsAlive l) (hstep : l.step a = some l') :
    ChannelsAlive l' ↔ ClosedFirst l a := by
  obtain ⟨t, ht, rfl⟩ := Option.map_eq_some_iff.mp hstep
  by_cases hdestroy : ∃ c, a = .gateway (.destroy c)
  · obtain ⟨c, rfl⟩ := hdestroy
    obtain ⟨halive, hheld, hdead, hothers⟩ := destroyed ht
    constructor
    · intro h' hout
      by_contra hopen
      -- registered, so in the map
      have hadding : c ∉ l.system.gateway.adding.map Prod.snd := fun hmem => by
        rw [Supervised.held_of_mem_live
          (List.mem_append_left _ (List.mem_append_right _ hmem))] at hheld
        cases hheld
      obtain ⟨fd, hfd⟩ := fd_of_outbound hout
      have hmap := h.channel c (registered_iff.mpr ⟨hout, halive, hadding, hopen⟩) fd hfd
      have hthere := h' fd c hmap
      rw [hdead] at hthere
      cases hthere
    · intro hclosed fd c' hc'
      have hne : c' ≠ c := by
        rintro rfl
        obtain ⟨hout, -, -, hopen⟩ := h.entry fd c' hc'
        exact hopen (hclosed hout)
      exact (hothers c' hne).trans (hok fd c' hc')
  · have htrue : ClosedFirst l a := by
      unfold ClosedFirst
      split
      · exact absurd ⟨_, rfl⟩ hdestroy
      · trivial
    refine iff_of_true (fun fd c hc => ?_) htrue
    rcases lookup_channelsAfter h ht hc with hold | hnew
    · have hlt := World.lt_of_outbound (h.entry fd c hold).1
      exact alive_of_step h.system ht (fun heq => hdestroy ⟨c, heq⟩) hlt (hok fd c hold)
    · exact hnew

/-- **Channels and connections**: in every state of a run the channels of the map belong to
connections that are there, exactly if the main loop closes every connection to a backend before
its last owner lets go of it. -/
theorem channels_alive_iff {acts : List Supervised.Act} {l : Looped}
    (hrun : run step init acts = some l) :
    Meets step ClosedFirst init acts ↔
      ∀ pre post v, acts = pre ++ post → run step init pre = some v → ChannelsAlive v :=
  meets_iff_forall_state (fun _ _ _ => Inv.step) (fun _ _ _ => channelsAlive_step_iff) Inv.init
    (fun _ _ h => by cases h) hrun

instance (l : Looped) : (a : Supervised.Act) → Decidable (ClosedFirst l a)
  | .gateway a =>
    match a with
    | .destroy c => inferInstanceAs (Decidable (l.system.gateway.outbound c = true → _))
    | .accept _ | .connect _ _ | .closeFd _ | .receive _ _ | .handler _ | .addBackend
    | .insertFd | .removeBackends _ | .eraseFd | .healthPass | .cleanupBegin | .cleanupCollect
    | .cleanupSend _ | .tick _ => isTrue trivial
  | .remove | .startBackend _ _ | .serve | .snapshot _ | .unregister | .close | .check | .connect _
  | .connectFailed | .runPosted | .insertFd | .peerClose _ | .handleClose _ _ => isTrue trivial

/-- The registry drops a backend, and the monitor goes through its pass. -/
def removed : List Supervised.Act :=
  [.startBackend "127.0.0.1:9001" 7, .serve, .snapshot [], .remove, .unregister, .close,
    .unregister]

/-- The main loop runs the close before the monitor's list goes out of scope, and a client gets
the number. -/
def loopFirst : List Supervised.Act :=
  removed ++ [.runPosted, .check, .gateway (.destroy 0), .gateway (.accept 7)]

theorem channels_alive_iff_loopFirst :
    ∃ l, run step init loopFirst = some l ∧ l.system.gateway.conns.length = 2 ∧
      ∀ pre post v, loopFirst = pre ++ post → run step init pre = some v → ChannelsAlive v := by
  have hlast : ((run step init loopFirst).any fun l =>
      decide (l.system.gateway.conns.length = 2)) = true := by
    decide +kernel
  obtain ⟨l, hl, hlast⟩ := exists_of_run_any hlast
  have hclosed : Meets step ClosedFirst init loopFirst := by decide +kernel
  exact ⟨l, hl, of_decide_eq_true hlast, (channels_alive_iff hl).mp hclosed⟩

/-- The monitor's list goes out of scope first; the posted close finds nobody. -/
def monitorFirst : List Supervised.Act := removed ++ [.check, .gateway (.destroy 0), .runPosted]

/-- **A channel that outlives its connection**, and stays in the map when nothing is left to do. -/
theorem channel_outlives_connection :
    ∃ l, run step init monitorFirst = some l ∧ l.system.posted = [] ∧
      l.channels.lookup 7 = some 0 ∧ l.system.gateway.alive 0 = false ∧ ¬ChannelsAlive l := by
  have hlast : ((run step init monitorFirst).any fun l =>
      decide (l.system.posted = [] ∧ l.channels.lookup 7 = some 0 ∧
        l.system.gateway.alive 0 = false)) = true := by
    decide +kernel
  obtain ⟨l, hl, hlast⟩ := exists_of_run_any hlast
  obtain ⟨hposted, hchannel, hdead⟩ := of_decide_eq_true hlast
  refine ⟨l, hl, hposted, hchannel, hdead, fun h => ?_⟩
  rw [h 7 0 hchannel] at hdead
  cases hdead

end Looped

end EchoNet.Gateway
