import EchoNet.Server.Machine

/-!
# Session Isolation under Descriptor Reuse

`sessions_` is keyed by the bare descriptor.  That a handler never finds the session of an
earlier connection on the same number rests on the order of four things: the deferral of the
close callback behind a running task, `onConnectionClosed` before `removeConnection` in that
callback, the `::close` in `finishClose`, and the kernel, which gives a number away only after
its `::close`.

- `Descriptors`: a descriptor that is open belongs to one posted creation or to one registered
  connection.
- `Sessions`: the key of every session is the descriptor of the connection that logged in, which
  is still registered and whose cleanup is still to come.

## Main result

`session_isolation`: what `getSessionByConn` finds while a handler runs was created by a login
on the handler's own connection.
-/

namespace EchoNet.Server

open EchoNet.Lib EchoNet.Protocol EchoNet.Net.PoolMachine EchoNet.Chat

/-! ## §1 One connection -/

/-- `onConnectionClosed` has returned, `removeConnection` is to come. -/
def cleanedUp : LoopPc → Bool
  | .removing _ _ => true
  | _ => false

@[simp] theorem cleanedUp_removing (ret : Return) (fd : Int) :
    cleanedUp (.removing ret fd) = true := rfl

theorem cleanedUp_of_callbackFd {pc : LoopPc} (h : pc.callbackFd = none) :
    cleanedUp pc = false := by
  cases pc <;> simp_all [cleanedUp]

/-- What the steps of one connection keep. -/
structure Sound (w : World) : Prop where
  task : TaskInv w
  close : CloseInv w
  registered : w.inChannels = true → w.inConnections = true

theorem Sound.init (fd : Int) (stream : Bytes) : Sound (World.init fd stream) :=
  ⟨.init fd stream, .init fd stream, fun _ => rfl⟩

/-- Outside of the close callback a step leaves the registration of the connection alone,
except that `handleClose` can take the channel out of `channels_`. -/
structure SameBinding (w w' : World) : Prop where
  fd : w'.conn.fd = w.conn.fd
  held : w'.inConnections = w.inConnections
  channel : w'.inChannels = true → w.inChannels = true
  pc : cleanedUp w.loop = false → cleanedUp w'.loop = false

private theorem SameBinding.runSend {w v : World} (h : SameBinding w v) (origin : Origin)
    (response : MyMessage) : SameBinding w (v.runSend origin response) := by
  obtain ⟨n, out, queue, wr, acc, pc, he, hpc⟩ := runSend_frame v origin response
  rw [he]
  refine ⟨h.fd, h.held, h.channel, fun hw => ?_⟩
  obtain ⟨-, rfl⟩ | ⟨-, rfl | rfl⟩ := hpc
  · exact h.pc hw
  · rfl
  · rfl

theorem sameBinding_of_step {w w' : World} {a : Net.PoolMachine.Act} (h : World.Step w a w')
    (hpc : a = .loop → w.loop.callbackFd = none) : SameBinding w w' := by
  have hret : ∀ ret : Return, cleanedUp ret.pc = false := fun ret =>
    cleanedUp_of_callbackFd ret.callbackFd_pc
  cases h with
  | businessClosed ret fd hl => simp [hl] at hpc
  | removed ret fd hl => simp [hl] at hpc
  | closeDefer ret hl => exact ⟨rfl, rfl, fun h => (nomatch h), fun _ => hret ret⟩
  | runSend origin response rest hl hq =>
    refine SameBinding.runSend ?_ origin response
    exact ⟨rfl, rfl, id, id⟩
  | inlineSend response hl =>
    refine SameBinding.runSend ?_ none response
    exact ⟨rfl, rfl, id, id⟩
  | tasksNotDrained ret => exact ⟨rfl, rfl, id, fun _ => hret ret⟩
  | sendsNotDrained ret => exact ⟨rfl, rfl, id, fun _ => hret ret⟩
  | outputNotDrained ret => exact ⟨rfl, rfl, id, fun _ => hret ret⟩
  | closeAgain ret => exact ⟨rfl, rfl, id, fun _ => hret ret⟩
  -- the other steps go to a fixed place or leave the loop thread where it is
  | _ => exact ⟨rfl, rfl, id, fun h => by first | exact h | rfl⟩

theorem Sound.step {w w' : World} {a : Net.PoolMachine.Act} (h : Sound w)
    (hstep : World.Step w a w') (hpc : a = .loop → w.loop.callbackFd = none) : Sound w' := by
  have hsame := sameBinding_of_step hstep hpc
  refine ⟨h.task.step hstep, h.close.step h.task hstep, fun hch => ?_⟩
  rw [hsame.held]
  exact h.registered (hsame.channel hch)

theorem Sound.businessClosed {w : World} (h : Sound w) {ret : Return} {fd : Int}
    (hl : w.loop = .inCloseCallback ret fd) : Sound { w with loop := .removing ret fd } := by
  have hstep : World.Step w .loop { w with loop := .removing ret fd } := .businessClosed ret fd hl
  exact ⟨h.task.step hstep, h.close.step h.task hstep, h.registered⟩

/-- The callback has been given the descriptor of its connection, which is registered. -/
theorem Sound.removing {w : World} (h : Sound w) {ret : Return} {fd : Int}
    (hl : w.loop = .removing ret fd) : fd = w.conn.fd ∧ w.inConnections = true :=
  have hcallback := h.close.callback fd (by simp [hl])
  ⟨hcallback.1, hcallback.2.1⟩

theorem Sound.removed {w : World} (h : Sound w) {ret : Return} {fd : Int}
    (hl : w.loop = .removing ret fd) :
    Sound { w.removeConnection fd with loop := ret.pc } ∧
      (w.removeConnection fd).conn.fd = w.conn.fd ∧
      (w.removeConnection fd).inConnections = false := by
  obtain ⟨rfl, hheld⟩ := h.removing hl
  have hstep : World.Step w .loop { w.removeConnection w.conn.fd with loop := ret.pc } :=
    .removed ret w.conn.fd hl
  have htask := h.task.step hstep
  have hclose := h.close.step h.task hstep
  obtain ⟨r, wr, he⟩ := removeConnection_frame hheld (h.close.descriptor hheld).2
  rw [he] at htask hclose ⊢
  exact ⟨⟨htask, hclose, fun hch => (nomatch hch)⟩, rfl, rfl⟩

/-- `removeConnection` does nothing to a connection that is not registered. -/
theorem removeConnection_of_not_held {w : World} (h : Sound w) (hheld : w.inConnections = false)
    (fd : Int) : w.removeConnection fd = w := by
  have hch : w.inChannels = false := by
    cases hc : w.inChannels with
    | false => rfl
    | true => simp [h.registered hc] at hheld
  simp [World.removeConnection, hch, hheld]

/-- While a task is with the pool the close callback has not been invoked. -/
theorem Sound.held_of_task {w : World} (h : Sound w) {k : Nat} {t : Task}
    (ht : w.tasks[k]? = some t) : w.inConnections = true ∧ cleanedUp w.loop = false := by
  have hcalls := closeCalls_eq_zero_of_task h.task h.close (List.mem_of_getElem? ht)
  refine ⟨h.close.held hcalls, cleanedUp_of_callbackFd ?_⟩
  cases hfd : w.loop.callbackFd with
  | none => rfl
  | some fd => exact absurd hcalls (h.close.callback fd hfd).2.2

namespace System

/-! ## §2 Descriptors -/

/-- An open descriptor has one owner: a creation that is still posted, or a registered
connection. -/
structure Descriptors (s : System) : Prop where
  sound : ∀ (i : Nat) p, s.conns[i]? = some p → Sound p.world
  postedOpen : ∀ e ∈ s.posted, e.2 ∈ s.openFds
  postedOnce : (s.posted.map Prod.snd).Nodup
  heldOpen : ∀ (i : Nat) p, s.conns[i]? = some p → p.world.inConnections = true →
    p.world.conn.fd ∈ s.openFds
  heldNotPosted : ∀ (i : Nat) p, s.conns[i]? = some p → p.world.inConnections = true →
    ∀ e ∈ s.posted, e.2 ≠ p.world.conn.fd
  heldOnce : ∀ (i j : Nat) p q, s.conns[i]? = some p → s.conns[j]? = some q →
    p.world.inConnections = true → q.world.inConnections = true →
    p.world.conn.fd = q.world.conn.fd → i = j

theorem Descriptors.init (firstRoomId : UInt32) : Descriptors (System.init firstRoomId) := by
  constructor <;> simp [System.init]

/-- A step that creates no connection keeps the owners, as long as it closes no descriptor
that has one. -/
private theorem Descriptors.mono {s s' : System} (h : Descriptors s)
    (hposted : s'.posted = s.posted)
    (hconns : ∀ (j : Nat) q', s'.conns[j]? = some q' → Sound q'.world ∧
      ∃ q, s.conns[j]? = some q ∧ q'.world.conn.fd = q.world.conn.fd ∧
        (q'.world.inConnections = true → q.world.inConnections = true))
    (hpostedOpen : ∀ e ∈ s.posted, e.2 ∈ s'.openFds)
    (hheldOpen : ∀ (j : Nat) q', s'.conns[j]? = some q' → q'.world.inConnections = true →
      q'.world.conn.fd ∈ s'.openFds) : Descriptors s' := by
  refine ⟨fun i p hp => (hconns i p hp).1, hposted ▸ hpostedOpen, hposted ▸ h.postedOnce,
    hheldOpen, fun i p' hp' hheld e he => ?_, fun i j p' q' hp' hq' hheldp hheldq hfd => ?_⟩
  · obtain ⟨-, p, hp, hfd, himp⟩ := hconns i p' hp'
    rw [hfd]
    exact h.heldNotPosted i p hp (himp hheld) e (hposted ▸ he)
  · obtain ⟨-, p, hp, hfdp, himpp⟩ := hconns i p' hp'
    obtain ⟨-, q, hq, hfdq, himpq⟩ := hconns j q' hq'
    exact h.heldOnce i j p q hp hq (himpp hheldp) (himpq hheldq) (by rw [← hfdp, ← hfdq, hfd])

/-- After a step of connection `i` the others are as they were. -/
theorem conns_setWorld {s : System} {i j : Nat} {p q : Peer} {w : World}
    (hp : s.conns[i]? = some p) (hq : (s.setWorld i p w).conns[j]? = some q) :
    i = j ∧ q = { p with world := w } ∨ i ≠ j ∧ s.conns[j]? = some q := by
  have hi := (List.getElem?_eq_some_iff.mp hp).1
  simp only [setWorld, List.getElem?_set, hi, if_true] at hq
  split_ifs at hq with hij
  · exact Or.inl ⟨hij, (Option.some.inj hq).symm⟩
  · exact Or.inr ⟨hij, hq⟩

private theorem Descriptors.setWorld {s : System} (h : Descriptors s) {i : Nat} {p : Peer}
    (hp : s.conns[i]? = some p) {w : World} (hsound : Sound w)
    (hfd : w.conn.fd = p.world.conn.fd) (hheld : w.inConnections = p.world.inConnections) :
    Descriptors (s.setWorld i p w) := by
  have hconns : ∀ (j : Nat) q', (s.setWorld i p w).conns[j]? = some q' → Sound q'.world ∧
      ∃ q, s.conns[j]? = some q ∧ q'.world.conn.fd = q.world.conn.fd ∧
        (q'.world.inConnections = true → q.world.inConnections = true) := by
    intro j q' hq'
    obtain ⟨rfl, rfl⟩ | ⟨-, hq⟩ := conns_setWorld hp hq'
    · exact ⟨hsound, p, hp, hfd, fun ht => hheld ▸ ht⟩
    · exact ⟨h.sound j q' hq, q', hq, rfl, id⟩
  refine h.mono rfl hconns h.postedOpen fun j q' hq' ht => ?_
  obtain ⟨-, q, hq, hfd', himp⟩ := hconns j q' hq'
  rw [hfd']
  exact h.heldOpen j q hq (himp ht)

/-- The tables are no part of the ownership. -/
private theorem Descriptors.congr {s s' : System} (h : Descriptors s)
    (hconns : s'.conns = s.conns) (hposted : s'.posted = s.posted)
    (hopen : s'.openFds = s.openFds) : Descriptors s' := by
  refine h.mono hposted (fun j q hq => ?_) (hopen ▸ h.postedOpen) fun j q hq => ?_
  · exact ⟨h.sound j q (hconns ▸ hq), q, hconns ▸ hq, rfl, id⟩
  · exact hopen ▸ h.heldOpen j q (hconns ▸ hq)

/-- A connection that the loop does not hold is in neither of its maps. -/
private theorem channel_of_held {s : System} (h : Descriptors s) {i : Nat} {p : Peer}
    (hp : s.conns[i]? = some p) (hheld : p.world.inConnections = false) :
    p.world.inChannels = false := by
  cases hch : p.world.inChannels with
  | false => rfl
  | true => simp [(h.sound i p hp).registered hch] at hheld

/-- A creation takes no entry out of the maps: nobody else has its descriptor. -/
theorem evict_eq {s : System} (h : Descriptors s) {loop : Nat} {fd : Int}
    (hposted : (loop, fd) ∈ s.posted) : s.evict loop fd = s := by
  have hconns : s.conns.map (fun p => if p.loop = loop ∧ p.world.conn.fd = fd then
      { p with world := { p.world with inChannels := false, inConnections := false } }
      else p) = s.conns := by
    conv_rhs => rw [← List.map_id s.conns]
    refine List.map_congr_left fun p hmem => ?_
    obtain ⟨i, hp⟩ := List.getElem?_of_mem hmem
    split_ifs with hkey
    · have hheld : p.world.inConnections = false := by
        cases hheld : p.world.inConnections with
        | false => rfl
        | true => exact absurd hkey.2.symm (h.heldNotPosted i p hp hheld _ hposted)
      have hch := channel_of_held h hp hheld
      obtain ⟨l, w⟩ := p
      cases w
      simp_all
    · rfl
  rw [evict, hconns]

/-- `removeConnection(fd)` in the close callback of connection `i` finds that connection in
the maps, and no other. -/
theorem removed_eq {s : System} (h : Descriptors s) {i : Nat} {p : Peer} {ret : Return} {fd : Int}
    (hp : s.conns[i]? = some p) (hl : p.world.loop = .removing ret fd) :
    ((s.removeConnection p.loop fd).setLoop i ret.pc).conns =
        (s.setWorld i p { p.world.removeConnection fd with loop := ret.pc }).conns ∧
      ∀ d ∈ s.openFds, d ≠ fd → d ∈ (s.removeConnection p.loop fd).openFds := by
  obtain ⟨hfd, hheld⟩ := (h.sound i p hp).removing hl
  have hother : ∀ (j : Nat) q, s.conns[j]? = some q → j ≠ i → q.world.conn.fd = fd →
      q.world.inConnections = false := by
    intro j q hq hji hqfd
    cases hq' : q.world.inConnections with
    | false => rfl
    | true => exact absurd (h.heldOnce j i q p hq hp hq' hheld (hqfd.trans hfd)) hji
  constructor
  · refine List.ext_getElem? fun j => ?_
    simp only [setLoop, removeConnection, setWorld, List.getElem?_modify, List.getElem?_map,
      List.getElem?_set]
    cases hq : s.conns[j]? with
    | none =>
      have hji : i ≠ j := by
        rintro rfl
        simp [hp] at hq
      simp [hji]
    | some q =>
      by_cases hij : i = j
      · subst hij
        obtain rfl : p = q := Option.some.inj (hp.symm.trans hq)
        simp [(List.getElem?_eq_some_iff.mp hp).1]
      · have hsame : q.world.removeConnection fd = q.world := by
          by_cases hqfd : q.world.conn.fd = fd
          · exact removeConnection_of_not_held (h.sound j q hq)
              (hother j q hq (Ne.symm hij) hqfd) fd
          · simp [World.removeConnection, Ne.symm hqfd]
        simp [hij, hsame]
  · intro d hd hne
    refine List.mem_filter.mpr ⟨hd, ?_⟩
    rw [Bool.not_eq_true', List.any_eq_false]
    intro q hmem
    obtain ⟨j, hq⟩ := List.getElem?_of_mem hmem
    simp only [closesDescriptor, Bool.and_eq_true, decide_eq_true_eq, not_and]
    rintro ⟨-, ⟨⟨hqfd, hqheld⟩, -⟩, -⟩ rfl
    exact hne (((h.sound j q hq).close.descriptor hqheld).1.trans hqfd.symm)

private theorem Descriptors.removed {s : System} (h : Descriptors s) {i : Nat} {p : Peer}
    {ret : Return} {fd : Int} (hp : s.conns[i]? = some p) (hl : p.world.loop = .removing ret fd) :
    Descriptors ((s.removeConnection p.loop fd).setLoop i ret.pc) := by
  obtain ⟨hfd, hheld⟩ := (h.sound i p hp).removing hl
  obtain ⟨hsound, hfd', hgone⟩ := (h.sound i p hp).removed hl
  obtain ⟨heq, hopen⟩ := removed_eq h hp hl
  refine h.mono rfl (fun j q' hq' => ?_) (fun e he => ?_) fun j q' hq' ht => ?_
  · obtain ⟨rfl, rfl⟩ | ⟨-, hq⟩ := conns_setWorld hp (heq ▸ hq')
    · exact ⟨hsound, p, hp, hfd', fun ht => by simp [hgone] at ht⟩
    · exact ⟨h.sound j q' hq, q', hq, rfl, id⟩
  · exact hopen _ (h.postedOpen e he) (hfd ▸ h.heldNotPosted i p hp hheld e he)
  · obtain ⟨rfl, rfl⟩ | ⟨hij, hq⟩ := conns_setWorld hp (heq ▸ hq')
    · simp [hgone] at ht
    · refine hopen _ (h.heldOpen j q' hq ht) fun hqfd => hij ?_
      exact h.heldOnce i j p q' hp hq hheld ht (hqfd.trans hfd).symm

private theorem Descriptors.accept {s : System} (h : Descriptors s) {loop : Nat} {fd : Int}
    (hfree : fd ∉ s.openFds) :
    Descriptors { s with posted := s.posted ++ [(loop, fd)], openFds := fd :: s.openFds } := by
  refine ⟨h.sound, fun e he => ?_, ?_, fun i p hp hheld => ?_, fun i p hp hheld e he => ?_,
    h.heldOnce⟩
  · rcases List.mem_append.mp he with he | he
    · exact List.mem_cons_of_mem _ (h.postedOpen e he)
    · rw [List.mem_singleton.mp he]
      exact List.mem_cons_self ..
  · rw [List.map_append]
    refine List.nodup_append.mpr ⟨h.postedOnce, List.nodup_singleton _, ?_⟩
    rintro d hd d' hd' rfl
    obtain ⟨e, he, rfl⟩ := List.mem_map.mp hd
    have heq : e.2 = fd := List.mem_singleton.mp hd'
    exact hfree (heq ▸ h.postedOpen e he)
  · exact List.mem_cons_of_mem _ (h.heldOpen i p hp hheld)
  · rcases List.mem_append.mp he with he | he
    · exact h.heldNotPosted i p hp hheld e he
    · rw [List.mem_singleton.mp he]
      intro heq
      have hfd : fd = p.world.conn.fd := heq
      exact hfree (hfd ▸ h.heldOpen i p hp hheld)

/-- After a creation the new connection is the last one. -/
theorem conns_register {s : System} {loop : Nat} {fd : Int} {stream : Bytes} {j : Nat}
    {q : Peer} (hq : (s.conns ++ [⟨loop, .init fd stream⟩])[j]? = some q) :
    s.conns[j]? = some q ∨ j = s.conns.length ∧ q = ⟨loop, .init fd stream⟩ := by
  rcases Nat.lt_trichotomy j s.conns.length with hj | rfl | hj
  · rw [List.getElem?_append_left hj] at hq
    exact Or.inl hq
  · rw [List.getElem?_concat_length] at hq
    exact Or.inr ⟨rfl, (Option.some.inj hq).symm⟩
  · rw [List.getElem?_eq_none (by simp; omega)] at hq
    cases hq

private theorem Descriptors.register {s : System} (h : Descriptors s) {loop : Nat} {fd : Int}
    (stream : Bytes) (hposted : (loop, fd) ∈ s.posted) :
    Descriptors { s with
      posted := s.posted.erase (loop, fd)
      conns := s.conns ++ [⟨loop, .init fd stream⟩] } := by
  -- the descriptor passes from the creation to the connection
  have hgone : ∀ e ∈ s.posted.erase (loop, fd), e.2 ≠ fd := by
    intro e he heq
    have hperm := (List.perm_cons_erase hposted).map Prod.snd
    have honce := hperm.nodup_iff.mp h.postedOnce
    rw [List.map_cons, List.nodup_cons] at honce
    exact honce.1 (List.mem_map.mpr ⟨e, he, heq⟩)
  refine ⟨fun i p hp => ?_, fun e he => h.postedOpen e (List.mem_of_mem_erase he),
    (List.erase_sublist.map Prod.snd).nodup h.postedOnce, fun i p hp hheld => ?_,
    fun i p hp hheld e he => ?_, fun i j p q hp hq hheldp hheldq hfd => ?_⟩
  · rcases conns_register hp with hp | ⟨-, rfl⟩
    · exact h.sound i p hp
    · exact .init fd stream
  · rcases conns_register hp with hp | ⟨-, rfl⟩
    · exact h.heldOpen i p hp hheld
    · exact h.postedOpen _ hposted
  · rcases conns_register hp with hp | ⟨-, rfl⟩
    · exact h.heldNotPosted i p hp hheld e (List.mem_of_mem_erase he)
    · exact hgone e he
  · rcases conns_register hp with hp | ⟨hi, rfl⟩ <;> rcases conns_register hq with hq | ⟨hj, rfl⟩
    · exact h.heldOnce i j p q hp hq hheldp hheldq hfd
    · exact absurd hfd.symm (h.heldNotPosted i p hp hheldp _ hposted)
    · exact absurd hfd (h.heldNotPosted j q hq hheldq _ hposted)
    · rw [hi, hj]

/-- Every step keeps the owners of the descriptors. -/
theorem Descriptors.step {s s' : System} {a : Act} (h : Descriptors s) (hstep : Step s a s') :
    Descriptors s' := by
  cases hstep with
  | accept hfree => exact h.accept hfree
  | register hposted =>
    rw [evict_eq h hposted]
    exact h.register _ hposted
  | @conn i a p w hp hw hpc =>
    have hstep := World.step_cases hw
    have hsame := sameBinding_of_step hstep hpc
    exact h.setWorld hp ((h.sound i p hp).step hstep hpc) hsame.fd hsame.held
  | @businessClosed i p ret fd hp hl =>
    have hset := h.setWorld hp ((h.sound i p hp).businessClosed hl) rfl rfl
    exact hset.congr rfl rfl rfl
  | removed hp hl => exact h.removed hp hl
  | login l hp ht hconn hsession => exact h.congr rfl rfl rfl
  | room sec => exact h.congr rfl rfl rfl

/-! ## §3 Sessions -/

/-- Session `x` was created by a successful login handled on connection `i`, and by no other. -/
structure CreatedOn (s : System) (x : SessionRef) (i : Nat) : Prop where
  login : ∃ l ∈ s.logins, l.session = x ∧ l.conn = i
  only : ∀ l ∈ s.logins, l.session = x → l.conn = i

/-- The connection whose login put `x` under its descriptor, with its cleanup still to come. -/
structure Owner (s : System) (fd : Int) (x : SessionRef) (i : Nat) (p : Peer) : Prop where
  conn : s.conns[i]? = some p
  fd : p.world.conn.fd = fd
  held : p.world.inConnections = true
  pending : cleanedUp p.world.loop = false
  login : ∃ l ∈ s.logins, l.session = x ∧ l.conn = i

structure Sessions (s : System) : Prop where
  owner : ∀ fd x, s.tables.sessions.lookup fd = some x → ∃ i p, s.Owner fd x i p
  fresh : ∀ l ∈ s.logins, l.session < s.tables.freshSession
  once : ∀ l ∈ s.logins, ∀ l' ∈ s.logins, l.session = l'.session → l = l'

theorem Sessions.init (firstRoomId : UInt32) : Sessions (System.init firstRoomId) :=
  ⟨fun _ _ h => (nomatch h), fun _ h => (nomatch h), fun _ h => (nomatch h)⟩

/-- A step that makes no session keeps the keys, as long as the owners of those that stay
stay registered. -/
private theorem Sessions.mono {s s' : System} (h : Sessions s) (hlogins : s'.logins = s.logins)
    (hfresh : s'.tables.freshSession = s.tables.freshSession)
    (hsessions : ∀ fd x, s'.tables.sessions.lookup fd = some x →
      s.tables.sessions.lookup fd = some x ∧ ∀ i p, s.Owner fd x i p →
        ∃ q, s'.conns[i]? = some q ∧ q.world.conn.fd = fd ∧ q.world.inConnections = true ∧
          cleanedUp q.world.loop = false) : Sessions s' := by
  refine ⟨fun fd x hx => ?_, ?_, ?_⟩
  · obtain ⟨hx', hkeep⟩ := hsessions fd x hx
    obtain ⟨i, p, ho⟩ := h.owner fd x hx'
    obtain ⟨q, hq, hfd, hheld, hpending⟩ := hkeep i p ho
    exact ⟨i, q, hq, hfd, hheld, hpending, hlogins ▸ ho.login⟩
  · rw [hlogins, hfresh]
    exact h.fresh
  · rw [hlogins]
    exact h.once

private theorem getElem?_setWorld {s : System} {i j : Nat} {p q : Peer} {w : World}
    (hq : s.conns[j]? = some q) (hij : i ≠ j) : (s.setWorld i p w).conns[j]? = some q := by
  simpa only [setWorld, List.getElem?_set_ne hij] using hq

private theorem getElem?_setWorld_self {s : System} {i : Nat} {p : Peer} {w : World}
    (hp : s.conns[i]? = some p) : (s.setWorld i p w).conns[i]? = some { p with world := w } :=
  List.getElem?_set_self (List.getElem?_eq_some_iff.mp hp).1

/-- A step of a connection outside of its close callback. -/
private theorem Sessions.setWorld {s : System} (h : Sessions s) {i : Nat} {p : Peer} {w : World}
    (hp : s.conns[i]? = some p) (hsame : SameBinding p.world w) : Sessions (s.setWorld i p w) := by
  refine h.mono rfl rfl fun fd x hx => ⟨hx, fun j q ho => ?_⟩
  by_cases hij : i = j
  · subst hij
    obtain rfl : p = q := Option.some.inj (hp.symm.trans ho.conn)
    exact ⟨_, getElem?_setWorld_self hp, hsame.fd.trans ho.fd, hsame.held.trans ho.held,
      hsame.pc ho.pending⟩
  · exact ⟨q, getElem?_setWorld ho.conn hij, ho.fd, ho.held, ho.pending⟩

/-- `onConnectionClosed` erases the key of its own connection. -/
private theorem Sessions.businessClosed {s : System} (h : Sessions s) (hd : Descriptors s)
    {i : Nat} {p : Peer} {ret : Return} {fd : Int} (hp : s.conns[i]? = some p)
    (hl : p.world.loop = .inCloseCallback ret fd) :
    Sessions { s.setWorld i p { p.world with loop := .removing ret fd } with
      tables := s.tables.dropSession fd } := by
  have hfd := ((hd.sound i p hp).close.callback fd (by simp [hl])).1
  refine h.mono rfl rfl fun fd' x hx => ?_
  have hne : fd' ≠ fd := by
    rintro rfl
    simp [Tables.dropSession] at hx
  refine ⟨by simpa [Tables.dropSession, hne] using hx, fun j q ho => ?_⟩
  have hij : i ≠ j := by
    rintro rfl
    obtain rfl : p = q := Option.some.inj (hp.symm.trans ho.conn)
    exact hne (ho.fd.symm.trans hfd.symm)
  exact ⟨q, getElem?_setWorld ho.conn hij, ho.fd, ho.held, ho.pending⟩

/-- When `removeConnection` closes the descriptor there is no session under it any more. -/
private theorem Sessions.removed {s : System} (h : Sessions s) (hd : Descriptors s) {i : Nat}
    {p : Peer} {ret : Return} {fd : Int} (hp : s.conns[i]? = some p)
    (hl : p.world.loop = .removing ret fd) :
    Sessions ((s.removeConnection p.loop fd).setLoop i ret.pc) := by
  refine h.mono rfl rfl fun fd' x hx => ⟨hx, fun j q ho => ?_⟩
  have hij : i ≠ j := by
    rintro rfl
    obtain rfl : p = q := Option.some.inj (hp.symm.trans ho.conn)
    have hpending := ho.pending
    simp [hl] at hpending
  rw [(removed_eq hd hp hl).1]
  exact ⟨q, getElem?_setWorld ho.conn hij, ho.fd, ho.held, ho.pending⟩

/-- A login comes from a running handler, so its connection is registered and its cleanup is
still to come, even when the peer has already hung up. -/
private theorem Sessions.login {s : System} (h : Sessions s) (hd : Descriptors s) {i k : Nat}
    {p : Peer} {t : Task} (l : Login) (hp : s.conns[i]? = some p)
    (ht : p.world.tasks[k]? = some t) (hconn : l.conn = i)
    (hsession : l.session = s.tables.freshSession) :
    Sessions { s with
      tables := s.tables.openSession ⟨i, p.world.conn.fd⟩ l.username
      logins := s.logins ++ [l] } := by
  obtain ⟨hheld, hpending⟩ := (hd.sound i p hp).held_of_task ht
  have hnew : ∀ l' ∈ s.logins, l'.session ≠ l.session := fun l' hl' heq =>
    Nat.ne_of_lt (h.fresh l' hl') (heq.trans hsession)
  refine ⟨fun fd x hx => ?_, fun l' hl' => ?_, fun l₁ h₁ l₂ h₂ heq => ?_⟩
  · by_cases hfd : fd = p.world.conn.fd
    · subst hfd
      simp only [Tables.openSession, AList.lookup_insert, Option.some.injEq] at hx
      refine ⟨i, p, hp, rfl, hheld, hpending, l, ?_, hsession.trans hx, hconn⟩
      exact List.mem_append_right _ (List.mem_singleton_self l)
    · simp only [Tables.openSession, AList.lookup_insert_ne hfd] at hx
      obtain ⟨j, q, ho⟩ := h.owner fd x hx
      obtain ⟨l', hl', hx', hj⟩ := ho.login
      exact ⟨j, q, ho.conn, ho.fd, ho.held, ho.pending, l', List.mem_append_left _ hl', hx', hj⟩
  · rcases List.mem_append.mp hl' with hl' | hl'
    · exact Nat.lt_succ_of_lt (h.fresh l' hl')
    · rw [List.mem_singleton.mp hl', hsession]
      exact Nat.lt_succ_self _
  · rcases List.mem_append.mp h₁ with h₁ | h₁ <;> rcases List.mem_append.mp h₂ with h₂ | h₂
    · exact h.once l₁ h₁ l₂ h₂ heq
    · exact absurd (List.mem_singleton.mp h₂ ▸ heq) (hnew l₁ h₁)
    · exact absurd (List.mem_singleton.mp h₁ ▸ heq).symm (hnew l₂ h₂)
    · rw [List.mem_singleton.mp h₁, List.mem_singleton.mp h₂]

/-- Every step keeps the keys of the sessions. -/
theorem Sessions.step {s s' : System} {a : Act} (h : Sessions s) (hd : Descriptors s)
    (hstep : Step s a s') : Sessions s' := by
  cases hstep with
  | accept hfree =>
    exact h.mono rfl rfl fun fd x hx => ⟨hx, fun i p ho => ⟨p, ho.conn, ho.fd, ho.held, ho.pending⟩⟩
  | register hposted =>
    rw [evict_eq hd hposted]
    refine h.mono rfl rfl fun fd x hx => ⟨hx, fun i p ho => ⟨p, ?_, ho.fd, ho.held, ho.pending⟩⟩
    exact (List.getElem?_append_left (List.getElem?_eq_some_iff.mp ho.conn).1).trans ho.conn
  | conn hp hw hpc => exact h.setWorld hp (sameBinding_of_step (World.step_cases hw) hpc)
  | businessClosed hp hl => exact h.businessClosed hd hp hl
  | removed hp hl => exact h.removed hd hp hl
  | login l hp ht hconn hsession => exact h.login hd l hp ht hconn hsession
  | room sec =>
    refine h.mono rfl (by simp) fun fd x hx => ⟨by simpa using hx, fun i p ho => ?_⟩
    exact ⟨p, ho.conn, ho.fd, ho.held, ho.pending⟩

/-! ## §4 Isolation -/

theorem run_invariants {firstRoomId : UInt32} {acts : List Act} {s : System}
    (hrun : run System.step (System.init firstRoomId) acts = some s) :
    Descriptors s ∧ Sessions s :=
  run_invariant (P := fun s => Descriptors s ∧ Sessions s)
    (fun _ _ _ hi h => ⟨hi.1.step (step_cases h), hi.2.step hi.1 (step_cases h)⟩)
    ⟨.init firstRoomId, .init firstRoomId⟩ hrun

/-- **Session isolation under descriptor reuse**: in every state of every interleaving, while a
task of connection `i` is with the pool, and so whenever its handler calls `getSessionByConn`,
the session found was created by a successful login that was handled on connection `i`. -/
theorem session_isolation (firstRoomId : UInt32) (acts : List Act) (s : System)
    (hrun : run System.step (System.init firstRoomId) acts = some s) :
    ∀ (i k : Nat) p t x, s.conns[i]? = some p → p.world.tasks[k]? = some t →
      s.getSessionByConn p = some x → s.CreatedOn x i := by
  obtain ⟨hd, hs⟩ := run_invariants hrun
  intro i k p t x hp ht hx
  obtain ⟨hheld, -⟩ := (hd.sound i p hp).held_of_task ht
  obtain ⟨j, q, ho⟩ := hs.owner _ x hx
  -- two registered connections with one descriptor are one connection
  obtain rfl : j = i := hd.heldOnce j i q p ho.conn hp ho.held hheld ho.fd
  obtain ⟨l, hl, hlx, hlj⟩ := ho.login
  refine ⟨⟨l, hl, hlx, hlj⟩, fun l' hl' hx' => ?_⟩
  rw [hs.once l' hl' l hl (hx'.trans hlx.symm), hlj]

/-- The request of a client whose password is right. -/
def aliceLogin : MyMessage := ⟨.loginReq, 1, ascii "alice|pw"⟩

def acceptedPassword : Env := ⟨0, .executed (.row (ascii "pw")), .noConnection, .reply⟩

/-- A connection gets as far as the handler of the first message. -/
def untilHandler (i : Nat) : List Act :=
  [.conn i .readEvent, .conn i (.readv (encodeMessage aliceLogin).length), .conn i .readvAgain,
    .conn i .loop, .conn i .loop, .conn i .loop, .conn i .loop, .conn i .loop,
    .conn i (.worker 0), .conn i (.worker 0)]

/-- The peer hangs up while its login runs, so that the close is deferred; the login succeeds,
the close callback cleans up, and the number 7 goes to a stranger who logs in as well. -/
def descriptorReused : List Act :=
  [Act.accept 0 7, .register 0 7 (encodeMessage aliceLogin)] ++ untilHandler 0 ++
  [Act.conn 0 (.closeEvent .errorEvent), .conn 0 .loop, .conn 0 .loop, .conn 0 .loop,
    .login 0 0 acceptedPassword, .conn 0 (.handlerReturn 0), .conn 0 (.worker 0),
    .conn 0 (.post .finalize), .conn 0 (.runCallback true), .conn 0 .loop, .conn 0 .loop,
    .accept 1 7, .register 1 7 (encodeMessage aliceLogin)] ++ untilHandler 1 ++
  [Act.login 1 0 acceptedPassword]

/-- The stranger finds the second session and not the first. -/
theorem session_isolation_reused : ∃ s p,
    run System.step (System.init 1) descriptorReused = some s ∧ s.conns[1]? = some p ∧
      p.world.tasks[0]? = some ⟨aliceLogin, .handler⟩ ∧ s.getSessionByConn p = some 1 ∧
      s.CreatedOn 1 1 := by
  have hlast : ((run System.step (System.init 1) descriptorReused).any fun s =>
      (s.conns[1]?).any fun p => decide (p.world.tasks[0]? = some ⟨aliceLogin, .handler⟩ ∧
        s.getSessionByConn p = some 1)) = true := by
    decide +kernel
  obtain ⟨s, hrun, hs⟩ := exists_of_run_any hlast
  obtain ⟨p, hp, hboth⟩ := (Option.any_eq_true _ _).mp hs
  obtain ⟨ht, hx⟩ := of_decide_eq_true hboth
  exact ⟨s, p, hrun, hp, ht, hx, session_isolation 1 descriptorReused s hrun 1 0 p _ 1 hp ht hx⟩

end System

end EchoNet.Server
