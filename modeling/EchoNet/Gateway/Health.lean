import EchoNet.Gateway.Direction

/-!
# The Health Rule

The health thread marks a backend unhealthy when its last `HEARTBEAT_RESP` is more than 15
seconds old, and skips a backend whose `last_pong_ms` is 0: one that was added and has not
answered yet, and also one that never answers.

`Observed` adds what the rule is about to the state: when a connection was added to `backends`,
and when the heartbeat branch of `business_handler` took a response from it.  Both are history.

## Main results

- `pong_backends`: a response counts for the entry of the connection that it came on;
- `healthy_heard_iff`: from every health pass on the healthy backends are those that the gateway
  has heard of, exactly if every pass finds the backends without an answer newly added;
- `never_answered_is_healthy`: a run that ends with a healthy backend that has never answered.
-/

namespace EchoNet.Gateway

open EchoNet.Lib EchoNet.Protocol

/-! ## §1 States -/

/-- `now_ms`. -/
def World.nowMs (w : World) : Nat := w.clock / 1000000

/-- A moment in the life of a backend's connection. -/
structure Moment where
  conn : ConnId
  ms : Nat
  deriving DecidableEq, Repr

structure Observed where
  system : Supervised
  added : List Moment
  answers : List Moment

namespace Observed

/-- The connections that a step has put in `backends`. -/
def entered (w w' : World) : List ConnId := w'.entryConns.filter fun c => !w.entryConns.contains c

/-- The connection whose `HEARTBEAT_RESP` a step handles. -/
def answering (w : World) : Supervised.Act → Option ConnId
  | .gateway (.handler i) =>
    (w.handlers[i]?.filter fun h => h.pc = .backendResponse ∧ h.msg.type = .heartbeatResp).map
      Handler.conn
  | _ => none

def init : Observed where
  system := .init
  added := []
  answers := []

def step (o : Observed) (a : Supervised.Act) : Option Observed :=
  (o.system.step a).map fun t =>
    { system := t
      added := o.added ++ (entered o.system.gateway t.gateway).map (⟨·, t.gateway.nowMs⟩)
      answers := o.answers ++
        (answering o.system.gateway a).toList.map (⟨·, o.system.gateway.nowMs⟩) }

theorem mem_entered {w w' : World} {c : ConnId} :
    c ∈ entered w w' ↔ c ∈ w'.entryConns ∧ c ∉ w.entryConns := by
  simp [entered]

/-! ## §2 Pongs -/

/-- If one entry at most fits, changing the first that fits is changing each that fits. -/
private theorem modify_findIdx_eq_map {l : List BackendEntry} {c : ConnId} {p : BackendEntry → Bool}
    (f : BackendEntry → BackendEntry) (hnodup : (l.map BackendEntry.conn).Nodup)
    (hp : ∀ e ∈ l, p e = true ↔ e.conn = c) :
    l.modify (l.findIdx p) f = l.map fun e => if e.conn = c then f e else e := by
  induction l with
  | nil => rfl
  | cons e l ih =>
    obtain ⟨hnot, hnodup⟩ := List.nodup_cons.mp hnodup
    have hl := fun e' he' => hp e' (List.mem_cons_of_mem _ he')
    by_cases he : e.conn = c
    -- the first hit is the only one: the connections are distinct
    · have hpe : p e = true := (hp e (List.mem_cons_self ..)).mpr he
      have hrest : (l.map fun e => if e.conn = c then f e else e) = l := by
        refine (List.map_congr_left fun e' he' => if_neg ?_).trans (List.map_id l)
        exact fun he'c => hnot (he ▸ he'c ▸ List.mem_map_of_mem he')
      simp [List.findIdx_cons, hpe, he, hrest]
    · have hpe : p e = false := by
        rw [← Bool.not_eq_true, hp e (List.mem_cons_self ..)]
        exact he
      simp [List.findIdx_cons, hpe, he, ih hnodup hl]

/-- **A pong** counts for the entry of the connection that it came on: the descriptors of the
entries are open, so no two of them, and none of them and another open one, have one number. -/
theorem pong_backends {s : Supervised} (h : s.Inv) {c : ConnId}
    (hopen : s.gateway.isOpen c = true) :
    (s.gateway.pong c).backends = s.gateway.backends.map fun e =>
      if e.conn = c then { e with lastPongMs := s.gateway.nowMs, healthy := true } else e := by
  have hnodup : s.gateway.entryConns.Nodup :=
    (List.nodup_append.mp (List.nodup_append.mp (List.nodup_append.mp h.nodup).1).1).1
  refine modify_findIdx_eq_map (fun e => { e with lastPongMs := s.gateway.nowMs, healthy := true })
    hnodup fun e he => ?_
  have hlive : e.conn ∈ Supervised.live s.gateway :=
    List.mem_append_left _ (List.mem_append_left _ (List.mem_map_of_mem he))
  rw [decide_eq_true_eq]
  constructor
  · exact fun hfd => Supervised.eq_of_fd_eq h.conns (h.isOpen_of_live hlive) hopen hfd
  · rintro rfl
    rfl

/-! ## §3 What a step does to the entries -/

@[simp] theorem check_conn (nowMs : Nat) (e : BackendEntry) : (e.check nowMs).conn = e.conn := by
  unfold BackendEntry.check
  split_ifs <;> rfl

@[simp] theorem check_lastPongMs (nowMs : Nat) (e : BackendEntry) :
    (e.check nowMs).lastPongMs = e.lastPongMs := by
  unfold BackendEntry.check
  split_ifs <;> rfl

/-- Who passes: the entry without a pong, as it was, and the one with a recent pong. -/
theorem check_healthy_iff {nowMs : Nat} {e : BackendEntry} :
    (e.check nowMs).healthy = true ↔
      e.lastPongMs = 0 ∧ e.healthy = true ∨ e.lastPongMs ≠ 0 ∧ nowMs ≤ e.lastPongMs + 15000 := by
  unfold BackendEntry.check
  split_ifs with hzero hlate
  · simp [hzero]
  · have hold : ¬nowMs ≤ e.lastPongMs + 15000 := by omega
    simp [hzero, hold]
  · have hrecent : nowMs ≤ e.lastPongMs + 15000 := by omega
    simp [hzero, hrecent]

/-- An entry after a step: pong and health are what they were, or it is new, or its connection
has answered, or it has been checked. -/
inductive Health (w w' : World) (a : Supervised.Act) (e : BackendEntry) : Prop
  | kept {e₀ : BackendEntry} : e₀ ∈ w.backends → e.conn = e₀.conn →
      e.lastPongMs = e₀.lastPongMs → e.healthy = e₀.healthy → answering w a ≠ some e.conn →
      Health w w' a e
  | added : e.lastPongMs = 0 → e.healthy = true → e.conn ∈ entered w w' →
      (e.conn < w.conns.length → e.conn ∈ w.adding.map Prod.snd) → answering w a = none →
      Health w w' a e
  | answered : e.conn ∈ w.entryConns → answering w a = some e.conn → e.lastPongMs = w.nowMs →
      e.healthy = true → Health w w' a e
  | checked {e₀ : BackendEntry} : e₀ ∈ w.backends → e = e₀.check w.nowMs →
      a = .gateway .healthPass → Health w w' a e

/-- An entry that the step leaves alone. -/
private theorem Health.same {w w' : World} {a : Supervised.Act} {e : BackendEntry}
    (he : e ∈ w.backends) (ha : answering w a = none) : Health w w' a e :=
  .kept he rfl rfl rfl (by simp [ha])

/-- `pick_backend` counts a request. -/
private theorem mem_backends_pickBackend {w w' : World} {backend : Option ConnId}
    (hpick : w.pickBackend = (w', backend)) {e : BackendEntry} (he : e ∈ w'.backends) :
    ∃ e₀ ∈ w.backends, e.conn = e₀.conn ∧ e.lastPongMs = e₀.lastPongMs ∧
      e.healthy = e₀.healthy := by
  unfold World.pickBackend at hpick
  split_ifs at hpick
  · cases hpick
    exact ⟨e, he, rfl, rfl, rfl⟩
  · split at hpick
    · cases hpick
      exact ⟨e, he, rfl, rfl, rfl⟩
    · cases hpick
      obtain ⟨i, hi, rfl⟩ := List.mem_iff_getElem.mp he
      simp only [List.length_modify] at hi
      refine ⟨w.backends[i], List.getElem_mem hi, ?_⟩
      simp only [List.getElem_modify]
      split_ifs <;> exact ⟨rfl, rfl, rfl⟩

/-- A handler writes to an entry when it takes a pong and when it picks a backend. -/
private theorem health_of_handlerStep {s : Supervised} (h : s.Inv) {i : Nat} {x : Handler}
    (hx : s.gateway.handlers[i]? = some x) {e : BackendEntry}
    (he : e ∈ (s.gateway.handlerStep i x).backends) :
    Health s.gateway (s.gateway.handlerStep i x) (.gateway (.handler i)) e := by
  have hother : ¬(x.pc = .backendResponse ∧ x.msg.type = .heartbeatResp) →
      answering s.gateway (.gateway (.handler i)) = none := fun hne => by
    simp [answering, hx, Option.filter, hne]
  have hstep := s.gateway.handlerStep_cases i x
  generalize s.gateway.handlerStep i x = w at hstep he ⊢
  cases hstep with
  -- the heartbeat branch changes the entry of its connection and keeps the others
  | pong hpc htype =>
    have hans : answering s.gateway (.gateway (.handler i)) = some x.conn := by
      simp [answering, hx, Option.filter, hpc, htype]
    replace he : e ∈ (s.gateway.pong x.conn).backends := he
    rw [pong_backends h (h.handlers x (List.mem_of_getElem? hx)), List.mem_map] at he
    obtain ⟨e₀, he₀, rfl⟩ := he
    by_cases hc : e₀.conn = x.conn
    · rw [if_pos hc]
      have hentry : e₀.conn ∈ s.gateway.entryConns := List.mem_map_of_mem he₀
      exact .answered hentry (by rw [hans, hc]) rfl rfl
    · rw [if_neg hc]
      exact .kept he₀ rfl rfl rfl (by simpa [hans] using Ne.symm hc)
  -- `pick_backend` counts requests, which is no part of the health
  | picked rr bs backend hpc hpick =>
    obtain ⟨e₀, he₀, hconn, hlast, hhealthy⟩ := mem_backends_pickBackend hpick he
    exact .kept he₀ hconn hlast hhealthy (by simp [hother (by simp [hpc])])
  | noBackend rr bs hpc hpick =>
    obtain ⟨e₀, he₀, hconn, hlast, hhealthy⟩ := mem_backends_pickBackend hpick he
    exact .kept he₀ hconn hlast hhealthy (by simp [hother (by simp [hpc])])
  | fromBackend hpc _ => exact .same he (hother (by simp [hpc]))
  | fromClient hpc _ => exact .same he (hother (by simp [hpc]))
  | found _ _ htype _ => exact .same he (hother fun hboth => htype hboth.2)
  | unknown _ htype _ => exact .same he (hother fun hboth => htype hboth.2)
  | delivered _ hpc _ => exact .same he (hother (by simp [hpc]))
  | dropped _ hpc _ => exact .same he (hother (by simp [hpc]))
  | allocated _ hpc => exact .same he (hother (by simp [hpc]))
  | recorded _ _ _ hpc => exact .same he (hother (by simp [hpc]))
  | forwarded _ _ hpc => exact .same he (hother (by simp [hpc]))

/-- The clients and the other threads. -/
private theorem health_of_gateway {s : Supervised} (h : s.Inv) {a : Act} {w : World}
    (hallows : s.allows a = true) (hstep : s.gateway.step a = some w) {e : BackendEntry}
    (he : e ∈ w.backends) : Health s.gateway w (.gateway a) e := by
  cases a with
  | handler i =>
    obtain ⟨x, hx, rfl⟩ := Option.map_eq_some_iff.mp hstep
    exact health_of_handlerStep h hx he
  | healthPass =>
    cases hstep
    obtain ⟨e₀, he₀, rfl⟩ := List.mem_map.mp he
    exact .checked he₀ rfl rfl
  | accept fd =>
    simp only [World.step, World.newConn] at hstep
    split_ifs at hstep
    cases hstep
    exact .same he rfl
  | destroy c =>
    simp only [World.step] at hstep
    split_ifs at hstep
    cases hstep
    exact .same he rfl
  | receive c msg =>
    simp only [World.step] at hstep
    split_ifs at hstep
    cases hstep
    exact .same he rfl
  | cleanupBegin =>
    simp only [World.step] at hstep
    split_ifs at hstep
    cases hstep
    exact .same he rfl
  | cleanupCollect =>
    obtain ⟨now, -, rfl⟩ := Option.map_eq_some_iff.mp hstep
    exact .same he rfl
  | cleanupSend i =>
    obtain ⟨t, -, rfl⟩ := Option.map_eq_some_iff.mp hstep
    exact .same he rfl
  | closeFd c =>
    cases hstep
    exact .same he rfl
  | tick elapsed =>
    cases hstep
    exact .same he rfl
  -- the steps that the supervised gateway takes only together
  | connect _ _ | addBackend | insertFd | removeBackends _ | eraseFd =>
    simp [Supervised.allows] at hallows

/-- **A step** on an entry. -/
theorem health_of_step {s t : Supervised} {a : Supervised.Act} (h : s.Inv)
    (hstep : s.step a = some t) {e : BackendEntry} (he : e ∈ t.gateway.backends) :
    Health s.gateway t.gateway a e := by
  cases Supervised.step_cases hstep with
  | startBackend hpc hw =>
    obtain ⟨-, hadding, hinserting⟩ := h.starting hpc
    obtain ⟨-, rfl⟩ := World.run_startBackend hadding hinserting hw
    rcases List.mem_append.mp he with he | he
    · exact .same he rfl
    · obtain rfl := List.mem_singleton.mp he
      refine .added rfl rfl ?_ (fun hlt => absurd hlt (lt_irrefl _)) rfl
      -- the connections of the table are older
      have hnot : s.gateway.conns.length ∉ s.gateway.entryConns := fun hmem =>
        lt_irrefl _ (World.lt_of_outbound (h.outbound_of_live
          (List.mem_append_left _ (List.mem_append_left _ hmem))))
      exact mem_entered.mpr ⟨List.mem_map_of_mem (List.mem_append_right _ he), hnot⟩
  | @runAdd rest w hidle hposted hw =>
    obtain ⟨addr, c, more, hadding, rfl⟩ := World.step_addBackend hw
    rcases List.mem_append.mp he with he | he
    · exact .same he rfl
    · obtain rfl := List.mem_singleton.mp he
      refine .added rfl rfl ?_ (fun _ => by simp [hadding]) rfl
      -- a posted addition is in no other place
      have hnot : c ∉ s.gateway.entryConns := by
        have hnodup := (List.nodup_append.mp (List.nodup_append.mp h.nodup).1).1
        rw [hadding, List.map_cons] at hnodup
        exact fun hc => (List.nodup_append.mp hnodup).2.2 c hc c (List.mem_cons_self ..) rfl
      exact mem_entered.mpr ⟨List.mem_map_of_mem (List.mem_append_right _ he), hnot⟩
  | remove _ hw =>
    cases hw
    exact .same (List.mem_filter.mp he).1 rfl
  | unregister _ _ hw =>
    obtain ⟨c, rest, -, rfl⟩ := World.step_eraseFd hw
    exact .same he rfl
  | connect _ hw =>
    obtain ⟨-, rfl⟩ := World.step_connect hw
    exact .same he rfl
  | insertFd hw =>
    obtain ⟨c, rest, -, rfl⟩ := World.step_insertFd hw
    exact .same he rfl
  | gateway _ hallows hw => exact health_of_gateway h hallows hw he
  | runClose _ _ =>
    replace he : e ∈ (s.disconnect _).gateway.backends := he
    rw [Supervised.disconnect_gateway] at he
    exact .same he rfl
  | handleClose _ =>
    rw [Supervised.disconnect_gateway] at he
    exact .same he rfl
  | _ => exact .same he rfl

/-! ## §4 The history -/

/-- The times of `added` and `answers` fit those of the entries. -/
structure Inv (o : Observed) : Prop where
  system : o.system.Inv
  pong : ∀ e ∈ o.system.gateway.backends, e.lastPongMs ≠ 0 → ⟨e.conn, e.lastPongMs⟩ ∈ o.answers
  latest : ∀ e ∈ o.system.gateway.backends, ∀ m ∈ o.answers, m.conn = e.conn →
    m.ms ≤ e.lastPongMs
  fresh : ∀ e ∈ o.system.gateway.backends, e.lastPongMs = 0 → e.healthy = true
  past : ∀ m ∈ o.answers, m.ms ≤ o.system.gateway.nowMs
  /-- a connection answers after it has been added -/
  answered : ∀ m ∈ o.answers, m.conn < o.system.gateway.conns.length ∧
    m.conn ∉ o.system.gateway.adding.map Prod.snd
  handlers : ∀ h ∈ o.system.gateway.handlers, h.conn ∉ o.system.gateway.adding.map Prod.snd

theorem Inv.init : Inv init := by
  refine ⟨.init, ?_, ?_, ?_, ?_, ?_, ?_⟩ <;> simp [Observed.init, Supervised.init, World.init]

/-- What a step does to the clock, and to the connections that have yet to be added. -/
structure Moves (w w' : World) : Prop where
  clock : w.clock ≤ w'.clock
  conns : w.conns.length ≤ w'.conns.length
  adding : ∀ c < w.conns.length, c ∈ w'.adding.map Prod.snd → c ∈ w.adding.map Prod.snd
  handlers : ∀ x ∈ w'.handlers, (∃ y ∈ w.handlers, y.conn = x.conn) ∨
    x.conn < w.conns.length ∧ x.conn ∉ w.adding.map Prod.snd

/-- The handlers and the additions stay. -/
private theorem Moves.same {w w' : World} (hclock : w'.clock = w.clock)
    (hconns : w'.conns = w.conns) (hadding : w'.adding = w.adding)
    (hhandlers : w'.handlers = w.handlers) : Moves w w' :=
  ⟨hclock.ge, hconns ▸ le_refl _, fun _ _ hc => hadding ▸ hc,
    fun x hx => Or.inl ⟨x, hhandlers ▸ hx, rfl⟩⟩

private theorem clock_handlerStep (w : World) (i : Nat) (x : Handler) :
    (w.handlerStep i x).clock = w.clock := by
  have hstep := w.handlerStep_cases i x
  generalize w.handlerStep i x = w' at hstep ⊢
  cases hstep <;> rfl

private theorem moves_of_gateway {s : Supervised} (h : s.Inv) {a : Act} {w : World}
    (hallows : s.allows a = true) (hstep : s.gateway.step a = some w) : Moves s.gateway w := by
  cases a with
  | handler i =>
    obtain ⟨x, hx, rfl⟩ := Option.map_eq_some_iff.mp hstep
    have hmoves := handlerStep_moves s.gateway i x
    refine ⟨(clock_handlerStep ..).ge, hmoves.conns ▸ le_refl _, fun c _ hc => ?_, fun y hy => ?_⟩
    · rwa [hmoves.tables.adding] at hc
    · exact Or.inl (hmoves.mem hx hy)
  | receive c msg =>
    simp only [World.step] at hstep
    split_ifs at hstep
    cases hstep
    refine ⟨le_refl _, le_refl _, fun _ _ hc => hc, fun y hy => ?_⟩
    rcases List.mem_append.mp hy with hy | hy
    · exact Or.inl ⟨y, hy, rfl⟩
    · rw [List.mem_singleton.mp hy]
      simp only [Supervised.allows, Bool.and_eq_true, Bool.or_eq_true, Bool.not_eq_true'] at hallows
      refine Or.inr ⟨World.lt_of_isOpen hallows.1.1, fun hmem => ?_⟩
      -- a message comes in on a connection that is accepted, or registered with the loop
      rcases hallows.2 with hclient | ⟨-, hreg⟩
      · have hout := h.outbound c (List.mem_append_left _
          (List.mem_append_left _ (List.mem_append_right _ hmem)))
        rw [hclient] at hout
        cases hout
      · simp only [Supervised.registered, Bool.and_eq_true] at hreg
        obtain ⟨e, he, rfl⟩ := List.mem_map.mp hmem
        simpa using List.all_eq_true.mp hreg.1.2 e he
  | accept fd =>
    simp only [World.step, World.newConn] at hstep
    split_ifs at hstep
    cases hstep
    exact ⟨le_refl _, by simp, fun _ _ hc => hc, fun y hy => Or.inl ⟨y, hy, rfl⟩⟩
  | closeFd c =>
    cases hstep
    exact ⟨le_refl _, by simp, fun _ _ hc => hc, fun y hy => Or.inl ⟨y, hy, rfl⟩⟩
  | destroy c =>
    simp only [World.step] at hstep
    split_ifs at hstep
    cases hstep
    exact ⟨le_refl _, by simp, fun _ _ hc => hc, fun y hy => Or.inl ⟨y, hy, rfl⟩⟩
  | cleanupBegin =>
    simp only [World.step] at hstep
    split_ifs at hstep
    cases hstep
    exact .same rfl rfl rfl rfl
  | cleanupCollect =>
    obtain ⟨now, -, rfl⟩ := Option.map_eq_some_iff.mp hstep
    exact .same rfl rfl rfl rfl
  | cleanupSend i =>
    obtain ⟨t, -, rfl⟩ := Option.map_eq_some_iff.mp hstep
    exact .same rfl rfl rfl rfl
  | healthPass =>
    cases hstep
    exact .same rfl rfl rfl rfl
  | tick elapsed =>
    cases hstep
    exact ⟨Nat.le_add_right .., le_refl _, fun _ _ hc => hc, fun y hy => Or.inl ⟨y, hy, rfl⟩⟩
  | connect _ _ | addBackend | insertFd | removeBackends _ | eraseFd =>
    simp [Supervised.allows] at hallows

theorem moves_of_step {s t : Supervised} {a : Supervised.Act} (h : s.Inv)
    (hstep : s.step a = some t) : Moves s.gateway t.gateway := by
  cases Supervised.step_cases hstep with
  | startBackend hpc hw =>
    obtain ⟨-, hadding, hinserting⟩ := h.starting hpc
    obtain ⟨-, rfl⟩ := World.run_startBackend hadding hinserting hw
    exact ⟨le_refl _, by simp, fun _ _ hc => hc, fun y hy => Or.inl ⟨y, hy, rfl⟩⟩
  | connect _ hw =>
    obtain ⟨-, rfl⟩ := World.step_connect hw
    refine ⟨le_refl _, by simp, fun c hlt hc => ?_, fun y hy => Or.inl ⟨y, hy, rfl⟩⟩
    -- the connection that is posted is the new one
    rw [List.map_append, List.mem_append] at hc
    exact hc.resolve_right fun hnew => absurd (List.mem_singleton.mp hnew) hlt.ne
  | runAdd _ _ hw =>
    obtain ⟨addr, c, more, hadding, rfl⟩ := World.step_addBackend hw
    refine ⟨le_refl _, le_refl _, fun x _ hx => ?_, fun y hy => Or.inl ⟨y, hy, rfl⟩⟩
    rw [hadding]
    exact List.mem_cons_of_mem _ hx
  | remove _ hw =>
    cases hw
    exact .same rfl rfl rfl rfl
  | unregister _ _ hw =>
    obtain ⟨c, rest, -, rfl⟩ := World.step_eraseFd hw
    exact .same rfl rfl rfl rfl
  | insertFd hw =>
    obtain ⟨c, rest, -, rfl⟩ := World.step_insertFd hw
    exact .same rfl rfl rfl rfl
  | gateway _ hallows hw => exact moves_of_gateway h hallows hw
  | runClose _ _ =>
    show Moves s.gateway (s.disconnect _).gateway
    rw [Supervised.disconnect_gateway]
    exact .same rfl rfl rfl rfl
  | handleClose _ =>
    rw [Supervised.disconnect_gateway]
    exact .same rfl rfl rfl rfl
  | _ => exact .same rfl rfl rfl rfl

/-- A response is that of a running handler. -/
theorem answering_eq_some {w : World} {a : Supervised.Act} {c : ConnId}
    (h : answering w a = some c) : ∃ x ∈ w.handlers, x.conn = c := by
  unfold answering at h
  split at h
  · obtain ⟨x, hx, rfl⟩ := Option.map_eq_some_iff.mp h
    exact ⟨x, List.mem_of_getElem? (Option.filter_eq_some_iff.mp hx).1, rfl⟩
  · cases h

theorem Inv.step {o o' : Observed} {a : Supervised.Act} (h : Inv o) (hstep : o.step a = some o') :
    Inv o' := by
  obtain ⟨t, ht, rfl⟩ := Option.map_eq_some_iff.mp hstep
  have hmoves := moves_of_step h.system ht
  have hnow : o.system.gateway.nowMs ≤ t.gateway.nowMs := Nat.div_le_div_right hmoves.clock
  -- a moment of the history is old, or that of the response
  have hold : ∀ m ∈ o.answers ++
      (answering o.system.gateway a).toList.map (⟨·, o.system.gateway.nowMs⟩),
      m ∈ o.answers ∨ answering o.system.gateway a = some m.conn ∧
        m.ms = o.system.gateway.nowMs := by
    intro m hm
    rw [List.mem_append, List.mem_map] at hm
    refine hm.imp_right ?_
    rintro ⟨c, hc, rfl⟩
    exact ⟨by simpa using hc, rfl⟩
  refine ⟨h.system.step ht, fun e he hne => ?_, fun e he m hm hconn => ?_, fun e he hzero => ?_,
    fun m hm => ?_, fun m hm => ?_, fun x hx => ?_⟩
  · cases health_of_step h.system ht he with
    | kept he₀ hconn hlast _ _ =>
      rw [hlast] at hne
      have hmem := h.pong _ he₀ hne
      rw [hconn, hlast]
      exact List.mem_append_left _ hmem
    | added hzero _ _ _ _ => exact absurd hzero hne
    | answered _ hans hlast _ => exact List.mem_append_right _ (by simp [hans, hlast])
    | checked he₀ heq _ =>
      subst heq
      rw [check_lastPongMs] at hne
      rw [check_conn, check_lastPongMs]
      exact List.mem_append_left _ (h.pong _ he₀ hne)
  · cases health_of_step h.system ht he with
    | kept he₀ hconn₀ hlast _ hans =>
      rw [hlast]
      rcases hold m hm with hm | ⟨hm, -⟩
      · exact h.latest _ he₀ m hm (hconn.trans hconn₀)
      · exact absurd (hconn ▸ hm) hans
    | added _ _ _ hadding hans =>
      -- nobody answers before the addition
      rcases hold m hm with hm | ⟨hm, -⟩
      · obtain ⟨hlt, hnot⟩ := h.answered m hm
        rw [hconn] at hlt hnot
        exact absurd (hadding hlt) hnot
      · rw [hans] at hm
        cases hm
    | answered _ _ hlast _ =>
      rw [hlast]
      rcases hold m hm with hm | ⟨-, hms⟩
      · exact h.past m hm
      · exact hms.le
    | checked he₀ heq ha =>
      subst heq ha
      rw [check_conn] at hconn
      rw [check_lastPongMs]
      refine h.latest _ he₀ m ?_ hconn
      exact (hold m hm).resolve_right fun hans => by cases hans.1
  · cases health_of_step h.system ht he with
    | kept he₀ _ hlast hhealthy _ => exact hhealthy.trans (h.fresh _ he₀ (hlast ▸ hzero))
    | added _ hhealthy _ _ _ => exact hhealthy
    | answered _ _ _ hhealthy => exact hhealthy
    | checked he₀ heq _ =>
      subst heq
      rw [check_lastPongMs] at hzero
      exact check_healthy_iff.mpr (Or.inl ⟨hzero, h.fresh _ he₀ hzero⟩)
  · rcases hold m hm with hm | ⟨-, hms⟩
    · exact (h.past m hm).trans hnow
    · exact hms.le.trans hnow
  · have hbefore : m.conn < o.system.gateway.conns.length ∧
        m.conn ∉ o.system.gateway.adding.map Prod.snd := by
      rcases hold m hm with hm | ⟨hans, -⟩
      · exact h.answered m hm
      · obtain ⟨x, hx, hconn⟩ := answering_eq_some hans
        rw [← hconn]
        exact ⟨World.lt_of_isOpen (h.system.handlers x hx), h.handlers x hx⟩
    exact ⟨hbefore.1.trans_le hmoves.conns, fun hmem =>
      hbefore.2 (hmoves.adding _ hbefore.1 hmem)⟩
  · obtain ⟨hlt, hnot⟩ : x.conn < o.system.gateway.conns.length ∧
        x.conn ∉ o.system.gateway.adding.map Prod.snd := by
      rcases hmoves.handlers x hx with ⟨y, hy, hconn⟩ | hnew
      · rw [← hconn]
        exact ⟨World.lt_of_isOpen (h.system.handlers y hy), h.handlers y hy⟩
      · exact hnew
    exact fun hmem => hnot (hmoves.adding _ hlt hmem)

/-! ## §5 The rule -/

/-- Less than 15 seconds before `now` the connection was added, or at most 15 seconds before
`now`, or later, it has answered. -/
def Heard (now : Nat) (o : Observed) (c : ConnId) : Prop :=
  (∃ m ∈ o.answers, m.conn = c ∧ now ≤ m.ms + 15000) ∨
    ∃ m ∈ o.added, m.conn = c ∧ now < m.ms + 15000

/-- The rule for a health pass at time `now`: the healthy backends have been heard of, so
`pick_backend` selects none that has not. -/
structure HealthyHeard (now : Nat) (o : Observed) : Prop where
  entries : ∀ e ∈ o.system.gateway.backends, e.healthy = true → Heard now o e.conn
  picks : ∀ c, o.system.gateway.pickBackend.2 = some c → Heard now o c

/-- A health pass finds the backends that have not answered since they were added (or in the
first millisecond of the clock only) added less than 15 seconds ago. -/
def SilentAreNew (o : Observed) : Supervised.Act → Prop
  | .gateway .healthPass =>
    ∀ e ∈ o.system.gateway.backends, (∀ m ∈ o.answers, m.conn = e.conn → m.ms = 0) →
      (∃ m ∈ o.added, m.conn = e.conn ∧ o.system.gateway.nowMs < m.ms + 15000) ∨
        (∃ m ∈ o.answers, m.conn = e.conn) ∧ o.system.gateway.nowMs ≤ 15000
  | _ => True

instance (now : Nat) (o : Observed) (c : ConnId) : Decidable (Heard now o c) :=
  inferInstanceAs (Decidable (_ ∨ _))

private theorem pickLoop_healthy {backends : List BackendEntry} {tries : Nat} {rr rr' : UInt64}
    {i : Nat} (h : pickLoop backends rr tries = (rr', some i)) :
    ∃ e, backends[i]? = some e ∧ e.healthy = true := by
  induction tries generalizing rr with
  | zero => cases h
  | succ tries ih =>
    simp only [pickLoop] at h
    split_ifs at h with hhealthy
    · cases h
      cases he : backends[rr.toNat % backends.length]? with
      | none => simp [he] at hhealthy
      | some e => exact ⟨e, rfl, by simpa [he] using hhealthy⟩
    · exact ih h

/-- `pick_backend` selects a healthy backend. -/
theorem exists_of_pickBackend {w : World} {c : ConnId} (h : w.pickBackend.2 = some c) :
    ∃ e ∈ w.backends, e.conn = c ∧ e.healthy = true := by
  unfold World.pickBackend at h
  split_ifs at h
  split at h
  · cases h
  · rename_i rr i hloop
    obtain ⟨e, he, hhealthy⟩ := pickLoop_healthy hloop
    have hconn : e.conn = c := by simpa [he] using h
    exact ⟨e, List.mem_of_getElem? he, hconn, hhealthy⟩

theorem healthyHeard_of_entries {now : Nat} {o : Observed}
    (h : ∀ e ∈ o.system.gateway.backends, e.healthy = true → Heard now o e.conn) :
    HealthyHeard now o := by
  refine ⟨h, fun c hc => ?_⟩
  obtain ⟨e, he, rfl, hhealthy⟩ := exists_of_pickBackend hc
  exact h e he hhealthy

/-- The history grows. -/
private theorem Heard.mono {now : Nat} {o o' : Observed} {a : Supervised.Act} {c : ConnId}
    (h : Heard now o c) (hstep : o.step a = some o') : Heard now o' c := by
  obtain ⟨t, -, rfl⟩ := Option.map_eq_some_iff.mp hstep
  rcases h with ⟨m, hm, hc⟩ | ⟨m, hm, hc⟩
  · exact Or.inl ⟨m, List.mem_append_left _ hm, hc⟩
  · exact Or.inr ⟨m, List.mem_append_left _ hm, hc⟩

/-- The rule for a pass is kept by every later step. -/
theorem HealthyHeard.step {now : Nat} {o o' : Observed} {a : Supervised.Act} (hi : Inv o)
    (hnow : now ≤ o.system.gateway.nowMs) (h : HealthyHeard now o) (hstep : o.step a = some o') :
    HealthyHeard now o' := by
  refine healthyHeard_of_entries fun e he hhealthy => ?_
  have hmono : ∀ {c}, Heard now o c → Heard now o' c := fun hc => hc.mono hstep
  obtain ⟨t, ht, rfl⟩ := Option.map_eq_some_iff.mp hstep
  have hlater : o.system.gateway.nowMs ≤ t.gateway.nowMs :=
    Nat.div_le_div_right (moves_of_step hi.system ht).clock
  cases health_of_step hi.system ht he with
  | kept he₀ hconn _ hsame _ =>
    rw [hconn]
    exact hmono (h.entries _ he₀ (hsame ▸ hhealthy))
  | added _ _ hentered _ _ =>
    refine Or.inr ⟨⟨e.conn, t.gateway.nowMs⟩, ?_, rfl, ?_⟩
    · exact List.mem_append_right _ (List.mem_map_of_mem hentered)
    -- an entry counts as new for 15 seconds
    · show now < t.gateway.nowMs + 15000
      omega
  | answered _ hans _ _ =>
    refine Or.inl ⟨⟨e.conn, o.system.gateway.nowMs⟩, ?_, rfl, ?_⟩
    · exact List.mem_append_right _ (by simp [hans])
    -- the answer is more recent than the pass
    · show now ≤ o.system.gateway.nowMs + 15000
      omega
  | @checked e₀ he₀ heq _ =>
    subst heq
    rw [check_conn]
    -- a later pass keeps an entry only on the grounds of an answer
    rcases check_healthy_iff.mp hhealthy with ⟨-, hsame⟩ | ⟨hne, hrecent⟩
    · exact hmono (h.entries _ he₀ hsame)
    · exact hmono (Or.inl ⟨_, hi.pong _ he₀ hne, rfl, hnow.trans hrecent⟩)

/-- A health pass adds no connection. -/
private theorem not_mem_entered_healthPass (w : World) (c : ConnId) :
    c ∉ entered w { w with backends := w.backends.map (BackendEntry.check w.nowMs) } := by
  rw [mem_entered]
  rintro ⟨hc, hnot⟩
  simp only [World.entryConns, List.map_map] at hc
  obtain ⟨e, he, rfl⟩ := List.mem_map.mp hc
  exact hnot (by simpa [World.entryConns] using ⟨e, he, rfl⟩)

/-- **A health pass** establishes its rule exactly if it finds the silent backends new. -/
theorem healthyHeard_pass_iff {o o' : Observed} (hi : Inv o)
    (hstep : o.step (.gateway .healthPass) = some o') :
    HealthyHeard o'.system.gateway.nowMs o' ↔ SilentAreNew o (.gateway .healthPass) := by
  obtain ⟨t, ht, rfl⟩ := Option.map_eq_some_iff.mp hstep
  cases Supervised.step_cases ht with
  | gateway _ _ hw =>
    cases hw
    constructor
    · intro h e he hsilent
      have hzero : e.lastPongMs = 0 := by
        by_contra hne
        exact hne (hsilent _ (hi.pong e he hne) rfl)
      have hpass : (e.check o.system.gateway.nowMs).healthy = true :=
        check_healthy_iff.mpr (Or.inl ⟨hzero, hi.fresh e he hzero⟩)
      have hheard := h.entries _ (List.mem_map_of_mem he) hpass
      rw [check_conn] at hheard
      rcases hheard with ⟨m, hm, hconn, hms⟩ | ⟨m, hm, hconn, hms⟩
      · -- an answer in the first millisecond
        have hmem : m ∈ o.answers := by simpa [answering] using hm
        rw [hsilent m hmem hconn, Nat.zero_add] at hms
        exact Or.inr ⟨⟨m, hmem, hconn⟩, hms⟩
      · refine Or.inl ⟨m, ?_, hconn, hms⟩
        refine (List.mem_append.mp hm).resolve_right fun hnew => ?_
        obtain ⟨c, hc, -⟩ := List.mem_map.mp hnew
        exact not_mem_entered_healthPass _ c hc
    · intro h
      refine healthyHeard_of_entries fun e' he' hhealthy => ?_
      obtain ⟨e, he, rfl⟩ := List.mem_map.mp he'
      rw [check_conn]
      rcases check_healthy_iff.mp hhealthy with ⟨hzero, -⟩ | ⟨hne, hrecent⟩
      · -- the latest answer is from the first millisecond, or there is none
        have hsilent : ∀ m ∈ o.answers, m.conn = e.conn → m.ms = 0 := fun m hm hconn =>
          Nat.le_zero.mp (hzero ▸ hi.latest e he m hm hconn)
        rcases h e he hsilent with ⟨m, hm, hconn, hms⟩ | ⟨⟨m, hm, hconn⟩, hms⟩
        · exact Or.inr ⟨m, List.mem_append_left _ hm, hconn, hms⟩
        · exact Or.inl ⟨m, List.mem_append_left _ hm, hconn, hms.trans (Nat.le_add_left ..)⟩
      · exact Or.inl ⟨_, List.mem_append_left _ (hi.pong e he hne), rfl, hrecent⟩

/-- The clock and the invariant along a run. -/
private theorem run_later {o o' : Observed} {acts : List Supervised.Act} (hi : Inv o)
    (hrun : run step o acts = some o') :
    Inv o' ∧ o.system.gateway.nowMs ≤ o'.system.gateway.nowMs ∧
      ∀ now ≤ o.system.gateway.nowMs, HealthyHeard now o → HealthyHeard now o' := by
  refine run_invariant (P := fun v => Inv v ∧ o.system.gateway.nowMs ≤ v.system.gateway.nowMs ∧
    ∀ now ≤ o.system.gateway.nowMs, HealthyHeard now o → HealthyHeard now v) ?_
    ⟨hi, le_refl _, fun _ _ h => h⟩ hrun
  rintro v a v' ⟨hv, hnow, hheard⟩ hstep
  refine ⟨hv.step hstep, hnow.trans ?_, fun now hle h => ?_⟩
  · obtain ⟨t, ht, rfl⟩ := Option.map_eq_some_iff.mp hstep
    exact Nat.div_le_div_right (moves_of_step hv.system ht).clock
  · exact (hheard now hle h).step hv (hle.trans hnow) hstep

/-- **The health rule**: from every health pass on, the healthy backends are those that the pass
or a later step has heard of, exactly if every pass finds the backends without an answer
newly added. -/
theorem healthy_heard_iff {acts : List Supervised.Act} {o : Observed}
    (hrun : run step init acts = some o) :
    Meets step SilentAreNew init acts ↔
      ∀ pre mid post u v, acts = pre ++ .gateway .healthPass :: (mid ++ post) →
        run step init (pre ++ [.gateway .healthPass]) = some u → run step u mid = some v →
          HealthyHeard u.system.gateway.nowMs v := by
  rw [meets_iff_forall_step hrun]
  constructor
  · intro h pre mid post u v heq hu hv
    obtain ⟨w, hw, hstep⟩ := run_append.mp hu
    obtain ⟨u', hpass, hnil⟩ := run_cons_eq_some.mp hstep
    cases hnil
    have hi := (run_later Inv.init hw).1
    have hrule := (healthyHeard_pass_iff hi hpass).mpr (h pre _ (mid ++ post) heq w hw)
    exact (run_later (hi.step hpass) hv).2.2 _ (le_refl _) hrule
  -- read the condition off the state right after the pass
  · intro h pre a post heq w hw
    rw [heq] at hrun
    obtain ⟨w', hw', hrest⟩ := run_append.mp hrun
    rw [hw, Option.some.injEq] at hw'
    subst hw'
    obtain ⟨u, hu, -⟩ := run_cons_eq_some.mp hrest
    by_cases ha : a = .gateway .healthPass
    · subst ha
      refine (healthyHeard_pass_iff (run_later Inv.init hw).1 hu).mp ?_
      refine h pre [] post u u heq (run_append.mpr ⟨w, hw, ?_⟩) rfl
      exact run_cons_eq_some.mpr ⟨u, hu, rfl⟩
    · unfold SilentAreNew
      split
      · exact absurd rfl ha
      · trivial

instance (now : Nat) (o : Observed) : Decidable (HealthyHeard now o) :=
  decidable_of_iff (∀ e ∈ o.system.gateway.backends, e.healthy = true → Heard now o e.conn)
    ⟨healthyHeard_of_entries, HealthyHeard.entries⟩

instance (o : Observed) : (a : Supervised.Act) → Decidable (SilentAreNew o a)
  | .gateway a =>
    match a with
    | .healthPass => inferInstanceAs (Decidable (∀ e ∈ o.system.gateway.backends, _))
    | .accept _ | .connect _ _ | .closeFd _ | .destroy _ | .receive _ _ | .handler _ | .addBackend
    | .insertFd | .removeBackends _ | .eraseFd | .cleanupBegin | .cleanupCollect | .cleanupSend _
    | .tick _ => isTrue trivial
  | .remove | .startBackend _ _ | .serve | .snapshot _ | .unregister | .close | .check | .connect _
  | .connectFailed | .runPosted | .insertFd | .peerClose _ | .handleClose _ _ => isTrue trivial

/-- The response of a backend comes in and is handled. -/
def answer (c : ConnId) : List Supervised.Act :=
  [.gateway (.receive c ⟨.heartbeatResp, 0, []⟩), .gateway (.handler 0), .gateway (.handler 0)]

/-- `seconds` pass. -/
def wait (seconds : Nat) : Supervised.Act := .gateway (.tick (seconds * 1000000000))

/-- Two backends are there from the start; the first answers after 5 seconds, the second after
12, and the health thread looks after 10 and after 24 seconds. -/
def twoAnswering : List Supervised.Act :=
  Supervised.twoBackends ++ [wait 5] ++ answer 0 ++ [wait 5, .gateway .healthPass, wait 2] ++
    answer 1 ++ [wait 12, .gateway .healthPass]

theorem healthy_heard_iff_answering :
    ∃ o, run step init twoAnswering = some o ∧
      o.system.gateway.backends.map BackendEntry.healthy = [false, true] ∧
      ∀ pre mid post u v, twoAnswering = pre ++ .gateway .healthPass :: (mid ++ post) →
        run step init (pre ++ [.gateway .healthPass]) = some u → run step u mid = some v →
          HealthyHeard u.system.gateway.nowMs v := by
  have hlast : ((run step init twoAnswering).any fun o =>
      decide (o.system.gateway.backends.map BackendEntry.healthy = [false, true])) = true := by
    decide +kernel
  obtain ⟨o, ho, hlast⟩ := exists_of_run_any hlast
  have hnew : Meets step SilentAreNew init twoAnswering := by decide +kernel
  exact ⟨o, ho, of_decide_eq_true hlast, (healthy_heard_iff ho).mp hnew⟩

/-- The monitor adds a backend 5 seconds after the start, which accepts the connection and
nothing else; the next health pass is 20 seconds later. -/
def neverAnswering : List Supervised.Act :=
  [Supervised.Act.serve, wait 5, .snapshot ["127.0.0.1:9001"], .remove, .unregister, .check,
    .connect 7, .check, .runPosted, .insertFd, wait 20, .gateway .healthPass]

/-- **A backend that never answers** is healthy, and picked. -/
theorem never_answered_is_healthy :
    ∃ o, run step init neverAnswering = some o ∧ o.answers = [] ∧ o.added = [⟨0, 5000⟩] ∧
      o.system.gateway.nowMs = 25000 ∧ o.system.gateway.pickBackend.2 = some 0 ∧
      ¬HealthyHeard o.system.gateway.nowMs o := by
  have hlast : ((run step init neverAnswering).any fun o =>
      decide (o.answers = [] ∧ o.added = [⟨0, 5000⟩] ∧ o.system.gateway.nowMs = 25000 ∧
        o.system.gateway.pickBackend.2 = some 0 ∧ ¬HealthyHeard o.system.gateway.nowMs o)) =
      true := by
    decide +kernel
  obtain ⟨o, ho, hlast⟩ := exists_of_run_any hlast
  exact ⟨o, ho, of_decide_eq_true hlast⟩

end Observed

end EchoNet.Gateway
