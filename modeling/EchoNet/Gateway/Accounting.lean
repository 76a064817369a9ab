import EchoNet.Gateway.Routing

/-!
# Request Accounting

Every forwarded request should end in exactly one of `backend_responses`,
`dropped_client_gone` and `pending_timeouts`, or be still in `pending`.  The counters are bumped
on different threads after the entry has left the table, so between the two a handler or the
cleanup thread holds the request: `World.accounted` counts these too.

The cleanup thread erases an expired entry whose client is gone without counting it.  That is
the only way in which the two sides drift apart.

## Main results

- `balance_step`: a step changes the two sides by the same amount, but for what a pass forgets;
- `accounting_balanced_iff`: the counters add up exactly if no pass has forgotten anything;
- `forgotten_request_unaccounted`: a client that leaves before its request times out.
-/

namespace EchoNet.Gateway

open EchoNet.Lib EchoNet.Protocol

open World

/-! ## §1 The two sides -/

/-- The handler has entered its request into `pending` and not counted it as forwarded. -/
def Handler.forwards (h : Handler) : Bool :=
  match h.pc with
  | .forward _ _ => true
  | _ => false

/-- The handler has taken an entry out of `pending` and not counted its end. -/
def Handler.responds (h : Handler) : Bool :=
  match h.pc with
  | .respond _ => true
  | _ => false

/-- The handler has taken a new id for a request and not counted it as forwarded. -/
def Handler.takes (h : Handler) : Bool :=
  match h.pc with
  | .record _ _ _ | .forward _ _ => true
  | _ => false

/-- The requests that have been entered into `pending` so far. -/
def World.owed (w : World) : Nat := w.metrics.forwarded + w.handlers.countP Handler.forwards

/-- The requests that are in `pending`, in the hands of a thread, or counted. -/
def World.accounted (w : World) : Nat :=
  w.pending.keys.length + w.metrics.backendResponses + w.metrics.droppedClientGone +
    w.metrics.pendingTimeouts + w.handlers.countP Handler.responds + w.timeouts.length

/-- The expired entries whose client is gone. -/
def World.forgotten (w : World) (now : Nat) : List (Σ _ : UInt32, PendingRequest) :=
  (w.expiredEntries now).filter fun e => !w.alive e.2.clientConn

/-- What a step erases without counting it. -/
def World.lost (w : World) : Act → Nat
  | .cleanupCollect => (w.cleanupNow.map fun now => (w.forgotten now).length).getD 0
  | _ => 0

/-! ## §2 Entries of the table -/

/-- As long as the ids have not come round, a new one is not in the table. -/
theorem RouteInv.fresh {w : World} (hi : RouteInv w) (hlen : w.log.requests.length ≤ 2 ^ 32)
    {i : Nat} {h : Handler} {backend : ConnId} {newId : UInt32} {request : Nat}
    (hh : w.handlers[i]? = some h) (hpc : h.pc = .record backend newId request) :
    newId ∉ w.pending := by
  intro hmem
  obtain ⟨req, hk⟩ := Option.isSome_iff_exists.mp (AList.lookup_isSome.mpr hmem)
  obtain ⟨hown', hfree⟩ := hi.pending newId req hk
  have hown : Owns w.log.requests request h.conn h.msg.id newId := by
    simpa [HandlerOk, hpc] using hi.handlers h (List.mem_of_getElem? hh)
  have htoken : request ∈ tokens w := by
    refine (tokens_perm hh).mem_iff.mpr (List.mem_append_left _ ?_)
    simp [Handler.tokens, hpc]
  -- the key is the number of the request, which the bound makes unique
  have hlt := hown.lt
  have hlt' := hown'.lt
  obtain ⟨r, hr, -, -, hkey⟩ := hown
  obtain ⟨r', hr', -, -, hkey'⟩ := hown'
  have hsame : UInt32.ofNat (request + 1) = UInt32.ofNat (req.request + 1) := by
    rw [← hi.keys request r hr, ← hi.keys req.request r' hr', hkey, hkey']
  have hnat := congrArg UInt32.toNat hsame
  simp only [UInt32.toNat_ofNat'] at hnat
  have heq : request = req.request := by omega
  exact hfree (heq ▸ htoken)

theorem length_keys_insert {m : PendingMap} {k : UInt32} (req : PendingRequest) (h : k ∉ m) :
    (m.insert k req).keys.length = m.keys.length + 1 := by
  rw [AList.keys, AList.entries_insert_of_notMem h]
  simp [List.keys, AList.keys]

theorem length_keys_erase {m : PendingMap} {k : UInt32} (h : k ∈ m) :
    (m.erase k).keys.length + 1 = m.keys.length := by
  rw [AList.keys_erase, List.length_erase_of_mem h]
  have hpos := List.length_pos_of_mem (show k ∈ m.keys from h)
  omega

/-- Erasing distinct keys of the table. -/
theorem length_keys_foldl_erase {m : PendingMap} {old : List (Σ _ : UInt32, PendingRequest)}
    (hmem : ∀ e ∈ old, e.1 ∈ m) (hnodup : old.NodupKeys) :
    (old.foldl (fun m e => m.erase e.1) m).keys.length + old.length = m.keys.length := by
  induction old generalizing m with
  | nil => rfl
  | cons e old ih =>
    obtain ⟨hnot, hrest⟩ := List.nodupKeys_cons.mp hnodup
    have herase := length_keys_erase (hmem e (List.mem_cons_self ..))
    -- the keys are distinct, so the first erasure leaves the other keys in the table
    have hkeep : ∀ x ∈ old, x.1 ∈ m.erase e.1 := by
      intro x hx
      refine AList.mem_erase.mpr ⟨?_, hmem x (List.mem_cons_of_mem _ hx)⟩
      rintro heq
      exact hnot (heq ▸ List.mem_keys_of_mem hx)
    have hlen := ih hkeep hrest
    rw [List.foldl_cons, List.length_cons]
    omega

/-- A cleanup pass moves the expired entries to the list of timeouts, but for the forgotten. -/
theorem balance_collect (w : World) (now : Nat) (hidle : w.timeouts = []) :
    (w.collect now).accounted + (w.forgotten now).length = w.accounted := by
  have hmem : ∀ e ∈ w.expiredEntries now, e.1 ∈ w.pending := fun e he =>
    AList.lookup_isSome.mp (by rw [mem_expiredEntries he]; rfl)
  have hnodup : (w.expiredEntries now).NodupKeys :=
    w.pending.nodupKeys.sublist List.filter_sublist
  have hkeys := length_keys_foldl_erase hmem hnodup
  -- the expired entries are the ones whose client is told and the forgotten ones
  have hsplit := List.length_eq_length_filter_add (l := w.expiredEntries now)
    fun e => w.alive e.2.clientConn
  have htimeouts : (w.collect now).timeouts.length =
      ((w.expiredEntries now).filter fun e => w.alive e.2.clientConn).length := by
    simp [World.collect]
  have hforgotten : (w.forgotten now).length =
      ((w.expiredEntries now).filter fun e => !w.alive e.2.clientConn).length := rfl
  unfold World.accounted
  rw [htimeouts, hidle, List.length_nil]
  show ((w.expiredEntries now).foldl (fun m e => m.erase e.1) w.pending).keys.length +
    w.metrics.backendResponses + w.metrics.droppedClientGone + w.metrics.pendingTimeouts +
    w.handlers.countP Handler.responds + _ + _ = _
  omega

/-! ## §3 One step -/

/-- What the balance needs besides the routing: a cleanup pass starts with nobody left to tell,
and a request is counted as forwarded once, when its handler is done with it. -/
structure CountInv (w : World) : Prop where
  idle : w.cleanupNow ≠ none → w.timeouts = []
  taken : w.log.requests.length = w.metrics.forwarded + w.handlers.countP Handler.takes

theorem CountInv.init : CountInv World.init := by
  constructor <;> simp [World.init]

/-- A handler moves on: what it gains or gives up of the table, the table loses or gains. -/
private theorem balance_goto {w w' : World} {i : Nat} {h : Handler} (pc : HandlerPc)
    (hh : w.handlers[i]? = some h)
    (hhandlers : w'.handlers = w.handlers.set i { h with pc := pc })
    (hmetrics : w'.metrics = w.metrics) (htimeouts : w'.timeouts = w.timeouts)
    (hkeys : w'.pending.keys.length + ({ h with pc := pc } : Handler).responds.toNat +
        h.forwards.toNat =
      w.pending.keys.length + h.responds.toNat + ({ h with pc := pc } : Handler).forwards.toNat) :
    w'.owed + w.accounted = w.owed + w'.accounted := by
  have hforwards := countP_set_add hh Handler.forwards { h with pc := pc }
  have hresponds := countP_set_add hh Handler.responds { h with pc := pc }
  simp only [World.owed, World.accounted, hhandlers, hmetrics, htimeouts]
  omega

/-- A handler returns: what it held is counted. -/
private theorem balance_finish {w w' : World} {i : Nat} {h : Handler}
    (hh : w.handlers[i]? = some h) (hhandlers : w'.handlers = w.handlers.eraseIdx i)
    (hpending : w'.pending = w.pending) (htimeouts : w'.timeouts = w.timeouts)
    (hmetrics : w'.metrics.forwarded + h.responds.toNat + w.metrics.backendResponses +
        w.metrics.droppedClientGone + w.metrics.pendingTimeouts =
      w.metrics.forwarded + h.forwards.toNat + w'.metrics.backendResponses +
        w'.metrics.droppedClientGone + w'.metrics.pendingTimeouts) :
    w'.owed + w.accounted = w.owed + w'.accounted := by
  have hforwards := countP_eraseIdx_add hh Handler.forwards
  have hresponds := countP_eraseIdx_add hh Handler.responds
  simp only [World.owed, World.accounted, hhandlers, hpending, htimeouts]
  omega

/-- A step of a handler keeps the balance. -/
theorem balance_handlerStep {w : World} (hi : RouteInv w) (hlen : w.log.requests.length ≤ 2 ^ 32)
    {i : Nat} {h : Handler} (hh : w.handlers[i]? = some h) :
    (w.handlerStep i h).owed + w.accounted = w.owed + (w.handlerStep i h).accounted := by
  have hstep := w.handlerStep_cases i h
  generalize w.handlerStep i h = w' at hstep ⊢
  cases hstep with
  | fromBackend hpc hfd =>
    exact balance_goto .backendResponse hh rfl rfl rfl
      (by simp [Handler.forwards, Handler.responds, hpc, World.goto])
  | fromClient hpc hfd =>
    exact balance_goto .clientRequest hh rfl rfl rfl
      (by simp [Handler.forwards, Handler.responds, hpc, World.goto])
  | pong hpc htype =>
    exact balance_finish hh rfl rfl rfl
      (by simp [Handler.forwards, Handler.responds, hpc, World.finish, World.pong])
  -- the entry goes from the table into the hands of the handler
  | found req hpc htype hk =>
    have hmem : h.msg.id ∈ w.pending := AList.lookup_isSome.mp (by rw [hk]; rfl)
    have herase := length_keys_erase hmem
    exact balance_goto (.respond req) hh rfl rfl rfl
      (by simp [Handler.forwards, Handler.responds, hpc, -AList.keys_erase]; omega)
  | unknown hpc htype hk =>
    exact balance_finish hh rfl rfl rfl (by simp [Handler.forwards, Handler.responds, hpc])
  -- and is counted when the handler lets go of it, on either branch
  | delivered req hpc halive =>
    exact balance_finish hh rfl rfl rfl (by simp [Handler.forwards, Handler.responds, hpc]; omega)
  | dropped req hpc halive =>
    exact balance_finish hh rfl rfl rfl (by simp [Handler.forwards, Handler.responds, hpc]; omega)
  | picked rr bs backend hpc hpick =>
    exact balance_goto (.allocate backend) hh rfl rfl rfl
      (by simp [Handler.forwards, Handler.responds, hpc, World.goto])
  | noBackend rr bs hpc hpick =>
    exact balance_finish hh rfl rfl rfl (by simp [Handler.forwards, Handler.responds, hpc])
  | allocated backend hpc =>
    exact balance_goto (.record backend w.nextNewId w.log.requests.length) hh rfl rfl rfl
      (by simp [Handler.forwards, Handler.responds, hpc, World.goto])
  | recorded backend newId request hpc =>
    -- the id is not in the table yet, so the insertion adds an entry
    have hinsert := length_keys_insert ⟨h.conn, h.msg.id, w.clock, request⟩
      (hi.fresh hlen hh hpc)
    exact balance_goto (.forward backend newId) hh rfl rfl rfl
      (by simp [Handler.forwards, Handler.responds, hpc, -AList.keys_insert]; omega)
  | forwarded backend newId hpc =>
    exact balance_finish hh rfl rfl rfl (by simp [Handler.forwards, Handler.responds, hpc])

/-- The other steps do not touch the metrics, and begin a cleanup pass only when the last one has
told everybody. -/
private theorem metrics_of_step {w w' : World} {a : Act} (h : w.step a = some w')
    (hhandler : ∀ i, a ≠ .handler i) (hcollect : a ≠ .cleanupCollect)
    (hsend : ∀ i, a ≠ .cleanupSend i) :
    w'.metrics = w.metrics ∧ (w'.cleanupNow = w.cleanupNow ∨ w.timeouts = []) := by
  cases a with
  | handler i => exact absurd rfl (hhandler i)
  | cleanupCollect => exact absurd rfl hcollect
  | cleanupSend i => exact absurd rfl (hsend i)
  | accept fd =>
    simp only [World.step, World.newConn] at h
    split_ifs at h
    cases h
    exact ⟨rfl, Or.inl rfl⟩
  | connect addr fd =>
    simp only [World.step, World.newConn] at h
    split_ifs at h
    · cases h
    · cases h
      exact ⟨rfl, Or.inl rfl⟩
  -- the thread is in one pass at a time, from the critical section to the last client
  | cleanupBegin =>
    simp only [World.step] at h
    split_ifs at h with hidle
    cases h
    exact ⟨rfl, Or.inr hidle.2⟩
  | closeFd c => cases h; exact ⟨rfl, Or.inl rfl⟩
  | removeBackends expected => cases h; exact ⟨rfl, Or.inl rfl⟩
  | healthPass => cases h; exact ⟨rfl, Or.inl rfl⟩
  | tick elapsed => cases h; exact ⟨rfl, Or.inl rfl⟩
  | destroy c =>
    simp only [World.step] at h
    split_ifs at h
    cases h
    exact ⟨rfl, Or.inl rfl⟩
  | receive c msg =>
    simp only [World.step] at h
    split_ifs at h
    cases h
    exact ⟨rfl, Or.inl rfl⟩
  | addBackend =>
    simp only [World.step] at h
    split at h <;> cases h
    exact ⟨rfl, Or.inl rfl⟩
  | insertFd =>
    simp only [World.step] at h
    split at h <;> cases h
    exact ⟨rfl, Or.inl rfl⟩
  | eraseFd =>
    simp only [World.step] at h
    split at h <;> cases h
    exact ⟨rfl, Or.inl rfl⟩

/-- The other steps start a handler at most. -/
private theorem quiet_of_step {w w' : World} {a : Act} (h : w.step a = some w')
    (hhandler : ∀ i, a ≠ .handler i) (hcollect : a ≠ .cleanupCollect)
    (hsend : ∀ i, a ≠ .cleanupSend i) : Quiet w w' := by
  obtain ⟨i, x, rfl, -, -⟩ | ⟨now, rfl, -, -⟩ | ⟨i, t, rfl, -, -⟩ | ⟨-, hq⟩ := step_cases h
  · exact absurd rfl (hhandler i)
  · exact absurd rfl hcollect
  · exact absurd rfl (hsend i)
  · exact hq

private theorem countP_quiet {w w' : World} (hq : Quiet w w') {p : Handler → Bool}
    (hp : ∀ c msg, p ⟨c, msg, .start⟩ = false) : w'.handlers.countP p = w.handlers.countP p := by
  rcases hq.handlers with hh | ⟨c, msg, hh⟩
  · rw [hh]
  · simp [hh, hp]

/-- One step keeps the balance, but for what the cleanup thread forgets. -/
theorem balance_step {w w' : World} {a : Act} (hi : RouteInv w) (hc : CountInv w)
    (hlen : w.log.requests.length ≤ 2 ^ 32) (h : w.step a = some w') :
    w'.owed + w.accounted = w.owed + w'.accounted + w.lost a := by
  have hquiet : (∀ i, a ≠ .handler i) → a ≠ .cleanupCollect → (∀ i, a ≠ .cleanupSend i) →
      w.lost a = 0 → w'.owed + w.accounted = w.owed + w'.accounted + w.lost a := by
    intro hhandler hcollect hsend hlost
    have hq := quiet_of_step h hhandler hcollect hsend
    have hmetrics := (metrics_of_step h hhandler hcollect hsend).1
    have hforwards := countP_quiet hq (p := Handler.forwards) fun _ _ => rfl
    have hresponds := countP_quiet hq (p := Handler.responds) fun _ _ => rfl
    simp only [World.owed, World.accounted, hmetrics, hq.pending, hq.timeouts, hforwards,
      hresponds, hlost]
    omega
  -- only a handler and the cleanup thread touch the two sides
  cases a with
  | handler i =>
    obtain ⟨x, hx, rfl⟩ := Option.map_eq_some_iff.mp h
    exact balance_handlerStep hi hlen hx
  | cleanupCollect =>
    obtain ⟨now, hnow, rfl⟩ := Option.map_eq_some_iff.mp h
    have hcollect := balance_collect w now (hc.idle (by rw [hnow]; exact Option.some_ne_none now))
    have howed : (w.collect now).owed = w.owed := rfl
    have hlost : w.lost .cleanupCollect = (w.forgotten now).length := by
      simp [World.lost, hnow]
    omega
  | cleanupSend i =>
    obtain ⟨t, ht, rfl⟩ := Option.map_eq_some_iff.mp h
    -- one client less to tell, one timeout more
    have hlt := (List.getElem?_eq_some_iff.mp ht).1
    simp only [World.owed, World.accounted, World.tellTimeout, World.lost,
      List.length_eraseIdx_of_lt hlt]
    omega
  | _ => exact hquiet (by simp) (by simp) (by simp) rfl

/-- What a handler's step does to the requests; it leaves the cleanup thread alone. -/
structure Taken (w w' : World) : Prop where
  balance : w'.log.requests.length + w.metrics.forwarded + w.handlers.countP Handler.takes =
    w.log.requests.length + w'.metrics.forwarded + w'.handlers.countP Handler.takes
  mono : w.log.requests.length ≤ w'.log.requests.length
  cleanupNow : w'.cleanupNow = w.cleanupNow
  timeouts : w'.timeouts = w.timeouts

private theorem Taken.goto {w w' : World} {i : Nat} {h : Handler} (pc : HandlerPc)
    (hh : w.handlers[i]? = some h)
    (hhandlers : w'.handlers = w.handlers.set i { h with pc := pc })
    (hmetrics : w'.metrics = w.metrics) (hcleanup : w'.cleanupNow = w.cleanupNow)
    (htimeouts : w'.timeouts = w.timeouts) (hmono : w.log.requests.length ≤ w'.log.requests.length)
    (htakes : w'.log.requests.length + h.takes.toNat =
      w.log.requests.length + ({ h with pc := pc } : Handler).takes.toNat) : Taken w w' := by
  refine ⟨?_, hmono, hcleanup, htimeouts⟩
  have hset := countP_set_add hh Handler.takes { h with pc := pc }
  rw [hhandlers, hmetrics]
  omega

private theorem Taken.finish {w w' : World} {i : Nat} {h : Handler}
    (hh : w.handlers[i]? = some h) (hhandlers : w'.handlers = w.handlers.eraseIdx i)
    (hrequests : w'.log.requests = w.log.requests) (hcleanup : w'.cleanupNow = w.cleanupNow)
    (htimeouts : w'.timeouts = w.timeouts)
    (hforwarded : w'.metrics.forwarded = w.metrics.forwarded + h.takes.toNat) : Taken w w' := by
  refine ⟨?_, by rw [hrequests], hcleanup, htimeouts⟩
  have herase := countP_eraseIdx_add hh Handler.takes
  rw [hhandlers, hrequests, hforwarded]
  omega

theorem taken_handlerStep {w : World} {i : Nat} {h : Handler} (hh : w.handlers[i]? = some h) :
    Taken w (w.handlerStep i h) := by
  have hstep := w.handlerStep_cases i h
  generalize w.handlerStep i h = w' at hstep ⊢
  cases hstep with
  | fromBackend hpc hfd =>
    exact .goto .backendResponse hh rfl rfl rfl rfl le_rfl (by simp [Handler.takes, hpc])
  | fromClient hpc hfd =>
    exact .goto .clientRequest hh rfl rfl rfl rfl (by simp) (by simp [Handler.takes, hpc])
  | pong hpc htype =>
    exact .finish hh rfl (by simp) rfl rfl
      (by simp [Handler.takes, hpc, World.pong, World.finish])
  | found req hpc htype hk =>
    exact .goto (.respond req) hh rfl rfl rfl rfl (by simp) (by simp [Handler.takes, hpc])
  | picked rr bs backend hpc hpick =>
    exact .goto (.allocate backend) hh rfl rfl rfl rfl le_rfl (by simp [Handler.takes, hpc])
  | allocated backend hpc =>
    exact .goto (.record backend w.nextNewId w.log.requests.length) hh rfl rfl rfl rfl
      (by simp) (by simp [Handler.takes, hpc])
  | recorded backend newId request hpc =>
    exact .goto (.forward backend newId) hh rfl rfl rfl rfl le_rfl (by simp [Handler.takes, hpc])
  | unknown hpc htype hk => exact .finish hh rfl rfl rfl rfl (by simp [Handler.takes, hpc])
  | delivered req hpc halive => exact .finish hh rfl rfl rfl rfl (by simp [Handler.takes, hpc])
  | dropped req hpc halive => exact .finish hh rfl rfl rfl rfl (by simp [Handler.takes, hpc])
  | noBackend rr bs hpc hpick => exact .finish hh rfl rfl rfl rfl (by simp [Handler.takes, hpc])
  | forwarded backend newId hpc => exact .finish hh rfl rfl rfl rfl (by simp [Handler.takes, hpc])

theorem CountInv.step {w w' : World} {a : Act} (hc : CountInv w) (h : w.step a = some w') :
    CountInv w' := by
  have hquiet : (∀ i, a ≠ .handler i) → a ≠ .cleanupCollect → (∀ i, a ≠ .cleanupSend i) →
      CountInv w' := by
    intro hhandler hcollect hsend
    have hq := quiet_of_step h hhandler hcollect hsend
    obtain ⟨hmetrics, hnow⟩ := metrics_of_step h hhandler hcollect hsend
    constructor
    -- a pass that begins finds nobody left to tell
    · intro hsome
      rw [hq.timeouts]
      rcases hnow with hnow | hnone
      · exact hc.idle (hnow ▸ hsome)
      · exact hnone
    · rw [hq.log, hmetrics, countP_quiet hq fun _ _ => rfl]
      exact hc.taken
  cases a with
  | handler i =>
    obtain ⟨x, hx, rfl⟩ := Option.map_eq_some_iff.mp h
    have ht := taken_handlerStep hx
    constructor
    · rw [ht.cleanupNow, ht.timeouts]
      exact hc.idle
    · have hbalance := ht.balance
      have htaken := hc.taken
      omega
  | cleanupCollect =>
    obtain ⟨now, -, rfl⟩ := Option.map_eq_some_iff.mp h
    exact ⟨fun hsome => absurd rfl hsome, hc.taken⟩
  | cleanupSend i =>
    obtain ⟨t, ht, rfl⟩ := Option.map_eq_some_iff.mp h
    refine ⟨fun hsome => ?_, hc.taken⟩
    -- nobody is told before the pass is over
    have hidle := hc.idle hsome
    simp [hidle] at ht
  | _ => exact hquiet (by simp) (by simp) (by simp)

/-- No step takes a request back. -/
theorem length_requests_le_of_step {w w' : World} {a : Act} (h : w.step a = some w') :
    w.log.requests.length ≤ w'.log.requests.length := by
  obtain ⟨i, x, rfl, hx, rfl⟩ | ⟨now, rfl, -, rfl⟩ | ⟨i, t, rfl, -, rfl⟩ | ⟨-, hq⟩ := step_cases h
  · exact (taken_handlerStep hx).mono
  · exact le_rfl
  · exact le_rfl
  · rw [hq.log]

/-! ## §4 Runs -/

/-- A cleanup pass finds the clients of the expired entries alive. -/
def ClientsThere (w : World) (a : Act) : Prop :=
  a = .cleanupCollect → ∀ now, w.cleanupNow = some now →
    ∀ e ∈ w.expiredEntries now, w.alive e.2.clientConn = true

theorem lost_eq_zero_iff (w : World) (a : Act) : w.lost a = 0 ↔ ClientsThere w a := by
  have hforgotten : ∀ now, (w.forgotten now).length = 0 ↔
      ∀ e ∈ w.expiredEntries now, w.alive e.2.clientConn = true := by
    intro now
    rw [List.length_eq_zero_iff, World.forgotten, List.filter_eq_nil_iff]
    simp
  unfold ClientsThere
  cases a with
  | cleanupCollect =>
    cases hnow : w.cleanupNow with
    | none => simp [World.lost, hnow]
    | some now =>
      have hlost : w.lost .cleanupCollect = (w.forgotten now).length := by
        simp [World.lost, hnow]
      rw [hlost, hforgotten now]
      exact ⟨fun h _ now' hnow' => Option.some.inj hnow' ▸ h, fun h => h rfl now rfl⟩
  | _ => simp [World.lost]

/-- What is accounted for has been owed, as long as the ids have not come round. -/
structure AccountInv (w : World) : Prop where
  route : RouteInv w
  count : CountInv w
  le : w.log.requests.length ≤ 2 ^ 32 → w.accounted ≤ w.owed

theorem AccountInv.init : AccountInv World.init :=
  ⟨.init, .init, fun _ => by simp [World.accounted, World.owed, World.init]⟩

theorem AccountInv.step {w w' : World} {a : Act} (hi : AccountInv w) (h : w.step a = some w') :
    AccountInv w' := by
  refine ⟨hi.route.step h, hi.count.step h, fun hlen => ?_⟩
  have hbefore := (length_requests_le_of_step h).trans hlen
  have hbalance := balance_step hi.route hi.count hbefore h
  have hle := hi.le hbefore
  omega

/-- No handler and no cleanup pass is in progress. -/
structure Quiescent (w : World) : Prop where
  handlers : w.handlers = []
  collecting : w.cleanupNow = none
  telling : w.timeouts = []

/-- Every forwarded request is outstanding, answered, dropped or timed out. -/
def Balanced (w : World) : Prop :=
  w.metrics.forwarded = w.pending.keys.length + w.metrics.backendResponses +
    w.metrics.droppedClientGone + w.metrics.pendingTimeouts

theorem Quiescent.balanced_iff {w : World} (hq : Quiescent w) :
    Balanced w ↔ w.owed = w.accounted := by
  simp [Balanced, World.owed, World.accounted, hq.handlers, hq.telling]

theorem Quiescent.requests {w : World} (hq : Quiescent w) (hc : CountInv w) :
    w.log.requests.length = w.metrics.forwarded := by
  simpa [hq.handlers] using hc.taken

/-- **Request accounting**: in a run of fewer than `2 ^ 32` forwarded requests, when nothing is in
progress, the counters add up exactly when every cleanup pass found the clients of the requests
that it timed out alive. -/
theorem accounting_balanced_iff (acts : List Act) (w : World)
    (hrun : run World.step .init acts = some w) (hq : Quiescent w)
    (hfew : w.metrics.forwarded < 2 ^ 32) :
    Balanced w ↔ Meets World.step ClientsThere .init acts := by
  have hcount : CountInv w := run_invariant (fun _ _ _ hi h => hi.step h) .init hrun
  have hlen : w.log.requests.length ≤ 2 ^ 32 := by
    rw [hq.requests hcount]
    exact hfew.le
  -- `accounted` never runs ahead of `owed`, so once they differ they differ for good
  have hiff := (last_iff_meets_of_bounded (G := ClientsThere) (I := AccountInv)
    (P := fun v => v.owed = v.accounted) (B := fun v => v.log.requests.length ≤ 2 ^ 32)
    (fun _ _ _ h hle => (length_requests_le_of_step h).trans hle) (fun _ _ _ hi h => hi.step h)
    (fun s a t hi ht h => ?_) .init hrun hlen).1
  · rw [hq.balanced_iff, hiff]
    exact and_iff_right (by simp [World.owed, World.accounted, World.init])
  · have hs := (length_requests_le_of_step h).trans ht
    have hbalance := balance_step hi.route hi.count hs h
    have hle := hi.le hs
    rw [← lost_eq_zero_iff s a]
    omega

/-- A request that is answered, one that is still open, and one that times out. -/
def threeEnds : List Act :=
  [Act.accept 5, .connect "127.0.0.1:9001" 7, .addBackend, .insertFd] ++
    Act.receive 0 ⟨.loginReq, 1, []⟩ :: List.replicate 5 (.handler 0) ++
    Act.receive 0 ⟨.joinRoomReq, 2, []⟩ :: List.replicate 5 (.handler 0) ++
    Act.receive 1 ⟨.loginResp, 1, []⟩ :: List.replicate 3 (.handler 0) ++
    [Act.tick 31000000000, .cleanupBegin, .cleanupCollect, .cleanupSend 0] ++
    Act.receive 0 ⟨.sendMsgReq, 3, []⟩ :: List.replicate 5 (.handler 0)

theorem accounting_balanced_iff_three :
    ∃ w, run World.step .init threeEnds = some w ∧ w.metrics.forwarded = 3 ∧
      w.pending.keys.length = 1 ∧ Meets World.step ClientsThere .init threeEnds := by
  have hlast : ((run World.step .init threeEnds).any fun w =>
      decide (w.metrics.forwarded = 3 ∧ w.pending.keys.length = 1 ∧ w.handlers = [] ∧
        w.cleanupNow = none ∧ w.timeouts = [] ∧ w.metrics.backendResponses = 1 ∧
        w.metrics.droppedClientGone = 0 ∧ w.metrics.pendingTimeouts = 1)) = true := by
    decide
  obtain ⟨w, hw, hlast⟩ := exists_of_run_any hlast
  obtain ⟨hforwarded, hkeys, hhandlers, hnow, htimeouts, hresp, hgone, hto⟩ :=
    of_decide_eq_true hlast
  refine ⟨w, hw, hforwarded, hkeys, ?_⟩
  refine (accounting_balanced_iff threeEnds w hw ⟨hhandlers, hnow, htimeouts⟩ ?_).mp ?_
  · omega
  · unfold Balanced
    omega

/-- The client of a forwarded request goes away, and the backend never answers. -/
def goneBeforeTimeout : List Act :=
  [Act.accept 5, .connect "127.0.0.1:9001" 7, .addBackend, .insertFd] ++
    Act.receive 0 ⟨.loginReq, 1, []⟩ :: List.replicate 5 (.handler 0) ++
    [Act.closeFd 0, .destroy 0, .tick 31000000000, .cleanupBegin, .cleanupCollect]

/-- The request is forwarded and then in none of the counters. -/
theorem forgotten_request_unaccounted :
    ∃ w, run World.step .init goneBeforeTimeout = some w ∧ Quiescent w ∧
      w.metrics.forwarded = 1 ∧ ¬Balanced w := by
  have hlast : ((run World.step .init goneBeforeTimeout).any fun w =>
      decide (w.metrics.forwarded = 1 ∧ w.pending.keys.length = 0 ∧ w.handlers = [] ∧
        w.cleanupNow = none ∧ w.timeouts = [] ∧ w.metrics.backendResponses = 0 ∧
        w.metrics.droppedClientGone = 0 ∧ w.metrics.pendingTimeouts = 0)) = true := by
    decide
  obtain ⟨w, hw, hlast⟩ := exists_of_run_any hlast
  obtain ⟨hforwarded, hkeys, hhandlers, hnow, htimeouts, hresp, hgone, hto⟩ :=
    of_decide_eq_true hlast
  refine ⟨w, hw, ⟨hhandlers, hnow, htimeouts⟩, hforwarded, ?_⟩
  unfold Balanced
  omega

end EchoNet.Gateway
