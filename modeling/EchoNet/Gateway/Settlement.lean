import EchoNet.Gateway.Accounting
import EchoNet.Gateway.Replies
import EchoNet.Lib.Relay
import EchoNet.Lib.Simulation

/-!
# Settled Requests

What the gateway is for, seen from the clients, is a `Relay`: a request is made, and later it is
settled once.  The table `pending`, the handlers and the cleanup thread are how the gateway goes
about it.  A request that is not settled is in the gateway's `stock`: in `pending`, with a handler
on its way into the table or out of it, or with the cleanup thread.

## Main results

- `gateway_simulates`: each step of the gateway is a run of the relay, that leaves exactly the
  requests of the stock open;
- `gateway_relays`: hence every run of the gateway is one of the relay, with the same messages to
  the clients;
- `settled_after_cleanup`: a request that has expired when a cleanup pass begins is settled when
  the pass and the handlers are through with it, by exactly one message to its client if the client
  is still there.
-/

namespace EchoNet.Gateway

open EchoNet.Lib EchoNet.Protocol

open World

/-! ## §1 The stock of open requests -/

/-- The requests in the table. -/
def entryRequests (m : PendingMap) : List Nat := m.entries.map fun e => e.2.request

/-- The requests that the gateway has not settled. -/
def stock (w : World) : List Nat :=
  entryRequests w.pending ++ w.handlers.flatMap Handler.tokens ++ w.timeouts.map Timeout.request

theorem entryRequests_insert {m : PendingMap} {k : UInt32} (req : PendingRequest) (h : k ∉ m) :
    entryRequests (m.insert k req) = req.request :: entryRequests m := by
  rw [entryRequests, AList.entries_insert_of_notMem h, List.map_cons, entryRequests]

theorem entries_perm_erase {m : PendingMap} {k : UInt32} {req : PendingRequest}
    (h : m.lookup k = some req) : m.entries.Perm (⟨k, req⟩ :: (m.erase k).entries) := by
  have hkey : k ∈ m.entries.keys := AList.lookup_isSome.mp (by rw [h]; rfl)
  obtain ⟨req', before, behind, hnot, hentries, herase⟩ := List.exists_of_kerase hkey
  have hmem : (⟨k, req'⟩ : Σ _ : UInt32, PendingRequest) ∈ m.entries := by
    rw [hentries]
    exact List.mem_append_right _ List.mem_cons_self
  have hlook := AList.mem_lookup_iff.mpr hmem
  rw [h, Option.mem_some_iff] at hlook
  have herased : (m.erase k).entries = before ++ behind := herase
  rw [herased, hentries, hlook]
  exact List.perm_middle

theorem entryRequests_erase {m : PendingMap} {k : UInt32} {req : PendingRequest}
    (h : m.lookup k = some req) :
    (entryRequests m).Perm (req.request :: entryRequests (m.erase k)) := by
  have hperm := (entries_perm_erase h).map fun e : Σ _ : UInt32, PendingRequest => e.2.request
  exact hperm

/-- Erasing distinct entries of the table. -/
theorem entryRequests_foldl_erase {m : PendingMap} {old : List (Σ _ : UInt32, PendingRequest)}
    (hmem : ∀ e ∈ old, m.lookup e.1 = some e.2) (hnodup : old.NodupKeys) :
    (entryRequests m).Perm ((old.map fun e => e.2.request) ++
      entryRequests (old.foldl (fun m e => m.erase e.1) m)) := by
  induction old generalizing m with
  | nil => exact List.Perm.refl _
  | cons e old ih =>
    obtain ⟨hnot, hrest⟩ := List.nodupKeys_cons.mp hnodup
    have herase := entryRequests_erase (hmem e List.mem_cons_self)
    have hkeep : ∀ x ∈ old, (m.erase e.1).lookup x.1 = some x.2 := by
      intro x hx
      have hne : x.1 ≠ e.1 := fun heq => hnot (heq ▸ List.mem_keys_of_mem hx)
      rw [AList.lookup_erase_ne hne]
      exact hmem x (List.mem_cons_of_mem _ hx)
    exact herase.trans ((ih hkeep hrest).cons _)

/-- The stock without what handler `i` has. -/
def otherStock (w : World) (i : Nat) : List Nat :=
  entryRequests w.pending ++ (w.handlers.eraseIdx i).flatMap Handler.tokens ++
    w.timeouts.map Timeout.request

theorem stock_perm {w : World} {i : Nat} {h : Handler} (hh : w.handlers[i]? = some h) :
    (stock w).Perm (h.tokens ++ otherStock w i) := by
  have htokens := flatMap_perm_of_getElem? hh Handler.tokens
  have hfront := (htokens.append_left (entryRequests w.pending)).trans
    (List.perm_append_comm_assoc ..)
  simpa [stock, otherStock, List.append_assoc] using
    hfront.append_right (w.timeouts.map Timeout.request)

/-- Handler `i` goes on, and what it gains or gives up is a matter between it and the table. -/
theorem stock_goto_perm {w w' : World} {i : Nat} {h : Handler} (hh : w.handlers[i]? = some h)
    (pc : HandlerPc) (hhandlers : w'.handlers = w.handlers.set i { h with pc := pc })
    (htimeouts : w'.timeouts = w.timeouts)
    (htable : (entryRequests w'.pending ++ { h with pc := pc }.tokens).Perm
      (entryRequests w.pending ++ h.tokens)) : (stock w').Perm (stock w) := by
  have hset := (flatMap_set_perm hh Handler.tokens { h with pc := pc }).append_left
    (entryRequests w'.pending)
  have hold := (flatMap_perm_of_getElem? hh Handler.tokens).append_left (entryRequests w.pending)
  rw [← List.append_assoc] at hset hold
  have hall := hset.trans ((htable.append_right _).trans hold.symm)
  simp only [stock, hhandlers, htimeouts]
  exact hall.append_right _

/-- Handler `i` returns. -/
theorem stock_finish_perm {w u : World} {i : Nat} {h : Handler} (hh : w.handlers[i]? = some h)
    (hhandlers : u.handlers = w.handlers.eraseIdx i) (hpending : u.pending = w.pending)
    (htimeouts : u.timeouts = w.timeouts) : (stock w).Perm (h.tokens ++ stock u) := by
  have hsame : stock u = otherStock w i := by
    simp only [stock, otherStock, hhandlers, hpending, htimeouts]
  rw [hsame]
  exact stock_perm hh

/-! ## §2 What a step does to the stock -/

/-- The requests of the log, as the relay sees them. -/
def relayRequests (requests : List Request) : List (ConnId × UInt32) :=
  requests.map fun q => (q.client, q.message.id)

/-- The message that a client gets: the backend's, or `TIMEOUT`, under the client's own id. -/
def toldMessage (originalId : UInt32) : Option MyMessage → MyMessage
  | none => timeoutMessage originalId
  | some ans => { ans with id := originalId }

theorem toldMessage_id (originalId : UInt32) (reply : Option MyMessage) :
    (toldMessage originalId reply).id = originalId := by
  cases reply <;> rfl

/-- What the relay tells a client, as the gateway sends it. -/
def passedOn (t : Told (ConnId × UInt32) MyMessage) : Delivery where
  client := t.client.1
  message := toldMessage t.client.2 t.reply
  request := t.request
  answer := t.reply

/-- The client of request `n` is gone. -/
def ClientGone (w : World) (n : Nat) : Prop :=
  ∃ q, w.log.requests[n]? = some q ∧ w.alive q.client = false

/-- A step hands requests on inside of the gateway, takes a new one, settles one, or forgets
those of clients that are gone. -/
inductive StockStep (w w' : World) : Prop where
  | same (hstock : (stock w').Perm (stock w)) (hrequests : w'.log.requests = w.log.requests)
      (hdeliveries : w'.log.deliveries = w.log.deliveries)
  | taken (q : Request) (hstock : (stock w').Perm (w.log.requests.length :: stock w))
      (hrequests : w'.log.requests = w.log.requests ++ [q])
      (hdeliveries : w'.log.deliveries = w.log.deliveries)
  | settled (n : Nat) (q : Request) (o : Outcome MyMessage)
      (hstock : (stock w).Perm (n :: stock w')) (hq : w.log.requests[n]? = some q)
      (hrequests : w'.log.requests = w.log.requests)
      (hdeliveries : w'.log.deliveries = w.log.deliveries ++
        (o.told.map fun reply => passedOn ⟨(q.client, q.message.id), n, reply⟩).toList)
      (hgone : o = .dropped → ClientGone w' n)
  | forgotten (ns : List Nat) (hstock : (stock w).Perm (ns ++ stock w'))
      (hrequests : w'.log.requests = w.log.requests)
      (hdeliveries : w'.log.deliveries = w.log.deliveries) (hgone : ∀ n ∈ ns, ClientGone w' n)

theorem clientGone_of_owns {w : World} {n : Nat} {c : ConnId} {o k : UInt32}
    (hown : Owns w.log.requests n c o k) (hdead : w.alive c = false) : ClientGone w n := by
  obtain ⟨q, hq, hclient, -, -⟩ := hown
  exact ⟨q, hq, hclient ▸ hdead⟩

theorem stockStep_handler {w : World} (hi : RouteInv w) (hlen : w.log.requests.length ≤ 2 ^ 32)
    {i : Nat} {h : Handler} (hh : w.handlers[i]? = some h) : StockStep w (w.handlerStep i h) := by
  have hstep := w.handlerStep_cases i h
  generalize w.handlerStep i h = w' at hstep ⊢
  -- a handler that has nothing goes on, or returns
  have hmove : ∀ {u : World} (pc : HandlerPc), h.tokens = [] → { h with pc := pc }.tokens = [] →
      u.handlers = w.handlers.set i { h with pc := pc } → u.pending = w.pending →
      u.timeouts = w.timeouts → (stock u).Perm (stock w) := by
    intro u pc hold hnew hhandlers hpending htimeouts
    exact stock_goto_perm hh pc hhandlers htimeouts (by rw [hold, hnew, hpending])
  have hleave : ∀ {u : World}, h.tokens = [] → u.handlers = w.handlers.eraseIdx i →
      u.pending = w.pending → u.timeouts = w.timeouts → (stock u).Perm (stock w) := by
    intro u hold hhandlers hpending htimeouts
    have hperm := stock_finish_perm hh hhandlers hpending htimeouts
    rw [hold, List.nil_append] at hperm
    exact hperm.symm
  cases hstep with
  | fromBackend hpc hfd =>
    exact .same (hmove .backendResponse (by simp [Handler.tokens, hpc]) rfl rfl rfl rfl) rfl rfl
  | fromClient hpc hfd =>
    exact .same (hmove .clientRequest (by simp [Handler.tokens, hpc]) rfl rfl rfl rfl) (by simp)
      (by simp)
  | pong hpc htype =>
    exact .same (hleave (by simp [Handler.tokens, hpc]) rfl rfl rfl) (by simp) (by simp)
  | found req hpc htype hk =>
    -- the entry goes from the table to the handler
    refine .same ?_ (by simp) (by simp)
    refine stock_goto_perm hh (.respond req) rfl rfl ?_
    have hold : h.tokens = [] := by simp [Handler.tokens, hpc]
    rw [hold, List.append_nil]
    exact (List.perm_append_singleton _ _).trans (entryRequests_erase hk).symm
  | unknown hpc htype hk =>
    exact .same (hleave (by simp [Handler.tokens, hpc]) rfl rfl rfl) rfl rfl
  | delivered req hpc halive =>
    have hown : Owns w.log.requests req.request req.clientConn req.originalId h.msg.id := by
      simpa [HandlerOk, hpc] using hi.handlers h (List.mem_of_getElem? hh)
    obtain ⟨q, hq, hclient, hid, -⟩ := hown
    have hout : Outcome.answered h.msg ≠ Outcome.dropped := by simp
    refine .settled req.request q (.answered h.msg) ?_ hq rfl ?_ fun hdropped =>
      absurd hdropped hout
    · have hperm := stock_finish_perm (u := { w.finish i with
        metrics := { w.metrics with backendResponses := w.metrics.backendResponses + 1 }
        log := { w.log with
          deliveries := w.log.deliveries ++
            [⟨req.clientConn, { h.msg with id := req.originalId }, req.request, some h.msg⟩]
          sources := w.log.sources ++ [(req.request, h.conn)] } })
        hh rfl rfl rfl
      simpa [Handler.tokens, hpc] using hperm
    · rw [hclient, hid]
      rfl
  | dropped req hpc halive =>
    have hown : Owns w.log.requests req.request req.clientConn req.originalId h.msg.id := by
      simpa [HandlerOk, hpc] using hi.handlers h (List.mem_of_getElem? hh)
    have hgone := clientGone_of_owns hown halive
    obtain ⟨q, hq, -⟩ := hown
    refine .settled req.request q .dropped ?_ hq rfl (List.append_nil _).symm fun _ => hgone
    have hperm := stock_finish_perm (u := { w.finish i with
      metrics := { w.metrics with droppedClientGone := w.metrics.droppedClientGone + 1 } })
      hh rfl rfl rfl
    simpa [Handler.tokens, hpc] using hperm
  | picked rr bs backend hpc hpick =>
    exact .same (hmove (.allocate backend) (by simp [Handler.tokens, hpc]) rfl rfl rfl rfl) rfl rfl
  | noBackend rr bs hpc hpick =>
    exact .same (hleave (by simp [Handler.tokens, hpc]) rfl rfl rfl) rfl rfl
  | allocated backend hpc =>
    refine .taken _ ?_ rfl rfl
    have hold : h.tokens = [] := by simp [Handler.tokens, hpc]
    have hperm := stock_perm hh
    rw [hold, List.nil_append] at hperm
    have hgoto := stock_perm (w := { w.goto i h
        (.record backend w.nextNewId w.log.requests.length) with
      nextNewId := w.nextNewId + 1
      log := { w.log with requests := w.log.requests ++ [⟨h.conn, h.msg, w.nextNewId⟩] } })
      (List.getElem?_set_self (List.getElem?_eq_some_iff.mp hh).1)
    have hothers : otherStock { w.goto i h (.record backend w.nextNewId w.log.requests.length) with
        nextNewId := w.nextNewId + 1
        log := { w.log with requests := w.log.requests ++ [⟨h.conn, h.msg, w.nextNewId⟩] } } i =
        otherStock w i := by
      simp [otherStock, World.goto, List.eraseIdx_set_eq]
    rw [hothers] at hgoto
    exact hgoto.trans (hperm.symm.cons _)
  | recorded backend newId request hpc =>
    -- from the handler into the table
    refine .same ?_ rfl rfl
    refine stock_goto_perm hh (.forward backend newId) rfl rfl ?_
    have hold : h.tokens = [request] := by simp [Handler.tokens, hpc]
    have hinsert := entryRequests_insert ⟨h.conn, h.msg.id, w.clock, request⟩
      (hi.fresh hlen hh hpc)
    rw [hold]
    refine List.Perm.trans ?_ (List.perm_append_singleton _ _).symm
    simpa [Handler.tokens] using List.Perm.of_eq hinsert
  | forwarded backend newId hpc =>
    exact .same (hleave (by simp [Handler.tokens, hpc]) rfl rfl rfl) rfl rfl

/-- A cleanup pass takes the expired entries out of the table. -/
theorem stockStep_collect {w : World} (hi : RouteInv w) (hidle : w.timeouts = []) (now : Nat) :
    StockStep w (w.collect now) := by
  have hmem : ∀ e ∈ w.expiredEntries now, w.pending.lookup e.1 = some e.2 := fun e he =>
    mem_expiredEntries he
  have htable := entryRequests_foldl_erase hmem (w.pending.nodupKeys.sublist List.filter_sublist)
  -- the expired ones are those whose client is to be told, and those of clients that are gone
  have hsplit := (List.filter_append_perm (fun e => w.alive e.2.clientConn)
    (w.expiredEntries now)).map fun e => e.2.request
  rw [List.map_append] at hsplit
  refine .forgotten ((w.forgotten now).map fun e => e.2.request) ?_ rfl rfl ?_
  · have htimeouts : (w.collect now).timeouts.map Timeout.request =
        ((w.expiredEntries now).filter fun e => w.alive e.2.clientConn).map
          fun e => e.2.request := by
      simp [World.collect, Function.comp_def]
    have hwhole : (stock w).Perm (entryRequests w.pending ++ w.handlers.flatMap Handler.tokens) :=
      List.Perm.of_eq (by simp [stock, hidle])
    have hsame : stock (w.collect now) =
        entryRequests ((w.expiredEntries now).foldl (fun m e => m.erase e.1) w.pending) ++
          w.handlers.flatMap Handler.tokens ++
          ((w.expiredEntries now).filter fun e => w.alive e.2.clientConn).map
            fun e => e.2.request := by
      rw [stock, htimeouts]
      rfl
    rw [hsame]
    refine hwhole.trans ((htable.append_right _).trans ?_)
    refine (((hsplit.symm.append_right _).append_right _)).trans ?_
    have hforgotten : (w.forgotten now).map (fun e => e.2.request) =
        ((w.expiredEntries now).filter fun e => !w.alive e.2.clientConn).map
          fun e => e.2.request := rfl
    rw [hforgotten]
    simp only [List.append_assoc]
    refine (List.perm_append_comm_assoc ..).trans ?_
    refine List.Perm.append_left _ ?_
    refine List.perm_append_comm.trans ?_
    rw [List.append_assoc]
  · intro n hn
    obtain ⟨e, he, rfl⟩ := List.mem_map.mp hn
    obtain ⟨hexpired, hdead⟩ := List.mem_filter.mp he
    have hown := (hi.pending _ _ (hmem e hexpired)).1
    have hgone : ClientGone w e.2.request := clientGone_of_owns hown (by simpa using hdead)
    exact hgone

theorem stockStep_tellTimeout {w : World} (hi : RouteInv w) {i : Nat} {t : Timeout}
    (ht : w.timeouts[i]? = some t) : StockStep w (w.tellTimeout i t) := by
  obtain ⟨key, q, hq, hclient, hid, -⟩ := hi.timeouts t (List.mem_of_getElem? ht)
  refine .settled t.request q .timedOut ?_ hq rfl (by rw [hclient, hid]; rfl) nofun
  have htimeouts := (perm_cons_eraseIdx ht).map Timeout.request
  have hperm := htimeouts.append_left
    (entryRequests w.pending ++ w.handlers.flatMap Handler.tokens)
  rw [List.map_cons] at hperm
  exact hperm.trans List.perm_middle

theorem stockStep_quiet {w w' : World} (hq : Quiet w w') : StockStep w w' := by
  refine .same ?_ (by rw [hq.log]) (by rw [hq.log])
  rcases hq.handlers with hh | ⟨c, msg, hh⟩
  · simp [stock, hh, hq.pending, hq.timeouts]
  · simp [stock, hh, hq.pending, hq.timeouts, Handler.tokens]

theorem stockStep_of_step {w w' : World} {a : Act} (hi : RouteInv w) (hc : CountInv w)
    (hlen : w.log.requests.length ≤ 2 ^ 32) (h : w.step a = some w') : StockStep w w' := by
  obtain ⟨i, x, -, hx, rfl⟩ | ⟨now, -, hnow, rfl⟩ | ⟨i, t, -, ht, rfl⟩ | ⟨-, hq⟩ := step_cases h
  · exact stockStep_handler hi hlen hx
  · exact stockStep_collect hi (hc.idle (by rw [hnow]; exact Option.some_ne_none now)) now
  · exact stockStep_tellTimeout hi ht
  · exact stockStep_quiet hq

/-! ## §3 The clients of the requests -/

/-- Handlers and requests are those of connections that exist. -/
structure Known (w : World) : Prop where
  handlers : ∀ h ∈ w.handlers, h.conn < w.conns.length
  requests : ∀ q ∈ w.log.requests, q.client < w.conns.length

theorem Known.init : Known World.init := by
  constructor <;> simp [World.init]

/-- A handler's step leaves the connections of the handlers, and takes requests of its own. -/
theorem Known.handlerStep {w : World} (hk : Known w) {i : Nat} {h : Handler}
    (hh : w.handlers[i]? = some h) : Known (w.handlerStep i h) := by
  have hown := hk.handlers h (List.mem_of_getElem? hh)
  have hset : ∀ pc, ∀ x ∈ w.handlers.set i { h with pc := pc }, x.conn < w.conns.length := by
    intro pc x hx
    rcases List.mem_or_eq_of_mem_set hx with hx | rfl
    · exact hk.handlers x hx
    · exact hown
  have herase : ∀ x ∈ w.handlers.eraseIdx i, x.conn < w.conns.length := fun x hx =>
    hk.handlers x (List.mem_of_mem_eraseIdx hx)
  have hnoted : ∀ q ∈ (w.noteAnswer h).requests, q.client < w.conns.length := by
    rw [World.noteAnswer_requests]
    exact hk.requests
  have hstep := w.handlerStep_cases i h
  generalize w.handlerStep i h = w' at hstep ⊢
  cases hstep with
  | fromBackend hpc hfd => exact ⟨hset _, hk.requests⟩
  | fromClient hpc hfd => exact ⟨hset _, hnoted⟩
  | pong hpc htype => exact ⟨herase, hnoted⟩
  | found req hpc htype hk' => exact ⟨hset _, hnoted⟩
  | picked rr bs backend hpc hpick => exact ⟨hset _, hk.requests⟩
  | allocated backend hpc =>
    refine ⟨hset _, fun q hq => ?_⟩
    rcases List.mem_append.mp hq with hq | hq
    · exact hk.requests q hq
    · rw [List.mem_singleton.mp hq]
      exact hown
  | recorded backend newId request hpc => exact ⟨hset _, hk.requests⟩
  | _ => exact ⟨herase, hk.requests⟩

/-- Only the reactors start handlers. -/
theorem handlers_of_step {w w' : World} {a : Act} (h : w.step a = some w')
    (hhandler : ∀ i, a ≠ .handler i) (hreceive : ∀ c msg, a ≠ .receive c msg) :
    w'.handlers = w.handlers := by
  have hconn : ∀ {fd : Int} {out : Bool} {u : World}, w.newConn fd out = some u →
      u.handlers = w.handlers := by
    intro fd out u hu
    unfold World.newConn at hu
    split_ifs at hu
    cases hu
    rfl
  cases a with
  | handler i => exact absurd rfl (hhandler i)
  | receive c msg => exact absurd rfl (hreceive c msg)
  | accept fd => exact hconn h
  | connect addr fd =>
    obtain ⟨u, hu, rfl⟩ := Option.map_eq_some_iff.mp h
    have hsame : u.handlers = w.handlers := hconn hu
    exact hsame
  | cleanupCollect =>
    obtain ⟨now, -, rfl⟩ := Option.map_eq_some_iff.mp h
    rfl
  | cleanupSend i =>
    obtain ⟨t, -, rfl⟩ := Option.map_eq_some_iff.mp h
    rfl
  | destroy c =>
    simp only [World.step] at h
    split_ifs at h
    cases h
    rfl
  | cleanupBegin =>
    simp only [World.step] at h
    split_ifs at h
    cases h
    rfl
  | addBackend | insertFd | eraseFd =>
    simp only [World.step] at h
    split at h
    · cases h
    · cases h
      rfl
  | closeFd c | removeBackends expected | healthPass | tick elapsed =>
    cases h
    rfl

theorem Known.step {w w' : World} {a : Act} (hk : Known w) (h : w.step a = some w') :
    Known w' := by
  obtain ⟨i, x, -, hx, rfl⟩ | ⟨now, -, -, rfl⟩ | ⟨i, t, -, -, rfl⟩ | ⟨hhandler, hq⟩ := step_cases h
  · exact hk.handlerStep hx
  · exact ⟨hk.handlers, hk.requests⟩
  · exact ⟨hk.handlers, hk.requests⟩
  · have hrequests : ∀ q ∈ w'.log.requests, q.client < w'.conns.length := by
      rw [hq.log]
      exact fun q hq' => Nat.lt_of_lt_of_le (hk.requests q hq') hq.conns
    by_cases hreceive : ∃ c msg, a = .receive c msg
    · obtain ⟨c, msg, rfl⟩ := hreceive
      simp only [World.step] at h
      split_ifs at h with halive
      cases h
      refine ⟨fun x hx => ?_, hk.requests⟩
      rcases List.mem_append.mp hx with hx | hx
      · exact hk.handlers x hx
      · rw [List.mem_singleton.mp hx]
        exact lt_length_of_alive halive
    · have hsame := handlers_of_step h hhandler fun c msg ha => hreceive ⟨c, msg, ha⟩
      refine ⟨fun x hx => ?_, hrequests⟩
      rw [hsame] at hx
      exact Nat.lt_of_lt_of_le (hk.handlers x hx) hq.conns

theorem requests_prefix_of_step {w w' : World} {a : Act} (h : w.step a = some w') :
    w.log.requests <+: w'.log.requests := by
  obtain ⟨i, x, -, hx, rfl⟩ | ⟨now, -, -, rfl⟩ | ⟨i, t, -, -, rfl⟩ | ⟨-, hq⟩ := step_cases h
  · exact (handlerStep_frame hx).requests
  · exact List.prefix_refl _
  · exact List.prefix_refl _
  · simp only [hq.log, List.prefix_rfl]

/-- A client that is gone does not come back. -/
theorem ClientGone.step {w w' : World} {a : Act} (hk : Known w) {n : Nat} (hn : ClientGone w n)
    (h : w.step a = some w') : ClientGone w' n := by
  obtain ⟨q, hq, hdead⟩ := hn
  have hlt := hk.requests q (List.mem_of_getElem? hq)
  have hdeadOf : (∀ c, c < w.conns.length → w'.alive c = true → w.alive c = true) →
      w'.alive q.client = false := by
    intro halive
    by_contra hcon
    have hback := halive q.client hlt (Bool.not_eq_false _ ▸ hcon)
    rw [hdead] at hback
    cases hback
  obtain ⟨i, x, -, hx, rfl⟩ | ⟨now, -, -, rfl⟩ | ⟨i, t, -, -, rfl⟩ | ⟨-, hquiet⟩ := step_cases h
  · have hframe := handlerStep_frame hx
    obtain ⟨rest, hrest⟩ := hframe.requests
    refine ⟨q, ?_, ?_⟩
    · rw [← hrest, List.getElem?_append_left (List.getElem?_eq_some_iff.mp hq).1]
      exact hq
    · simp only [World.alive, hframe.conns]
      exact hdead
  · exact ⟨q, hq, hdead⟩
  · exact ⟨q, hq, hdead⟩
  · exact ⟨q, by rw [hquiet.log]; exact hq, hdeadOf hquiet.alive⟩

/-! ## §4 The gateway is a relay -/

/-- The state of the relay that the gateway is in. -/
structure Relays (w : World) (r : Relay (ConnId × UInt32) MyMessage) : Prop where
  requests : r.requests = relayRequests w.log.requests
  /-- the messages to the clients are the relay's, in the same order: each goes to the client of
  its request, under that client's id -/
  delivered : w.log.deliveries = r.delivered.map passedOn
  /-- the gateway has exactly the requests that are not settled -/
  unsettled : ∀ n, r.Open n ↔ n ∈ stock w
  /-- only requests of clients that are gone are dropped -/
  dropped : ∀ n, r.outcome n = some .dropped → ClientGone w n

/-- What the simulation rests on. -/
structure SettleInv (w : World) : Prop where
  route : RouteInv w
  count : CountInv w
  known : Known w
  stock_nodup : (stock w).Nodup

theorem stock_lt {w : World} (hi : RouteInv w) {n : Nat} (hn : n ∈ stock w) :
    n < w.log.requests.length := by
  rcases List.mem_append.mp hn with hn | hn
  · rcases List.mem_append.mp hn with hn | hn
    · obtain ⟨e, he, rfl⟩ := List.mem_map.mp hn
      exact (hi.pending _ _ (AList.mem_lookup_iff.mpr he)).1.lt
    · exact hi.token_lt (List.mem_append_left _ (List.mem_append_left _ hn))
  · exact hi.token_lt (List.mem_append_left _ (List.mem_append_right _ hn))

theorem SettleInv.init : SettleInv World.init :=
  ⟨.init, .init, .init, List.nodup_nil⟩

theorem SettleInv.step {w w' : World} {a : Act} (hi : SettleInv w)
    (hlen : w.log.requests.length ≤ 2 ^ 32) (h : w.step a = some w') : SettleInv w' := by
  refine ⟨hi.route.step h, hi.count.step h, hi.known.step h, ?_⟩
  cases stockStep_of_step hi.route hi.count hlen h with
  | same hstock => exact hstock.nodup_iff.mpr hi.stock_nodup
  | taken q hstock =>
    refine hstock.nodup_iff.mpr (List.nodup_cons.mpr ⟨fun hmem => ?_, hi.stock_nodup⟩)
    exact Nat.lt_irrefl _ (stock_lt hi.route hmem)
  | settled n q o hstock => exact (List.nodup_cons.mp (hstock.nodup_iff.mp hi.stock_nodup)).2
  | forgotten ns hstock => exact (hstock.nodup_iff.mp hi.stock_nodup).of_append_right

theorem Relays.init : Relays World.init .empty := by
  refine ⟨rfl, rfl, fun n => ?_, nofun⟩
  exact ⟨fun hn => absurd hn.1 (Nat.not_lt_zero n), fun hn => absurd hn List.not_mem_nil⟩

/-- A request that is settled, in the gateway and in the relay. -/
theorem Relays.close {w w' : World} {r : Relay (ConnId × UInt32) MyMessage} (hr : Relays w r)
    {n : Nat} {q : Request} {o : Outcome MyMessage} (hnodup : (stock w).Nodup)
    (hstock : (stock w).Perm (n :: stock w')) (hq : w.log.requests[n]? = some q)
    (hrequests : w'.log.requests = w.log.requests)
    (hdeliveries : w'.log.deliveries = w.log.deliveries ++
      (o.told.map fun reply => passedOn ⟨(q.client, q.message.id), n, reply⟩).toList)
    (hgone : o = .dropped → ClientGone w' n)
    (hkeep : ∀ m, ClientGone w m → ClientGone w' m) : Relays w' (r.close n o) := by
  have hnot : n ∉ stock w' := (List.nodup_cons.mp (hstock.nodup_iff.mp hnodup)).1
  -- the relay knows the request by the same client and id
  have hmessage : r.message n o =
      o.told.map fun reply => ⟨(q.client, q.message.id), n, reply⟩ := by
    have hclient : r.requests[n]? = some (q.client, q.message.id) := by
      rw [hr.requests, relayRequests, List.getElem?_map, hq]
      rfl
    rw [Relay.message, hclient]
    rfl
  refine ⟨by rw [hrequests]; exact hr.requests, ?_, fun m => ?_, fun m hm => ?_⟩
  · rw [Relay.close_delivered, List.map_append, ← hr.delivered, hdeliveries, hmessage]
    cases o.told <;> rfl
  · by_cases hmn : m = n
    · subst hmn
      refine iff_of_false (fun hopen => ?_) hnot
      have hclosed := hopen.2
      rw [Relay.close_outcome_self] at hclosed
      cases hclosed
    · have hopen : (r.close n o).Open m ↔ r.Open m := by
        rw [Relay.Open, Relay.close_outcome_of_ne hmn, Relay.close_requests, Relay.Open]
      rw [hopen, hr.unsettled m, hstock.mem_iff, List.mem_cons]
      exact or_iff_right hmn
  · by_cases hmn : m = n
    · subst hmn
      rw [Relay.close_outcome_self, Option.some.injEq] at hm
      exact hgone hm
    · rw [Relay.close_outcome_of_ne hmn] at hm
      exact hkeep m (hr.dropped m hm)

/-- The relay goes along with each kind of step. -/
theorem Relays.step {w w' : World} {r : Relay (ConnId × UInt32) MyMessage} (hr : Relays w r)
    (hsound : r.Sound) (hnodup : (stock w).Nodup) (hs : StockStep w w')
    (hkeep : ∀ m, ClientGone w m → ClientGone w' m) :
    ∃ bs u, run Relay.step r bs = some u ∧ Relays w' u := by
  have hlength : r.requests.length = w.log.requests.length := by
    rw [hr.requests, relayRequests, List.length_map]
  cases hs with
  | same hstock hrequests hdeliveries =>
    refine exists_run_of_stutter ⟨by rw [hrequests]; exact hr.requests,
      by rw [hdeliveries]; exact hr.delivered, fun n => ?_, fun n hn => hkeep n (hr.dropped n hn)⟩
    rw [hr.unsettled n, hstock.mem_iff]
  | taken q hstock hrequests hdeliveries =>
    have hrequest : r.step (.request (q.client, q.message.id)) =
        some { r with requests := r.requests ++ [(q.client, q.message.id)] } := rfl
    refine exists_run_of_step hrequest ⟨?_, by rw [hdeliveries]; exact hr.delivered, fun n => ?_,
      fun n hn => hkeep n (hr.dropped n hn)⟩
    · rw [hr.requests, hrequests, relayRequests, relayRequests, List.map_append]
      rfl
    · rw [hstock.mem_iff, List.mem_cons, ← hr.unsettled n, Relay.Open, Relay.Open,
        List.length_append, List.length_singleton, hlength]
      constructor
      · intro hopen
        by_cases hn : n = w.log.requests.length
        · exact Or.inl hn
        · exact Or.inr ⟨by omega, hopen.2⟩
      · intro hn
        rcases hn with rfl | hn
        · -- the relay has not settled a request that nobody has made
          refine ⟨by omega, ?_⟩
          by_contra hcon
          have hmade := hsound.made _ hcon
          omega
        · exact ⟨by omega, hn.2⟩
  | settled n q o hstock hq hrequests hdeliveries hgone =>
    have hopen : r.Open n := (hr.unsettled n).mpr (hstock.mem_iff.mpr List.mem_cons_self)
    exact exists_run_of_step (Relay.step_settle hopen)
      (hr.close hnodup hstock hq hrequests hdeliveries hgone hkeep)
  | forgotten ns hstock hrequests hdeliveries hgone =>
    have hopen : ∀ n ∈ ns, r.Open n := fun n hn =>
      (hr.unsettled n).mpr (hstock.mem_iff.mpr (List.mem_append_left _ hn))
    have hsplit := List.nodup_append.mp (hstock.nodup_iff.mp hnodup)
    obtain ⟨u, hu, hureqs, hudel, huout⟩ := Relay.exists_run_dropped hopen hsplit.1
    refine ⟨_, u, hu, by rw [hureqs, hrequests]; exact hr.requests,
      by rw [hudel, hdeliveries]; exact hr.delivered, fun n => ?_, fun n hn => ?_⟩
    · rw [Relay.Open, hureqs, huout n]
      by_cases hn : n ∈ ns
      · rw [if_pos hn]
        exact iff_of_false (fun hcon => nomatch hcon.2) fun hmem => hsplit.2.2 n hn n hmem rfl
      · rw [if_neg hn]
        have hmem : n ∈ stock w ↔ n ∈ stock w' := by
          rw [hstock.mem_iff, List.mem_append]
          exact or_iff_right hn
        rw [← hmem]
        exact hr.unsettled n
    · rw [huout n] at hn
      by_cases hmem : n ∈ ns
      · exact hgone n hmem
      · rw [if_neg hmem] at hn
        exact hkeep n (hr.dropped n hn)

/-- Each step of the gateway is a run of the relay, as long as no key is given out twice. -/
theorem gateway_simulates : Simulates World.step Relay.step
    (fun w a => ∀ w', w.step a = some w' → w'.log.requests.length ≤ 2 ^ 32)
    (fun w r => SettleInv w ∧ r.Sound ∧ Relays w r) := by
  intro w r a w' hrel hbound h
  obtain ⟨hi, hsound, hr⟩ := hrel
  have hlen : w.log.requests.length ≤ 2 ^ 32 :=
    Nat.le_trans (length_requests_le_of_step h) (hbound w' h)
  have hstock := stockStep_of_step hi.route hi.count hlen h
  obtain ⟨bs, u, hu, hrelays⟩ := hr.step hsound hi.stock_nodup hstock
    fun m hm => hm.step hi.known h
  exact ⟨bs, u, hu, hi.step hlen h, hsound.run hu, hrelays⟩

/-- The relay behind a run of the gateway. -/
theorem exists_relay {acts : List Act} {w : World} (hrun : run World.step .init acts = some w)
    (hlen : w.log.requests.length ≤ 2 ^ 32) :
    ∃ bs r, run Relay.step .empty bs = some r ∧ SettleInv w ∧ r.Sound ∧ Relays w r := by
  obtain ⟨hmeets, -⟩ := meets_of_bounded_last (B := fun w => w.log.requests.length ≤ 2 ^ 32)
    (fun _ _ _ hstep hle => Nat.le_trans (length_requests_le_of_step hstep) hle) hrun hlen
  exact gateway_simulates.run ⟨.init, .empty, .init⟩ hmeets hrun

/-- Every run of the gateway that has not used up the keys is a run of the relay, so the clients
are told what the relay tells them: each what its own request was settled with, and once. -/
theorem gateway_relays (acts : List Act) (w : World) (hrun : run World.step .init acts = some w)
    (hlen : w.log.requests.length ≤ 2 ^ 32) :
    ∃ bs r, run Relay.step .empty bs = some r ∧ Relays w r ∧ r.Sound := by
  obtain ⟨bs, r, hr, -, hsound, hrelays⟩ := exists_relay hrun hlen
  exact ⟨bs, r, hr, hrelays, hsound⟩

/-- A request that is answered, one that times out, and one whose client goes away first. -/
def threeOutcomes : List Act :=
  [Act.accept 5, .accept 6, .connect "127.0.0.1:9001" 7, .addBackend, .insertFd] ++
    Act.receive 0 ⟨.loginReq, 4, []⟩ :: List.replicate 5 (.handler 0) ++
    Act.receive 0 ⟨.joinRoomReq, 5, []⟩ :: List.replicate 5 (.handler 0) ++
    Act.receive 1 ⟨.loginReq, 4, []⟩ :: List.replicate 5 (.handler 0) ++
    Act.receive 2 ⟨.loginResp, 1, []⟩ :: List.replicate 3 (.handler 0) ++
    [Act.closeFd 1, .destroy 1, .tick 31000000000, .cleanupBegin, .cleanupCollect, .cleanupSend 0]

theorem gateway_relays_three :
    ∃ w, run World.step .init threeOutcomes = some w ∧
      w.log.deliveries.map Delivery.request = [0, 1] ∧
      ∃ bs r, run Relay.step .empty bs = some r ∧ Relays w r ∧ r.Sound := by
  have hlast : ((run World.step .init threeOutcomes).any fun w =>
      decide (w.log.deliveries.map Delivery.request = [0, 1] ∧
        w.log.requests.length ≤ 2 ^ 32)) = true := by
    decide
  obtain ⟨w, hw, hlast⟩ := exists_of_run_any hlast
  obtain ⟨hdeliveries, hlen⟩ := of_decide_eq_true hlast
  exact ⟨w, hw, hdeliveries, gateway_relays threeOutcomes w hw hlen⟩

/-! ## §5 After a cleanup pass -/

/-- Request `n` has been recorded: no handler is about to put it into the table. -/
structure Recorded (w : World) (n : Nat) : Prop where
  made : n < w.log.requests.length
  recorded : ∀ h ∈ w.handlers, ∀ backend newId, h.pc ≠ .record backend newId n

/-- The entries of `w'` with request `n` are entries of `w`. -/
def EntriesFrom (w w' : World) (n : Nat) : Prop :=
  ∀ k req, w'.pending.lookup k = some req → req.request = n → w.pending.lookup k = some req

theorem entriesFrom_of_eq {w w' : World} {n : Nat} (h : w'.pending = w.pending) :
    EntriesFrom w w' n := fun _ _ hk _ => h ▸ hk

theorem Recorded.handlerStep {w : World} {n : Nat} (hn : Recorded w n) {i : Nat} {h : Handler}
    (hh : w.handlers[i]? = some h) :
    Recorded (w.handlerStep i h) n ∧ EntriesFrom w (w.handlerStep i h) n := by
  have hown := hn.recorded h (List.mem_of_getElem? hh)
  have hlen : ∀ {u : World}, w.log.requests <+: u.log.requests → n < u.log.requests.length :=
    fun hprefix => Nat.lt_of_lt_of_le hn.made hprefix.length_le
  have hset : ∀ pc, (∀ backend newId, pc ≠ .record backend newId n) →
      ∀ x ∈ w.handlers.set i { h with pc := pc }, ∀ backend newId,
        x.pc ≠ .record backend newId n := by
    intro pc hpc x hx
    rcases List.mem_or_eq_of_mem_set hx with hx | rfl
    · exact hn.recorded x hx
    · exact hpc
  have herase : ∀ x ∈ w.handlers.eraseIdx i, ∀ backend newId, x.pc ≠ .record backend newId n :=
    fun x hx => hn.recorded x (List.mem_of_mem_eraseIdx hx)
  have hframe := (handlerStep_frame hh).requests
  have hmade := hlen hframe
  have hstep := w.handlerStep_cases i h
  generalize w.handlerStep i h = w' at hstep hmade ⊢
  cases hstep with
  | fromBackend hpc hfd => exact ⟨⟨hmade, hset _ nofun⟩, entriesFrom_of_eq rfl⟩
  | fromClient hpc hfd => exact ⟨⟨hmade, hset _ nofun⟩, entriesFrom_of_eq rfl⟩
  | pong hpc htype => exact ⟨⟨hmade, herase⟩, entriesFrom_of_eq rfl⟩
  | found req hpc htype hk =>
    refine ⟨⟨hmade, hset _ nofun⟩, fun k req' hk' _ => ?_⟩
    by_cases hkey : k = h.msg.id
    · have hgone : (w.pending.erase h.msg.id).lookup k = some req' := hk'
      rw [hkey, AList.lookup_erase] at hgone
      cases hgone
    · have hkept : (w.pending.erase h.msg.id).lookup k = some req' := hk'
      rwa [AList.lookup_erase_ne hkey] at hkept
  | picked rr bs backend hpc hpick => exact ⟨⟨hmade, hset _ nofun⟩, entriesFrom_of_eq rfl⟩
  | allocated backend hpc =>
    -- the number it takes is that of a new request
    refine ⟨⟨hmade, hset _ fun backend' newId' heq => ?_⟩, entriesFrom_of_eq rfl⟩
    have hlast : w.log.requests.length = n := by
      injection heq
    exact Nat.ne_of_lt hn.made hlast.symm
  | recorded backend newId request hpc =>
    refine ⟨⟨hmade, hset _ nofun⟩, fun k req hk hreq => ?_⟩
    have hother : request ≠ n := by
      rintro rfl
      exact hown backend newId hpc
    have hlook : (w.pending.insert newId ⟨h.conn, h.msg.id, w.clock, request⟩).lookup k =
        some req := hk
    by_cases hkey : k = newId
    · rw [hkey, AList.lookup_insert, Option.some.injEq] at hlook
      subst hlook
      exact absurd hreq hother
    · rwa [AList.lookup_insert_ne hkey] at hlook
  | _ => exact ⟨⟨hmade, herase⟩, entriesFrom_of_eq rfl⟩

theorem Recorded.step {w w' : World} {a : Act} {n : Nat} (hn : Recorded w n)
    (h : w.step a = some w') : Recorded w' n ∧ EntriesFrom w w' n := by
  obtain ⟨i, x, -, hx, rfl⟩ | ⟨now, -, -, rfl⟩ | ⟨i, t, -, -, rfl⟩ | ⟨-, hq⟩ := step_cases h
  · exact hn.handlerStep hx
  · exact ⟨⟨hn.made, hn.recorded⟩, fun k req hk _ => (lookup_foldl_erase hk).1⟩
  · exact ⟨⟨hn.made, hn.recorded⟩, entriesFrom_of_eq rfl⟩
  · refine ⟨⟨by rw [hq.log]; exact hn.made, fun x hx => ?_⟩, entriesFrom_of_eq hq.pending⟩
    rcases hq.handlers with hsame | ⟨c, msg, hnew⟩
    · exact hn.recorded x (hsame ▸ hx)
    · rw [hnew] at hx
      rcases List.mem_append.mp hx with hx | hx
      · exact hn.recorded x hx
      · rw [List.mem_singleton.mp hx]
        exact nofun

/-- A run makes no new entry of a request that has been recorded. -/
theorem Recorded.run {w w' : World} {acts : List Act} {n : Nat} (hn : Recorded w n)
    (hrun : run World.step w acts = some w') : Recorded w' n ∧ EntriesFrom w w' n := by
  refine run_invariant (P := fun u => Recorded u n ∧ EntriesFrom w u n) (fun s a t hs hstep => ?_)
    ⟨hn, entriesFrom_of_eq rfl⟩ hrun
  obtain ⟨hrecorded, hentries⟩ := hs.1.step hstep
  exact ⟨hrecorded, fun k req hk hreq => hs.2 k req (hentries k req hk hreq) hreq⟩

/-- An entry of the table has been recorded. -/
theorem RouteInv.recorded {w : World} (hi : RouteInv w) {k : UInt32} {req : PendingRequest}
    (hk : w.pending.lookup k = some req) : Recorded w req.request := by
  obtain ⟨hown, hnot⟩ := hi.pending k req hk
  refine ⟨hown.lt, fun h hh backend newId hpc => hnot ?_⟩
  have htoken : req.request ∈ h.tokens := by simp [Handler.tokens, hpc]
  exact List.mem_append_left _ (List.mem_append_left _ (List.mem_flatMap.mpr ⟨h, hh, htoken⟩))

/-- A pass takes an expired entry, wherever it is by then. -/
theorem not_pending_collect {w₁ w₂ : World} {k : UInt32} {req : PendingRequest} {now : Nat}
    (hi : RouteInv w₂) (hown : Owns w₂.log.requests req.request req.clientConn req.originalId k)
    (hk : w₁.pending.lookup k = some req) (hfrom : EntriesFrom w₁ w₂ req.request)
    (hexpired : expired now req = true) :
    req.request ∉ entryRequests (w₂.collect now).pending := by
  intro hmem
  obtain ⟨e, he, hreq⟩ := List.mem_map.mp hmem
  have hlook : (w₂.collect now).pending.lookup e.1 = some e.2 := AList.mem_lookup_iff.mpr he
  obtain ⟨hbefore, hkept⟩ := lookup_foldl_erase hlook
  -- the entry is that of before the pass, so it is among the expired ones
  have hkey : e.1 = k := by
    have hown' := (hi.pending _ _ hbefore).1
    rw [hreq] at hown'
    exact hown'.key_eq hown
  have hfirst := hfrom _ _ hbefore hreq
  rw [hkey, hk, Option.some.injEq] at hfirst
  have hold : e ∈ w₂.expiredEntries now :=
    List.mem_filter.mpr ⟨AList.mem_lookup_iff.mp hbefore, by rw [← hfirst]; exact hexpired⟩
  exact hkept e hold rfl

/-- A request that is settled has been told to its client, once, unless the client is gone. -/
theorem told_of_settled {w : World} {r : Relay (ConnId × UInt32) MyMessage} (hsound : r.Sound)
    (hr : Relays w r) {n : Nat} {c : ConnId} {o k : UInt32}
    (hown : Owns w.log.requests n c o k) (hsettled : n ∉ stock w) (halive : w.alive c = true) :
    ∃ d ∈ w.log.deliveries, d.request = n ∧ d.client = c ∧ d.message.id = o ∧
      (w.log.deliveries.map Delivery.request).count n = 1 := by
  have hmade : n < r.requests.length := by
    rw [hr.requests, relayRequests, List.length_map]
    exact hown.lt
  obtain ⟨q, hq, hclient, hid, -⟩ := hown
  have houtcome : r.outcome n ≠ none := fun hnone => hsettled ((hr.unsettled n).mp ⟨hmade, hnone⟩)
  obtain ⟨out, hout⟩ := Option.ne_none_iff_exists'.mp houtcome
  have htold : ∃ answer, out.told = some answer := by
    cases out with
    | answered reply => exact ⟨_, rfl⟩
    | timedOut => exact ⟨_, rfl⟩
    | dropped =>
      obtain ⟨q', hq', hdead⟩ := hr.dropped n hout
      rw [hq, Option.some.injEq] at hq'
      rw [← hq', hclient, halive] at hdead
      cases hdead
  obtain ⟨answer, hanswer⟩ := htold
  -- the relay has told the client of the request
  have hclientOf : r.requests[n]? = some (c, o) := by
    rw [hr.requests, relayRequests, List.getElem?_map, hq, ← hclient, ← hid]
    rfl
  have hmem : (⟨(c, o), n, answer⟩ : Told (ConnId × UInt32) MyMessage) ∈ r.delivered := by
    apply (hsound.told _).mpr
    rw [hout, Option.bind_some]
    exact ⟨hclientOf, hanswer⟩
  have hd : passedOn ⟨(c, o), n, answer⟩ ∈ w.log.deliveries := by
    rw [hr.delivered]
    exact List.mem_map_of_mem hmem
  have honce : (w.log.deliveries.map Delivery.request).Nodup := by
    rw [hr.delivered, List.map_map]
    exact hsound.once
  refine ⟨_, hd, rfl, rfl, toldMessage_id o answer, ?_⟩
  exact List.count_eq_one_of_mem honce (List.mem_map.mpr ⟨_, hd, rfl⟩)

/-- A request waits in the table, and expires.  Once a cleanup pass that finds it expired is over,
and no thread has it any more, its client has been told, once, if it is still there. -/
theorem settled_after_cleanup (before between after : List Act) (w₁ w₂ w : World) (k : UInt32)
    (req : PendingRequest) (now : Nat) (h₁ : run World.step .init before = some w₁)
    (hk : w₁.pending.lookup k = some req) (h₂ : run World.step w₁ between = some w₂)
    (hnow : w₂.cleanupNow = some now) (hexpired : expired now req = true)
    (hrun : run World.step w₂ (.cleanupCollect :: after) = some w)
    (hlen : w.log.requests.length ≤ 2 ^ 32) (hhandlers : ∀ h ∈ w.handlers, req.request ∉ h.tokens)
    (htimeouts : ∀ t ∈ w.timeouts, t.request ≠ req.request)
    (halive : w.alive req.clientConn = true) :
    ∃ d ∈ w.log.deliveries, d.request = req.request ∧ d.client = req.clientConn ∧
      d.message.id = req.originalId ∧
      (w.log.deliveries.map Delivery.request).count req.request = 1 := by
  have hrun₂ : run World.step .init (before ++ between) = some w₂ := run_append.mpr ⟨_, h₁, h₂⟩
  have hall : run World.step .init (before ++ between ++ .cleanupCollect :: after) = some w :=
    run_append.mpr ⟨_, hrun₂, hrun⟩
  have hi₁ := run_routeInv h₁
  obtain ⟨w₃, hcollect, hafter⟩ := run_cons_eq_some.mp hrun
  obtain rfl : w₃ = w₂.collect now := by
    simpa [World.step, hnow] using hcollect.symm
  obtain ⟨hrecorded₂, hfrom₂⟩ := (hi₁.recorded hk).run h₂
  obtain ⟨hrecorded₃, -⟩ := hrecorded₂.step hcollect
  obtain ⟨-, hfrom⟩ := hrecorded₃.run hafter
  -- the log only grows, so the request stays the client's
  have hlog : ∀ {u v : World} {acts : List Act}, run World.step u acts = some v →
      Owns u.log.requests req.request req.clientConn req.originalId k →
      Owns v.log.requests req.request req.clientConn req.originalId k := by
    intro u v acts huv hown
    refine run_invariant (P := fun u => Owns u.log.requests req.request req.clientConn
      req.originalId k) (fun s a t hs hstep => ?_) hown huv
    exact hs.of_prefix (requests_prefix_of_step hstep)
  have hown₂ := hlog h₂ (hi₁.pending k req hk).1
  have hown := hlog hrun hown₂
  have hnot₃ := not_pending_collect (run_routeInv hrun₂) hown₂ hk hfrom₂ hexpired
  have hsettled : req.request ∉ stock w := by
    intro hmem
    rcases List.mem_append.mp hmem with hmem | hmem
    · rcases List.mem_append.mp hmem with hmem | hmem
      · obtain ⟨e, he, hreq⟩ := List.mem_map.mp hmem
        have hlook := hfrom e.1 e.2 (AList.mem_lookup_iff.mpr he) hreq
        exact hnot₃ (List.mem_map.mpr ⟨e, AList.mem_lookup_iff.mp hlook, hreq⟩)
      · obtain ⟨h, hh, htoken⟩ := List.mem_flatMap.mp hmem
        exact hhandlers h hh htoken
    · obtain ⟨t, ht, hreq⟩ := List.mem_map.mp hmem
      exact htimeouts t ht hreq
  obtain ⟨bs, r, -, -, hsound, hr⟩ := exists_relay hall hlen
  exact told_of_settled hsound hr hown hsettled halive

/-- A request that the backend leaves alone. -/
def oneForwarded : List Act :=
  [Act.accept 5, .connect "127.0.0.1:9001" 7, .addBackend, .insertFd] ++
    Act.receive 0 ⟨.joinRoomReq, 5, []⟩ :: List.replicate 5 (.handler 0)

theorem settled_after_cleanup_one :
    ∃ w, run World.step .init (oneForwarded ++
        [.tick 31000000000, .cleanupBegin, .cleanupCollect, .cleanupSend 0]) = some w ∧
      ∃ d ∈ w.log.deliveries, d.request = 0 ∧ d.client = 0 ∧ d.message.id = 5 ∧
        (w.log.deliveries.map Delivery.request).count 0 = 1 := by
  have hall : ((run World.step .init oneForwarded).any fun w₁ =>
      decide (w₁.pending.lookup 1 = some ⟨0, 5, 0, 0⟩) &&
        (run World.step w₁ [.tick 31000000000, .cleanupBegin]).any fun w₂ =>
          decide (w₂.cleanupNow = some 31000000000) &&
            (run World.step w₂ [.cleanupCollect, .cleanupSend 0]).any fun w =>
              decide (w.log.requests.length ≤ 2 ^ 32 ∧ w.handlers = [] ∧ w.timeouts = [] ∧
                w.alive 0 = true)) = true := by
    decide
  obtain ⟨w₁, h₁, hrest⟩ := exists_of_run_any hall
  obtain ⟨hk, hrest⟩ := Bool.and_eq_true_iff.mp hrest
  obtain ⟨w₂, h₂, hrest⟩ := exists_of_run_any hrest
  obtain ⟨hnow, hrest⟩ := Bool.and_eq_true_iff.mp hrest
  obtain ⟨w, hrun, hlast⟩ := exists_of_run_any hrest
  obtain ⟨hlen, hhandlers, htimeouts, halive⟩ := of_decide_eq_true hlast
  have hlater : run World.step w₁ ([.tick 31000000000, .cleanupBegin] ++
      [.cleanupCollect, .cleanupSend 0]) = some w := run_append.mpr ⟨w₂, h₂, hrun⟩
  refine ⟨w, run_append.mpr ⟨w₁, h₁, hlater⟩, ?_⟩
  exact settled_after_cleanup oneForwarded [.tick 31000000000, .cleanupBegin] [.cleanupSend 0]
    w₁ w₂ w 1 ⟨0, 5, 0, 0⟩ 31000000000 h₁ (of_decide_eq_true hk) h₂ (of_decide_eq_true hnow)
    (by decide) hrun hlen (by simp [hhandlers]) (by simp [htimeouts]) halive

end EchoNet.Gateway
