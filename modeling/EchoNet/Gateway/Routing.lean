import EchoNet.Gateway.Machine
import EchoNet.Lib.Places

/-!
# Routing of Answers

Each request that a handler takes to forward is a token.  It is with its handler until the
entry is in `pending`, then in `pending`, then with the handler of an answer or with the
cleanup thread, and at last in the log of deliveries; it is never in two places, because
every removal from `pending` happens under `pending_mutex` and takes the entry along.

## Main results

- `RouteInv`: the token invariant, kept by every step;
- `run_routeInv`: hence of every run;
- `RouteInv.keys_nodup`: the keys are distinct until `next_new_id` has wrapped around.
-/

namespace EchoNet.Gateway

open EchoNet.Lib EchoNet.Protocol

open World

/-! ## §1 Tokens -/

/-- The request a running handler is responsible for. -/
def Handler.tokens (h : Handler) : List Nat :=
  match h.pc with
  | .respond req => [req.request]
  | .record _ _ request => [request]
  | .start | .backendResponse | .clientRequest | .allocate _ | .forward _ _ => []

/-- The requests that are with a thread or have been answered. -/
def tokens (w : World) : List Nat :=
  w.handlers.flatMap Handler.tokens ++ w.timeouts.map Timeout.request ++
    w.log.deliveries.map Delivery.request

/-- The tokens of everyone but handler `i`. -/
def otherTokens (w : World) (i : Nat) : List Nat :=
  (w.handlers.eraseIdx i).flatMap Handler.tokens ++ w.timeouts.map Timeout.request ++
    w.log.deliveries.map Delivery.request

theorem tokens_perm {w : World} {i : Nat} {h : Handler} (hi : w.handlers[i]? = some h) :
    (tokens w).Perm (h.tokens ++ otherTokens w i) := by
  have hp := (perm_cons_eraseIdx hi).flatMap_right Handler.tokens
  simp only [tokens, otherTokens, List.append_assoc]
  simpa using hp.append_right (w.timeouts.map Timeout.request ++
    w.log.deliveries.map Delivery.request)

/-- Where the tokens are after handler `i` has moved on to `pc`. -/
theorem tokens_goto_perm {w : World} {i : Nat} {h : Handler} (hi : w.handlers[i]? = some h)
    (pc : HandlerPc) :
    (tokens (w.goto i h pc)).Perm ({ h with pc := pc }.tokens ++ otherTokens w i) := by
  have hp := (set_perm_cons_eraseIdx hi { h with pc := pc }).flatMap_right Handler.tokens
  simp only [tokens, otherTokens, World.goto, List.append_assoc]
  simpa using hp.append_right (w.timeouts.map Timeout.request ++
    w.log.deliveries.map Delivery.request)

@[simp] theorem tokens_finish (w : World) (i : Nat) : tokens (w.finish i) = otherTokens w i := rfl

/-! ## §2 The invariant -/

/-- Request number `request` of the log is one of `client` with this id and this key. -/
def Owns (requests : List Request) (request : Nat) (client : ConnId) (originalId key : UInt32) :
    Prop :=
  ∃ r, requests[request]? = some r ∧ r.client = client ∧ r.message.id = originalId ∧ r.key = key

theorem Owns.of_prefix {rs rs' : List Request} (hp : rs <+: rs') {request : Nat}
    {client : ConnId} {originalId key : UInt32} (h : Owns rs request client originalId key) :
    Owns rs' request client originalId key := by
  obtain ⟨more, rfl⟩ := hp
  obtain ⟨r, hr, hrest⟩ := h
  have hlt := (List.getElem?_eq_some_iff.mp hr).1
  exact ⟨r, by rw [List.getElem?_append_left hlt, hr], hrest⟩

theorem Owns.append {requests : List Request} {request : Nat} {client : ConnId}
    {originalId key : UInt32} (h : Owns requests request client originalId key) (r : Request) :
    Owns (requests ++ [r]) request client originalId key :=
  h.of_prefix (List.prefix_append _ _)

theorem Owns.lt {requests : List Request} {request : Nat} {client : ConnId}
    {originalId key : UInt32} (h : Owns requests request client originalId key) :
    request < requests.length := by
  obtain ⟨r, hr, -⟩ := h
  exact (List.getElem?_eq_some_iff.mp hr).1

/-- The key is a function of the request. -/
theorem Owns.key_eq {requests : List Request} {request : Nat} {c c' : ConnId}
    {o o' k k' : UInt32} (h : Owns requests request c o k) (h' : Owns requests request c' o' k') :
    k = k' := by
  obtain ⟨r, hr, -, -, rfl⟩ := h
  obtain ⟨r', hr', -, -, rfl⟩ := h'
  rw [hr] at hr'
  cases hr'
  rfl

/-- What a handler holds, it holds rightly. -/
def HandlerOk (requests : List Request) (h : Handler) : Prop :=
  match h.pc with
  | .respond req => Owns requests req.request req.clientConn req.originalId h.msg.id
  | .record _ newId request => Owns requests request h.conn h.msg.id newId
  | .start | .backendResponse | .clientRequest | .allocate _ | .forward _ _ => True

/-- A message sent to a client is the answer of a backend under the request's key, or the
timeout, with the id that the client used. -/
def DeliveryOk (requests : List Request) (d : Delivery) : Prop :=
  ∃ key, Owns requests d.request d.client d.message.id key ∧
    (d.message = timeoutMessage d.message.id ∧ d.answer = none ∨
      ∃ ans, d.answer = some ans ∧ ans.id = key ∧ d.message = { ans with id := d.message.id })

structure RouteInv (w : World) : Prop where
  keys : ∀ i r, w.log.requests[i]? = some r → r.key = UInt32.ofNat (i + 1)
  next : w.nextNewId = UInt32.ofNat (w.log.requests.length + 1)
  handlers : ∀ h ∈ w.handlers, HandlerOk w.log.requests h
  pending : ∀ k req, w.pending.lookup k = some req →
    Owns w.log.requests req.request req.clientConn req.originalId k ∧ req.request ∉ tokens w
  timeouts : ∀ t ∈ w.timeouts, ∃ key, Owns w.log.requests t.request t.client t.originalId key
  deliveries : ∀ d ∈ w.log.deliveries, DeliveryOk w.log.requests d
  nodup : (tokens w).Nodup

theorem RouteInv.init : RouteInv World.init := by
  constructor <;> simp [World.init, tokens]

/-- Every token is one of a logged request. -/
theorem RouteInv.token_lt {w : World} (hi : RouteInv w) {request : Nat}
    (h : request ∈ tokens w) : request < w.log.requests.length := by
  simp only [tokens, List.mem_append, List.mem_flatMap, List.mem_map, or_assoc] at h
  obtain ⟨x, hx, ht⟩ | ⟨t, ht, rfl⟩ | ⟨d, hd, rfl⟩ := h
  · have hok := hi.handlers x hx
    unfold HandlerOk at hok
    unfold Handler.tokens at ht
    cases hpc : x.pc <;> simp only [hpc, List.mem_singleton, List.not_mem_nil] at ht hok <;>
      exact ht ▸ hok.lt
  · obtain ⟨key, hown⟩ := hi.timeouts t ht
    exact hown.lt
  · obtain ⟨key, hown, -⟩ := hi.deliveries d hd
    exact hown.lt

/-- A step that leaves requests, entries and tokens alone. -/
theorem RouteInv.congr {w w' : World} (hi : RouteInv w) (hpending : w'.pending = w.pending)
    (hnext : w'.nextNewId = w.nextNewId) (hrequests : w'.log.requests = w.log.requests)
    (hdeliveries : w'.log.deliveries = w.log.deliveries) (htimeouts : w'.timeouts = w.timeouts)
    (hhandlers : ∀ h ∈ w'.handlers, HandlerOk w.log.requests h)
    (htokens : (tokens w').Perm (tokens w)) : RouteInv w' := by
  constructor
  · rw [hrequests]
    exact hi.keys
  · rw [hnext, hrequests]
    exact hi.next
  · rw [hrequests]
    exact hhandlers
  · rw [hpending, hrequests]
    intro k req hk
    exact ⟨(hi.pending k req hk).1, fun hm => (hi.pending k req hk).2 (htokens.mem_iff.mp hm)⟩
  · rw [htimeouts, hrequests]
    exact hi.timeouts
  · rw [hdeliveries, hrequests]
    exact hi.deliveries
  · exact htokens.nodup_iff.mpr hi.nodup

/-! ## §3 Steps of a handler -/

theorem HandlerOk.append {requests : List Request} {h : Handler} (hok : HandlerOk requests h)
    (r : Request) : HandlerOk (requests ++ [r]) h := by
  unfold HandlerOk at hok ⊢
  cases hpc : h.pc <;> simp only [hpc] at hok ⊢
  · exact hok.append r
  · exact hok.append r

theorem handlerOk_of_tokens_nil {requests : List Request} {h : Handler} (ht : h.tokens = []) :
    HandlerOk requests h := by
  unfold Handler.tokens at ht
  unfold HandlerOk
  cases hpc : h.pc <;> simp_all

/-- A handler without a token moves on. -/
theorem RouteInv.move {w w' : World} (hi : RouteInv w) {i : Nat} {h : Handler}
    (hh : w.handlers[i]? = some h) (pc : HandlerPc) (hold : h.tokens = [])
    (hnew : { h with pc := pc }.tokens = [])
    (hhandlers : w'.handlers = w.handlers.set i { h with pc := pc })
    (hpending : w'.pending = w.pending) (hnext : w'.nextNewId = w.nextNewId)
    (hrequests : w'.log.requests = w.log.requests)
    (hdeliveries : w'.log.deliveries = w.log.deliveries)
    (htimeouts : w'.timeouts = w.timeouts) : RouteInv w' := by
  refine hi.congr hpending hnext hrequests hdeliveries htimeouts (fun x hx => ?_) ?_
  · rw [hhandlers] at hx
    rcases List.mem_or_eq_of_mem_set hx with hx | rfl
    · exact hi.handlers x hx
    · exact handlerOk_of_tokens_nil hnew
  · have hgoto := tokens_goto_perm hh pc
    have hsame : tokens w' = tokens (w.goto i h pc) := by
      simp [tokens, hhandlers, hdeliveries, htimeouts, World.goto]
    rw [hsame]
    rw [hnew] at hgoto
    have htok := tokens_perm hh
    rw [hold] at htok
    exact hgoto.trans htok.symm

/-- A handler without a token returns. -/
theorem RouteInv.leave {w w' : World} (hi : RouteInv w) {i : Nat} {h : Handler}
    (hh : w.handlers[i]? = some h) (hold : h.tokens = [])
    (hhandlers : w'.handlers = w.handlers.eraseIdx i)
    (hpending : w'.pending = w.pending) (hnext : w'.nextNewId = w.nextNewId)
    (hrequests : w'.log.requests = w.log.requests)
    (hdeliveries : w'.log.deliveries = w.log.deliveries)
    (htimeouts : w'.timeouts = w.timeouts) : RouteInv w' := by
  refine hi.congr hpending hnext hrequests hdeliveries htimeouts (fun x hx => ?_) ?_
  · rw [hhandlers] at hx
    exact hi.handlers x (List.mem_of_mem_eraseIdx hx)
  · have hsame : tokens w' = otherTokens w i := by
      simp [tokens, otherTokens, hhandlers, hdeliveries, htimeouts]
    have htok := tokens_perm hh
    rw [hold] at htok
    rw [hsame]
    exact htok.symm

/-- The answer of a backend takes its entry out of `pending`. -/
theorem RouteInv.take {w : World} (hi : RouteInv w) {i : Nat} {h : Handler}
    {req : PendingRequest} (hh : w.handlers[i]? = some h) (hpc : h.pc = .backendResponse)
    (hk : w.pending.lookup h.msg.id = some req) (log : Log)
    (hrequests : log.requests = w.log.requests) (hdeliveries : log.deliveries = w.log.deliveries) :
    RouteInv { w.goto i h (.respond req) with
      pending := w.pending.erase h.msg.id, log := log } := by
  obtain ⟨hown, hfresh⟩ := hi.pending _ _ hk
  have hold : h.tokens = [] := by simp [Handler.tokens, hpc]
  have htok := tokens_perm hh
  rw [hold, List.nil_append] at htok
  have hsame : (tokens { w.goto i h (.respond req) with
      pending := w.pending.erase h.msg.id, log := log }).Perm (req.request :: otherTokens w i) := by
    have hgoto := tokens_goto_perm hh (.respond req)
    simpa [tokens, hdeliveries, Handler.tokens, World.goto] using hgoto
  constructor
  · rw [hrequests]
    exact hi.keys
  · rw [hrequests]
    exact hi.next
  · rw [hrequests]
    intro x hx
    rcases List.mem_or_eq_of_mem_set hx with hx | rfl
    · exact hi.handlers x hx
    · exact hown
  · rw [hrequests]
    intro k req' hk'
    have hne : k ≠ h.msg.id := by
      rintro rfl
      simp at hk'
    rw [AList.lookup_erase_ne hne] at hk'
    obtain ⟨hown', hfresh'⟩ := hi.pending k req' hk'
    refine ⟨hown', fun hm => ?_⟩
    rcases List.mem_cons.mp (hsame.mem_iff.mp hm) with heq | hm
    · -- the request determines the key
      rw [heq] at hown'
      exact hne (hown'.key_eq hown)
    · exact hfresh' (htok.mem_iff.mpr hm)
  · rw [hrequests]
    exact hi.timeouts
  · rw [hrequests, hdeliveries]
    exact hi.deliveries
  · rw [hsame.nodup_iff]
    exact List.nodup_cons.mpr
      ⟨fun hm => hfresh (htok.mem_iff.mpr hm), htok.nodup_iff.mp hi.nodup⟩

/-- A handler delivers the answer it holds, or drops it. -/
theorem RouteInv.deliver {w : World} (hi : RouteInv w) {i : Nat} {h : Handler}
    {req : PendingRequest} (hh : w.handlers[i]? = some h) (hpc : h.pc = .respond req)
    (metrics : Metrics) :
    RouteInv { w.finish i with
      metrics := metrics
      log := { w.log with
        deliveries := w.log.deliveries ++
          [⟨req.clientConn, { h.msg with id := req.originalId }, req.request, some h.msg⟩]
        sources := w.log.sources ++ [(req.request, h.conn)] } } := by
  have hown : Owns w.log.requests req.request req.clientConn req.originalId h.msg.id := by
    simpa [HandlerOk, hpc] using hi.handlers h (List.mem_of_getElem? hh)
  have hsame : (tokens { w.finish i with
      metrics := metrics
      log := { w.log with
        deliveries := w.log.deliveries ++
          [⟨req.clientConn, { h.msg with id := req.originalId }, req.request, some h.msg⟩]
        sources := w.log.sources ++ [(req.request, h.conn)] } }).Perm
      (tokens w) := by
    have htok := tokens_perm hh
    simp only [Handler.tokens, hpc, List.singleton_append] at htok
    have hlast := List.perm_append_singleton req.request (otherTokens w i)
    refine List.Perm.trans ?_ (hlast.trans htok.symm)
    simp [tokens, otherTokens, World.finish]
  refine ⟨hi.keys, hi.next, fun x hx => hi.handlers x (List.mem_of_mem_eraseIdx hx), ?_,
    hi.timeouts, ?_, hsame.nodup_iff.mpr hi.nodup⟩
  · intro k req' hk
    exact ⟨(hi.pending k req' hk).1, fun hm => (hi.pending k req' hk).2 (hsame.mem_iff.mp hm)⟩
  · intro d hd
    rcases List.mem_append.mp hd with hd | hd
    · exact hi.deliveries d hd
    · rw [List.mem_singleton.mp hd]
      exact ⟨h.msg.id, hown, Or.inr ⟨h.msg, rfl, rfl, rfl⟩⟩

theorem RouteInv.drop {w : World} (hi : RouteInv w) {i : Nat} {h : Handler}
    (hh : w.handlers[i]? = some h) (metrics : Metrics) :
    RouteInv { w.finish i with metrics := metrics } := by
  have htok := tokens_perm hh
  have hsub : ∀ x ∈ otherTokens w i, x ∈ tokens w := fun x hx =>
    htok.mem_iff.mpr (List.mem_append_right _ hx)
  refine ⟨hi.keys, hi.next, fun x hx => hi.handlers x (List.mem_of_mem_eraseIdx hx), ?_,
    hi.timeouts, hi.deliveries, ?_⟩
  · intro k req' hk
    exact ⟨(hi.pending k req' hk).1, fun hm => (hi.pending k req' hk).2 (hsub _ hm)⟩
  · exact (List.nodup_append.mp (htok.nodup_iff.mp hi.nodup)).2.1

/-- A handler takes a new id for its request. -/
theorem RouteInv.allocate {w : World} (hi : RouteInv w) {i : Nat} {h : Handler}
    {backend : ConnId} (hh : w.handlers[i]? = some h) (hpc : h.pc = .allocate backend) :
    RouteInv { w.goto i h (.record backend w.nextNewId w.log.requests.length) with
      nextNewId := w.nextNewId + 1
      log := { w.log with requests := w.log.requests ++ [⟨h.conn, h.msg, w.nextNewId⟩] } } := by
  have htok := tokens_perm hh
  simp only [Handler.tokens, hpc, List.nil_append] at htok
  have hsame := tokens_goto_perm hh (.record backend w.nextNewId w.log.requests.length)
  simp only [Handler.tokens, List.singleton_append] at hsame
  have hnew : w.log.requests.length ∉ otherTokens w i := fun hm =>
    absurd (hi.token_lt (htok.mem_iff.mpr hm)) (lt_irrefl _)
  constructor
  · intro k r hr
    rcases Nat.lt_trichotomy k w.log.requests.length with hlt | rfl | hgt
    · rw [List.getElem?_append_left hlt] at hr
      exact hi.keys k r hr
    · rw [List.getElem?_concat_length, Option.some.injEq] at hr
      rw [← hr]
      exact hi.next
    · rw [List.getElem?_eq_none (by simp; omega)] at hr
      cases hr
  · simp only [List.length_append, List.length_singleton, hi.next]
    rw [UInt32.ofNat_add (w.log.requests.length + 1) 1]
    rfl
  · intro x hx
    rcases List.mem_or_eq_of_mem_set hx with hx | rfl
    · exact (hi.handlers x hx).append _
    · exact ⟨_, List.getElem?_concat_length, rfl, rfl, rfl⟩
  · intro k req hk
    obtain ⟨hown, hfresh⟩ := hi.pending k req hk
    refine ⟨hown.append _, fun hm => ?_⟩
    rcases List.mem_cons.mp (hsame.mem_iff.mp hm) with heq | hm
    · exact absurd hown.lt (by omega)
    · exact hfresh (htok.mem_iff.mpr hm)
  · intro t ht
    obtain ⟨key, hown⟩ := hi.timeouts t ht
    exact ⟨key, hown.append _⟩
  · intro d hd
    obtain ⟨key, hown, hmsg⟩ := hi.deliveries d hd
    exact ⟨key, hown.append _, hmsg⟩
  · exact hsame.nodup_iff.mpr (List.nodup_cons.mpr ⟨hnew, htok.nodup_iff.mp hi.nodup⟩)

/-- A handler enters its request into `pending`. -/
theorem RouteInv.enter {w : World} (hi : RouteInv w) {i : Nat} {h : Handler}
    {backend : ConnId} {newId : UInt32} {request : Nat} (hh : w.handlers[i]? = some h)
    (hpc : h.pc = .record backend newId request) :
    RouteInv { w.goto i h (.forward backend newId) with
      pending := w.pending.insert newId ⟨h.conn, h.msg.id, w.clock, request⟩ } := by
  have hown : Owns w.log.requests request h.conn h.msg.id newId := by
    simpa [HandlerOk, hpc] using hi.handlers h (List.mem_of_getElem? hh)
  have htok := tokens_perm hh
  simp only [Handler.tokens, hpc, List.singleton_append] at htok
  have hsame := tokens_goto_perm hh (.forward backend newId)
  simp only [Handler.tokens, List.nil_append] at hsame
  have hnodup := List.nodup_cons.mp (htok.nodup_iff.mp hi.nodup)
  refine ⟨hi.keys, hi.next, fun x hx => ?_, fun k req hk => ?_, hi.timeouts, hi.deliveries,
    hsame.nodup_iff.mpr hnodup.2⟩
  · rcases List.mem_or_eq_of_mem_set hx with hx | rfl
    · exact hi.handlers x hx
    · trivial
  · by_cases hkey : k = newId
    · subst hkey
      simp only [AList.lookup_insert, Option.some.injEq] at hk
      subst hk
      exact ⟨hown, fun hm => hnodup.1 (hsame.mem_iff.mp hm)⟩
    · rw [AList.lookup_insert_ne hkey] at hk
      obtain ⟨hown', hfresh⟩ := hi.pending k req hk
      exact ⟨hown', fun hm =>
        hfresh (htok.mem_iff.mpr (List.mem_cons_of_mem _ (hsame.mem_iff.mp hm)))⟩

theorem RouteInv.handlerStep {w : World} (hi : RouteInv w) {i : Nat} {h : Handler}
    (hh : w.handlers[i]? = some h) : RouteInv (w.handlerStep i h) := by
  have hstep := w.handlerStep_cases i h
  generalize w.handlerStep i h = w' at hstep ⊢
  cases hstep with
  | fromBackend hpc hfd =>
    exact hi.move hh .backendResponse (by simp [Handler.tokens, hpc]) rfl rfl rfl rfl rfl rfl rfl
  | fromClient hpc hfd =>
    exact hi.move hh .clientRequest (by simp [Handler.tokens, hpc]) rfl rfl rfl rfl (by simp)
      (by simp) rfl
  | pong hpc htype =>
    exact hi.leave hh (by simp [Handler.tokens, hpc]) rfl rfl rfl (by simp) (by simp) rfl
  | found req hpc htype hk => exact hi.take hh hpc hk _ (by simp) (by simp)
  | unknown hpc htype hk => exact hi.drop hh _
  | delivered req hpc halive => exact hi.deliver hh hpc _
  | dropped req hpc halive => exact hi.drop hh _
  | picked rr bs backend hpc hpick =>
    exact hi.move hh (.allocate backend) (by simp [Handler.tokens, hpc]) rfl rfl rfl rfl rfl rfl rfl
  | noBackend rr bs hpc hpick =>
    exact hi.leave hh (by simp [Handler.tokens, hpc]) rfl rfl rfl rfl rfl rfl
  | allocated backend hpc => exact hi.allocate hh hpc
  | recorded backend newId request hpc => exact hi.enter hh hpc
  | forwarded backend newId hpc =>
    exact hi.leave hh (by simp [Handler.tokens, hpc]) rfl rfl rfl rfl rfl rfl

/-! ## §4 The cleanup thread -/

theorem lookup_foldl_erase {m : PendingMap} {old : List (Σ _ : UInt32, PendingRequest)} {k : UInt32}
    {req : PendingRequest} (hk : (old.foldl (fun m e => m.erase e.1) m).lookup k = some req) :
    m.lookup k = some req ∧ ∀ e ∈ old, e.1 ≠ k := by
  induction old generalizing m with
  | nil => exact ⟨hk, by simp⟩
  | cons e old ih =>
    obtain ⟨hlook, hnot⟩ := ih hk
    have hne : k ≠ e.1 := by
      rintro rfl
      simp at hlook
    rw [AList.lookup_erase_ne hne] at hlook
    refine ⟨hlook, fun x hx => ?_⟩
    rcases List.mem_cons.mp hx with rfl | hx
    · exact hne.symm
    · exact hnot x hx

/-- The entries that the cleanup thread collects. -/
theorem mem_expiredEntries {w : World} {now : Nat} {e : Σ _ : UInt32, PendingRequest}
    (he : e ∈ w.expiredEntries now) : w.pending.lookup e.1 = some e.2 := by
  have hmem := (List.mem_filter.mp he).1
  exact AList.mem_lookup_iff.mpr hmem

/-- The requests of the collected entries are distinct and held by nobody. -/
private theorem RouteInv.collected {w : World} (hi : RouteInv w) (now : Nat) :
    ((w.collect now).timeouts.map Timeout.request).Nodup ∧
      ∀ x ∈ (w.collect now).timeouts.map Timeout.request, x ∉ tokens w ∧
        ∃ e ∈ w.expiredEntries now, e.2.request = x := by
  have hentry : ∀ e ∈ (w.expiredEntries now).filter fun e => w.alive e.2.clientConn,
      w.pending.lookup e.1 = some e.2 := fun e he =>
    mem_expiredEntries (List.mem_filter.mp he).1
  have hmap : (w.collect now).timeouts.map Timeout.request =
      ((w.expiredEntries now).filter fun e => w.alive e.2.clientConn).map fun e => e.2.request := by
    simp [World.collect, Function.comp_def]
  rw [hmap]
  constructor
  · refine List.Nodup.map_on (fun e he e' he' heq => ?_) ?_
    · have hown := (hi.pending _ _ (hentry e he)).1
      have hown' := (hi.pending _ _ (hentry e' he')).1
      rw [heq] at hown
      have hkey := hown.key_eq hown'
      have hlook := hentry e he
      rw [hkey, hentry e' he', Option.some.injEq] at hlook
      exact Sigma.ext hkey (heq_of_eq hlook.symm)
    · exact ((w.pending.nodupKeys.nodup).filter _).filter _
  · intro x hx
    obtain ⟨e, he, rfl⟩ := List.mem_map.mp hx
    exact ⟨(hi.pending _ _ (hentry e he)).2, e, (List.mem_filter.mp he).1, rfl⟩

theorem RouteInv.collect {w : World} (hi : RouteInv w) (now : Nat) : RouteInv (w.collect now) := by
  obtain ⟨hnodup, hfresh⟩ := hi.collected now
  have hkept : (w.handlers.flatMap Handler.tokens ++ w.log.deliveries.map Delivery.request).Sublist
      (tokens w) := by
    unfold tokens
    exact (List.sublist_append_left _ _).append_right _
  refine ⟨hi.keys, hi.next, hi.handlers, fun k req hk => ?_, fun t ht => ?_, hi.deliveries, ?_⟩
  · obtain ⟨hlook, hnot⟩ := lookup_foldl_erase hk
    obtain ⟨hown, hfree⟩ := hi.pending k req hlook
    refine ⟨hown, fun hm => ?_⟩
    simp only [tokens, List.mem_append] at hm
    rcases hm with (hm | hm) | hm
    · exact hfree (by simp only [tokens, List.mem_append]; exact Or.inl (Or.inl hm))
    · -- the entry would be one of those that were erased
      obtain ⟨-, e, he, heq⟩ := hfresh _ hm
      have hown' := (hi.pending _ _ (mem_expiredEntries he)).1
      rw [heq] at hown'
      exact hnot e he (hown'.key_eq hown)
    · exact hfree (by simp only [tokens, List.mem_append]; exact Or.inr hm)
  · obtain ⟨e, he, rfl⟩ := List.mem_map.mp ht
    exact ⟨e.1, (hi.pending _ _ (mem_expiredEntries (List.mem_filter.mp he).1)).1⟩
  · have hperm : (tokens (w.collect now)).Perm
        ((w.collect now).timeouts.map Timeout.request ++
          (w.handlers.flatMap Handler.tokens ++ w.log.deliveries.map Delivery.request)) := by
      unfold tokens
      rw [List.append_assoc]
      exact List.perm_append_comm_assoc ..
    rw [hperm.nodup_iff]
    refine List.nodup_append'.mpr ⟨hnodup, hi.nodup.sublist hkept, fun x hx hx' => ?_⟩
    exact (hfresh x hx).1 (hkept.subset hx')

theorem RouteInv.tellTimeout {w : World} (hi : RouteInv w) {i : Nat} {t : Timeout}
    (ht : w.timeouts[i]? = some t) : RouteInv (w.tellTimeout i t) := by
  have hsame : (tokens (w.tellTimeout i t)).Perm (tokens w) := by
    have hp := (perm_cons_eraseIdx ht).map Timeout.request
    have hmid : ((w.timeouts.eraseIdx i).map Timeout.request ++
        (w.log.deliveries.map Delivery.request ++ [t.request])).Perm
        (w.timeouts.map Timeout.request ++ w.log.deliveries.map Delivery.request) := by
      rw [← List.append_assoc]
      refine (List.perm_append_singleton _ _).trans ?_
      simpa using (hp.append_right (w.log.deliveries.map Delivery.request)).symm
    simpa [tokens, World.tellTimeout] using hmid.append_left (w.handlers.flatMap Handler.tokens)
  refine ⟨hi.keys, hi.next, hi.handlers, fun k req hk => ?_, fun x hx => ?_, fun d hd => ?_,
    hsame.nodup_iff.mpr hi.nodup⟩
  · exact ⟨(hi.pending k req hk).1, fun hm => (hi.pending k req hk).2 (hsame.mem_iff.mp hm)⟩
  · exact hi.timeouts x (List.mem_of_mem_eraseIdx hx)
  · rcases List.mem_append.mp hd with hd | hd
    · exact hi.deliveries d hd
    · rw [List.mem_singleton.mp hd]
      obtain ⟨key, hown⟩ := hi.timeouts t (List.mem_of_getElem? ht)
      exact ⟨key, hown, Or.inl ⟨rfl, rfl⟩⟩

/-! ## §5 Every run -/

/-- A started handler holds nothing yet. -/
theorem tokens_quiet {w w' : World} (hq : Quiet w w') : tokens w' = tokens w := by
  rcases hq.handlers with hh | ⟨c, msg, hh⟩
  · simp [tokens, hh, hq.timeouts, hq.log]
  · simp [tokens, hh, hq.timeouts, hq.log, Handler.tokens]

theorem RouteInv.step {w w' : World} {a : Act} (hi : RouteInv w) (h : w.step a = some w') :
    RouteInv w' := by
  obtain ⟨i, x, -, hx, rfl⟩ | ⟨now, -, -, rfl⟩ | ⟨i, t, -, ht, rfl⟩ | ⟨-, hq⟩ := step_cases h
  · exact hi.handlerStep hx
  · exact hi.collect now
  · exact hi.tellTimeout ht
  · refine hi.congr hq.pending hq.nextNewId (by rw [hq.log]) (by rw [hq.log]) hq.timeouts ?_
      (by rw [tokens_quiet hq])
    intro x hx
    rcases hq.handlers with hh | ⟨c, msg, hh⟩
    · exact hi.handlers x (hh ▸ hx)
    · rw [hh, List.mem_append, List.mem_singleton] at hx
      rcases hx with hx | rfl
      · exact hi.handlers x hx
      · trivial

theorem run_routeInv {acts : List Act} {w : World} (hrun : run World.step .init acts = some w) :
    RouteInv w :=
  run_invariant (fun _ _ _ hi h => hi.step h) .init hrun

/-- As long as `next_new_id` has not wrapped around, no two requests share a key. -/
theorem RouteInv.keys_nodup {w : World} (hi : RouteInv w)
    (hlen : w.log.requests.length < 2 ^ 32 - 1) : (w.log.requests.map Request.key).Nodup := by
  have hkeys : w.log.requests.map Request.key =
      (List.range w.log.requests.length).map fun i => UInt32.ofNat (i + 1) := by
    refine List.ext_getElem (by simp) fun i hi₁ hi₂ => ?_
    have hlt : i < w.log.requests.length := by simpa using hi₁
    simpa using hi.keys i _ (List.getElem?_eq_getElem hlt)
  rw [hkeys]
  refine List.Nodup.map_on (fun i hi₁ j hj heq => ?_) List.nodup_range
  have hi₁ := List.mem_range.mp hi₁
  have hj := List.mem_range.mp hj
  have hnat := congrArg UInt32.toNat heq
  rw [UInt32.toNat_ofNat_of_lt' (by simp [UInt32.size]; omega),
    UInt32.toNat_ofNat_of_lt' (by simp [UInt32.size]; omega)] at hnat
  omega

end EchoNet.Gateway
