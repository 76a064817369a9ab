import EchoNet.Gateway.Routing

/-!
# Completeness of Replies

A backend answers a pending request of a live client: the handler that runs for the answer
must pass it on, with the client's id restored.  Two branches of `business_handler` do not:
the early return for `HEARTBEAT_RESP`, which was written for the gateway's own probes (id 0)
and is taken for the answers to clients' heartbeats as well, and the test of `backend_fds`,
which sends the messages of a backend that is being unregistered down the client branch.

## Main result

`replies_iff`: every state of a run has all its answers passed on exactly when no step of the
run takes one of these two branches on such an answer.
-/

namespace EchoNet.Gateway

open EchoNet.Lib EchoNet.Protocol

open World

/-! ## §1 Answers and their conditions -/

/-- The handler's message is an answer of a backend to a pending request of a live client. -/
def Answers (w : World) (h : Handler) : Prop :=
  w.outbound h.conn = true ∧ ∃ req, w.pending.lookup h.msg.id = some req ∧
    w.alive req.clientConn = true

/-- A step that does not lose an answer: the handler of an answer finds its descriptor in
`backend_fds`, and the answer is no `HEARTBEAT_RESP`. -/
def AnswerOk (w : World) : Act → Prop
  | .handler i => ∀ h, w.handlers[i]? = some h → Answers w h →
      (h.pc = .start → w.isBackendFd h.conn = true) ∧
      (h.pc = .backendResponse → h.msg.type ≠ .heartbeatResp)
  | _ => True

instance (w : World) (h : Handler) : Decidable (Answers w h) :=
  decidable_of_iff (w.outbound h.conn = true ∧
      (w.pending.lookup h.msg.id).any (fun req => w.alive req.clientConn) = true)
    (by simp [Answers, Option.any_eq_true])

instance (w : World) : (a : Act) → Decidable (AnswerOk w a)
  | .handler i =>
    match hh : w.handlers[i]? with
    | none => isTrue (by simp [AnswerOk, hh])
    | some h =>
      decidable_of_iff (Answers w h → (h.pc = .start → w.isBackendFd h.conn = true) ∧
          (h.pc = .backendResponse → h.msg.type ≠ .heartbeatResp))
        (by simp [AnswerOk, hh])
  | .accept _ | .connect _ _ | .closeFd _ | .destroy _ | .receive _ _ | .addBackend | .insertFd
  | .removeBackends _ | .eraseFd | .healthPass | .cleanupBegin | .cleanupCollect | .cleanupSend _
  | .tick _ => isTrue trivial

theorem noteAnswer_of_not {w : World} {h : Handler} (hn : ¬ Answers w h) :
    w.noteAnswer h = w.log := by
  unfold World.noteAnswer
  split
  next req hk =>
    rw [if_neg]
    intro hb
    simp only [Bool.and_eq_true] at hb
    exact hn ⟨hb.1, req, hk, hb.2⟩
  next => rfl

theorem noteAnswer_of_answers {w : World} {h : Handler} {req : PendingRequest}
    (hout : w.outbound h.conn = true) (hk : w.pending.lookup h.msg.id = some req)
    (halive : w.alive req.clientConn = true) :
    w.noteAnswer h = { w.log with answered := w.log.answered ++
      [⟨req.request, req.clientConn, req.originalId, h.msg⟩] } := by
  simp [World.noteAnswer, hk, hout, halive]

/-- A handler is about to pass the answer on. -/
def InFlight (w : World) (r : Answered) : Prop :=
  ∃ h ∈ w.handlers, h.msg = r.message ∧ ∃ req, h.pc = .respond req ∧ req.request = r.request ∧
    req.clientConn = r.client ∧ req.originalId = r.originalId

/-- The answer has been passed to the client's `sendResponse`. -/
def Delivered (w : World) (r : Answered) : Prop :=
  ⟨r.client, { r.message with id := r.originalId }, r.request, some r.message⟩ ∈ w.log.deliveries

/-- What the client must get for an answer. -/
structure Replied (w : World) (r : Answered) : Prop where
  /-- the answer came under the key of a request of this client with this id -/
  request : ∃ m, w.log.requests[r.request]? = some m ∧ m.client = r.client ∧
    m.message.id = r.originalId ∧ m.key = r.message.id
  /-- a client that is still there has it, or a handler is about to send it -/
  sent : w.alive r.client = true → InFlight w r ∨ Delivered w r
  /-- nothing else is ever sent for the request, in particular no timeout -/
  only : ∀ d ∈ w.log.deliveries, d.request = r.request →
    d = ⟨r.client, { r.message with id := r.originalId }, r.request, some r.message⟩
  noTimeout : ∀ t ∈ w.timeouts, t.request ≠ r.request

def Replies (w : World) : Prop := ∀ r ∈ w.log.answered, Replied w r

/-! ## §2 Who holds a request -/

/-- A request is in `pending`, with a thread, or answered. -/
def Held (w : World) (request : Nat) : Prop :=
  request ∈ tokens w ∨ ∃ k req, w.pending.lookup k = some req ∧ req.request = request

theorem held_congr {w w' : World} {x : Nat} (hx : Held w' x) (hpending : w'.pending = w.pending)
    (htokens : ∀ x ∈ tokens w', x ∈ tokens w) : Held w x := by
  unfold Held at hx ⊢
  rw [hpending] at hx
  exact hx.imp_left (htokens x)

/-- After handler `i` has moved on, a token is its own new one or was there before. -/
theorem mem_tokens_goto {w w' : World} {i : Nat} {h : Handler} {x : Nat} (hx : x ∈ tokens w')
    (hh : w.handlers[i]? = some h) (pc : HandlerPc)
    (hhandlers : w'.handlers = w.handlers.set i { h with pc := pc })
    (htimeouts : w'.timeouts = w.timeouts) (hdeliveries : w'.log.deliveries = w.log.deliveries) :
    x ∈ { h with pc := pc }.tokens ∨ x ∈ tokens w := by
  have hsame : tokens w' = tokens (w.goto i h pc) := by
    simp [tokens, hhandlers, htimeouts, hdeliveries, World.goto]
  rw [hsame, (tokens_goto_perm hh pc).mem_iff] at hx
  exact (List.mem_append.mp hx).imp_right fun hx =>
    (tokens_perm hh).mem_iff.mpr (List.mem_append_right _ hx)

/-- After handler `i` has returned, a token is the one it delivered or was there before. -/
theorem mem_tokens_finish {w w' : World} {i : Nat} {h : Handler} {x : Nat} (hx : x ∈ tokens w')
    (hh : w.handlers[i]? = some h) (hhandlers : w'.handlers = w.handlers.eraseIdx i)
    (htimeouts : w'.timeouts = w.timeouts) {d : List Delivery}
    (hdeliveries : w'.log.deliveries = w.log.deliveries ++ d) :
    x ∈ d.map Delivery.request ∨ x ∈ tokens w := by
  have hsame : tokens w' = otherTokens w i ++ d.map Delivery.request := by
    simp [tokens, otherTokens, hhandlers, htimeouts, hdeliveries]
  rw [hsame, List.mem_append] at hx
  exact hx.symm.imp_right fun hx => (tokens_perm hh).mem_iff.mpr (List.mem_append_right _ hx)

/-- A handler that gets hold of nothing goes on. -/
private theorem held_goto {w w' : World} {i : Nat} {h : Handler} {x : Nat} (hx : Held w' x)
    (hh : w.handlers[i]? = some h) (pc : HandlerPc) (hnone : { h with pc := pc }.tokens = [])
    (hpending : w'.pending = w.pending)
    (hhandlers : w'.handlers = w.handlers.set i { h with pc := pc })
    (htimeouts : w'.timeouts = w.timeouts) (hdeliveries : w'.log.deliveries = w.log.deliveries) :
    Held w x :=
  held_congr hx hpending fun _ hy =>
    (mem_tokens_goto hy hh pc hhandlers htimeouts hdeliveries).resolve_left (by simp [hnone])

/-- A handler that delivers nothing returns. -/
private theorem held_finish {w w' : World} {i : Nat} {h : Handler} {x : Nat} (hx : Held w' x)
    (hh : w.handlers[i]? = some h) (hpending : w'.pending = w.pending)
    (hhandlers : w'.handlers = w.handlers.eraseIdx i) (htimeouts : w'.timeouts = w.timeouts)
    (hdeliveries : w'.log.deliveries = w.log.deliveries) : Held w x :=
  held_congr hx hpending fun _ hy =>
    (mem_tokens_finish (d := []) hy hh hhandlers htimeouts (by simp [hdeliveries])).resolve_left
      (by simp)

theorem held_handlerStep {w : World} {i : Nat} {h : Handler} (hh : w.handlers[i]? = some h)
    {x : Nat} (hx : Held (w.handlerStep i h) x) : Held w x ∨ x = w.log.requests.length := by
  have hown : ∀ y ∈ h.tokens, y ∈ tokens w := fun y hm =>
    (tokens_perm hh).mem_iff.mpr (List.mem_append_left _ hm)
  have hstep := w.handlerStep_cases i h
  generalize w.handlerStep i h = w' at hstep hx
  cases hstep with
  | fromBackend hpc hfd =>
    exact Or.inl (held_goto hx hh .backendResponse (by simp [Handler.tokens]) rfl rfl rfl rfl)
  | fromClient hpc hfd =>
    exact Or.inl
      (held_goto hx hh .clientRequest (by simp [Handler.tokens]) rfl rfl rfl (by simp))
  | pong hpc htype => exact Or.inl (held_finish hx hh rfl rfl rfl (by simp))
  | found req hpc htype hk =>
    -- the entry goes from the table to the handler
    rcases hx with hx | ⟨k, req', hk', rfl⟩
    · rcases mem_tokens_goto hx hh (.respond req) rfl rfl (by simp) with hx | hx
      · exact Or.inl (Or.inr ⟨_, req, hk, by simpa [Handler.tokens, eq_comm] using hx⟩)
      · exact Or.inl (Or.inl hx)
    · have hne : k ≠ h.msg.id := by
        rintro rfl
        simp at hk'
      rw [AList.lookup_erase_ne hne] at hk'
      exact Or.inl (Or.inr ⟨k, req', hk', rfl⟩)
  | unknown hpc htype hk => exact Or.inl (held_finish hx hh rfl rfl rfl rfl)
  | delivered req hpc halive =>
    refine Or.inl (held_congr hx rfl fun y hy => ?_)
    rcases mem_tokens_finish hy hh rfl rfl rfl with hy | hy
    · exact hown y (by simpa [Handler.tokens, hpc] using hy)
    · exact hy
  | dropped req hpc halive => exact Or.inl (held_finish hx hh rfl rfl rfl rfl)
  | picked rr bs backend hpc hpick =>
    exact Or.inl (held_goto hx hh (.allocate backend) (by simp [Handler.tokens]) rfl rfl rfl rfl)
  | noBackend rr bs hpc hpick => exact Or.inl (held_finish hx hh rfl rfl rfl rfl)
  | allocated backend hpc =>
    rcases hx with hx | hx
    · rcases mem_tokens_goto hx hh (.record backend w.nextNewId w.log.requests.length) rfl rfl rfl
        with hx | hx
      · exact Or.inr (by simpa [Handler.tokens] using hx)
      · exact Or.inl (Or.inl hx)
    · exact Or.inl (Or.inr hx)
  | recorded backend newId request hpc =>
    rcases hx with hx | ⟨k, req, hk, rfl⟩
    · have htoken := mem_tokens_goto hx hh (.forward backend newId) rfl rfl rfl
      exact Or.inl (Or.inl (htoken.resolve_left (by simp [Handler.tokens])))
    · by_cases hkey : k = newId
      · subst hkey
        simp only [AList.lookup_insert, Option.some.injEq] at hk
        subst hk
        exact Or.inl (Or.inl (hown _ (by simp [Handler.tokens, hpc])))
      · rw [AList.lookup_insert_ne hkey] at hk
        exact Or.inl (Or.inr ⟨k, req, hk, rfl⟩)
  | forwarded backend newId hpc => exact Or.inl (held_finish hx hh rfl rfl rfl rfl)

theorem held_collect {w : World} (now : Nat) {x : Nat} (hx : Held (w.collect now) x) :
    Held w x := by
  rcases hx with hx | ⟨k, req, hk, rfl⟩
  · simp only [tokens, List.mem_append] at hx
    rcases hx with (hx | hx) | hx
    · exact Or.inl (by simp only [tokens, List.mem_append]; exact Or.inl (Or.inl hx))
    · obtain ⟨t, ht, rfl⟩ := List.mem_map.mp hx
      obtain ⟨e, he, rfl⟩ := List.mem_map.mp ht
      exact Or.inr ⟨e.1, e.2, mem_expiredEntries (List.mem_filter.mp he).1, rfl⟩
    · exact Or.inl (by simp only [tokens, List.mem_append]; exact Or.inr hx)
  · exact Or.inr ⟨k, req, (lookup_foldl_erase hk).1, rfl⟩

theorem held_tellTimeout {w : World} {i : Nat} {t : Timeout} (ht : w.timeouts[i]? = some t)
    {x : Nat} (hx : Held (w.tellTimeout i t) x) : Held w x := by
  refine held_congr hx rfl fun y hy => ?_
  simp only [tokens, World.tellTimeout, List.map_append, List.mem_append, List.map_cons,
    List.map_nil, List.mem_singleton] at hy ⊢
  rcases hy with (hy | hy) | hy | rfl
  · exact Or.inl (Or.inl hy)
  · obtain ⟨t', ht', rfl⟩ := List.mem_map.mp hy
    exact Or.inl (Or.inr (List.mem_map_of_mem (List.mem_of_mem_eraseIdx ht')))
  · exact Or.inr hy
  · exact Or.inl (Or.inr (List.mem_map_of_mem (List.mem_of_getElem? ht)))

/-! ## §3 What a handler's step leaves -/

/-- The parts of the world that a step of handler `i` keeps. -/
structure HandlerFrame (w : World) (i : Nat) (w' : World) : Prop where
  conns : w'.conns = w.conns
  requests : w.log.requests <+: w'.log.requests
  deliveries : ∀ d ∈ w.log.deliveries, d ∈ w'.log.deliveries
  others : ∀ x ∈ w.handlers.eraseIdx i, x ∈ w'.handlers

private theorem mem_set_of_mem_eraseIdx {w : World} {i : Nat} {h : Handler}
    (hh : w.handlers[i]? = some h) {x y : Handler} (hx : x ∈ w.handlers.eraseIdx i) :
    x ∈ w.handlers.set i y :=
  (set_perm_cons_eraseIdx hh y).mem_iff.mpr (List.mem_cons_of_mem _ hx)

theorem handlerStep_frame {w : World} {i : Nat} {h : Handler} (hh : w.handlers[i]? = some h) :
    HandlerFrame w i (w.handlerStep i h) := by
  have hset : ∀ y, ∀ x ∈ w.handlers.eraseIdx i, x ∈ w.handlers.set i y := fun y x hx =>
    mem_set_of_mem_eraseIdx hh hx
  have hstep := w.handlerStep_cases i h
  generalize w.handlerStep i h = w' at hstep ⊢
  cases hstep with
  | fromBackend hpc hfd => exact ⟨rfl, List.prefix_refl _, fun _ hd => hd, hset _⟩
  | fromClient hpc hfd => exact ⟨rfl, by simp, by simp, hset _⟩
  | pong hpc htype => exact ⟨rfl, by simp, by simp, fun _ hx => hx⟩
  | found req hpc htype hk => exact ⟨rfl, by simp, by simp, hset _⟩
  | delivered req hpc halive =>
    exact ⟨rfl, List.prefix_refl _, fun _ hd => List.mem_append_left _ hd, fun _ hx => hx⟩
  | picked rr bs backend hpc hpick => exact ⟨rfl, List.prefix_refl _, fun _ hd => hd, hset _⟩
  | allocated backend hpc => exact ⟨rfl, List.prefix_append _ _, fun _ hd => hd, hset _⟩
  | recorded backend newId request hpc =>
    exact ⟨rfl, List.prefix_refl _, fun _ hd => hd, hset _⟩
  -- the other branches return and deliver nothing
  | _ => exact ⟨rfl, List.prefix_refl _, fun _ hd => hd, fun _ hx => hx⟩

/-! ## §4 Settled answers stay settled -/

/-- The client is gone, and nobody has the request any more. -/
def Gone (w : World) (r : Answered) : Prop :=
  r.client < w.conns.length ∧ w.alive r.client = false ∧ r.request < w.log.requests.length ∧
    ¬ Held w r.request

def Settled (w : World) (r : Answered) : Prop := InFlight w r ∨ Delivered w r ∨ Gone w r

/-- An answer that can be accounted for. -/
def Accounted (w : World) (r : Answered) : Prop :=
  Settled w r ∧ r.client < w.conns.length ∧
    Owns w.log.requests r.request r.client r.originalId r.message.id

/-- Accounted answers stay accounted when handlers, deliveries and requests only grow and
nobody gets hold of a request that was let go. -/
theorem Accounted.mono {w w' : World} {r : Answered} (ha : Accounted w r)
    (hflight : InFlight w r → Settled w' r)
    (hdeliveries : ∀ d ∈ w.log.deliveries, d ∈ w'.log.deliveries)
    (hrequests : w.log.requests <+: w'.log.requests) (hconns : w.conns.length ≤ w'.conns.length)
    (halive : r.client < w.conns.length → w'.alive r.client = true → w.alive r.client = true)
    (hheld : ∀ x, x < w.log.requests.length → Held w' x → Held w x) : Accounted w' r := by
  obtain ⟨hs, hclient, hown⟩ := ha
  refine ⟨?_, hclient.trans_le hconns, hown.of_prefix hrequests⟩
  rcases hs with hf | hd | ⟨-, hdead, hlt, hnot⟩
  · exact hflight hf
  · exact Or.inr (Or.inl (hdeliveries _ hd))
  · refine Or.inr (Or.inr ⟨hclient.trans_le hconns, ?_, hlt.trans_le hrequests.length_le,
      fun hx => hnot (hheld _ hlt hx)⟩)
    by_contra hne
    simp [halive hclient (by simpa using hne)] at hdead

/-- The handler that has the answer passes it on, or finds the client gone. -/
theorem settled_respond {w : World} (hi : RouteInv w) {i : Nat} {h : Handler}
    {req : PendingRequest} {r : Answered} (hh : w.handlers[i]? = some h)
    (hpc : h.pc = .respond req) (hmsg : h.msg = r.message) (hreq : req.request = r.request)
    (hclient : req.clientConn = r.client) (hid : req.originalId = r.originalId)
    (hlt : r.client < w.conns.length)
    (hown : Owns w.log.requests r.request r.client r.originalId r.message.id) :
    Settled (w.handlerStep i h) r := by
  have hstep := w.handlerStep_cases i h
  generalize w.handlerStep i h = w' at hstep ⊢
  cases hstep with
  | delivered req' hpc' halive =>
    obtain rfl : req' = req := HandlerPc.respond.inj (hpc'.symm.trans hpc)
    refine Or.inr (Or.inl ?_)
    simp [Delivered, hmsg, hreq, hclient, hid]
  | dropped req' hpc' halive =>
    obtain rfl : req' = req := HandlerPc.respond.inj (hpc'.symm.trans hpc)
    refine Or.inr (Or.inr ⟨hlt, hclient ▸ halive, hown.lt, ?_⟩)
    have htok := tokens_perm hh
    simp only [Handler.tokens, hpc, hreq, List.singleton_append] at htok
    have hnodup := List.nodup_cons.mp (htok.nodup_iff.mp hi.nodup)
    rintro (hx | ⟨k, req'', hk, hx⟩)
    · exact hnodup.1 hx
    · refine (hi.pending k req'' hk).2 ?_
      rw [hx]
      exact htok.mem_iff.mpr (List.mem_cons_self ..)
  | _ => simp_all only [reduceCtorEq]

theorem accounted_handlerStep {w : World} (hi : RouteInv w) {i : Nat} {h : Handler}
    (hh : w.handlers[i]? = some h) {r : Answered} (ha : Accounted w r) :
    Accounted (w.handlerStep i h) r := by
  have hf := handlerStep_frame hh
  have ⟨_, hlt, hown⟩ := ha
  refine ha.mono (fun hflight => ?_) hf.deliveries hf.requests (by rw [hf.conns]) ?_ ?_
  · obtain ⟨x, hx, hmsg, req, hpc, hreq, hclient, hid⟩ := hflight
    rcases List.mem_cons.mp ((perm_cons_eraseIdx hh).mem_iff.mp hx) with rfl | hx
    · exact settled_respond hi hh hpc hmsg hreq hclient hid hlt hown
    · exact Or.inl ⟨x, hf.others x hx, hmsg, req, hpc, hreq, hclient, hid⟩
  · intro _ halive
    simpa [World.alive, hf.conns] using halive
  · intro x hx hheld
    exact (held_handlerStep hh hheld).resolve_right (by omega)

theorem accounted_collect {w : World} (now : Nat) {r : Answered} (ha : Accounted w r) :
    Accounted (w.collect now) r :=
  ha.mono Or.inl (fun _ hd => hd) (List.prefix_refl _) (le_refl _) (fun _ h => h)
    (fun _ _ hx => held_collect now hx)

theorem accounted_tellTimeout {w : World} {i : Nat} {t : Timeout} (ht : w.timeouts[i]? = some t)
    {r : Answered} (ha : Accounted w r) : Accounted (w.tellTimeout i t) r :=
  ha.mono Or.inl (fun _ hd => List.mem_append_left _ hd) (List.prefix_refl _) (le_refl _)
    (fun _ h => h) (fun _ _ hx => held_tellTimeout ht hx)

theorem accounted_quiet {w w' : World} (hq : Quiet w w') {r : Answered} (ha : Accounted w r) :
    Accounted w' r := by
  have hkept : ∀ x ∈ w.handlers, x ∈ w'.handlers := by
    intro x hx
    rcases hq.handlers with hh | ⟨c, msg, hh⟩
    · exact hh ▸ hx
    · exact hh ▸ List.mem_append_left _ hx
  refine ha.mono (fun ⟨x, hx, hrest⟩ => Or.inl ⟨x, hkept x hx, hrest⟩) (by simp [hq.log])
    (by simp [hq.log]) hq.conns (hq.alive _) fun x _ hx => ?_
  exact held_congr hx hq.pending (by simp [tokens_quiet hq])

/-! ## §5 New answers -/

theorem lt_length_of_alive {w : World} {c : ConnId} (h : w.alive c = true) :
    c < w.conns.length := by
  by_contra hge
  simp [World.alive, List.getElem?_eq_none (Nat.le_of_not_lt hge)] at h

/-- The handler of an answer takes it, unless one of the two branches loses it. -/
theorem answered_handlerStep {w : World} (hi : RouteInv w) {i : Nat} {h : Handler}
    (hh : w.handlers[i]? = some h) (hok : AnswerOk w (.handler i)) :
    ∀ r ∈ (w.handlerStep i h).log.answered,
      r ∈ w.log.answered ∨ Accounted (w.handlerStep i h) r := by
  have hkeep : ¬ Answers w h → ∀ r ∈ (w.noteAnswer h).answered, r ∈ w.log.answered := by
    intro hn r hr
    rwa [noteAnswer_of_not hn] at hr
  have hstep := w.handlerStep_cases i h
  generalize w.handlerStep i h = w' at hstep ⊢
  cases hstep with
  | fromClient hpc hfd =>
    have hn : ¬ Answers w h := fun ha => by simp [(hok h hh ha).1 hpc] at hfd
    exact fun r hr => Or.inl (hkeep hn r hr)
  | pong hpc htype =>
    have hn : ¬ Answers w h := fun ha => (hok h hh ha).2 hpc htype
    exact fun r hr => Or.inl (hkeep hn r hr)
  | found req hpc htype hk =>
    by_cases ha : w.outbound h.conn = true ∧ w.alive req.clientConn = true
    · rw [noteAnswer_of_answers ha.1 hk ha.2]
      intro r hr
      rcases List.mem_append.mp hr with hr | hr
      · exact Or.inl hr
      · rw [List.mem_singleton.mp hr]
        refine Or.inr ⟨Or.inl ⟨{ h with pc := .respond req }, ?_, rfl, req, rfl, rfl, rfl, rfl⟩,
          ?_, (hi.pending _ _ hk).1⟩
        · exact List.mem_set (List.getElem?_eq_some_iff.mp hh).1 _
        · exact lt_length_of_alive ha.2
    · have hn : ¬ Answers w h := by
        rintro ⟨hout, req', hk', halive⟩
        rw [hk, Option.some.injEq] at hk'
        exact ha ⟨hout, hk' ▸ halive⟩
      exact fun r hr => Or.inl (hkeep hn r hr)
  -- the other branches record no answer
  | _ => exact fun r hr => Or.inl hr

/-- Every answer is accounted for. -/
def ReplyInv (w : World) : Prop := ∀ r ∈ w.log.answered, Accounted w r

theorem ReplyInv.step {w w' : World} {a : Act} (hi : RouteInv w) (hr : ReplyInv w)
    (hok : AnswerOk w a) (h : w.step a = some w') : ReplyInv w' := by
  obtain ⟨i, x, rfl, hx, rfl⟩ | ⟨now, -, -, rfl⟩ | ⟨i, t, -, ht, rfl⟩ | ⟨-, hq⟩ := step_cases h
  · intro r hr'
    rcases answered_handlerStep hi hx hok r hr' with hold | hnew
    · exact accounted_handlerStep hi hx (hr r hold)
    · exact hnew
  · exact fun r hr' => accounted_collect now (hr r hr')
  · exact fun r hr' => accounted_tellTimeout ht (hr r hr')
  · exact fun r hr' => accounted_quiet hq (hr r (hq.log ▸ hr'))

/-! ## §6 Whole runs -/

/-- An accounted answer reaches its client, and nothing else does for that request. -/
theorem Accounted.replied {w : World} (hi : RouteInv w) {r : Answered} (ha : Accounted w r) :
    Replied w r := by
  obtain ⟨hs, -, hown⟩ := ha
  have hparts := List.nodup_append'.mp hi.nodup
  have htimeouts : ∀ t ∈ w.timeouts, t.request ∈ tokens w := fun t ht =>
    List.mem_append_left _ (List.mem_append_right _ (List.mem_map_of_mem ht))
  refine ⟨hown, fun halive => ?_, fun d hd heq => ?_, fun t ht heq => ?_⟩
  · rcases hs with hf | hd | ⟨-, hdead, -⟩
    · exact Or.inl hf
    · exact Or.inr hd
    · simp [halive] at hdead
  · have hd' : r.request ∈ w.log.deliveries.map Delivery.request := heq ▸ List.mem_map_of_mem hd
    rcases hs with ⟨x, hx, -, req, hpc, hreq, -, -⟩ | hdel | ⟨-, -, -, hnot⟩
    · -- the request cannot be with a handler and delivered as well
      have hx' : r.request ∈ w.handlers.flatMap Handler.tokens :=
        List.mem_flatMap.mpr ⟨x, hx, by simp [Handler.tokens, hpc, hreq]⟩
      exact absurd hd' (hparts.2.2 (List.mem_append_left _ hx'))
    · exact List.inj_on_of_nodup_map hparts.2.1 hd hdel heq
    · exact absurd (Or.inl (List.mem_append_right _ hd')) hnot
  · have ht' : r.request ∈ w.timeouts.map Timeout.request := heq ▸ List.mem_map_of_mem ht
    have hfirst := List.nodup_append'.mp hparts.1
    rcases hs with ⟨x, hx, -, req, hpc, hreq, -, -⟩ | hdel | ⟨-, -, -, hnot⟩
    · have hx' : r.request ∈ w.handlers.flatMap Handler.tokens :=
        List.mem_flatMap.mpr ⟨x, hx, by simp [Handler.tokens, hpc, hreq]⟩
      exact hfirst.2.2 hx' ht'
    · exact hparts.2.2 (List.mem_append_right _ ht') (List.mem_map_of_mem hdel)
    · exact hnot (Or.inl (heq ▸ htimeouts t ht))

/-- A request that is still in `pending` has not been answered. -/
private theorem not_replies_of_pending {w w' : World} (hi : RouteInv w) {k : UInt32}
    {req : PendingRequest} (hk : w.pending.lookup k = some req) {m : MyMessage}
    (halive : w'.alive req.clientConn = true)
    (hanswered : ⟨req.request, req.clientConn, req.originalId, m⟩ ∈ w'.log.answered)
    (hdeliveries : w'.log.deliveries = w.log.deliveries)
    (hhandlers : ∀ x ∈ w'.handlers, ∀ req', x.pc = .respond req' → x ∈ w.handlers) :
    ¬ Replies w' := by
  intro hr
  have hfresh := (hi.pending k req hk).2
  rcases (hr _ hanswered).sent halive with ⟨x, hx, -, req', hpc, hreq, -, -⟩ | hd
  · refine hfresh (List.mem_append_left _ (List.mem_append_left _ ?_))
    exact List.mem_flatMap.mpr ⟨x, hhandlers x hx req' hpc, by simp [Handler.tokens, hpc, hreq]⟩
  · refine hfresh (List.mem_append_right _ ?_)
    unfold Delivered at hd
    rw [hdeliveries] at hd
    exact List.mem_map_of_mem (f := Delivery.request) hd

/-- A step that takes one of the two branches on an answer loses it. -/
theorem not_replies_of_not_answerOk {w w' : World} {a : Act} (hi : RouteInv w)
    (hn : ¬ AnswerOk w a) (h : w.step a = some w') : ¬ Replies w' := by
  obtain ⟨i, x, rfl, hx, rfl⟩ | ⟨now, rfl, -, rfl⟩ | ⟨i, t, rfl, ht, rfl⟩ | ⟨hne, -⟩ := step_cases h
  · simp only [AnswerOk, not_forall] at hn
    obtain ⟨h', hh', ⟨hout, req, hk, halive⟩, hbranch⟩ := hn
    rw [hx, Option.some.injEq] at hh'
    subst hh'
    have hnote := noteAnswer_of_answers hout hk halive
    have hstep := w.handlerStep_cases i x
    generalize w.handlerStep i x = w' at hstep ⊢
    cases hstep with
    | fromClient hpc hfd =>
      rw [hnote]
      refine not_replies_of_pending (w := w) hi hk (m := x.msg) halive
        (List.mem_append_right _ (List.mem_singleton_self _)) rfl fun y hy req' hy' => ?_
      rcases List.mem_or_eq_of_mem_set hy with hy | rfl
      · exact hy
      · cases hy'
    | pong hpc htype =>
      rw [hnote]
      exact not_replies_of_pending (w := w) hi hk (m := x.msg) halive
        (List.mem_append_right _ (List.mem_singleton_self _)) rfl fun y hy _ _ =>
          List.mem_of_mem_eraseIdx hy
    | _ => simp [*] at hbranch
  · exact absurd trivial hn
  · exact absurd trivial hn
  · cases a <;> first | exact absurd trivial hn | exact absurd rfl (hne _)

/-- **Reply completeness of the gateway**: along a run, every answer of a backend to a pending
request of a client that is still there is passed on with the client's id, and no timeout is
ever sent for that request, exactly when every handler of such an answer finds the
descriptor in `backend_fds` and no such answer is a `HEARTBEAT_RESP`. -/
theorem replies_iff (acts : List Act) (w : World) (hrun : run World.step .init acts = some w) :
    (∀ pre, pre <+: acts → ∀ v, run World.step .init pre = some v → Replies v) ↔
      Meets World.step AnswerOk .init acts := by
  rw [meets_iff_forall_step hrun]
  constructor
  · intro hall pre a post heq v hv
    by_contra hn
    have hrun' : run World.step .init ((pre ++ [a]) ++ post) = some w := by
      rw [List.append_assoc, List.singleton_append, ← heq]
      exact hrun
    obtain ⟨u, hu, -⟩ := run_append.mp hrun'
    obtain ⟨v', hv', hstep⟩ := run_append.mp hu
    rw [hv, Option.some.injEq] at hv'
    subst hv'
    obtain ⟨u', hstep, hnil⟩ := run_cons_eq_some.mp hstep
    cases hnil
    refine not_replies_of_not_answerOk (run_routeInv hv) hn hstep (hall (pre ++ [a]) ?_ u hu)
    exact ⟨post, by simp [heq]⟩
  · rintro hall pre ⟨post, rfl⟩ v hv
    have hmeets : Meets World.step AnswerOk .init pre :=
      (meets_iff_forall_step hv).mpr fun p a q heq u hu =>
        hall p a (q ++ post) (by simp [heq]) u hu
    obtain ⟨hi, hr⟩ := run_invariant_of_meets (P := fun w => RouteInv w ∧ ReplyInv w)
      (fun _ _ _ hi hG h => ⟨hi.1.step h, hi.2.step hi.1 hG h⟩)
      ⟨.init, by simp [ReplyInv, World.init]⟩ hmeets hv
    exact fun r hr' => (hr r hr').replied hi

/-- A login and its answer. -/
def answeredLogin : List Act :=
  [Act.accept 5, .connect "127.0.0.1:9001" 7, .addBackend, .insertFd] ++
    Act.receive 0 ⟨.loginReq, 1, []⟩ :: List.replicate 5 (.handler 0) ++
    Act.receive 1 ⟨.loginResp, 1, []⟩ :: List.replicate 3 (.handler 0)

theorem replies_iff_login :
    ∃ w, run World.step .init answeredLogin = some w ∧
      w.log.answered = [⟨0, 0, 1, ⟨.loginResp, 1, []⟩⟩] ∧ Replies w := by
  have hlast : ((run World.step .init answeredLogin).any fun w =>
      decide (w.log.answered = [⟨0, 0, 1, ⟨.loginResp, 1, []⟩⟩])) = true := by
    decide
  have hmeets : Meets World.step AnswerOk .init answeredLogin := by decide
  obtain ⟨w, hw, hlast⟩ := exists_of_run_any hlast
  exact ⟨w, hw, of_decide_eq_true hlast,
    (replies_iff answeredLogin w hw).mpr hmeets answeredLogin (List.prefix_refl _) w hw⟩

/-- A heartbeat of a client and its answer, then 31 seconds and a cleanup pass. -/
def answeredHeartbeat : List Act :=
  [Act.accept 5, .connect "127.0.0.1:9001" 7, .addBackend, .insertFd] ++
    Act.receive 0 ⟨.heartbeatReq, 1, []⟩ :: List.replicate 5 (.handler 0) ++
    Act.receive 1 ⟨.heartbeatResp, 1, []⟩ :: List.replicate 2 (.handler 0) ++
    [Act.tick 31000000000, .cleanupBegin, .cleanupCollect, .cleanupSend 0]

/-- The backend has answered while the entry was pending and the client connected, and all
the client ever gets is the timeout. -/
theorem heartbeat_answer_lost :
    ∃ w, run World.step .init answeredHeartbeat = some w ∧
      ⟨0, 0, 1, ⟨.heartbeatResp, 1, []⟩⟩ ∈ w.log.answered ∧ w.alive 0 = true ∧
      w.log.deliveries = [⟨0, timeoutMessage 1, 0, none⟩] ∧ ¬ Replies w := by
  have hlast : ((run World.step .init answeredHeartbeat).any fun w =>
      decide (⟨0, 0, 1, ⟨.heartbeatResp, 1, []⟩⟩ ∈ w.log.answered ∧ w.alive 0 = true ∧
        w.log.deliveries = [⟨0, timeoutMessage 1, 0, none⟩])) = true := by
    decide
  obtain ⟨w, hw, hlast⟩ := exists_of_run_any hlast
  obtain ⟨hanswered, halive, hsent⟩ := of_decide_eq_true hlast
  refine ⟨w, hw, hanswered, halive, hsent, fun hr => ?_⟩
  have honly := (hr _ hanswered).only ⟨0, timeoutMessage 1, 0, none⟩ (by simp [hsent]) rfl
  simp at honly

end EchoNet.Gateway
