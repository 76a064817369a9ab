import EchoNet.Gateway.Direction
import EchoNet.Gateway.Routing

/-!
# Routing Soundness

A request may be answered by a message under its key, and the handler of that message looks up
the key if it takes the message for a backend's.  So the routing is sound if the keys are distinct,
no request is answered twice, and what is taken for a backend's message came on a connection that
the gateway has opened.

## Main results

- `tells_of_step`: what a step tells the clients;
- `Sourced.step`: whatever is handled as an answer came on a connection to a backend;
- `routing_sound`: every message sent to a client answers a distinct earlier request of that
  client, under the id the client used.
-/

namespace EchoNet.Gateway

open EchoNet.Lib EchoNet.Protocol

/-! ## §1 What is sent to clients -/

/-- A step tells the clients nothing, or one of them that its request has timed out, or a handler
passes an answer on. -/
inductive Tells (w w' : World) : Prop where
  | nothing (hdeliveries : w'.log.deliveries = w.log.deliveries)
      (hsources : w'.log.sources = w.log.sources)
  | timeout (d : Delivery) (hd : d.answer = none)
      (hdeliveries : w'.log.deliveries = w.log.deliveries ++ [d])
      (hsources : w'.log.sources = w.log.sources)
  | answer (h : Handler) (hh : h ∈ w.handlers) (req : PendingRequest) (hpc : h.pc = .respond req)
      (d : Delivery) (hd : d.answer = some h.msg)
      (hdeliveries : w'.log.deliveries = w.log.deliveries ++ [d])
      (hsources : w'.log.sources = w.log.sources ++ [(d.request, h.conn)])

theorem tells_of_handlerStep {w : World} {i : Nat} {h : Handler} (hh : w.handlers[i]? = some h) :
    Tells w (w.handlerStep i h) := by
  have hstep := w.handlerStep_cases i h
  generalize w.handlerStep i h = w' at hstep ⊢
  cases hstep with
  | delivered req hpc halive =>
    exact .answer h (List.mem_of_getElem? hh) req hpc
      ⟨req.clientConn, { h.msg with id := req.originalId }, req.request, some h.msg⟩ rfl rfl rfl
  -- the others write nothing but history
  | fromClient hpc hfd => exact .nothing (by simp) (by simp)
  | pong hpc htype => exact .nothing (by simp) (by simp)
  | found req hpc htype hk => exact .nothing (by simp) (by simp)
  | _ => exact .nothing rfl rfl

theorem tells_of_step {w w' : World} {a : Act} (h : w.step a = some w') : Tells w w' := by
  obtain ⟨i, x, -, hx, rfl⟩ | ⟨now, -, -, rfl⟩ | ⟨i, t, -, ht, rfl⟩ | ⟨-, hq⟩ := World.step_cases h
  · exact tells_of_handlerStep hx
  · exact .nothing rfl rfl
  · exact .timeout ⟨t.client, timeoutMessage t.originalId, t.request, none⟩ rfl rfl rfl
  · exact .nothing (by rw [hq.log]) (by rw [hq.log])

/-- The requests that were answered. -/
def answeredRequests (w : World) : List Nat :=
  (w.log.deliveries.filter fun d => d.answer.isSome).map Delivery.request

/-- Each answer that is passed on has its connection in the log. -/
theorem sources_of_step {w w' : World} {a : Act}
    (hw : w.log.sources.map Prod.fst = answeredRequests w) (h : w.step a = some w') :
    w'.log.sources.map Prod.fst = answeredRequests w' := by
  unfold answeredRequests at hw ⊢
  cases tells_of_step h with
  | nothing hdeliveries hsources => rw [hdeliveries, hsources, hw]
  | timeout d hd hdeliveries hsources =>
    rw [hdeliveries, hsources, hw]
    simp [hd]
  | answer x hx req hpc d hd hdeliveries hsources =>
    rw [hdeliveries, hsources, List.map_append, hw]
    simp [hd]

theorem run_sources {acts : List Act} {w : World} (hrun : run World.step .init acts = some w) :
    w.log.sources.map Prod.fst = answeredRequests w :=
  run_invariant (fun _ _ _ hw h => sources_of_step hw h) rfl hrun

namespace Supervised

/-! ## §2 Where the answers come from -/

/-- What handlers take for backends' messages, and what was passed on, came from backends. -/
structure Sourced (w : World) : Prop where
  handlers : ∀ h ∈ w.handlers, h.pc.direction = some true → w.outbound h.conn = true
  sources : ∀ x ∈ w.log.sources, w.outbound x.2 = true

theorem Sourced.init : Sourced World.init := by
  constructor <;> simp [World.init]

/-- Connections keep their kind. -/
private theorem Sourced.of_outbound {w w' : World}
    (hhandlers : ∀ x ∈ w'.handlers, x.pc.direction = some true → w.outbound x.conn = true)
    (hsources : ∀ x ∈ w'.log.sources, w.outbound x.2 = true)
    (hout : ∀ c, w.outbound c = true → w'.outbound c = true) : Sourced w' where
  handlers := fun x hx hdir => hout _ (hhandlers x hx hdir)
  sources := fun x hx => hout _ (hsources x hx)

/-- The lookup at the start of a handler finds a backend's descriptor only. -/
theorem outbound_of_isBackendFd {s : Supervised} (h : Inv s) (hf : FdInv s.gateway) {c : ConnId}
    (hc : s.gateway.isOpen c = true) (hfd : s.gateway.isBackendFd c = true) :
    s.gateway.outbound c = true :=
  h.outbound_of_live ((isBackendFd_iff h hf hc).mp hfd).live

/-- The handlers after a step of the clients and the other threads. -/
private theorem sourced_handlers {s : Supervised} (h : Inv s) (hf : FdInv s.gateway)
    (hw : Sourced s.gateway) {w : World} {a : Gateway.Act} (heffect : Elsewhere s.gateway w a) :
    ∀ x ∈ w.handlers, x.pc.direction = some true → s.gateway.outbound x.conn = true := by
  intro x hx hdir
  cases heffect with
  | @handler i y hy hmoves =>
    have hmem := List.mem_of_getElem? hy
    obtain ⟨herase, -⟩ | ⟨pc, hset, hpc⟩ := hmoves.handlers
    · rw [herase] at hx
      exact hw.handlers x (List.mem_of_mem_eraseIdx hx) hdir
    · rw [hset] at hx
      cases List.mem_or_eq_of_mem_set hx with
      | inl hx => exact hw.handlers x hx hdir
      | inr hx =>
        subst hx
        -- it goes on in its direction, or has just looked the descriptor up
        rw [hpc, Option.some.injEq] at hdir
        cases hold : y.pc.direction with
        | none =>
          rw [hold, Option.getD_none] at hdir
          exact outbound_of_isBackendFd h hf (h.handlers y hmem) hdir
        | some d =>
          rw [hold, Option.getD_some] at hdir
          exact hw.handlers y hmem (hdir ▸ hold)
  | receive hconns hhandlers =>
    rw [hhandlers] at hx
    cases List.mem_append.mp hx with
    | inl hx => exact hw.handlers x hx hdir
    | inr hx =>
      rw [List.mem_singleton.mp hx] at hdir
      cases hdir
  | accept hfree hconns hhandlers => exact hw.handlers x (hhandlers ▸ hx) hdir
  | closeFd hconns hhandlers => exact hw.handlers x (hhandlers ▸ hx) hdir
  | destroy hheld hconns hhandlers => exact hw.handlers x (hhandlers ▸ hx) hdir
  | other hne hconns hhandlers => exact hw.handlers x (hhandlers ▸ hx) hdir

theorem Sourced.step {s t : Supervised} {a : Act} (h : Inv s) (hf : FdInv s.gateway)
    (hw : Sourced s.gateway) (hstep : s.step a = some t) : Sourced t.gateway := by
  by_cases hgateway : ∀ b, a ≠ .gateway b
  · obtain ⟨hhandlers, hlog, hout⟩ := handlers_of_monitor_step h hgateway hstep
    apply Sourced.of_outbound (w := s.gateway)
    · rw [hhandlers]
      exact hw.handlers
    · rw [hlog]
      exact hw.sources
    · intro c hc
      rw [hout c (World.lt_of_outbound hc), hc]
  cases step_cases hstep with
  | @gateway b w hstarted hallows hb =>
    obtain ⟨-, heffect⟩ := elsewhere_of_step hallows hb
    apply Sourced.of_outbound (sourced_handlers h hf hw heffect)
    · intro x hx
      cases tells_of_step hb with
      | nothing hdeliveries hsources => exact hw.sources x (hsources ▸ hx)
      | timeout d hd hdeliveries hsources => exact hw.sources x (hsources ▸ hx)
      | answer y hy req hpc d hd hdeliveries hsources =>
        rw [hsources] at hx
        cases List.mem_append.mp hx with
        | inl hx => exact hw.sources x hx
        -- the handler that passes the answer on has taken it for a backend's
        | inr hx =>
          rw [List.mem_singleton.mp hx]
          exact hw.handlers y hy (by rw [hpc]; rfl)
    · intro c hc
      rw [(identity_of_elsewhere heffect (World.lt_of_outbound hc)).1, hc]
  | _ => exact absurd (fun b => by simp) hgateway

/-! ## §3 Every run -/

theorem run_sourced {acts : List Act} {s : Supervised} (hrun : run step init acts = some s)
    (hinserted : Meets step RemovesInserted init acts) : Sourced s.gateway := by
  have hall : Inv s ∧ FdInv s.gateway ∧ Sourced s.gateway := by
    refine run_invariant_of_meets (G := RemovesInserted)
      (P := fun v => Inv v ∧ FdInv v.gateway ∧ Sourced v.gateway)
      (fun v a v' hv hok h => ?_) ⟨.init, .init, .init⟩ hinserted hrun
    exact ⟨hv.1.step h, hv.2.1.step hv.1 hok h, hv.2.2.step hv.1 hv.2.1 h⟩
  exact hall.2.2

/-- Without a removal nothing is removed in the middle of its addition. -/
theorem meets_removesInserted {acts : List Act} (h : Act.remove ∉ acts) (s : Supervised) :
    Meets step RemovesInserted s acts := by
  apply meets_of_forall
  intro a ha v
  cases a with
  | remove => exact absurd ha h
  | _ => trivial

/-- Every message to a client answers a request of its own. -/
structure RoutingSound (w : World) : Prop where
  /-- no two forwarded requests go out under one id -/
  keys : (w.log.requests.map Request.key).Nodup
  /-- a request produces at most one message -/
  once : (w.log.deliveries.map Delivery.request).Nodup
  /-- and that message goes to its client, with the client's id: the timeout, or a message that
  came under the request's key on a connection to a backend -/
  routed : ∀ d ∈ w.log.deliveries, ∃ r, w.log.requests[d.request]? = some r ∧
    d.client = r.client ∧ d.message.id = r.message.id ∧
    (d.answer = none ∧ d.message = timeoutMessage r.message.id ∨
      ∃ ans c, d.answer = some ans ∧ (d.request, c) ∈ w.log.sources ∧ w.outbound c = true ∧
        ans.id = r.key ∧ d.message = { ans with id := r.message.id })
  /-- what is sent under a request's key reaches no other client -/
  exclusive : ∀ d ∈ w.log.deliveries, ∀ ans, d.answer = some ans → ∀ r ∈ w.log.requests,
    r.key = ans.id → d.client = r.client
  /-- what a client sends is never passed on as an answer -/
  backends : w.log.sources.map Prod.fst = answeredRequests w ∧
    ∀ x ∈ w.log.sources, w.outbound x.2 = true

/-- **Gateway routing soundness**: in every interleaving of client requests, backend messages
of any kind, disconnects, cleanup passes and passes of the monitor in which fewer than
`2 ^ 32 - 1` requests have been forwarded, and no backend is removed in the middle of its addition
(none is removed at all without the monitor; `direction_lost` is what may happen otherwise). -/
theorem routing_sound (acts : List Act) (s : Supervised) (hrun : run step init acts = some s)
    (hinserted : Meets step RemovesInserted init acts)
    (hlen : s.gateway.log.requests.length < 2 ^ 32 - 1) : RoutingSound s.gateway := by
  obtain ⟨gacts, hgrun⟩ := refines hrun
  have hi := run_routeInv hgrun
  have hkeys := hi.keys_nodup hlen
  have hsources := run_sources hgrun
  have hbackends := (run_sourced hrun hinserted).sources
  refine ⟨hkeys, ?_, fun d hd => ?_, fun d hd ans hans r hr hkey => ?_, hsources, hbackends⟩
  · exact (List.nodup_append'.mp hi.nodup).2.1
  · obtain ⟨key, ⟨r, hr, hclient, hid, rfl⟩, hmsg⟩ := hi.deliveries d hd
    refine ⟨r, hr, hclient.symm, hid.symm, ?_⟩
    rw [hid]
    obtain ⟨hmsg, hnone⟩ | ⟨ans, hans, hkey, hmsg⟩ := hmsg
    · exact Or.inl ⟨hnone, hmsg⟩
    · -- the answer's connection is in the log
      have hsource : d.request ∈ s.gateway.log.sources.map Prod.fst := by
        rw [hsources]
        exact List.mem_map_of_mem (List.mem_filter.mpr ⟨hd, by rw [hans]; rfl⟩)
      obtain ⟨x, hx, hreq⟩ := List.mem_map.mp hsource
      exact Or.inr ⟨ans, x.2, hans, hreq ▸ hx, hbackends x hx, hkey, hmsg⟩
  · obtain ⟨key, ⟨r', hr', hclient, -, rfl⟩, hmsg⟩ := hi.deliveries d hd
    obtain ⟨-, hnone⟩ | ⟨ans', hans', hid, -⟩ := hmsg
    · simp [hans] at hnone
    · rw [hans, Option.some.injEq] at hans'
      subst hans'
      -- the key determines the request
      have hsame : r' = r := List.inj_on_of_nodup_map hkeys (List.mem_of_getElem? hr') hr
        (hid.symm.trans hkey.symm)
      rw [← hclient, hsame]

/-- Two clients that both use the id 1, one backend that answers in the other order. -/
def crossedAnswers : List Act :=
  [.startBackend "127.0.0.1:9001" 7, .serve, .gateway (.accept 5), .gateway (.accept 6)] ++
    Act.gateway (.receive 1 ⟨.loginReq, 1, []⟩) :: handlerSteps 5 ++
    Act.gateway (.receive 2 ⟨.loginReq, 1, []⟩) :: handlerSteps 5 ++
    Act.gateway (.receive 0 ⟨.loginResp, 2, []⟩) :: handlerSteps 3 ++
    Act.gateway (.receive 0 ⟨.loginResp, 1, []⟩) :: handlerSteps 3

theorem routing_sound_crossed :
    ∃ s, run step init crossedAnswers = some s ∧
      s.gateway.log.deliveries.map (fun d => (d.client, d.message.id)) = [(2, 1), (1, 1)] ∧
      s.gateway.log.sources = [(1, 0), (0, 0)] ∧ RoutingSound s.gateway := by
  have hlast : ((run step init crossedAnswers).any fun s =>
      decide (s.gateway.log.deliveries.map (fun d => (d.client, d.message.id)) = [(2, 1), (1, 1)] ∧
        s.gateway.log.sources = [(1, 0), (0, 0)] ∧
        s.gateway.log.requests.length < 2 ^ 32 - 1)) = true := by
    decide +kernel
  obtain ⟨s, hs, hlast⟩ := exists_of_run_any hlast
  obtain ⟨hsent, hsources, hlen⟩ := of_decide_eq_true hlast
  have hinserted : Meets step RemovesInserted init crossedAnswers :=
    meets_removesInserted (by decide) init
  exact ⟨s, hs, hsent, hsources, routing_sound crossedAnswers s hs hinserted hlen⟩

end Supervised

end EchoNet.Gateway
