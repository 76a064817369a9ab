import EchoNet.Gateway.Accounting

/-!
# The Reserved Id

Backends push `BROADCAST_MSG` and `MEMBER_COUNT_UPDATE` under the id 0, which stands for "no
request": `next_new_id` starts at 1.  It is a 32-bit counter that nobody stops, so the request
that comes after `2 ^ 32 - 1` others is forwarded under the id 0, and the next push is taken for
its answer.

## Main results

- `id_zero_reserved_iff`: the id 0 is reserved exactly in the runs of fewer than `2 ^ 32` requests;
- `push_taken_for_answer`: a run of that length, and a broadcast that answers a login.
-/

namespace EchoNet.Gateway

open EchoNet.Lib EchoNet.Protocol

open World

/-! ## §1 Keys -/

/-- The keys are the numbers from 1 on, modulo `2 ^ 32`. -/
theorem RouteInv.toNat_key {w : World} (hi : RouteInv w) {i : Nat} {r : Request}
    (hr : w.log.requests[i]? = some r) : r.key.toNat = (i + 1) % 2 ^ 32 := by
  rw [hi.keys i r hr, UInt32.toNat_ofNat']

theorem RouteInv.keys_ne_zero_iff {w : World} (hi : RouteInv w) :
    (∀ r ∈ w.log.requests, r.key ≠ 0) ↔ w.log.requests.length < 2 ^ 32 := by
  constructor
  · intro hkeys
    -- the request number `2 ^ 32 - 1` exists, and its key has wrapped around to 0
    by_contra hge
    have hlt : 2 ^ 32 - 1 < w.log.requests.length := by omega
    have hr := List.getElem?_eq_getElem hlt
    have hnat := hi.toNat_key hr
    refine hkeys _ (List.mem_of_getElem? hr) (UInt32.toNat_inj.mp ?_)
    rw [hnat]
    rfl
  · intro hlen r hr hzero
    -- below `2 ^ 32` the key is the number of the request plus one
    obtain ⟨i, hlt, hri⟩ := List.mem_iff_getElem.mp hr
    have hnat := hi.toNat_key (hri ▸ List.getElem?_eq_getElem hlt)
    rw [hzero, Nat.mod_eq_of_lt (by omega)] at hnat
    exact absurd hnat (by simp)

/-- Whoever owns a request owns a key that is not 0. -/
theorem RouteInv.owned_ne_zero {w : World} (hi : RouteInv w)
    (hlen : w.log.requests.length < 2 ^ 32) {request : Nat} {client : ConnId}
    {originalId key : UInt32} (hown : Owns w.log.requests request client originalId key) :
    key ≠ 0 := by
  obtain ⟨r, hr, -, -, rfl⟩ := hown
  exact hi.keys_ne_zero_iff.mpr hlen r (List.mem_of_getElem? hr)

/-! ## §2 Pushes -/

/-- The handler of a message with the id 0 leaves every entry of `pending` in its place. -/
def KeepsEntries (w : World) (a : Act) : Prop :=
  ∀ i h, a = .handler i → w.handlers[i]? = some h → h.msg.id = 0 →
    ∀ k req, w.pending.lookup k = some req → (w.handlerStep i h).pending.lookup k = some req

theorem RouteInv.keepsEntries {w : World} (hi : RouteInv w)
    (hlen : w.log.requests.length < 2 ^ 32) (a : Act) : KeepsEntries w a := by
  intro i h _ hh hid k req hk
  have hstep := w.handlerStep_cases i h
  generalize w.handlerStep i h = w' at hstep ⊢
  cases hstep with
  | found req' hpc htype hk' =>
    -- nothing is filed under 0
    exact absurd hid (hi.owned_ne_zero hlen (hi.pending _ _ hk').1)
  | recorded backend newId request hpc =>
    -- the id is fresh, so the insertion is not at `k`
    have hfresh := hi.fresh hlen.le hh hpc
    have hne : k ≠ newId := by
      rintro rfl
      exact hfresh (AList.lookup_isSome.mp (by rw [hk]; rfl))
    show (w.pending.insert newId _).lookup k = some req
    rw [AList.lookup_insert_ne hne]
    exact hk
  | _ => exact hk

/-! ## §3 Runs -/

/-- The id 0 belongs to no request: none is forwarded under it, and what a backend sends under it
takes no entry out of `pending` and answers no client. -/
structure IdZeroReserved (acts : List Act) (w : World) : Prop where
  ids : ∀ r ∈ w.log.requests, r.key ≠ 0
  kept : Meets World.step KeepsEntries .init acts
  answers : ∀ d ∈ w.log.deliveries, ∀ m, d.answer = some m → m.id ≠ 0

theorem length_requests_le_of_run {s w : World} {acts : List Act}
    (hrun : run World.step s acts = some w) : s.log.requests.length ≤ w.log.requests.length :=
  run_invariant (P := fun v => s.log.requests.length ≤ v.log.requests.length)
    (fun _ _ _ hle h => hle.trans (length_requests_le_of_step h)) le_rfl hrun

/-- **Reserved id 0**: in a run of any length, exactly as long as fewer than `2 ^ 32` requests have
been given an id. -/
theorem id_zero_reserved_iff (acts : List Act) (w : World)
    (hrun : run World.step .init acts = some w) :
    IdZeroReserved acts w ↔ w.log.requests.length < 2 ^ 32 := by
  have hi := run_routeInv hrun
  constructor
  · intro h
    exact hi.keys_ne_zero_iff.mp h.ids
  · intro hlen
    refine ⟨hi.keys_ne_zero_iff.mpr hlen, ?_, ?_⟩
    · refine (meets_iff_forall_step hrun).mpr fun pre a post heq v hv => ?_
      rw [heq] at hrun
      -- the state in the middle of the run has forwarded no more requests than the last one
      obtain ⟨v', hv', hrest⟩ := run_append.mp hrun
      obtain rfl : v = v' := Option.some.inj (hv.symm.trans hv')
      exact (run_routeInv hv).keepsEntries ((length_requests_le_of_run hrest).trans_lt hlen) a
    -- an answer has the id of the request it was matched with
    · intro d hd m hm
      obtain ⟨key, hown, ⟨-, hnone⟩ | ⟨ans, hans, hid, -⟩⟩ := hi.deliveries d hd
      · rw [hnone] at hm
        cases hm
      · rw [hans] at hm
        cases hm
        rw [hid]
        exact hi.owned_ne_zero hlen hown

/-- A client logs in and is answered; then its room gets a broadcast. -/
def loginThenPush : List Act :=
  [Act.accept 5, .connect "127.0.0.1:9001" 7, .addBackend, .insertFd] ++
    Act.receive 0 ⟨.loginReq, 1, []⟩ :: List.replicate 5 (.handler 0) ++
    Act.receive 1 ⟨.loginResp, 1, []⟩ :: List.replicate 3 (.handler 0) ++
    Act.receive 1 ⟨.broadcastMsg, 0, []⟩ :: List.replicate 2 (.handler 0)

theorem id_zero_reserved_iff_push :
    ∃ w, run World.step .init loginThenPush = some w ∧ w.log.deliveries.length = 1 ∧
      w.metrics.unknownResponses = 1 ∧ IdZeroReserved loginThenPush w := by
  have hlast : ((run World.step .init loginThenPush).any fun w =>
      decide (w.log.deliveries.length = 1 ∧ w.metrics.unknownResponses = 1 ∧
        w.log.requests.length < 2 ^ 32)) = true := by
    decide
  obtain ⟨w, hw, hlast⟩ := exists_of_run_any hlast
  obtain ⟨hsent, hunknown, hlen⟩ := of_decide_eq_true hlast
  exact ⟨w, hw, hsent, hunknown, (id_zero_reserved_iff loginThenPush w hw).mpr hlen⟩

/-! ## §4 A run once around the counter -/

/-- One client and one backend, nothing in progress, and `n` requests forwarded so far. -/
structure Serving (n : Nat) (w : World) : Prop where
  conns : w.conns = [⟨5, false, true, true⟩, ⟨7, true, true, true⟩]
  backends : ∃ count, w.backends = [⟨"127.0.0.1:9001", 1, 0, true, count⟩]
  backendFds : w.backendFds = [7]
  handlers : w.handlers = []
  next : w.nextNewId = UInt32.ofNat (n + 1)
  requests : w.log.requests.length = n

/-- Client 0 sends a login under its own id 1, and its handler runs to the end. -/
def login : List Act := .receive 0 ⟨.loginReq, 1, []⟩ :: List.replicate 5 (.handler 0)

/-- The backend sends a message, and its handler runs to the end. -/
def backendSends (m : MyMessage) : List Act := .receive 1 m :: List.replicate 3 (.handler 0)

theorem pickLoop_single (addr : String) (c : ConnId) (pong count : Nat) (rr : UInt64) :
    pickLoop [⟨addr, c, pong, true, count⟩] rr 1 = (rr + 1, some 0) := by
  simp [pickLoop, Nat.mod_one]

private theorem step_only_handler {w : World} {h : Handler} (hh : w.handlers = [h]) :
    w.step (.handler 0) = some (w.handlerStep 0 h) := by
  simp [World.step, hh]

/-- A login is filed under the next id. -/
theorem Serving.login {n : Nat} {w : World} (hs : Serving n w) :
    ∃ w', run World.step w login = some w' ∧ Serving (n + 1) w' ∧
      w'.pending.lookup (UInt32.ofNat (n + 1)) = some ⟨0, 1, w.clock, n⟩ ∧
      w'.log.requests = w.log.requests ++ [⟨0, ⟨.loginReq, 1, []⟩, UInt32.ofNat (n + 1)⟩] := by
  obtain ⟨count, hbackends⟩ := hs.backends
  set m : MyMessage := ⟨.loginReq, 1, []⟩
  have hreceive : w.step (.receive 0 m) = some { w with handlers := [⟨0, m, .start⟩] } := by
    simp [World.step, World.alive, hs.conns, hs.handlers]
  -- 5 is not in `backend_fds`: the handler takes the branch of a request
  have hstart : ({ w with handlers := [⟨0, m, .start⟩] } : World).step (.handler 0) =
      some { w with handlers := [⟨0, m, .clientRequest⟩] } := by
    rw [step_only_handler rfl]
    simp [World.handlerStep, World.isBackendFd, World.fd, hs.conns, hs.backendFds, World.goto,
      World.noteAnswer, World.outbound]
    split <;> rfl
  have hpick : ({ w with handlers := [⟨0, m, .clientRequest⟩] } : World).step (.handler 0) =
      some { w with
        handlers := [⟨0, m, .allocate 1⟩]
        rrIndex := w.rrIndex + 1
        backends := [⟨"127.0.0.1:9001", 1, 0, true, count + 1⟩] } := by
    rw [step_only_handler rfl]
    simp [World.handlerStep, World.pickBackend, hbackends, pickLoop_single, World.goto]
  -- the id is taken, recorded and sent on
  refine ⟨_, run_cons_eq_some.mpr ⟨_, hreceive, run_cons_eq_some.mpr ⟨_, hstart,
    run_cons_eq_some.mpr ⟨_, hpick, run_cons_eq_some.mpr ⟨_, step_only_handler rfl,
    run_cons_eq_some.mpr ⟨_, step_only_handler rfl, run_cons_eq_some.mpr
    ⟨_, step_only_handler rfl, rfl⟩⟩⟩⟩⟩⟩, ?_, ?_, ?_⟩
  · constructor
    · exact hs.conns
    · exact ⟨_, rfl⟩
    · exact hs.backendFds
    · rfl
    · show w.nextNewId + 1 = _
      rw [hs.next]
      simp
    · simp [World.handlerStep, World.goto, World.finish, hs.requests]
  · show (w.pending.insert w.nextNewId ⟨0, 1, w.clock, w.log.requests.length⟩).lookup _ = _
    rw [hs.next, hs.requests, AList.lookup_insert]
  · show w.log.requests ++ [⟨0, m, w.nextNewId⟩] = _
    rw [hs.next]

/-- What the backend sends under the id of an entry goes to client 0. -/
theorem Serving.backendSends {n : Nat} {w : World} (hs : Serving n w) {m : MyMessage}
    (hm : m.type ≠ .heartbeatResp) {req : PendingRequest} (hk : w.pending.lookup m.id = some req)
    (hclient : req.clientConn = 0) :
    ∃ w', run World.step w (backendSends m) = some w' ∧ Serving n w' ∧
      w'.log.requests = w.log.requests ∧
      w'.log.deliveries = w.log.deliveries ++
        [⟨0, { m with id := req.originalId }, req.request, some m⟩] := by
  have hreceive : w.step (.receive 1 m) = some { w with handlers := [⟨1, m, .start⟩] } := by
    simp [World.step, World.alive, hs.conns, hs.handlers]
  -- 7 is in `backend_fds`: the handler takes the branch of a response
  have hstart : ({ w with handlers := [⟨1, m, .start⟩] } : World).step (.handler 0) =
      some { w with handlers := [⟨1, m, .backendResponse⟩] } := by
    rw [step_only_handler rfl]
    simp [World.handlerStep, World.isBackendFd, World.fd, hs.conns, hs.backendFds, World.goto]
  have htake : ∃ log : Log, log.requests = w.log.requests ∧ log.deliveries = w.log.deliveries ∧
      ({ w with handlers := [⟨1, m, .backendResponse⟩] } : World).step (.handler 0) =
      some { w with
        handlers := [⟨1, m, .respond req⟩], pending := w.pending.erase m.id, log := log } := by
    refine ⟨_, noteAnswer_requests { w with handlers := [⟨1, m, .backendResponse⟩] }
      ⟨1, m, .backendResponse⟩, noteAnswer_deliveries _ _, ?_⟩
    rw [step_only_handler rfl]
    simp [World.handlerStep, hm, hk, World.goto]
  obtain ⟨log, hrequests, hdeliveries, htake⟩ := htake
  -- the client is there, so the response is sent and counted
  have hrespond : ({ w with
        handlers := [⟨1, m, .respond req⟩], pending := w.pending.erase m.id, log := log } :
      World).step (.handler 0) =
      some { w with
        handlers := []
        pending := w.pending.erase m.id
        metrics := { w.metrics with backendResponses := w.metrics.backendResponses + 1 }
        log := { log with
          deliveries := log.deliveries ++
            [⟨0, { m with id := req.originalId }, req.request, some m⟩]
          sources := log.sources ++ [(req.request, 1)] } } := by
    rw [step_only_handler rfl]
    simp [World.handlerStep, hclient, World.alive, hs.conns, World.finish]
  refine ⟨_, run_cons_eq_some.mpr ⟨_, hreceive, run_cons_eq_some.mpr ⟨_, hstart,
    run_cons_eq_some.mpr ⟨_, htake, run_cons_eq_some.mpr ⟨_, hrespond, rfl⟩⟩⟩⟩, ?_, hrequests, ?_⟩
  · exact ⟨hs.conns, hs.backends, hs.backendFds, rfl, hs.next, hrequests ▸ hs.requests⟩
  · rw [← hdeliveries]

/-- A login and its answer, when `k` requests have been forwarded before. -/
def exchange (k : Nat) : List Act :=
  login ++ backendSends ⟨.loginResp, UInt32.ofNat (k + 1), []⟩

def opening : List Act :=
  [.accept 5, .connect "127.0.0.1:9001" 7, .addBackend, .insertFd]

theorem serving_exchanges (n : Nat) :
    ∃ w, run World.step .init (opening ++ (List.range n).flatMap exchange) = some w ∧
      Serving n w := by
  induction n with
  | zero => exact ⟨_, rfl, rfl, ⟨0, rfl⟩, rfl, rfl, rfl, rfl⟩
  | succ n ih =>
    obtain ⟨w, hw, hs⟩ := ih
    -- one more login, and the answer under the id it was filed with
    obtain ⟨w₁, hw₁, hs₁, hk, -⟩ := hs.login
    obtain ⟨w₂, hw₂, hs₂, -⟩ := hs₁.backendSends (m := ⟨.loginResp, UInt32.ofNat (n + 1), []⟩)
      (by simp) hk rfl
    refine ⟨w₂, ?_, hs₂⟩
    rw [List.range_succ, List.flatMap_append, ← List.append_assoc]
    refine run_append.mpr ⟨w, hw, ?_⟩
    rw [List.flatMap_singleton]
    exact run_append.mpr ⟨w₁, hw₁, hw₂⟩

/-- After `2 ^ 32 - 1` answered logins, the next one goes out under the id 0. -/
def lapAndPush : List Act :=
  opening ++ (List.range (2 ^ 32 - 1)).flatMap exchange ++ login ++
    backendSends ⟨.broadcastMsg, 0, [0x31]⟩

/-- The broadcast is delivered to the client as the answer to its login. -/
theorem push_taken_for_answer :
    ∃ w, run World.step .init lapAndPush = some w ∧
      (∃ r ∈ w.log.requests, r.key = 0) ∧
      ⟨0, ⟨.broadcastMsg, 1, [0x31]⟩, 2 ^ 32 - 1, some ⟨.broadcastMsg, 0, [0x31]⟩⟩ ∈
        w.log.deliveries ∧
      ¬IdZeroReserved lapAndPush w := by
  obtain ⟨w, hw, hs⟩ := serving_exchanges (2 ^ 32 - 1)
  obtain ⟨w₁, hw₁, hs₁, hk, hreq⟩ := hs.login
  -- the counter has come around
  have hzero : UInt32.ofNat (2 ^ 32 - 1 + 1) = 0 := by rfl
  rw [hzero] at hk hreq
  obtain ⟨w₂, hw₂, -, hreq₂, hdel⟩ := hs₁.backendSends (m := ⟨.broadcastMsg, 0, [0x31]⟩)
    (by simp) hk rfl
  have hmem : (⟨0, ⟨.loginReq, 1, []⟩, 0⟩ : Request) ∈ w₂.log.requests := by
    simp [hreq₂, hreq]
  refine ⟨w₂, ?_, ⟨_, hmem, rfl⟩, ?_, ?_⟩
  · exact run_append.mpr ⟨w₁, run_append.mpr ⟨w, hw, hw₁⟩, hw₂⟩
  · rw [hdel]
    simp
  · intro h
    exact h.ids _ hmem rfl

end EchoNet.Gateway
