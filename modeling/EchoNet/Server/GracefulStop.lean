import EchoNet.Server.Peers
import EchoNet.Server.Stop

/-!
# Graceful Stop

That `Server::stop` leaves no connection behind rests on the order of its four waits.

- Once every loop has gone through its snapshot no connection is connected: no creation is queued
  behind the closure of `closeAllConnections` (`QueueOrder.creates`, `Marks.closed`).
- Once the workers are joined no task is left that could post a deferred close, and no connection
  gets a new one (`Retired`).
- Every deferred close that is still to run is therefore queued before the barrier
  (`QueueOrder.finalizes`), so that behind the barrier nothing is owed any more (`Settled`).

## Main result

`stop_closes_all`: when `Server::stop` returns, the close callback of every connection there ever
was has run once, with no handler of it executing then or later, and the connection is closed and
out of `connections_`.
-/

namespace EchoNet.Server

open EchoNet.Lib EchoNet.Protocol EchoNet.Net.PoolMachine EchoNet.Chat

/-! ## §1 The loops -/

/-- The closure, if it is one of connection `i`. -/
def Item.of (i : Nat) : Item → Option Callback
  | .callback j cb => if j = i then some cb else none
  | _ => none

@[simp] theorem Item.of_create (i : Nat) (fd : Int) : Item.of i (.create fd) = none := rfl
@[simp] theorem Item.of_closeAll (i : Nat) : Item.of i .closeAll = none := rfl
@[simp] theorem Item.of_barrier (i : Nat) : Item.of i .barrier = none := rfl

def Item.isCreate : Item → Bool
  | .create _ => true
  | _ => false

def Item.isFinalize : Item → Bool
  | .callback _ .finalize => true
  | _ => false

/-- The order that the four waits rely on. -/
structure QueueOrder (queue : List Item) : Prop where
  creates : queue.Pairwise fun x y => x = .closeAll → y.isCreate = false
  finalizes : queue.Pairwise fun x y => x = .barrier → y.isFinalize = false

theorem QueueOrder.tail {x : Item} {queue : List Item} (h : QueueOrder (x :: queue)) : QueueOrder queue :=
  ⟨(List.pairwise_cons.mp h.creates).2, (List.pairwise_cons.mp h.finalizes).2⟩

theorem QueueOrder.post {queue items : List Item} (h : QueueOrder queue) (hitems : QueueOrder items)
    (hcreate : .closeAll ∈ queue → ∀ y ∈ items, y.isCreate = false)
    (hfinalize : .barrier ∈ queue → ∀ y ∈ items, y.isFinalize = false) :
    QueueOrder (queue ++ items) := by
  refine ⟨List.pairwise_append.mpr ⟨h.creates, hitems.creates, ?_⟩,
    List.pairwise_append.mpr ⟨h.finalizes, hitems.finalizes, ?_⟩⟩
  · rintro x hx y hy rfl
    exact hcreate hx y hy
  · rintro x hx y hy rfl
    exact hfinalize hx y hy

theorem QueueOrder.singleton (x : Item) : QueueOrder [x] :=
  ⟨List.pairwise_singleton .., List.pairwise_singleton ..⟩

theorem QueueOrder.callbacks (i : Nat) (cbs : List Callback) : QueueOrder (cbs.map (.callback i)) := by
  constructor <;> exact List.pairwise_map.mpr (List.pairwise_of_forall (by simp))

/-- The queue of a loop has the closures of its connections, in order, and no others. -/
structure Synced (t : System) (ℓ : Nat) (queue : List Item) : Prop where
  owned : ∀ i cb, .callback i cb ∈ queue → ∃ p, t.conns[i]? = some p ∧ p.loop = ℓ
  part : ∀ (i : Nat) p, t.conns[i]? = some p → p.loop = ℓ →
    p.world.taskQueue = queue.filterMap (Item.of i)

theorem Synced.none_of {t : System} {ℓ : Nat} {queue : List Item} (h : Synced t ℓ queue) {i : Nat}
    (hi : ∀ p, t.conns[i]? = some p → p.loop ≠ ℓ) : queue.filterMap (Item.of i) = [] := by
  refine List.filterMap_eq_nil_iff.mpr fun x hx => ?_
  cases x with
  | callback j cb =>
    have hji : j ≠ i := by
      rintro rfl
      obtain ⟨p, hp, hloop⟩ := h.owned j cb hx
      exact hi p hp hloop
    simp [Item.of, hji]
  | _ => rfl

theorem Synced.step {s t : System} {ℓ : Nat} {queue queue' : List Item} {b : System.Act}
    (h : Synced s ℓ queue) (hd : s.Descriptors) (hstep : s.step b = some t)
    (howned : ∀ i cb, .callback i cb ∈ queue' →
      .callback i cb ∈ queue ∨ ∃ p, s.conns[i]? = some p ∧ p.loop = ℓ)
    (hother : ∀ i, (∀ a, b ≠ .conn i a) →
      queue'.filterMap (Item.of i) = queue.filterMap (Item.of i))
    (hown : ∀ i a q q', b = .conn i a → s.conns[i]? = some q → t.conns[i]? = some q' →
      q.loop = ℓ → World.Step q.world a q'.world →
      q'.world.taskQueue = queue'.filterMap (Item.of i)) : Synced t ℓ queue' := by
  refine ⟨fun i cb hmem => ?_, fun i q' hq' hloop => ?_⟩
  · obtain ⟨p, hp, hloop⟩ := (howned i cb hmem).elim (h.owned i cb) id
    obtain ⟨p', hp', hloop'⟩ := System.peer_stays hd hstep hp
    exact ⟨p', hp', hloop'.trans hloop⟩
  · cases System.peer_of_step hd (System.step_cases hstep) hq' with
    | same hq ha => rw [hother i ha, h.part i q' hq hloop]
    | step hq ha hloop' hw => exact hown i _ _ q' ha hq hq' (hloop' ▸ hloop) hw
    -- a new connection has neither closures nor a number that one could have
    | created ha hi hq =>
      have hnone : s.conns[i]? = none := by simp [hi]
      rw [hother i (by simp [ha]), h.none_of (by simp [hnone]), hq]
      rfl

/-- What the promises of a loop stand for. -/
structure Marks (t : System) (ℓ : Nat) (L : LoopThread) : Prop where
  snapshot : ∀ ids, L.snapshot = some ids → ∀ (i : Nat) p, t.conns[i]? = some p → p.loop = ℓ →
    i ∈ ids ∨ Doomed p.world
  closed : L.closed = true → ∀ (i : Nat) p, t.conns[i]? = some p → p.loop = ℓ →
    p.world.conn.state ≠ .connected
  drained : L.drained = true → L.closed = true ∧
    ∀ (i : Nat) p, t.conns[i]? = some p → p.loop = ℓ → Settled p.world

theorem Marks.step {s t : System} {ℓ : Nat} {L : LoopThread} {b : System.Act} (h : Marks s ℓ L)
    (hd : s.Descriptors) (hstep : s.step b = some t)
    (hcreate : ∀ fd stream, b = .register ℓ fd stream → L.snapshot = none ∧ L.closed = false) :
    Marks t ℓ L := by
  refine ⟨fun ids hids => ?_, fun hclosed => ?_, fun hdrained => ?_⟩
  · refine System.forall_peer_of_step hd hstep (h.snapshot ids hids) ?_ ?_
    · intro j q q' b _ hq hloop' hw hloop
      exact (hq (hloop' ▸ hloop)).imp id fun hdoom => hdoom.step hw
    · rintro _ fd stream ha rfl
      simp [(hcreate fd stream ha).1] at hids
  · refine System.forall_peer_of_step hd hstep (h.closed hclosed) ?_ ?_
    · intro j q q' b _ hq hloop' hw hloop
      exact (later_of_step hw).state (hq (hloop' ▸ hloop))
    · rintro _ fd stream ha rfl
      simp [(hcreate fd stream ha).2] at hclosed
  · obtain ⟨hclosed, hall⟩ := h.drained hdrained
    refine ⟨hclosed, System.forall_peer_of_step hd hstep hall ?_ ?_⟩
    · intro j q q' b _ hq hloop' hw hloop
      exact (hq (hloop' ▸ hloop)).step hw
    · rintro _ fd stream ha rfl
      simp [(hcreate fd stream ha).2] at hclosed

/-! ## §2 The main thread -/

namespace MainPc

/-- The promise of `closeAllConnections` of the loop has been waited for. -/
def closedBefore : MainPc → Nat → Prop
  | .serving, _ | .closeAll _, _ => False
  | .awaitClosed k, ℓ => ℓ < k
  | _, _ => True

/-- The workers have been joined. -/
def joined : MainPc → Prop
  | .serving | .closeAll _ | .awaitClosed _ | .stopPool _ | .joinPool => False
  | _ => True

/-- The promise of `waitForPendingCallbacks` of the loop has been waited for. -/
def drainedBefore : MainPc → Nat → Prop
  | .awaitDrained k, ℓ => ℓ < k
  | .stopLoops _, _ | .joinLoops _, _ | .returned, _ => True
  | _, _ => False

attribute [simp] closedBefore joined drainedBefore

theorem closedBefore_of_joined {m : MainPc} (h : m.joined) (ℓ : Nat) : m.closedBefore ℓ := by
  cases m <;> simp_all [joined, closedBefore]

theorem joined_of_drainedBefore {m : MainPc} {ℓ : Nat} (h : m.drainedBefore ℓ) : m.joined := by
  cases m <;> simp_all [joined, drainedBefore]

end MainPc

namespace Shutdown

structure LoopInv (t : System) (m : MainPc) (ℓ : Nat) (L : LoopThread) : Prop where
  order : QueueOrder L.taskQueue
  synced : Synced t ℓ L.taskQueue
  marks : Marks t ℓ L
  /-- no creation is left once the snapshot has been taken -/
  sealed : L.snapshot ≠ none ∨ L.closed = true → ∀ x ∈ L.taskQueue, x.isCreate = false
  unasked : m = .serving → .closeAll ∉ L.taskQueue ∧ L.snapshot = none ∧ L.closed = false
  closed : m.closedBefore ℓ → L.closed = true
  unjoined : ¬ m.joined → .barrier ∉ L.taskQueue ∧ L.drained = false
  drained : m.drainedBefore ℓ → L.drained = true

structure PeerInv (n : Nat) (m : MainPc) (q : Peer) : Prop where
  released : Released q.world
  placed : q.loop < n
  joined : m.joined → Retired q.world

structure Inv (s : Shutdown) : Prop where
  descriptors : s.system.Descriptors
  peers : ∀ (i : Nat) p, s.system.conns[i]? = some p → PeerInv s.loops.length s.main p
  loops : ∀ (ℓ : Nat) L, s.loops[ℓ]? = some L → LoopInv s.system s.main ℓ L

theorem Inv.init (n : Nat) (firstRoomId : UInt32) : Inv (init n firstRoomId) := by
  refine ⟨.init firstRoomId, fun i p hp => by simp [Shutdown.init, System.init] at hp,
    fun ℓ L hL => ?_⟩
  obtain rfl : L = .init := by
    rw [Shutdown.init, List.getElem?_replicate] at hL
    split_ifs at hL
    exact (Option.some.inj hL).symm
  refine ⟨⟨.nil, .nil⟩, ⟨by simp [LoopThread.init], by simp [Shutdown.init, System.init]⟩,
    ⟨by simp [LoopThread.init], by simp [LoopThread.init], by simp [LoopThread.init]⟩,
    by simp [LoopThread.init], ?_, ?_, ?_, ?_⟩ <;>
      simp [Shutdown.init, LoopThread.init, MainPc.closedBefore, MainPc.drainedBefore]

/-- A closure is taken out of the queue, or closures are put in, while the server takes a step. -/
private theorem LoopInv.step {s t : System} {m : MainPc} {ℓ : Nat} {L : LoopThread}
    {b : System.Act} (h : LoopInv s m ℓ L) (hd : s.Descriptors) (hstep : s.step b = some t)
    (hcreate : ∀ fd stream, b = .register ℓ fd stream → L.snapshot = none ∧ L.closed = false)
    {queue : List Item} (horder : QueueOrder queue) (hsynced : Synced t ℓ queue)
    (hnew : ∀ x ∈ queue, x ∈ L.taskQueue ∨
      x ≠ .closeAll ∧ x ≠ .barrier ∧ (m ≠ .serving → x.isCreate = false)) :
    LoopInv t m ℓ { L with taskQueue := queue } := by
  have hmarks := h.marks.step hd hstep hcreate
  refine ⟨horder, hsynced, ⟨hmarks.snapshot, hmarks.closed, hmarks.drained⟩, fun hs x hx => ?_,
    fun hm => ⟨fun hx => ?_, (h.unasked hm).2⟩, h.closed,
    fun hm => ⟨fun hx => ?_, (h.unjoined hm).2⟩, h.drained⟩
  -- nothing but a creation of a serving server can break the seal
  · obtain hold | ⟨-, -, hx⟩ := hnew x hx
    · exact h.sealed hs x hold
    · refine hx fun hm => ?_
      obtain ⟨-, hsnap, hclosed⟩ := h.unasked hm
      exact hs.elim (fun hne => hne hsnap) fun hc => by simp [hclosed] at hc
  · obtain hold | ⟨hne, -⟩ := hnew _ hx
    · exact (h.unasked hm).1 hold
    · exact hne rfl
  · obtain hold | ⟨-, hne, -⟩ := hnew _ hx
    · exact (h.unjoined hm).1 hold
    · exact hne rfl

/-- A step of the server that neither fills nor empties the queue of the loop. -/
private theorem LoopInv.quiet {s t : System} {m : MainPc} {ℓ : Nat} {L : LoopThread}
    {b : System.Act} (h : LoopInv s m ℓ L) (hd : s.Descriptors) (hstep : s.step b = some t)
    (hcreate : ∀ fd stream, b ≠ .register ℓ fd stream)
    (hown : ∀ i a q q', b = .conn i a → s.conns[i]? = some q → t.conns[i]? = some q' →
      q.loop = ℓ → World.Step q.world a q'.world → q'.world.taskQueue = q.world.taskQueue) :
    LoopInv t m ℓ L := by
  refine h.step hd hstep (fun fd stream hb => absurd hb (hcreate fd stream)) h.order ?_
    fun x hx => Or.inl hx
  refine h.synced.step hd hstep (fun i cb => Or.inl) (fun i _ => rfl) ?_
  intro i a q q' hb hq hq' hloop hw
  rw [hown i a q q' hb hq hq' hloop hw, h.synced.part i q hq hloop]

private theorem Inv.peers_step {s : Shutdown} {t : System} {b : System.Act} (h : Inv s)
    (hstep : s.system.step b = some t)
    (hcreate : ∀ ℓ fd stream, b = .register ℓ fd stream → ℓ < s.loops.length ∧ ¬ s.main.joined) :
    ∀ (i : Nat) p, t.conns[i]? = some p → PeerInv s.loops.length s.main p := by
  refine System.forall_peer_of_step h.descriptors hstep h.peers ?_ ?_
  · intro j q q' b hq hp hloop hw
    have hsound := h.descriptors.sound j q hq
    exact ⟨hp.released.step hsound.close hw, hloop ▸ hp.placed,
      fun hm => (hp.joined hm).step hsound.task hw⟩
  · intro ℓ fd stream hb
    obtain ⟨hlt, hm⟩ := hcreate ℓ fd stream hb
    exact ⟨.init fd stream, hlt, fun hj => absurd hj hm⟩

/-- A step of the server that changes one loop. -/
private theorem Inv.update {s : Shutdown} {t : System} {b : System.Act} (h : Inv s) {ℓ : Nat}
    {L L' : LoopThread} (hL : s.loops[ℓ]? = some L) (hstep : s.system.step b = some t)
    (hcreate : ∀ ℓ' fd stream, b = .register ℓ' fd stream → ℓ' = ℓ ∧ ¬ s.main.joined)
    (hown : ∀ i a q q', b = .conn i a → s.system.conns[i]? = some q → t.conns[i]? = some q' →
      q.loop ≠ ℓ → World.Step q.world a q'.world → q'.world.taskQueue = q.world.taskQueue)
    (hloop : LoopInv t s.main ℓ L') : Inv (s.update t ℓ L') := by
  have hlt := (List.getElem?_eq_some_iff.mp hL).1
  have hlength : (s.update t ℓ L').loops.length = s.loops.length := by simp [Shutdown.update]
  refine ⟨h.descriptors.step (System.step_cases hstep), ?_, fun k K hK => ?_⟩
  · rw [hlength]
    exact h.peers_step hstep fun ℓ' fd stream hb =>
      ⟨(hcreate ℓ' fd stream hb).1 ▸ hlt, (hcreate ℓ' fd stream hb).2⟩
  · rw [Shutdown.update, List.getElem?_set] at hK
    split_ifs at hK with hk
    · obtain rfl := hk
      obtain rfl := Option.some.inj hK
      exact hloop
    · refine (h.loops k K hK).quiet h.descriptors hstep ?_ ?_
      · exact fun fd stream hb => hk (hcreate k fd stream hb).1.symm
      · exact fun i a q q' hb hq hq' hloop => hown i a q q' hb hq hq' (hloop ▸ Ne.symm hk)

/-- Only a loop changes. -/
private theorem Inv.setLoop {s : Shutdown} (h : Inv s) {ℓ : Nat} {L : LoopThread}
    (hloop : LoopInv s.system s.main ℓ L) : Inv (s.update s.system ℓ L) := by
  refine ⟨h.descriptors, ?_, fun k K hK => ?_⟩
  · simpa [Shutdown.update] using h.peers
  · rw [Shutdown.update, List.getElem?_set] at hK
    split_ifs at hK with hk
    · obtain rfl := hk
      obtain rfl := Option.some.inj hK
      exact hloop
    · exact h.loops k K hK

/-- The main thread goes on. -/
private theorem Inv.goto {s : Shutdown} (h : Inv s) {m : MainPc} (hm : m ≠ .serving)
    (hclosed : ∀ ℓ L, s.loops[ℓ]? = some L → m.closedBefore ℓ → L.closed = true)
    (hjoined : m.joined → ∀ (i : Nat) p, s.system.conns[i]? = some p → Retired p.world)
    (hunjoined : s.main.joined → m.joined)
    (hdrained : ∀ ℓ L, s.loops[ℓ]? = some L → m.drainedBefore ℓ → L.drained = true) :
    Inv { s with main := m } := by
  refine ⟨h.descriptors, fun i p hp => ?_, fun ℓ L hL => ?_⟩
  · have hp' := h.peers i p hp
    exact ⟨hp'.released, hp'.placed, fun hj => hjoined hj i p hp⟩
  · have hl := h.loops ℓ L hL
    exact ⟨hl.order, hl.synced, hl.marks, hl.sealed, fun hm' => absurd hm' hm, hclosed ℓ L hL,
      fun hj => hl.unjoined fun hj' => hj (hunjoined hj'), hdrained ℓ L hL⟩

/-! ## §3 Every step -/

private theorem Inv.accept {s : Shutdown} {t : System} {ℓ : Nat} {fd : Int} {L : LoopThread}
    (h : Inv s) (hL : s.loops[ℓ]? = some L) (hm : s.main = .serving)
    (ht : s.system.step (.accept ℓ fd) = some t) :
    Inv (s.update t ℓ (L.post [.create fd])) := by
  have hl := h.loops ℓ L hL
  refine h.update hL ht (by simp) (by simp) ?_
  refine hl.step h.descriptors ht (by simp) ?_ ?_ fun x hx => ?_
  · exact hl.order.post (.singleton _) (fun hx => absurd hx (hl.unasked hm).1)
      (by simp [Item.isFinalize])
  · refine hl.synced.step h.descriptors ht (fun i cb hx => Or.inl ?_) (fun i _ => ?_) (by simp)
    · simpa using hx
    · simp [Item.of]
  · obtain hx | hx := List.mem_append.mp hx
    · exact Or.inl hx
    · obtain rfl := List.mem_singleton.mp hx
      exact Or.inr ⟨by simp, by simp, fun hne => absurd hm hne⟩

/-- The loop is asked to close its connections only once no creation can follow. -/
private theorem Inv.create {s : Shutdown} {t : System} {ℓ : Nat} {fd : Int} {stream : Bytes}
    {L : LoopThread} {rest : List Item} (h : Inv s) (hL : s.loops[ℓ]? = some L)
    (hq : L.taskQueue = .create fd :: rest)
    (ht : s.system.step (.register ℓ fd stream) = some t) :
    Inv (s.update t ℓ { L with taskQueue := rest }) := by
  have hl := h.loops ℓ L hL
  -- a creation is still queued, so the loop has not taken its snapshot
  have hopen : L.snapshot = none ∧ L.closed = false := by
    by_contra hne
    have hseal : L.snapshot ≠ none ∨ L.closed = true := by
      rwa [not_and_or, Bool.not_eq_false] at hne
    have hcreate := hl.sealed hseal (.create fd) (by simp [hq])
    simp [Item.isCreate] at hcreate
  have hsub : ∀ x ∈ rest, x ∈ L.taskQueue := fun x hx => hq ▸ List.mem_cons_of_mem _ hx
  refine h.update hL ht ?_ (by simp) ?_
  · rintro ℓ' fd' stream' heq
    cases heq
    -- by the time the workers are joined it has
    refine ⟨rfl, fun hj => ?_⟩
    have hclosed := hl.closed (MainPc.closedBefore_of_joined hj ℓ)
    simp [hopen.2] at hclosed
  · refine hl.step h.descriptors ht (fun _ _ _ => hopen) (hq ▸ hl.order).tail ?_
      fun x hx => Or.inl (hsub x hx)
    refine hl.synced.step h.descriptors ht (fun i cb hx => Or.inl (hsub _ hx)) (fun i _ => ?_)
      (by simp)
    rw [hq, List.filterMap_cons_none (Item.of_create i fd)]

private theorem Inv.callback {s : Shutdown} {t : System} {ℓ i : Nat} {cb : Callback} {alive : Bool}
    {L : LoopThread} {rest : List Item} (h : Inv s) (hL : s.loops[ℓ]? = some L)
    (hq : L.taskQueue = .callback i cb :: rest)
    (ht : s.system.step (.conn i (.runCallback alive)) = some t) :
    Inv (s.update t ℓ { L with taskQueue := rest }) := by
  have hl := h.loops ℓ L hL
  have hsub : ∀ x ∈ rest, x ∈ L.taskQueue := fun x hx => hq ▸ List.mem_cons_of_mem _ hx
  refine h.update hL ht (by simp) ?_ ?_
  · intro j a q q' heq hqj _ hne
    cases heq
    -- the closure is in the queue of its own loop
    obtain ⟨p, hp, hloop⟩ := hl.synced.owned i cb (by simp [hq])
    obtain rfl : p = q := Option.some.inj (hp.symm.trans hqj)
    exact absurd hloop hne
  · refine hl.step h.descriptors ht (by simp) (hq ▸ hl.order).tail ?_
      fun x hx => Or.inl (hsub x hx)
    refine hl.synced.step h.descriptors ht (fun j cb hx => Or.inl (hsub _ hx)) (fun j hj => ?_) ?_
    · have hji : i ≠ j := fun heq => hj (.runCallback alive) (heq ▸ rfl)
      simp [hq, Item.of, hji]
    · intro j a q q' heq hqj _ hloop hw
      cases heq
      rw [taskQueue_of_runCallback hw, hl.synced.part i q hqj hloop, hq]
      simp [Item.of]

/-- A step of connection `i` posts to its own loop. -/
private theorem Inv.conn {s : Shutdown} {t : System} {i : Nat} {p : Peer}
    {a : Net.PoolMachine.Act} (h : Inv s) (hp : s.system.conns[i]? = some p)
    (ha : ∀ alive, a ≠ .runCallback alive) (ht : s.system.step (.conn i a) = some t) :
    Inv (s.connStep i p.loop t) := by
  have hplaced := (h.peers i p hp).placed
  have hL : s.loops[p.loop]? = some s.loops[p.loop] := List.getElem?_eq_getElem hplaced
  obtain ⟨p', hp', -⟩ := System.peer_stays h.descriptors ht hp
  -- the step of the server is the step of this connection
  have hw : World.Step p.world a p'.world := by
    cases System.peer_of_step h.descriptors (System.step_cases ht) hp' with
    | same _ hne => exact absurd rfl (hne a)
    | step hq heq _ hw =>
      cases heq
      rwa [Option.some.inj (hp.symm.trans hq)]
    | created heq => cases heq
  obtain ⟨posted, hposted, hfinalize⟩ := taskQueue_of_step hw ha
  -- what it has posted goes behind the queue of its loop
  have hstep : s.connStep i p.loop t =
      s.update t p.loop (s.loops[p.loop].post (posted.map (.callback i))) := by
    have hdrop : (t.pendingCallbacks i).drop (s.system.pendingCallbacks i).length = posted := by
      simp [System.pendingCallbacks, hp, hp', hposted]
    simp only [Shutdown.connStep, Shutdown.update, hdrop]
    congr 1
    refine List.ext_getElem? fun k => ?_
    rw [List.getElem?_modify, List.getElem?_set]
    split_ifs with hk
    · subst hk
      simp [hL]
    · simp
  rw [hstep]
  have hl := h.loops p.loop _ hL
  refine h.update hL ht (by simp) ?_ ?_
  · intro j b q q' heq hq _ hne
    cases heq
    exact absurd (congrArg Peer.loop (Option.some.inj (hq.symm.trans hp))) hne
  · refine hl.step h.descriptors ht (by simp) ?_ ?_ fun x hx => ?_
    · refine hl.order.post (.callbacks i posted) (by simp [Item.isCreate]) fun hbarrier y hy => ?_
      -- behind a barrier there are no workers left
      have hjoined : s.main.joined := by
        by_contra hne
        exact (hl.unjoined hne).1 hbarrier
      obtain ⟨cb, hcb, rfl⟩ := List.mem_map.mp hy
      have hne : cb ≠ .finalize := by
        rintro rfl
        exact ((h.peers i p hp).joined hjoined).finalize (hfinalize hcb)
      cases cb <;> simp_all [Item.isFinalize]
    · refine hl.synced.step h.descriptors ht (fun j cb hx => ?_) (fun j hj => ?_) ?_
      · obtain hx | hx := List.mem_append.mp hx
        · exact Or.inl hx
        · obtain ⟨_, _, heq⟩ := List.mem_map.mp hx
          cases heq
          exact Or.inr ⟨p, hp, rfl⟩
      · have hji : i ≠ j := fun heq => hj a (heq ▸ rfl)
        simp [List.filterMap_map, Function.comp_def, Item.of, hji]
      · intro j b q q' heq hq hq' hloop _
        cases heq
        obtain rfl : p = q := Option.some.inj (hp.symm.trans hq)
        obtain rfl : p' = q' := Option.some.inj (hp'.symm.trans hq')
        rw [hposted, hl.synced.part i p hp rfl]
        simp [List.filterMap_map, Function.comp_def, Item.of]
    · obtain hx | hx := List.mem_append.mp hx
      · exact Or.inl hx
      · obtain ⟨cb, -, rfl⟩ := List.mem_map.mp hx
        exact Or.inr ⟨by simp, by simp, fun _ => rfl⟩

/-- The snapshot has every connection that is still connected. -/
private theorem Inv.closeAll {s : Shutdown} {ℓ : Nat} {L : LoopThread} {rest : List Item}
    (h : Inv s) (hL : s.loops[ℓ]? = some L) (hq : L.taskQueue = .closeAll :: rest) :
    Inv (s.update s.system ℓ
      { L with taskQueue := rest, snapshot := some (s.system.connectionsOf ℓ) }) := by
  have hl := h.loops ℓ L hL
  have hasked : s.main ≠ .serving := fun hm => (hl.unasked hm).1 (by simp [hq])
  have hcreates := (List.pairwise_cons.mp (hq ▸ hl.order.creates)).1
  refine h.setLoop ⟨(hq ▸ hl.order).tail, ?_, ?_, fun _ x hx => hcreates x hx rfl,
    fun hm => absurd hm hasked, hl.closed, fun hm => ⟨fun hx => ?_, (hl.unjoined hm).2⟩, hl.drained⟩
  · refine ⟨fun i cb hx => hl.synced.owned i cb (hq ▸ List.mem_cons_of_mem _ hx), ?_⟩
    intro i p hp hloop
    rw [hl.synced.part i p hp hloop, hq, List.filterMap_cons_none (Item.of_closeAll i)]
  · refine ⟨?_, hl.marks.closed, hl.marks.drained⟩
    intro ids hids i p hp hloop
    obtain rfl := Option.some.inj hids
    cases hheld : p.world.inConnections with
    -- a connection that is not in `connections_` has been closed
    | false =>
      exact Or.inr (Or.inl ((h.descriptors.sound i p hp).close.not_connected_of_released hheld))
    | true =>
      refine Or.inl (List.mem_filter.mpr ⟨?_, by simp [hp, hloop, hheld]⟩)
      exact List.mem_range.mpr (List.getElem?_eq_some_iff.mp hp).1
  · exact (hl.unjoined hm).1 (hq ▸ List.mem_cons_of_mem _ hx)

theorem loop_of_loopIdle {t : System} {ℓ i : Nat} {p : Peer} (h : t.loopIdle ℓ = true)
    (hp : t.conns[i]? = some p) (hloop : p.loop = ℓ) : p.world.loop = .idle := by
  have hall := List.all_eq_true.mp h p (List.mem_of_getElem? hp)
  simpa [hloop] using hall

/-- Whatever was owed when the workers were joined has been run before the barrier. -/
private theorem Inv.barrier {s : Shutdown} {ℓ : Nat} {L : LoopThread} {rest : List Item}
    (h : Inv s) (hL : s.loops[ℓ]? = some L) (hidle : s.system.loopIdle ℓ = true)
    (hq : L.taskQueue = .barrier :: rest) :
    Inv (s.update s.system ℓ { L with taskQueue := rest, drained := true }) := by
  have hl := h.loops ℓ L hL
  -- the main thread posts the barrier after the join
  have hjoined : s.main.joined := by
    by_contra hne
    exact (hl.unjoined hne).1 (by simp [hq])
  have hclosed := hl.closed (MainPc.closedBefore_of_joined hjoined ℓ)
  have hfinalizes := (List.pairwise_cons.mp (hq ▸ hl.order.finalizes)).1
  have hsub : ∀ x ∈ rest, x ∈ L.taskQueue := fun x hx => hq ▸ List.mem_cons_of_mem _ hx
  have hpart : ∀ (i : Nat) p, s.system.conns[i]? = some p → p.loop = ℓ →
      p.world.taskQueue = rest.filterMap (Item.of i) := by
    intro i p hp hloop
    rw [hl.synced.part i p hp hloop, hq, List.filterMap_cons_none (Item.of_barrier i)]
  refine h.setLoop ⟨(hq ▸ hl.order).tail, ⟨fun i cb hx => hl.synced.owned i cb (hsub _ hx), hpart⟩,
    ⟨hl.marks.snapshot, hl.marks.closed, fun _ => ⟨hclosed, fun i p hp hloop => ?_⟩⟩,
    fun hs x hx => hl.sealed hs x (hsub x hx), fun hm => ?_, hl.closed,
    fun hm => absurd hjoined hm, fun _ => rfl⟩
  · have hp' := h.peers i p hp
    refine (hp'.joined hjoined).settled (h.descriptors.sound i p hp) hp'.released
      (loop_of_loopIdle hidle hp hloop) fun hmem => ?_
    -- a deferred close would be behind the barrier
    rw [hpart i p hp hloop] at hmem
    obtain ⟨x, hx, hof⟩ := List.mem_filterMap.mp hmem
    have hfin := hfinalizes x hx rfl
    cases x with
    | callback j cb =>
      simp only [Item.of, Option.ite_none_right_eq_some, Option.some.injEq] at hof
      simp [hof.2, Item.isFinalize] at hfin
    | _ => simp at hof
  · simp [hm, MainPc.joined] at hjoined

/-- `closeAllConnections` gets to the next connection of its snapshot, which is then closed or
about to be. -/
private theorem LoopInv.closeOne {t : System} {m : MainPc} {ℓ i : Nat} {L : LoopThread}
    {ids : List Nat} (hl : LoopInv t m ℓ L) (hsnap : L.snapshot = some ids)
    (hdoomed : ∀ p, t.conns[i]? = some p → Doomed p.world) :
    LoopInv t m ℓ { L with snapshot := some (ids.erase i) } := by
  have hasked : m ≠ .serving := fun hm => by simp [(hl.unasked hm).2.1] at hsnap
  refine ⟨hl.order, hl.synced, ⟨fun ids' hids' j q hq hloop => ?_, hl.marks.closed,
    hl.marks.drained⟩, fun _ => hl.sealed (Or.inl (by simp [hsnap])), fun hm => absurd hm hasked,
    hl.closed, hl.unjoined, hl.drained⟩
  obtain rfl := Option.some.inj hids'
  by_cases hij : j = i
  · exact Or.inr (hdoomed q (hij ▸ hq))
  · exact (hl.marks.snapshot ids hsnap j q hq hloop).imp (List.mem_erase_of_ne hij).mpr id

private theorem Inv.closeOne {s : Shutdown} {t : System} {ℓ i : Nat} {L : LoopThread}
    {ids : List Nat} (h : Inv s) (hL : s.loops[ℓ]? = some L) (hsnap : L.snapshot = some ids)
    (ht : s.system.step (.conn i (.closeEvent .closeAll)) = some t) :
    Inv (s.update t ℓ { L with snapshot := some (ids.erase i) }) := by
  -- only the program counter of the connection changes
  have hown : ∀ j a q q', System.Act.conn i (.closeEvent .closeAll) = .conn j a →
      s.system.conns[j]? = some q → t.conns[j]? = some q' → World.Step q.world a q'.world →
      q'.world.taskQueue = q.world.taskQueue ∧ Doomed q'.world := by
    intro j a q q' heq _ _ hw
    cases heq
    generalize hv : q'.world = v at hw ⊢
    cases hw
    exact ⟨rfl, Or.inr ⟨.toLoop, rfl⟩⟩
  refine h.update hL ht (by simp)
    (fun j a q q' heq hq hq' _ hw => (hown j a q q' heq hq hq' hw).1) ?_
  refine LoopInv.closeOne (L := L) ?_ hsnap fun p hp => ?_
  · exact (h.loops ℓ L hL).quiet h.descriptors ht (by simp)
      fun j a q q' heq hq hq' _ hw => (hown j a q q' heq hq hq' hw).1
  · cases System.peer_of_step h.descriptors (System.step_cases ht) hp with
    | same _ hne => exact absurd rfl (hne _)
    | step hq heq _ hw => exact (hown i _ _ p heq hq hp hw).2
    | created heq => cases heq

private theorem Inv.closeGone {s : Shutdown} {ℓ i : Nat} {L : LoopThread} {ids : List Nat}
    {p : Peer} (h : Inv s) (hL : s.loops[ℓ]? = some L) (hsnap : L.snapshot = some ids)
    (hp : s.system.conns[i]? = some p) (hheld : p.world.inConnections = false) :
    Inv (s.update s.system ℓ { L with snapshot := some (ids.erase i) }) := by
  refine h.setLoop ((h.loops ℓ L hL).closeOne hsnap fun q hq => ?_)
  obtain rfl : p = q := Option.some.inj (hp.symm.trans hq)
  exact Or.inl ((h.descriptors.sound i p hp).close.not_connected_of_released hheld)

/-- With the loop thread back from the last `handleClose` every connection has been closed. -/
private theorem Inv.closeDone {s : Shutdown} {ℓ : Nat} {L : LoopThread} (h : Inv s)
    (hL : s.loops[ℓ]? = some L) (hsnap : L.snapshot = some [])
    (hidle : s.system.loopIdle ℓ = true) :
    Inv (s.update s.system ℓ { L with snapshot := none, closed := true }) := by
  have hl := h.loops ℓ L hL
  have hasked : s.main ≠ .serving := fun hm => by simp [(hl.unasked hm).2.1] at hsnap
  refine h.setLoop ⟨hl.order, hl.synced, ⟨fun _ hids => (nomatch hids), fun _ i p hp hloop => ?_,
    fun hd => ⟨rfl, (hl.marks.drained hd).2⟩⟩, fun _ => hl.sealed (Or.inl (by simp [hsnap])),
    fun hm => absurd hm hasked, fun _ => rfl, hl.unjoined, hl.drained⟩
  have hpc := loop_of_loopIdle hidle hp hloop
  -- nobody is left in the snapshot, and nobody is before the CAS
  rcases hl.marks.snapshot [] hsnap i p hp hloop with hmem | hstate | ⟨ret, hcas⟩
  · simp at hmem
  · exact hstate
  · simp [hpc] at hcas

/-- The main thread posts to a loop. -/
private theorem LoopInv.post {t : System} {m : MainPc} {ℓ : Nat} {L : LoopThread} {x : Item}
    (hl : LoopInv t m ℓ L) (hof : ∀ i, Item.of i x = none) (hcallback : ∀ i cb, x ≠ .callback i cb)
    (hcreate : x.isCreate = false) (hasked : x = .closeAll → m ≠ .serving)
    (hjoined : x = .barrier → m.joined) : LoopInv t m ℓ (L.post [x]) := by
  have hfin : x.isFinalize = false := by
    cases x with
    | callback i cb => exact absurd rfl (hcallback i cb)
    | _ => rfl
  refine ⟨hl.order.post (.singleton x) (by simpa using fun _ => hcreate)
    (by simpa using fun _ => hfin),
    ⟨fun i cb hx => hl.synced.owned i cb ?_, fun i p hp hloop => ?_⟩,
    ⟨hl.marks.snapshot, hl.marks.closed, hl.marks.drained⟩, fun hs y hy => ?_,
    fun hm => ⟨fun hx => ?_, (hl.unasked hm).2⟩, hl.closed,
    fun hm => ⟨fun hx => ?_, (hl.unjoined hm).2⟩, hl.drained⟩
  · obtain hx | hx := List.mem_append.mp hx
    · exact hx
    · exact absurd (List.mem_singleton.mp hx).symm (hcallback i cb)
  · simp [hl.synced.part i p hp hloop, hof]
  · obtain hy | hy := List.mem_append.mp hy
    · exact hl.sealed hs y hy
    · exact List.mem_singleton.mp hy ▸ hcreate
  · obtain hx | hx := List.mem_append.mp hx
    · exact (hl.unasked hm).1 hx
    · exact hasked (List.mem_singleton.mp hx).symm hm
  · obtain hx | hx := List.mem_append.mp hx
    · exact (hl.unjoined hm).1 hx
    · exact hm (hjoined (List.mem_singleton.mp hx).symm)

/-- A step of the server that no queue notices. -/
private theorem Inv.quiet {s : Shutdown} {t : System} {b : System.Act} (h : Inv s)
    (hstep : s.system.step b = some t) (hcreate : ∀ ℓ fd stream, b ≠ .register ℓ fd stream)
    (hown : ∀ i a (q q' : Peer), b = .conn i a → World.Step q.world a q'.world →
      q'.world.taskQueue = q.world.taskQueue) : Inv { s with system := t } := by
  refine ⟨h.descriptors.step (System.step_cases hstep), h.peers_step hstep ?_, fun ℓ L hL => ?_⟩
  · exact fun ℓ fd stream hb => absurd hb (hcreate ℓ fd stream)
  · exact (h.loops ℓ L hL).quiet h.descriptors hstep (hcreate ℓ)
      fun i a q q' hb _ _ _ hw => hown i a q q' hb hw

/-- Every loop has gone through its snapshot, and the workers are gone. -/
private theorem Inv.retired {s : Shutdown} (h : Inv s) (hclosed : ∀ ℓ, s.main.closedBefore ℓ)
    (hdone : ∀ p ∈ s.system.conns, workersDone p.world = true) :
    ∀ (i : Nat) p, s.system.conns[i]? = some p → Retired p.world := by
  intro i p hp
  have hL := List.getElem?_eq_getElem (h.peers i p hp).placed
  have hl := h.loops p.loop _ hL
  have hworkers := hdone p (List.mem_of_getElem? hp)
  simp only [workersDone, Bool.and_eq_true, List.isEmpty_iff, Bool.not_eq_true',
    List.contains_eq_mem, decide_eq_false_iff_not] at hworkers
  exact ⟨hl.marks.closed (hl.closed (hclosed p.loop)) i p hp rfl, hworkers.1.1, hworkers.1.2,
    hworkers.2⟩

private theorem lt_of_getElem?_none {α : Type} {l : List α} {k i : Nat} {x : α}
    (hk : l[k]? = none) (hi : l[i]? = some x) : i < k :=
  (List.getElem?_eq_some_iff.mp hi).1.trans_le (List.getElem?_eq_none_iff.mp hk)

/-- The main thread goes on before the workers are joined. -/
private theorem Inv.gotoUnjoined {s : Shutdown} (h : Inv s) {m : MainPc} (hj : ¬ s.main.joined)
    (hm : ¬ m.joined) (hserving : m ≠ .serving)
    (hclosed : ∀ ℓ L, s.loops[ℓ]? = some L → m.closedBefore ℓ → L.closed = true) :
    Inv { s with main := m } :=
  h.goto hserving hclosed (fun hm' => absurd hm' hm) (fun hj' => absurd hj' hj)
    fun _ _ _ hd => absurd (MainPc.joined_of_drainedBefore hd) hm

/-- The main thread goes on when the workers are joined. -/
private theorem Inv.gotoJoined {s : Shutdown} (h : Inv s) {m : MainPc} (hj : s.main.joined)
    (hm : m.joined)
    (hdrained : ∀ ℓ L, s.loops[ℓ]? = some L → m.drainedBefore ℓ → L.drained = true) :
    Inv { s with main := m } := by
  refine h.goto (by rintro rfl; exact hm) (fun ℓ L hL _ => ?_) (fun _ i p hp => ?_) (fun _ => hm)
    hdrained
  · exact (h.loops ℓ L hL).closed (MainPc.closedBefore_of_joined hj ℓ)
  · exact (h.peers i p hp).joined hj

theorem Inv.step {s s' : Shutdown} {a : Act} (h : Inv s) (hstep : Step s a s') : Inv s' := by
  have hclosed : ∀ ℓ L, s.loops[ℓ]? = some L → s.main.closedBefore ℓ → L.closed = true :=
    fun ℓ L hL => (h.loops ℓ L hL).closed
  have hdrained : ∀ ℓ L, s.loops[ℓ]? = some L → s.main.drainedBefore ℓ → L.drained = true :=
    fun ℓ L hL => (h.loops ℓ L hL).drained
  cases hstep with
  | accept hL hm ht => exact h.accept hL hm ht
  | create hL hq ht => exact h.create hL hq ht
  | callback hL hq ht => exact h.callback hL hq ht
  | closeAll hL hq => exact h.closeAll hL hq
  | barrier hL hidle hq => exact h.barrier hL hidle hq
  | closeOne hL hsnap ht => exact h.closeOne hL hsnap ht
  | closeGone hL hsnap hp hheld => exact h.closeGone hL hsnap hp hheld
  | closeDone hL hsnap hidle => exact h.closeDone hL hsnap hidle
  | conn hp hmay ht =>
    exact h.conn hp (fun alive heq => by simp [heq, mayStep] at hmay) ht
  | login ht => exact h.quiet ht (by simp) (by simp)
  | room ht => exact h.quiet ht (by simp) (by simp)
  | stopAccepting hm =>
    exact h.gotoUnjoined (by simp [hm]) (by simp) (by simp) fun _ _ _ hc => hc.elim
  | @askClose k L hm hL =>
    have hl := (h.loops k L hL).post (x := .closeAll) Item.of_closeAll (by simp) rfl
      (by simp [hm]) (by simp)
    exact (h.setLoop hl).gotoUnjoined (by simp [Shutdown.update, hm]) (by simp) (by simp)
      fun _ _ _ hc => hc.elim
  | allAsked hm =>
    exact h.gotoUnjoined (by simp [hm]) (by simp) (by simp)
      fun ℓ _ _ hc => absurd hc (Nat.not_lt_zero ℓ)
  | @loopClosed k K hm hK hKclosed =>
    refine h.gotoUnjoined (by simp [hm]) (by simp) (by simp) fun ℓ L hL hc => ?_
    -- the loops before, and the one just waited for
    obtain hlt | rfl := Nat.lt_succ_iff_lt_or_eq.mp hc
    · exact hclosed ℓ L hL (by simpa [hm] using hlt)
    · exact Option.some.inj (hK.symm.trans hL) ▸ hKclosed
  | allClosed hm hk =>
    refine h.gotoUnjoined (by simp [hm]) (by simp) (by simp) fun ℓ L hL _ => hclosed ℓ L hL ?_
    simpa [hm] using lt_of_getElem?_none hk hL
  | stopPool hm ht =>
    have hstopped := h.quiet ht (by simp) fun i a q q' heq hw => by
      cases heq
      generalize hv : q'.world = v at hw ⊢
      cases hw
      rfl
    exact hstopped.gotoUnjoined (by simp [hm]) (by simp) (by simp)
      fun ℓ L hL _ => hclosed ℓ L hL (by simp [hm])
  | poolStopped hm =>
    exact h.gotoUnjoined (by simp [hm]) (by simp) (by simp)
      fun ℓ L hL _ => hclosed ℓ L hL (by simp [hm])
  | joined hm hdone =>
    have hall : ∀ ℓ, s.main.closedBefore ℓ := fun ℓ => by simp [hm]
    exact h.goto (by simp) (fun ℓ L hL _ => hclosed ℓ L hL (hall ℓ))
      (fun _ => h.retired hall hdone) (fun _ => trivial) fun _ _ _ hd => hd.elim
  -- from here on the workers are joined
  | @askDrain k L hm hL =>
    have hl := (h.loops k L hL).post (x := .barrier) Item.of_barrier (by simp) rfl
      (by simp) (by simp [hm])
    exact (h.setLoop hl).gotoJoined (by simp [Shutdown.update, hm]) trivial
      fun _ _ _ hd => hd.elim
  | allDraining hm =>
    exact h.gotoJoined (by simp [hm]) trivial fun ℓ _ _ hd => absurd hd (Nat.not_lt_zero ℓ)
  | @loopDrained k K hm hK hKdrained =>
    refine h.gotoJoined (by simp [hm]) trivial fun ℓ L hL hd => ?_
    obtain hlt | rfl := Nat.lt_succ_iff_lt_or_eq.mp hd
    · exact hdrained ℓ L hL (by simpa [hm] using hlt)
    · exact Option.some.inj (hK.symm.trans hL) ▸ hKdrained
  | allDrained hm hk =>
    refine h.gotoJoined (by simp [hm]) trivial fun ℓ L hL _ => hdrained ℓ L hL ?_
    simpa [hm] using lt_of_getElem?_none hk hL
  | @stopLoop k L hm hL =>
    have hl := h.loops k L hL
    have hl' : LoopInv s.system s.main k { L with stop := true } :=
      ⟨hl.order, hl.synced, ⟨hl.marks.snapshot, hl.marks.closed, hl.marks.drained⟩, hl.sealed,
        hl.unasked, hl.closed, hl.unjoined, hl.drained⟩
    have h' := h.setLoop hl'
    exact h'.gotoJoined (by simp [Shutdown.update, hm]) trivial
      fun ℓ L hL _ => (h'.loops ℓ L hL).drained (by simp [Shutdown.update, hm])
  | loopsStopped hm =>
    exact h.gotoJoined (by simp [hm]) trivial fun ℓ L hL _ => hdrained ℓ L hL (by simp [hm])
  | loopJoined hm =>
    exact h.gotoJoined (by simp [hm]) trivial fun ℓ L hL _ => hdrained ℓ L hL (by simp [hm])
  | returned hm =>
    exact h.gotoJoined (by simp [hm]) trivial fun ℓ L hL _ => hdrained ℓ L hL (by simp [hm])
  | @exit ℓ L hL =>
    have hl := h.loops ℓ L hL
    exact h.setLoop ⟨hl.order, hl.synced,
      ⟨hl.marks.snapshot, hl.marks.closed, hl.marks.drained⟩, hl.sealed, hl.unasked, hl.closed,
      hl.unjoined, hl.drained⟩

/-! ## §4 Graceful stop -/

/-- The close of a connection that was `w` in an earlier state and is `w'` when the server has
stopped. -/
structure Closed (w w' : World) : Prop where
  once : w'.log.closeCalls = 1
  state : w'.conn.state = .closed
  released : w'.inConnections = false
  /-- from the close callback on no handler executes and none starts -/
  afterHandlers : w.log.closeCalls ≠ 0 →
    (∀ t ∈ w.tasks, ¬ t.Executing) ∧ w'.log.started = w.log.started

/-- The server itself takes at most one step. -/
theorem system_of_step {s s' : Shutdown} {a : Act} (h : Step s a s') :
    s'.system = s.system ∨ ∃ b, s.system.step b = some s'.system := by
  cases h with
  | accept _ _ ht => exact Or.inr ⟨_, ht⟩
  | create _ _ ht => exact Or.inr ⟨_, ht⟩
  | callback _ _ ht => exact Or.inr ⟨_, ht⟩
  | closeOne _ _ ht => exact Or.inr ⟨_, ht⟩
  | conn _ _ ht => exact Or.inr ⟨_, ht⟩
  | login ht => exact Or.inr ⟨_, ht⟩
  | room ht => exact Or.inr ⟨_, ht⟩
  | stopPool _ ht => exact Or.inr ⟨_, ht⟩
  | _ => exact Or.inl rfl

/-- Connection `i` is still there, and if its close callback had been invoked in `w`, no handler
has started since. -/
def Stays (i : Nat) (w : World) (s : Shutdown) : Prop :=
  ∃ p, s.system.conns[i]? = some p ∧ (w.log.closeCalls ≠ 0 →
    p.world.log.closeCalls ≠ 0 ∧ p.world.log.started = w.log.started)

theorem Stays.step {i : Nat} {w : World} {s s' : Shutdown} {a : Act} (h : Stays i w s) (hi : Inv s)
    (hstep : Step s a s') : Stays i w s' := by
  obtain ⟨p, hp, hcalled⟩ := h
  obtain heq | ⟨b, hb⟩ := system_of_step hstep
  · exact ⟨p, heq ▸ hp, hcalled⟩
  obtain ⟨p', hp', -⟩ := System.peer_stays hi.descriptors hb hp
  refine ⟨p', hp', fun hcalls => ?_⟩
  obtain ⟨hpcalls, hstarted⟩ := hcalled hcalls
  cases System.peer_of_step hi.descriptors (System.step_cases hb) hp' with
  | same hq =>
    obtain rfl : p = p' := Option.some.inj (hp.symm.trans hq)
    exact ⟨hpcalls, hstarted⟩
  | step hq _ _ hw =>
    obtain rfl := Option.some.inj (hp.symm.trans hq)
    have hsound := hi.descriptors.sound i p hp
    refine ⟨fun h0 => hpcalls (by have := (later_of_step hw).calls; omega), ?_⟩
    by_contra hne
    -- a handler starts for a task, and that would have deferred the callback
    obtain ⟨t, ht⟩ := task_of_started hw fun heq => hne (heq.trans hstarted)
    exact hpcalls (closeCalls_eq_zero_of_task hsound.task hsound.close ht)
  -- the number is taken
  | created _ hj =>
    have hlt := (List.getElem?_eq_some_iff.mp hp).1
    omega

theorem run_inv {n : Nat} {firstRoomId : UInt32} {acts : List Act} {s : Shutdown}
    (hrun : run step (init n firstRoomId) acts = some s) : Inv s :=
  run_invariant (fun _ _ _ h hs => h.step (step_cases hs)) (.init n firstRoomId) hrun

/-- **Graceful stop**: when `Server::stop` returns, every connection there was in any state of the
run is closed and out of `connections_`, and its close callback has run exactly once, after its
last handler. -/
theorem stop_closes_all (n : Nat) (firstRoomId : UInt32) (pre post : List Act) (v s : Shutdown)
    (hpre : run step (init n firstRoomId) pre = some v) (hpost : run step v post = some s)
    (hreturned : s.main = .returned) (i : Nat) (q : Peer) (hq : v.system.conns[i]? = some q) :
    ∃ p, s.system.conns[i]? = some p ∧ Closed q.world p.world := by
  have hv := run_inv hpre
  have hstays : Inv s ∧ Stays i q.world s := by
    refine run_invariant (P := fun u => Inv u ∧ Stays i q.world u) (fun u a u' h hu => ?_)
      ⟨hv, q, hq, fun hcalls => ⟨hcalls, rfl⟩⟩ hpost
    exact ⟨h.1.step (step_cases hu), h.2.step h.1 (step_cases hu)⟩
  obtain ⟨hs, p, hp, hcalled⟩ := hstays
  have hpeer := hs.peers i p hp
  have hl := hs.loops p.loop _ (List.getElem?_eq_getElem hpeer.placed)
  -- the loop of the connection has run its barrier
  have hsettled := (hl.marks.drained (hl.drained (by simp [hreturned]))).2 i p hp rfl
  refine ⟨p, hp, ?_, hpeer.released.closed hsettled.released, hsettled.released, fun hcalls => ?_⟩
  · have howed := (hs.descriptors.sound i p hp).close.owed
    have hcalls := hsettled.called
    split_ifs at howed <;> omega
  · refine ⟨fun t ht => ?_, (hcalled hcalls).2⟩
    have hsound := hv.descriptors.sound i q hq
    exact absurd (closeCalls_eq_zero_of_task hsound.task hsound.close ht) hcalls

/-- The handler of a login runs on connection 0. -/
def loginRuns : List Act :=
  [.accept 0 7, .runItem 0 (encodeMessage System.aliceLogin) true, .conn 0 .readEvent,
    .conn 0 (.readv (encodeMessage System.aliceLogin).length), .conn 0 .readvAgain, .conn 0 .loop,
    .conn 0 .loop, .conn 0 .loop, .conn 0 .loop, .conn 0 .loop, .conn 0 (.worker 0),
    .conn 0 (.worker 0)]

/-- The server stops while it does, with a creation still queued in the other loop: the handler
returns when the pool is being joined, and its deferred close comes in before the barrier. -/
def stopsMeanwhile : List Act :=
  [.accept 1 8, .main, .main, .main, .main, .runItem 0 [] true, .closeOne 0 0, .conn 0 .loop,
    .conn 0 .loop, .conn 0 .loop, .closeDone 0, .runItem 1 [] true, .runItem 1 [] true,
    .closeOne 1 1, .conn 1 .loop, .conn 1 .loop, .conn 1 .loop, .conn 1 .loop, .conn 1 .loop,
    .closeDone 1, .main, .main, .main, .main, .main, .main, .conn 0 (.handlerReturn 0),
    .conn 0 (.worker 0), .conn 0 (.post .finalize), .main, .main, .main, .main,
    .runItem 0 [] true, .conn 0 .loop, .conn 0 .loop, .runItem 0 [] true, .runItem 1 [] true,
    .main, .main, .main, .main, .main, .main, .exit 0, .exit 1, .main, .main, .main]

theorem stop_closes_all_meanwhile : ∃ v s q,
    run step (init 2 1) loginRuns = some v ∧ run step v stopsMeanwhile = some s ∧
      s.main = .returned ∧ v.system.conns[0]? = some q ∧
      q.world.tasks = [⟨System.aliceLogin, .handler⟩] ∧
      ∃ p, s.system.conns[0]? = some p ∧ Closed q.world p.world := by
  have hlast : ((run step (init 2 1) loginRuns).any fun v =>
      (v.system.conns[0]?).any (fun q => q.world.tasks = [⟨System.aliceLogin, .handler⟩]) &&
        (run step v stopsMeanwhile).any fun s => s.main = .returned) = true := by
    decide +kernel
  obtain ⟨v, hv, hlater⟩ := exists_of_run_any hlast
  obtain ⟨hfirst, hrest⟩ := Bool.and_eq_true_iff.mp hlater
  obtain ⟨q, hq, htasks⟩ := (Option.any_eq_true _ _).mp hfirst
  obtain ⟨s, hs, hreturned⟩ := exists_of_run_any hrest
  have hmain := of_decide_eq_true hreturned
  exact ⟨v, s, q, hv, hs, hmain, hq, of_decide_eq_true htasks,
    stop_closes_all 2 1 loginRuns stopsMeanwhile v s hv hs hmain 0 q hq⟩

end Shutdown

end EchoNet.Server
