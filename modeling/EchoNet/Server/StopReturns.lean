import EchoNet.Lib.Ranking
import EchoNet.Net.WorkLeft
import EchoNet.Server.GracefulStop

/-!
# `Server::stop` Returns

`stop_closes_all` says what is true when `Server::stop` returns.  Here is why it does: the four
waits of the main thread are for loops and workers that can always go on, and what they have to do
grows less.

- The work left is that of the connections (`WorkLeft`), of the queues and snapshots of the loops,
  and the way the main thread still has to go.  The closure of `closeAllConnections` weighs as much
  as a snapshot of all connections there can be, those still to be created included.
- A promise that the main thread waits for is either set or its closure is queued or running
  (`LoopLive`), so a loop at rest has set it.

The steps from outside are new connections, events of the kernel, a `readv` that returns bytes (a
client that never pauses keeps `Connection::read` going), and what running handlers and other
threads ask for: their sends, and the sections of the login and of the rooms.  Between them the
server is on its own.  The only error of `epoll_wait` here is `EINTR`: any other one ends
`EventLoop::loop`, and nothing takes its closures then.

## Main result

`serverStop_returns`: from every reachable state the server's own steps are bounded, and when none
of them is left `Server::stop` has returned.
-/

namespace EchoNet.Server

open EchoNet.Lib EchoNet.Protocol EchoNet.Net.PoolMachine EchoNet.Chat

/-! ## §1 The work left -/

namespace System

/-- The work left in the connections. -/
def work (t : System) : Nat := (t.conns.map fun p => p.world.rank).sum

theorem work_setWorld {s : System} {i : Nat} {p : Peer} (hp : s.conns[i]? = some p) (w : World) :
    (s.setWorld i p w).work + p.world.rank = s.work + w.rank :=
  sum_map_set_add hp (fun p => p.world.rank) { p with world := w }

theorem work_setWorld_lt {s : System} {i : Nat} {p : Peer} (hp : s.conns[i]? = some p) {w : World}
    (hw : w.rank < p.world.rank) : (s.setWorld i p w).work < s.work := by
  have hset := work_setWorld hp w
  omega

theorem work_setWorld_add {s : System} {i : Nat} {p : Peer} (hp : s.conns[i]? = some p) {w : World}
    {k : Nat} (hw : w.rank = p.world.rank + k) : (s.setWorld i p w).work = s.work + k := by
  have hset := work_setWorld hp w
  omega

theorem length_setWorld (s : System) (i : Nat) (p : Peer) (w : World) :
    (s.setWorld i p w).conns.length = s.conns.length := List.length_set

theorem work_map {s : System} {f : Peer → Peer} (hf : ∀ p, (f p).world.rank = p.world.rank) :
    ((s.conns.map f).map fun p => p.world.rank).sum = s.work := by
  rw [List.map_map]
  exact congrArg List.sum (List.map_congr_left fun p _ => hf p)

/-- A creation replaces no work. -/
theorem work_register {s t : System} {ℓ : Nat} {fd : Int} {stream : Bytes}
    (h : s.step (.register ℓ fd stream) = some t) :
    t.work = s.work ∧ t.conns.length = s.conns.length + 1 := by
  cases step_cases h with
  | register hposted =>
    refine ⟨?_, by simp [evict]⟩
    have hevict : ((s.evict ℓ fd).conns.map fun p => p.world.rank).sum = s.work :=
      work_map fun p => by split_ifs <;> rfl
    simp [work, hevict]

/-- `removeConnection` changes nothing but flags. -/
theorem work_removed {s : System} {i : Nat} {p : Peer} {ret : Return} {fd : Int}
    (hp : s.conns[i]? = some p) (hl : p.world.loop = .removing ret fd) :
    ((s.removeConnection p.loop fd).setLoop i ret.pc).work < s.work := by
  have hq : (s.removeConnection p.loop fd).conns[i]? =
      some { p with world := p.world.removeConnection fd } := by
    simp [removeConnection, hp]
  have hmap : (s.removeConnection p.loop fd).work = s.work :=
    work_map fun q => by split_ifs <;> simp
  have hlt : (World.rank { p.world.removeConnection fd with loop := ret.pc }) <
      (p.world.removeConnection fd).rank := by
    rw [World.rank_removeConnection]
    exact World.rank_removed hl
  have hset := work_setWorld_lt hq hlt
  rw [hmap] at hset
  rwa [work, setLoop, modify_eq_set_of_getElem? hq]

/-- A connection's own step is the server's. -/
theorem work_of_own {s t : System} {i : Nat} {a : Net.PoolMachine.Act}
    (ha : a.own = true ∨ ∃ alive, a = .runCallback alive) (h : s.step (.conn i a) = some t) :
    t.work < s.work ∧ t.conns.length = s.conns.length := by
  cases step_cases h with
  | conn hp hw hpc =>
    refine ⟨work_setWorld_lt hp ?_, length_setWorld ..⟩
    obtain ha | ⟨alive, rfl⟩ := ha
    · exact World.rank_of_own ha (World.step_cases hw)
    · exact World.rank_of_runCallback (World.step_cases hw)
  | businessClosed hp hl =>
    exact ⟨work_setWorld_lt hp (World.rank_of_own rfl (.businessClosed _ _ hl)),
      length_setWorld ..⟩
  | removed hp hl => exact ⟨work_removed hp hl, by simp [removeConnection, setLoop]⟩

/-- `handleClose` is five steps. -/
theorem work_closeEvent {s t : System} {i : Nat}
    (h : s.step (.conn i (.closeEvent .closeAll)) = some t) :
    t.work = s.work + 5 ∧ t.conns.length = s.conns.length := by
  cases step_cases h with
  | conn hp hw hpc =>
    cases World.step_cases hw with
    | closeEvent cause hl =>
      exact ⟨work_setWorld_add hp (by simp [World.rank, World.load, hl]), length_setWorld ..⟩

theorem work_stopPool {s t : System} {i : Nat} (h : s.step (.conn i .stopPool) = some t) :
    t.work = s.work ∧ t.conns.length = s.conns.length := by
  cases step_cases h with
  | conn hp hw hpc =>
    cases World.step_cases hw with
    | stopPool => exact ⟨work_setWorld_add (k := 0) hp rfl, length_setWorld ..⟩

end System

/-- What a closure costs the loop when there can be `n` connections; that of a connection counts
as its own work. -/
def Item.rank (n : Nat) : Item → Nat
  | .create _ => 1
  | .callback _ _ => 0
  | .closeAll => 6 * n + 2
  | .barrier => 1

namespace LoopThread

def creates (L : LoopThread) : Nat := L.taskQueue.countP Item.isCreate

def rank (n : Nat) (L : LoopThread) : Nat :=
  (L.taskQueue.map (Item.rank n)).sum + (L.snapshot.elim 0 fun ids => 6 * ids.length + 1) +
    (!L.finished).toNat

theorem creates_post_callbacks (L : LoopThread) (i : Nat) (cbs : List Callback) :
    (L.post (cbs.map (.callback i))).creates = L.creates := by
  simp [creates, List.countP_append, Item.isCreate, Function.comp_def]

theorem rank_post (n : Nat) (L : LoopThread) (items : List Item) :
    (L.post items).rank n = L.rank n + (items.map (Item.rank n)).sum := by
  simp only [rank, post, List.map_append, List.sum_append]
  omega

theorem rank_post_callbacks (n : Nat) (L : LoopThread) (i : Nat) (cbs : List Callback) :
    (L.post (cbs.map (.callback i))).rank n = L.rank n := by
  simp [rank_post, Function.comp_def, Item.rank.eq_2]

end LoopThread

/-- The way the main thread has to go with `m` loops, what it posts included. -/
def MainPc.rank (m n : Nat) : MainPc → Nat
  | .returned => 0
  | .joinLoops k => 1 + (m - k)
  | .stopLoops k => 2 + m + (m - k)
  | .awaitDrained k => 3 + 2 * m + (m - k)
  | .drain k => 4 + 3 * m + 2 * (m - k)
  | .joinPool => 5 + 5 * m
  | .stopPool k => 6 + 5 * m + (n - k)
  | .awaitClosed k => 7 + 5 * m + n + (m - k)
  | .closeAll k => 8 + 6 * m + n + (6 * n + 3) * (m - k)
  | .serving => 9 + 6 * m + n + (6 * n + 3) * m

namespace Shutdown

/-- The steps of the server's own threads. -/
def Act.own : Act → Bool
  | .runItem _ _ _ | .closeOne _ _ | .closeDone _ | .main | .exit _ => true
  | .conn _ a => a.own
  | _ => false

/-- The connections there are and those that loops have yet to create. -/
def size (s : Shutdown) : Nat := s.system.conns.length + (s.loops.map LoopThread.creates).sum

def workAt (n : Nat) (s : Shutdown) : Nat :=
  s.system.work + (s.loops.map (LoopThread.rank n)).sum + s.main.rank s.loops.length n

/-- The work left. -/
def work (s : Shutdown) : Nat := s.workAt s.size

/-! ## §2 Own steps -/

section

variable {s : Shutdown} {n ℓ : Nat} {L : LoopThread}

/-- A loop and the connections spend some of their work. -/
theorem workAt_update (hL : s.loops[ℓ]? = some L) {t : System} {L' : LoopThread}
    (hlt : t.work + L'.rank n < s.system.work + L.rank n) :
    (s.update t ℓ L').workAt n < s.workAt n := by
  have hset := sum_map_set_add hL (LoopThread.rank n) L'
  simp only [workAt, update, List.length_set]
  omega

theorem size_update (hL : s.loops[ℓ]? = some L) {t : System} {L' : LoopThread}
    (heq : t.conns.length + L'.creates = s.system.conns.length + L.creates) :
    (s.update t ℓ L').size = s.size := by
  have hset := sum_map_set_add hL LoopThread.creates L'
  simp only [size, update]
  omega

/-- The main thread goes on. -/
theorem workAt_goto {m : MainPc} (hlt : m.rank s.loops.length n < s.main.rank s.loops.length n) :
    workAt n { s with main := m } < s.workAt n := Nat.add_lt_add_left hlt _

/-- It leaves something for a loop to do. -/
theorem workAt_post (hL : s.loops[ℓ]? = some L) {L' : LoopThread} {m : MainPc}
    (hlt : L'.rank n + m.rank s.loops.length n < L.rank n + s.main.rank s.loops.length n) :
    workAt n { s with loops := s.loops.set ℓ L', main := m } < s.workAt n := by
  have hset := sum_map_set_add hL (LoopThread.rank n) L'
  simp only [workAt, List.length_set]
  omega

theorem size_post (hL : s.loops[ℓ]? = some L) {L' : LoopThread} {m : MainPc}
    (heq : L'.creates = L.creates) :
    size { s with loops := s.loops.set ℓ L', main := m } = s.size :=
  size_update hL (congrArg _ heq)

end

/-- The loop runs the oldest closure of its queue. -/
private theorem runItem_spends {s s' : Shutdown} {ℓ n : Nat} {stream : Bytes} {alive : Bool}
    (hn : s.system.conns.length ≤ n) (h : s.step (.runItem ℓ stream alive) = some s') :
    s'.workAt n < s.workAt n ∧ s'.size = s.size := by
  cases step_cases h with
  | create hL hq ht =>
    obtain ⟨hwork, hlength⟩ := System.work_register ht
    refine ⟨workAt_update hL ?_, size_update hL ?_⟩
    · simp [LoopThread.rank, hq, Item.rank, hwork]
    · simp [LoopThread.creates, hq, List.countP_cons, Item.isCreate, hlength]
      omega
  | callback hL hq ht =>
    obtain ⟨hwork, hlength⟩ := System.work_of_own (Or.inr ⟨alive, rfl⟩) ht
    refine ⟨workAt_update hL ?_, size_update hL ?_⟩
    · simpa [LoopThread.rank, hq, Item.rank] using hwork
    · simp [LoopThread.creates, hq, Item.isCreate, hlength]
  | closeAll hL hq =>
    have hsnap : (s.system.connectionsOf ℓ).length ≤ n :=
      (List.length_filter_le _ _).trans (by rwa [List.length_range])
    refine ⟨workAt_update hL ?_, size_update hL ?_⟩
    · simp [LoopThread.rank, hq, Item.rank]
      omega
    · simp [LoopThread.creates, hq, Item.isCreate]
  | barrier hL hidle hq =>
    refine ⟨workAt_update hL ?_, size_update hL ?_⟩
    · simp [LoopThread.rank, hq, Item.rank]
    · simp [LoopThread.creates, hq, Item.isCreate]

/-- The loop closes only what is in its snapshot. -/
private theorem mem_of_closeOne {s s' : Shutdown} {ℓ i : Nat} {L : LoopThread} {ids : List Nat}
    (h : s.step (.closeOne ℓ i) = some s') (hL : s.loops[ℓ]? = some L)
    (hsnap : L.snapshot = some ids) : i ∈ ids := by
  simp only [step, hL, hsnap] at h
  split_ifs at h with hmem
  simpa using (Bool.and_eq_true_iff.mp hmem).2

private theorem closeOne_spends {s s' : Shutdown} {ℓ i n : Nat}
    (h : s.step (.closeOne ℓ i) = some s') : s'.workAt n < s.workAt n ∧ s'.size = s.size := by
  cases step_cases h with
  | @closeOne _ _ L ids t hL hsnap ht =>
    have hmem := mem_of_closeOne h hL hsnap
    have hlen := List.length_erase_of_mem hmem
    have hpos := List.length_pos_of_mem hmem
    obtain ⟨hwork, hlength⟩ := System.work_closeEvent ht
    refine ⟨workAt_update hL ?_, size_update hL ?_⟩
    · simp [LoopThread.rank, hsnap]
      omega
    · simp [LoopThread.creates, hlength]
  | @closeGone _ _ L ids p hL hsnap hp hheld =>
    have hmem := mem_of_closeOne h hL hsnap
    have hlen := List.length_erase_of_mem hmem
    have hpos := List.length_pos_of_mem hmem
    refine ⟨workAt_update hL ?_, size_update hL rfl⟩
    simp [LoopThread.rank, hsnap]
    omega

/-- A step of a connection posts closures that its own work accounts for. -/
private theorem conn_spends {s s' : Shutdown} {i n : Nat} {a : Net.PoolMachine.Act}
    (ha : a.own = true) (h : s.step (.conn i a) = some s') :
    s'.workAt n < s.workAt n ∧ s'.size = s.size := by
  cases step_cases h with
  | conn hp hmay ht =>
    obtain ⟨hwork, hlength⟩ := System.work_of_own (Or.inl ha) ht
    simp only [workAt, size, connStep, List.length_modify]
    rw [map_modify_of_eq (fun L => LoopThread.rank_post_callbacks n L i _),
      map_modify_of_eq (fun L => LoopThread.creates_post_callbacks L i _)]
    omega

/-- A loop that the main thread joins is there. -/
private theorem lt_of_loopJoined {s s' : Shutdown} {k : Nat} (h : s.step .main = some s')
    (hm : s.main = .joinLoops k) (hm' : s'.main = .joinLoops (k + 1)) : k < s.loops.length := by
  simp only [step, mainStep, hm] at h
  split at h
  next L hL => exact (List.getElem?_eq_some_iff.mp hL).1
  next =>
    cases h
    cases hm'

/-- Each wait and each call of the main thread is one less. -/
private theorem main_spends {s s' : Shutdown} {n : Nat} (hn : s.system.conns.length ≤ n)
    (h : s.step .main = some s') : s'.workAt n < s.workAt n ∧ s'.size = s.size := by
  cases step_cases h with
  | stopAccepting hm => exact ⟨workAt_goto (by simp [hm, MainPc.rank]), rfl⟩
  -- what it posts weighs as much as the way to the next loop
  | @askClose k L hm hL =>
    have hlt := (List.getElem?_eq_some_iff.mp hL).1
    refine ⟨workAt_post hL ?_, size_post hL (by simp [LoopThread.creates, Item.isCreate])⟩
    have hk : s.loops.length - k = s.loops.length - (k + 1) + 1 := by omega
    simp [hm, MainPc.rank, hk, Nat.mul_succ, LoopThread.rank_post, Item.rank]
    omega
  | @askDrain k L hm hL =>
    have hlt := (List.getElem?_eq_some_iff.mp hL).1
    refine ⟨workAt_post hL ?_, size_post hL (by simp [LoopThread.creates, Item.isCreate])⟩
    simp [hm, MainPc.rank, LoopThread.rank_post, Item.rank]
    omega
  | @stopLoop k L hm hL =>
    have hlt := (List.getElem?_eq_some_iff.mp hL).1
    refine ⟨workAt_post hL ?_, size_post hL rfl⟩
    simp [LoopThread.rank, hm, MainPc.rank]
    omega
  | @loopClosed k L hm hL hclosed =>
    have hlt := (List.getElem?_eq_some_iff.mp hL).1
    exact ⟨workAt_goto (by simp [hm, MainPc.rank]; omega), rfl⟩
  | @loopDrained k L hm hL hdrained =>
    have hlt := (List.getElem?_eq_some_iff.mp hL).1
    exact ⟨workAt_goto (by simp [hm, MainPc.rank]; omega), rfl⟩
  | loopJoined hm =>
    have hlt := lt_of_loopJoined h hm rfl
    exact ⟨workAt_goto (by simp [hm, MainPc.rank]; omega), rfl⟩
  | @stopPool k t hm ht =>
    obtain ⟨hwork, hlength⟩ := System.work_stopPool ht
    have hlt : k < s.system.conns.length := by
      cases System.step_cases ht with
      | conn hp => exact (List.getElem?_eq_some_iff.mp hp).1
    refine ⟨?_, by simp only [size, hlength]⟩
    simp only [workAt, hm, MainPc.rank, hwork]
    omega
  | allAsked hm | allClosed hm | poolStopped hm | joined hm | allDraining hm | allDrained hm
  | loopsStopped hm | returned hm =>
    exact ⟨workAt_goto (by rw [hm]; simp only [MainPc.rank]; omega), rfl⟩

private theorem exit_spends {s s' : Shutdown} {ℓ n : Nat} (h : s.step (.exit ℓ) = some s') :
    s'.workAt n < s.workAt n ∧ s'.size = s.size := by
  cases hstep : s.loops[ℓ]? with
  | none => simp [step, hstep] at h
  | some L =>
    simp only [step, hstep] at h
    split_ifs at h with hmay
    cases h
    have hrunning : L.finished = false := by
      have hrest := (Bool.and_eq_true_iff.mp hmay).2
      simp only [atRest, hstep, Option.any_some, Bool.and_eq_true, Bool.not_eq_true'] at hrest
      exact hrest.1.2
    exact ⟨workAt_update hstep (by simp [LoopThread.rank, hrunning]), size_update hstep rfl⟩

/-- An own step takes away some of the work, and no connection comes or goes. -/
theorem work_of_own {s s' : Shutdown} {a : Act} (ha : a.own = true) (h : s.step a = some s') :
    s'.work < s.work := by
  have hn : s.system.conns.length ≤ s.size := Nat.le_add_right _ _
  have hspends : s'.workAt s.size < s.workAt s.size ∧ s'.size = s.size := by
    cases a with
    | runItem ℓ stream alive => exact runItem_spends hn h
    | closeOne ℓ i => exact closeOne_spends h
    | closeDone ℓ =>
      cases step_cases h with
      | closeDone hL hsnap hidle =>
        exact ⟨workAt_update hL (by simp [LoopThread.rank, hsnap]), size_update hL rfl⟩
    | conn i a => exact conn_spends ha h
    | main => exact main_spends hn h
    | exit ℓ => exact exit_spends h
    | accept ℓ fd | login i k env | room sec => cases ha
  rw [work, work, hspends.2]
  exact hspends.1

end Shutdown

/-! ## §3 What the main thread waits for -/

namespace MainPc

/-- `closeAllConnections` has posted to the loop. -/
def closing : MainPc → Nat → Prop
  | .serving, _ => False
  | .closeAll k, ℓ => ℓ < k
  | _, _ => True

/-- `waitForPendingCallbacks` has posted to the loop. -/
def draining : MainPc → Nat → Prop
  | .drain k, ℓ => ℓ < k
  | .awaitDrained _, _ | .stopLoops _, _ | .joinLoops _, _ | .returned, _ => True
  | _, _ => False

/-- `EventLoop::stop` of the loop has been called. -/
def stopped : MainPc → Nat → Prop
  | .stopLoops k, ℓ => ℓ < k
  | .joinLoops _, _ | .returned, _ => True
  | _, _ => False

/-- `iopool_.stop()` is being executed. -/
def stopping : MainPc → Prop
  | .stopLoops _ | .joinLoops _ | .returned => True
  | _ => False

end MainPc

/-- What a loop has been asked for, it has done or is still to do. -/
structure LoopLive (t : System) (m : MainPc) (ℓ : Nat) (L : LoopThread) : Prop where
  creates : ∀ fd, L.taskQueue.count (.create fd) ≤ t.posted.count (ℓ, fd)
  snapshot : ∀ ids, L.snapshot = some ids → ∀ i ∈ ids, i < t.conns.length
  closing : m.closing ℓ → L.closed = true ∨ L.snapshot ≠ none ∨ .closeAll ∈ L.taskQueue
  draining : m.draining ℓ → L.drained = true ∨ .barrier ∈ L.taskQueue
  stopped : m.stopped ℓ → L.stop = true
  stopping : L.stop = true → m.stopping
  finished : L.finished = true → L.stop = true

theorem LoopLive.mono {t t' : System} {m : MainPc} {ℓ : Nat} {L : LoopThread}
    (h : LoopLive t m ℓ L) (hconns : t.conns.length ≤ t'.conns.length)
    (hposted : ∀ fd, t.posted.count (ℓ, fd) ≤ t'.posted.count (ℓ, fd)) : LoopLive t' m ℓ L :=
  { h with
    creates := fun fd => (h.creates fd).trans (hposted fd)
    snapshot := fun ids hids i hi => (h.snapshot ids hids i hi).trans_le hconns }

/-- A closure that nobody waits for leaves the queue. -/
theorem LoopLive.tail {t : System} {ℓ : Nat} {L : LoopThread} {m : MainPc} {x : Item}
    {rest : List Item} (h : LoopLive t m ℓ L) (hq : L.taskQueue = x :: rest) (hclose : x ≠ .closeAll)
    (hbarrier : x ≠ .barrier) : LoopLive t m ℓ { L with taskQueue := rest } :=
  { h with
    creates := fun fd => by
      have hcreates := h.creates fd
      rw [hq, List.count_cons] at hcreates
      exact (Nat.le_add_right _ _).trans hcreates
    closing := fun hm => by
      obtain hclosed | hsnap | hmem := h.closing hm
      · exact Or.inl hclosed
      · exact Or.inr (Or.inl hsnap)
      · rw [hq] at hmem
        exact Or.inr (Or.inr (List.mem_of_ne_of_mem hclose.symm hmem))
    draining := fun hm => by
      obtain hdrained | hmem := h.draining hm
      · exact Or.inl hdrained
      · rw [hq] at hmem
        exact Or.inr (List.mem_of_ne_of_mem hbarrier.symm hmem) }

theorem LoopLive.closeOne {t : System} {ℓ : Nat} {L : LoopThread} {m : MainPc} {ids : List Nat}
    (h : LoopLive t m ℓ L) (hsnap : L.snapshot = some ids) (i : Nat) :
    LoopLive t m ℓ { L with snapshot := some (ids.erase i) } :=
  { h with
    snapshot := fun ids' hids' j hj => by
      cases hids'
      exact h.snapshot ids hsnap j (List.mem_of_mem_erase hj)
    closing := fun _ => Or.inr (Or.inl (by simp)) }

/-- Something is put in. -/
theorem LoopLive.post {t : System} {ℓ : Nat} {L : LoopThread} {m : MainPc}
    {items : List Item} (h : LoopLive t m ℓ L) (hcreate : ∀ x ∈ items, x.isCreate = false) :
    LoopLive t m ℓ (L.post items) :=
  { h with
    creates := fun fd => by
      have hnone : items.count (.create fd) = 0 := by
        rw [List.count_eq_zero]
        exact fun hmem => absurd (hcreate _ hmem) (by simp [Item.isCreate])
      rw [LoopThread.post_taskQueue, List.count_append, hnone]
      exact h.creates fd
    closing := fun hm => (h.closing hm).imp id fun hc =>
      hc.imp id fun hmem => List.mem_append_left _ hmem
    draining := fun hm => (h.draining hm).imp id fun hmem => List.mem_append_left _ hmem }

namespace System

/-- Only a creation takes something out of what is posted. -/
theorem posted_of_step {s t : System} {b : System.Act} (h : s.step b = some t)
    (hb : ∀ ℓ fd stream, b ≠ .register ℓ fd stream) (e : Nat × Int) :
    s.posted.count e ≤ t.posted.count e := by
  cases step_cases h with
  | accept hfree =>
    dsimp only
    rw [List.count_append]
    exact Nat.le_add_right _ _
  | register => exact absurd rfl (hb _ _ _)
  | _ => exact Nat.le_refl _

theorem posted_of_register {s t : System} {ℓ : Nat} {fd : Int} {stream : Bytes}
    (h : s.step (.register ℓ fd stream) = some t) : t.posted = s.posted.erase (ℓ, fd) := by
  cases step_cases h with
  | register => rfl

end System

namespace Shutdown

def Live (s : Shutdown) : Prop :=
  ∀ (ℓ : Nat) L, s.loops[ℓ]? = some L → LoopLive s.system s.main ℓ L

theorem Live.init (n : Nat) (firstRoomId : UInt32) : Live (init n firstRoomId) := by
  intro ℓ L hL
  have hL' : L = .init := by
    rw [Shutdown.init, List.getElem?_replicate] at hL
    split_ifs at hL
    exact (Option.some.inj hL).symm
  subst hL'
  exact ⟨fun fd => Nat.zero_le _, fun ids hids => absurd hids (Option.some_ne_none ids).symm,
    fun hc => hc.elim, fun hd => hd.elim, fun hs => hs.elim,
    fun hs => absurd hs Bool.false_ne_true, fun hf => absurd hf Bool.false_ne_true⟩

section

variable {s : Shutdown} {t : System} {ℓ : Nat} {L L' : LoopThread}

/-- A step of the server that changes one loop. -/
private theorem Live.update (h : Live s) (hconns : s.system.conns.length ≤ t.conns.length)
    (hposted : ∀ k fd, k ≠ ℓ → s.system.posted.count (k, fd) ≤ t.posted.count (k, fd))
    (hloop : LoopLive t s.main ℓ L') : Live (s.update t ℓ L') := by
  intro k K hK
  rw [Shutdown.update, List.getElem?_set] at hK
  split_ifs at hK with hk
  · subst hk
    obtain rfl := Option.some.inj hK
    exact hloop
  · exact (h k K hK).mono hconns fun fd => hposted k fd (Ne.symm hk)

/-- Only a loop changes. -/
private theorem Live.setLoop (h : Live s) (hloop : LoopLive s.system s.main ℓ L') :
    Live (s.update s.system ℓ L') :=
  h.update (Nat.le_refl _) (fun _ _ _ => Nat.le_refl _) hloop

/-- A step of the server that takes no creation. -/
private theorem Live.conns (h : Live s) {b : System.Act} (hstep : s.system.step b = some t)
    (hb : ∀ ℓ fd stream, b ≠ .register ℓ fd stream) : Live { s with system := t } := fun k K hK =>
  (h k K hK).mono (System.length_le_of_step (System.step_cases hstep))
    fun fd => System.posted_of_step hstep hb (k, fd)

/-- The main thread goes on. -/
private theorem Live.goto (h : Live s) {m : MainPc}
    (hclosing : ∀ k K, s.loops[k]? = some K → m.closing k →
      s.main.closing k ∨ .closeAll ∈ K.taskQueue)
    (hdraining : ∀ k K, s.loops[k]? = some K → m.draining k →
      s.main.draining k ∨ .barrier ∈ K.taskQueue)
    (hstopped : ∀ k K, s.loops[k]? = some K → m.stopped k → s.main.stopped k ∨ K.stop = true)
    (hstopping : s.main.stopping → m.stopping) : Live { s with main := m } := by
  intro k K hK
  have hl := h k K hK
  exact { hl with
    closing := fun hm => (hclosing k K hK hm).elim hl.closing fun hmem => Or.inr (Or.inr hmem)
    draining := fun hm => (hdraining k K hK hm).elim hl.draining Or.inr
    stopped := fun hm => (hstopped k K hK hm).elim hl.stopped id
    stopping := fun hs => hstopping (hl.stopping hs) }

end

private theorem Live.runItem {s s' : Shutdown} {ℓ : Nat} {stream : Bytes} {alive : Bool}
    (h : Live s) (hstep : s.step (.runItem ℓ stream alive) = some s') : Live s' := by
  cases step_cases hstep with
  | @create _ _ _ L fd rest t hL hq ht =>
    have hl := h ℓ L hL
    have hposted := System.posted_of_register ht
    refine h.update (System.length_le_of_step (System.step_cases ht)) (fun k fd' hk => ?_) ?_
    · rw [hposted, List.count_erase_of_ne fun heq => hk (congrArg Prod.fst heq)]
    · have htail := hl.tail hq (by simp) (by simp)
      refine { htail with
        creates := fun fd' => ?_
        snapshot := fun ids hids i hi => (hl.snapshot ids hids i hi).trans_le
          (System.length_le_of_step (System.step_cases ht)) }
      have hcreates := hl.creates fd'
      rw [hq, List.count_cons] at hcreates
      rw [hposted]
      -- the creation that is run is the one that was posted
      by_cases hfd : fd = fd'
      · subst hfd
        rw [List.count_erase_self]
        simp at hcreates
        exact Nat.le_sub_one_of_lt hcreates
      · rw [List.count_erase_of_ne fun heq => hfd (congrArg Prod.snd heq).symm]
        exact (Nat.le_add_right _ _).trans hcreates
  | @callback _ _ _ L i cb rest t hL hq ht =>
    refine h.update (System.length_le_of_step (System.step_cases ht))
      (fun k fd _ => System.posted_of_step ht (by simp) (k, fd)) ?_
    exact ((h ℓ L hL).tail hq (by simp) (by simp)).mono
      (System.length_le_of_step (System.step_cases ht))
      fun fd => System.posted_of_step ht (by simp) (ℓ, fd)
  | @closeAll _ _ _ L rest hL hq =>
    have hl := h ℓ L hL
    refine h.setLoop { hl with
      creates := fun fd => ?_
      snapshot := fun ids hids i hi => ?_
      closing := fun _ => Or.inr (Or.inl (by simp))
      draining := fun hm => (hl.draining hm).imp id fun hmem => ?_ }
    · simpa [hq, List.count_cons] using hl.creates fd
    · cases hids
      exact List.mem_range.mp (List.mem_filter.mp hi).1
    · rw [hq] at hmem
      exact List.mem_of_ne_of_mem (by simp) hmem
  | @barrier _ _ _ L rest hL hidle hq =>
    have hl := h ℓ L hL
    refine h.setLoop { hl with
      creates := fun fd => ?_
      closing := fun hm => (hl.closing hm).imp id fun hc => hc.imp id fun hmem => ?_
      draining := fun _ => Or.inl rfl }
    · simpa [hq, List.count_cons] using hl.creates fd
    · rw [hq] at hmem
      exact List.mem_of_ne_of_mem (by simp) hmem

/-- The main thread comes to the end of the loops. -/
private theorem no_loop_of_main {s s' : Shutdown} (h : s.step .main = some s') {k : Nat}
    (hend : s.main = .closeAll k ∧ s'.main = .awaitClosed 0 ∨
      s.main = .drain k ∧ s'.main = .awaitDrained 0 ∨
      s.main = .stopLoops k ∧ s'.main = .joinLoops 0) : s.loops.length ≤ k := by
  obtain ⟨hm, hm'⟩ | ⟨hm, hm'⟩ | ⟨hm, hm'⟩ := hend <;>
  · simp only [step, mainStep, hm] at h
    split at h
    next =>
      cases h
      cases hm'
    next hk => exact List.getElem?_eq_none_iff.mp hk

private theorem lt_of_loop {s : Shutdown} {m k : Nat} {K : LoopThread} (hk : s.loops[k]? = some K)
    (hm : s.loops.length ≤ m) : k < m := (List.getElem?_eq_some_iff.mp hk).1.trans_le hm

private theorem Live.main {s s' : Shutdown} (h : Live s) (hstep : s.step .main = some s') :
    Live s' := by
  cases step_cases hstep with
  | stopAccepting hm =>
    exact h.goto (fun k _ _ hc => absurd hc (Nat.not_lt_zero k)) (fun _ _ _ hd => hd.elim)
      (fun _ _ _ hs => hs.elim) (by simp [hm, MainPc.stopping])
  -- the loop that has just been asked has the closure in its queue
  | @askClose k L hm hL =>
    have hl : LoopLive s.system s.main k (L.post [.closeAll]) :=
      (h k L hL).post (by simp [Item.isCreate])
    have h' := h.setLoop hl
    refine h'.goto (fun j K hK hc => ?_) (fun _ _ _ hd => hd.elim) (fun _ _ _ hs => hs.elim)
      (by simp [Shutdown.update, hm, MainPc.stopping])
    obtain hlt | rfl := Nat.lt_succ_iff_lt_or_eq.mp hc
    · exact Or.inl (by simpa [Shutdown.update, hm, MainPc.closing] using hlt)
    · right
      rw [Shutdown.update, List.getElem?_set_self (List.getElem?_eq_some_iff.mp hL).1] at hK
      obtain rfl := Option.some.inj hK
      simp
  | @askDrain k L hm hL =>
    have hl : LoopLive s.system s.main k (L.post [.barrier]) :=
      (h k L hL).post (by simp [Item.isCreate])
    have h' := h.setLoop hl
    refine h'.goto (fun j K hK hc => Or.inl (by simp [Shutdown.update, hm, MainPc.closing]))
      (fun j K hK hd => ?_) (fun _ _ _ hs => hs.elim)
      (by simp [Shutdown.update, hm, MainPc.stopping])
    obtain hlt | rfl := Nat.lt_succ_iff_lt_or_eq.mp hd
    · exact Or.inl (by simpa [Shutdown.update, hm, MainPc.draining] using hlt)
    · right
      rw [Shutdown.update, List.getElem?_set_self (List.getElem?_eq_some_iff.mp hL).1] at hK
      obtain rfl := Option.some.inj hK
      simp
  | @stopLoop k L hm hL =>
    have hl := h k L hL
    have hstopped : LoopLive s.system s.main k { L with stop := true } := { hl with
      stopped := fun _ => rfl
      stopping := fun _ => by simp [hm, MainPc.stopping]
      finished := fun _ => rfl }
    have h' := h.setLoop hstopped
    refine h'.goto (fun j K hK hc => Or.inl (by simp [Shutdown.update, hm, MainPc.closing]))
      (fun j K hK hd => Or.inl (by simp [Shutdown.update, hm, MainPc.draining]))
      (fun j K hK hs => ?_) (by simp [Shutdown.update, hm, MainPc.stopping])
    obtain hlt | rfl := Nat.lt_succ_iff_lt_or_eq.mp hs
    · exact Or.inl (by simpa [Shutdown.update, hm, MainPc.stopped] using hlt)
    · right
      rw [Shutdown.update, List.getElem?_set_self (List.getElem?_eq_some_iff.mp hL).1] at hK
      obtain rfl := Option.some.inj hK
      rfl
  -- all loops have been asked
  | @allAsked k hm =>
    have hk := no_loop_of_main hstep (Or.inl ⟨hm, rfl⟩)
    exact h.goto (fun j K hK _ => Or.inl (by simpa [hm, MainPc.closing] using lt_of_loop hK hk))
      (fun _ _ _ hd => hd.elim) (fun _ _ _ hs => hs.elim) (by simp [hm, MainPc.stopping])
  | @allDraining k hm =>
    have hk := no_loop_of_main hstep (Or.inr (Or.inl ⟨hm, rfl⟩))
    exact h.goto (fun j K hK _ => Or.inl (by simp [hm, MainPc.closing]))
      (fun j K hK _ => Or.inl (by simpa [hm, MainPc.draining] using lt_of_loop hK hk))
      (fun _ _ _ hs => hs.elim) (by simp [hm, MainPc.stopping])
  | @loopsStopped k hm =>
    have hk := no_loop_of_main hstep (Or.inr (Or.inr ⟨hm, rfl⟩))
    exact h.goto (fun j K hK _ => Or.inl (by simp [hm, MainPc.closing]))
      (fun j K hK _ => Or.inl (by simp [hm, MainPc.draining]))
      (fun j K hK _ => Or.inl (by simpa [hm, MainPc.stopped] using lt_of_loop hK hk))
      (by simp [MainPc.stopping])
  | stopPool hm ht =>
    refine (h.conns ht (by simp)).goto (fun _ _ _ _ => Or.inl (by simp [hm, MainPc.closing]))
      (fun _ _ _ hd => hd.elim) (fun _ _ _ hs => hs.elim) (by simp [hm, MainPc.stopping])
  | joined hm hdone =>
    exact h.goto (fun _ _ _ _ => Or.inl (by simp [hm, MainPc.closing]))
      (fun j _ _ hd => absurd hd (Nat.not_lt_zero j)) (fun _ _ _ hs => hs.elim)
      (by simp [hm, MainPc.stopping])
  | allDrained hm hk =>
    exact h.goto (fun _ _ _ _ => Or.inl (by simp [hm, MainPc.closing]))
      (fun _ _ _ _ => Or.inl (by simp [hm, MainPc.draining]))
      (fun j _ _ hs => absurd hs (Nat.not_lt_zero j)) (by simp [MainPc.stopping])
  -- the main thread waits for the next loop
  | loopClosed hm | allClosed hm | poolStopped hm =>
    exact h.goto (fun _ _ _ _ => Or.inl (by simp [hm, MainPc.closing])) (fun _ _ _ hd => hd.elim)
      (fun _ _ _ hs => hs.elim) (by simp [hm, MainPc.stopping])
  | loopDrained hm =>
    exact h.goto (fun _ _ _ _ => Or.inl (by simp [hm, MainPc.closing]))
      (fun _ _ _ _ => Or.inl (by simp [hm, MainPc.draining])) (fun _ _ _ hs => hs.elim)
      (by simp [hm, MainPc.stopping])
  | loopJoined hm | returned hm =>
    exact h.goto (fun _ _ _ _ => Or.inl (by simp [hm, MainPc.closing]))
      (fun _ _ _ _ => Or.inl (by simp [hm, MainPc.draining]))
      (fun _ _ _ _ => Or.inl (by simp [hm, MainPc.stopped])) (by simp [MainPc.stopping])

private theorem Live.exit {s s' : Shutdown} {ℓ : Nat} (h : Live s)
    (hstep : s.step (.exit ℓ) = some s') : Live s' := by
  cases hL : s.loops[ℓ]? with
  | none => simp [step, hL] at hstep
  | some L =>
    simp only [step, hL] at hstep
    split_ifs at hstep with hmay
    cases hstep
    have hl := h ℓ L hL
    exact h.setLoop { hl with finished := fun _ => (Bool.and_eq_true_iff.mp hmay).1 }

theorem Live.step {s s' : Shutdown} {a : Act} (h : Live s) (hstep : s.step a = some s') :
    Live s' := by
  cases a with
  | runItem ℓ stream alive => exact h.runItem hstep
  | main => exact h.main hstep
  | exit ℓ => exact h.exit hstep
  | accept ℓ fd =>
    cases step_cases hstep with
    | @accept _ _ L t hL hm ht =>
      have hlength := System.length_le_of_step (System.step_cases ht)
      refine h.update hlength (fun k fd _ => System.posted_of_step ht (by simp) (k, fd)) ?_
      have hl := (h ℓ L hL).mono hlength fun fd => System.posted_of_step ht (by simp) (ℓ, fd)
      refine { hl with
        creates := fun fd' => ?_
        closing := fun hc => by simp [hm, MainPc.closing] at hc
        draining := fun hd => by simp [hm, MainPc.draining] at hd }
      have hcreates := (h ℓ L hL).creates fd'
      cases System.step_cases ht with
      | accept hfree =>
        rw [LoopThread.post_taskQueue, List.count_append, List.count_append]
        refine Nat.add_le_add hcreates ?_
        by_cases hfd : fd = fd'
        · simp [hfd]
        · simp [hfd]
  | closeOne ℓ i =>
    cases step_cases hstep with
    | @closeOne _ _ L ids t hL hsnap ht =>
      have hlength := System.length_le_of_step (System.step_cases ht)
      refine h.update hlength (fun k fd _ => System.posted_of_step ht (by simp) (k, fd)) ?_
      have hl := ((h ℓ L hL).closeOne hsnap i).mono hlength
        fun fd => System.posted_of_step ht (by simp) (ℓ, fd)
      exact hl
    | @closeGone _ _ L ids p hL hsnap hp hheld => exact h.setLoop ((h ℓ L hL).closeOne hsnap i)
  | closeDone ℓ =>
    cases step_cases hstep with
    | @closeDone _ L hL hsnap hidle =>
      exact h.setLoop { h ℓ L hL with
        snapshot := fun ids hids => (nomatch hids)
        closing := fun _ => Or.inl rfl }
  | conn i a =>
    cases step_cases hstep with
    | @conn _ _ p t hp hmay ht =>
      intro k K hK
      have hlength := System.length_le_of_step (System.step_cases ht)
      rw [connStep, List.getElem?_modify] at hK
      obtain ⟨L, hL, rfl⟩ := Option.map_eq_some_iff.mp hK
      have hl := (h k L hL).mono hlength fun fd => System.posted_of_step ht (by simp) (k, fd)
      split_ifs
      · refine hl.post fun x hx => ?_
        obtain ⟨cb, -, rfl⟩ := List.mem_map.mp hx
        rfl
      · exact hl
  | login i k env =>
    cases step_cases hstep with
    | login ht => exact h.conns ht (by simp)
  | room sec =>
    cases step_cases hstep with
    | room ht => exact h.conns ht (by simp)

/-! ## §4 Rest -/

/-- A step of a connection is there whenever the connection itself can take it. -/
theorem System.connStep_eq_none {s : System} {i : Nat} {p : Peer} {a : Net.PoolMachine.Act}
    (h : s.connStep i p a = none) : p.world.step a = none := by
  unfold System.connStep at h
  split at h
  · cases h
  · cases h
  · exact Option.map_eq_none_iff.mp h

theorem mayStep_of_own {s : Shutdown} {ℓ : Nat} {a : Net.PoolMachine.Act} (ha : a.own = true) :
    s.mayStep ℓ a = true := by
  cases a <;> first | rfl | cases ha

section

variable {s : Shutdown} (hrest : ∀ a : Act, a.own = true → s.step a = none)

include hrest

/-- At rest no connection has anything to do. -/
theorem conn_of_rest {i : Nat} {p : Peer} (hp : s.system.conns[i]? = some p) :
    p.world.tasks = [] ∧ p.world.posting = [] ∧ p.world.loop = .idle := by
  refine World.idle_of_rest fun a ha => ?_
  have hnone := hrest (.conn i a) ha
  simp only [step, hp, mayStep_of_own ha, if_true, Option.map_eq_none_iff, System.step] at hnone
  exact System.connStep_eq_none hnone

theorem loopIdle_of_rest (ℓ : Nat) : s.system.loopIdle ℓ = true := by
  refine List.all_eq_true.mpr fun p hp => ?_
  obtain ⟨i, hi⟩ := List.getElem?_of_mem hp
  simp [(conn_of_rest hrest hi).2.2]

/-- At rest no loop has a snapshot to go through. -/
theorem snapshot_of_rest (hlive : s.Live) {ℓ : Nat} {L : LoopThread} (hL : s.loops[ℓ]? = some L) :
    L.snapshot = none := by
  cases hsnap : L.snapshot with
  | none => rfl
  | some ids =>
    exfalso
    cases ids with
    | nil =>
      have hdone := hrest (.closeDone ℓ) rfl
      simp [step, hL, hsnap, loopIdle_of_rest hrest] at hdone
    | cons i ids =>
      have hlt := (hlive ℓ L hL).snapshot _ hsnap i List.mem_cons_self
      have hp := List.getElem?_eq_getElem hlt
      have hidle := (conn_of_rest hrest hp).2.2
      have hclose := hrest (.closeOne ℓ i) rfl
      cases hheld : s.system.conns[i].world.inConnections with
      | false => simp [step, hL, hsnap, loopIdle_of_rest hrest, closeOne, hp, hheld] at hclose
      | true =>
        simp [step, hL, hsnap, loopIdle_of_rest hrest, closeOne, hp, hheld, System.step,
          System.connStep, World.step, hidle] at hclose

theorem atRest_of_rest (hlive : s.Live) {ℓ : Nat} {L : LoopThread} (hL : s.loops[ℓ]? = some L)
    (hrunning : L.finished = false) : s.atRest ℓ = true := by
  simp [atRest, hL, snapshot_of_rest hrest hlive hL, hrunning, loopIdle_of_rest hrest]

/-- At rest a loop that has not been left has an empty queue. -/
theorem taskQueue_of_rest (hinv : s.Inv) (hlive : s.Live) {ℓ : Nat} {L : LoopThread}
    (hL : s.loops[ℓ]? = some L) (hrunning : L.finished = false) : L.taskQueue = [] := by
  have hatRest := atRest_of_rest hrest hlive hL hrunning
  cases hq : L.taskQueue with
  | nil => rfl
  | cons x rest =>
    exfalso
    have hrun := hrest (.runItem ℓ [] true) rfl
    simp only [step, hL, hatRest, if_true, runItem, hq] at hrun
    cases x with
    | create fd =>
      have hcreates := (hlive ℓ L hL).creates fd
      rw [hq, List.count_cons_self] at hcreates
      have hposted : (ℓ, fd) ∈ s.system.posted := List.count_pos_iff.mp (by omega)
      simp [System.step, hposted] at hrun
    | callback i cb =>
      have hl := (hinv.loops ℓ L hL).synced
      obtain ⟨p, hp, hloop⟩ := hl.owned i cb (hq ▸ List.mem_cons_self)
      -- the closure is the oldest of its connection too
      have hqueue : p.world.taskQueue = cb :: rest.filterMap (Item.of i) := by
        rw [hl.part i p hp hloop, hq]
        simp [Item.of]
      have hidle := (conn_of_rest hrest hp).2.2
      simp only [System.step, hp, Option.map_eq_none_iff] at hrun
      have hnone := System.connStep_eq_none hrun
      simp only [World.step, World.runCallback, hidle, hqueue, if_true] at hnone
      cases cb <;> cases hnone
    | closeAll => cases hrun
    | barrier => cases hrun

/-- At rest the main thread waits for no promise. -/
theorem promises_of_rest (hinv : s.Inv) (hlive : s.Live) (hm : ¬ s.main.stopping) {ℓ : Nat}
    {L : LoopThread} (hL : s.loops[ℓ]? = some L) :
    (s.main.closing ℓ → L.closed = true) ∧ (s.main.draining ℓ → L.drained = true) := by
  have hl := hlive ℓ L hL
  have hrunning : L.finished = false := by
    by_contra hfinished
    exact hm (hl.stopping (hl.finished ((Bool.not_eq_false _).mp hfinished)))
  have hqueue := taskQueue_of_rest hrest hinv hlive hL hrunning
  refine ⟨fun hc => ?_, fun hd => ?_⟩
  · obtain hclosed | hsnap | hmem := hl.closing hc
    · exact hclosed
    · exact absurd (snapshot_of_rest hrest hlive hL) hsnap
    · simp [hqueue] at hmem
  · obtain hdrained | hmem := hl.draining hd
    · exact hdrained
    · simp [hqueue] at hmem

/-- At rest `Server::stop` has returned. -/
theorem returned_of_rest (hinv : s.Inv) (hlive : s.Live) : s.main = .returned := by
  have hmain := hrest .main rfl
  simp only [step] at hmain
  unfold mainStep at hmain
  cases hm : s.main with
  | returned => rfl
  | serving => simp [hm] at hmain
  | closeAll k => cases hL : s.loops[k]? <;> simp [hm, hL] at hmain
  | drain k => cases hL : s.loops[k]? <;> simp [hm, hL] at hmain
  | stopLoops k => cases hL : s.loops[k]? <;> simp [hm, hL] at hmain
  | stopPool k =>
    cases hp : s.system.conns[k]? <;>
      simp [hm, hp, System.step, System.connStep, World.step] at hmain
  | awaitClosed k =>
    cases hL : s.loops[k]? with
    | none => simp [hm, hL] at hmain
    | some L =>
      have hclosed := (promises_of_rest hrest hinv hlive (by simp [hm, MainPc.stopping]) hL).1
        (by simp [hm, MainPc.closing])
      simp [hm, hL, hclosed] at hmain
  | awaitDrained k =>
    cases hL : s.loops[k]? with
    | none => simp [hm, hL] at hmain
    | some L =>
      have hdrained := (promises_of_rest hrest hinv hlive (by simp [hm, MainPc.stopping]) hL).2
        (by simp [hm, MainPc.draining])
      simp [hm, hL, hdrained] at hmain
  | joinPool =>
    have hdone : (s.system.conns.all fun p => workersDone p.world) = true := by
      refine List.all_eq_true.mpr fun p hp => ?_
      obtain ⟨i, hi⟩ := List.getElem?_of_mem hp
      obtain ⟨htasks, hposting, -⟩ := conn_of_rest hrest hi
      simp [workersDone, htasks, hposting]
    simp only [hm, hdone, if_true, reduceCtorEq] at hmain
  | joinLoops k =>
    cases hL : s.loops[k]? with
    | none => simp [hm, hL] at hmain
    | some L =>
      have hstop := (hlive k L hL).stopped (by simp [hm, MainPc.stopped])
      have hrunning : L.finished = false := by simpa [hm, hL] using hmain
      have hexit := hrest (.exit k) rfl
      simp [step, hL, hstop, atRest_of_rest hrest hlive hL hrunning] at hexit

end

/-! ## §5 `Server::stop` returns -/

theorem run_live {n : Nat} {firstRoomId : UInt32} {acts : List Act} {s : Shutdown}
    (hrun : run step (init n firstRoomId) acts = some s) : Live s :=
  run_invariant (fun _ _ _ h hs => h.step hs) (.init n firstRoomId) hrun

/-- **`Server::stop` returns**: wherever a run has come to, the work left bounds the steps that
the server can take on its own, and when it can take none of them `Server::stop` has returned; so
there is a run of its own steps in which it does. -/
theorem serverStop_returns {n : Nat} {firstRoomId : UInt32} {acts : List Act} {s : Shutdown}
    (hrun : run step (init n firstRoomId) acts = some s) :
    (∀ own s', (∀ a ∈ own, Act.own a = true) → run step s own = some s' →
      own.length + s'.work ≤ s.work ∧
        ((∀ a, Act.own a = true → s'.step a = none) → s'.main = .returned)) ∧
      ∃ own s', (∀ a ∈ own, Act.own a = true) ∧ run step s own = some s' ∧ s'.main = .returned := by
  have hlowers : Lowers step Act.own work := fun _ _ _ ha h => work_of_own ha h
  have hreturned : ∀ own s', run step s own = some s' →
      (∀ a, Act.own a = true → s'.step a = none) → s'.main = .returned := by
    intro own s' hown hrest
    have hall := run_append.mpr ⟨s, hrun, hown⟩
    exact returned_of_rest hrest (run_inv hall) (run_live hall)
  refine ⟨fun own s' hmem hown => ⟨hlowers.length_add_rank_le hmem hown, hreturned own s' hown⟩, ?_⟩
  obtain ⟨own, s', hmem, hown, hrest⟩ := hlowers.exists_rest s
  exact ⟨own, s', hmem, hown, hreturned own s' hown hrest⟩

/-- With two loops and the handler of a login under way, `Server::stop` is through after 59 steps at
most. -/
theorem serverStop_returns_loginRuns : ∃ v, run step (init 2 1) loginRuns = some v ∧
    ∃ own s', (∀ a ∈ own, Act.own a = true) ∧ run step v own = some s' ∧ own.length ≤ 59 ∧
      s'.main = .returned := by
  have hlast : ((run step (init 2 1) loginRuns).any fun v => v.work = 59) = true := by
    decide +kernel
  obtain ⟨v, hv, hwork⟩ := exists_of_run_any hlast
  obtain ⟨hbounded, own, s', hmem, hown, hreturned⟩ := serverStop_returns hv
  refine ⟨v, hv, own, s', hmem, hown, ?_, hreturned⟩
  have hlength := (hbounded own s' hmem hown).1
  rw [of_decide_eq_true hwork] at hlength
  exact (Nat.le_add_right _ _).trans hlength

end Shutdown

end EchoNet.Server
