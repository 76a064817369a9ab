import EchoNet.Lib.Machine
import EchoNet.Net.Connection
import Mathlib.Data.List.AList
import Mathlib.Tactic.SplitIfs

/-!
# The Batch of an Event Loop

`EventLoop::loop` of an I/O thread: `epoll_wait` returns a batch of events, and each event is
dispatched by its descriptor number, through `channels_.find(fd)`.  Between two events of a batch
the loop thread closes connections and registers those that the accepting thread has posted, so
the number of an event that is still in the batch can change its owner.

- A registration is the index of its `updateChannel` call; the timer's is the first.
- What a callback does with the connections of the loop is up to the environment: the idle scan, a
  handler and a posted callback can each close any of them, at once or after a running task.
- The kernel hands out any number that is not open, and forgets a descriptor that is closed.
  `epoll_ctl` succeeds.
- `Dispatch` is history, and so are the owner in an event and `mark`.

## Main results

- `dispatched_iff`: every event is dispatched to the registration that it was reported for,
  exactly if every channel that an event finds was registered before the batch was returned;
- `delivered_of_registersUnpending`: that is so if no registration runs for a number that the batch
  still has an event for;
- `event_misdelivered`: a run in which the timer, the wakeup and a stale event come in this order.
-/

namespace EchoNet.Reactor

open EchoNet.Lib

open EchoNet.Net (State)

/-! ## §1 States -/

/-- A registration. -/
abbrev Reg := Nat

/-- `epoll_event`: the wakeup descriptor, or another one, with the registration that the kernel
reports it for. -/
inductive Event where
  | wakeup
  | channel (fd : Int) (reported : Reg)
  deriving DecidableEq, Repr

/-- A callback of `task_queue_`: the one of `IoThreadPool::submit`, or another. -/
inductive Callback where
  | register (fd : Int)
  | other
  deriving DecidableEq, Repr

/-- An event that was dispatched, and the registration whose channel it reached. -/
structure Dispatch where
  fd : Int
  reported : Reg
  found : Reg
  deriving DecidableEq, Repr

/-- A channel and, but for the timer, its connection. -/
structure Registered where
  fd : Int
  state : State
  deriving DecidableEq, Repr

abbrev RegMap := AList fun _ : Int => Reg

structure EventLoop where
  registered : List Registered
  channels : RegMap
  connections : RegMap
  /-- the kernel's interest list -/
  epoll : RegMap
  openFds : List Int
  taskQueue : List Callback
  /-- the swapped queue, as far as it has not been run -/
  tasks : List Callback
  /-- the events of the batch that have not been dispatched -/
  events : List Event
  /-- a callback is running -/
  busy : Bool
  /-- the registrations before the last `epoll_wait` -/
  mark : Nat
  dispatched : List Dispatch

namespace EventLoop

/-- After the constructor, with its timer. -/
def init (timerfd : Int) : EventLoop where
  registered := [⟨timerfd, .connected⟩]
  channels := (∅ : RegMap).insert timerfd 0
  connections := ∅
  epoll := (∅ : RegMap).insert timerfd 0
  openFds := [timerfd]
  taskQueue := []
  tasks := []
  events := []
  busy := false
  mark := 1
  dispatched := []

/-! ## §2 The operations -/

/-- `updateChannel` and `updateConnection` of a new connection. -/
def register (l : EventLoop) (fd : Int) : EventLoop :=
  { l with
    registered := l.registered ++ [⟨fd, .connected⟩]
    epoll := l.epoll.insert fd l.registered.length
    channels := l.channels.insert fd l.registered.length
    connections := l.connections.insert fd l.registered.length }

/-- `removeChannel`. -/
def removeChannel (l : EventLoop) (fd : Int) : EventLoop :=
  { l with epoll := l.epoll.erase fd, channels := l.channels.erase fd }

def setState (l : EventLoop) (r : Reg) (state : State) : EventLoop :=
  { l with registered := l.registered.modify r fun c => { c with state := state } }

/-- `removeConnection`, with `finishClose`. -/
def removeConnection (l : EventLoop) (fd : Int) : EventLoop :=
  match l.connections.lookup fd with
  | some r =>
    { (l.removeChannel fd).setState r .closed with
      connections := l.connections.erase fd, openFds := l.openFds.filter (· ≠ fd) }
  | none => l.removeChannel fd

/-- `handleClose` of a connection that is connected. -/
def handleClose (l : EventLoop) (r : Reg) (fd : Int) (deferFinalClose : Bool) : EventLoop :=
  let l := l.setState r .closing
  if deferFinalClose then l.removeChannel fd else l.removeConnection fd

/-- One round of the `for` loop. -/
def dispatch (l : EventLoop) : Event → EventLoop
  | .wakeup => { l with tasks := l.taskQueue, taskQueue := [] }
  | .channel fd reported =>
    match l.channels.lookup fd with
    | some found => { l with busy := true, dispatched := l.dispatched ++ [⟨fd, reported, found⟩] }
    | none => l

inductive Act where
  /-- the accepting thread gets `fd` and posts its registration, another thread posts something -/
  | accept (fd : Int)
  | post
  /-- `epoll_wait` returns -/
  | wait (events : List Event)
  /-- the next event, the next of the swapped callbacks -/
  | next
  | runTask
  /-- a callback closes a connection, or completes a deferred close, or returns -/
  | handleClose (r : Reg) (deferFinalClose : Bool)
  | finalize (r : Reg)
  | return
  deriving DecidableEq, Repr

/-- The kernel can report the event. -/
def reportable (l : EventLoop) : Event → Bool
  | .wakeup => true
  | .channel fd reported => l.epoll.lookup fd = some reported

/-- The connection is in `connections_`. -/
def holds (l : EventLoop) (r : Reg) (fd : Int) : Bool := l.connections.lookup fd = some r

def step (l : EventLoop) : Act → Option EventLoop
  | .accept fd =>
    if fd ∉ l.openFds then
      some { l with openFds := fd :: l.openFds, taskQueue := l.taskQueue ++ [.register fd] }
    else none
  | .post => some { l with taskQueue := l.taskQueue ++ [.other] }
  -- `epoll_wait` reports each descriptor at most once
  | .wait events =>
    if l.busy = false ∧ l.tasks = [] ∧ l.events = [] ∧ events.Nodup ∧
        events.all l.reportable = true then
      some { l with events := events, mark := l.registered.length }
    else none
  | .next =>
    if l.busy = false ∧ l.tasks = [] then
      match l.events with
      | [] => none
      | e :: rest => some ({ l with events := rest }.dispatch e)
    else none
  | .runTask =>
    if l.busy = false then
      match l.tasks with
      | [] => none
      | .register fd :: rest => some ({ l with tasks := rest }.register fd)
      | .other :: rest => some { l with tasks := rest, busy := true }
    else none
  -- a callback closes a connection of the loop; the CAS lets it through once
  | .handleClose r deferFinalClose =>
    match l.registered[r]? with
    | some ⟨fd, .connected⟩ =>
      if l.busy = true ∧ l.holds r fd = true then some (l.handleClose r fd deferFinalClose) else none
    | _ => none
  -- the last task of a closed connection is over
  | .finalize r =>
    match l.registered[r]? with
    | some ⟨fd, .closing⟩ =>
      if l.busy = true ∧ l.holds r fd = true then some (l.removeConnection fd) else none
    | _ => none
  | .return => if l.busy = true then some { l with busy := false } else none

/-! ## §3 What a step does -/

/-- What a step does to `channels_` and to the kernel's list. -/
inductive Maps (l l' : EventLoop) : Act → Prop
  | same {a : Act} : l'.registered.length = l.registered.length → l'.channels = l.channels →
      l'.epoll = l.epoll → Maps l l' a
  | registered {fd : Int} {rest : List Callback} : l.tasks = .register fd :: rest →
      l'.registered.length = l.registered.length + 1 →
      l'.channels = l.channels.insert fd l.registered.length →
      l'.epoll = l.epoll.insert fd l.registered.length → Maps l l' .runTask
  | removed {a : Act} (fd : Int) : l'.registered.length = l.registered.length →
      l'.channels = l.channels.erase fd → l'.epoll = l.epoll.erase fd → Maps l l' a

/-- What a step does to the batch: `epoll_wait` returns one, the next event is dispatched, or
nothing. -/
inductive Batch (l l' : EventLoop) : Act → Prop
  | wait {events : List Event} : events.all l.reportable = true → l'.events = events →
      l'.mark = l.registered.length → l'.dispatched = l.dispatched → Batch l l' (.wait events)
  | found {fd : Int} {reported found : Reg} {rest : List Event} :
      l.events = .channel fd reported :: rest → l.channels.lookup fd = some found →
      l'.events = rest → l'.mark = l.mark →
      l'.dispatched = l.dispatched ++ [⟨fd, reported, found⟩] → Batch l l' .next
  | skipped {e : Event} {rest : List Event} : l.events = e :: rest →
      (∀ fd reported, e = .channel fd reported → l.channels.lookup fd = none) →
      l'.events = rest → l'.mark = l.mark → l'.dispatched = l.dispatched → Batch l l' .next
  | other {a : Act} : a ≠ .next → l'.events = l.events → l'.mark = l.mark →
      l'.dispatched = l.dispatched → Batch l l' a

private theorem setState_length (l : EventLoop) (r : Reg) (state : State) :
    (l.setState r state).registered.length = l.registered.length := by
  simp [setState]

/-- `removeConnection` takes the channel away, whatever else it does. -/
private theorem removeConnection_spec (l : EventLoop) (fd : Int) (a : Act) :
    Maps l (l.removeConnection fd) a ∧ (l.removeConnection fd).events = l.events ∧
      (l.removeConnection fd).mark = l.mark ∧
      (l.removeConnection fd).dispatched = l.dispatched := by
  unfold removeConnection
  split
  · exact ⟨.removed fd (setState_length _ _ _) rfl rfl, rfl, rfl, rfl⟩
  · exact ⟨.removed fd rfl rfl rfl, rfl, rfl, rfl⟩

private theorem handleClose_spec (l : EventLoop) (r : Reg) (fd : Int) (deferFinalClose : Bool)
    (a : Act) : Maps l (l.handleClose r fd deferFinalClose) a ∧
      (l.handleClose r fd deferFinalClose).events = l.events ∧
      (l.handleClose r fd deferFinalClose).mark = l.mark ∧
      (l.handleClose r fd deferFinalClose).dispatched = l.dispatched := by
  unfold handleClose
  cases deferFinalClose with
  | true => exact ⟨.removed fd (setState_length _ _ _) rfl rfl, rfl, rfl, rfl⟩
  | false =>
    obtain ⟨hmaps, hrest⟩ := removeConnection_spec (l.setState r .closing) fd a
    -- the state of a connection is no part of the maps
    refine ⟨?_, hrest⟩
    cases hmaps with
    | same hlen hch hep => exact .same (hlen.trans (setState_length ..)) hch hep
    | registered htasks hlen hch hep =>
      rw [setState_length] at hlen hch hep
      exact .registered htasks hlen hch hep
    | removed fd' hlen hch hep => exact .removed fd' (hlen.trans (setState_length ..)) hch hep

/-- **A step**: inversion, for the maps and the batch. -/
theorem step_spec {l l' : EventLoop} {a : Act} (h : l.step a = some l') :
    Maps l l' a ∧ Batch l l' a := by
  cases a with
  | accept fd =>
    simp only [step] at h
    split_ifs at h
    cases h
    exact ⟨.same rfl rfl rfl, .other (by simp) rfl rfl rfl⟩
  | post =>
    cases h
    exact ⟨.same rfl rfl rfl, .other (by simp) rfl rfl rfl⟩
  | wait events =>
    simp only [step] at h
    split_ifs at h with hready
    cases h
    exact ⟨.same rfl rfl rfl, .wait hready.2.2.2.2 rfl rfl rfl⟩
  | next =>
    simp only [step] at h
    split_ifs at h
    split at h
    · cases h
    · rename_i e rest hevents
      cases h
      cases e with
      -- the wakeup finds no channel by itself
      | wakeup => exact ⟨.same rfl rfl rfl, .skipped hevents (by simp) rfl rfl rfl⟩
      | channel fd reported =>
        cases hfound : l.channels.lookup fd with
        | some found =>
          simp only [dispatch, hfound]
          exact ⟨.same rfl rfl rfl, .found hevents hfound rfl rfl rfl⟩
        | none =>
          simp only [dispatch, hfound]
          refine ⟨.same rfl rfl rfl, .skipped hevents (fun fd' reported' heq => ?_) rfl rfl rfl⟩
          cases heq
          exact hfound
  | runTask =>
    simp only [step] at h
    split_ifs at h
    split at h
    · cases h
    · rename_i fd rest htasks
      cases h
      exact ⟨.registered htasks (by simp [register]) rfl rfl, .other (by simp) rfl rfl rfl⟩
    · cases h
      exact ⟨.same rfl rfl rfl, .other (by simp) rfl rfl rfl⟩
  | handleClose r deferFinalClose =>
    simp only [step] at h
    split at h
    · rename_i fd _
      split_ifs at h
      cases h
      obtain ⟨hmaps, hevents, hmark, hdispatched⟩ := handleClose_spec l r fd deferFinalClose
        (.handleClose r deferFinalClose)
      exact ⟨hmaps, .other (by simp) hevents hmark hdispatched⟩
    · cases h
  | finalize r =>
    simp only [step] at h
    split at h
    · rename_i fd _
      split_ifs at h
      cases h
      obtain ⟨hmaps, hevents, hmark, hdispatched⟩ := removeConnection_spec l fd (.finalize r)
      exact ⟨hmaps, .other (by simp) hevents hmark hdispatched⟩
    · cases h
  | «return» =>
    simp only [step] at h
    split_ifs at h
    cases h
    exact ⟨.same rfl rfl rfl, .other (by simp) rfl rfl rfl⟩

/-! ## §4 Who is under a number -/

structure Inv (l : EventLoop) : Prop where
  epoll : ∀ fd, l.epoll.lookup fd = l.channels.lookup fd
  known : ∀ fd r, l.channels.lookup fd = some r → r < l.registered.length
  mark : l.mark ≤ l.registered.length
  /-- under the number of an event is the registration that it was reported for, or one that
  the batch is older than -/
  pending : ∀ fd reported, .channel fd reported ∈ l.events → reported < l.mark ∧
    ∀ r, l.channels.lookup fd = some r → r = reported ∨ l.mark ≤ r

theorem Inv.init (timerfd : Int) : Inv (init timerfd) := by
  refine ⟨fun _ => rfl, fun fd r h => ?_, le_refl _, by simp [EventLoop.init]⟩
  by_cases heq : fd = timerfd
  · subst heq
    rw [EventLoop.init, AList.lookup_insert, Option.some.injEq] at h
    subst h
    exact Nat.zero_lt_one
  · rw [EventLoop.init, AList.lookup_insert_ne heq, AList.lookup_empty] at h
    cases h

/-- What is under a number after a step was there before, or has just been registered. -/
private theorem lookup_of_maps {l l' : EventLoop} {a : Act} (h : Maps l l' a) {fd : Int} {r : Reg}
    (hr : l'.channels.lookup fd = some r) :
    l.channels.lookup fd = some r ∨
      (r = l.registered.length ∧ l'.registered.length = l.registered.length + 1 ∧
        a = .runTask ∧ ∃ rest, l.tasks = .register fd :: rest) := by
  cases h with
  | same _ hch _ => exact Or.inl (hch ▸ hr)
  | @registered fd' rest htasks hlen hch _ =>
    rw [hch] at hr
    by_cases heq : fd = fd'
    -- `updateChannel` replaces the entry of the number
    · subst heq
      rw [AList.lookup_insert, Option.some.injEq] at hr
      exact Or.inr ⟨hr.symm, hlen, rfl, rest, htasks⟩
    · rw [AList.lookup_insert_ne heq] at hr
      exact Or.inl hr
  | removed fd' _ hch _ =>
    rw [hch] at hr
    by_cases heq : fd = fd'
    · subst heq
      rw [AList.lookup_erase] at hr
      cases hr
    · rw [AList.lookup_erase_ne heq] at hr
      exact Or.inl hr

private theorem length_of_maps {l l' : EventLoop} {a : Act} (h : Maps l l' a) :
    l.registered.length ≤ l'.registered.length := by
  cases h with
  | same hlen _ _ => exact hlen.ge
  | registered _ hlen _ _ => omega
  | removed fd hlen _ _ => exact hlen.ge

theorem Inv.step {l l' : EventLoop} {a : Act} (hi : Inv l) (h : l.step a = some l') : Inv l' := by
  obtain ⟨hmaps, hbatch⟩ := step_spec h
  have hlen := length_of_maps hmaps
  have hepoll : ∀ fd, l'.epoll.lookup fd = l'.channels.lookup fd := by
    intro fd
    cases hmaps with
    | same _ hch hep => rw [hch, hep, hi.epoll]
    | @registered fd' rest _ _ hch hep =>
      rw [hch, hep]
      by_cases heq : fd = fd'
      · subst heq
        rw [AList.lookup_insert, AList.lookup_insert]
      · rw [AList.lookup_insert_ne heq, AList.lookup_insert_ne heq, hi.epoll]
    | removed fd' _ hch hep =>
      rw [hch, hep]
      by_cases heq : fd = fd'
      · subst heq
        rw [AList.lookup_erase, AList.lookup_erase]
      · rw [AList.lookup_erase_ne heq, AList.lookup_erase_ne heq, hi.epoll]
  have hknown : ∀ fd r, l'.channels.lookup fd = some r → r < l'.registered.length := by
    intro fd r hr
    rcases lookup_of_maps hmaps hr with hold | ⟨rfl, hnew, -⟩
    · exact (hi.known fd r hold).trans_le hlen
    · rw [hnew]
      exact Nat.lt_succ_self _
  -- an event that was in the batch before the step
  have hkept : l'.mark = l.mark → ∀ fd reported, .channel fd reported ∈ l.events →
      reported < l'.mark ∧ ∀ r, l'.channels.lookup fd = some r → r = reported ∨ l'.mark ≤ r := by
    intro hmark fd reported hmem
    obtain ⟨hlt, hunder⟩ := hi.pending fd reported hmem
    rw [hmark]
    refine ⟨hlt, fun r hr => ?_⟩
    rcases lookup_of_maps hmaps hr with hold | ⟨rfl, -⟩
    · exact hunder r hold
    · exact Or.inr hi.mark
  cases hbatch with
  | @wait events hready hevents hmark _ =>
    refine ⟨hepoll, hknown, hmark ▸ hlen, fun fd reported hmem => ?_⟩
    rw [hevents] at hmem
    have hreported : l.epoll.lookup fd = some reported := by
      simpa [reportable] using List.all_eq_true.mp hready _ hmem
    rw [hi.epoll] at hreported
    rw [hmark]
    refine ⟨hi.known fd reported hreported, fun r hr => ?_⟩
    rcases lookup_of_maps hmaps hr with hold | ⟨rfl, -⟩
    · exact Or.inl (Option.some.inj (hold.symm.trans hreported))
    · exact Or.inr (le_refl _)
  | found hevents _ hrest hmark _ =>
    refine ⟨hepoll, hknown, hmark ▸ hi.mark.trans hlen, fun fd reported hmem => ?_⟩
    exact hkept hmark fd reported (hevents ▸ List.mem_cons_of_mem _ (hrest ▸ hmem))
  | skipped hevents _ hrest hmark _ =>
    refine ⟨hepoll, hknown, hmark ▸ hi.mark.trans hlen, fun fd reported hmem => ?_⟩
    exact hkept hmark fd reported (hevents ▸ List.mem_cons_of_mem _ (hrest ▸ hmem))
  | other _ hevents hmark _ =>
    refine ⟨hepoll, hknown, hmark ▸ hi.mark.trans hlen, fun fd reported hmem => ?_⟩
    exact hkept hmark fd reported (hevents ▸ hmem)

/-! ## §5 Dispatches -/

/-- Every event has reached the registration that it was reported for. -/
def Delivered (l : EventLoop) : Prop := ∀ d ∈ l.dispatched, d.found = d.reported

/-- The channel that the next event finds was registered before the batch was returned. -/
def FindsOlder (l : EventLoop) : Act → Prop
  | .next =>
    match l.events with
    | .channel fd _ :: _ => ∀ found ∈ l.channels.lookup fd, found < l.mark
    | _ => True
  | _ => True

/-- A registration runs for a number that the batch has no more event for. -/
def RegistersUnpending (l : EventLoop) : Act → Prop
  | .runTask =>
    match l.tasks with
    | .register fd :: _ => ∀ e ∈ l.events, ∀ reported, e ≠ .channel fd reported
    | _ => True
  | _ => True

theorem delivered_step_iff {l l' : EventLoop} {a : Act} (hi : Inv l) (h : l.step a = some l') :
    Delivered l' ↔ Delivered l ∧ FindsOlder l a := by
  cases (step_spec h).2 with
  | wait _ _ _ hdispatched =>
    rw [Delivered, hdispatched, and_iff_left (by trivial)]
    rfl
  | @found fd reported found rest hevents hfound _ _ hdispatched =>
    obtain ⟨hlt, hunder⟩ := hi.pending fd reported (hevents ▸ List.mem_cons_self ..)
    -- the one that is older than the batch is the one that was reported
    have hsame : found = reported ↔ found < l.mark := by
      constructor
      · rintro rfl
        exact hlt
      · exact fun hold => (hunder found hfound).resolve_right (not_le.mpr hold)
    simp only [Delivered, hdispatched, FindsOlder, hevents, hfound, List.mem_append,
      List.mem_singleton, Option.mem_some_iff, forall_eq', or_imp, forall_and, forall_eq, hsame]
  | skipped hevents hnone _ _ hdispatched =>
    rw [Delivered, hdispatched, and_iff_left]
    · rfl
    · simp only [FindsOlder, hevents]
      split
      · rename_i hhead
        cases hhead
        simp [hnone _ _ rfl]
      · trivial
  | other hne _ _ hdispatched =>
    rw [Delivered, hdispatched, and_iff_left]
    · rfl
    · unfold FindsOlder
      split
      · exact absurd rfl hne
      · trivial

/-- **Dispatching**: in a run of the loop every event reaches the registration that it was
reported for, exactly if no event finds a channel that is younger than its batch. -/
theorem dispatched_iff {timerfd : Int} {acts : List Act} {l : EventLoop}
    (hrun : run step (init timerfd) acts = some l) :
    Meets step FindsOlder (init timerfd) acts ↔ Delivered l := by
  have hlast := last_iff_meets (P := Delivered) (fun _ _ _ => Inv.step)
    (fun _ _ _ => delivered_step_iff) (Inv.init timerfd) hrun
  rw [hlast]
  exact (and_iff_right (by simp [Delivered, init])).symm

/-- Nothing under the number of a waiting event is younger than the batch. -/
def Settled (l : EventLoop) : Prop :=
  ∀ fd reported, .channel fd reported ∈ l.events → ∀ r, l.channels.lookup fd = some r → r < l.mark

private theorem Settled.step {l l' : EventLoop} {a : Act} (hi : Inv l) (hs : Settled l)
    (hok : RegistersUnpending l a) (h : l.step a = some l') : Settled l' := by
  obtain ⟨hmaps, hbatch⟩ := step_spec h
  -- an event that was in the batch before the step
  have hkept : l'.mark = l.mark → ∀ fd reported, .channel fd reported ∈ l.events →
      ∀ r, l'.channels.lookup fd = some r → r < l'.mark := by
    intro hmark fd reported hmem r hr
    rcases lookup_of_maps hmaps hr with hold | ⟨-, -, rfl, rest, htasks⟩
    · exact hmark ▸ hs fd reported hmem r hold
    · simp only [RegistersUnpending, htasks] at hok
      exact absurd rfl (hok _ hmem reported)
  intro fd reported hmem r hr
  cases hbatch with
  | wait _ _ hmark _ =>
    rcases lookup_of_maps hmaps hr with hold | ⟨-, -, ha, -⟩
    · exact hmark ▸ hi.known fd r hold
    · cases ha
  | found hevents _ hrest hmark _ =>
    exact hkept hmark fd reported (hevents ▸ List.mem_cons_of_mem _ (hrest ▸ hmem)) r hr
  | skipped hevents _ hrest hmark _ =>
    exact hkept hmark fd reported (hevents ▸ List.mem_cons_of_mem _ (hrest ▸ hmem)) r hr
  | other _ hevents hmark _ => exact hkept hmark fd reported (hevents ▸ hmem) r hr

/-- **A sufficient order**: if no registration runs for a number that the batch still has an event
for, every event reaches its registration. -/
theorem delivered_of_registersUnpending {timerfd : Int} {acts : List Act} {l : EventLoop}
    (hrun : run step (init timerfd) acts = some l)
    (h : Meets step RegistersUnpending (init timerfd) acts) : Delivered l := by
  refine (run_invariant_of_meets (P := fun l => (Inv l ∧ Settled l) ∧ Delivered l)
    (fun l a l' ⟨⟨hi, hs⟩, hd⟩ hok hstep => ?_)
    ⟨⟨Inv.init timerfd, by simp [Settled, init]⟩, by simp [Delivered, init]⟩ h hrun).2
  refine ⟨⟨hi.step hstep, hs.step hi hok hstep⟩, (delivered_step_iff hi hstep).mpr ⟨hd, ?_⟩⟩
  unfold FindsOlder
  split
  · split
    · rename_i fd reported rest hevents
      exact fun found hfound => hs fd reported (hevents ▸ List.mem_cons_self ..) found hfound
    · trivial
  · trivial

instance (l : EventLoop) : (a : Act) → Decidable (FindsOlder l a)
  | .next =>
    match hevents : l.events with
    | .channel fd reported :: rest =>
      decidable_of_iff (∀ found ∈ l.channels.lookup fd, found < l.mark)
        (by simp only [FindsOlder, hevents])
    | .wakeup :: _ | [] => isTrue (by simp [FindsOlder, hevents])
  | .accept _ | .post | .wait _ | .runTask | .handleClose _ _ | .finalize _ | .return =>
    isTrue trivial

/-- A connection is registered on 7. -/
def registered7 : List Act := [.accept 7, .wait [.wakeup], .next, .runTask]

/-- In one batch the idle scan closes the connection, its event finds nobody, and the wakeup
registers another one on the same number, which gets its event in the next batch. -/
def wakeupLast : List Act :=
  registered7 ++ [Act.wait [.channel 3 0, .channel 7 1, .wakeup], .next, .handleClose 1 false,
    .return, .accept 7, .next, .next, .runTask, .wait [.channel 7 2], .next, .return]

theorem dispatched_iff_wakeupLast :
    ∃ l, run step (init 3) wakeupLast = some l ∧ l.dispatched = [⟨3, 0, 0⟩, ⟨7, 2, 2⟩] ∧
      Delivered l := by
  have hlast : ((run step (init 3) wakeupLast).any fun l =>
      decide (l.dispatched = [⟨3, 0, 0⟩, ⟨7, 2, 2⟩])) = true := by
    decide +kernel
  obtain ⟨l, hl, hlast⟩ := exists_of_run_any hlast
  have holder : Meets step FindsOlder (init 3) wakeupLast := by decide +kernel
  exact ⟨l, hl, of_decide_eq_true hlast, (dispatched_iff hl).mp holder⟩

/-- The same batch with the wakeup before the connection's event. -/
def wakeupFirst : List Act :=
  registered7 ++ [Act.wait [.channel 3 0, .wakeup, .channel 7 1], .next, .handleClose 1 false,
    .return, .accept 7, .next, .runTask, .next]

/-- **A misdelivered event**: it was reported for the connection that the idle scan has closed, and
reaches the one that has its number now. -/
theorem event_misdelivered :
    ∃ l, run step (init 3) wakeupFirst = some l ∧ l.dispatched = [⟨3, 0, 0⟩, ⟨7, 1, 2⟩] ∧
      ¬Delivered l := by
  have hlast : ((run step (init 3) wakeupFirst).any fun l =>
      decide (l.dispatched = [⟨3, 0, 0⟩, ⟨7, 1, 2⟩])) = true := by
    decide +kernel
  obtain ⟨l, hl, hlast⟩ := exists_of_run_any hlast
  have hdispatched := of_decide_eq_true hlast
  refine ⟨l, hl, hdispatched, fun h => ?_⟩
  have hsame := h ⟨7, 1, 2⟩ (by simp [hdispatched])
  cases hsame

end EventLoop

end EchoNet.Reactor
