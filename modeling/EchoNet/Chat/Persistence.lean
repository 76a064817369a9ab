import EchoNet.Chat.Service

/-!
# Asynchronous Persistence

`dbWriterLoop`, `batchInsertMessages` and `enqueueMessage` (src/src/ChatService/ChatService.cpp).
Any thread may call `enqueueMessage`, which is one critical section; the writer takes a batch
under the same lock and writes it without; the destructor sets `db_writer_stop_`.

The wait of the writer may end at any time, after `BATCH_INTERVAL_MS` at the latest, so that it
takes no step of its own.

## Main result

`persisted_in_order`: what has been passed to `batchInsertMessages` is a prefix of what has been
accepted, and all of it once the loop has exited.
-/

namespace EchoNet.Chat

open EchoNet.Lib

/-! ## §1 The queue and the writer -/

/-- `BATCH_MAX_SIZE`. -/
def batchMaxSize : Nat := 2000

/-- Where the writer is in its loop. -/
inductive WriterPc where
  /-- before the critical section -/
  | waiting
  /-- after `lock.unlock()`, with the value of `should_exit` -/
  | unlocked (shouldExit : Bool)
  | exited
  deriving DecidableEq, Repr

/-- The service with its writer thread, and the history of the queue. -/
structure Persistence where
  service : Service
  dbWriterStop : Bool
  /-- the vector of the loop, which every iteration uses again -/
  batch : List MessageRecord
  pc : WriterPc
  accepted : List MessageRecord
  refused : List MessageRecord
  /-- the calls of `batchInsertMessages`, with their results -/
  batches : List (List MessageRecord × Bool)

/-- The inner loop of `dbWriterLoop`: records move to the batch, as many as fit. -/
def fillBatch (batch : List MessageRecord) : List MessageRecord → List MessageRecord × List MessageRecord
  | [] => (batch, [])
  | record :: queue =>
    if batch.length < batchMaxSize then fillBatch (batch ++ [record]) queue
    else (batch, record :: queue)

/-- `batchInsertMessages`, with what MySQL does. -/
def batchInsertMessages (batch : List MessageRecord) (outcome : Stmt Unit) : Bool :=
  if batch.isEmpty then true
  else
    match outcome with
    | .executed () => true
    -- no connection, or a failed init, prepare, bind or execute
    | _ => false

namespace Persistence

def init (first : UInt32) : Persistence where
  service := .init first
  dbWriterStop := false
  batch := []
  pc := .waiting
  accepted := []
  refused := []
  batches := []

/-- `enqueueMessage`, recorded. -/
def enqueue (s : Persistence) (record : MessageRecord) : Persistence :=
  let service := s.service.enqueueMessage record
  if maxQueueSize ≤ s.service.msgQueue.length then
    { s with service := service, refused := s.refused ++ [record] }
  else { s with service := service, accepted := s.accepted ++ [record] }

/-- The critical section of `dbWriterLoop`. -/
def take (s : Persistence) : Persistence :=
  let (batch, queue) := fillBatch s.batch s.service.msgQueue
  let shouldExit := s.dbWriterStop && queue.isEmpty && batch.isEmpty
  { s with service := { s.service with msgQueue := queue }, batch := batch, pc := .unlocked shouldExit }

/-- The rest of the iteration. -/
def flush (s : Persistence) (shouldExit : Bool) (outcome : Stmt Unit) : Persistence :=
  let s :=
    if s.batch.isEmpty then s
    else
      { s with batches := s.batches ++ [(s.batch, batchInsertMessages s.batch outcome)], batch := [] }
  { s with pc := if shouldExit then .exited else .waiting }

inductive Act where
  | enqueue (record : MessageRecord)
  | take
  | flush (outcome : Stmt Unit)
  /-- the critical section of `~ChatService` -/
  | stop
  deriving DecidableEq, Repr

def step (s : Persistence) : Act → Option Persistence
  | .enqueue record => some (s.enqueue record)
  | .take =>
    match s.pc with
    | .waiting => some s.take
    | _ => none
  | .flush outcome =>
    match s.pc with
    | .unlocked shouldExit => some (s.flush shouldExit outcome)
    | _ => none
  | .stop => some { s with dbWriterStop := true }

/-- Everything a step can do. -/
inductive Step (s : Persistence) : Act → Persistence → Prop where
  | accept (record : MessageRecord) (hroom : s.service.msgQueue.length < maxQueueSize) :
      Step s (.enqueue record) { s with
        service := { s.service with msgQueue := s.service.msgQueue ++ [record] }
        accepted := s.accepted ++ [record] }
  | refuse (record : MessageRecord) (hfull : maxQueueSize ≤ s.service.msgQueue.length) :
      Step s (.enqueue record) { s with
        service := { s.service with droppedMessages := s.service.droppedMessages + 1 }
        refused := s.refused ++ [record] }
  | take (hpc : s.pc = .waiting) : Step s .take s.take
  | flush {shouldExit : Bool} (outcome : Stmt Unit) (hpc : s.pc = .unlocked shouldExit)
      (hbatch : s.batch ≠ []) :
      Step s (.flush outcome) { s with
        batches := s.batches ++ [(s.batch, batchInsertMessages s.batch outcome)]
        batch := []
        pc := if shouldExit then .exited else .waiting }
  | pass {shouldExit : Bool} (outcome : Stmt Unit) (hpc : s.pc = .unlocked shouldExit)
      (hbatch : s.batch = []) :
      Step s (.flush outcome) { s with pc := if shouldExit then .exited else .waiting }
  | stop : Step s .stop { s with dbWriterStop := true }

theorem step_cases {s s' : Persistence} {a : Act} (h : s.step a = some s') : Step s a s' := by
  cases a with
  | enqueue record =>
    obtain rfl : s.enqueue record = s' := Option.some.inj h
    unfold enqueue Service.enqueueMessage
    split_ifs with hfull
    · exact .refuse record hfull
    · exact .accept record (Nat.lt_of_not_le hfull)
  | take =>
    simp only [step] at h
    split at h
    next hpc => cases h; exact .take hpc
    next => cases h
  | flush outcome =>
    simp only [step] at h
    split at h
    next shouldExit hpc =>
      cases h
      unfold flush
      by_cases hbatch : s.batch = []
      · rw [if_pos (List.isEmpty_iff.mpr hbatch)]
        exact .pass outcome hpc hbatch
      · rw [if_neg (mt List.isEmpty_iff.mp hbatch)]
        exact .flush outcome hpc hbatch
    next => cases h
  | stop =>
    cases h
    exact .stop

/-! ## §2 The batch -/

end Persistence

theorem fillBatch_append (batch queue : List MessageRecord) :
    (fillBatch batch queue).1 ++ (fillBatch batch queue).2 = batch ++ queue := by
  induction queue generalizing batch with
  | nil => rfl
  | cons record queue ih =>
    rw [fillBatch]
    split_ifs
    · rw [ih, List.append_assoc]
      rfl
    · rfl

theorem length_fillBatch_le {batch : List MessageRecord} (h : batch.length ≤ batchMaxSize)
    (queue : List MessageRecord) : (fillBatch batch queue).1.length ≤ batchMaxSize := by
  induction queue generalizing batch with
  | nil => exact h
  | cons record queue ih =>
    rw [fillBatch]
    split_ifs with hroom
    · refine ih ?_
      rw [List.length_append]
      exact hroom
    · exact h

theorem length_fillBatch_snd_le (batch queue : List MessageRecord) :
    (fillBatch batch queue).2.length ≤ queue.length := by
  induction queue generalizing batch with
  | nil => exact Nat.le_refl 0
  | cons record queue ih =>
    rw [fillBatch]
    split_ifs
    · exact Nat.le_succ_of_le (ih _)
    · exact Nat.le_refl _

namespace Persistence

/-! ## §3 Order and bounds -/

/-- The records passed to `batchInsertMessages`. -/
def passed (s : Persistence) : List MessageRecord := (s.batches.map Prod.fst).flatten

/-- Every accepted record is where it belongs: passed, in the batch, or queued. -/
structure Inv (s : Persistence) : Prop where
  order : s.accepted = s.passed ++ s.batch ++ s.service.msgQueue
  sizes : ∀ b ∈ s.batches, 1 ≤ b.1.length ∧ b.1.length ≤ batchMaxSize
  batchSize : s.batch.length ≤ batchMaxSize
  queueSize : s.service.msgQueue.length ≤ maxQueueSize

theorem Inv.init (first : UInt32) : Inv (init first) :=
  ⟨rfl, by simp [Persistence.init], Nat.zero_le _, Nat.zero_le _⟩

theorem Inv.step {s s' : Persistence} {a : Act} (h : Inv s) (hstep : Step s a s') : Inv s' := by
  cases hstep with
  | accept record hroom =>
    refine ⟨?_, h.sizes, h.batchSize, ?_⟩
    · show s.accepted ++ [record] = s.passed ++ s.batch ++ (s.service.msgQueue ++ [record])
      rw [h.order, List.append_assoc]
    · rw [List.length_append]
      exact hroom
  | refuse record hfull => exact ⟨h.order, h.sizes, h.batchSize, h.queueSize⟩
  | take hpc =>
    refine ⟨?_, h.sizes, length_fillBatch_le h.batchSize _,
      Nat.le_trans (length_fillBatch_snd_le ..) h.queueSize⟩
    show s.accepted = s.passed ++ (fillBatch s.batch s.service.msgQueue).1 ++
      (fillBatch s.batch s.service.msgQueue).2
    rw [List.append_assoc, fillBatch_append, ← List.append_assoc]
    exact h.order
  | flush outcome hpc hbatch =>
    refine ⟨?_, fun b hb => ?_, Nat.zero_le _, h.queueSize⟩
    · rw [h.order]
      simp [passed]
    · rcases List.mem_append.mp hb with hb | hb
      · exact h.sizes b hb
      · obtain rfl := List.mem_singleton.mp hb
        exact ⟨List.length_pos_iff.mpr hbatch, h.batchSize⟩
  | pass outcome hpc hbatch => exact ⟨h.order, h.sizes, h.batchSize, h.queueSize⟩
  | stop => exact ⟨h.order, h.sizes, h.batchSize, h.queueSize⟩

/-! ## §4 The exit -/

/-- No message is enqueued after `db_writer_stop_` has been set. -/
def EnqueuesBeforeStop (s : Persistence) : Act → Prop
  | .enqueue _ => s.dbWriterStop = false
  | _ => True

instance (s : Persistence) : (a : Act) → Decidable (s.EnqueuesBeforeStop a)
  | .enqueue _ => inferInstanceAs (Decidable (s.dbWriterStop = false))
  | .take | .flush _ | .stop => inferInstanceAs (Decidable True)

/-- The loop exits, or is about to. -/
def Leaving (s : Persistence) : Prop := s.pc = .unlocked true ∨ s.pc = .exited

/-- The exit test saw an empty queue and an empty batch, and nothing has come since. -/
structure Finished (s : Persistence) : Prop where
  stop : s.dbWriterStop = true
  batch : s.batch = []
  queue : s.service.msgQueue = []

theorem finished_step {s s' : Persistence} {a : Act} (h : s.Leaving → s.Finished)
    (hstop : s.EnqueuesBeforeStop a) (hstep : Step s a s') : s'.Leaving → s'.Finished := by
  intro hleaving
  cases hstep with
  | accept record hroom =>
    have hrunning : s.dbWriterStop = false := hstop
    rw [(h hleaving).stop] at hrunning
    cases hrunning
  | refuse record hfull => exact ⟨(h hleaving).stop, (h hleaving).batch, (h hleaving).queue⟩
  | take hpc =>
    rcases hleaving with hexit | hexit
    · have htest := WriterPc.unlocked.inj hexit
      simp only [Bool.and_eq_true, List.isEmpty_iff] at htest
      exact ⟨htest.1.1, htest.2, htest.1.2⟩
    · cases hexit
  | @flush shouldExit outcome hpc hbatch =>
    cases shouldExit with
    -- a batch that is written is not the last one
    | true => exact absurd (h (Or.inl hpc)).batch hbatch
    | false => rcases hleaving with hexit | hexit <;> cases hexit
  | @pass shouldExit outcome hpc hbatch =>
    cases shouldExit with
    | true => exact ⟨(h (Or.inl hpc)).stop, (h (Or.inl hpc)).batch, (h (Or.inl hpc)).queue⟩
    | false => rcases hleaving with hexit | hexit <;> cases hexit
  | stop => exact ⟨rfl, (h hleaving).batch, (h hleaving).queue⟩

theorem run_inv {first : UInt32} {acts : List Act} {s : Persistence}
    (hrun : run step (init first) acts = some s) : Inv s :=
  run_invariant (fun _ _ _ h hs => h.step (step_cases hs)) (.init first) hrun

theorem run_finished {first : UInt32} {acts : List Act} {s : Persistence}
    (hrun : run step (init first) acts = some s)
    (hstop : Meets step EnqueuesBeforeStop (init first) acts) (hexit : s.Leaving) : s.Finished := by
  refine run_invariant_of_meets (P := fun s => s.Leaving → s.Finished)
    (fun _ _ _ h hG hs => finished_step h hG (step_cases hs)) ?_ hstop hrun hexit
  rintro (h | h) <;> cases h

/-- **Asynchronous persistence**: in every state of every run the batches passed to the database,
one after the other, are a prefix of the accepted messages, each of them has at least one record and at
most `BATCH_MAX_SIZE`, and the queue has at most `MAX_QUEUE_SIZE`; and if nothing is enqueued after
the stop, every accepted message has been passed on when the loop has exited. -/
theorem persisted_in_order (first : UInt32) (acts : List Act) (s : Persistence)
    (hrun : run step (init first) acts = some s) :
    s.passed <+: s.accepted ∧
      (∀ b ∈ s.batches, 1 ≤ b.1.length ∧ b.1.length ≤ batchMaxSize) ∧
      s.service.msgQueue.length ≤ maxQueueSize ∧
      (Meets step EnqueuesBeforeStop (init first) acts → s.pc = .exited →
        s.passed = s.accepted) := by
  have h := run_inv hrun
  refine ⟨?_, h.sizes, h.queueSize, fun hstop hexit => ?_⟩
  · rw [h.order, List.append_assoc]
    exact List.prefix_append _ _
  · have hdone := run_finished hrun hstop (Or.inr hexit)
    rw [h.order, hdone.batch, hdone.queue, List.append_nil, List.append_nil]

/-- Two messages come while a batch of one is written, and the stop before the second batch. -/
def stopWhileWriting : List Act :=
  [.enqueue ⟨1, 1, []⟩, .take, .enqueue ⟨1, 2, []⟩, .enqueue ⟨1, 1, []⟩, .flush (.executed ()), .stop,
    .take, .flush .executeFailed, .take, .flush .noConnection]

theorem persisted_in_order_stopWhileWriting :
    ∃ s, run step (init 1) stopWhileWriting = some s ∧ s.pc = .exited ∧ s.accepted.length = 3 ∧
      s.passed = s.accepted :=
  have h := persisted_in_order 1 stopWhileWriting _ rfl
  ⟨_, rfl, rfl, rfl, h.2.2.2 (by decide) rfl⟩

end Persistence

end EchoNet.Chat
