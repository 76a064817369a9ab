import EchoNet.Chat.Frames
import EchoNet.Chat.Persistence

/-!
# Dropped Messages

`handleSendMessage` answers first and calls `enqueueMessage` afterwards.  What becomes of an
answered message is counted here: it is on its way to the queue, or dropped at the full queue, or
accepted and later part of a batch, which MySQL may refuse.  `dropped_messages_` counts the full
queue only: `dbWriterLoop` does not look at what `batchInsertMessages` returns.

## Main results

- `sent_accounted_iff`: answers, inserted records and `dropped_messages_` agree when the loop has
  exited exactly when no batch of the run has failed.
- `lost_batch_uncounted`: a message that is answered, lost and not counted.
-/

namespace EchoNet.Chat

open EchoNet.Lib EchoNet.Protocol

/-! ## §1 The handler before the queue -/

/-- A `SEND_MSG_RESP` that says `"OK"`. -/
def Sent.isSendOk : Sent → Bool
  | .response _ msg => msg.type = .sendMsgResp && msg.payload = ascii "OK"
  | .push _ _ => false

/-- What the handlers have to do with the persistence. -/
structure Outbox where
  answered : Nat
  queue : List MessageRecord
  dropped : UInt64

namespace Service

/-- `handleSendMessage` up to the call of `enqueueMessage`, with the record for it. -/
def acknowledge (s : Service) (conn : Conn) (msg : MyMessage) : Service × Option MessageRecord :=
  match s.getSessionByConn conn with
  | none => (s.respond conn .errorResp msg (ascii "Not logged in"), none)
  | some x =>
    let roomId := (s.sessionAt x).roomId
    if roomId = 0 then (s.respond conn .errorResp msg (ascii "Not in any room"), none)
    else
      match s.getRoomById roomId with
      | none => (s.respond conn .errorResp msg (ascii "Room not found"), none)
      | some ρ =>
        let s := s.broadcast ρ (chatMessage roomId (s.sessionAt x).username msg.payload)
        let s := s.respond conn .sendMsgResp msg (ascii "OK")
        (s, some ⟨roomId, (s.sessionAt x).userId, msg.payload⟩)

/-- An operation up to the call of `enqueueMessage`, if it comes to one. -/
def proceed (s : Service) : Op → Service × Option MessageRecord
  | .message env conn msg =>
    if msg.type = .sendMsgReq ∧ s.Admitted env conn msg then
      (s.afterLimiters env conn msg).countRequest.acknowledge conn msg
    else (s.handleMessage env conn msg, none)
  | .closed env fd => (s.onConnectionClosed env fd, none)

theorem handleSendMessage_eq (s : Service) (conn : Conn) (msg : MyMessage) :
    s.handleSendMessage conn msg =
      (s.acknowledge conn msg).2.elim (s.acknowledge conn msg).1
        (s.acknowledge conn msg).1.enqueueMessage := by
  unfold handleSendMessage acknowledge
  cases s.getSessionByConn conn with
  | none => rfl
  | some x =>
    dsimp only
    split_ifs
    · rfl
    · cases s.getRoomById (s.sessionAt x).roomId <;> rfl

/-- A completed operation is an operation up to the queue, and the queue. -/
theorem apply_eq_proceed (s : Service) (op : Op) :
    s.apply op = (s.proceed op).2.elim (s.proceed op).1 (s.proceed op).1.enqueueMessage := by
  cases op with
  | message env conn msg =>
    rw [apply, proceed]
    split_ifs with hsend
    · rw [handleMessage_eq, if_pos hsend.2, dispatch, hsend.1]
      exact handleSendMessage_eq ..
    · rfl
  | closed env fd => rfl

/-! ### The outbox -/

def outbox (s : Service) : Outbox where
  answered := s.sent.countP Sent.isSendOk
  queue := s.msgQueue
  dropped := s.droppedMessages

theorem broadcast_outbox (s : Service) (ρ : RoomRef) (msg : MyMessage) :
    (s.broadcast ρ msg).outbox = s.outbox := by
  have hpush : ((s.roomAt ρ).members.map fun x => Sent.push x msg).countP Sent.isSendOk = 0 := by
    rw [List.countP_map]
    exact List.countP_eq_zero.mpr fun x _ => Bool.false_ne_true
  simp [outbox, broadcast, hpush]

theorem respond_outbox (s : Service) (conn : Conn) (type : MyType) (msg : MyMessage)
    (payload : Bytes) (h : type ≠ .sendMsgResp) :
    (s.respond conn type msg payload).outbox = s.outbox := by
  simp [outbox, respond, Sent.isSendOk, h]

/-- Only `handleSendMessage` touches the outbox. -/
theorem outbox_frame : Frame outbox where
  onTables _ _ := rfl
  respond := respond_outbox
  broadcast := broadcast_outbox
  redis _ _ := rfl
  metrics _ _ := rfl

theorem afterLimiters_outbox (s : Service) (env : Env) (conn : Conn) (msg : MyMessage) :
    (s.afterLimiters env conn msg).outbox = s.outbox := by
  unfold afterLimiters passLimiters
  split_ifs
  · rfl
  · split <;> rfl

theorem handleMessage_outbox (s : Service) (env : Env) (conn : Conn) {msg : MyMessage}
    (h : ¬ (msg.type = .sendMsgReq ∧ s.Admitted env conn msg)) :
    (s.handleMessage env conn msg).outbox = s.outbox := by
  rw [handleMessage_eq]
  split_ifs with hpass
  · rw [outbox_frame.dispatch _ env conn msg fun htype => h ⟨htype, hpass⟩, afterLimiters_outbox]
  · rw [outbox_frame.sendRateLimited, afterLimiters_outbox]

theorem onConnectionClosed_outbox (s : Service) (env : Env) (fd : Int) :
    (s.onConnectionClosed env fd).outbox = s.outbox := by
  unfold onConnectionClosed
  dsimp only
  split
  · rfl
  · split_ifs
    · rfl
    · rw [checkAndRemoveEmptyRoom, outbox_frame.onTables, outbox_frame.broadcastMemberCount]
      rfl

/-- An answer `"OK"` and a record go together. -/
theorem acknowledge_outbox (s : Service) (conn : Conn) (msg : MyMessage) :
    (s.acknowledge conn msg).1.outbox =
      { s.outbox with answered := s.outbox.answered + (s.acknowledge conn msg).2.toList.length } := by
  unfold acknowledge
  cases s.getSessionByConn conn with
  | none => exact s.respond_outbox conn _ msg _ (by decide)
  | some x =>
    dsimp only
    split_ifs
    · exact s.respond_outbox conn _ msg _ (by decide)
    · cases s.getRoomById (s.sessionAt x).roomId with
      | none => exact s.respond_outbox conn _ msg _ (by decide)
      | some ρ =>
        have hbroadcast := s.broadcast_outbox ρ
          (chatMessage (s.sessionAt x).roomId (s.sessionAt x).username msg.payload)
        rw [← hbroadcast]
        simp [outbox, respond, Sent.isSendOk]

theorem proceed_outbox (s : Service) (op : Op) :
    (s.proceed op).1.outbox =
      { s.outbox with answered := s.outbox.answered + (s.proceed op).2.toList.length } := by
  cases op with
  | message env conn msg =>
    rw [proceed]
    split_ifs with hsend
    · rw [acknowledge_outbox, countRequest, outbox_frame.metrics, afterLimiters_outbox]
    · exact s.handleMessage_outbox env conn hsend
  | closed env fd => exact s.onConnectionClosed_outbox env fd

end Service

/-! ## §2 Handlers, queue and writer -/

/-- The service and its writer, with the handlers that have answered and are about to call
`enqueueMessage`. -/
structure Sending where
  persistence : Persistence
  pending : List MessageRecord

namespace Sending

def init (first : UInt32) : Sending := ⟨.init first, []⟩

inductive Act where
  /-- an operation up to the call of `enqueueMessage` -/
  | request (op : Op)
  /-- a handler calls `enqueueMessage` -/
  | enqueue (k : Nat)
  | take
  | flush (outcome : Stmt Unit)
  | stop
  deriving DecidableEq, Repr

def onPersistence (s : Sending) (a : Persistence.Act) : Option Sending :=
  (s.persistence.step a).map fun p => { s with persistence := p }

def step (s : Sending) : Act → Option Sending
  | .request op =>
    let (service, record) := s.persistence.service.proceed op
    some ⟨{ s.persistence with service := service }, s.pending ++ record.toList⟩
  | .enqueue k =>
    match s.pending[k]? with
    | none => none
    | some record =>
      (s.persistence.step (.enqueue record)).map fun p => ⟨p, s.pending.eraseIdx k⟩
  | .take => s.onPersistence .take
  | .flush outcome => s.onPersistence (.flush outcome)
  | .stop => s.onPersistence .stop

/-- Everything a step can do. -/
inductive Step (s : Sending) : Act → Sending → Prop where
  | request (op : Op) :
      Step s (.request op)
        ⟨{ s.persistence with service := (s.persistence.service.proceed op).1 },
          s.pending ++ (s.persistence.service.proceed op).2.toList⟩
  | enqueue {k : Nat} {record : MessageRecord} {p : Persistence} (hk : s.pending[k]? = some record)
      (hp : s.persistence.Step (.enqueue record) p) :
      Step s (.enqueue k) ⟨p, s.pending.eraseIdx k⟩
  | take {p : Persistence} (hp : s.persistence.Step .take p) : Step s .take ⟨p, s.pending⟩
  | flush {outcome : Stmt Unit} {p : Persistence} (hp : s.persistence.Step (.flush outcome) p) :
      Step s (.flush outcome) ⟨p, s.pending⟩
  | stop {p : Persistence} (hp : s.persistence.Step .stop p) : Step s .stop ⟨p, s.pending⟩

theorem step_cases {s s' : Sending} {a : Act} (h : s.step a = some s') : Step s a s' := by
  cases a with
  | request op =>
    cases h
    exact .request op
  | enqueue k =>
    simp only [step] at h
    split at h
    next => cases h
    next record hk =>
      obtain ⟨p, hp, rfl⟩ := Option.map_eq_some_iff.mp h
      exact .enqueue hk (Persistence.step_cases hp)
  | take =>
    obtain ⟨p, hp, rfl⟩ := Option.map_eq_some_iff.mp h
    exact .take (Persistence.step_cases hp)
  | flush outcome =>
    obtain ⟨p, hp, rfl⟩ := Option.map_eq_some_iff.mp h
    exact .flush (Persistence.step_cases hp)
  | stop =>
    simp only [step] at h
    obtain ⟨p, hp, rfl⟩ := Option.map_eq_some_iff.mp h
    exact .stop (Persistence.step_cases hp)

/-! ## §3 Conservation -/

/-- The number of `SEND_MSG_REQ` answered `"OK"`. -/
def answered (s : Sending) : Nat := s.persistence.service.outbox.answered

/-- Every answered message is accounted for. -/
structure Inv (s : Sending) : Prop where
  queued : s.persistence.Inv
  answered : s.answered =
    s.pending.length + s.persistence.accepted.length + s.persistence.refused.length
  dropped : s.persistence.service.droppedMessages = UInt64.ofNat s.persistence.refused.length

theorem Inv.init (first : UInt32) : Inv (init first) := ⟨.init first, rfl, rfl⟩

theorem Inv.step {s s' : Sending} {a : Act} (h : Inv s) (hstep : Step s a s') : Inv s' := by
  cases hstep with
  | request op =>
    have hout := s.persistence.service.proceed_outbox op
    -- a handler changes neither the queue nor the counter of drops
    have hqueue : (s.persistence.service.proceed op).1.msgQueue = s.persistence.service.msgQueue :=
      congrArg Outbox.queue hout
    have hdropped : (s.persistence.service.proceed op).1.droppedMessages =
        s.persistence.service.droppedMessages := congrArg Outbox.dropped hout
    refine ⟨⟨?_, h.queued.sizes, h.queued.batchSize, ?_⟩, ?_, hdropped.trans h.dropped⟩
    · exact h.queued.order.trans (by rw [← hqueue]; rfl)
    · exact hqueue ▸ h.queued.queueSize
    · have hanswered := congrArg Outbox.answered hout
      have hbefore := h.answered
      simp only [Sending.answered, List.length_append] at hanswered hbefore ⊢
      omega
  | @enqueue k record p hk hp =>
    have hlength : s.pending.length = (s.pending.eraseIdx k).length + 1 := by
      have hlt := (List.getElem?_eq_some_iff.mp hk).1
      rw [List.length_eraseIdx_of_lt hlt]
      omega
    have hanswered := h.answered
    refine ⟨h.queued.step hp, ?_, ?_⟩
    -- from the pending to the accepted, or to the refused
    · cases hp with
      | accept hroom =>
        simp only [Sending.answered, Service.outbox, List.length_append, List.length_singleton]
          at hanswered ⊢
        omega
      | refuse hfull =>
        simp only [Sending.answered, Service.outbox, List.length_append, List.length_singleton]
          at hanswered ⊢
        omega
    · cases hp with
      | accept hroom => exact h.dropped
      | refuse hfull =>
        simp only [List.length_append, List.length_singleton, UInt64.ofNat_add, h.dropped]
        rfl
  | take hp =>
    refine ⟨h.queued.step hp, ?_, ?_⟩
    · cases hp
      exact h.answered
    · cases hp
      exact h.dropped
  | flush hp =>
    refine ⟨h.queued.step hp, ?_, ?_⟩
    · cases hp <;> exact h.answered
    · cases hp <;> exact h.dropped
  | stop hp =>
    refine ⟨h.queued.step hp, ?_, ?_⟩
    · cases hp
      exact h.answered
    · cases hp
      exact h.dropped

/-! ## §4 The exit -/

/-- No message is enqueued after `db_writer_stop_` has been set. -/
def EnqueuesBeforeStop (s : Sending) : Act → Prop
  | .enqueue _ => s.persistence.dbWriterStop = false
  | _ => True

instance (s : Sending) : (a : Act) → Decidable (s.EnqueuesBeforeStop a)
  | .enqueue _ => inferInstanceAs (Decidable (s.persistence.dbWriterStop = false))
  | .request _ | .take | .flush _ | .stop => inferInstanceAs (Decidable True)

theorem finished_step {s s' : Sending} {a : Act}
    (h : s.persistence.Leaving → s.persistence.Finished) (hstop : s.EnqueuesBeforeStop a)
    (hstep : Step s a s') : s'.persistence.Leaving → s'.persistence.Finished := by
  cases hstep with
  | request op =>
    intro hleaving
    have hdone := h hleaving
    have hqueue := congrArg Outbox.queue (s.persistence.service.proceed_outbox op)
    exact ⟨hdone.stop, hdone.batch, hqueue.trans hdone.queue⟩
  | enqueue hk hp => exact Persistence.finished_step (a := .enqueue _) h hstop hp
  | take hp => exact Persistence.finished_step (a := .take) h trivial hp
  | flush hp => exact Persistence.finished_step (a := .flush _) h trivial hp
  | stop hp => exact Persistence.finished_step (a := .stop) h trivial hp

/-! ## §5 Batches that fail -/

/-- A batch that is written is executed. -/
def Written (s : Sending) : Act → Prop
  | .flush outcome => batchInsertMessages s.persistence.batch outcome = true
  | _ => True

instance (s : Sending) : (a : Act) → Decidable (s.Written a)
  | .flush outcome =>
    inferInstanceAs (Decidable (batchInsertMessages s.persistence.batch outcome = true))
  | .request _ | .enqueue _ | .take | .stop => inferInstanceAs (Decidable True)

/-- Every batch so far has been executed. -/
def AllWritten (s : Sending) : Prop := ∀ b ∈ s.persistence.batches, b.2 = true

theorem allWritten_step {s s' : Sending} {a : Act} (hstep : Step s a s') :
    s'.AllWritten ↔ s.AllWritten ∧ s.Written a := by
  cases hstep with
  | request op => exact (and_iff_left trivial).symm
  | enqueue hk hp => cases hp <;> exact (and_iff_left trivial).symm
  | take hp => cases hp; exact (and_iff_left trivial).symm
  | flush hp =>
    cases hp with
    | flush hpc hbatch =>
      show (∀ b ∈ s.persistence.batches ++ [_], b.2 = true) ↔ _
      rw [List.forall_mem_append, List.forall_mem_singleton]
      rfl
    | pass outcome hpc hbatch =>
      refine (and_iff_left ?_).symm
      show batchInsertMessages s.persistence.batch _ = true
      rw [hbatch]
      rfl
  | stop hp => cases hp; exact (and_iff_left trivial).symm

/-- The number of records in the batches with a result. -/
def recordsWith (s : Sending) (result : Bool) : Nat :=
  ((s.persistence.batches.filter (·.2 = result)).map (·.1.length)).sum

/-- The records in successfully executed batches. -/
def inserted (s : Sending) : Nat := s.recordsWith true

theorem length_passed (s : Sending) :
    s.persistence.passed.length = s.recordsWith true + s.recordsWith false := by
  unfold Persistence.passed recordsWith
  induction s.persistence.batches with
  | nil => rfl
  | cons b bs ih =>
    rw [List.map_cons, List.flatten_cons, List.length_append, ih]
    cases h : b.2 with
    | true =>
      simp only [List.filter_cons, h, decide_true, if_true, Bool.true_eq_false, decide_false,
        Bool.false_eq_true, if_false, List.map_cons, List.sum_cons]
      omega
    | false =>
      simp only [List.filter_cons, h, decide_true, if_true, Bool.false_eq_true, decide_false,
        if_false, List.map_cons, List.sum_cons]
      omega

/-- No batch is empty, so that a failed one loses something. -/
theorem recordsWith_false_eq_zero {s : Sending} (h : Inv s) :
    s.recordsWith false = 0 ↔ s.AllWritten := by
  unfold recordsWith AllWritten
  rw [List.sum_eq_zero_iff_forall_eq_nat]
  constructor
  · intro hzero b hb
    by_contra hfailed
    have hmem : b.1.length ∈ (s.persistence.batches.filter (·.2 = false)).map (·.1.length) :=
      List.mem_map_of_mem (List.mem_filter.mpr ⟨hb, by simpa using hfailed⟩)
    have hpos := (h.queued.sizes b hb).1
    rw [hzero _ hmem] at hpos
    exact absurd hpos (by decide)
  · intro hall n hn
    obtain ⟨b, hb, rfl⟩ := List.mem_map.mp hn
    obtain ⟨hb, hfailed⟩ := List.mem_filter.mp hb
    simp [hall b hb] at hfailed

theorem run_inv {first : UInt32} {acts : List Act} {s : Sending}
    (hrun : run step (init first) acts = some s) : Inv s :=
  run_invariant (fun _ _ _ h hs => h.step (step_cases hs)) (.init first) hrun

theorem run_finished {first : UInt32} {acts : List Act} {s : Sending}
    (hrun : run step (init first) acts = some s)
    (hstop : Meets step EnqueuesBeforeStop (init first) acts) (hexit : s.persistence.Leaving) :
    s.persistence.Finished := by
  refine run_invariant_of_meets (P := fun s => s.persistence.Leaving → s.persistence.Finished)
    (fun _ _ _ h hG hs => finished_step h hG (step_cases hs)) ?_ hstop hrun hexit
  rintro (h | h) <;> cases h

/-- **Dropped messages, exactly.**  When the loop has exited, every handler has made its call and
none of them after the stop, the answered messages are the inserted records and the dropped
messages exactly when every batch of the run was executed and the 64-bit counter has not wrapped. -/
theorem sent_accounted_iff {first : UInt32} {acts : List Act} {s : Sending}
    (hrun : run step (init first) acts = some s) (hexit : s.persistence.pc = .exited)
    (hpending : s.pending = []) (hstop : Meets step EnqueuesBeforeStop (init first) acts) :
    s.answered = s.inserted + s.persistence.service.droppedMessages.toNat ↔
      Meets step Written (init first) acts ∧ s.persistence.refused.length < 2 ^ 64 := by
  have h := run_inv hrun
  have hdone := run_finished hrun hstop (Or.inr hexit)
  have hwritten : s.AllWritten ↔ (init first).AllWritten ∧ Meets step Written (init first) acts :=
    last_iff_meets (I := fun _ => True) (fun _ _ _ _ _ => trivial)
      (fun _ _ _ _ hs => allWritten_step (step_cases hs)) trivial hrun
  have hinit : (init first).AllWritten := fun b hb => absurd hb List.not_mem_nil
  rw [and_iff_right hinit] at hwritten
  -- every accepted message has been passed to `batchInsertMessages`
  have haccepted : s.persistence.accepted.length = s.recordsWith true + s.recordsWith false := by
    rw [h.queued.order, hdone.batch, hdone.queue, List.append_nil, List.append_nil, length_passed]
  have hanswered := h.answered
  rw [hpending, haccepted] at hanswered
  rw [← hwritten, ← recordsWith_false_eq_zero h, h.dropped, UInt64.toNat_ofNat', inserted,
    hanswered]
  -- the counter is the number of refusals modulo `2 ^ 64`
  have hmod := Nat.mod_le s.persistence.refused.length (2 ^ 64)
  constructor
  · intro heq
    have hrefused : s.persistence.refused.length % 2 ^ 64 = s.persistence.refused.length := by
      simp only [List.length_nil] at heq
      omega
    refine ⟨?_, hrefused ▸ Nat.mod_lt _ (by decide)⟩
    simp only [List.length_nil] at heq
    omega
  · rintro ⟨hlost, hsmall⟩
    rw [hlost, Nat.mod_eq_of_lt hsmall]
    simp

/-- A user sends two messages, which come into one batch; then the service stops. -/
def sendTwice (outcome : Stmt Unit) : List Act :=
  [.request (Service.request ⟨0, 5⟩ .loginReq "ann|pw"),
    .request (Service.request ⟨0, 5⟩ .createRoomReq "r"),
    .request (Service.request ⟨0, 5⟩ .sendMsgReq "hi"),
    .request (Service.request ⟨0, 5⟩ .sendMsgReq "ho"), .enqueue 1, .enqueue 0, .take, .flush outcome,
    .stop, .take, .flush .noConnection]

theorem sent_accounted_iff_written :
    ∃ s, run step (init 1) (sendTwice (.executed ())) = some s ∧
      s.answered = s.inserted + s.persistence.service.droppedMessages.toNat := by
  have hlast : ((run step (init 1) (sendTwice (.executed ()))).any fun s =>
      decide (s.persistence.pc = .exited ∧ s.pending = [] ∧ s.persistence.refused.length < 2 ^ 64)) =
        true := by
    decide +kernel
  obtain ⟨s, hrun, hs⟩ := exists_of_run_any hlast
  obtain ⟨hexit, hpending, hrefused⟩ := of_decide_eq_true hs
  exact ⟨s, hrun, (sent_accounted_iff hrun hexit hpending (by decide +kernel)).mpr
    ⟨by decide +kernel, hrefused⟩⟩

/-- MySQL is away when the batch is written: two answers, no record and no drop. -/
theorem lost_batch_uncounted :
    ∃ s, run step (init 1) (sendTwice .noConnection) = some s ∧ s.persistence.pc = .exited ∧
      s.pending = [] ∧ Meets step EnqueuesBeforeStop (init 1) (sendTwice .noConnection) ∧
      s.answered = 2 ∧ s.inserted + s.persistence.service.droppedMessages.toNat = 0 := by
  have hlast : ((run step (init 1) (sendTwice .noConnection)).any fun s =>
      decide (s.persistence.pc = .exited ∧ s.pending = [] ∧ s.answered = 2 ∧
        s.inserted + s.persistence.service.droppedMessages.toNat = 0)) = true := by
    decide +kernel
  obtain ⟨s, hrun, hs⟩ := exists_of_run_any hlast
  obtain ⟨hexit, hpending, hcounts⟩ := of_decide_eq_true hs
  exact ⟨s, hrun, hexit, hpending, by decide +kernel, hcounts⟩

end Sending

end EchoNet.Chat
