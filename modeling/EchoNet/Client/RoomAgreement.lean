import EchoNet.Chat.RedisMirror
import EchoNet.Client.Window

/-!
# The Room of a Window and the Room of its Session

A chat window keeps `currentRoomId_`, the chat service keeps `Session::roomId`, and the two are
changed at different times: the window writes the room of a join when the user clicks, all other
changes when it reads an answer.  Between a click and its answer they differ; here is when they
agree again.

- A `Desk` is a window, the requests it has written and the service has not handled, the service,
  and the messages for the window that it has not read.  The connection stays open, and both ways
  keep the order.
- Other connections go on meanwhile (`Act.other`), and rooms push to the window.
- A join must not overtake: the user clicks it when the answers to his creations and leaves have
  been read (`Calm`).  Nothing in the window enforces that.

## Main results

- `window_agrees`: after a calm run, once no request for a room is on its way and everything has
  been read, the window shows the room of the session, unless the last join was refused.
- `hasty_join_disagrees`: a join that overtakes the answer to a leave locks the user out of the
  room that he is in.
-/

namespace EchoNet.Client

open EchoNet.Lib EchoNet.Protocol EchoNet.Chat

/-! ## §1 A window and the service -/

structure Desk where
  service : Service
  window : Window
  /-- written by the window, not yet handled; the oldest first -/
  requests : List MyMessage
  /-- sent to the window, not yet read; the oldest first -/
  inbox : List MyMessage
  /-- history: the last join was refused, and the session has not changed its room since -/
  refused : Bool

inductive Act where
  | click (c : Window.Click)
  /-- a worker handles the oldest request -/
  | handle (env : Env)
  /-- an operation of another connection -/
  | other (op : Op)
  /-- the window reads the oldest message -/
  | read
  deriving DecidableEq, Repr

/-- Where a call of `sendResponse` goes. -/
def delivered (conn : Conn) (t : Tables) : Sent → Option MyMessage
  | .response c m => if c = conn then some m else none
  | .push y m => if (t.sessionAt y).conn = conn then some m else none

namespace Desk

/-- The window opens when the login has been answered. -/
def opened (s : Service) : Desk := ⟨s, .opened, [], [], false⟩

/-- An operation of the service, and what it sends to the window. -/
def serve (conn : Conn) (d : Desk) (op : Op) : Desk :=
  let s := d.service.apply op
  { d with
    service := s
    inbox := d.inbox ++ (s.sent.drop d.service.sent.length).filterMap (delivered conn s.toTables) }

/-- What becomes of `refused` with a request that makes the change `c`. -/
def refusedAfter (refused : Bool) (msg : MyMessage) : Change → Bool
  | .create _ _ => false
  | .join _ _ _ => false
  | .leave _ => false
  | _ => refused || msg.type = .joinRoomReq

def step (qt : QtText) (conn : Conn) (d : Desk) : Act → Option Desk
  | .click c =>
    let (w, msg) := d.window.click qt c
    some { d with window := w, requests := d.requests ++ msg.toList }
  | .handle env =>
    match d.requests with
    | [] => none
    | msg :: rest =>
      let op := Op.message env conn msg
      some { d.serve conn op with
        requests := rest
        refused := refusedAfter d.refused msg (d.service.change op) }
  | .other op => if op.fd = conn.fd then none else some (d.serve conn op)
  | .read =>
    match d.inbox with
    | [] => none
    | msg :: rest => some { d with window := d.window.receive qt msg, inbox := rest }

/-- A request that writes `currentRoomId_` when its answer is read. -/
def Moves (m : MyMessage) : Prop := m.type = .createRoomReq ∨ m.type = .leaveRoomReq

/-- The answer to such a request. -/
def Moved (m : MyMessage) : Prop := m.type = .createRoomResp ∨ m.type = .leaveRoomResp

/-- The user joins a room when the answers to his creations and leaves have been read. -/
def Calm (d : Desk) : Act → Prop
  | .click (.joinRoom _) => (∀ m ∈ d.requests, ¬Moves m) ∧ ∀ m ∈ d.inbox, ¬Moved m
  | _ => True

/-- No request for a room is on its way, and the window has read everything. -/
structure Quiet (d : Desk) : Prop where
  requests : ∀ m ∈ d.requests, ¬Moves m ∧ m.type ≠ .joinRoomReq
  inbox : d.inbox = []

end Desk

/-- The window shows the room `room`, or none when that is 0. -/
structure Window.Shows (w : Window) (room : UInt32) : Prop where
  current : w.currentRoomId = room
  label : (w.roomLabel.map Prod.fst).getD 0 = room

/-! ## §2 What the window will show -/

namespace Window.View

variable {qt : QtText} {v v' : View}

/-- The view when `msgs` have been read. -/
def afterAll (qt : QtText) (v : View) (msgs : List MyMessage) : View :=
  msgs.foldl (fun v m => v.after (effect qt m)) v

@[simp] theorem afterAll_nil (qt : QtText) (v : View) : v.afterAll qt [] = v := rfl

@[simp] theorem afterAll_cons (qt : QtText) (v : View) (m : MyMessage) (ms : List MyMessage) :
    v.afterAll qt (m :: ms) = (v.after (effect qt m)).afterAll qt ms := rfl

@[simp] theorem afterAll_append (qt : QtText) (v : View) (ms ms' : List MyMessage) :
    v.afterAll qt (ms ++ ms') = (v.afterAll qt ms).afterAll qt ms' := List.foldl_append

/-- The widgets depend on the messages only. -/
theorem enabled_after_congr (h : v.enabled = v'.enabled) (e : Effect) :
    (v.after e).enabled = (v'.after e).enabled := by
  cases e with
  | count roomId =>
    unfold after
    dsimp only
    split_ifs <;> exact h
  | none => exact h
  | _ => rfl

theorem enabled_afterAll_congr (h : v.enabled = v'.enabled) (msgs : List MyMessage) :
    (v.afterAll qt msgs).enabled = (v'.afterAll qt msgs).enabled := by
  induction msgs generalizing v v' with
  | nil => exact h
  | cons m ms ih => exact ih (enabled_after_congr h (effect qt m))

/-- Only the answers to creations and leaves write `currentRoomId_`. -/
theorem currentRoomId_after {m : MyMessage} (h : ¬Desk.Moved m) :
    (v.after (effect qt m)).currentRoomId = v.currentRoomId := by
  obtain ⟨hcreate, hleave⟩ := not_or.mp h
  unfold effect
  cases htype : m.type with
  | createRoomResp => exact absurd htype hcreate
  | leaveRoomResp => exact absurd htype hleave
  | joinRoomResp =>
    dsimp only
    split_ifs <;> rfl
  | memberCountUpdate =>
    dsimp only
    split_ifs
    · unfold after
      dsimp only
      split_ifs <;> rfl
    · rfl
  | _ => rfl

theorem currentRoomId_afterAll {msgs : List MyMessage} (h : ∀ m ∈ msgs, ¬Desk.Moved m) :
    (v.afterAll qt msgs).currentRoomId = v.currentRoomId := by
  induction msgs generalizing v with
  | nil => rfl
  | cons m ms ih =>
    rw [List.forall_mem_cons] at h
    rw [afterAll_cons, ih h.2, currentRoomId_after h.1]

/-- Without a room in the label the widgets are off. -/
def LabelKept (v : View) : Prop := v.label = none → v.enabled = (false, false, false)

theorem LabelKept.after (h : v.LabelKept) (e : Effect) : (v.after e).LabelKept := by
  cases e with
  | count roomId =>
    unfold View.after
    dsimp only
    split_ifs
    · exact fun hnone => absurd hnone (Option.some_ne_none roomId)
    · exact h
  | leave => exact fun _ => rfl
  | none => exact h
  | _ => exact fun hnone => absurd hnone (Option.some_ne_none _)

/-- At most the label has changed, and shows the current room now. -/
structure Counted (v v' : View) : Prop where
  current : v'.currentRoomId = v.currentRoomId
  enabled : v'.enabled = v.enabled
  label : v'.label = v.label ∨ v'.label = some v.currentRoomId

theorem Counted.of_eq (h : v' = v) : Counted v v' := by
  rw [h]
  exact ⟨rfl, rfl, Or.inl rfl⟩

/-- Pushes count members, and that is all. -/
theorem counted_afterAll {msgs : List MyMessage}
    (h : ∀ m ∈ msgs, m.type = .memberCountUpdate ∨ m.type = .broadcastMsg) :
    Counted v (v.afterAll qt msgs) := by
  induction msgs generalizing v with
  | nil => exact .of_eq rfl
  | cons m ms ih =>
    rw [List.forall_mem_cons] at h
    have hrest := ih (v := v.after (effect qt m)) h.2
    have hfirst : Counted v (v.after (effect qt m)) := by
      obtain he | ⟨roomId, he⟩ := effect_push qt h.1
      · rw [he]
        exact .of_eq rfl
      · rw [he, View.after]
        split_ifs with hid
        · exact ⟨rfl, rfl, Or.inr (congrArg some hid)⟩
        · exact .of_eq rfl
    refine ⟨hrest.current.trans hfirst.current, hrest.enabled.trans hfirst.enabled, ?_⟩
    cases hrest.label with
    | inl hsame =>
      rw [afterAll_cons, hsame]
      exact hfirst.label
    | inr hcurrent =>
      rw [afterAll_cons, hcurrent, hfirst.current]
      exact Or.inr rfl

theorem Counted.label_getD (h : Counted v v') {room : UInt32} (hcurrent : v.currentRoomId = room)
    (hlabel : v.label.getD 0 = room) : v'.label.getD 0 = room := by
  cases h.label with
  | inl hsame => rw [hsame, hlabel]
  | inr hnow => rw [hnow, Option.getD_some, hcurrent]

end Window.View

/-! ## §3 What the service sends -/

theorem delivered_pushes (conn : Conn) (t : Tables) {pushes : List Sent}
    (h : ∀ e ∈ pushes, Sent.Push e) :
    ∀ m ∈ pushes.filterMap (delivered conn t),
      m.type = .memberCountUpdate ∨ m.type = .broadcastMsg := by
  intro m hm
  obtain ⟨e, he, hdelivered⟩ := List.mem_filterMap.mp hm
  obtain ⟨y, m', rfl, htype⟩ := h e he
  unfold delivered at hdelivered
  dsimp only at hdelivered
  split_ifs at hdelivered
  obtain rfl := Option.some.inj hdelivered
  exact htype

namespace Desk

variable {qt : QtText} {conn : Conn} {x : SessionRef} {d : Desk}

/-- The service answers a request behind what it pushes to the window meanwhile. -/
theorem inbox_serve_own (d : Desk) (env : Env) (conn : Conn) (msg : MyMessage) :
    ∃ pushes m, (d.serve conn (.message env conn msg)).inbox = d.inbox ++ (pushes ++ [m]) ∧
      (∀ a ∈ pushes, a.type = .memberCountUpdate ∨ a.type = .broadcastMsg) ∧
      d.service.toTables.Answer msg (d.service.change (.message env conn msg)) m := by
  obtain ⟨m, ⟨pushes, hsent, hpush⟩, hanswer⟩ := d.service.handleMessage_answers env conn msg
  refine ⟨_, m, ?_, delivered_pushes conn (d.service.apply (.message env conn msg)).toTables hpush,
    hanswer⟩
  have hnew : (d.service.apply (.message env conn msg)).sent.drop d.service.sent.length =
      pushes ++ [.response conn m] := by
    rw [Service.apply, hsent, List.drop_left]
  have hresponse : ∀ t, delivered conn t (.response conn m) = some m := fun t => if_pos rfl
  rw [serve]
  dsimp only
  rw [hnew, List.filterMap_append, List.filterMap_cons_some (hresponse _), List.filterMap_nil]

/-- Another connection has rooms push to the window, at most. -/
theorem inbox_serve_other (d : Desk) {op : Op} (hne : op.fd ≠ conn.fd) :
    ∃ pushes, (d.serve conn op).inbox = d.inbox ++ pushes ∧
      ∀ a ∈ pushes, a.type = .memberCountUpdate ∨ a.type = .broadcastMsg := by
  cases op with
  | closed env fd =>
    obtain ⟨pushes, hsent, hpush⟩ := d.service.onConnectionClosed_pushes env fd
    refine ⟨_, ?_, delivered_pushes conn (d.service.onConnectionClosed env fd).toTables hpush⟩
    rw [serve, Service.apply]
    dsimp only
    rw [hsent, List.drop_left]
  | message env c msg =>
    obtain ⟨m, ⟨pushes, hsent, hpush⟩, -⟩ := d.service.handleMessage_answers env c msg
    refine ⟨_, ?_, delivered_pushes conn (d.service.handleMessage env c msg).toTables hpush⟩
    have hresponse : ∀ t, delivered conn t (.response c m) = none := fun t =>
      if_neg fun h => hne (congrArg Conn.fd h)
    rw [serve, Service.apply]
    dsimp only
    rw [hsent, List.drop_left, List.filterMap_append, List.filterMap_cons_none (hresponse _),
      List.filterMap_nil, List.append_nil]

/-! ## §4 What keeps the two in step -/

/-- What the window shows once it has read everything that is sent. -/
def shown (qt : QtText) (d : Desk) : Window.View := d.window.view.afterAll qt d.inbox

/-- The room of the session. -/
def room (d : Desk) (x : SessionRef) : UInt32 := (d.service.sessionAt x).roomId

/-- What holds with or without a join on its way. -/
structure Kept (qt : QtText) (conn : Conn) (x : SessionRef) (d : Desk) : Prop where
  consistent : d.service.toTables.Consistent
  session : d.service.sessions.lookup conn.fd = some x
  requests : ∀ m ∈ d.requests, m.type ≠ .loginReq
  label : d.window.view.LabelKept
  enabled : d.room x ≠ 0 → (d.shown qt).enabled = (true, true, true)

/-- No join is on its way. -/
structure Settled (qt : QtText) (x : SessionRef) (d : Desk) : Prop where
  requests : ∀ m ∈ d.requests, m.type ≠ .joinRoomReq
  current : d.refused = false → (d.shown qt).currentRoomId = d.room x
  label : d.refused = false → (d.shown qt).label.getD 0 = d.room x

/-- `m` is the last join on its way: nothing before it moves the window, which waits in its
room. -/
structure Joining (qt : QtText) (d : Desk) (before : List MyMessage) (m : MyMessage)
    (after : List MyMessage) : Prop where
  requests : d.requests = before ++ m :: after
  type : m.type = .joinRoomReq
  asked : ∃ s, m.payload = QString.toUtf8 s ∧ qt.toUInt s = some (d.shown qt).currentRoomId
  before : ∀ a ∈ before, ¬Moves a
  after : ∀ a ∈ after, a.type ≠ .joinRoomReq
  inbox : ∀ a ∈ d.inbox, ¬Moved a

structure Inv (qt : QtText) (conn : Conn) (x : SessionRef) (d : Desk) : Prop where
  kept : d.Kept qt conn x
  phase : d.Settled qt x ∨ ∃ before m after, d.Joining qt before m after

/-! ### Reading and clicking -/

/-- Members are counted, and the session stays in its room. -/
theorem Settled.counted {d' : Desk} (h : d.Settled qt x)
    (hrequests : ∀ m ∈ d'.requests, m.type ≠ .joinRoomReq)
    (hrefused : d'.refused = false → d.refused = false) (hroom : d'.room x = d.room x)
    (hcounted : Window.View.Counted (d.shown qt) (d'.shown qt)) : d'.Settled qt x where
  requests := hrequests
  current := fun hd => by rw [hcounted.current, hroom, h.current (hrefused hd)]
  label := fun hd => by
    rw [hroom]
    exact hcounted.label_getD (h.current (hrefused hd)) (h.label (hrefused hd))

theorem Inv.read (h : d.Inv qt conn x) {m : MyMessage} {rest : List MyMessage}
    (hinbox : d.inbox = m :: rest) :
    Inv qt conn x { d with window := d.window.receive qt m, inbox := rest } := by
  have hshown : shown qt { d with window := d.window.receive qt m, inbox := rest } =
      d.shown qt := by
    rw [shown, shown, hinbox, Window.View.afterAll_cons, ← Window.view_receive]
  refine ⟨{ h.kept with label := ?_, enabled := ?_ }, ?_⟩
  · rw [Window.view_receive]
    exact h.kept.label.after _
  · rw [hshown]
    exact h.kept.enabled
  · cases h.phase with
    | inl hs => exact Or.inl (hs.counted hs.requests id rfl (.of_eq hshown))
    | inr hj =>
      obtain ⟨before, last, after, hj⟩ := hj
      have hrest : ∀ a ∈ rest, ¬Moved a := fun a ha =>
        hj.inbox a (hinbox ▸ List.mem_cons_of_mem m ha)
      exact Or.inr ⟨before, last, after,
        { hj with asked := by rw [hshown]; exact hj.asked, inbox := hrest }⟩

/-- A click that does not move the window. -/
theorem Inv.request (h : d.Inv qt conn x) {w : Window} {msgs : List MyMessage}
    (hview : w.view = d.window.view)
    (hmsgs : ∀ m ∈ msgs, m.type ≠ .joinRoomReq ∧ m.type ≠ .loginReq) :
    Inv qt conn x { d with window := w, requests := d.requests ++ msgs } := by
  have hshown : shown qt { d with window := w, requests := d.requests ++ msgs } =
      d.shown qt := by
    rw [shown, shown, hview]
  refine ⟨{ h.kept with requests := ?_, label := ?_, enabled := ?_ }, ?_⟩
  · exact List.forall_mem_append.mpr ⟨h.kept.requests, fun m hm => (hmsgs m hm).2⟩
  · rw [hview]
    exact h.kept.label
  · rw [hshown]
    exact h.kept.enabled
  · cases h.phase with
    | inl hs =>
      have hrequests : ∀ m ∈ d.requests ++ msgs, m.type ≠ .joinRoomReq :=
        List.forall_mem_append.mpr ⟨hs.requests, fun m hm => (hmsgs m hm).1⟩
      exact Or.inl (hs.counted hrequests id rfl (.of_eq hshown))
    | inr hj =>
      obtain ⟨before, last, after, hj⟩ := hj
      refine Or.inr ⟨before, last, after ++ msgs,
        { hj with requests := ?_, asked := ?_, after := ?_ }⟩
      · change d.requests ++ msgs = _
        rw [hj.requests, List.append_assoc, List.cons_append]
      · rw [hshown]
        exact hj.asked
      · exact List.forall_mem_append.mpr ⟨hj.after, fun m hm => (hmsgs m hm).1⟩

/-- A join that does not overtake. -/
theorem Inv.join (h : d.Inv qt conn x) {w : Window} {s : QString} {roomId id : UInt32}
    (hview : w.view = { d.window.view with currentRoomId := roomId })
    (hread : qt.toUInt s = some roomId) (hrequests : ∀ m ∈ d.requests, ¬Moves m)
    (hinbox : ∀ m ∈ d.inbox, ¬Moved m) :
    Inv qt conn x { d with
      window := w, requests := d.requests ++ [⟨.joinRoomReq, id, s.toUtf8⟩] } := by
  refine ⟨{ h.kept with requests := ?_, label := ?_, enabled := ?_ }, Or.inr
    ⟨d.requests, ⟨.joinRoomReq, id, s.toUtf8⟩, [], rfl, rfl, ⟨s, rfl, ?_⟩, hrequests, ?_, hinbox⟩⟩
  · refine List.forall_mem_append.mpr ⟨h.kept.requests, fun m hm => ?_⟩
    rw [List.mem_singleton.mp hm]
    exact fun hlogin => MyType.noConfusion hlogin
  · rw [hview]
    exact h.kept.label
  · intro hroom
    refine (Window.View.enabled_afterAll_congr ?_ d.inbox).trans (h.kept.enabled hroom)
    rw [hview]
  -- what is still to be read does not move the window away
  · rw [shown, Window.View.currentRoomId_afterAll hinbox, hview]
    exact hread
  · exact fun m hm => absurd hm List.not_mem_nil

/-! ### Operations of the service -/

/-- A push is no answer. -/
theorem not_moved_of_push {m : MyMessage}
    (h : m.type = .memberCountUpdate ∨ m.type = .broadcastMsg) : ¬Moved m := by
  unfold Moved
  cases h with
  | inl h => simp [h]
  | inr h => simp [h]

theorem Inv.other (h : d.Inv qt conn x) {op : Op} (hne : op.fd ≠ conn.fd) :
    (d.serve conn op).Inv qt conn x := by
  obtain ⟨pushes, hinbox, hpush⟩ := d.inbox_serve_other hne
  have htables : (d.serve conn op).service.toTables =
      d.service.toTables.after (d.service.change op) := d.service.apply_toTables op
  obtain ⟨hlookup, hsession⟩ := Tables.session_after_of_ne h.kept.consistent h.kept.session hne
    (d.service.change_at op)
  have hroom : (d.serve conn op).room x = d.room x := by
    rw [room, room, htables, hsession]
  have hshown : (d.serve conn op).shown qt = (d.shown qt).afterAll qt pushes := by
    rw [shown, hinbox, Window.View.afterAll_append]
    rfl
  have hcounted : Window.View.Counted (d.shown qt) ((d.serve conn op).shown qt) := by
    rw [hshown]
    exact Window.View.counted_afterAll hpush
  refine ⟨⟨(d.service.apply_effect op).consistent h.kept.consistent, ?_, h.kept.requests,
    h.kept.label, ?_⟩, ?_⟩
  · rw [htables]
    exact hlookup
  · rw [hroom, hcounted.enabled]
    exact h.kept.enabled
  · cases h.phase with
    | inl hs => exact Or.inl (hs.counted hs.requests id hroom hcounted)
    | inr hj =>
      obtain ⟨before, last, after, hj⟩ := hj
      refine Or.inr ⟨before, last, after, hj.requests, hj.type, ?_, hj.before, hj.after, ?_⟩
      · rw [hcounted.current]
        exact hj.asked
      · rw [hinbox]
        exact List.forall_mem_append.mpr ⟨hj.inbox, fun a ha => not_moved_of_push (hpush a ha)⟩

/-! ### The oldest request -/

/-- `d'` comes from `d` when a worker has handled the oldest request: it has made the change `c`,
and the answer `m` is behind what was pushed meanwhile. -/
structure Handled (d d' : Desk) (msg : MyMessage) (rest pushes : List MyMessage) (m : MyMessage)
    (c : Change) : Prop where
  head : d.requests = msg :: rest
  requests : d'.requests = rest
  inbox : d'.inbox = d.inbox ++ (pushes ++ [m])
  pushed : ∀ a ∈ pushes, a.type = .memberCountUpdate ∨ a.type = .broadcastMsg
  answer : d.service.toTables.Answer msg c m
  tables : d'.service.toTables = d.service.toTables.after c
  consistent : d.service.toTables.Consistent → d'.service.toTables.Consistent
  window : d'.window = d.window
  refused : d'.refused = refusedAfter d.refused msg c

theorem exists_handled (d : Desk) (conn : Conn) (env : Env) {msg : MyMessage}
    {rest : List MyMessage} (hrequests : d.requests = msg :: rest) :
    ∃ pushes m, Handled d { d.serve conn (.message env conn msg) with
      requests := rest
      refused := refusedAfter d.refused msg (d.service.change (.message env conn msg)) }
      msg rest pushes m (d.service.change (.message env conn msg)) := by
  obtain ⟨pushes, m, hinbox, hpush, hanswer⟩ := d.inbox_serve_own env conn msg
  exact ⟨pushes, m, hrequests, rfl, hinbox, hpush, hanswer, d.service.apply_toTables _,
    (d.service.apply_effect (.message env conn msg)).consistent, rfl, rfl⟩

section

variable {d' : Desk} {msg m : MyMessage} {rest pushes : List MyMessage} {c : Change}

theorem Handled.mem (hh : Handled d d' msg rest pushes m c) : msg ∈ d.requests := by
  rw [hh.head]
  exact List.mem_cons_self ..

theorem Handled.subset (hh : Handled d d' msg rest pushes m c) : d'.requests ⊆ d.requests := by
  rw [hh.requests, hh.head]
  exact List.subset_cons_self msg rest

theorem Handled.counted (hh : Handled d d' msg rest pushes m c) (qt : QtText) :
    Window.View.Counted (d.shown qt) ((d.shown qt).afterAll qt pushes) :=
  Window.View.counted_afterAll hh.pushed

/-- The window will show what the answer says. -/
theorem Handled.shown (hh : Handled d d' msg rest pushes m c) (qt : QtText) : d'.shown qt =
    ((d.shown qt).afterAll qt pushes).after (Window.effectOf d.service.toTables c) := by
  rw [Desk.shown, hh.inbox, hh.window, Window.View.afterAll_append, Window.View.afterAll_append,
    Window.View.afterAll_cons, Window.View.afterAll_nil, Window.effect_answer hh.answer]
  rfl

theorem Handled.room (hh : Handled d d' msg rest pushes m c) (x : SessionRef) :
    d'.room x = ((d.service.toTables.after c).sessionAt x).roomId := by
  rw [Desk.room, hh.tables]

theorem Handled.kept (hh : Handled d d' msg rest pushes m c) (h : d.Inv qt conn x)
    (hsessions : (d.service.toTables.after c).sessions = d.service.toTables.sessions)
    (henabled : d'.room x ≠ 0 → (d'.shown qt).enabled = (true, true, true)) :
    d'.Kept qt conn x := by
  refine ⟨hh.consistent h.kept.consistent, ?_, fun a ha => h.kept.requests a (hh.subset ha), ?_,
    henabled⟩
  · rw [hh.tables, hsessions]
    exact h.kept.session
  · rw [hh.window]
    exact h.kept.label

/-- When the oldest request moves the window, no join is on its way. -/
theorem Handled.settled_of_moves (hh : Handled d d' msg rest pushes m c) (h : d.Inv qt conn x)
    (hmoves : Moves msg) : d.Settled qt x := by
  cases h.phase with
  | inl hs => exact hs
  | inr hj =>
    obtain ⟨before, last, after, hj⟩ := hj
    have hlist := hh.head.symm.trans hj.requests
    cases before with
    | nil =>
      obtain ⟨rfl, -⟩ := List.cons.inj hlist
      exact absurd hmoves (by simp [Moves, hj.type])
    | cons b bs =>
      obtain ⟨rfl, -⟩ := List.cons.inj hlist
      exact absurd hmoves (hj.before msg (List.mem_cons_self ..))

/-- An answer that keeps the window where it is leaves the last join on its way, if it is not
the one that has been answered. -/
theorem Handled.phase_of_stays (hh : Handled d d' msg rest pushes m c) (h : d.Inv qt conn x)
    (hanswer : ¬Moves msg → ¬Moved m)
    (hcurrent : (d'.shown qt).currentRoomId = (d.shown qt).currentRoomId)
    (hsettled : d.Settled qt x → d'.Settled qt x)
    (hlast : (∃ s, msg.payload = QString.toUtf8 s ∧
      qt.toUInt s = some (d.shown qt).currentRoomId) → msg.type = .joinRoomReq →
      (∀ a ∈ d'.requests, a.type ≠ .joinRoomReq) → d'.Settled qt x) :
    d'.Settled qt x ∨ ∃ before last after, d'.Joining qt before last after := by
  cases h.phase with
  | inl hs => exact Or.inl (hsettled hs)
  | inr hj =>
    obtain ⟨before, last, after, hj⟩ := hj
    have hlist := hh.head.symm.trans hj.requests
    cases before with
    | nil =>
      obtain ⟨rfl, hrest⟩ := List.cons.inj hlist
      exact Or.inl (hlast hj.asked hj.type (hh.requests.trans hrest ▸ hj.after))
    | cons b bs =>
      obtain ⟨rfl, hrest⟩ := List.cons.inj hlist
      have hstays : ¬Moves msg := hj.before msg (List.mem_cons_self ..)
      refine Or.inr ⟨bs, last, after, hh.requests.trans hrest, hj.type, ?_,
        fun a ha => hj.before a (List.mem_cons_of_mem msg ha), hj.after, ?_⟩
      · rw [hcurrent]
        exact hj.asked
      · rw [hh.inbox]
        intro a ha
        rw [List.mem_append, List.mem_append, List.mem_singleton] at ha
        obtain ha | ha | rfl := ha
        · exact hj.inbox a ha
        · exact not_moved_of_push (hh.pushed a ha)
        · exact hanswer hstays

/-- A request that changes nothing for the session; a join is refused then. -/
theorem Inv.unchanged (h : d.Inv qt conn x) (hh : Handled d d' msg rest pushes m c)
    (hc : c = .none ∨ c = .draw) : d'.Inv qt conn x := by
  have hsame : (d.service.toTables.after c).sessions = d.service.toTables.sessions ∧
      d'.room x = d.room x ∧ Window.effectOf d.service.toTables c = .none ∧
      d'.refused = (d.refused || decide (msg.type = .joinRoomReq)) ∧ MyMessage.Plain msg m := by
    obtain rfl | rfl := hc
    · exact ⟨rfl, hh.room x, rfl, hh.refused, hh.answer⟩
    · exact ⟨rfl, hh.room x, rfl, hh.refused, hh.answer⟩
  obtain ⟨hsessions, hroom, heffect, hrefused, hplain⟩ := hsame
  have hcounted : Window.View.Counted (d.shown qt) (d'.shown qt) := by
    rw [hh.shown, heffect]
    exact hh.counted qt
  refine ⟨hh.kept h hsessions ?_, hh.phase_of_stays h ?_ hcounted.current ?_ ?_⟩
  · rw [hroom, hcounted.enabled]
    exact h.kept.enabled
  · intro hmoves hmoved
    obtain hp | hp | hp | hp | ⟨hp, -, -⟩ := hplain
    · simp [Moved, hp] at hmoved
    · simp [Moved, hp] at hmoved
    · simp [Moved, hp] at hmoved
    · simp [Moved, hp] at hmoved
    · exact hmoves (Or.inl hp)
  · intro hs
    refine hs.counted (fun a ha => hs.requests a (hh.subset ha)) (fun hd => ?_) hroom hcounted
    rw [hrefused, Bool.or_eq_false_iff] at hd
    exact hd.1
  · intro _ hjoin hafter
    have hyes : d'.refused = true := by simp [hrefused, hjoin]
    exact ⟨hafter, fun hd => absurd (hd.symm.trans hyes) Bool.false_ne_true,
      fun hd => absurd (hd.symm.trans hyes) Bool.false_ne_true⟩

/-- The session enters the room that it has created. -/
theorem Inv.created (h : d.Inv qt conn x) {name : Bytes}
    (hh : Handled d d' msg rest pushes m (.create x name)) (htype : msg.type = .createRoomReq) :
    d'.Inv qt conn x := by
  have hs := hh.settled_of_moves h (Or.inl htype)
  have hroom := hh.room x
  have hshown := hh.shown qt
  rw [Tables.roomId_after_create] at hroom
  refine ⟨hh.kept h rfl fun _ => ?_, Or.inl ⟨fun a ha => hs.requests a (hh.subset ha),
    fun _ => ?_, fun _ => ?_⟩⟩
  · rw [hshown]
    rfl
  · rw [hshown, hroom]
    rfl
  · rw [hshown, hroom]
    rfl

/-- It joins the room that the window waits in, or that of an earlier join. -/
theorem Inv.joined (h : d.Inv qt conn x) {n : UInt64} {ρ : RoomRef}
    (hh : Handled d d' msg rest pushes m (.join x n.toUInt32 ρ))
    (htype : msg.type = .joinRoomReq) (hn : stoul msg.payload = some n) : d'.Inv qt conn x := by
  have hroom := hh.room x
  have hshown := hh.shown qt
  have hcurrent : (d'.shown qt).currentRoomId = (d.shown qt).currentRoomId := by
    rw [hshown]
    exact (hh.counted qt).current
  obtain ⟨k, hk⟩ := hh.answer
  rw [Tables.roomId_after_join] at hroom
  refine ⟨hh.kept h (by simp [Tables.after, Tables.join]) fun _ => ?_,
    hh.phase_of_stays h ?_ hcurrent ?_ ?_⟩
  · rw [hshown]
    rfl
  · intro _ hmoved
    rw [hk] at hmoved
    simp [Moved] at hmoved
  · exact fun hs => absurd htype (hs.requests msg hh.mem)
  -- the last join: both sides have read the same number
  · rintro ⟨s, hpayload, hread⟩ - hafter
    rw [hpayload] at hn
    have hsame : n.toUInt32 = (d.shown qt).currentRoomId := qt.stoul_toUtf8 s _ _ hread hn
    refine ⟨hafter, fun _ => ?_, fun _ => ?_⟩
    · rw [hcurrent, hroom, hsame]
    · rw [hroom, hsame, ← hcurrent, hshown]
      rfl

theorem Inv.left (h : d.Inv qt conn x) (hh : Handled d d' msg rest pushes m (.leave x))
    (htype : msg.type = .leaveRoomReq) : d'.Inv qt conn x := by
  have hs := hh.settled_of_moves h (Or.inr htype)
  have hroom := hh.room x
  have hshown := hh.shown qt
  rw [Tables.roomId_after_leave] at hroom
  refine ⟨hh.kept h (by simp [Tables.after, Tables.leave]) fun hne => absurd hroom hne,
    Or.inl ⟨fun a ha => hs.requests a (hh.subset ha), fun _ => ?_, fun _ => ?_⟩⟩
  · rw [hshown, hroom]
    rfl
  · rw [hshown, hroom]
    rfl

end

/-- The service handles the oldest request. -/
theorem Inv.handle (h : d.Inv qt conn x) (env : Env) {msg : MyMessage} {rest : List MyMessage}
    (hrequests : d.requests = msg :: rest) :
    Inv qt conn x { d.serve conn (.message env conn msg) with
      requests := rest
      refused := refusedAfter d.refused msg (d.service.change (.message env conn msg)) } := by
  obtain ⟨pushes, m, hh⟩ := d.exists_handled conn env hrequests
  have hlogin : msg.type ≠ .loginReq := h.kept.requests msg hh.mem
  obtain hc | ⟨htype, name, hc⟩ | ⟨htype, n, ρ, hn, hc⟩ | ⟨htype, hc⟩ :=
    d.service.change_cases env h.kept.session hlogin
  · exact h.unchanged hh hc
  · rw [hc] at hh ⊢
    exact h.created hh htype
  · rw [hc] at hh ⊢
    exact h.joined hh htype hn
  · rw [hc] at hh ⊢
    exact h.left hh htype

theorem Inv.step {a : Act} {d' : Desk} (h : d.Inv qt conn x) (hcalm : d.Calm a)
    (hstep : d.step qt conn a = some d') : d'.Inv qt conn x := by
  cases a with
  | click c =>
    have hd : d' = { d with
        window := (d.window.click qt c).1
        requests := d.requests ++ (d.window.click qt c).2.toList } := (Option.some.inj hstep).symm
    rw [hd]
    obtain ⟨hview, hjoin⟩ | ⟨s, roomId, rfl, hread, hview, hmsg⟩ := Window.view_click qt d.window c
    · refine h.request hview fun m hm => ?_
      have hm' : m ∈ (d.window.click qt c).2 := Option.mem_toList.mp hm
      exact ⟨hjoin m hm', Window.type_of_click hm'⟩
    · rw [hmsg]
      exact h.join hview hread hcalm.1 hcalm.2
  | handle env =>
    unfold Desk.step at hstep
    cases hrequests : d.requests with
    | nil => simp [hrequests] at hstep
    | cons msg rest =>
      simp only [hrequests] at hstep
      obtain rfl := Option.some.inj hstep
      exact h.handle env hrequests
  | other op =>
    unfold Desk.step at hstep
    dsimp only at hstep
    split_ifs at hstep with hfd
    obtain rfl := Option.some.inj hstep
    exact h.other hfd
  | read =>
    unfold Desk.step at hstep
    cases hinbox : d.inbox with
    | nil => simp [hinbox] at hstep
    | cons m rest =>
      simp only [hinbox] at hstep
      obtain rfl := Option.some.inj hstep
      exact h.read hinbox

theorem Inv.opened {first : UInt32} {ops : List Op} {s : Service}
    (hrun : run Service.step (.init first) ops = some s)
    (hx : s.sessions.lookup conn.fd = some x) (hroom : (s.sessionAt x).roomId = 0) :
    (Desk.opened s).Inv qt conn x := by
  refine ⟨⟨Service.consistent_run hrun, hx, fun m hm => absurd hm List.not_mem_nil, fun _ => rfl,
    fun hne => absurd hroom hne⟩, Or.inl ⟨fun m hm => absurd hm List.not_mem_nil, fun _ => ?_,
    fun _ => ?_⟩⟩
  · exact hroom.symm
  · exact hroom.symm

/-! ## §5 Agreement -/

/-- In every calm run of a window, the service and its other users: once no request for a room is
on its way and the window has read everything, the user can write and leave if his session is in
a room, a label without a room has all three widgets off, and unless the last join was refused
the window shows the room of the session. -/
theorem window_agrees {first : UInt32} {ops : List Op} {s : Service} {acts : List Act}
    (hs : run Service.step (.init first) ops = some s)
    (hx : s.sessions.lookup conn.fd = some x) (hroom : (s.sessionAt x).roomId = 0)
    (hrun : run (step qt conn) (opened s) acts = some d)
    (hcalm : Meets (step qt conn) Calm (opened s) acts) (hquiet : d.Quiet) :
    d.service.sessions.lookup conn.fd = some x ∧
      ((d.service.sessionAt x).roomId ≠ 0 → d.window.view.enabled = (true, true, true)) ∧
      (d.window.roomLabel = none → d.window.view.enabled = (false, false, false)) ∧
      (d.refused = false → d.window.Shows (d.service.sessionAt x).roomId) := by
  have hinv : d.Inv qt conn x := run_invariant_of_meets
    (P := fun d : Desk => d.Inv qt conn x) (fun _ _ _ h hG hstep => h.step hG hstep)
    (Inv.opened hs hx hroom) hcalm hrun
  have hshown : d.shown qt = d.window.view := by
    rw [shown, hquiet.inbox, Window.View.afterAll_nil]
  have henabled := hinv.kept.enabled
  rw [hshown] at henabled
  refine ⟨hinv.kept.session, henabled, fun hnone => hinv.kept.label ?_, fun hrefused => ?_⟩
  · rw [Window.view_label, hnone, Option.map_none]
  · cases hinv.phase with
    | inl hsettled =>
      have hcurrent := hsettled.current hrefused
      have hlabel := hsettled.label hrefused
      rw [hshown] at hcurrent hlabel
      exact ⟨hcurrent, hlabel⟩
    | inr hj =>
      obtain ⟨before, last, after, hj⟩ := hj
      have hmem : last ∈ d.requests := by
        rw [hj.requests]
        exact List.mem_append_right before (List.mem_cons_self ..)
      exact absurd hj.type (hquiet.requests last hmem).2

/-! ### Two visits to a room -/

instance : DecidablePred Moves := fun _ => inferInstanceAs (Decidable (_ ∨ _))

instance : DecidablePred Moved := fun _ => inferInstanceAs (Decidable (_ ∨ _))

instance (d : Desk) : (a : Act) → Decidable (d.Calm a)
  | .click (.joinRoom _) => inferInstanceAs (Decidable (_ ∧ _))
  | .click (.createRoom _) => isTrue trivial
  | .click .leaveRoom => isTrue trivial
  | .click (.sendMessage _) => isTrue trivial
  | .click .heartbeat => isTrue trivial
  | .handle _ => isTrue trivial
  | .other _ => isTrue trivial
  | .read => isTrue trivial

instance (d : Desk) : Decidable d.Quiet :=
  decidable_of_iff ((∀ m ∈ d.requests, ¬Moves m ∧ m.type ≠ .joinRoomReq) ∧ d.inbox = [])
    ⟨fun h => ⟨h.1, h.2⟩, fun h => ⟨h.1, h.2⟩⟩

/-- Ann and Bob log in. -/
def twoLogins : List Op :=
  [Service.request ⟨0, 5⟩ .loginReq "ann|pw", Service.request ⟨1, 6⟩ .loginReq "bob|pw"]

/-- MySQL and Redis work. -/
def allWorks : Env := ⟨0, .noConnection, .executed (), .reply⟩

/-- Ann creates a room and Bob joins it. -/
def annAndBob : List Act :=
  [.click (.createRoom ['r']), .handle allWorks, .read,
    .other (Service.request ⟨1, 6⟩ .joinRoomReq "1"), .read]

/-- Ann leaves the room, and comes back once the window has shown that. -/
def calmReturn : List Act :=
  annAndBob ++ [.click .leaveRoom, .handle allWorks, .read, .click (.joinRoom ['1']),
    .handle allWorks, .read, .read]

theorem window_agrees_calmReturn : ∃ s d, run Service.step (.init 1) twoLogins = some s ∧
    run (step asciiQt ⟨0, 5⟩) (opened s) calmReturn = some d ∧
    (d.service.sessionAt 0).roomId = 1 ∧ d.window.Shows 1 := by
  have hboth : ((run Service.step (.init 1) twoLogins).any fun s =>
      decide (s.sessions.lookup 5 = some 0 ∧ (s.sessionAt 0).roomId = 0 ∧
        Meets (step asciiQt ⟨0, 5⟩) Calm (opened s) calmReturn) &&
      (run (step asciiQt ⟨0, 5⟩) (opened s) calmReturn).any fun d =>
        decide (d.Quiet ∧ d.refused = false ∧ (d.service.sessionAt 0).roomId = 1)) = true := by
    decide +kernel
  obtain ⟨s, hs, hstart⟩ := exists_of_run_any hboth
  rw [Bool.and_eq_true] at hstart
  obtain ⟨hx, hroom, hcalm⟩ := of_decide_eq_true hstart.1
  obtain ⟨d, hd, hend⟩ := exists_of_run_any hstart.2
  obtain ⟨hquiet, hrefused, hplace⟩ := of_decide_eq_true hend
  have hagrees := (window_agrees hs hx hroom hd hcalm hquiet).2.2.2 hrefused
  rw [hplace] at hagrees
  exact ⟨s, d, hs, hd, hplace, hagrees⟩

/-- Ann joins again before the answer to her leave has come. -/
def hastyReturn : List Act :=
  annAndBob ++ [.click .leaveRoom, .click (.joinRoom ['1']), .handle allWorks, .handle allWorks,
    .read, .read, .read]

/-- She is in the room again, and her window neither writes to it nor leaves it. -/
theorem hasty_join_disagrees : ∃ s d, run Service.step (.init 1) twoLogins = some s ∧
    run (step asciiQt ⟨0, 5⟩) (opened s) hastyReturn = some d ∧ d.Quiet ∧ d.refused = false ∧
    (d.service.sessionAt 0).roomId = 1 ∧ d.window.currentRoomId = 0 ∧
    (d.window.click asciiQt (.sendMessage ['h', 'i'])).2 = none ∧
    (d.window.click asciiQt .leaveRoom).2 = none := by
  have hboth : ((run Service.step (.init 1) twoLogins).any fun s =>
      (run (step asciiQt ⟨0, 5⟩) (opened s) hastyReturn).any fun d =>
        decide (d.Quiet ∧ d.refused = false ∧ (d.service.sessionAt 0).roomId = 1 ∧
          d.window.currentRoomId = 0 ∧
          (d.window.click asciiQt (.sendMessage ['h', 'i'])).2 = none ∧
          (d.window.click asciiQt .leaveRoom).2 = none)) = true := by
    decide +kernel
  obtain ⟨s, hs, hstart⟩ := exists_of_run_any hboth
  obtain ⟨d, hd, hend⟩ := exists_of_run_any hstart
  exact ⟨s, d, hs, hd, of_decide_eq_true hend⟩

end Desk

end EchoNet.Client
