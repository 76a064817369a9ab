import EchoNet.Http.Request
import EchoNet.Lib.Scanner

/-!
# Chunking Independence of HTTP

The state machine of `HttpContext` is an instance of `EchoNet.Lib.Scanner`, and `parse` with the
`reset` that follows an `OK` refines its moves.  So the requests, the state, the half-built request
and the unread bytes depend on the stream only, as long as nothing in it is an error.

## Main results

- `HttpProtocol.parse_spec`: a call of `parse` makes the moves of the scanner;
- `readLoop_refines`: the parse loop of `Connection::read` drains the unread bytes;
- `requests_independent_of_chunks`.
-/

namespace EchoNet.Http

open EchoNet.Lib EchoNet.Net

/-! ## §1 The parser as a scanner -/

/-- The state that `parse` keeps between calls. -/
abbrev Progress := ParseState × HttpRequest

/-- The state after `reset`. -/
def fresh : Progress := (.requestLine, .empty)

/-- A turn of the loop; behind a complete request comes the `reset`. -/
def move (s : Progress) (view : Bytes) : Move Progress UInt8 HttpRequest :=
  if s.1 = .done then .emit s.2 fresh view
  else if view = [] then .incomplete
  else
    match turn s.1 s.2 view with
    | .consume n state request => .advance (state, request) (view.drop n)
    | .stop => .incomplete
    | .error _ => .invalid

theorem move_done (request : HttpRequest) (view : Bytes) :
    move (.done, request) view = .emit request fresh view := if_pos rfl

theorem move_nil {s : Progress} (h : s.1 ≠ .done) : move s [] = .incomplete := by
  rw [move, if_neg h, if_pos rfl]

theorem move_eq_turn {s : Progress} {view : Bytes} (h : s.1 ≠ .done) (hne : view ≠ []) :
    move s view =
      match turn s.1 s.2 view with
      | .consume n state request => .advance (state, request) (view.drop n)
      | .stop => .incomplete
      | .error _ => .invalid := by
  rw [move, if_neg h, if_neg hne]

theorem not_done_of_advance {s s' : Progress} {view rest : Bytes}
    (h : move s view = .advance s' rest) : s.1 ≠ .done := by
  intro hdone
  rw [move, if_pos hdone] at h
  cases h

theorem not_done_of_incomplete {s : Progress} {view : Bytes} (h : move s view = .incomplete) :
    s.1 ≠ .done := by
  intro hdone
  rw [move, if_pos hdone] at h
  cases h

/-- Where the scanner waits with bytes unread, the loop breaks. -/
theorem turn_of_incomplete {s : Progress} {view : Bytes} (h : move s view = .incomplete)
    (hne : view ≠ []) : turn s.1 s.2 view = .stop := by
  rw [move_eq_turn (not_done_of_incomplete h) hne] at h
  cases hturn : turn s.1 s.2 view with
  | consume n state request =>
    rw [hturn] at h
    cases h
  | stop => rfl
  | error request =>
    rw [hturn] at h
    cases h

/-- An advance consumes a piece. -/
theorem piece_of_advance {s s' : Progress} {view rest : Bytes}
    (h : move s view = .advance s' rest) :
    ∃ piece, view = piece ++ rest ∧ Piece s.1 s.2 piece s'.1 s'.2 := by
  have hdone := not_done_of_advance h
  by_cases hnil : view = []
  · subst hnil
    rw [move_nil hdone] at h
    cases h
  · rw [move_eq_turn hdone hnil] at h
    cases hturn : turn s.1 s.2 view with
    | consume n state request =>
      rw [hturn] at h
      cases h
      obtain ⟨piece, rest, rfl, rfl, hpiece⟩ := piece_of_turn hturn
      exact ⟨piece, by rw [List.drop_left], hpiece⟩
    | stop =>
      rw [hturn] at h
      cases h
    | error request =>
      rw [hturn] at h
      cases h

theorem Piece.not_done {state state' : ParseState} {request request' : HttpRequest} {piece : Bytes}
    (h : Piece state request piece state' request') : state ≠ .done := by
  cases h <;> exact ParseState.noConfusion

/-- A piece is consumed as soon as something is there. -/
theorem Piece.move_eq {state state' : ParseState} {request request' : HttpRequest} {piece : Bytes}
    (h : Piece state request piece state' request') {rest : Bytes} (hne : piece ++ rest ≠ []) :
    move (state, request) (piece ++ rest) = .advance (state', request') rest := by
  rw [move_eq_turn h.not_done hne]
  simp only [h.turn_eq rest, List.drop_left]

theorem emit_eq {s s' : Progress} {view rest : Bytes} {request : HttpRequest}
    (h : move s view = .emit request s' rest) :
    s = (.done, request) ∧ s' = fresh ∧ rest = view := by
  unfold move at h
  split_ifs at h with hdone hnil
  · cases h
    exact ⟨Prod.ext hdone rfl, rfl, rfl⟩
  · split at h <;> cases h

/-- `HttpContext` scans a stream of bytes. -/
def scanner : Scanner Progress UInt8 HttpRequest where
  move := move
  rank s view := 3 * view.length + s.1.weight
  advance_rank h := by
    obtain ⟨piece, rfl, hpiece⟩ := piece_of_advance h
    have hweight := hpiece.weight
    rw [List.length_append]
    omega
  emit_rank h := by
    obtain ⟨rfl, rfl, rfl⟩ := emit_eq h
    exact Nat.lt_succ_self _
  advance_append {s s' view rest} h more := by
    have hne : view ≠ [] := by
      rintro rfl
      rw [move_nil (not_done_of_advance h)] at h
      cases h
    obtain ⟨piece, rfl, hpiece⟩ := piece_of_advance h
    rw [List.append_assoc]
    refine hpiece.move_eq ?_
    rw [← List.append_assoc]
    exact fun hnil => hne (List.append_eq_nil_iff.mp hnil).1
  emit_append h more := by
    obtain ⟨rfl, rfl, rfl⟩ := emit_eq h
    exact move_done _ _
  invalid_append {s view} h more := by
    unfold move at h
    split_ifs at h with hdone hnil
    have hne : view ++ more ≠ [] := fun happend => hnil (List.append_eq_nil_iff.mp happend).1
    split at h
    next => cases h
    next => cases h
    next request hturn => rw [move_eq_turn hdone hne, turn_error_append hturn more]

/-! ## §2 A call of `parse` -/

/-- The loop makes the moves of the scanner up to the end of a request. -/
theorem scan_refines {data : Bytes} {consumed : Nat} (state : ParseState) (request : HttpRequest)
    (hle : consumed ≤ data.length) :
    ((scan data consumed state request).failed = true →
      scanner.drain (state, request) (data.drop consumed) = ([], none)) ∧
    ((scan data consumed state request).failed = false →
      scanner.drain (state, request) (data.drop consumed) =
        scanner.drain ((scan data consumed state request).state,
          (scan data consumed state request).request)
          (data.drop (scan data consumed state request).consumed) ∧
      ((scan data consumed state request).state ≠ .done →
        move ((scan data consumed state request).state, (scan data consumed state request).request)
          (data.drop (scan data consumed state request).consumed) = .incomplete)) := by
  fun_induction scan data consumed state request with
  | case1 consumed state request hlt n state' request' hturn hconsume ih =>
    have hrest := hconsume.1
    rw [List.length_drop] at hrest
    obtain ⟨piece, rest, hview, hlength, hpiece⟩ := piece_of_turn hturn
    have hne : piece ++ rest ≠ [] := by
      rw [← hview, List.ne_nil_iff_length_pos, List.length_drop]
      omega
    have hmove : scanner.move (state, request) (data.drop consumed) =
        .advance (state', request') (data.drop (consumed + n)) := by
      rw [← List.drop_drop, hview, ← hlength, List.drop_left]
      exact hpiece.move_eq hne
    rw [Scanner.drain_advance hmove]
    exact ih (by omega)
  | case2 consumed state request hlt hturn =>
    refine ⟨fun h => absurd h Bool.false_ne_true, fun _ => ⟨rfl, fun hdone => ?_⟩⟩
    have hne : data.drop consumed ≠ [] := by
      rw [List.ne_nil_iff_length_pos, List.length_drop]
      omega
    rw [move_eq_turn hdone hne]
    simp only [hturn]
  | case3 consumed state request hlt request' hturn =>
    refine ⟨fun _ => ?_, fun h => by cases h⟩
    have hne : data.drop consumed ≠ [] := by
      rw [List.ne_nil_iff_length_pos, List.length_drop]
      omega
    have hdone : state ≠ .done := by
      rintro rfl
      cases hturn
    refine Scanner.drain_invalid ((move_eq_turn hdone hne).trans ?_)
    simp only [hturn]
  | case4 consumed state request hend =>
    refine ⟨fun h => absurd h Bool.false_ne_true, fun _ => ⟨rfl, fun hdone => ?_⟩⟩
    rw [List.drop_eq_nil_of_le (Nat.le_of_not_lt hend)]
    exact move_nil hdone

/-- The loop comes closer to its end. -/
theorem scan_rank (data : Bytes) (consumed : Nat) (state : ParseState) (request : HttpRequest) :
    3 * (data.length - (scan data consumed state request).consumed) +
        (scan data consumed state request).state.weight ≤
      3 * (data.length - consumed) + state.weight := by
  fun_induction scan data consumed state request with
  | case1 consumed state request hlt n state' request' hturn hconsume ih =>
    have hrest := hconsume.1
    rw [List.length_drop] at hrest
    omega
  | case2 => exact le_refl _
  | case3 => exact le_refl _
  | case4 => exact le_refl _

/-- A call of `HttpContext::parse` is its loop, on the unread bytes, with the consumed ones taken
away at the end. -/
theorem HttpContext.parse_cases (context : HttpContext) (buffer : Buffer) (request : HttpRequest) :
    (buffer.readable = [] ∧
      context.parse buffer request = (.needMore, ⟨context.parsestate, false⟩, buffer, request)) ∨
    ∃ out, out = scan buffer.readable 0 context.parsestate request ∧
      ((out.failed = true ∧
        context.parse buffer request = (.error, ⟨out.state, true⟩, buffer, out.request)) ∨
      (out.failed = false ∧ ∃ buffer', buffer'.readable = buffer.readable.drop out.consumed ∧
        context.parse buffer request =
          (if out.state = .done then .ok else .needMore, ⟨out.state, false⟩, buffer',
            out.request))) := by
  rw [← buffer.peek_getreadable]
  unfold HttpContext.parse
  dsimp only
  by_cases hempty : buffer.getreadable = 0
  · rw [if_pos hempty]
    exact Or.inl ⟨List.eq_nil_of_length_eq_zero (buffer.length_peek.trans hempty), rfl⟩
  · rw [if_neg hempty]
    refine Or.inr ⟨_, rfl, ?_⟩
    cases hfailed : (scan (buffer.peek buffer.getreadable) 0 context.parsestate request).failed with
    | true =>
      rw [if_pos rfl]
      exact Or.inl ⟨rfl, rfl⟩
    | false =>
      rw [if_neg Bool.false_ne_true]
      refine Or.inr ⟨rfl, _, ?_, rfl⟩
      split_ifs with hconsumed
      · rw [Buffer.readable_moveReadPtr, buffer.peek_getreadable]
      · rw [Nat.eq_zero_of_not_pos hconsumed, List.drop_zero, buffer.peek_getreadable]

namespace HttpProtocol

/-- What the scanner knows of a protocol. -/
def progress (p : HttpProtocol) : Progress := (p.httpcontext.parsestate, p.httprequest)

/-- The protocol in a state of the scanner, without an error. -/
def within (p : HttpProtocol) (s : Progress) : HttpProtocol :=
  { p with httpcontext := ⟨s.1, false⟩, httprequest := s.2 }

@[simp] theorem progress_within (p : HttpProtocol) (s : Progress) : (p.within s).progress = s := rfl

@[simp] theorem within_within (p : HttpProtocol) (s s' : Progress) :
    (p.within s).within s' = p.within s' := rfl

/-- What a call of `parse` can return. -/
inductive Parsed (p : HttpProtocol) (buffer : Buffer) :
    ParseResult × HttpProtocol × Buffer → Prop where
  | ok {request : HttpRequest} {buffer' : Buffer}
      (hdrain : scanner.drain p.progress buffer.readable =
        scanner.drain (.done, request) buffer'.readable) :
      Parsed p buffer (.ok, p.within (.done, request), buffer')
  | needMore {s : Progress} {buffer' : Buffer} (hs : s.1 ≠ .done)
      (hdrain : scanner.drain p.progress buffer.readable = ([], some (s, buffer'.readable))) :
      Parsed p buffer (.needMore, p.within s, buffer')
  -- the buffer is left as it was
  | error {context : HttpContext} {request : HttpRequest}
      (hdrain : scanner.drain p.progress buffer.readable = ([], none)) :
      Parsed p buffer (.error, ⟨context, request, badRequest p.errorResponse, true⟩, buffer)

/-- A call of `parse` makes the moves of the scanner. -/
theorem parse_spec {p : HttpProtocol} (hp : p.progress.1 ≠ .done) (buffer : Buffer) :
    Parsed p buffer (p.parse buffer) := by
  unfold parse
  rcases p.httpcontext.parse_cases buffer p.httprequest with
    ⟨hnil, hparse⟩ | ⟨out, hout, hparse⟩
  · rw [hparse]
    refine .needMore (s := p.progress) hp (Scanner.drain_incomplete ?_)
    rw [hnil]
    exact move_nil hp
  · have hscan := scan_refines p.httpcontext.parsestate p.httprequest
      (Nat.zero_le buffer.readable.length)
    rw [← hout, List.drop_zero] at hscan
    rcases hparse with ⟨hfailed, hparse⟩ | ⟨hfailed, buffer', hbuffer, hparse⟩
    · rw [hparse]
      exact .error (hscan.1 hfailed)
    · obtain ⟨hdrain, hstop⟩ := hscan.2 hfailed
      rw [hparse]
      by_cases hdone : out.state = .done
      · have hok : scanner.drain p.progress buffer.readable =
            scanner.drain (.done, out.request) buffer'.readable := by
          rw [hbuffer, ← hdone]
          exact hdrain
        rw [if_pos hdone, hdone]
        exact .ok hok
      · rw [if_neg hdone]
        refine .needMore (s := (out.state, out.request)) hdone ?_
        rw [hbuffer]
        exact hdrain.trans (Scanner.drain_incomplete (hstop hdone))

/-- Between an `OK` and the next call there is one request less to come. -/
theorem parse_ok_rank {p p' : HttpProtocol} {buffer buffer' : Buffer}
    (h : p.parse buffer = (.ok, p', buffer')) :
    3 * buffer'.getreadable < 3 * buffer.getreadable + p.httpcontext.parsestate.weight := by
  unfold parse at h
  rcases p.httpcontext.parse_cases buffer p.httprequest with
    ⟨-, hparse⟩ | ⟨out, hout, ⟨-, hparse⟩ | ⟨-, b, hb, hparse⟩⟩
  · rw [hparse] at h
    cases h
  · rw [hparse] at h
    cases h
  · have hrank := scan_rank buffer.readable 0 p.httpcontext.parsestate p.httprequest
    rw [← hout, buffer.length_readable] at hrank
    have hlength := congrArg List.length hb
    rw [List.length_drop, Buffer.length_readable, Buffer.length_readable] at hlength
    rw [hparse] at h
    by_cases hdone : out.state = .done
    · rw [if_pos hdone] at h
      cases h
      have hweight : ParseState.done.weight = 1 := rfl
      rw [hdone, hweight] at hrank
      omega
    · rw [if_neg hdone] at h
      cases h

end HttpProtocol

/-! ## §3 The parse loop of `Connection::read` -/

/-- What has become of a stream: the messages for the handlers, the responses to errors, whether
the connection was closed for want of one; the protocol and the buffer. -/
structure Delivery where
  messages : List HttpRequest
  responses : List HttpResponse
  closed : Bool
  protocol : HttpProtocol
  buffer : Buffer

/-- The parse loop of `Connection::read`. -/
def readLoop (p : HttpProtocol) (buffer : Buffer) : Delivery :=
  match h : p.parse buffer with
  | (.ok, p', buffer') =>
    have := HttpProtocol.parse_ok_rank h
    let rest := readLoop p'.reset buffer'
    { rest with messages := p'.getMessage :: rest.messages }
  | (.error, p', buffer') =>
    match p'.getErrorResponse with
    | some response => ⟨[], [response], false, p'.reset, buffer'⟩
    | none => ⟨[], [], true, p', buffer'⟩
  | (.needMore, p', buffer') => ⟨[], [], false, p', buffer'⟩
termination_by 3 * buffer.getreadable + p.httpcontext.parsestate.weight
decreasing_by
  have hweight : p'.reset.httpcontext.parsestate.weight = 0 := rfl
  omega

/-- No call has left a complete request or an error behind. -/
structure HttpProtocol.Ready (p : HttpProtocol) : Prop where
  progress : p.progress.1 ≠ .done
  isError : p.httpcontext.isError = false
  hasError : p.hasError = false

theorem HttpProtocol.Ready.within {p : HttpProtocol} (h : p.Ready) {s : Progress}
    (hs : s.1 ≠ .done) : (p.within s).Ready := ⟨hs, rfl, h.hasError⟩

theorem HttpProtocol.Ready.within_progress {p : HttpProtocol} (h : p.Ready) :
    p.within p.progress = p := by
  rcases p with ⟨⟨state, isError⟩, request, response, hasError⟩
  obtain rfl : isError = false := h.isError
  rfl

/-- After `reset` a protocol is ready. -/
theorem HttpProtocol.ready_reset (p : HttpProtocol) : p.reset.Ready :=
  ⟨ParseState.noConfusion, rfl, rfl⟩

/-- The loop drains the unread bytes; an error is answered once. -/
theorem readLoop_refines {p : HttpProtocol} (hp : p.Ready) (buffer : Buffer) :
    (readLoop p buffer).closed = false ∧
    (readLoop p buffer).messages = (scanner.drain p.progress buffer.readable).1 ∧
    match (scanner.drain p.progress buffer.readable).2 with
    | none => (readLoop p buffer).responses ≠ []
    | some (s, rest) =>
      (readLoop p buffer).responses = [] ∧ (readLoop p buffer).protocol = p.within s ∧
        (readLoop p buffer).buffer.readable = rest ∧ s.1 ≠ .done := by
  fun_induction readLoop p buffer with
  | case1 p buffer p' buffer' h hrank rest ih =>
    have hspec := HttpProtocol.parse_spec hp.progress buffer
    rw [h] at hspec
    cases hspec with
    | ok hdrain =>
      rename_i request
      obtain ⟨hclosed, hmessages, hend⟩ := ih (p.within (.done, request)).ready_reset
      have hemit : scanner.drain (.done, request) buffer'.readable =
          (request :: (scanner.drain fresh buffer'.readable).1,
            (scanner.drain fresh buffer'.readable).2) :=
        Scanner.drain_emit (move_done request buffer'.readable)
      -- `reset` puts the protocol back to the fresh state of the scanner
      have hreset : ∀ s, (p.within (.done, request)).reset.within s = p.within s := fun s => by
        simp [HttpProtocol.reset, HttpProtocol.within, hp.hasError]
      simp only [hreset] at hend
      rw [hdrain, hemit]
      exact ⟨hclosed, congrArg (request :: ·) hmessages, hend⟩
  | case2 p buffer p' buffer' h response hresponse =>
    have hspec := HttpProtocol.parse_spec hp.progress buffer
    rw [h] at hspec
    cases hspec with
    | error hdrain =>
      rw [hdrain]
      exact ⟨rfl, rfl, List.cons_ne_nil _ _⟩
  | case3 p buffer p' buffer' h hresponse =>
    have hspec := HttpProtocol.parse_spec hp.progress buffer
    rw [h] at hspec
    cases hspec with
    | error hdrain => cases hresponse
  | case4 p buffer p' buffer' h =>
    have hspec := HttpProtocol.parse_spec hp.progress buffer
    rw [h] at hspec
    cases hspec with
    | needMore hs hdrain =>
      rw [hdrain]
      exact ⟨rfl, rfl, rfl, rfl, rfl, hs⟩

/-! ## §4 Chunk by chunk -/

namespace Delivery

/-- A chunk arrives: it is appended and parsed, unless the connection is closed. -/
def receive (d : Delivery) (chunk : Bytes) : Delivery :=
  if d.closed then d
  else
    let more := readLoop d.protocol (d.buffer.receive chunk)
    { more with
      messages := d.messages ++ more.messages
      responses := d.responses ++ more.responses }

/-- The chunks of a stream, one after another. -/
def receiveAll (d : Delivery) (chunks : List Bytes) : Delivery := chunks.foldl receive d

/-- Before anything has arrived. -/
def start : Delivery := ⟨[], [], false, .create, Buffer.create⟩

/-- Where the scanner stands. -/
def residue (d : Delivery) : Progress × Bytes := (d.protocol.progress, d.buffer.readable)

/-- The connection is open and has not met an error; the parser is ready. -/
structure Sound (d : Delivery) : Prop where
  responses : d.responses = []
  closed : d.closed = false
  ready : d.protocol.Ready

theorem Sound.start : start.Sound := ⟨rfl, rfl, ParseState.noConfusion, rfl, rfl⟩

/-- A chunk feeds the scanner: to an error, or to where it waits for more. -/
theorem Sound.receive {d : Delivery} (hd : d.Sound) (chunk : Bytes) :
    (d.receive chunk).messages = d.messages ++ (scanner.feed (some d.residue) chunk).1 ∧
    match (scanner.feed (some d.residue) chunk).2 with
    | none => (d.receive chunk).responses ≠ []
    | some r => (d.receive chunk).Sound ∧ (d.receive chunk).residue = r ∧
      (d.receive chunk).protocol = d.protocol.within r.1 := by
  obtain ⟨hclosed, hmessages, hend⟩ := readLoop_refines hd.ready (d.buffer.receive chunk)
  rw [Buffer.readable_receive] at hmessages hend
  have hopen : ¬ d.closed = true := by simp [hd.closed]
  unfold Delivery.receive
  rw [if_neg hopen, hd.responses]
  refine ⟨congrArg (d.messages ++ ·) hmessages, ?_⟩
  dsimp only [Scanner.feed, residue]
  split at hend
  next hdrain =>
    rw [hdrain]
    exact hend
  next s rest hdrain =>
    obtain ⟨hnone, hprotocol, hbuffer, hs⟩ := hend
    rw [hdrain]
    refine ⟨⟨hnone, hclosed, ?_⟩, ?_, hprotocol⟩
    · exact hprotocol ▸ hd.ready.within hs
    · rw [hprotocol, hbuffer, HttpProtocol.progress_within]

/-- Chunks feed the scanner one by one. -/
theorem Sound.receiveAll {d : Delivery} (hd : d.Sound) {chunks : List Bytes}
    {msgs : List HttpRequest} {r : Progress × Bytes}
    (hfeed : scanner.feedAll (some d.residue) chunks = (msgs, some r)) :
    (d.receiveAll chunks).messages = d.messages ++ msgs ∧ (d.receiveAll chunks).Sound ∧
      (d.receiveAll chunks).residue = r ∧
      (d.receiveAll chunks).protocol = d.protocol.within r.1 := by
  induction chunks generalizing d msgs with
  | nil =>
    cases hfeed
    exact ⟨(List.append_nil _).symm, hd, rfl, hd.ready.within_progress.symm⟩
  | cons chunk chunks ih =>
    obtain ⟨hmessages, hend⟩ := hd.receive chunk
    rw [Scanner.feedAll] at hfeed
    cases hnext : (scanner.feed (some d.residue) chunk).2 with
    -- after an error the scanner would not be waiting at the end
    | none =>
      simp only [hnext, Scanner.feedAll_none, Prod.mk.injEq, reduceCtorEq, and_false] at hfeed
    | some next =>
      rw [hnext] at hend
      obtain ⟨hsound, hresidue, hprotocol⟩ := hend
      simp only [hnext, Prod.mk.injEq] at hfeed
      obtain ⟨hmsgs, hlast⟩ := hfeed
      rw [← hresidue] at hlast hmsgs
      obtain ⟨hmessages', hsound', hresidue', hprotocol'⟩ := ih hsound (Prod.ext rfl hlast)
      refine ⟨?_, hsound', hresidue', ?_⟩
      · rw [← hmsgs, ← List.append_assoc, ← hmessages]
        exact hmessages'
      · rw [hprotocol, HttpProtocol.within_within] at hprotocol'
        exact hprotocol'

/-- However a stream without an error is cut, its chunks drain it. -/
theorem receiveAll_start {chunks : List Bytes} {msgs : List HttpRequest} {r : Progress × Bytes}
    (hdrain : scanner.drain fresh chunks.flatten = (msgs, some r)) :
    (start.receiveAll chunks).messages = msgs ∧ (start.receiveAll chunks).Sound ∧
      (start.receiveAll chunks).residue = r ∧
      (start.receiveAll chunks).protocol = HttpProtocol.create.within r.1 := by
  have hne : fresh.1 ≠ .done := ParseState.noConfusion
  have hwaits : scanner.move fresh [] = .incomplete := move_nil hne
  have hfeed := (Scanner.feedAll_eq_drain hwaits chunks).trans hdrain
  exact Sound.start.receiveAll hfeed

end Delivery

/-- **Chunking independence**: if the loop meets no error in a stream that comes in one piece, then
however the stream is cut it meets none, and the requests, the protocol with its state and its
half-built request, and the unread bytes are the same. -/
theorem requests_independent_of_chunks {stream : Bytes}
    (hok : (Delivery.start.receiveAll [stream]).responses = []) {xs ys : List Bytes}
    (hxs : xs.flatten = stream) (hys : ys.flatten = stream) :
    (Delivery.start.receiveAll xs).messages = (Delivery.start.receiveAll ys).messages ∧
    (Delivery.start.receiveAll xs).protocol = (Delivery.start.receiveAll ys).protocol ∧
    (Delivery.start.receiveAll xs).buffer.readable =
      (Delivery.start.receiveAll ys).buffer.readable ∧
    (Delivery.start.receiveAll xs).responses = [] ∧
      (Delivery.start.receiveAll xs).closed = false := by
  obtain ⟨-, hend⟩ := Delivery.Sound.start.receive stream
  -- the stream in one piece leaves the scanner waiting
  obtain ⟨r, hr⟩ : ∃ r, (scanner.drain fresh stream).2 = some r := by
    cases hdrain : (scanner.drain fresh stream).2 with
    | none =>
      have hfeed : (scanner.feed (some Delivery.start.residue) stream).2 = none := hdrain
      rw [hfeed] at hend
      exact absurd hok hend
    | some r => exact ⟨r, rfl⟩
  have hdrain : scanner.drain fresh stream = ((scanner.drain fresh stream).1, some r) :=
    Prod.ext rfl hr
  obtain ⟨hmessages, hsound, hresidue, hprotocol⟩ :=
    Delivery.receiveAll_start ((congrArg (scanner.drain fresh) hxs).trans hdrain)
  obtain ⟨hmessages', -, hresidue', hprotocol'⟩ :=
    Delivery.receiveAll_start ((congrArg (scanner.drain fresh) hys).trans hdrain)
  have hunread := congrArg Prod.snd (hresidue.trans hresidue'.symm)
  exact ⟨hmessages.trans hmessages'.symm, hprotocol.trans hprotocol'.symm, hunread,
    hsound.responses, hsound.closed⟩

/-- Cuts between carriage return and line feed and in the body, and behind the first request. -/
theorem requests_independent_of_chunks_insideCrlf :
    let xs := [ascii "POST / HTTP/1.1\r", ascii "\nContent-Length: 2\r\n\r\nh", ascii "iGET"]
    let ys := [ascii "POST / HTTP/1.1\r\nContent-Length: 2\r\n\r\nhi", ascii "GET"]
    (Delivery.start.receiveAll xs).messages = (Delivery.start.receiveAll ys).messages ∧
    (Delivery.start.receiveAll xs).protocol = (Delivery.start.receiveAll ys).protocol ∧
    (Delivery.start.receiveAll xs).buffer.readable =
      (Delivery.start.receiveAll ys).buffer.readable ∧
    (Delivery.start.receiveAll xs).responses = [] ∧
      (Delivery.start.receiveAll xs).closed = false :=
  @requests_independent_of_chunks (ascii "POST / HTTP/1.1\r\nContent-Length: 2\r\n\r\nhiGET")
    (by decide +kernel) _ _ (by decide +kernel) (by decide +kernel)

end EchoNet.Http
