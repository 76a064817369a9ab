import EchoNet.Http.Grammar

/-!
# What Is Left After an Error

The error exits of `HttpContext::parse` come before the read pointer is moved.  So after the
`400` and the `reset` the parser meets the rejected bytes again, now as a request line.  A
well-formed request behind them is returned without another error only if they happen to be
harmless: accepted requests, and blanks.

## Main results

- `readLoop_error`: the loop answers an error once and leaves the buffer as it was;
- `recovery_iff`, `recovery_badLine`.
-/

namespace EchoNet.Http

open EchoNet.Lib EchoNet.Net

/-! ## §1 After the response -/

/-- An error leaves the buffer as it was, and there is a response to it. -/
theorem parse_error {p : HttpProtocol} {buffer : Buffer} (h : (p.parse buffer).1 = .error) :
    ∃ p', p.parse buffer = (.error, p', buffer) ∧ p'.hasError = true := by
  unfold HttpProtocol.parse at h ⊢
  rcases p.httpcontext.parse_cases buffer p.httprequest with
    ⟨-, hparse⟩ | ⟨out, -, ⟨-, hparse⟩ | ⟨-, buffer', -, hparse⟩⟩
  · rw [hparse] at h
    cases h
  · rw [hparse]
    exact ⟨_, rfl, rfl⟩
  · rw [hparse] at h
    by_cases hdone : out.state = .done
    · rw [if_pos hdone] at h
      cases h
    · rw [if_neg hdone] at h
      cases h

/-- The loop answers an error once; then comes `reset`. -/
theorem readLoop_error {p : HttpProtocol} {buffer : Buffer} (h : (p.parse buffer).1 = .error) :
    ∃ (p' : HttpProtocol) (response : HttpResponse),
      readLoop p buffer = ⟨[], [response], false, p'.reset, buffer⟩ := by
  obtain ⟨p', hparse, herror⟩ := parse_error h
  have hresponse : p'.getErrorResponse = some p'.errorResponse := if_pos herror
  refine ⟨p', p'.errorResponse, ?_⟩
  rw [readLoop]
  split
  next heq =>
    rw [hparse] at heq
    cases heq
  next heq =>
    rw [hparse] at heq
    cases heq
    rw [hresponse]
  next heq =>
    rw [hparse] at heq
    cases heq

namespace Delivery

/-- A connection from here on. -/
def onward (d : Delivery) : Delivery := { d with messages := [], responses := [] }

/-- A request has been returned, and there has been no error. -/
structure Returned (d : Delivery) (q : WireRequest) : Prop where
  responses : d.responses = []
  message : d.messages.getLast? = some q.request

end Delivery

/-- After the response the parser stands in front of the rejected bytes. -/
theorem onward_error {p : HttpProtocol} {buffer : Buffer} (h : (p.parse buffer).1 = .error) :
    (readLoop p buffer).onward.Sound ∧ (readLoop p buffer).onward.messages = [] ∧
      (readLoop p buffer).onward.residue = (fresh, buffer.readable) := by
  obtain ⟨p', response, hloop⟩ := readLoop_error h
  rw [hloop]
  exact ⟨⟨rfl, rfl, p'.ready_reset⟩, rfl, rfl⟩

/-! ## §2 Harmless bytes -/

/-- Accepted requests, and blanks behind them. -/
def Harmless (bs : Bytes) : Prop :=
  ∃ (qs : List WireRequest) (blanks : Bytes), bs = (qs.map (·.wire)).flatten ++ blanks ∧
    (∀ q ∈ qs, q.Accepted) ∧ (∀ b ∈ blanks, isSpace b = true) ∧ findCrlf blanks = none

/-- Accepted requests are read back in front of something. -/
theorem drain_wires {qs : List WireRequest} (h : ∀ q ∈ qs, q.Accepted) {more : Bytes}
    (hmore : more ≠ []) :
    scanner.drain fresh ((qs.map (·.wire)).flatten ++ more) =
      (qs.map (·.request) ++ (scanner.drain fresh more).1, (scanner.drain fresh more).2) := by
  induction qs with
  | nil => rfl
  | cons q qs ih =>
    rw [List.forall_mem_cons] at h
    have hne : q.body ++ ((qs.map (·.wire)).flatten ++ more) ≠ [] := by simp [hmore]
    rw [List.map_cons, List.flatten_cons, List.append_assoc, h.1.drain_wire (.inr hne), ih h.2]
    rfl

namespace WireRequest

/-- A request with something in front of its request line. -/
def behind (q : WireRequest) (front : Bytes) : WireRequest := { q with line := front ++ q.line }

theorem wire_behind (q : WireRequest) (front : Bytes) :
    (q.behind front).wire = front ++ q.wire := by
  simp [wire, behind]

theorem WellFormed.head?_line {q : WireRequest} (h : q.WellFormed) : q.line.head? ≠ some 0x0A := by
  intro hhead
  have hmethod := h.method
  obtain ⟨tail, htail⟩ := List.head?_eq_some_iff.mp hhead
  have hnil : (q.line.takeWhile fun b => !isSpace b) = [] := by
    rw [htail]
    rfl
  rw [hnil] at hmethod
  revert hmethod
  decide

/-- Blanks in front of a request do no harm. -/
theorem WellFormed.accepted_behind {q : WireRequest} (h : q.WellFormed) {blanks : Bytes}
    (hblanks : ∀ b ∈ blanks, isSpace b = true) (hcrlf : findCrlf blanks = none) :
    (q.behind blanks).Accepted ∧ (q.behind blanks).request = q.request := by
  have hline : ∀ request, lineContext (blanks ++ q.line) request = lineContext q.line request := by
    intro request
    unfold lineContext
    rw [nextWord_append_of_isSpace hblanks]
  refine ⟨⟨⟨?_, ?_, h.headers⟩, h.accepted.body⟩, ?_⟩
  · exact findCrlf_append_line hcrlf h.line h.head?_line
  · show (lineContext (blanks ++ q.line) .empty).2 = true
    rw [hline]
    exact h.accepted.method
  · unfold request head behind
    rw [hline]

end WireRequest

/-- Behind harmless bytes a well-formed request is returned, if it is seen to be complete. -/
theorem Harmless.drain_wire {bs : Bytes} (h : Harmless bs) {q : WireRequest} (hq : q.WellFormed)
    (hseen : lengthValues q.headers = [] ∨ q.body ≠ []) :
    ∃ msgs, scanner.drain fresh (bs ++ q.wire) = (msgs ++ [q.request], some (fresh, [])) := by
  obtain ⟨qs, blanks, rfl, haccepted, hblanks, hcrlf⟩ := h
  obtain ⟨hbehind, hrequest⟩ := hq.accepted_behind hblanks hcrlf
  have hwire := hbehind.drain_wire_eq hseen
  rw [q.wire_behind, hrequest] at hwire
  have hne : blanks ++ q.wire ≠ [] := by
    rw [← q.wire_behind, WireRequest.wire]
    simp
  refine ⟨qs.map (·.request), ?_⟩
  rw [List.append_assoc, drain_wires haccepted hne, hwire]

/-! ## §3 A request that shows what was left -/

/-- A request line with a long path. -/
def farLine (n : Nat) : Bytes := ascii "GET" ++ 0x20 :: (List.replicate n 0x2F ++ ascii " HTTP/1.1")

theorem mem_drop_farLine {n k : Nat} (hk : 0 < k) {b : UInt8} (h : b ∈ (farLine n).drop k) :
    b ∈ ascii "ET / HTTP/1.1" := by
  obtain ⟨k, rfl⟩ := Nat.exists_eq_succ_of_ne_zero (Nat.pos_iff_ne_zero.mp hk)
  have htail : b ∈ ascii "ET" ++ 0x20 :: (List.replicate n 0x2F ++ ascii " HTTP/1.1") :=
    List.mem_of_mem_drop h
  have hbytes : ascii "ET / HTTP/1.1" = ascii "ET" ++ 0x20 :: 0x2F :: ascii " HTTP/1.1" := by
    decide
  rw [List.mem_append, List.mem_cons, List.mem_append, List.mem_replicate] at htail
  rw [hbytes, List.mem_append, List.mem_cons, List.mem_cons]
  tauto

theorem mem_farLine {n : Nat} {b : UInt8} (h : b ∈ farLine n) : b ∈ ascii "GET / HTTP/1.1" := by
  have hcons : farLine n = 0x47 :: (farLine n).drop 1 := rfl
  rw [hcons, List.mem_cons] at h
  rcases h with rfl | h
  · exact List.mem_cons_self
  · exact List.mem_cons_of_mem _ (mem_drop_farLine Nat.one_pos h)

theorem findCrlf_drop_farLine (n k : Nat) : findCrlf ((farLine n).drop k) = none := by
  apply findCrlf_eq_none
  intro h
  exact absurd (mem_farLine (List.mem_of_mem_drop h)) (by decide)

/-- Behind its first byte there is no method. -/
theorem drop_farLine_rejected (n : Nat) {k : Nat} (hk : 0 < k) :
    (lineContext ((farLine n).drop k) .empty).2 = false := by
  rw [← Bool.not_eq_true, lineContext_accepts_iff]
  have hmem : ∀ b ∈ (nextWord ((farLine n).drop k)).1, b ∈ ascii "ET / HTTP/1.1" :=
    fun b hb => mem_drop_farLine hk (mem_of_mem_nextWord hb)
  rintro (hget | hpost)
  · rw [hget] at hmem
    exact absurd hmem (by decide)
  · rw [hpost] at hmem
    exact absurd hmem (by decide)

theorem lineContext_path (line : Bytes) (request : HttpRequest) :
    (lineContext line request).1.path = (nextWord (nextWord line).2).1 := rfl

theorem lineContext_path_length (line : Bytes) (request : HttpRequest) :
    (lineContext line request).1.path.length ≤ line.length := by
  rw [lineContext_path]
  have hline := length_nextWord_add_le line
  have htail := length_nextWord_add_le (nextWord line).2
  omega

theorem farLine_path {n : Nat} (hn : 0 < n) (request : HttpRequest) :
    (lineContext (farLine n) request).1.path = List.replicate n 0x2F := by
  have hmethod : nextWord (farLine n) =
      (ascii "GET", 0x20 :: (List.replicate n 0x2F ++ ascii " HTTP/1.1")) :=
    nextWord_append_of_word ⟨0x47, by decide⟩ rfl _
  have htail : 0x20 :: (List.replicate n 0x2F ++ ascii " HTTP/1.1") =
      [0x20] ++ List.replicate n 0x2F ++ 0x20 :: ascii "HTTP/1.1" := by
    rw [List.append_assoc]
    rfl
  have hmem : 0x2F ∈ [(0x20 : UInt8)] ++ List.replicate n 0x2F :=
    List.mem_append_right _ (List.mem_replicate.mpr ⟨by omega, rfl⟩)
  have hslash : isSpace 0x2F = false := by decide
  have hword : (List.replicate n 0x2F).takeWhile (fun b => !isSpace b) = List.replicate n 0x2F := by
    rw [List.takeWhile_eq_self_iff]
    intro b hb
    rw [List.eq_of_mem_replicate hb]
    decide
  have hne : (List.replicate n 0x2F).takeWhile (fun b => !isSpace b) ≠ [] := by
    rw [hword]
    exact List.ne_nil_of_length_pos (by rwa [List.length_replicate])
  rw [lineContext_path, hmethod, htail, nextWord_append_of_word ⟨0x2F, hmem, hslash⟩ rfl,
    nextWord_append_of_isSpace (List.forall_mem_singleton.mpr rfl), nextWord_of_ne_nil hne,
    hword]

/-- In front of a method that ends like `GET` there are blanks only. -/
theorem front_eq_of_method {front blanks method tail : Bytes}
    (hsplit : front ++ ascii "GET" = blanks ++ (method ++ tail))
    (htail : ∀ b ∈ tail, isSpace b = true)
    (hmethod : method = ascii "GET" ∨ method = ascii "POST") : front = blanks := by
  have hnil : tail = [] := by
    rcases List.eq_nil_or_concat' tail with hnil | ⟨init, b, rfl⟩
    · exact hnil
    · have hend : (front ++ ascii "GET").getLast? = some 0x54 := by
        rw [List.getLast?_append]
        rfl
      rw [hsplit, ← List.append_assoc, ← List.append_assoc, List.getLast?_concat] at hend
      have hspace := htail b (List.mem_append_right _ List.mem_cons_self)
      rw [Option.some.inj hend] at hspace
      exact absurd hspace (by decide)
  rw [hnil, List.append_nil] at hsplit
  rcases hmethod with rfl | rfl
  · exact List.append_cancel_right hsplit
  · have hbytes : ascii "POST" = ascii "P" ++ ascii "OST" := by decide
    rw [hbytes, ← List.append_assoc] at hsplit
    exact absurd (List.append_inj' hsplit rfl).2 (by decide)

/-- With more than blanks in front of it, the path is another one. -/
theorem length_path_behind {front : Bytes} (hfront : ∃ b ∈ front, isSpace b = false) {n : Nat}
    (haccepts : (lineContext (front ++ farLine n) .empty).2 = true) :
    (lineContext (front ++ farLine n) .empty).1.path.length ≤ front.length + 3 := by
  have hwords : ∃ b ∈ front ++ ascii "GET", isSpace b = false :=
    ⟨0x47, List.mem_append_right _ (by decide), by decide⟩
  have hmethod : nextWord (front ++ farLine n) =
      ((nextWord (front ++ ascii "GET")).1, (nextWord (front ++ ascii "GET")).2 ++
        0x20 :: (List.replicate n 0x2F ++ ascii " HTTP/1.1")) := by
    rw [farLine, ← List.append_assoc]
    exact nextWord_append_of_word hwords rfl _
  rw [lineContext_accepts_iff, hmethod] at haccepts
  rw [lineContext_path, hmethod]
  have hsplit := nextWord_split (front ++ ascii "GET")
  have hlength := length_nextWord_add_le (front ++ ascii "GET")
  generalize nextWord (front ++ ascii "GET") = words at haccepts hsplit hlength ⊢
  obtain ⟨method, tail⟩ := words
  rw [List.length_append] at hlength
  have hget : (ascii "GET").length = 3 := rfl
  by_cases hpath : ∃ b ∈ tail, isSpace b = false
  -- the path comes before the end of `GET`
  · rw [nextWord_append_of_word hpath rfl]
    have hle := length_nextWord_add_le tail
    dsimp only at hlength ⊢
    omega
  -- or `GET` ends the method
  · simp only [not_exists, not_and, Bool.not_eq_false] at hpath
    have hblanks := front_eq_of_method hsplit hpath haccepts
    obtain ⟨b, hb, hspace⟩ := hfront
    rw [hblanks] at hb
    exact absurd (hspace.symm.trans (List.mem_takeWhile_imp hb)) Bool.false_ne_true

/-! ## §4 Where a scanner can wait -/

/-- A line is waited for when its end is not there. -/
theorem findCrlf_of_incomplete {s : Progress} (hs : s.1 = .requestLine ∨ s.1 = .headers)
    {view : Bytes} (hwait : move s view = .incomplete) : findCrlf view = none := by
  by_cases hnil : view = []
  · rw [hnil]
    rfl
  · have hturn := turn_of_incomplete hwait hnil
    rcases hs with hs | hs
    · rw [hs] at hturn
      simp only [turn, lineTurn] at hturn
      split at hturn
      next hfind => exact hfind
      next => split at hturn <;> cases hturn
    · rw [hs] at hturn
      simp only [turn, headerTurn] at hturn
      split at hturn
      next hfind => exact hfind
      next =>
        split_ifs at hturn
        split at hturn <;> cases hturn

/-- A body is waited for when it is not there, or when no byte is. -/
theorem body_of_incomplete {request : HttpRequest} {value view : Bytes} {n : Nat}
    (hlookup : request.header.lookup contentLength = some value) (hsize : sizeBody value = some n)
    (hwait : move (.body, request) view = .incomplete) : view.length < n ∨ view = [] ∧ n = 0 := by
  by_cases hnil : view = []
  · rcases Nat.eq_zero_or_pos n with hzero | hpos
    · exact Or.inr ⟨hnil, hzero⟩
    · rw [hnil]
      exact Or.inl hpos
  · have hturn := turn_of_incomplete hwait hnil
    simp only [turn, bodyTurn, hlookup, hsize] at hturn
    split_ifs at hturn with hzero hshort
    exact Or.inl hshort

theorem sizeBody_le {value : Bytes} {n : Nat} (h : sizeBody value = some n) :
    n ≤ maxHttpBodySize := by
  unfold sizeBody at h
  split_ifs at h
  split at h
  next => cases h
  next m hm =>
    split_ifs at h with hlarge
    cases h
    exact Nat.le_of_not_lt hlarge

theorem WireRequest.length_path_le (q : WireRequest) :
    q.head.path.length ≤ (joinLines (q.line :: q.headers)).length := by
  rw [WireRequest.head, foldl_addHeader_path, joinLines_cons, List.length_append,
    List.length_append]
  have hle := lineContext_path_length q.line .empty
  omega

theorem Reads.length_path_le {s : Progress} {pending : Bytes} (h : Reads s pending) :
    s.2.path.length ≤ pending.length := by
  cases h with
  | line => exact Nat.zero_le _
  | @headers q hq => exact q.length_path_le
  | @body q hq hlengths =>
    rw [joinLines_append, List.length_append]
    exact q.length_path_le.trans (Nat.le_add_right _ _)
  | @done q hq =>
    rw [WireRequest.wire, joinLines_append, List.append_assoc, List.length_append]
    exact q.length_path_le.trans (Nat.le_add_right _ _)

/-- No path is longer than the stream. -/
theorem ReadUpTo.length_path_le {stream bs : Bytes} {msgs : List HttpRequest} {s : Progress}
    (h : ReadUpTo stream msgs s bs) :
    (∀ msg ∈ msgs, msg.path.length ≤ stream.length) ∧ s.2.path.length ≤ stream.length := by
  obtain ⟨qs, pending, rfl, hreads, haccepted, rfl⟩ := h
  have hpending := hreads.length_path_le
  rw [List.append_assoc, List.length_append, List.length_append]
  refine ⟨fun msg hmsg => ?_, by omega⟩
  obtain ⟨q, hq, rfl⟩ := List.mem_map.mp hmsg
  have hwire : q.request.path.length ≤ q.wire.length := (Reads.done (haccepted q hq)).length_path_le
  have hmem : q.wire ∈ qs.map (·.wire) := List.mem_map_of_mem hq
  have hle := (List.sublist_flatten_of_mem hmem).length_le
  omega

/-! ## §5 What is not harmless -/

section Far

variable {q : WireRequest} {n : Nat}

theorem append_wire_of_body_nil (hbody : q.body = []) (front : Bytes) :
    front ++ q.wire =
      front ++ q.line ++ [0x0D, 0x0A] ++ (joinLines q.headers ++ [0x0D, 0x0A]) := by
  simp [WireRequest.wire, hbody]

theorem WireRequest.WellFormed.findCrlf_append (hq : q.WellFormed) {front : Bytes}
    (hcrlf : findCrlf front = none) : findCrlf (front ++ q.line) = none :=
  findCrlf_append_line hcrlf hq.line hq.head?_line

/-- Bytes of an unfinished request line have to be blanks. -/
theorem blanks_of_returned (hq : q.WellFormed) (hline : q.line = farLine n) (hbody : q.body = [])
    {front : Bytes} (hcrlf : findCrlf front = none) (hn : front.length + 3 < n)
    {msgs : List HttpRequest} {last : Progress × Bytes}
    (h : scanner.drain fresh (front ++ q.wire) = (msgs, some last))
    (hlast : msgs.getLast? = some q.request) :
    (∀ b ∈ front, isSpace b = true) ∧ lengthValues q.headers = [] := by
  have hfront := hq.findCrlf_append hcrlf
  cases haccepts : (lineContext (front ++ q.line) .empty).2 with
  | false =>
    rw [append_wire_of_body_nil hbody, drain_line_rejected hfront haccepts] at h
    cases h
  | true =>
    have hhead : (q.behind front).HeadAccepted := ⟨hfront, haccepts, hq.headers⟩
    rw [← q.wire_behind] at h
    by_cases hlengths : lengthValues q.headers = []
    · refine ⟨?_, hlengths⟩
      have haccepted : (q.behind front).Accepted := ⟨hhead, hq.accepted.body⟩
      rw [haccepted.drain_wire_eq (Or.inl hlengths), Prod.mk.injEq] at h
      rw [← h.1, List.getLast?_singleton] at hlast
      have hpath := congrArg (fun request => request.path.length) (Option.some.inj hlast)
      rw [WireRequest.request_path, WireRequest.request_path, hline, farLine_path (by omega),
        List.length_replicate] at hpath
      by_contra hblanks
      simp only [not_forall, Bool.not_eq_true, exists_prop] at hblanks
      rw [hline] at haccepts
      have hle := length_path_behind hblanks haccepts
      have heq : (q.behind front).line = front ++ farLine n := congrArg (front ++ ·) hline
      rw [heq] at hpath
      omega
    -- the request is complete, and nothing is returned
    · have hdrain := hhead.drain_wire_empty hlengths hbody
      rw [h] at hdrain
      cases hdrain
      cases hlast

/-- Behind unfinished header lines the request line is one of them. -/
theorem headers_not_returned (hq : q.WellFormed) (hbody : q.body = []) {front : Bytes}
    (hcrlf : findCrlf front = none) {request : HttpRequest} (hpath : request.path ≠ q.request.path)
    {msgs : List HttpRequest} {last : Progress × Bytes}
    (h : scanner.drain (.headers, request) (front ++ q.wire) = (msgs, some last)) :
    msgs.getLast? ≠ some q.request := by
  have hfront := hq.findCrlf_append hcrlf
  have hne : front ++ q.line ≠ [] := by
    intro hnil
    have hmethod := hq.method
    rw [(List.append_eq_nil_iff.mp hnil).2] at hmethod
    revert hmethod
    decide
  by_cases hcolon : 0x3A ∈ front ++ q.line
  · have hheaders : ∀ header ∈ (front ++ q.line) :: q.headers,
        findCrlf header = none ∧ 0x3A ∈ header := by
      rw [List.forall_mem_cons]
      exact ⟨⟨hfront, hcolon⟩, hq.headers⟩
    have hbytes : front ++ q.wire =
        joinLines ((front ++ q.line) :: q.headers) ++ ([0x0D, 0x0A] ++ []) := by
      rw [append_wire_of_body_nil hbody, joinLines_cons]
      simp only [List.append_assoc, List.append_nil]
    rw [hbytes, drain_headers hheaders, drain_blank] at h
    intro hlast
    split_ifs at h
    · rw [drain_done, drain_fresh_nil, Prod.mk.injEq] at h
      rw [← h.1, List.getLast?_singleton] at hlast
      apply hpath
      rw [← Option.some.inj hlast, foldl_addHeader_path]
    · have hstate : (ParseState.body, ((front ++ q.line) :: q.headers).foldl addHeader request).1 ≠
          .done := ParseState.noConfusion
      rw [Scanner.drain_incomplete (move_nil hstate)] at h
      cases h
      cases hlast
  · rw [append_wire_of_body_nil hbody, drain_header_rejected hne hfront hcolon] at h
    cases h

/-- A body takes a part of the request line, and what is left of that is rejected. -/
theorem body_rejected (hline : q.line = farLine n) (hbody : q.body = []) {front value : Bytes}
    {request : HttpRequest} {m : Nat}
    (hlookup : request.header.lookup contentLength = some value) (hsize : sizeBody value = some m)
    (hshort : front.length < m) (hm : m ≤ n) :
    (scanner.drain (.body, request) (front ++ q.wire)).2 = none := by
  have hlength : n ≤ q.line.length := by
    rw [hline, farLine, List.length_append, List.length_cons, List.length_append,
      List.length_replicate]
    omega
  -- the body ends within the request line
  obtain ⟨k, rfl⟩ : ∃ k, m = front.length + k := ⟨m - front.length, by omega⟩
  have hk : k ≤ q.line.length := by omega
  have hbytes : front ++ q.wire = (front ++ q.line.take k) ++
      (q.line.drop k ++ [0x0D, 0x0A] ++ (joinLines q.headers ++ [0x0D, 0x0A])) := by
    rw [append_wire_of_body_nil hbody]
    conv_lhs => rw [← List.take_append_drop k q.line]
    simp only [List.append_assoc]
  have hsize' : sizeBody value = some (front ++ q.line.take k).length := by
    rw [hsize, List.length_append, List.length_take, Nat.min_eq_left hk]
  have hcrlf : findCrlf (q.line.drop k) = none := by
    rw [hline]
    exact findCrlf_drop_farLine n k
  have hrejected : (lineContext (q.line.drop k) .empty).2 = false := by
    rw [hline]
    exact drop_farLine_rejected n (by omega)
  rw [hbytes, drain_body hlookup hsize' (by simp), drain_done, drain_line_rejected hcrlf hrejected]

/-- An unfinished body has to be complete but for the byte that shows it. -/
theorem empty_of_returned (hq : q.WellFormed) (hline : q.line = farLine n) (hbody : q.body = [])
    {view value : Bytes} (hn : maxHttpBodySize + view.length + 3 < n) {request : HttpRequest}
    (hlookup : request.header.lookup contentLength = some value)
    (hwait : move (.body, request) view = .incomplete) (hpath : request.path ≠ q.request.path)
    {msgs : List HttpRequest} {last : Progress × Bytes}
    (h : scanner.drain (.body, request) (view ++ q.wire) = (msgs, some last))
    (hlast : msgs.getLast? = some q.request) :
    view = [] ∧ sizeBody value = some 0 ∧ lengthValues q.headers = [] := by
  have hwire : q.wire ≠ [] := by simp [WireRequest.wire]
  cases hsize : sizeBody value with
  | none =>
    have hne : view ++ q.wire ≠ [] := fun hnil => hwire (List.append_eq_nil_iff.mp hnil).2
    rw [drain_body_rejected hlookup hsize hne] at h
    cases h
  | some m =>
    rcases body_of_incomplete hlookup hsize hwait with hshort | ⟨hview, hzero⟩
    · have hm := sizeBody_le hsize
      have hnone := body_rejected hline hbody hlookup hsize hshort (by omega)
      rw [h] at hnone
      cases hnone
    · have hempty : sizeBody value = some ([] : Bytes).length := hsize.trans (congrArg some hzero)
      rw [hview, ← List.nil_append ([] ++ q.wire), List.nil_append q.wire,
        drain_body hlookup hempty (by simpa using hwire), drain_done, Prod.mk.injEq] at h
      rw [← h.1, List.getLast?_cons] at hlast
      refine ⟨hview, congrArg some hzero, ?_⟩
      cases hmsgs : (scanner.drain fresh q.wire).1.getLast? with
      | none =>
        rw [hmsgs] at hlast
        exact absurd (congrArg HttpRequest.path (Option.some.inj hlast)) hpath
      | some msg =>
        rw [hmsgs] at hlast
        have hfresh : scanner.drain fresh ([] ++ q.wire) =
            ((scanner.drain fresh q.wire).1, some last) := Prod.ext rfl h.2
        have hthree : ([] : Bytes).length + 3 < n := by
          rw [List.length_nil]
          omega
        exact (blanks_of_returned hq hline hbody rfl hthree hfresh (hmsgs.trans hlast)).2

theorem getLast?_of_append {α : Type*} {before after : List α} {a : α}
    (h : (before ++ after).getLast? = some a) (hnot : a ∉ before) : after.getLast? = some a := by
  rw [List.getLast?_append] at h
  cases hafter : after.getLast? with
  | none =>
    rw [hafter, Option.none_or] at h
    exact absurd (List.mem_of_getLast? h) hnot
  | some b => rwa [hafter] at h

/-- A request with a path long enough is returned behind harmless bytes only. -/
theorem harmless_of_returned (hq : q.WellFormed) (hline : q.line = farLine n) (hbody : q.body = [])
    {bs : Bytes} (hn : maxHttpBodySize + bs.length + 3 < n) {msgs : List HttpRequest}
    {last : Progress × Bytes} (h : scanner.drain fresh (bs ++ q.wire) = (msgs, some last))
    (hlast : msgs.getLast? = some q.request) : Harmless bs ∧ lengthValues q.headers = [] := by
  have hfar : q.request.path.length = n := by
    rw [WireRequest.request_path, hline, farLine_path (by omega), List.length_replicate]
  rw [Scanner.drain_append, Prod.mk.injEq] at h
  obtain ⟨hmsgs, hend⟩ := h
  cases hnext : (scanner.drain fresh bs).2 with
  | none =>
    rw [hnext] at hend
    cases hend
  | some next =>
    obtain ⟨s, rest⟩ := next
    rw [hnext] at hmsgs hend
    have hbefore : scanner.drain fresh bs = ((scanner.drain fresh bs).1, some (s, rest)) :=
      Prod.ext rfl hnext
    have hwait : move s rest = .incomplete := Scanner.move_of_drain hbefore
    have hread := readUpTo_of_drain hbefore
    obtain ⟨hpaths, hpath⟩ := hread.length_path_le
    have hne : s.2.path ≠ q.request.path := by
      intro heq
      rw [heq, hfar] at hpath
      omega
    -- the request is not among the messages that were there before
    have hnew : q.request ∉ (scanner.drain fresh bs).1 := by
      intro hmem
      have hle := hpaths q.request hmem
      omega
    have hafter : (scanner.drain s (rest ++ q.wire)).1.getLast? = some q.request := by
      rw [← hmsgs] at hlast
      exact getLast?_of_append hlast hnew
    have hdrain : scanner.drain s (rest ++ q.wire) =
        ((scanner.drain s (rest ++ q.wire)).1, some last) := Prod.ext rfl hend
    obtain ⟨qs, pending, hbs, hreads, haccepted, -⟩ := hread
    have hrest : rest.length ≤ bs.length := by
      rw [hbs, List.length_append]
      omega
    cases hreads with
    | line =>
      have hcrlf := findCrlf_of_incomplete (Or.inl rfl) hwait
      obtain ⟨hblanks, hlengths⟩ :=
        blanks_of_returned hq hline hbody hcrlf (by omega) hdrain hafter
      exact ⟨⟨qs, rest, by rw [hbs, List.append_nil], haccepted, hblanks, hcrlf⟩, hlengths⟩
    | @headers q₀ hq₀ =>
      have hcrlf := findCrlf_of_incomplete (Or.inr rfl) hwait
      exact absurd hafter (headers_not_returned hq hbody hcrlf hne hdrain)
    | @body q₀ hq₀ hlengths =>
      have hvalue := List.getLast?_eq_some_getLast hlengths
      obtain ⟨rfl, hsize, hnone⟩ := empty_of_returned hq hline hbody (by omega)
        (q₀.head_lookup.trans hvalue) hwait hne hdrain hafter
      -- the last request was complete
      have hlast₀ : WireRequest.Accepted ⟨q₀.line, q₀.headers, []⟩ :=
        ⟨⟨hq₀.line, hq₀.method, hq₀.headers⟩, by simpa [hvalue] using hsize⟩
      refine ⟨⟨qs ++ [⟨q₀.line, q₀.headers, []⟩], [], ?_, ?_, by simp, rfl⟩, hnone⟩
      · rw [hbs, List.map_append, List.flatten_append]
        simp [WireRequest.wire]
      · exact List.forall_mem_append.mpr ⟨haccepted, List.forall_mem_singleton.mpr hlast₀⟩
    | done hq₀ => exact absurd rfl (not_done_of_incomplete hwait)

end Far

/-! ## §6 Recovery -/

/-- The request is seen to be complete with its last byte. -/
def WireRequest.seen (q : WireRequest) : Bool := lengthValues q.headers = [] || q.body ≠ []

/-- There are well-formed requests of both kinds with a path of any length. -/
theorem exists_far (n : Nat) (seen : Bool) :
    ∃ q : WireRequest, q.WellFormed ∧ q.seen = seen ∧ q.line = farLine n ∧ q.body = [] := by
  have hmethod : (farLine n).takeWhile (fun b => !isSpace b) = ascii "GET" :=
    List.takeWhile_append_of_pos (by decide +kernel)
  cases seen with
  | true =>
    exact ⟨⟨farLine n, [], []⟩,
      ⟨findCrlf_drop_farLine n 0, Or.inl hmethod, by simp, Or.inl ⟨rfl, rfl⟩⟩, rfl, rfl, rfl⟩
  | false =>
    have hheaders : ∀ header ∈ [ascii "Content-Length: 0"],
        findCrlf header = none ∧ 0x3A ∈ header := by decide +kernel
    have hvalues : lengthValues [ascii "Content-Length: 0"] = [ascii "0"] := by decide +kernel
    refine ⟨⟨farLine n, [ascii "Content-Length: 0"], []⟩,
      ⟨findCrlf_drop_farLine n 0, Or.inl hmethod, hheaders, Or.inr ⟨ascii "0", hvalues, ?_⟩⟩, ?_, rfl, rfl⟩
    · exact ⟨by decide, by decide +kernel, rfl, Nat.zero_le _⟩
    · rw [WireRequest.seen, hvalues]
      rfl

/-- After an error the well-formed requests that are seen to be complete are returned, and without
another error, if and only if the rejected bytes, which are still in the buffer, are harmless.  Of
the others this holds behind no bytes at all. -/
theorem recovery_iff {p : HttpProtocol} {buffer : Buffer} (h : (p.parse buffer).1 = .error)
    (seen : Bool) :
    (∀ q : WireRequest, q.WellFormed → q.seen = seen → ∀ chunks : List Bytes,
        chunks.flatten = q.wire → ((readLoop p buffer).onward.receiveAll chunks).Returned q) ↔
      Harmless buffer.readable ∧ seen = true := by
  obtain ⟨hsound, hmessages, hresidue⟩ := onward_error h
  apply Iff.intro
  · intro hall
    obtain ⟨q, hq, hseen, hline, hbody⟩ :=
      exists_far (maxHttpBodySize + buffer.readable.length + 4) seen
    obtain ⟨hresponses, hlast⟩ := hall q hq hseen [q.wire] (List.append_nil _)
    obtain ⟨hmsgs, hend⟩ := hsound.receive q.wire
    rw [hresidue] at hmsgs hend
    cases hdrain : (scanner.feed (some (fresh, buffer.readable)) q.wire).2 with
    | none =>
      rw [hdrain] at hend
      exact absurd hresponses hend
    | some last =>
      have hone : (readLoop p buffer).onward.receiveAll [q.wire] =
          (readLoop p buffer).onward.receive q.wire := rfl
      rw [hone, hmsgs, hmessages, List.nil_append] at hlast
      have hfeed : scanner.drain fresh (buffer.readable ++ q.wire) =
          ((scanner.feed (some (fresh, buffer.readable)) q.wire).1, some last) :=
        Prod.ext rfl hdrain
      obtain ⟨hharmless, hlengths⟩ :=
        harmless_of_returned hq hline hbody (by omega) hfeed hlast
      refine ⟨hharmless, ?_⟩
      rw [← hseen, WireRequest.seen, hlengths]
      rfl
  · rintro ⟨hharmless, rfl⟩ q hq hseen chunks hchunks
    have hseen' : lengthValues q.headers = [] ∨ q.body ≠ [] := by
      simpa [WireRequest.seen] using hseen
    obtain ⟨msgs, hdrain⟩ := hharmless.drain_wire hq hseen'
    cases chunks with
    | nil =>
      have hnil : q.wire = [] := hchunks.symm
      simp [WireRequest.wire] at hnil
    | cons chunk chunks =>
      have hfeed := Scanner.feedAll_cons_eq_drain (f := scanner) fresh buffer.readable chunk chunks
      rw [hchunks, hdrain, ← hresidue] at hfeed
      obtain ⟨hmsgs, hend, -⟩ := hsound.receiveAll hfeed
      refine ⟨hend.responses, ?_⟩
      rw [hmsgs, hmessages, List.nil_append, List.getLast?_concat]

/-- Bytes rejected as a header line are accepted as a request. -/
theorem recovery_iff_requestInHeaders :
    let p := (Delivery.start.receive (ascii "GET / HTTP/1.1\r\n")).protocol
    let buffer := Buffer.create.receive (ascii "GET /x HTTP/1.1\r\n\r\n")
    ∀ q : WireRequest, q.WellFormed → q.seen = true → ∀ chunks : List Bytes,
      chunks.flatten = q.wire → ((readLoop p buffer).onward.receiveAll chunks).Returned q :=
  have hrest : WireRequest.WellFormed ⟨ascii "GET /x HTTP/1.1", [], []⟩ :=
    ⟨by decide, by decide, by decide, Or.inl ⟨rfl, rfl⟩⟩
  (recovery_iff (by decide +kernel) true).mpr
    ⟨⟨[⟨ascii "GET /x HTTP/1.1", [], []⟩], [], by decide +kernel,
      List.forall_mem_singleton.mpr hrest.accepted, by simp, rfl⟩, rfl⟩

/-- The rejected line is rejected again, and the request behind it is not returned. -/
theorem recovery_badLine :
    let q : WireRequest := ⟨ascii "GET / HTTP/1.1", [], []⟩
    let rejected := Delivery.start.receive (ascii "BAD\r\n")
    q.WellFormed ∧ rejected.responses.length = 1 ∧
      (rejected.onward.receive q.wire).responses.length = 1 ∧
      (rejected.onward.receive q.wire).messages = [] :=
  ⟨⟨by decide, by decide, by decide, Or.inl ⟨rfl, rfl⟩⟩, by decide +kernel, by decide +kernel,
    by decide +kernel⟩

end EchoNet.Http
