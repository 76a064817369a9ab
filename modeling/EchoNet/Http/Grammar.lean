import EchoNet.Http.Chunking

/-!
# Which Requests the Parser Accepts

Requests as their parts on the wire, and the ones among them that the parser accepts.  In both
directions: an accepted request drains to its message, and whatever a stream has drained to was
accepted requests, one after another.

## Main results

- `Accepted.drain_wire`: an accepted request is read back, in front of anything;
- `readUpTo_of_drain`: what has been drained is a concatenation of accepted requests.
-/

namespace EchoNet.Http

open EchoNet.Lib

/-! ## §1 Requests on the wire -/

/-- The name of a header line: what is in front of its first colon. -/
def headerName (header : Bytes) : Bytes := header.takeWhile (· ≠ 0x3A)

/-- The value of a header line: what is behind its first colon, without leading spaces. -/
def headerValue (header : Bytes) : Bytes :=
  ((header.dropWhile (· ≠ 0x3A)).drop 1).dropWhile (· = 0x20)

/-- The values of the `Content-Length` headers. -/
def lengthValues (headers : List Bytes) : List Bytes :=
  (headers.filter (headerName · = contentLength)).map headerValue

/-- A request line, header lines and a body. -/
structure WireRequest where
  line : Bytes
  headers : List Bytes
  body : Bytes
  deriving DecidableEq

/-- A request with a header line more. -/
def addHeader (request : HttpRequest) (header : Bytes) : HttpRequest :=
  { request with header := request.header.insert (headerName header) (headerValue header) }

namespace WireRequest

/-- The bytes of a request: its lines, the blank line, the body. -/
def wire (q : WireRequest) : Bytes := joinLines (q.line :: q.headers ++ [[]]) ++ q.body

/-- The message without its body. -/
def head (q : WireRequest) : HttpRequest :=
  q.headers.foldl addHeader (lineContext q.line .empty).1

/-- The message. -/
def request (q : WireRequest) : HttpRequest := { q.head with body := q.body }

/-- The parser accepts the request line and the header lines. -/
structure HeadAccepted (q : WireRequest) : Prop where
  line : findCrlf q.line = none
  method : (lineContext q.line .empty).2 = true
  headers : ∀ header ∈ q.headers, findCrlf header = none ∧ 0x3A ∈ header

/-- The parser accepts the request.  It goes by the last `Content-Length`. -/
structure Accepted (q : WireRequest) : Prop extends q.HeadAccepted where
  body :
    match (lengthValues q.headers).getLast? with
    | none => q.body = []
    | some value => sizeBody value = some q.body.length

/-- A well-formed request: `GET` or `POST`, header lines with a colon, and at most one
`Content-Length`, the length of the body in decimal digits. -/
structure WellFormed (q : WireRequest) : Prop where
  line : findCrlf q.line = none
  method : (q.line.takeWhile fun b => !isSpace b) = ascii "GET" ∨
    (q.line.takeWhile fun b => !isSpace b) = ascii "POST"
  headers : ∀ header ∈ q.headers, findCrlf header = none ∧ 0x3A ∈ header
  body : lengthValues q.headers = [] ∧ q.body = [] ∨
    ∃ value, lengthValues q.headers = [value] ∧ value ≠ [] ∧ (∀ b ∈ value, isDigit b = true) ∧
      decimalValue value = q.body.length ∧ q.body.length ≤ maxHttpBodySize

end WireRequest

/-! ## §2 Header lines -/

theorem headerContext_of_mem {header : Bytes} (h : 0x3A ∈ header) (request : HttpRequest) :
    headerContext header request = some (addHeader request header) := by
  rw [headerContext, splitFirst, if_pos h]
  rfl

theorem headerContext_eq_some {header : Bytes} {request request' : HttpRequest}
    (h : headerContext header request = some request') :
    0x3A ∈ header ∧ request' = addHeader request header := by
  by_cases hcolon : 0x3A ∈ header
  · rw [headerContext_of_mem hcolon] at h
    exact ⟨hcolon, (Option.some.inj h).symm⟩
  · rw [headerContext, splitFirst, if_neg hcolon] at h
    cases h

theorem foldl_addHeader_body (headers : List Bytes) (request : HttpRequest) :
    (headers.foldl addHeader request).body = request.body := by
  induction headers generalizing request with
  | nil => rfl
  | cons header headers ih => exact ih (addHeader request header)

theorem foldl_addHeader_path (headers : List Bytes) (request : HttpRequest) :
    (headers.foldl addHeader request).path = request.path := by
  induction headers generalizing request with
  | nil => rfl
  | cons header headers ih => exact ih (addHeader request header)

/-- The last header of a name wins. -/
theorem foldl_addHeader_lookup (headers : List Bytes) (request : HttpRequest) :
    (headers.foldl addHeader request).header.lookup contentLength =
      (lengthValues headers).getLast?.or (request.header.lookup contentLength) := by
  induction headers generalizing request with
  | nil => rfl
  | cons header headers ih =>
    rw [List.foldl_cons, ih]
    by_cases hname : headerName header = contentLength
    · have hvalues : lengthValues (header :: headers) =
          headerValue header :: lengthValues headers := by
        simp [lengthValues, hname]
      have hlookup : (addHeader request header).header.lookup contentLength =
          some (headerValue header) := by
        rw [← hname]
        exact AList.lookup_insert _
      rw [hvalues, hlookup, List.getLast?_cons]
      cases (lengthValues headers).getLast? <;> rfl
    · have hvalues : lengthValues (header :: headers) = lengthValues headers := by
        simp [lengthValues, hname]
      have hlookup : (addHeader request header).header.lookup contentLength =
          request.header.lookup contentLength :=
        AList.lookup_insert_ne (Ne.symm hname)
      rw [hvalues, hlookup]

/-- The checks let pass what a well-formed `Content-Length` can be. -/
theorem sizeBody_of_isDigit {value : Bytes} (hne : value ≠ [])
    (hdigits : ∀ b ∈ value, isDigit b = true) (hle : decimalValue value ≤ maxHttpBodySize) :
    sizeBody value = some (decimalValue value) := by
  have hlt : decimalValue value < 2 ^ 64 := hle.trans_lt (by decide)
  have hnat : (UInt64.ofNat (decimalValue value)).toNat = decimalValue value :=
    UInt64.toNat_ofNat_of_lt' hlt
  unfold sizeBody
  rw [if_neg (by simpa [hne] using hdigits), stoul_of_isDigit hne hdigits hlt]
  dsimp only
  rw [hnat, if_neg (Nat.not_lt.mpr hle)]

/-- The method decides whether a request line is accepted. -/
theorem lineContext_accepts_iff (line : Bytes) (request : HttpRequest) :
    (lineContext line request).2 = true ↔
      (nextWord line).1 = ascii "GET" ∨ (nextWord line).1 = ascii "POST" := by
  unfold lineContext
  by_cases hget : (nextWord line).1 = ascii "GET"
  · simp [hget]
  · by_cases hpost : (nextWord line).1 = ascii "POST"
    · have hne : ascii "POST" ≠ ascii "GET" := by decide
      simp [hpost, hne]
    · simp [hget, hpost]

namespace WireRequest

variable (q : WireRequest)

theorem head_lookup : q.head.header.lookup contentLength = (lengthValues q.headers).getLast? := by
  rw [head, foldl_addHeader_lookup]
  exact Option.or_none

theorem head_body : q.head.body = [] := foldl_addHeader_body _ _

theorem request_path : q.request.path = (lineContext q.line .empty).1.path :=
  foldl_addHeader_path _ _

end WireRequest

theorem WireRequest.WellFormed.accepted {q : WireRequest} (h : q.WellFormed) : q.Accepted := by
  refine ⟨⟨h.line, (lineContext_accepts_iff _ _).mpr ?_, h.headers⟩, ?_⟩
  · have hword : (q.line.takeWhile fun b => !isSpace b) ≠ [] := by
      rcases h.method with hmethod | hmethod
      · rw [hmethod]
        decide
      · rw [hmethod]
        decide
    rw [nextWord_of_ne_nil hword]
    exact h.method
  · rcases h.body with ⟨hnil, hbody⟩ | ⟨value, hvalues, hne, hdigits, hvalue, hle⟩
    · simp only [hnil]
      exact hbody
    · simp only [hvalues]
      rw [← hvalue]
      exact sizeBody_of_isDigit hne hdigits (hvalue.trans_le hle)

/-! ## §3 From a request to its message -/

theorem drain_line {line : Bytes} (hcrlf : findCrlf line = none)
    (hmethod : (lineContext line .empty).2 = true) (rest : Bytes) :
    scanner.drain fresh (line ++ [0x0D, 0x0A] ++ rest) =
      scanner.drain (.headers, (lineContext line .empty).1) rest := by
  apply Scanner.drain_advance
  exact (Piece.line hcrlf hmethod).move_eq (by simp)

theorem drain_line_rejected {line : Bytes} (hcrlf : findCrlf line = none)
    (hmethod : (lineContext line .empty).2 = false) (rest : Bytes) :
    scanner.drain fresh (line ++ [0x0D, 0x0A] ++ rest) = ([], none) := by
  have hstate : fresh.1 ≠ .done := ParseState.noConfusion
  apply Scanner.drain_invalid
  refine (move_eq_turn hstate (by simp)).trans ?_
  rw [List.append_assoc]
  have hfind : findCrlf (line ++ ([0x0D, 0x0A] ++ rest)) = some line.length :=
    findCrlf_append hcrlf rest
  simp only [fresh, turn, lineTurn, hfind, List.take_left]
  split
  next h =>
    split at h
    next heq =>
      rw [heq] at hmethod
      cases hmethod
    next => cases h
  next h => split at h <;> cases h
  next => rfl

theorem drain_header_rejected {header : Bytes} (hne : header ≠ []) (hcrlf : findCrlf header = none)
    (hcolon : 0x3A ∉ header) (request : HttpRequest) (rest : Bytes) :
    scanner.drain (.headers, request) (header ++ [0x0D, 0x0A] ++ rest) = ([], none) := by
  have hstate : (ParseState.headers, request).1 ≠ .done := ParseState.noConfusion
  have hnone : headerContext header request = none := by
    rw [headerContext, splitFirst, if_neg hcolon]
    rfl
  apply Scanner.drain_invalid
  refine (move_eq_turn hstate (by simp)).trans ?_
  rw [List.append_assoc]
  have hfind : findCrlf (header ++ ([0x0D, 0x0A] ++ rest)) = some header.length :=
    findCrlf_append hcrlf rest
  have hlength : header.length ≠ 0 := fun hzero => hne (List.eq_nil_of_length_eq_zero hzero)
  simp only [turn, headerTurn, hfind, List.take_left, hnone, if_neg hlength]

theorem drain_headers {headers : List Bytes}
    (h : ∀ header ∈ headers, findCrlf header = none ∧ 0x3A ∈ header) (request : HttpRequest)
    (rest : Bytes) :
    scanner.drain (.headers, request) (joinLines headers ++ rest) =
      scanner.drain (.headers, headers.foldl addHeader request) rest := by
  induction headers generalizing request with
  | nil => rfl
  | cons header headers ih =>
    rw [List.forall_mem_cons] at h
    obtain ⟨hcrlf, hcolon⟩ := h.1
    have hmove : scanner.move (.headers, request)
          (header ++ [0x0D, 0x0A] ++ (joinLines headers ++ rest)) =
        .advance (.headers, addHeader request header) (joinLines headers ++ rest) :=
      (Piece.header (List.ne_nil_of_mem hcolon) hcrlf (headerContext_of_mem hcolon request)).move_eq
        (by simp)
    rw [joinLines_cons, List.append_assoc, Scanner.drain_advance hmove, ih h.2]
    rfl

theorem drain_blank (request : HttpRequest) (rest : Bytes) :
    scanner.drain (.headers, request) ([0x0D, 0x0A] ++ rest) =
      scanner.drain
        (if (request.header.lookup contentLength).isNone then .done else .body, request) rest := by
  apply Scanner.drain_advance
  exact Piece.blank.move_eq (List.cons_ne_nil _ _)

/-- A body is looked at when there is a byte, its own or the next. -/
theorem drain_body {request : HttpRequest} {value body : Bytes}
    (hlookup : request.header.lookup contentLength = some value)
    (hsize : sizeBody value = some body.length) {rest : Bytes} (hne : body ++ rest ≠ []) :
    scanner.drain (.body, request) (body ++ rest) =
      scanner.drain (.done, bodyContext body request) rest := by
  apply Scanner.drain_advance
  exact (Piece.body hlookup hsize).move_eq hne

theorem drain_body_rejected {request : HttpRequest} {value view : Bytes}
    (hlookup : request.header.lookup contentLength = some value) (hsize : sizeBody value = none)
    (hne : view ≠ []) : scanner.drain (.body, request) view = ([], none) := by
  have hstate : (ParseState.body, request).1 ≠ .done := ParseState.noConfusion
  apply Scanner.drain_invalid
  refine (move_eq_turn hstate hne).trans ?_
  simp only [turn, bodyTurn, hlookup, hsize]

theorem drain_done (request : HttpRequest) (rest : Bytes) :
    scanner.drain (.done, request) rest =
      (request :: (scanner.drain fresh rest).1, (scanner.drain fresh rest).2) :=
  Scanner.drain_emit (move_done request rest)

theorem drain_fresh_nil : scanner.drain fresh [] = ([], some (fresh, [])) := by
  have hstate : fresh.1 ≠ .done := ParseState.noConfusion
  exact Scanner.drain_incomplete (move_nil hstate)

namespace WireRequest

variable {q : WireRequest}

/-- The lines of a request up to the blank one. -/
theorem HeadAccepted.drain_head (h : q.HeadAccepted) (rest : Bytes) :
    scanner.drain fresh (joinLines (q.line :: q.headers ++ [[]]) ++ rest) =
      scanner.drain
        (if (lengthValues q.headers).getLast?.isNone then .done else .body, q.head) rest := by
  have hwire : joinLines (q.line :: q.headers ++ [[]]) ++ rest =
      q.line ++ [0x0D, 0x0A] ++ (joinLines q.headers ++ ([0x0D, 0x0A] ++ rest)) := by simp
  rw [hwire, drain_line h.line h.method, drain_headers h.headers, drain_blank, ← q.head_lookup]
  rfl

/-- An accepted request is read back.  With a `Content-Length` of zero it takes a byte behind the
request to see that it is complete. -/
theorem Accepted.drain_wire (h : q.Accepted) {more : Bytes}
    (hmore : lengthValues q.headers = [] ∨ q.body ++ more ≠ []) :
    scanner.drain fresh (q.wire ++ more) =
      (q.request :: (scanner.drain fresh more).1, (scanner.drain fresh more).2) := by
  have hbody := h.body
  rw [wire, List.append_assoc, h.drain_head]
  cases hlast : (lengthValues q.headers).getLast? with
  | none =>
    rw [hlast] at hbody
    have hrequest : q.request = q.head := by
      rw [request, hbody, ← q.head_body]
    rw [hbody, hrequest]
    exact drain_done q.head more
  | some value =>
    rw [hlast] at hbody
    have hne : q.body ++ more ≠ [] := by
      rcases hmore with hnil | hne
      · rw [hnil] at hlast
        cases hlast
      · exact hne
    refine (drain_body (q.head_lookup.trans hlast) hbody hne).trans ?_
    exact drain_done q.request more

/-- An accepted request that is seen to be complete is the only message of its bytes. -/
theorem Accepted.drain_wire_eq (h : q.Accepted)
    (hseen : lengthValues q.headers = [] ∨ q.body ≠ []) :
    scanner.drain fresh q.wire = ([q.request], some (fresh, [])) := by
  have hmore : lengthValues q.headers = [] ∨ q.body ++ [] ≠ [] := by
    rwa [List.append_nil]
  have hwire := h.drain_wire hmore
  rwa [List.append_nil, drain_fresh_nil] at hwire

/-- Without that byte the parser waits for a body of no bytes. -/
theorem HeadAccepted.drain_wire_empty (h : q.HeadAccepted) (hlengths : lengthValues q.headers ≠ [])
    (hbody : q.body = []) : scanner.drain fresh q.wire = ([], some ((.body, q.head), [])) := by
  rw [wire, hbody, h.drain_head, List.getLast?_eq_some_getLast hlengths]
  have hstate : (ParseState.body, q.head).1 ≠ .done := ParseState.noConfusion
  exact Scanner.drain_incomplete (move_nil hstate)

end WireRequest

/-! ## §4 From the messages to the requests -/

/-- What was read since the last request was complete. -/
inductive Reads : Progress → Bytes → Prop where
  | line : Reads fresh []
  | headers {q : WireRequest} (hq : q.HeadAccepted) :
      Reads (.headers, q.head) (joinLines (q.line :: q.headers))
  | body {q : WireRequest} (hq : q.HeadAccepted) (hlengths : lengthValues q.headers ≠ []) :
      Reads (.body, q.head) (joinLines (q.line :: q.headers ++ [[]]))
  | done {q : WireRequest} (hq : q.Accepted) : Reads (.done, q.request) q.wire

/-- A piece more is read. -/
theorem Reads.append {s s' : Progress} {pending piece : Bytes} (h : Reads s pending)
    (hpiece : Piece s.1 s.2 piece s'.1 s'.2) : Reads s' (pending ++ piece) := by
  obtain ⟨state', request'⟩ := s'
  cases h with
  | line =>
    cases hpiece with
    | @line line _ hcrlf hmethod =>
      have hread := @Reads.headers ⟨line, [], []⟩ ⟨hcrlf, hmethod, by simp⟩
      rwa [joinLines_cons, joinLines_nil, List.append_nil] at hread
  | @headers q hq =>
    cases hpiece with
    | @header header _ _ hne hcrlf hcolon =>
      obtain ⟨hmem, rfl⟩ := headerContext_eq_some hcolon
      have hheaders : ∀ line ∈ q.headers ++ [header], findCrlf line = none ∧ 0x3A ∈ line :=
        List.forall_mem_append.mpr ⟨hq.headers, List.forall_mem_singleton.mpr ⟨hcrlf, hmem⟩⟩
      have hread := @Reads.headers ⟨q.line, q.headers ++ [header], []⟩
        ⟨hq.line, hq.method, hheaders⟩
      rw [WireRequest.head, List.foldl_concat, ← List.cons_append, joinLines_append] at hread
      simpa [WireRequest.head] using hread
    | blank =>
      have hlines : joinLines (q.line :: q.headers) ++ [0x0D, 0x0A] =
          joinLines (q.line :: q.headers ++ [[]]) := by simp
      rw [q.head_lookup, hlines]
      cases hlast : (lengthValues q.headers).getLast? with
      | none =>
        have hread := @Reads.done ⟨q.line, q.headers, []⟩ ⟨⟨hq.line, hq.method, hq.headers⟩, by
          simp [hlast]⟩
        rw [WireRequest.wire, List.append_nil] at hread
        have hrequest : WireRequest.request ⟨q.line, q.headers, []⟩ = q.head := by
          rw [WireRequest.request, ← q.head_body]
          rfl
        rwa [hrequest] at hread
      | some value =>
        refine Reads.body hq fun hnil => ?_
        rw [hnil] at hlast
        cases hlast
  | @body q hq hlengths =>
    cases hpiece with
    | @body _ value _ hlookup hsize =>
      have hbody : (lengthValues q.headers).getLast? = some value :=
        q.head_lookup.symm.trans hlookup
      exact @Reads.done ⟨q.line, q.headers, piece⟩ ⟨⟨hq.line, hq.method, hq.headers⟩, by
        simpa [hbody] using hsize⟩
  | done hq => cases hpiece

/-- A stream read up to where `bs` begins: accepted requests, one for each message, and what was
read of the next one. -/
def ReadUpTo (stream : Bytes) (msgs : List HttpRequest) (s : Progress) (bs : Bytes) : Prop :=
  ∃ (qs : List WireRequest) (pending : Bytes),
    stream = (qs.map (·.wire)).flatten ++ pending ++ bs ∧ Reads s pending ∧
      (∀ q ∈ qs, q.Accepted) ∧ msgs = qs.map (·.request)

theorem ReadUpTo.advance {stream bs rest : Bytes} {msgs : List HttpRequest} {s s' : Progress}
    (h : ReadUpTo stream msgs s bs) (hmove : scanner.move s bs = .advance s' rest) :
    ReadUpTo stream msgs s' rest := by
  obtain ⟨qs, pending, hstream, hreads, haccepted, hmsgs⟩ := h
  obtain ⟨piece, rfl, hpiece⟩ := piece_of_advance hmove
  refine ⟨qs, pending ++ piece, ?_, hreads.append hpiece, haccepted, hmsgs⟩
  rw [hstream]
  simp only [List.append_assoc]

theorem ReadUpTo.emit {stream bs rest : Bytes} {msgs : List HttpRequest} {msg : HttpRequest}
    {s s' : Progress} (h : ReadUpTo stream msgs s bs)
    (hmove : scanner.move s bs = .emit msg s' rest) : ReadUpTo stream (msgs ++ [msg]) s' rest := by
  obtain ⟨qs, pending, hstream, hreads, haccepted, hmsgs⟩ := h
  obtain ⟨rfl, rfl, rfl⟩ := emit_eq hmove
  cases hreads with
  | @done q hq =>
    refine ⟨qs ++ [q], [], ?_, .line, ?_, ?_⟩
    · rw [hstream, List.map_append, List.flatten_append, List.append_nil]
      simp
    · exact List.forall_mem_append.mpr ⟨haccepted, List.forall_mem_singleton.mpr hq⟩
    · rw [hmsgs, List.map_append]
      rfl

/-- Whatever a stream has drained to were accepted requests, one after another. -/
theorem readUpTo_of_drain {stream rest : Bytes} {msgs : List HttpRequest} {s : Progress}
    (h : scanner.drain fresh stream = (msgs, some (s, rest))) : ReadUpTo stream msgs s rest := by
  have hstart : ReadUpTo stream [] fresh stream := ⟨[], [], rfl, .line, by simp, rfl⟩
  exact Scanner.drain_invariant (fun _ _ _ _ _ h hmove => h.advance hmove)
    (fun _ _ _ _ _ _ h hmove => h.emit hmove) hstart h

end EchoNet.Http
