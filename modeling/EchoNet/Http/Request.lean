import EchoNet.Lib.Text
import EchoNet.Net.Buffer
import Mathlib.Data.List.AList

/-!
# HTTP Requests

`HttpContext` (src/HTTP/HttpContext.cpp) and `HttpProtocol` (src/Protocol/HttpProtocol.cpp) with
the data of include/HTTP/HTTP.h.

The parser keeps its state and the half-built request between calls.  It consumes whole lines, and
a body only when all of it has arrived; the read pointer of the buffer moves once, behind the loop,
which the error exits do not come to.
-/

namespace EchoNet.Http

open EchoNet.Lib EchoNet.Net

/-! ## §1 Messages -/

/-- `enum class Method`. -/
inductive Method where
  | get | post | unknown
  deriving DecidableEq, Repr

/-- `enum class Version`. -/
inductive Version where
  | http10 | http11 | unknown
  deriving DecidableEq, Repr

/-- `struct HttpRequest`. -/
structure HttpRequest where
  method : Method
  path : Bytes
  version : Version
  header : AList fun _ : Bytes => Bytes
  body : Bytes
  deriving DecidableEq

/-- `HttpRequest()`. -/
def HttpRequest.empty : HttpRequest := ⟨.unknown, [], .unknown, ∅, []⟩

/-- `struct HttpResponse`. -/
structure HttpResponse where
  version : Version
  statusCode : Int
  statusMsg : Bytes
  header : AList fun _ : Bytes => Bytes
  body : Bytes
  deriving DecidableEq

/-- `enum class ParseResult`. -/
inductive ParseResult where
  | ok | needMore | error
  deriving DecidableEq, Repr

/-! ## §2 The parts of a request -/

/-- `lineContext`: the request line as far as it could be read, and whether its method is known. -/
def lineContext (line : Bytes) (request : HttpRequest) : HttpRequest × Bool :=
  let (method, tail) := nextWord line
  let (path, tail) := nextWord tail
  let (version, _) := nextWord tail
  let method :=
    if method = ascii "GET" then Method.get
    else if method = ascii "POST" then .post
    else .unknown
  let version :=
    if version = ascii "HTTP/1.1" then Version.http11
    else if version = ascii "HTTP/1.0" then .http10
    else .unknown
  ({ request with method := method, path := path, version := version }, method ≠ .unknown)

/-- `headerContext`: `none` when there is no colon. -/
def headerContext (header : Bytes) (request : HttpRequest) : Option HttpRequest :=
  (splitFirst 0x3A header).map fun (key, value) =>
    { request with header := request.header.insert key (value.dropWhile (· = 0x20)) }

/-- `bodyContext`. -/
def bodyContext (body : Bytes) (request : HttpRequest) : HttpRequest :=
  { request with body := body }

/-- `"Content-Length"`. -/
def contentLength : Bytes := ascii "Content-Length"

/-- `MAX_HTTP_BODY_SIZE`. -/
def maxHttpBodySize : Nat := 1024 * 1024

/-- The checks on the value of `Content-Length`, and `size_body` if it passes them. -/
def sizeBody (lenStr : Bytes) : Option Nat :=
  if lenStr.isEmpty || !lenStr.all isDigit then none
  else
    match stoul lenStr with
    | none => none
    | some n => if maxHttpBodySize < n.toNat then none else some n.toNat

/-! ## §3 The state machine -/

/-- `HttpContext::ParseState`. -/
inductive ParseState where
  | requestLine | headers | body | done
  deriving DecidableEq, Repr

/-- What a turn of the loop in `HttpContext::parse` does with the bytes that are not consumed: it
consumes some of them and goes on, it breaks, or it reports an error. -/
inductive Turn where
  | consume (n : Nat) (state : ParseState) (request : HttpRequest)
  | stop
  | error (request : HttpRequest)
  deriving DecidableEq

def lineTurn (request : HttpRequest) (view : Bytes) : Turn :=
  match findCrlf view with
  | none => .stop
  | some pos =>
    match lineContext (view.take pos) request with
    | (request, true) => .consume (pos + 2) .headers request
    | (request, false) => .error request

def headerTurn (request : HttpRequest) (view : Bytes) : Turn :=
  match findCrlf view with
  | none => .stop
  | some pos =>
    if pos = 0 then
      .consume 2 (if (request.header.lookup contentLength).isNone then .done else .body) request
    else
      match headerContext (view.take pos) request with
      | none => .error request
      | some request => .consume (pos + 2) .headers request

def bodyTurn (request : HttpRequest) (view : Bytes) : Turn :=
  match request.header.lookup contentLength with
  | none => .error request
  | some lenStr =>
    match sizeBody lenStr with
    | none => .error request
    | some n =>
      if n = 0 then .consume 0 .done (bodyContext [] request)
      else if view.length < n then .stop
      else .consume n .done (bodyContext (view.take n) request)

def turn : ParseState → HttpRequest → Bytes → Turn
  | .requestLine => lineTurn
  | .headers => headerTurn
  | .body => bodyTurn
  | .done => fun _ _ => .stop

/-- How far a state is from the next request line, in turns that may consume nothing. -/
def ParseState.weight : ParseState → Nat
  | .requestLine => 0
  | .headers => 0
  | .body => 2
  | .done => 1

/-- The pieces of a stream that a turn consumes. -/
inductive Piece : ParseState → HttpRequest → Bytes → ParseState → HttpRequest → Prop where
  | line {line : Bytes} {request : HttpRequest} (hcrlf : findCrlf line = none)
      (hmethod : (lineContext line request).2 = true) :
      Piece .requestLine request (line ++ [0x0D, 0x0A]) .headers (lineContext line request).1
  | header {header : Bytes} {request request' : HttpRequest} (hne : header ≠ [])
      (hcrlf : findCrlf header = none) (hcolon : headerContext header request = some request') :
      Piece .headers request (header ++ [0x0D, 0x0A]) .headers request'
  | blank {request : HttpRequest} :
      Piece .headers request [0x0D, 0x0A]
        (if (request.header.lookup contentLength).isNone then .done else .body) request
  | body {request : HttpRequest} {lenStr body : Bytes}
      (hlength : request.header.lookup contentLength = some lenStr)
      (hsize : sizeBody lenStr = some body.length) :
      Piece .body request body .done (bodyContext body request)

theorem Piece.weight {state state' : ParseState} {request request' : HttpRequest} {piece : Bytes}
    (h : Piece state request piece state' request') :
    state'.weight < state.weight + 3 * piece.length := by
  cases h with
  | line => simp only [ParseState.weight, List.length_append, List.length_cons]; omega
  | header => simp only [ParseState.weight, List.length_append, List.length_cons]; omega
  | blank => split_ifs <;> decide
  | body => simp only [ParseState.weight]; omega

/-- A turn consumes a piece in front of anything. -/
theorem Piece.turn_eq {state state' : ParseState} {request request' : HttpRequest} {piece : Bytes}
    (h : Piece state request piece state' request') (rest : Bytes) :
    turn state request (piece ++ rest) = .consume piece.length state' request' := by
  cases h with
  | @line line _ hcrlf hmethod =>
    have hfind := findCrlf_append hcrlf rest
    simp only [turn, lineTurn, List.append_assoc, List.cons_append, List.nil_append, hfind,
      List.take_left, List.length_append]
    split
    next r heq => rw [heq]; rfl
    next r heq => rw [heq] at hmethod; cases hmethod
  | @header header _ _ hne hcrlf hcolon =>
    have hfind := findCrlf_append hcrlf rest
    simp only [turn, headerTurn, List.append_assoc, List.cons_append, List.nil_append, hfind,
      List.take_left, List.length_append, hcolon, List.length_eq_zero_iff, hne, if_false]
    rfl
  | blank => rfl
  | @body _ _ _ hlength hsize =>
    simp only [turn, bodyTurn, hlength, hsize]
    split_ifs with hzero hshort
    · rw [List.length_eq_zero_iff] at hzero
      rw [hzero]
      rfl
    · rw [List.length_append] at hshort
      omega
    · rw [List.take_left]

/-- What a turn consumes is a piece. -/
theorem piece_of_turn {state state' : ParseState} {request request' : HttpRequest} {view : Bytes}
    {n : Nat} (h : turn state request view = .consume n state' request') :
    ∃ piece rest, view = piece ++ rest ∧ piece.length = n ∧
      Piece state request piece state' request' := by
  cases state with
  | requestLine =>
    simp only [turn, lineTurn] at h
    split at h
    next => cases h
    next pos hpos =>
      obtain ⟨line, rest, rfl, rfl, hcrlf⟩ := exists_line_of_findCrlf hpos
      rw [List.append_assoc, List.take_left] at h
      split at h
      next r heq =>
        cases h
        have hline := Piece.line hcrlf (congrArg Prod.snd heq)
        rw [heq] at hline
        exact ⟨line ++ [0x0D, 0x0A], rest, rfl, List.length_append, hline⟩
      next => cases h
  | headers =>
    simp only [turn, headerTurn] at h
    split at h
    next => cases h
    next pos hpos =>
      obtain ⟨line, rest, rfl, rfl, hcrlf⟩ := exists_line_of_findCrlf hpos
      rw [List.append_assoc, List.take_left] at h
      by_cases hzero : line.length = 0
      · rw [if_pos hzero] at h
        cases h
        rw [List.eq_nil_of_length_eq_zero hzero]
        exact ⟨[0x0D, 0x0A], rest, rfl, rfl, .blank⟩
      · rw [if_neg hzero] at h
        split at h
        next => cases h
        next r heq =>
          cases h
          have hne : line ≠ [] := fun hnil => hzero (congrArg List.length hnil)
          exact ⟨line ++ [0x0D, 0x0A], rest, rfl, List.length_append, .header hne hcrlf heq⟩
  | body =>
    simp only [turn, bodyTurn] at h
    cases hlookup : request.header.lookup contentLength with
    | none => simp [hlookup] at h
    | some lenStr =>
      cases hsize : sizeBody lenStr with
      | none => simp [hlookup, hsize] at h
      | some m =>
        simp only [hlookup, hsize] at h
        split_ifs at h with hzero hshort
        · cases h
          exact ⟨[], view, rfl, rfl, .body hlookup (hsize.trans (congrArg some hzero))⟩
        · cases h
          have hlength : (view.take n).length = n := by
            rw [List.length_take]
            omega
          exact ⟨view.take n, view.drop n, (List.take_append_drop n view).symm, hlength,
            .body hlookup (hsize.trans (congrArg some hlength.symm))⟩
  | done => cases h

/-- A turn that goes on consumes bytes that are there, or comes closer to the end of the
request. -/
theorem turn_consume {state state' : ParseState} {request request' : HttpRequest} {view : Bytes}
    {n : Nat} (h : turn state request view = .consume n state' request') :
    n ≤ view.length ∧ state'.weight < state.weight + 3 * n := by
  obtain ⟨piece, rest, rfl, rfl, hpiece⟩ := piece_of_turn h
  refine ⟨?_, hpiece.weight⟩
  rw [List.length_append]
  exact Nat.le_add_right _ _

/-- An error stays an error when more arrives. -/
theorem turn_error_append {state : ParseState} {request request' : HttpRequest} {view : Bytes}
    (h : turn state request view = .error request') (more : Bytes) :
    turn state request (view ++ more) = .error request' := by
  cases state with
  | requestLine =>
    simp only [turn, lineTurn] at h ⊢
    split at h
    next => cases h
    next pos hpos =>
      have hle := add_two_le_of_findCrlf hpos
      have htake : (view ++ more).take pos = view.take pos :=
        List.take_append_of_le_length (by omega)
      simp only [findCrlf_append_of_some hpos, htake]
      exact h
  | headers =>
    simp only [turn, headerTurn] at h ⊢
    split at h
    next => cases h
    next pos hpos =>
      have hle := add_two_le_of_findCrlf hpos
      have htake : (view ++ more).take pos = view.take pos :=
        List.take_append_of_le_length (by omega)
      simp only [findCrlf_append_of_some hpos, htake]
      exact h
  | body =>
    simp only [turn, bodyTurn] at h ⊢
    cases hlookup : request.header.lookup contentLength with
    | none => simpa [hlookup] using h
    | some lenStr =>
      cases hsize : sizeBody lenStr with
      | none => simpa [hlookup, hsize] using h
      | some m =>
        simp only [hlookup, hsize] at h
        split_ifs at h
  | done => cases h

/-- Where the loop ends. -/
structure Scan where
  consumed : Nat
  state : ParseState
  request : HttpRequest
  failed : Bool
  deriving DecidableEq

/-- The loop of `HttpContext::parse`. -/
def scan (data : Bytes) (consumed : Nat) (state : ParseState) (request : HttpRequest) : Scan :=
  if consumed < data.length then
    match h : turn state request (data.drop consumed) with
    | .consume n state' request' =>
      have := turn_consume h
      scan data (consumed + n) state' request'
    | .stop => ⟨consumed, state, request, false⟩
    | .error request' => ⟨consumed, state, request', true⟩
  else ⟨consumed, state, request, false⟩
termination_by 3 * (data.length - consumed) + state.weight
decreasing_by
  rw [List.length_drop] at this
  omega

theorem scan_consumed_le {data : Bytes} {consumed : Nat} (state : ParseState)
    (request : HttpRequest) (h : consumed ≤ data.length) :
    (scan data consumed state request).consumed ≤ data.length := by
  fun_induction scan data consumed state request with
  | case1 consumed state request hlt n state' request' hturn hconsume ih =>
    have hle := hconsume.1
    rw [List.length_drop] at hle
    exact ih (by omega)
  | case2 => exact h
  | case3 => exact h
  | case4 => exact h

/-- `struct HttpContext`. -/
structure HttpContext where
  parsestate : ParseState
  isError : Bool
  deriving DecidableEq

/-- `HttpContext::parse`. -/
def HttpContext.parse (context : HttpContext) (buffer : Buffer) (request : HttpRequest) :
    ParseResult × HttpContext × Buffer × HttpRequest :=
  let context := { context with isError := false }
  if buffer.getreadable = 0 then (.needMore, context, buffer, request)
  else
    let out := scan (buffer.peek buffer.getreadable) 0 context.parsestate request
    -- the error exits return from inside of the loop
    if out.failed then (.error, ⟨out.state, true⟩, buffer, out.request)
    else
      have hle : out.consumed ≤ buffer.getreadable :=
        (scan_consumed_le _ _ (Nat.zero_le _)).trans_eq buffer.length_peek
      let buffer := if 0 < out.consumed then buffer.moveReadPtr out.consumed hle else buffer
      (if out.state = .done then .ok else .needMore, ⟨out.state, false⟩, buffer, out.request)

/-! ## §4 The protocol -/

/-- `class HttpProtocol`. -/
structure HttpProtocol where
  httpcontext : HttpContext
  httprequest : HttpRequest
  errorResponse : HttpResponse
  hasError : Bool
  deriving DecidableEq

namespace HttpProtocol

/-- A new `HttpProtocol`.  The status code is not initialized; nobody reads it before an error
sets it. -/
def create : HttpProtocol where
  httpcontext := ⟨.requestLine, false⟩
  httprequest := .empty
  errorResponse := ⟨.unknown, 0, [], ∅, []⟩
  hasError := false

/-- The response that `parse` builds after an error. -/
def badRequest (response : HttpResponse) : HttpResponse where
  version := .http11
  statusCode := 400
  statusMsg := ascii "Bad Request"
  header := (response.header.insert contentLength (ascii "0")).insert (ascii "Connection")
    (ascii "keep-alive")
  body := []

/-- `HttpProtocol::parse`. -/
def parse (p : HttpProtocol) (buffer : Buffer) : ParseResult × HttpProtocol × Buffer :=
  let (result, context, buffer, request) := p.httpcontext.parse buffer p.httprequest
  let p := { p with httpcontext := context, httprequest := request }
  match result with
  | .error =>
    (.error, { p with errorResponse := badRequest p.errorResponse, hasError := true }, buffer)
  | result => (result, p, buffer)

/-- `HttpProtocol::reset`. -/
def reset (p : HttpProtocol) : HttpProtocol :=
  { p with httprequest := .empty, httpcontext := ⟨.requestLine, false⟩, hasError := false }

/-- `HttpProtocol::getMessage`. -/
def getMessage (p : HttpProtocol) : HttpRequest := p.httprequest

/-- `HttpProtocol::getErrorResponse`. -/
def getErrorResponse (p : HttpProtocol) : Option HttpResponse :=
  if p.hasError then some p.errorResponse else none

end HttpProtocol

end EchoNet.Http
