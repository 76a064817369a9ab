import EchoNet.Http.Grammar

/-!
# When a Request Is Seen to Be Complete

`parse` is called after each chunk of a well-formed request.  It asks for more until the last
chunk and reports the request then, except when the request ends with the blank line and has a
`Content-Length`: the loop is over before it has looked at the state in which a length of zero
completes the request.

## Main results

- `parseChunks_waiting`: as long as the stream emits nothing, every call asks for more;
- `parse_ok_of_drain`: the call that completes the only request reports it;
- `completion_iff`, `completion_contentLength_zero`.
-/

namespace EchoNet.Http

open EchoNet.Lib EchoNet.Net

/-! ## §1 One call for each chunk -/

/-- `parse` after each chunk; the results, the protocol and the buffer. -/
def parseChunks (p : HttpProtocol) (buffer : Buffer) :
    List Bytes → List ParseResult × HttpProtocol × Buffer
  | [] => ([], p, buffer)
  | chunk :: chunks =>
    let (result, p', buffer') := p.parse (buffer.receive chunk)
    let (results, last) := parseChunks p' buffer' chunks
    (result :: results, last)

theorem parseChunks_cons (p : HttpProtocol) (buffer : Buffer) (chunk : Bytes)
    (chunks : List Bytes) :
    parseChunks p buffer (chunk :: chunks) =
      ((p.parse (buffer.receive chunk)).1 ::
          (parseChunks (p.parse (buffer.receive chunk)).2.1 (p.parse (buffer.receive chunk)).2.2
            chunks).1,
        (parseChunks (p.parse (buffer.receive chunk)).2.1 (p.parse (buffer.receive chunk)).2.2
          chunks).2) := rfl

theorem parseChunks_append (p : HttpProtocol) (buffer : Buffer) (chunks more : List Bytes) :
    parseChunks p buffer (chunks ++ more) =
      ((parseChunks p buffer chunks).1 ++
          (parseChunks (parseChunks p buffer chunks).2.1 (parseChunks p buffer chunks).2.2 more).1,
        (parseChunks (parseChunks p buffer chunks).2.1 (parseChunks p buffer chunks).2.2
          more).2) := by
  induction chunks generalizing p buffer with
  | nil => rfl
  | cons chunk chunks ih =>
    rw [List.cons_append, parseChunks_cons, ih]
    rfl

/-- The call asks for more when the scanner does. -/
theorem parse_needMore_of_drain {p : HttpProtocol} (hp : p.progress.1 ≠ .done) {buffer : Buffer}
    {s : Progress} {rest : Bytes}
    (h : scanner.drain p.progress buffer.readable = ([], some (s, rest))) :
    (p.parse buffer).1 = .needMore ∧ (p.parse buffer).2.1.progress = s ∧
      (p.parse buffer).2.2.readable = rest := by
  have hspec := HttpProtocol.parse_spec hp buffer
  generalize hparse : p.parse buffer = out at hspec ⊢
  cases hspec with
  | @ok request buffer' hdrain =>
    rw [h, drain_done] at hdrain
    cases hdrain
  | needMore hs hdrain =>
    rw [h] at hdrain
    cases hdrain
    exact ⟨rfl, rfl, rfl⟩
  | error hdrain =>
    rw [h] at hdrain
    cases hdrain

/-- As long as a stream emits nothing, every call asks for more. -/
theorem parseChunks_waiting {p : HttpProtocol} {buffer : Buffer} {chunks : List Bytes}
    {s : Progress} {rest : Bytes} (hwait : move p.progress buffer.readable = .incomplete)
    (h : scanner.drain p.progress (buffer.readable ++ chunks.flatten) = ([], some (s, rest))) :
    (parseChunks p buffer chunks).1 = List.replicate chunks.length .needMore ∧
      (parseChunks p buffer chunks).2.1.progress = s ∧
      (parseChunks p buffer chunks).2.2.readable = rest := by
  induction chunks generalizing p buffer with
  | nil =>
    rw [List.flatten_nil, List.append_nil, Scanner.drain_incomplete hwait] at h
    cases h
    exact ⟨rfl, rfl, rfl⟩
  | cons chunk chunks ih =>
    rw [List.flatten_cons, ← List.append_assoc, Scanner.drain_append, Prod.mk.injEq,
      List.append_eq_nil_iff] at h
    obtain ⟨⟨hfirst, hothers⟩, hlast⟩ := h
    cases hnext : (scanner.drain p.progress (buffer.readable ++ chunk)).2 with
    -- an error would be the end of the stream
    | none =>
      rw [hnext] at hlast
      cases hlast
    | some next =>
      have hdrain : scanner.drain p.progress (buffer.receive chunk).readable =
          ([], some (next.1, next.2)) := by
        rw [Buffer.readable_receive]
        exact Prod.ext hfirst hnext
      obtain ⟨hresult, hprogress, hreadable⟩ :=
        parse_needMore_of_drain (not_done_of_incomplete hwait) hdrain
      rw [hnext] at hothers hlast
      have hwait' : move (p.parse (buffer.receive chunk)).2.1.progress
          (p.parse (buffer.receive chunk)).2.2.readable = .incomplete := by
        rw [hprogress, hreadable]
        exact Scanner.move_of_drain hdrain
      have hrest : scanner.drain (p.parse (buffer.receive chunk)).2.1.progress
          ((p.parse (buffer.receive chunk)).2.2.readable ++ chunks.flatten) =
            ([], some (s, rest)) := by
        rw [hprogress, hreadable]
        exact Prod.ext hothers hlast
      obtain ⟨hresults, hend⟩ := ih hwait' hrest
      refine ⟨?_, hend⟩
      rw [List.length_cons, List.replicate_succ, parseChunks_cons, ← hresults, ← hresult]

/-! ## §2 The last chunk -/

theorem Piece.not_requestLine {state state' : ParseState} {request request' : HttpRequest}
    {piece : Bytes} (h : Piece state request piece state' request') : state' ≠ .requestLine := by
  cases h with
  | line => exact ParseState.noConfusion
  | header => exact ParseState.noConfusion
  | blank => split_ifs <;> exact ParseState.noConfusion
  | body => exact ParseState.noConfusion

/-- Only behind a message is the scanner back at a request line. -/
theorem eq_fresh_of_drain {s : Progress} {bs rest : Bytes}
    (h : scanner.drain s bs = ([], some (fresh, rest))) : s = fresh ∧ rest = bs := by
  induction s, bs using scanner.drain_induction with
  | advance s bs s' tail hmove ih =>
    rw [Scanner.drain_advance hmove] at h
    obtain ⟨piece, -, hpiece⟩ := piece_of_advance hmove
    exact absurd (congrArg Prod.fst (ih h).1) hpiece.not_requestLine
  | emit s bs msg s' tail hmove ih =>
    rw [Scanner.drain_emit hmove] at h
    cases h
  | incomplete s bs hmove =>
    rw [Scanner.drain_incomplete hmove] at h
    cases h
    exact ⟨rfl, rfl⟩
  | invalid s bs hmove =>
    rw [Scanner.drain_invalid hmove] at h
    cases h

/-- The call that completes the only request reports it. -/
theorem parse_ok_of_drain {p : HttpProtocol} (hp : p.progress.1 ≠ .done) {buffer : Buffer}
    {msg : HttpRequest} {rest : Bytes}
    (h : scanner.drain p.progress buffer.readable = ([msg], some (fresh, rest))) :
    (p.parse buffer).1 = .ok ∧ (p.parse buffer).2.1.getMessage = msg ∧
      (p.parse buffer).2.2.readable = rest := by
  have hspec := HttpProtocol.parse_spec hp buffer
  generalize hparse : p.parse buffer = out at hspec ⊢
  cases hspec with
  | @ok request buffer' hdrain =>
    rw [h, drain_done, Prod.mk.injEq, List.cons.injEq] at hdrain
    obtain ⟨⟨hmsg, hnil⟩, hlast⟩ := hdrain
    exact ⟨rfl, hmsg.symm, (eq_fresh_of_drain (Prod.ext hnil.symm hlast.symm)).2.symm⟩
  | needMore hs hdrain =>
    rw [h] at hdrain
    cases hdrain
  | error hdrain =>
    rw [h] at hdrain
    cases hdrain

/-- A stream that ends with its only message has not emitted it before its last byte. -/
theorem drain_before_last {s : Progress} {bs last : Bytes} {msg : HttpRequest}
    (hlast : last ≠ []) (h : scanner.drain s (bs ++ last) = ([msg], some (fresh, []))) :
    ∃ s' rest, scanner.drain s bs = ([], some (s', rest)) ∧
      scanner.drain s' (rest ++ last) = ([msg], some (fresh, [])) := by
  rw [Scanner.drain_append, Prod.mk.injEq] at h
  obtain ⟨hmsgs, hend⟩ := h
  cases hnext : (scanner.drain s bs).2 with
  | none =>
    rw [hnext] at hend
    cases hend
  | some next =>
    obtain ⟨s', rest⟩ := next
    rw [hnext] at hmsgs hend
    rcases List.append_eq_singleton_iff.mp hmsgs with ⟨hnil, hmsg⟩ | ⟨-, hnil⟩
    · exact ⟨s', rest, Prod.ext hnil hnext, Prod.ext hmsg hend⟩
    -- the message came before: nothing could be left for the last bytes
    · obtain ⟨-, hrest⟩ := eq_fresh_of_drain (Prod.ext hnil hend)
      exact absurd (List.append_eq_nil_iff.mp hrest.symm).2 hlast

/-! ## §3 Well-formed requests -/

/-- A well-formed request is seen to be complete with its last byte if and only if it has no
`Content-Length` or a body: `parse`, called for each chunk, asks for more up to the last one, and
then reports the request with its body and leaves no byte unread. -/
theorem completion_iff {q : WireRequest} (hq : q.WellFormed) (p : HttpProtocol) {buffer : Buffer}
    (hbuffer : buffer.readable = []) {chunks : List Bytes} {last : Bytes} (hlast : last ≠ [])
    (hcut : chunks.flatten ++ last = q.wire) :
    ((parseChunks p.reset buffer (chunks ++ [last])).1 =
        List.replicate chunks.length .needMore ++ [.ok] ∧
      (parseChunks p.reset buffer (chunks ++ [last])).2.1.getMessage.body = q.body ∧
      (parseChunks p.reset buffer (chunks ++ [last])).2.2.readable = []) ↔
    lengthValues q.headers = [] ∨ q.body ≠ [] := by
  have hfresh : p.reset.progress.1 ≠ .done := ParseState.noConfusion
  have hwait : move p.reset.progress buffer.readable = .incomplete := by
    rw [hbuffer]
    exact move_nil hfresh
  apply Iff.intro
  · rintro ⟨hresults, -, -⟩
    by_contra hempty
    rw [not_or, not_not] at hempty
    -- the stream emits nothing, so the last call asks for more as well
    have hdrain : scanner.drain p.reset.progress
        (buffer.readable ++ (chunks ++ [last]).flatten) = ([], some ((.body, q.head), [])) := by
      rw [hbuffer, List.nil_append, List.flatten_concat, hcut]
      exact hq.accepted.drain_wire_empty hempty.1 hempty.2
    have hmore := (parseChunks_waiting hwait hdrain).1
    rw [hresults, List.length_append, List.length_singleton, List.replicate_succ',
      List.append_cancel_left_eq] at hmore
    cases hmore
  · intro hlengths
    have hdrain : scanner.drain fresh (chunks.flatten ++ last) =
        ([q.request], some (fresh, [])) := by
      rw [hcut]
      exact hq.accepted.drain_wire_eq hlengths
    obtain ⟨s, rest, hbefore, hafter⟩ := drain_before_last hlast hdrain
    have hchunks : scanner.drain p.reset.progress (buffer.readable ++ chunks.flatten) =
        ([], some (s, rest)) := by
      rw [hbuffer]
      exact hbefore
    obtain ⟨hresults, hprogress, hreadable⟩ := parseChunks_waiting hwait hchunks
    have hstate : s.1 ≠ .done := not_done_of_incomplete (Scanner.move_of_drain hbefore)
    rw [parseChunks_append]
    generalize parseChunks p.reset buffer chunks = out at hresults hprogress hreadable ⊢
    obtain ⟨results, p', buffer'⟩ := out
    subst hprogress hreadable
    rw [← Buffer.readable_receive] at hafter
    obtain ⟨hok, hmsg, hnil⟩ := parse_ok_of_drain hstate hafter
    refine ⟨?_, ?_, hnil⟩
    · rw [hresults]
      exact congrArg (_ ++ [·]) hok
    · exact congrArg HttpRequest.body hmsg

/-- A body that comes in two chunks. -/
theorem completion_iff_twoChunks :
    (parseChunks HttpProtocol.create.reset Buffer.create
        ([ascii "POST / HTTP/1.1\r\nContent-Length: 2\r\n\r\nh"] ++ [ascii "i"])).1 =
      List.replicate 1 .needMore ++ [.ok] :=
  ((@completion_iff ⟨ascii "POST / HTTP/1.1", [ascii "Content-Length: 2"], ascii "hi"⟩
    ⟨by decide +kernel, by decide +kernel, by decide +kernel, .inr ⟨ascii "2", by decide +kernel⟩⟩
    HttpProtocol.create Buffer.create rfl [ascii "POST / HTTP/1.1\r\nContent-Length: 2\r\n\r\nh"]
    (ascii "i") (by decide) (by decide +kernel)).mpr (by decide)).1

/-- A complete request, and the parser asks for more. -/
theorem completion_contentLength_zero :
    let q : WireRequest := ⟨ascii "POST / HTTP/1.1", [ascii "Content-Length: 0"], []⟩
    q.WellFormed ∧
      (parseChunks HttpProtocol.create.reset Buffer.create [q.wire]).1 = [.needMore] :=
  ⟨⟨by decide +kernel, by decide +kernel, by decide +kernel, .inr ⟨ascii "0", by decide +kernel⟩⟩,
    by decide +kernel⟩

end EchoNet.Http
