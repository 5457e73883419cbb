import NeuStack.HttpSegmentation

/-! # What the request parser produces

Whatever pieces a request parser was fed, what it has read is what it would have read of a
well-formed request (`HttpRequestParser.Reads`); so a request that is complete is the request of
some `WireRequest` (`HttpRequestParser.received_wire`).
-/
namespace NeuStack
open HttpParser (cutLine parseHeaders contentLengthOf)

namespace RequestHead

/-- With more header lines. -/
def more (fields : List HeaderField) (h : RequestHead) : RequestHead :=
  { h with fields := h.fields ++ fields }

theorem request_more (fields : List HeaderField) (h : RequestHead) :
    (h.more fields).request =
      { h.request with headers := HeaderField.collect h.request.headers fields } := by
  rw [request, more, request, HeaderField.collect, List.foldl_append]
  rfl

/-- With the body that the headers ask for. -/
def withBody (h : RequestHead) (body : Bytes)
    (hlength : body.length = contentLengthOf h.request.headers 0) : WireRequest :=
  { h with body, body_length := hlength }

theorem request_withBody (h : RequestHead) (body : Bytes)
    (hlength : body.length = contentLengthOf h.request.headers 0) :
    (h.withBody body hlength).request = { h.request with body } := rfl

theorem body_request (h : RequestHead) : h.request.body = [] :=
  (HttpRequestParser.splitPathQuery_kept _ _).2

/-- Without header lines it is what the request line says. -/
theorem request_line (h : RequestHead) (hfields : h.fields = []) : h.request =
    { HttpRequestParser.splitPathQuery h.uri { method := .parse h.method } with
      version := h.version } := by
  have hheaders :
      (HttpRequestParser.splitPathQuery h.uri { method := .parse h.method }).headers = [] :=
    (HttpRequestParser.splitPathQuery_kept _ _).1
  rw [request, hfields]
  generalize HttpRequestParser.splitPathQuery _ _ = r at hheaders ⊢
  obtain ⟨method, path, version, rawQuery, queryParams, headers, body⟩ := r
  cases hheaders
  rfl

end RequestHead

namespace HttpRequestParser
variable {p q : HttpRequestParser}

/-- **What a parser has read**, by its state. -/
def Reads (p : HttpRequestParser) : Prop :=
  match p.state with
  | .firstLine => p.request = {} ∧ p.contentLength = 0
  | .headers => p.contentLength = 0 ∧ ∃ h : RequestHead, p.request = h.request
  | .body => ∃ h : RequestHead, p.request = h.request ∧
      p.contentLength = contentLengthOf h.request.headers 0
  | .complete => ∃ r : WireRequest, p.request = r.request
  | .error => True

theorem reads_start : Reads {} := ⟨rfl, rfl⟩

/-- What the words of a request line are. -/
theorem requestLine_eq_some {line method uri version : Bytes}
    (h : requestLine line = some (method, uri, version)) :
    line = method ++ 32 :: (uri ++ 32 :: version) ∧ 32 ∉ method ∧ 32 ∉ uri := by
  rw [requestLine] at h
  cases hmethod : Delimited.cutAt 32 line with
  | none =>
    rw [hmethod] at h
    cases h
  | some first =>
    obtain ⟨method', rest⟩ := first
    rw [hmethod] at h
    dsimp only at h
    cases huri : Delimited.cutAt 32 rest with
    | none =>
      rw [huri] at h
      cases h
    | some second =>
      rw [huri] at h
      cases h
      obtain ⟨rfl, hword⟩ := Delimited.cutAt_eq_some hmethod
      obtain ⟨rfl, hword'⟩ := Delimited.cutAt_eq_some huri
      exact ⟨rfl, hword, hword'⟩

theorem reads_firstLine (hstate : p.state = .firstLine) (hreads : Reads p)
    (h : p.parseRequestLine = some q) : Reads q := by
  rw [Reads, hstate] at hreads
  obtain ⟨hrequest, hlength⟩ := hreads
  rw [parseRequestLine] at h
  cases hcut : cutLine p.buffer with
  | none =>
    rw [hcut] at h
    cases h
  | some cut =>
    obtain ⟨line, rest⟩ := cut
    rw [hcut] at h
    dsimp only at h
    cases hline : requestLine line with
    | none =>
      rw [hline] at h
      cases h
      trivial
    | some parts =>
      obtain ⟨method, uri, version⟩ := parts
      obtain ⟨rfl, hmethod, huri⟩ := requestLine_eq_some hline
      rw [hline] at h
      cases h
      refine ⟨hlength, ⟨method, uri, version, [], hmethod, huri, Delimited.cutPair_before hcut⟩, ?_⟩
      rw [RequestHead.request_line _ rfl, hrequest]

/-- Behind the header lines the parser waits for the body, or has got it. -/
theorem reads_endHeaders (h : RequestHead) (rest : Bytes) {p : HttpParser}
    (hlength : p.contentLength = 0) :
    Reads ⟨HttpParser.endHeaders h.request.headers { p with buffer := rest }, h.request⟩ := by
  rw [Reads, HttpParser.endHeaders]
  dsimp only
  rw [hlength]
  by_cases hpos : 0 < contentLengthOf h.request.headers 0
  · rw [if_pos hpos]
    exact ⟨h, rfl, rfl⟩
  · rw [if_neg hpos]
    refine ⟨h.withBody [] (Nat.eq_zero_of_not_pos hpos).symm, ?_⟩
    rw [h.request_withBody, ← h.body_request]

theorem reads_headers (hstate : p.state = .headers) (hreads : Reads p) : Reads p.feedRound.2 := by
  rw [Reads, hstate] at hreads
  obtain ⟨hlength, h, hrequest⟩ := hreads
  have hread : HttpParser.HeadersRead p.request.headers p.toHttpParser
      (parseHeaders (p.buffer.length + 1) p.request.headers p.toHttpParser) :=
    HttpParser.parseHeaders_read (Nat.lt_succ_self _)
  rw [feedRound, hstate]
  dsimp only
  generalize parseHeaders (p.buffer.length + 1) p.request.headers p.toHttpParser = result at hread ⊢
  rw [hrequest] at hread ⊢
  cases hread with
  | waits fields rest =>
    -- the lines that were complete are headers already
    dsimp only
    rw [← h.request_more fields, Reads]
    dsimp only
    rw [hstate]
    exact ⟨hlength, h.more fields, rfl⟩
  | ends fields rest =>
    have hends := reads_endHeaders (h.more fields) rest hlength
    rw [h.request_more] at hends
    exact hends
  | fails => trivial

theorem reads_body (hstate : p.state = .body) (hreads : Reads p) : Reads p.feedRound.2 := by
  have hbefore := hreads
  rw [Reads, hstate] at hreads
  obtain ⟨h, hrequest, hlength⟩ := hreads
  rw [feedRound, hstate]
  dsimp only
  rw [HttpParser.parseBody]
  by_cases henough : p.contentLength ≤ p.buffer.length
  · rw [if_pos henough]
    refine ⟨h.withBody (p.buffer.take p.contentLength) ?_, ?_⟩
    · rw [List.length_take, Nat.min_eq_left henough, hlength]
    · rw [h.request_withBody, ← hrequest]
  · rw [if_neg henough]
    exact hbefore

/-- **A round keeps what was read.** -/
theorem reads_round (hreads : Reads p) : Reads p.feedRound.2 := by
  cases hstate : p.state with
  | firstLine =>
    rw [feedRound, hstate]
    dsimp only
    cases hparse : p.parseRequestLine with
    | none => exact hreads
    | some q => exact reads_firstLine hstate hreads hparse
  | headers => exact reads_headers hstate hreads
  | body => exact reads_body hstate hreads
  | complete | error =>
    rw [feedRound, hstate]
    exact hreads

theorem reads_feed (data : Bytes) (hreads : Reads p) : Reads (p.feed data) := by
  rw [feed]
  split
  · exact hreads
  · dsimp only
    split
    · trivial
    · exact Rounds.run_invariant (fun _ h => reads_round h) 4 hreads

theorem reads_received (pieces : List Bytes) : Reads (received pieces) := by
  rw [received]
  induction pieces using List.reverseRecOn with
  | nil => exact reads_start
  | append_singleton pieces data ih =>
    rw [List.foldl_concat]
    exact reads_feed data ih

/-- **A request that is complete is the request of a well-formed one.** -/
theorem received_wire {pieces : List Bytes} (h : (received pieces).state = .complete) :
    ∃ r : WireRequest, (received pieces).request = r.request := by
  have hreads := reads_received pieces
  rwa [Reads, h] at hreads

end HttpRequestParser
end NeuStack
